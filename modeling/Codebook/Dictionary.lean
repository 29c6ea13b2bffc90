namespace Codebook

-- Values by key in the order in which the keys came first. A later value takes the place of
-- an earlier one with the same key.
structure Dictionary (κ α : Type) where
  pairs : List (κ × α) := []
deriving Repr, DecidableEq, Inhabited

namespace Dictionary

variable {κ α : Type} [DecidableEq κ]

def putInto (key : κ) (value : α) : List (κ × α) → List (κ × α)
  | [] => [(key, value)]
  | (k, v) :: rest => if k = key then (k, value) :: rest else (k, v) :: putInto key value rest

def lookup (key : κ) : List (κ × α) → Option α
  | [] => none
  | (k, v) :: rest => if k = key then some v else lookup key rest

def put (d : Dictionary κ α) (key : κ) (value : α) : Dictionary κ α :=
  ⟨putInto key value d.pairs⟩

def get? (d : Dictionary κ α) (key : κ) : Option α := lookup key d.pairs

def ofList (entries : List (κ × α)) : Dictionary κ α :=
  entries.foldl (fun d (key, value) => d.put key value) {}

def size (d : Dictionary κ α) : Nat := d.pairs.length
def isEmpty (d : Dictionary κ α) : Bool := d.pairs.isEmpty
def keys (d : Dictionary κ α) : List κ := d.pairs.map Prod.fst
def values (d : Dictionary κ α) : List α := d.pairs.map Prod.snd

theorem lookup_putInto (key other : κ) (value : α) (pairs : List (κ × α)) :
    lookup other (putInto key value pairs)
      = if other = key then some value else lookup other pairs := by
  induction pairs with
  | nil =>
    simp only [putInto, lookup]
    split <;> simp_all [eq_comm]
  | cons pair rest ih =>
    obtain ⟨k, v⟩ := pair
    simp only [putInto]
    split
    · simp only [lookup]
      split <;> simp_all [eq_comm]
    · simp only [lookup, ih]
      split <;> simp_all [eq_comm]

theorem get?_put (d : Dictionary κ α) (key other : κ) (value : α) :
    (d.put key value).get? other = if other = key then some value else d.get? other :=
  lookup_putInto key other value d.pairs

-- Putting a value leaves the keys as they are, or adds its key at the end
theorem keys_put (d : Dictionary κ α) (key : κ) (value : α) :
    (d.put key value).keys = if key ∈ d.keys then d.keys else d.keys ++ [key] := by
  obtain ⟨pairs⟩ := d
  simp only [put, keys]
  induction pairs with
  | nil => rfl
  | cons pair rest ih =>
    obtain ⟨k, v⟩ := pair
    simp only [putInto]
    split
    · simp_all
    · rename_i hk
      simp only [List.map_cons, ih, List.mem_cons, Ne.symm hk, false_or]
      by_cases h : key ∈ rest.map Prod.fst <;> simp [h]

end Dictionary

end Codebook
