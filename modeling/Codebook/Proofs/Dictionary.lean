import Codebook.Dictionary
import Codebook.Proofs.Distinct

namespace Codebook.Dictionary

variable {κ α β : Type} [DecidableEq κ]

theorem lookup_eq_none_iff (key : κ) (pairs : List (κ × α)) :
    lookup key pairs = none ↔ key ∉ pairs.map Prod.fst := by
  induction pairs with
  | nil => simp [lookup]
  | cons pair rest ih =>
      obtain ⟨k, v⟩ := pair
      by_cases h : k = key
      · simp [lookup, h]
      · simp [lookup, h, ih, Ne.symm h]

theorem find?_key (key : κ) (pairs : List (κ × α)) :
    (pairs.find? fun pair => pair.1 == key).map Prod.snd = lookup key pairs := by
  induction pairs with
  | nil => rfl
  | cons pair rest ih =>
      obtain ⟨k, v⟩ := pair
      by_cases h : k = key
      · simp [lookup, h]
      · simp [lookup, h, ih]

theorem lookup_append (key : κ) (front behind : List (κ × α)) :
    lookup key (front ++ behind) = (lookup key front).or (lookup key behind) := by
  induction front with
  | nil => simp [lookup]
  | cons pair rest ih =>
      obtain ⟨k, v⟩ := pair
      by_cases h : k = key <;> simp [lookup, h, ih]

theorem mem_of_lookup {key : κ} {value : α} {pairs : List (κ × α)}
    (h : lookup key pairs = some value) : (key, value) ∈ pairs := by
  induction pairs with
  | nil => simp [lookup] at h
  | cons pair rest ih =>
      obtain ⟨k, v⟩ := pair
      by_cases hk : k = key
      · simp only [lookup, hk, if_true, Option.some.injEq] at h
        simp [hk, h]
      · simp only [lookup, hk, if_false] at h
        exact List.mem_cons_of_mem _ (ih h)

-- With distinct keys every pair is the one that its key leads to.
theorem lookup_eq_some_iff {pairs : List (κ × α)} (hn : (pairs.map Prod.fst).Nodup)
    (key : κ) (value : α) : lookup key pairs = some value ↔ (key, value) ∈ pairs := by
  refine ⟨mem_of_lookup, fun hm => ?_⟩
  induction pairs with
  | nil => simp at hm
  | cons pair rest ih =>
      obtain ⟨k, v⟩ := pair
      obtain ⟨hk, hrest⟩ := List.nodup_cons.mp hn
      rcases List.mem_cons.mp hm with he | hm
      · obtain ⟨rfl, rfl⟩ := Prod.mk.injEq .. ▸ he
        simp [lookup]
      · have hne : k ≠ key := by
          rintro rfl
          exact hk (List.mem_map.mpr ⟨_, hm, rfl⟩)
        simp only [lookup, hne, if_false]
        exact ih hrest hm

theorem putInto_of_notMem {key : κ} {value : α} {pairs : List (κ × α)}
    (h : key ∉ pairs.map Prod.fst) : putInto key value pairs = pairs ++ [(key, value)] := by
  induction pairs with
  | nil => rfl
  | cons pair rest ih =>
      obtain ⟨k, v⟩ := pair
      simp only [List.map_cons, List.mem_cons, not_or] at h
      simp [putInto, Ne.symm h.1, ih h.2]

-- A value that is put where it is already changes nothing.
theorem put_of_get? {d : Dictionary κ α} {key : κ} {value : α} (h : d.get? key = some value) :
    d.put key value = d := by
  have hpairs (pairs : List (κ × α)) (hp : lookup key pairs = some value) :
      putInto key value pairs = pairs := by
    induction pairs with
    | nil => simp [lookup] at hp
    | cons pair rest ih =>
        obtain ⟨k, v⟩ := pair
        by_cases hk : k = key
        · simp only [lookup, hk, if_true, Option.some.injEq] at hp
          simp [putInto, hk, hp]
        · simp only [lookup, hk, if_false] at hp
          simp [putInto, hk, ih hp]
  exact congrArg Dictionary.mk (hpairs d.pairs h)

-- A value that is put in place of another is passed on in its place.
theorem filterMap_putInto {f : κ × α → Option β} {key : κ} {before value : α}
    {pairs : List (κ × α)} (hb : lookup key pairs = some before)
    (hf : f (key, value) = f (key, before)) :
    (putInto key value pairs).filterMap f = pairs.filterMap f := by
  induction pairs with
  | nil => simp [lookup] at hb
  | cons pair rest ih =>
      obtain ⟨k, v⟩ := pair
      by_cases hk : k = key
      · simp only [lookup, hk, if_true, Option.some.injEq] at hb
        subst hk hb
        simp [putInto, List.filterMap_cons, hf]
      · simp only [lookup, hk, if_false] at hb
        simp only [putInto, hk, if_false, List.filterMap_cons, ih hb]

theorem keys_nodup_put (d : Dictionary κ α) (key : κ) (value : α) (hn : d.keys.Nodup) :
    (d.put key value).keys.Nodup := by
  rw [keys_put]
  split
  · exact hn
  · rename_i hk
    exact List.nodup_append.mpr ⟨hn, List.nodup_singleton key, by
      intro a ha b hb hab
      rw [List.mem_singleton] at hb
      exact hk (hb ▸ hab ▸ ha)⟩

-- Entries put one after the other into a dictionary that may hold some already
def putAll (d : Dictionary κ α) (entries : List (κ × α)) : Dictionary κ α :=
  entries.foldl (fun d (key, value) => d.put key value) d

theorem ofList_eq_putAll (entries : List (κ × α)) :
    ofList entries = putAll {} entries := rfl

theorem get?_putAll (d : Dictionary κ α) (entries : List (κ × α)) (key : κ) :
    (d.putAll entries).get? key = (lookup key entries.reverse).or (d.get? key) := by
  induction entries generalizing d with
  | nil => simp [putAll, lookup]
  | cons entry rest ih =>
      obtain ⟨k, v⟩ := entry
      have hput := ih (d.put k v)
      simp only [putAll, List.foldl_cons, List.reverse_cons, lookup_append] at hput ⊢
      rw [hput, get?_put]
      by_cases h : key = k
      · subst h; simp [lookup]
      · simp [lookup, Ne.symm h, h]

-- The last entry with a key gives its value.
theorem get?_ofList (entries : List (κ × α)) (key : κ) :
    (ofList entries).get? key = lookup key entries.reverse := by
  rw [ofList_eq_putAll, get?_putAll]
  simp [get?, lookup]

-- A key leads to the value of its last entry.
theorem lookup_reverse_eq_some_iff (entries : List (κ × α)) (key : κ) (value : α) :
    lookup key entries.reverse = some value ↔
      ∃ front behind, entries = front ++ (key, value) :: behind ∧
        key ∉ behind.map Prod.fst := by
  induction entries with
  | nil => simp [lookup]
  | cons entry rest ih =>
      obtain ⟨k, v⟩ := entry
      rw [List.reverse_cons, lookup_append, Option.or_eq_some_iff, ih, lookup_eq_none_iff]
      constructor
      · rintro (⟨front, behind, rfl, hn⟩ | ⟨hnone, hlast⟩)
        · exact ⟨(k, v) :: front, behind, rfl, hn⟩
        · have hk : k = key ∧ v = value := by
            by_cases hk : k = key
            · simpa [lookup, hk] using hlast
            · simp [lookup, hk] at hlast
          obtain ⟨rfl, rfl⟩ := hk
          exact ⟨[], rest, rfl, by simpa using hnone⟩
      · rintro ⟨front, behind, he, hn⟩
        cases front with
        | nil =>
            obtain ⟨hpair, rfl⟩ := List.cons.inj he
            obtain ⟨rfl, rfl⟩ := Prod.mk.inj hpair
            exact .inr ⟨by simpa using hn, by simp [lookup]⟩
        | cons first front =>
            exact .inl ⟨front, behind, (List.cons.inj he).2, hn⟩

theorem keys_nodup_putAll (d : Dictionary κ α) (entries : List (κ × α)) (hn : d.keys.Nodup) :
    (d.putAll entries).keys.Nodup := by
  induction entries generalizing d with
  | nil => exact hn
  | cons entry rest ih => exact ih _ (keys_nodup_put d _ _ hn)

theorem keys_nodup_ofList (entries : List (κ × α)) : (ofList entries).keys.Nodup :=
  keys_nodup_putAll {} entries List.nodup_nil

-- The keys are kept in the order in which they came first.
theorem keys_ofList (entries : List (κ × α)) :
    (ofList entries).keys = (entries.map Prod.fst).eraseDups := by
  induction entries using List.reverseRecOn with
  | nil => rfl
  | append_singleton front entry ih =>
      obtain ⟨key, value⟩ := entry
      have hput : ofList (front ++ [(key, value)]) = (ofList front).put key value := by
        simp [ofList]
      rw [hput, keys_put, ih, List.map_append, List.map_singleton, eraseDups_concat]
      simp only [List.mem_eraseDups]

theorem mem_pairs_ofList (entries : List (κ × α)) (key : κ) (value : α) :
    (key, value) ∈ (ofList entries).pairs ↔ lookup key entries.reverse = some value := by
  rw [← get?_ofList, get?, lookup_eq_some_iff (keys_nodup_ofList entries)]

theorem pairs_putAll_of_nodup (d : Dictionary κ α) (entries : List (κ × α))
    (hn : (d.keys ++ entries.map Prod.fst).Nodup) :
    (d.putAll entries).pairs = d.pairs ++ entries := by
  induction entries generalizing d with
  | nil => simp [putAll]
  | cons entry rest ih =>
      obtain ⟨k, v⟩ := entry
      have hk : k ∉ d.pairs.map Prod.fst := by
        intro hm
        exact (List.nodup_append.mp hn).2.2 k hm k (by simp) rfl
      have hpairs : (d.put k v).pairs = d.pairs ++ [(k, v)] := putInto_of_notMem hk
      have hn' : ((d.put k v).keys ++ rest.map Prod.fst).Nodup := by
        simpa [keys, hpairs] using hn
      have hrest := ih (d.put k v) hn'
      rw [hpairs, List.append_assoc, List.singleton_append] at hrest
      exact hrest

-- Entries with distinct keys are kept as they are.
theorem pairs_ofList_of_nodup {entries : List (κ × α)} (hn : (entries.map Prod.fst).Nodup) :
    (ofList entries).pairs = entries := by
  simpa [ofList_eq_putAll] using pairs_putAll_of_nodup {} entries (by simpa [keys] using hn)

theorem putInto_map (f : α → β) (key : κ) (value : α) (pairs : List (κ × α)) :
    putInto key (f value) (pairs.map (Prod.map id f))
      = (putInto key value pairs).map (Prod.map id f) := by
  induction pairs with
  | nil => rfl
  | cons pair rest ih =>
      obtain ⟨k, v⟩ := pair
      by_cases h : k = key <;> simp [putInto, h, ih]

theorem pairs_putAll_map (f : α → β) (d : Dictionary κ α) (entries : List (κ × α)) :
    (putAll ⟨d.pairs.map (Prod.map id f)⟩ (entries.map (Prod.map id f))).pairs
      = (d.putAll entries).pairs.map (Prod.map id f) := by
  induction entries generalizing d with
  | nil => rfl
  | cons entry rest ih =>
      obtain ⟨k, v⟩ := entry
      have hput := ih (d.put k v)
      rw [put, ← putInto_map] at hput
      exact hput

-- Values can be changed one by one before they are put or afterwards.
theorem values_ofList_map (f : α → β) (entries : List (κ × α)) :
    (ofList (entries.map (Prod.map id f))).values = (ofList entries).values.map f := by
  have hpairs := pairs_putAll_map f {} entries
  rw [ofList_eq_putAll, values, ofList_eq_putAll, values, List.map_map]
  exact (congrArg (List.map Prod.snd) hpairs).trans (by simp [Function.comp_def])

end Codebook.Dictionary
