namespace Codebook

-- Places in a source text. A place is computed from the text in front of it and kept by
-- no reader.

-- Bytes and line feeds in front of a place, and characters since the last line feed
structure Position where
  byte : Nat := 0
  line : Nat := 0
  column : Nat := 0
deriving Repr, DecidableEq, Inhabited

namespace Position

def start : Position := {}

def next (p : Position) (c : Char) : Position :=
  if c = '\n' then ⟨p.byte + c.utf8Size, p.line + 1, 0⟩
  else ⟨p.byte + c.utf8Size, p.line, p.column + 1⟩

-- The place behind a text that begins here
def after (p : Position) (text : List Char) : Position := text.foldl next p

@[simp] theorem after_nil (p : Position) : p.after [] = p := rfl

@[simp] theorem after_cons (p : Position) (c : Char) (text : List Char) :
    p.after (c :: text) = (p.next c).after text := rfl

@[simp] theorem after_append (p : Position) (first second : List Char) :
    p.after (first ++ second) = (p.after first).after second := by
  simp [after]

end Position

-- From one place to another of the same text
structure Span where
  start : Position := {}
  stop : Position := {}
deriving Repr, DecidableEq, Inhabited

namespace Span

def point (p : Position) : Span := ⟨p, p⟩

-- What a text covers that begins at a place
def covering (p : Position) (text : List Char) : Span := ⟨p, p.after text⟩

end Span

-- A value read from a source text, with the place it was read from
structure Located (α : Type) where
  value : α
  span : Span
deriving Repr, DecidableEq, Inhabited

-- The number of bytes that a text takes up
def byteLength : List Char → Nat
  | [] => 0
  | c :: rest => c.utf8Size + byteLength rest

-- The characters of a text that begin from one byte on and in front of another
def slice (start stop : Nat) : List Char → List Char
  | [] => []
  | c :: rest =>
    let behind := slice (start - c.utf8Size) (stop - c.utf8Size) rest
    if start = 0 ∧ 0 < stop then c :: behind else behind

@[simp] theorem byteLength_nil : byteLength [] = 0 := rfl

@[simp] theorem byteLength_cons (c : Char) (text : List Char) :
    byteLength (c :: text) = c.utf8Size + byteLength text := rfl

@[simp] theorem byteLength_append (first second : List Char) :
    byteLength (first ++ second) = byteLength first + byteLength second := by
  induction first with
  | nil => simp
  | cons c rest ih => simp [ih, Nat.add_assoc]

theorem slice_self (start : Nat) (text : List Char) : slice start start text = [] := by
  induction text generalizing start with
  | nil => rfl
  | cons c rest ih => simp [slice, ih]

-- What stands between two texts is the slice from the end of the first one on
theorem slice_append (front text behind : List Char) :
    slice (byteLength front) (byteLength front + byteLength text) (front ++ text ++ behind)
      = text := by
  induction front with
  | nil =>
    induction text with
    | nil => exact slice_self _ behind
    | cons c rest ih =>
      simp only [byteLength_nil, Nat.zero_add, List.nil_append] at ih
      simp only [byteLength_nil, byteLength_cons, Nat.zero_add, List.nil_append,
        List.cons_append, slice, Nat.zero_sub, Nat.add_sub_cancel_left, ih]
      exact if_pos ⟨trivial, Nat.add_pos_left c.utf8Size_pos _⟩
  | cons c rest ih =>
    have := c.utf8Size_pos
    simp only [byteLength_cons, List.cons_append, slice]
    rw [if_neg (by omega), Nat.add_sub_cancel_left,
      show c.utf8Size + byteLength rest + byteLength text - c.utf8Size
        = byteLength rest + byteLength text by omega, ih]

end Codebook
