import Codebook.Pattern.Atom

namespace Codebook.Pattern

-- Classes of characters in square brackets.

-- How deep parts are nested that stand beside one another. One part alone adds no level.
def nesting : List Nat → Nat
  | [] => 0
  | [depth] => depth
  | depths => depths.foldl max 0 + 1

-- A class whose closing bracket has not been read
structure Class where
  -- whether nothing but minus signs stands in it so far
  atStart : Bool := true
  -- the depth of what stands in front of the last operator
  left : Option Nat := none
  -- the depths of the items behind it
  items : List Nat := []
deriving Repr, DecidableEq, Inhabited

namespace Class

def add (depth : Nat) (c : Class) : Class := { c with atStart := false, items := depth :: c.items }

def depth (c : Class) : Nat :=
  match c.left with
  | none => nesting c.items
  | some left => max left (nesting c.items) + 1

-- An operator takes all that stands in front of it
def operate (c : Class) : Class := { atStart := false, left := some c.depth }

end Class

inductive ClassPart where
  | item
  -- a minus sign at the start, which does not end the start
  | minus
  | operator
  | opening
  | closing
deriving Repr, DecidableEq, Inhabited

def classNames : List String :=
  ["alnum", "alpha", "ascii", "blank", "cntrl", "digit", "graph", "lower", "print", "punct",
    "space", "upper", "word", "xdigit"]

-- Whether a name is negated, if it is one
def readNegation? (name : List Char) : Option Bool :=
  match name with
  | '^' :: name => if classNames.contains (String.ofList name) then some true else none
  | _ => if classNames.contains (String.ofList name) then some false else none

-- A name such as `[:alpha:]` behind its bracket: whether it is negated, and what follows
def readClassName? : List Char → Option (Bool × List Char)
  | ':' :: text =>
    match text.dropWhile (· != ':') with
    | ':' :: ']' :: rest => (readNegation? (text.takeWhile (· != ':'))).map (·, rest)
    | _ => none
  | _ => none

-- What follows the opening bracket of a class and its sign of negation. A class of bytes has
-- none, for it would have bytes that are no characters.
def readOpening? (mode : Mode) (text : List Char) : Option (List Char) :=
  match mode.skip text with
  | '^' :: rest => if mode.unicode then some rest else none
  | rest => some rest

-- A character or a range. A minus in front of a closing bracket or of another minus makes no
-- range.
def readRange? (mode : Mode) (c : Char) (text : List Char) : Option (List Char) :=
  (readAtom? mode c text).bind fun (first, rest) =>
    if !first.isAllowedInClass mode then none
    else
      match mode.skip rest with
      | '-' :: behind =>
        if mode.ahead? behind == some ']' || mode.ahead? behind == some '-' then
          some ('-' :: behind)
        else
          match mode.skip behind with
          | [] => none
          | c :: rest => (readAtom? mode c rest).bind fun (last, rest) =>
            match first.code?, last.code? with
            | some low, some high =>
              if low ≤ high && last.isAllowedInClass mode then some rest else none
            | _, _ => none
      | rest => some rest

-- Minus signs at the start are characters. So is a closing bracket that comes first.
def readClassPart? (mode : Mode) (inside : Class) (c : Char) (text : List Char) :
    Option (ClassPart × List Char) :=
  if inside.atStart && c == '-' then
    if mode.tellsCases then some (.minus, text) else none
  else if inside.atStart && inside.items.isEmpty && c == ']' then
    if mode.tellsCases then some (.item, text) else none
  else
    match c, text with
    | '[', text =>
      match readClassName? text with
      | some (negated, rest) =>
        if mode.tellsCases && (mode.unicode || !negated) then some (.item, rest) else none
      | none => (readOpening? mode text).map (.opening, ·)
    | ']', text => some (.closing, text)
    | '&', '&' :: rest => some (.operator, rest)
    | '-', '-' :: rest => some (.operator, rest)
    | '~', '~' :: rest => some (.operator, rest)
    | c, text => (readRange? mode c text).map (.item, ·)

theorem suffix_of_readClassName? {negated : Bool} {text rest : List Char}
    (h : readClassName? text = some (negated, rest)) : rest <:+ text := by
  unfold readClassName? at h
  split at h
  next behind =>
    split at h
    next after hs =>
      obtain ⟨negated, -, h⟩ := Option.map_eq_some_iff.1 h
      cases h
      have hname : ':' :: ']' :: rest <:+ behind := hs ▸ List.dropWhile_suffix _
      exact (List.suffix_append [':', ']'] rest).trans (hname.trans (List.suffix_cons ':' behind))
    · cases h
  · cases h

theorem suffix_of_readOpening? {mode : Mode} {text rest : List Char}
    (h : readOpening? mode text = some rest) : rest <:+ text := by
  have hskip := mode.skip_suffix text
  unfold readOpening? at h
  split at h
  next behind hs =>
    obtain ⟨-, h⟩ := Option.ite_none_right_eq_some.1 h
    cases h
    exact (List.suffix_cons '^' rest).trans (hs ▸ hskip)
  · cases h
    exact hskip

theorem suffix_of_readRange? {mode : Mode} {c : Char} {text rest : List Char}
    (h : readRange? mode c text = some rest) : rest <:+ text := by
  obtain ⟨⟨first, behind⟩, hfirst, h⟩ := Option.bind_eq_some_iff.1 h
  have hbehind := suffix_of_readAtom? hfirst
  have hskip := (mode.skip_suffix behind).trans hbehind
  dsimp only at h
  split at h
  · cases h
  · split at h
    next after hs =>
      have hafter := hs ▸ hskip
      split at h
      · cases h
        exact hafter
      · have hskip := (mode.skip_suffix after).trans ((List.suffix_cons '-' after).trans hafter)
        split at h
        · cases h
        next c after hs =>
          obtain ⟨⟨last, after⟩, hlast, h⟩ := Option.bind_eq_some_iff.1 h
          dsimp only at h
          split at h
          · obtain ⟨-, h⟩ := Option.ite_none_right_eq_some.1 h
            cases h
            exact (suffix_of_readAtom? hlast).trans ((List.suffix_cons _ _).trans (hs ▸ hskip))
          · cases h
    · cases h
      exact hskip

theorem suffix_of_readClassPart? {mode : Mode} {inside : Class} {c : Char} {part : ClassPart}
    {text rest : List Char} (h : readClassPart? mode inside c text = some (part, rest)) :
    rest <:+ text := by
  unfold readClassPart? at h
  split at h
  · obtain ⟨-, h⟩ := Option.ite_none_right_eq_some.1 h
    cases h
    exact List.suffix_rfl
  · split at h
    · obtain ⟨-, h⟩ := Option.ite_none_right_eq_some.1 h
      cases h
      exact List.suffix_rfl
    · split at h
      · split at h
        next negated behind hname =>
          obtain ⟨-, h⟩ := Option.ite_none_right_eq_some.1 h
          cases h
          exact suffix_of_readClassName? hname
        · obtain ⟨behind, hopening, h⟩ := Option.map_eq_some_iff.1 h
          cases h
          exact suffix_of_readOpening? hopening
      · cases h
        exact List.suffix_rfl
      · cases h
        exact List.suffix_cons _ _
      · cases h
        exact List.suffix_cons _ _
      · cases h
        exact List.suffix_cons _ _
      · obtain ⟨behind, hrange, h⟩ := Option.map_eq_some_iff.1 h
        cases h
        exact suffix_of_readRange? hrange

end Codebook.Pattern
