import Codebook.Pattern.Group

namespace Codebook.Pattern

-- Patterns are regular expressions. A text is read from its start, and the state holds the
-- groups and classes that are open at the place reached.

structure State where
  -- the innermost open group, or the whole pattern
  group : Group := {}
  -- the groups around it, the inner ones first
  outer : List Group := []
  -- the open classes, the inner ones first
  classes : List Class := []
  -- the names of groups so far
  names : List (List Char) := []
deriving Repr, DecidableEq, Inhabited

namespace State

def mode (state : State) : Mode := state.group.mode

def add (depth : Nat) (state : State) : State := { state with group := state.group.add depth }

def beginGroup (settings : List Char) (state : State) : State :=
  { state with
    group := { mode := state.mode.set settings }
    outer := state.group :: state.outer }

def begin? (state : State) : Opening → Option State
  | .group settings => some (state.beginGroup settings)
  | .named name =>
    if state.names.contains name then none
    else some { state.beginGroup [] with names := name :: state.names }
  | .settings settings => some { state with group := state.group.set settings }

def endGroup? (state : State) : Option State :=
  match state.outer with
  | [] => none
  | group :: outer => some { state with group := group.add (state.group.depth + 1), outer }

-- The state behind a part of the innermost open class, with the classes around it
def takeClassPart (state : State) (inside : Class) (around : List Class) : ClassPart → State
  | .item => { state with classes := inside.add 0 :: around }
  | .minus => { state with classes := { inside.add 0 with atStart := true } :: around }
  | .operator => { state with classes := inside.operate :: around }
  | .opening => { state with classes := {} :: inside :: around }
  | .closing =>
    match around with
    | [] => { state.add (inside.depth + 1) with classes := [] }
    | outer :: around => { state with classes := outer.add (inside.depth + 1) :: around }

-- What follows a sign of repetition. A question mark right behind it only asks for few.
def behindRepetition (text : List Char) : List Char :=
  match text with
  | '?' :: rest => rest
  | _ => text

-- What an opening brace begins is never complete: a pattern stands in braces itself and has
-- none that closes
def readOutside? (state : State) (c : Char) (text : List Char) :
    Option (State × List Char) :=
  match c with
  | '(' => (readGroupOpening? state.mode text).bind fun (opening, rest) =>
    (state.begin? opening).map (·, rest)
  | ')' => state.endGroup?.map (·, text)
  | '|' => some ({ state with group := state.group.endBranch }, text)
  | '[' => (readOpening? state.mode text).map ({ state with classes := [{}] }, ·)
  | '?' | '*' | '+' => state.group.repeatLast?.map fun group =>
    ({ state with group }, behindRepetition text)
  | '\x7b' => none
  | '^' | '$' => some (state.add 0, text)
  | '.' => if state.mode.unicode then some (state.add 0, text) else none
  | c => (readAtom? state.mode c text).bind fun (atom, rest) =>
    if atom.isAllowed state.mode then some (state.add 0, rest) else none

def read? (state : State) (c : Char) (text : List Char) : Option (State × List Char) :=
  match state.classes with
  | [] => state.readOutside? c text
  | inside :: around => (readClassPart? state.mode inside c text).map fun (part, rest) =>
    (state.takeClassPart inside around part, rest)

theorem suffix_of_readOutside? {state next : State} {c : Char} {text rest : List Char}
    (h : state.readOutside? c text = some (next, rest)) : rest <:+ text := by
  unfold readOutside? at h
  split at h
  · obtain ⟨⟨opening, behind⟩, hopening, h⟩ := Option.bind_eq_some_iff.1 h
    obtain ⟨next, -, h⟩ := Option.map_eq_some_iff.1 h
    cases h
    exact suffix_of_readGroupOpening? hopening
  · obtain ⟨next, -, h⟩ := Option.map_eq_some_iff.1 h
    cases h
    exact List.suffix_rfl
  · cases h
    exact List.suffix_rfl
  · obtain ⟨behind, hopening, h⟩ := Option.map_eq_some_iff.1 h
    cases h
    exact suffix_of_readOpening? hopening
  iterate 3
    · obtain ⟨group, -, h⟩ := Option.map_eq_some_iff.1 h
      cases h
      unfold behindRepetition
      split
      · exact List.suffix_cons _ _
      · exact List.suffix_rfl
  · cases h
  · cases h
    exact List.suffix_rfl
  · cases h
    exact List.suffix_rfl
  · obtain ⟨-, h⟩ := Option.ite_none_right_eq_some.1 h
    cases h
    exact List.suffix_rfl
  · obtain ⟨⟨atom, behind⟩, hatom, h⟩ := Option.bind_eq_some_iff.1 h
    obtain ⟨-, h⟩ := Option.ite_none_right_eq_some.1 h
    cases h
    exact suffix_of_readAtom? hatom

theorem suffix_of_read? {state next : State} {c : Char} {text rest : List Char}
    (h : state.read? c text = some (next, rest)) : rest <:+ text := by
  unfold read? at h
  split at h
  · exact suffix_of_readOutside? h
  · obtain ⟨⟨part, behind⟩, hpart, h⟩ := Option.map_eq_some_iff.1 h
    cases h
    exact suffix_of_readClassPart? hpart

theorem length_lt_of_read? {state next : State} {c : Char} {text behind rest : List Char}
    (hskip : state.mode.skip text = c :: behind)
    (hread : state.read? c behind = some (next, rest)) : rest.length < text.length := by
  have hlength := (hskip ▸ state.mode.skip_suffix text).length_le
  have := (suffix_of_read? hread).length_le
  rw [List.length_cons] at hlength
  omega

-- The state at the end of a text
def run? (state : State) (text : List Char) : Option State :=
  match hskip : state.mode.skip text with
  | [] => some state
  | c :: behind =>
    match hread : state.read? c behind with
    | none => none
    | some (next, rest) =>
      have : rest.length < text.length := length_lt_of_read? hskip hread
      run? next rest
termination_by text.length

def maximumDepth : Nat := 250

-- Whether all that was opened has been closed, and nothing is nested too deep
def isComplete (state : State) : Bool :=
  state.outer.isEmpty && state.classes.isEmpty && state.group.depth ≤ maximumDepth

end State

end Pattern

def isPattern (text : List Char) : Bool :=
  (Pattern.State.run? {} text).any Pattern.State.isComplete

example : isPattern "a**|[]a-c&&b]?".toList ∧ !isPattern "a|*".toList ∧ !isPattern "(a".toList := by
  decide +kernel

end Codebook
