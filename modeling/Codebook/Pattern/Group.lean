import Codebook.Pattern.Class
import Codebook.Text.Letter

namespace Codebook.Pattern

open Codebook.Text

-- Groups in round brackets, and what a pattern consists of.

-- Settings are a piece as well, but cannot be repeated
structure Piece where
  depth : Nat
  repeatable : Bool := true
deriving Repr, DecidableEq, Inhabited

-- A group whose closing bracket has not been read, or the whole pattern
structure Group where
  mode : Mode := {}
  -- the depths of the branches that have been read
  branches : List Nat := []
  -- the pieces of the branch that is read, the last one first
  pieces : List Piece := []
deriving Repr, DecidableEq, Inhabited

namespace Group

def add (depth : Nat) (group : Group) : Group :=
  { group with pieces := { depth } :: group.pieces }

def branch (group : Group) : Nat := nesting (group.pieces.map Piece.depth)

def depth (group : Group) : Nat := nesting (group.branch :: group.branches)

def endBranch (group : Group) : Group :=
  { group with branches := group.branch :: group.branches, pieces := [] }

-- Settings last to the end of the group, in all branches that follow
def set (settings : List Char) (group : Group) : Group :=
  { group with
    mode := group.mode.set settings
    pieces := { depth := 0, repeatable := false } :: group.pieces }

def repeatLast? (group : Group) : Option Group :=
  match group.pieces with
  | ⟨depth, true⟩ :: rest => some { group with pieces := { depth := depth + 1 } :: rest }
  | _ => none

end Group

-- What an opening bracket begins
inductive Opening where
  | group (settings : List Char)
  | named (name : List Char)
  -- no group, but settings for the group around
  | settings (settings : List Char)
deriving Repr, DecidableEq, Inhabited

def isName : List Char → Bool
  | [] => false
  | c :: rest => (c == '_' || isAlphabetic c)
    && rest.all fun c => ['_', '.', '[', ']'].contains c || isAlphanumeric c

def readName? (text : List Char) : Option (Opening × List Char) :=
  match text.dropWhile (· != '>') with
  | '>' :: rest =>
    let name := text.takeWhile (· != '>')
    if isName name then some (.named name, rest) else none
  | _ => none

def endsSettings (c : Char) : Bool := c == ':' || c == ')'

def readSettings? (text : List Char) : Option (Opening × List Char) :=
  let settings := text.takeWhile (!endsSettings ·)
  match text.dropWhile (!endsSettings ·) with
  | ':' :: rest => if Mode.areSettings settings then some (.group settings, rest) else none
  | ')' :: rest =>
    if Mode.areSettings settings && !settings.isEmpty then some (.settings settings, rest)
    else none
  | _ => none

-- What follows an opening bracket
def readGroupOpening? (mode : Mode) (text : List Char) : Option (Opening × List Char) :=
  match mode.skip text with
  | '?' :: 'P' :: '<' :: rest => readName? rest
  | '?' :: '<' :: rest => readName? rest
  | '?' :: rest => readSettings? rest
  | rest => some (.group [], rest)

theorem suffix_of_readName? {opening : Opening} {text rest : List Char}
    (h : readName? text = some (opening, rest)) : rest <:+ text := by
  unfold readName? at h
  split at h
  next behind hs =>
    obtain ⟨-, h⟩ := Option.ite_none_right_eq_some.1 h
    cases h
    exact (List.suffix_cons '>' rest).trans (hs ▸ List.dropWhile_suffix _)
  · cases h

theorem suffix_of_readSettings? {opening : Opening} {text rest : List Char}
    (h : readSettings? text = some (opening, rest)) : rest <:+ text := by
  unfold readSettings? at h
  dsimp only at h
  split at h
  next behind hs =>
    obtain ⟨-, h⟩ := Option.ite_none_right_eq_some.1 h
    cases h
    exact (List.suffix_cons ':' rest).trans (hs ▸ List.dropWhile_suffix _)
  next behind hs =>
    obtain ⟨-, h⟩ := Option.ite_none_right_eq_some.1 h
    cases h
    exact (List.suffix_cons ')' rest).trans (hs ▸ List.dropWhile_suffix _)
  · cases h

theorem suffix_of_readGroupOpening? {mode : Mode} {opening : Opening} {text rest : List Char}
    (h : readGroupOpening? mode text = some (opening, rest)) : rest <:+ text := by
  refine .trans ?_ (mode.skip_suffix text)
  unfold readGroupOpening? at h
  split at h
  next hs =>
    rw [hs]
    exact (suffix_of_readName? h).trans (List.suffix_append ['?', 'P', '<'] _)
  next hs =>
    rw [hs]
    exact (suffix_of_readName? h).trans (List.suffix_append ['?', '<'] _)
  next hs =>
    rw [hs]
    exact (suffix_of_readSettings? h).trans (List.suffix_cons '?' _)
  · cases h
    exact List.suffix_rfl

end Codebook.Pattern
