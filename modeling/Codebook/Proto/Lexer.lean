import Codebook.Proto.Comment
import Codebook.Proto.Fault
import Codebook.Proto.Token

namespace Codebook.Proto

open Codebook.Text

-- A source text is cut into pieces first, and places are given to the pieces afterwards, so
-- how a text is cut does not depend on where it stands.

-- A stretch of source text and the token that it stands for. Blanks and plain block
-- comments stand for none.
structure Piece where
  text : List Char
  token : Option Token
deriving Repr, DecidableEq

-- Why no piece could be cut off, with the text that was passed over until then
inductive CutFault where
  | openQuote (quote : Char) (text : List Char)
  | openComment (text : List Char)
deriving Repr, DecidableEq

def isLetter (c : Char) : Bool := ('a' ≤ c && c ≤ 'z') || ('A' ≤ c && c ≤ 'Z')
def isDigit (c : Char) : Bool := '0' ≤ c && c ≤ '9'
def startsWord (c : Char) : Bool := isLetter c || c == '_'
def inWord (c : Char) : Bool := isLetter c || isDigit c || c == '_'
def inNumber (c : Char) : Bool := isLetter c || isDigit c || c == '.'

-- The body of a block comment and the text behind its end
def splitComment : List Char → Option (List Char × List Char)
  | [] => none
  | '*' :: '/' :: rest => some ([], rest)
  | c :: rest => (splitComment rest).map fun (body, more) => (c :: body, more)

-- What follows an opening quote: the value and the text it was written as, up to the
-- closing quote, and the rest
inductive Quoted where
  | closed (value text rest : List Char)
  | unclosed (text : List Char)
deriving Repr, DecidableEq

-- One more character was passed over in front, or two for an escape
def Quoted.behind (value text : List Char) : Quoted → Quoted
  | closed value' text' rest => closed (value ++ value') (text ++ text') rest
  | unclosed text' => unclosed (text ++ text')

-- A backslash keeps the next character, also a quote or a line feed; a bare line feed
-- leaves the quote open
def splitQuoted (quote : Char) : List Char → Quoted
  | [] => .unclosed []
  | [c] => if c = quote then .closed [] [c] [] else .unclosed [c]
  | c :: d :: rest =>
    if c = quote then .closed [] [c] (d :: rest)
    else if c = '\\' then (splitQuoted quote rest).behind [d] [c, d]
    else if c = '\n' then .unclosed [c]
    else (splitQuoted quote (d :: rest)).behind [c] [c]

-- A block comment documents what follows when its body begins with a star
def commentPiece (body : List Char) : Piece where
  text := '/' :: '*' :: (body ++ ['*', '/'])
  token := if body.head? = some '*' then some (.doc (docLines body)) else none

def runPiece (c : Char) (run : List Char) (token : List Char → Token) : Piece :=
  ⟨c :: run, some (token (c :: run))⟩

-- The first piece of a text that is not empty, and the rest
def cut (c : Char) (rest : List Char) : Except CutFault (Piece × List Char) :=
  if isBlank c then .ok (⟨[c], none⟩, rest)
  else if c = '/' then
    match rest with
    | '/' :: _ =>
      .ok (runPiece c (rest.takeWhile (· != '\n')) fun text => .remark (remarkText text),
        rest.dropWhile (· != '\n'))
    | '*' :: inside =>
      match splitComment inside with
      | some (body, more) => .ok (commentPiece body, more)
      | none => .error (.openComment (c :: rest))
    | _ => .ok (⟨[c], some (.symbol c)⟩, rest)
  else if c = '"' ∨ c = '\'' then
    match splitQuoted c rest with
    | .closed value text more => .ok (⟨c :: text, some (.quoted (String.ofList value))⟩, more)
    | .unclosed text => .error (.openQuote c (c :: text))
  else if startsWord c then
    .ok (runPiece c (rest.takeWhile inWord) fun text => .word (String.ofList text),
      rest.dropWhile inWord)
  else if isDigit c then
    .ok (runPiece c (rest.takeWhile inNumber) fun text => .number (String.ofList text),
      rest.dropWhile inNumber)
  else .ok (⟨[c], some (.symbol c)⟩, rest)

theorem splitComment_eq {text body rest : List Char} (h : splitComment text = some (body, rest)) :
    text = body ++ '*' :: '/' :: rest := by
  fun_induction splitComment text generalizing body rest with
  | case1 => simp at h
  | case2 => simp_all
  | case3 c text _ ih =>
    obtain ⟨⟨b, r⟩, hb, he⟩ := Option.map_eq_some_iff.1 h
    simp only [Prod.mk.injEq] at he
    obtain ⟨rfl, rfl⟩ := he
    simp [ih hb]

theorem Quoted.behind_eq_closed {value text v w rest : List Char} {q : Quoted}
    (h : q.behind value text = .closed v w rest) :
    ∃ v' w', q = .closed v' w' rest ∧ v = value ++ v' ∧ w = text ++ w' := by
  cases q with
  | closed v' w' r =>
    simp only [Quoted.behind, Quoted.closed.injEq] at h
    obtain ⟨rfl, rfl, rfl⟩ := h
    exact ⟨v', w', rfl, rfl, rfl⟩
  | unclosed w' => simp [Quoted.behind] at h

theorem splitQuoted_closed_eq {quote : Char} {text value written rest : List Char}
    (h : splitQuoted quote text = .closed value written rest) : text = written ++ rest := by
  fun_induction splitQuoted quote text generalizing value written rest with
  | case1 => simp at h
  | case2 => simp_all
  | case3 => simp at h
  | case4 =>
    simp only [Quoted.closed.injEq] at h
    obtain ⟨rfl, rfl, rfl⟩ := h
    rfl
  | case5 _ _ _ ih =>
    obtain ⟨v, w, hq, rfl, rfl⟩ := Quoted.behind_eq_closed h
    simp [ih hq]
  | case6 => simp at h
  | case7 _ _ _ _ _ _ ih =>
    obtain ⟨v, w, hq, rfl, rfl⟩ := Quoted.behind_eq_closed h
    simp [ih hq]

-- The first piece and the rest are the text, and the piece is not empty
theorem cut_eq {c : Char} {rest more : List Char} {piece : Piece}
    (h : cut c rest = .ok (piece, more)) :
    c :: rest = piece.text ++ more ∧ piece.text ≠ [] := by
  unfold cut at h
  split at h
  · simp only [Except.ok.injEq, Prod.mk.injEq] at h
    obtain ⟨rfl, rfl⟩ := h
    simp
  split at h
  · split at h
    · simp only [Except.ok.injEq, Prod.mk.injEq, runPiece] at h
      obtain ⟨rfl, rfl⟩ := h
      simp [List.takeWhile_append_dropWhile]
    · split at h
      · rename_i hs
        simp only [Except.ok.injEq, Prod.mk.injEq] at h
        obtain ⟨rfl, rfl⟩ := h
        subst_vars
        simp [commentPiece, splitComment_eq hs]
      · simp at h
    · simp only [Except.ok.injEq, Prod.mk.injEq] at h
      obtain ⟨rfl, rfl⟩ := h
      simp
  split at h
  · split at h
    · rename_i hq
      simp only [Except.ok.injEq, Prod.mk.injEq] at h
      obtain ⟨rfl, rfl⟩ := h
      simp [splitQuoted_closed_eq hq]
    · simp at h
  split at h
  · simp only [Except.ok.injEq, Prod.mk.injEq, runPiece] at h
    obtain ⟨rfl, rfl⟩ := h
    simp [List.takeWhile_append_dropWhile]
  split at h
  · simp only [Except.ok.injEq, Prod.mk.injEq, runPiece] at h
    obtain ⟨rfl, rfl⟩ := h
    simp [List.takeWhile_append_dropWhile]
  · simp only [Except.ok.injEq, Prod.mk.injEq] at h
    obtain ⟨rfl, rfl⟩ := h
    simp

theorem length_lt_of_cut {c : Char} {rest more : List Char} {piece : Piece}
    (h : cut c rest = .ok (piece, more)) : more.length < rest.length + 1 := by
  obtain ⟨he, hne⟩ := cut_eq h
  have hl := congrArg List.length he
  have := List.length_pos_iff.2 hne
  simp only [List.length_cons, List.length_append] at hl
  omega

-- The pieces of a text, up to its end or to the first place where none can be cut off
def pieces (text : List Char) : List Piece × Option CutFault :=
  match text with
  | [] => ([], none)
  | c :: rest =>
    match h : cut c rest with
    | .error fault => ([], some fault)
    | .ok (piece, more) =>
      have := length_lt_of_cut h
      let (behind, fault) := pieces more
      (piece :: behind, fault)
termination_by text.length

-- The tokens among pieces that begin at a place
def place (start : Position) : List Piece → List (Located Token)
  | [] => []
  | piece :: rest =>
    let behind := place (start.after piece.text) rest
    match piece.token with
    | some token => ⟨token, Span.covering start piece.text⟩ :: behind
    | none => behind

def CutFault.located (fault : CutFault) (start : Position) : Fault :=
  match fault with
  | openQuote quote text => .openQuote quote (Span.covering start text)
  | openComment text => .openComment (Span.covering start text)

def tokenize (source : String) : Except Fault TokenStream :=
  match pieces source.toList with
  | (ps, none) => .ok ⟨place .start ps, Position.start.after source.toList⟩
  | (ps, some fault) => .error (fault.located (Position.start.after (ps.flatMap Piece.text)))

end Codebook.Proto
