import Codebook.Declarations.Block
import Codebook.Number.Literal

namespace Codebook.Declarations

open Codebook.Text

-- Lines of the form `NAME = CODE`. One comma or semicolon may end the code, and a comment may
-- follow it.

structure Entry where
  name : String
  -- as written, without the delimiter
  code : String
  number : Int
  span : Span
deriving Repr, DecidableEq, Inhabited

-- A stretch of a line without blanks, and the column where it begins
structure Field where
  column : Nat
  text : List Char
deriving Repr, DecidableEq, Inhabited

-- The fields of a text that begins at a column
def fieldsFrom (column : Nat) : List Char → List Field
  | [] => []
  | [c] => if isBlank c then [] else [⟨column, [c]⟩]
  | c :: d :: rest =>
    let behind := fieldsFrom (column + 1) (d :: rest)
    if isBlank c then behind
    else if isBlank d then ⟨column, [c]⟩ :: behind
    else
      match behind with
      | [] => [⟨column, [c]⟩]
      | field :: more => ⟨column, c :: field.text⟩ :: more

def withoutDelimiter (code : List Char) : List Char :=
  match code.reverse with
  | ',' :: body => body.reverse
  | ';' :: body => body.reverse
  | _ => code

def stripDelimiter (code : String) : String := String.ofList (withoutDelimiter code.toList)

def beginsComment (text : List Char) : Bool :=
  match text with
  | '/' :: '/' :: _ => true
  | '/' :: '*' :: _ => true
  | '*' :: _ => true
  | _ => false

-- What a field of a line covers
def Line.fieldSpan (line : Line) (field : Field) : Span :=
  let first := line.span.start
  let start : Position :=
    { byte := first.byte + byteLength (line.text.toList.take field.column)
      line := first.line
      column := first.column + field.column }
  ⟨start, ⟨start.byte + byteLength field.text, start.line, start.column + field.text.length⟩⟩

inductive EntryFault where
  | fieldCount (count : Nat) (span : Span)
  | notEquals (name found : String) (span : Span)
  | extra (found : String) (span : Span)
  | notInteger (code : String) (span : Span)
deriving Repr, DecidableEq, Inhabited

def EntryFault.diagnostic : EntryFault → Diagnostic
  | fieldCount count span =>
    let plural := if count = 1 then "" else "s"
    { kind := .malformedLine
      message := s!"Expected 'NAME = CODE', found {count} field{plural}."
      span
      help := some "Each enum line needs a name, '=' and a code, separated by spaces" }
  | notEquals name found span =>
    { kind := .malformedLine, message := s!"Expected '=' after '{name}', found '{found}'.", span }
  | extra found span =>
    { kind := .malformedLine, message := s!"Unexpected '{found}' after the code.", span }
  | notInteger code span =>
    { kind := .invalidNumber, message := s!"'{code}' is not an integer code.", span }

-- The entry of a name and a code
def entryOf (line : Line) (name code : Field) : Except EntryFault Entry :=
  let written := withoutDelimiter code.text
  match Number.readLiteral written with
  | some number => .ok ⟨String.ofList name.text, String.ofList written, number, line.span⟩
  | none => .error (.notInteger (String.ofList code.text) (line.fieldSpan code))

-- A comment is all that may follow the code
def followingFault (line : Line) (rest : List Field) : Option EntryFault :=
  match rest with
  | [] => none
  | field :: _ =>
    if beginsComment field.text then none
    else some (.extra (String.ofList field.text) (line.fieldSpan field))

def readFields (line : Line) (fields : List Field) : Except EntryFault Entry :=
  match fields with
  | name :: equals :: code :: rest =>
    if equals.text ≠ ['='] then
      .error (.notEquals (String.ofList name.text) (String.ofList equals.text)
        (line.fieldSpan equals))
    else
      match followingFault line rest with
      | some fault => .error fault
      | none => entryOf line name code
  | _ => .error (.fieldCount fields.length line.span)

-- Blank lines and comments hold no entry
def readEntry (line : Line) : Except EntryFault (Option Entry) :=
  let text := line.text.toList
  if text.isEmpty || beginsComment text then .ok none
  else (readFields line (fieldsFrom 0 text)).map some

def readLines : List Line → Except EntryFault (List Entry)
  | [] => .ok []
  | line :: rest => do
    match ← readEntry line with
    | some entry => return entry :: (← readLines rest)
    | none => readLines rest

def readEntries (block : Block) : Except EntryFault (List Entry) := readLines block.lines

end Codebook.Declarations
