import Codebook.Number.Literal
import Codebook.Script.ClassText
import Codebook.Text.Split
import Mathlib.Data.List.Basic

namespace Codebook.Script

open Codebook.Text

-- What the text of a class says when it is read back line by line. Nothing is used but the
-- text and the name of the class.

-- What stands between the two ends of a line
def between? (front back line : List Char) : Option (List Char) := do
  (← line.dropPrefix? front).dropSuffix? back

-- A line of the form `C.M = new C(N);` makes an instance of its own each time it is evaluated,
-- so an instance is known by the count of such lines in front of its line.
structure Instance where
  order : Nat
  code : Int
deriving Repr, DecidableEq

-- What a conversion from a code comes to. An instance is missing when no line defines the
-- member that is returned.
inductive Answer where
  | default
  | member (found : Option Instance)
deriving Repr, DecidableEq

-- The line below the first one that has a label
def below? (label : List Char → Bool) : List (List Char) → Option (List Char)
  | [] => none
  | [_] => none
  | line :: next :: rest => if label line then some next else below? label (next :: rest)

structure Reading where
  className : List Char
  -- without their indentation
  lines : List (List Char)

namespace Reading

def ofText (className text : String) : Reading where
  className := className.toList
  lines := (splitOn '\n' text.toList).map fun line => line.dropWhile (· == ' ')

-- The member and the code of a definition
def definition? (reading : Reading) (line : List Char) : Option (List Char × Int) := do
  let named ← line.dropPrefix? (reading.className ++ ['.'])
  let code ← between? (" = new ".toList ++ reading.className ++ ['(']) ");".toList
    (named.dropWhile (· != ' '))
  return (named.takeWhile (· != ' '), ← Number.signed 10 code)

def definitions (reading : Reading) : List (List Char × Int) :=
  reading.lines.filterMap reading.definition?

-- The instances by member. The last definition of a member counts.
def instances (reading : Reading) : Dictionary (List Char) Instance :=
  Dictionary.ofList (reading.definitions.zipIdx.map fun (definition, order) =>
    (definition.1, ⟨order, definition.2⟩))

def returned (reading : Reading) (line : List Char) : Option Instance := do
  reading.instances.get? (← between? ("return ".toList ++ reading.className ++ ['.']) [';'] line)

-- `_fromCode` of a number: what is returned below the first label with its decimal numeral
def fromCode (reading : Reading) (code : Int) : Answer :=
  match below? (· == "case ".toList ++ (toString code).toList ++ [':']) reading.lines with
  | some line => .member (reading.returned line)
  | none => .default

-- The instance that a line of the form `case C.M:` compares with
def labelled (reading : Reading) (line : List Char) : Option Instance := do
  reading.instances.get? (← between? ("case ".toList ++ reading.className ++ ['.']) [':'] line)

-- `toString` of an instance: the text in quotes below the first label that has the instance
def toName (reading : Reading) (subject : Instance) : Option String := do
  let line ← below? (fun line => reading.labelled line == some subject) reading.lines
  return String.ofList (← between? "return \"".toList "\";".toList line)

end Reading

end Codebook.Script
