import Codebook.Text.Quoted
import Codebook.Text.Position

namespace Codebook.Settings

-- Why a text is no settings text. Reading goes from left to right and stops at the first
-- fault.

-- What is not JSON
inductive FormFault where
  | colonExpected
  | listCommaExpected
  | objectCommaExpected
  | wordExpected
  | valueExpected
  | invalidEscape
  | invalidNumber
  | numberRange
  | control
  | keyExpected
  | loneSurrogate
  | trailingComma
  | trailingText
  | escapeCut
deriving Repr, DecidableEq, Inhabited

def FormFault.message : FormFault → String
  | colonExpected => "expected `:`"
  | listCommaExpected => "expected `,` or `]`"
  | objectCommaExpected => "expected `,` or `\x7d`"
  | wordExpected => "expected ident"
  | valueExpected => "expected value"
  | invalidEscape => "invalid escape"
  | invalidNumber => "invalid number"
  | numberRange => "number out of range"
  | control => "control character (\\u0000-\\u001F) found while parsing a string"
  | keyExpected => "key must be a string"
  | loneSurrogate => "lone leading surrogate in hex escape"
  | trailingComma => "trailing comma"
  | trailingText => "trailing characters"
  | escapeCut => "unexpected end of hex escape"

-- What the text ended in
inductive Unfinished where
  | list
  | object
  | string
  | value
deriving Repr, DecidableEq, Inhabited

def Unfinished.message : Unfinished → String
  | list => "EOF while parsing a list"
  | object => "EOF while parsing an object"
  | string => "EOF while parsing a string"
  | value => "EOF while parsing a value"

-- JSON that says nothing about settings
inductive MeaningFault where
  | unknownField (name : String) (known : List String)
  | repeatedField (name : String)
  | unknownChoice (text : String) (known : List String)
  | wrongType (found expected : String)
deriving Repr, DecidableEq, Inhabited

def choices (names : List String) : List String := names.map fun name => "`" ++ name ++ "`"

-- Two choices are joined by a word, more than two are listed
def anyOf (names : List String) : String :=
  match choices names with
  | [first, second] => first ++ " or " ++ second
  | all => "one of " ++ ", ".intercalate all

def MeaningFault.message : MeaningFault → String
  | unknownField name known => "unknown field `" ++ name ++ "`, expected " ++ anyOf known
  | repeatedField name => "duplicate field `" ++ name ++ "`"
  | unknownChoice text known => "unknown variant `" ++ text ++ "`, expected " ++ anyOf known
  | wrongType found expected => "invalid type: " ++ found ++ ", expected " ++ expected

inductive Cause where
  | form (fault : FormFault)
  | unfinished (what : Unfinished)
  | meaning (fault : MeaningFault)
deriving Repr, DecidableEq, Inhabited

def Cause.message : Cause → String
  | form fault => fault.message
  | unfinished what => what.message
  | meaning fault => fault.message

-- `offset` counts the bytes in front of the place of the fault
structure Fault where
  cause : Cause
  offset : Nat
deriving Repr, DecidableEq, Inhabited

-- The line of a byte offset counted from one, and the bytes between the start of the line and
-- the offset
def lineAndColumn (text : String) (offset : Nat) : Nat × Nat :=
  let before := text.toUTF8.toList.take offset
  let sinceFeed := before.reverse.takeWhile (· != 10)
  (before.count 10 + 1, sinceFeed.length)

def Fault.located (fault : Fault) (text : String) : String :=
  let (line, column) := lineAndColumn text fault.offset
  s!"{fault.cause.message} at line {line} column {column}"

end Codebook.Settings
