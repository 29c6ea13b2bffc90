import Codebook.Pattern
import Codebook.Text.Split

namespace Codebook.Log

open Codebook.Text

-- What a directive asks of the fields of a record: a field, or a field with a value. A value is
-- a pattern or a number. It is checked only, since no record is chosen by a value.

structure Condition where
  field : String
  hasValue : Bool
deriving Repr, DecidableEq, Inhabited

-- Digits behind a mark of an exponent, with at most one sign
def isExponent (text : List Char) : Bool :=
  let digits := match text with
    | '+' :: rest => rest
    | '-' :: rest => rest
    | _ => text
  !digits.isEmpty && digits.all Char.isDigit

-- Digits with at most one point among them
def isFraction (text : List Char) : Bool :=
  text.any Char.isDigit && text.all (fun c => c.isDigit || c == '.') && text.count '.' ≤ 1

def isDecimal (text : List Char) : Bool :=
  let (fraction, exponent) := text.span fun c => c != 'e' && c != 'E'
  isFraction fraction && (exponent.isEmpty || isExponent (exponent.drop 1))

def isNumber (text : List Char) : Bool :=
  ["inf", "infinity", "nan"].contains (String.ofList text).toLower || isDecimal text

-- Every number is a pattern too, unless a plus sign stands in front
def isValue (text : List Char) : Bool :=
  match text with
  | '+' :: rest => isNumber rest
  | _ => isPattern text

-- A second equals sign ends the value, and what is behind it means nothing
def Condition.read? (text : List Char) : Option Condition :=
  match splitOn '=' text with
  | name :: value :: _ =>
    if isValue value then some ⟨String.ofList name, true⟩ else none
  | _ => some ⟨String.ofList text, false⟩

end Codebook.Log
