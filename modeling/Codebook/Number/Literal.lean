namespace Codebook.Number

-- Integer literals: decimal, `0x` and `0X` hexadecimal, octal behind a leading zero. A value
-- has to fit a signed word of 64 bits.

def minInt : Int := -9223372036854775808
def maxInt : Int := 9223372036854775807

def digitOf (c : Char) : Option Nat :=
  if '0' ≤ c ∧ c ≤ '9' then some (c.toNat - 48)
  else if 'a' ≤ c ∧ c ≤ 'f' then some (c.toNat - 87)
  else if 'A' ≤ c ∧ c ≤ 'F' then some (c.toNat - 55)
  else none

def digitBelow (base : Nat) (c : Char) : Option Nat := (digitOf c).filter (· < base)

-- The value of a digit string that stands behind digits of the value given
def digitsFrom (base value : Nat) : List Char → Option Nat
  | [] => some value
  | c :: rest => do digitsFrom base (base * value + (← digitBelow base c)) rest

-- A digit string has at least one digit
def digits (base : Nat) : List Char → Option Nat
  | [] => none
  | text => digitsFrom base 0 text

def inRange (value : Int) : Bool := minInt ≤ value && value ≤ maxInt

-- Digits with at most one sign in front
def signed (base : Nat) (text : List Char) : Option Int :=
  let value : Option Int := match text with
    | '-' :: rest => (digits base rest).map fun n => -(n : Int)
    | '+' :: rest => (digits base rest).map fun n => (n : Int)
    | _ => (digits base text).map fun n => (n : Int)
  value.filter inRange

-- The sign, if there is one, stands behind a base mark
def readLiteral (text : List Char) : Option Int :=
  match text with
  | '0' :: 'x' :: rest => signed 16 rest
  | '0' :: 'X' :: rest => signed 16 rest
  | '0' :: c :: rest => signed 8 (c :: rest)
  | _ => signed 10 text

def literal? (text : String) : Option Int := readLiteral text.toList

theorem inRange_of_signed {base : Nat} {text : List Char} {value : Int}
    (h : signed base text = some value) : inRange value := by
  simp only [signed, Option.filter_eq_some_iff] at h
  exact h.2

theorem inRange_of_readLiteral {text : List Char} {value : Int}
    (h : readLiteral text = some value) : inRange value := by
  unfold readLiteral at h
  split at h <;> exact inRange_of_signed h

end Codebook.Number
