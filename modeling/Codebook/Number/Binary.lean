namespace Codebook.Number

-- Binary numbers with 53 significant bits, computed exactly on natural numbers.

-- The quotient rounded to the nearest natural number. A half goes to the even neighbour.
def roundDiv (num den : Nat) : Nat :=
  let quotient := num / den
  let twice := 2 * (num % den)
  if twice < den then quotient
  else if den < twice then quotient + 1
  else quotient + quotient % 2

-- Powers of the bases that numbers are written in
def twoTo (exponent : Nat) : Nat := Nat.pow 2 exponent
def tenTo (exponent : Nat) : Nat := Nat.pow 10 exponent

-- The number `mantissa * 2 ^ exponent`
structure Binary where
  mantissa : Nat
  exponent : Int
deriving Repr, DecidableEq, Inhabited

namespace Binary

def minExponent : Int := -1074

-- A fraction divided by a power of two
def scale (num den : Nat) (exponent : Int) : Nat × Nat :=
  (num * twoTo (-exponent).toNat, den * twoTo exponent.toNat)

-- A mantissa that was rounded up to one bit more, without that bit
def carried (b : Binary) : Binary :=
  if b.mantissa = twoTo 53 then ⟨twoTo 52, b.exponent + 1⟩ else b

-- The binary number nearest to a fraction. A half goes to the even mantissa.
def nearest (num den : Nat) : Binary :=
  if num = 0 then ⟨0, 0⟩
  else
    let magnitude : Int := (Nat.log2 num : Int) - Nat.log2 den - 53
    let low := max magnitude minExponent
    let (n, d) := scale num den low
    let exponent := if n / d < twoTo 53 then low else low + 1
    let (n, d) := scale num den exponent
    carried ⟨roundDiv n d, exponent⟩

def ofNat (n : Nat) : Binary := nearest n 1

-- The fraction that the number is
def num (b : Binary) : Nat := b.mantissa * twoTo b.exponent.toNat
def den (b : Binary) : Nat := twoTo (-b.exponent).toNat

def isZero (b : Binary) : Bool := b.mantissa == 0

-- Numbers from here on have no finite form
def isFinite (b : Binary) : Bool := b.num < twoTo 1024 * b.den

def add (a b : Binary) : Binary := nearest (a.num * b.den + b.num * a.den) (a.den * b.den)
def mul (a b : Binary) : Binary := nearest (a.num * b.num) (a.den * b.den)
def div (a b : Binary) : Binary := nearest (a.num * b.den) (a.den * b.num)

-- The number with a fixed count of decimal places
def fixed (places : Nat) (b : Binary) : String :=
  let units := roundDiv (b.num * tenTo places) b.den
  let fraction := toString (units % tenTo places)
  let zeros := String.ofList (List.replicate (places - fraction.length) '0')
  s!"{units / tenTo places}.{zeros}{fraction}"

end Binary

example : Binary.nearest 1 10 = ⟨7205759403792794, -56⟩ := by decide +kernel
example : Binary.nearest (twoTo 60 - 1) 1 = ⟨twoTo 52, 8⟩ := by decide +kernel

end Codebook.Number
