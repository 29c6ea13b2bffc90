import Codebook.Number.Binary

namespace Codebook.Number

-- The decimal text of a binary number with the fewest digits that read back as it.

-- The number `digits * 10 ^ exponent`
structure Decimal where
  digits : Nat
  exponent : Int
deriving Repr, DecidableEq, Inhabited

namespace Binary

-- Four times the number and the ends of the reals that round to it, on one denominator. The
-- reals below a power of two are half as far apart.
def fourfold (b : Binary) : Nat × Nat × Nat × Nat :=
  let unit := twoTo b.exponent.toNat
  let below := if b.mantissa = twoTo 52 ∧ minExponent < b.exponent then 1 else 2
  (4 * b.mantissa * unit, (4 * b.mantissa - below) * unit, (4 * b.mantissa + 2) * unit,
    4 * b.den)

-- The exponent of the power of ten next above a fraction that is not zero
def decimalWidth (num den : Nat) : Int :=
  let whole := num / den
  if 0 < whole then (toString whole).length
  else ((List.range 400).find? fun k => den ≤ num * tenTo (k + 1)).elim 0 fun k => -(k : Int)

-- The point of a decimal grid that is nearest to the number, if it reads back as it, or else
-- the other neighbour
def onGrid (b : Binary) (exponent : Int) : Option Decimal :=
  let (value, low, high, den) := b.fourfold
  -- in units of the grid, on the denominator `step`
  let up := tenTo (-exponent).toNat
  let step := den * tenTo exponent.toNat
  let point := value * up / step
  let inside (p : Nat) : Bool :=
    if b.mantissa % 2 = 0 then low * up ≤ p * step && p * step ≤ high * up
    else low * up < p * step && p * step < high * up
  let nearer := roundDiv (value * up) step
  let other := if nearer = point then point + 1 else point
  if inside nearer then some ⟨nearer, exponent⟩
  else if inside other then some ⟨other, exponent⟩
  else none

-- Seventeen digits are always enough
def shortest (b : Binary) : Decimal :=
  let width := decimalWidth b.num b.den
  let grid (count : Nat) := b.onGrid (width - (count + 1 : Nat))
  ((List.range 17).findSome? grid).getD ⟨b.mantissa, 0⟩

end Binary

example : (Binary.nearest 1 10).shortest = ⟨1, -1⟩ := by decide +kernel

-- Positional up to sixteen digits in front of the point and up to four zeros behind it, else
-- with an exponent, which has its sign
def Decimal.text (d : Decimal) : String :=
  let digits := (toString d.digits).toList.reverse.dropWhile (· == '0') |>.reverse
  let count := digits.length
  let exponent := d.exponent + ((toString d.digits).length - count : Nat)
  let point : Int := count + exponent
  let zeros (n : Int) : List Char := List.replicate n.toNat '0'
  let sign := if 0 < point then "+" else ""
  let scientific (head : List Char) := String.ofList head ++ s!"e{sign}{point - 1}"
  if 0 ≤ exponent ∧ point ≤ 16 then String.ofList (digits ++ zeros exponent ++ ['.', '0'])
  else if 0 < point ∧ point ≤ 16 then
    String.ofList (digits.take point.toNat ++ '.' :: digits.drop point.toNat)
  else if -5 < point ∧ point ≤ 0 then String.ofList ('0' :: '.' :: zeros (-point) ++ digits)
  else
    match digits with
    | [d] => scientific [d]
    | d :: rest => scientific (d :: '.' :: rest)
    | [] => "0.0"

def Binary.text (b : Binary) : String := if b.isZero then "0.0" else b.shortest.text

end Codebook.Number
