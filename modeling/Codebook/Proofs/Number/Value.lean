import Codebook.Proofs.Number.Signs
import Mathlib.Data.List.Forall2
import Mathlib.Data.Nat.Digits.Defs
import Mathlib.Tactic.Ring

namespace Codebook.Number

-- An integer literal has the value that its digits have by their places.

-- Digits from ten on are letters of either case.
def IsDigit (base : Nat) (c : Char) (digit : Nat) : Prop :=
  digit < base ∧ (c = digit.digitChar ∨ c = digit.digitChar.toUpper)

instance (base : Nat) (c : Char) (digit : Nat) : Decidable (IsDigit base c digit) :=
  inferInstanceAs (Decidable (_ ∧ _))

-- A numeral has at least one digit, and the last one stands in the place of ones.
def IsNumeral (base : Nat) (text : List Char) (value : Nat) : Prop :=
  text ≠ [] ∧ ∃ places, List.Forall₂ (IsDigit base) text places ∧
    Nat.ofDigits base places.reverse = value

-- The base is told by what stands in front of the digits. A zero that is alone is decimal.
inductive Denotes : List Char → Nat → Prop
  | hexadecimal {mark : Char} {rest : List Char} {value : Nat} (hm : mark = 'x' ∨ mark = 'X')
      (h : IsNumeral 16 rest value) : Denotes ('0' :: mark :: rest) value
  | octal {rest : List Char} {value : Nat} (h : IsNumeral 8 rest value) :
      Denotes ('0' :: rest) value
  | decimal {text : List Char} {value : Nat} (hz : text = ['0'] ∨ text.head? ≠ some '0')
      (h : IsNumeral 10 text value) : Denotes text value

theorem digitOf_digitChar {digit : Nat} (h : digit < 16) :
    digitOf digit.digitChar = some digit ∧ digitOf digit.digitChar.toUpper = some digit := by
  have hall : ∀ d < 16, digitOf d.digitChar = some d ∧ digitOf d.digitChar.toUpper = some d := by
    decide
  exact hall digit h

theorem isDigit_of_digitOf {c : Char} {digit : Nat} (h : digitOf c = some digit) :
    IsDigit 16 c digit := by
  have hall : ∀ n < 103, ∀ d ∈ digitOf (Char.ofNat n),
      d < 16 ∧ (Char.ofNat n = d.digitChar ∨ Char.ofNat n = d.digitChar.toUpper) := by
    decide
  have hc : c.toNat < 103 := by
    unfold digitOf at h
    split_ifs at h with hdigit hsmall hcapital
    · exact Nat.lt_of_le_of_lt hdigit.2 (by decide)
    · exact Nat.lt_of_le_of_lt hsmall.2 (by decide)
    · exact Nat.lt_of_le_of_lt hcapital.2 (by decide)
  have hchar := hall c.toNat hc
  rw [Char.ofNat_toNat] at hchar
  exact hchar digit h

section

variable {base value : Nat} {text rest : List Char}

theorem digitBelow_eq_some_iff {c : Char} {digit : Nat} (hb : base ≤ 16) :
    digitBelow base c = some digit ↔ IsDigit base c digit := by
  rw [digitBelow, Option.filter_eq_some_iff, decide_eq_true_eq]
  constructor
  · rintro ⟨h, hlt⟩
    exact ⟨hlt, (isDigit_of_digitOf h).2⟩
  · rintro ⟨hlt, rfl | rfl⟩
    · exact ⟨(digitOf_digitChar (hlt.trans_le hb)).1, hlt⟩
    · exact ⟨(digitOf_digitChar (hlt.trans_le hb)).2, hlt⟩

-- Each further digit moves what was read before it by one place, so that it stands in front of
-- all places that are still to come.
theorem digitsFrom_eq_some_iff {n : Nat} (hb : base ≤ 16) :
    digitsFrom base value text = some n ↔
      ∃ places, List.Forall₂ (IsDigit base) text places ∧
        Nat.ofDigits base places.reverse + base ^ places.length * value = n := by
  induction text generalizing value with
  | nil => simp [digitsFrom]
  | cons c rest ih =>
      have hmoved (digit : Nat) (places : List Nat) :
          Nat.ofDigits base places.reverse + base ^ places.length * (base * value + digit)
            = Nat.ofDigits base (digit :: places).reverse
              + base ^ (digit :: places).length * value := by
        rw [Nat.ofDigits_reverse_cons, List.length_cons]
        ring
      simp only [digitsFrom, Option.bind_eq_bind, Option.bind_eq_some_iff,
        digitBelow_eq_some_iff hb, ih, List.forall₂_cons_left_iff, hmoved]
      constructor
      · rintro ⟨digit, hdigit, places, hplaces, hn⟩
        exact ⟨digit :: places, ⟨digit, places, hdigit, hplaces, rfl⟩, hn⟩
      · rintro ⟨_, ⟨digit, places, hdigit, hplaces, rfl⟩, hn⟩
        exact ⟨digit, hdigit, places, hplaces, hn⟩

theorem digits_eq_some_iff (hb : base ≤ 16) :
    digits base text = some value ↔ IsNumeral base text value := by
  cases text with
  | nil => simp [digits, IsNumeral]
  | cons c rest => simp [digits, IsNumeral, digitsFrom_eq_some_iff hb]

-- A numeral does not begin with a character that is no digit of its base.
theorem IsNumeral.isSome_digitBelow {c : Char} (hb : base ≤ 16)
    (h : IsNumeral base (c :: rest) value) : (digitBelow base c).isSome := by
  obtain ⟨-, places, hplaces, -⟩ := h
  obtain ⟨digit, -, hdigit, -, -⟩ := List.forall₂_cons_left_iff.mp hplaces
  rw [(digitBelow_eq_some_iff hb).mpr hdigit]
  rfl

theorem Marked.base_le (h : Marked text base rest) : base ≤ 16 := by
  cases h <;> decide

-- No literal has two marks.
theorem Marked.denotes_iff (h : Marked text base rest) :
    Denotes text value ↔ IsNumeral base rest value := by
  constructor
  · intro hd
    cases h with
    | hexadecimal hm =>
        cases hd with
        | hexadecimal _ hvalue => exact hvalue
        | octal hvalue =>
            have hmark := hvalue.isSome_digitBelow (by decide)
            rcases hm with rfl | rfl <;> exact absurd hmark (by decide)
        | decimal hz => simp at hz
    | octal hx hX =>
        cases hd with
        | hexadecimal hm => exact absurd hm (not_or.mpr ⟨hx, hX⟩)
        | octal hvalue => exact hvalue
        | decimal hz => simp at hz
    | decimal hnone =>
        cases hd with
        | hexadecimal => exact absurd rfl (hnone _ _)
        | octal hvalue =>
            obtain ⟨c, rest, rfl⟩ := List.exists_cons_of_ne_nil hvalue.1
            exact absurd rfl (hnone c rest)
        | decimal _ hvalue => exact hvalue
  · intro hvalue
    cases h with
    | hexadecimal hm => exact .hexadecimal hm hvalue
    | octal => exact .octal hvalue
    | decimal hnone =>
        refine .decimal (or_iff_not_imp_right.mpr fun hz => ?_) hvalue
        obtain ⟨rest, rfl⟩ := List.head?_eq_some_iff.mp (not_not.mp hz)
        cases rest with
        | nil => rfl
        | cons c rest => exact absurd rfl (hnone c rest)

-- A text without signs is read by its value, up to the greatest number. No sign is among the
-- letters, digits and points that literals are written with.
theorem literal?_eq_some_iff {text : String} (h : text.toList.any isSign = false) :
    (∀ value, literal? text = some value ↔
      ∃ n : Nat, Denotes text.toList n ∧ n ≤ 2 ^ 63 - 1 ∧ value = n) ∧
    (literal? text = none ↔ ∀ n, Denotes text.toList n → 2 ^ 63 - 1 < n) := by
  obtain ⟨base, rest, hmarked⟩ := exists_marked text.toList
  have hread : literal? text
      = ((digits base rest).filter (· < limit)).map fun n : Nat => (n : Int) := by
    rw [← hmarked.unsigned_eq, unsigned, h]
    rfl
  have hdenotes (n : Nat) : Denotes text.toList n ↔ digits base rest = some n :=
    hmarked.denotes_iff.trans (digits_eq_some_iff hmarked.base_le).symm
  have hlimit (n : Nat) : n < limit ↔ n ≤ 2 ^ 63 - 1 := by
    rw [limit]
    omega
  have hsome (value : Int) : literal? text = some value ↔
      ∃ n : Nat, Denotes text.toList n ∧ n ≤ 2 ^ 63 - 1 ∧ value = n := by
    simp only [hread, hdenotes, Option.map_eq_some_iff, Option.filter_eq_some_iff,
      decide_eq_true_eq, hlimit, and_assoc, eq_comm (a := value)]
  refine ⟨hsome, ?_⟩
  constructor
  · intro hnone n hn
    by_contra hle
    have hvalue := (hsome n).mpr ⟨n, hn, Nat.not_lt.mp hle, rfl⟩
    rw [hnone] at hvalue
    cases hvalue
  · intro hover
    by_contra hne
    obtain ⟨value, hvalue⟩ := Option.ne_none_iff_exists'.mp hne
    obtain ⟨n, hn, hle, -⟩ := (hsome value).mp hvalue
    exact absurd (hover n hn) (Nat.not_lt.mpr hle)

end

-- The greatest number with digits of both cases, and the next one in another base
theorem literal?_of_greatest :
    "0x7fffffffFFFFFFFF".toList.any isSign = false ∧
    literal? "0x7fffffffFFFFFFFF" = some 9223372036854775807 ∧
    "01000000000000000000000".toList.any isSign = false ∧
    Denotes "01000000000000000000000".toList 9223372036854775808 ∧
    literal? "01000000000000000000000" = none ∧
    ∀ n, Denotes "01000000000000000000000".toList n → 2 ^ 63 - 1 < n := by
  have hgreatest : "0x7fffffffFFFFFFFF".toList.any isSign = false := by decide
  have hnext : "01000000000000000000000".toList.any isSign = false := by decide
  have hvalue : Denotes "0x7fffffffFFFFFFFF".toList 9223372036854775807 :=
    .hexadecimal (.inl rfl) ⟨by decide, 7 :: List.replicate 15 15, by decide, by decide⟩
  have hover : Denotes "01000000000000000000000".toList 9223372036854775808 :=
    .octal ⟨by decide, 1 :: List.replicate 21 0, by decide, by decide⟩
  have hnone : literal? "01000000000000000000000" = none := by decide
  refine ⟨hgreatest, ?_, hnext, hover, hnone, (literal?_eq_some_iff hnext).2.mp hnone⟩
  exact ((literal?_eq_some_iff hgreatest).1 _).mpr ⟨_, hvalue, by decide, rfl⟩

end Codebook.Number
