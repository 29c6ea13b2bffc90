import Codebook.Number.Literal

namespace Codebook.Number

-- Decimal numerals as they are written, and what reading them gives.

theorem digitBelow_ten {c : Char} (h : c.isDigit) :
    digitBelow 10 c = some (c.toNat - '0'.toNat) := by
  simp only [Char.isDigit, Bool.and_eq_true, decide_eq_true_eq] at h
  obtain ⟨hlo, hhi⟩ := h
  have hlo' : 48 ≤ c.toNat := hlo
  have hhi' : c.toNat ≤ 57 := hhi
  have hdigit : digitOf c = some (c.toNat - 48) := if_pos ⟨hlo, hhi⟩
  rw [digitBelow, hdigit]
  exact Option.filter_some_pos (by simp; omega)

theorem digitsFrom_eq_ofDigitChars (text : List Char) (value : Nat)
    (h : ∀ c ∈ text, c.isDigit) :
    digitsFrom 10 value text = some (Nat.ofDigitChars 10 text value) := by
  induction text generalizing value with
  | nil => simp [digitsFrom]
  | cons c rest ih =>
      have hc := digitBelow_ten (h c (by simp))
      have hrest := ih (10 * value + (c.toNat - '0'.toNat))
        fun d hd => h d (List.mem_cons_of_mem _ hd)
      simpa [digitsFrom, hc, Nat.ofDigitChars_cons] using hrest

theorem isDigit_of_mem_toDigits {n : Nat} {c : Char} (h : c ∈ Nat.toDigits 10 n) : c.isDigit :=
  Nat.isDigit_of_mem_toDigits (by decide) (by decide) h

theorem isDigit_of_mem_toString {n : Nat} {c : Char} (h : c ∈ (toString n).toList) :
    c.isDigit := by
  rw [Nat.toString_eq_repr, Nat.toList_repr] at h
  exact isDigit_of_mem_toDigits h

theorem digits_toDigits (n : Nat) : digits 10 (Nat.toDigits 10 n) = some n := by
  have hread := digitsFrom_eq_ofDigitChars (Nat.toDigits 10 n) 0 fun c => isDigit_of_mem_toDigits
  rw [Nat.ofDigitChars_ten_toDigits] at hread
  cases hd : Nat.toDigits 10 n with
  | nil => exact absurd hd Nat.toDigits_ne_nil
  | cons c rest => simpa only [digits, hd] using hread

-- A numeral is its digits, behind a minus sign for a negative number.
theorem toList_toString (n : Int) :
    (toString n).toList
      = if 0 ≤ n then Nat.toDigits 10 n.toNat else '-' :: Nat.toDigits 10 (-n).toNat := by
  rw [Int.toString_eq_repr, Int.repr_eq_if]
  split <;> simp

theorem mem_toString {n : Int} {c : Char} (h : c ∈ (toString n).toList) :
    c.isDigit ∨ c = '-' := by
  rw [toList_toString] at h
  split at h
  · exact .inl (isDigit_of_mem_toDigits h)
  · rcases List.mem_cons.mp h with rfl | h
    · exact .inr rfl
    · exact .inl (isDigit_of_mem_toDigits h)

theorem toString_ne_nil (n : Int) : (toString n).toList ≠ [] := by
  rw [toList_toString]
  split <;> simp

theorem signed_of_digits {text : List Char} {n : Nat} (hd : ∀ c ∈ text, c.isDigit)
    (hn : digits 10 text = some n) : signed 10 text = (some (n : Int)).filter inRange := by
  unfold signed
  split
  · exact absurd (hd '-' (by simp)) (by decide)
  · exact absurd (hd '+' (by simp)) (by decide)
  · rw [hn]
    rfl

theorem signed_of_minus {text : List Char} {n : Nat} (hn : digits 10 text = some n) :
    signed 10 ('-' :: text) = (some (-(n : Int))).filter inRange := by
  simp only [signed, hn]
  rfl

theorem signed_toString {n : Int} (h : inRange n) : signed 10 (toString n).toList = some n := by
  rw [toList_toString]
  split
  · rename_i hn
    rw [signed_of_digits (fun c => isDigit_of_mem_toDigits) (digits_toDigits _),
      Int.toNat_of_nonneg hn]
    exact Option.filter_some_pos h
  · rename_i hn
    have hneg : -((-n).toNat : Int) = n := by omega
    rw [signed_of_minus (digits_toDigits _), hneg]
    exact Option.filter_some_pos h

theorem toDigits_inj {m n : Nat} (h : Nat.toDigits 10 m = Nat.toDigits 10 n) : m = n := by
  have hm := digits_toDigits m
  rw [h, digits_toDigits] at hm
  exact (Option.some.inj hm).symm

theorem toString_inj {m n : Int} (h : toString m = toString n) : m = n := by
  have hminus (k l : Nat) : '-' :: Nat.toDigits 10 k ≠ Nat.toDigits 10 l := fun he =>
    absurd (isDigit_of_mem_toDigits (he ▸ List.mem_cons_self : '-' ∈ Nat.toDigits 10 l)) (by decide)
  rw [← String.toList_inj, toList_toString, toList_toString] at h
  split at h
  · split at h
    · have hnat := toDigits_inj h
      omega
    · exact absurd h.symm (hminus _ _)
  · split at h
    · exact absurd h (hminus _ _)
    · have hnat := toDigits_inj (List.cons.inj h).2
      omega

theorem head?_toDigits_ne_zero {n : Nat} (h : 0 < n) : (Nat.toDigits 10 n).head? ≠ some '0' := by
  induction n using Nat.strongRecOn with
  | ind n ih =>
      by_cases hn : n < 10
      · rw [Nat.toDigits_of_lt_base hn]
        have hdigit : ∀ d < 10, 0 < d → [Nat.digitChar d].head? ≠ some '0' := by decide
        exact hdigit n hn h
      · rw [Nat.toDigits_of_base_le (by decide) (by omega), List.head?_append,
          Option.or_of_isSome (by simp)]
        exact ih (n / 10) (by omega) (by omega)

theorem inRange_iff {n : Int} : inRange n ↔ minInt ≤ n ∧ n ≤ maxInt := by
  simp [inRange]

-- The numeral of a natural number is a literal of the base ten.
theorem literal?_toDigits {n : Nat} (h : inRange n) :
    literal? (String.ofList (Nat.toDigits 10 n)) = some (n : Int) := by
  have hsigned : signed 10 (Nat.toDigits 10 n) = some (n : Int) := by
    rw [signed_of_digits (fun c => isDigit_of_mem_toDigits) (digits_toDigits n)]
    exact Option.filter_some_pos h
  rw [literal?, String.toList_ofList]
  by_cases hn : n = 0
  · subst hn
    exact hsigned
  · have hhead := head?_toDigits_ne_zero (Nat.pos_of_ne_zero hn)
    unfold readLiteral
    split
    · rename_i heq; simp [heq] at hhead
    · rename_i heq; simp [heq] at hhead
    · rename_i heq; simp [heq] at hhead
    · exact hsigned

theorem readLiteral_toString {n : Int} (h : inRange n) :
    readLiteral (toString n).toList = some n := by
  by_cases hn : 0 ≤ n
  · obtain ⟨k, rfl⟩ := Int.eq_ofNat_of_zero_le hn
    have hliteral := literal?_toDigits h
    rw [literal?, String.toList_ofList] at hliteral
    rw [toList_toString, if_pos hn, Int.toNat_natCast]
    exact hliteral
  · -- a numeral that begins with a minus sign has no base mark
    have hread : readLiteral (toString n).toList = signed 10 (toString n).toList := by
      rw [toList_toString, if_neg hn]
      rfl
    rw [hread, signed_toString h]

end Codebook.Number
