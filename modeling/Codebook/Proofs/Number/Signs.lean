import Codebook.Proofs.Number.Decimal
import Mathlib.Tactic.ByContra
import Mathlib.Tactic.Cases

namespace Codebook.Number

-- Where the sign of a literal may stand. It belongs to the digits when it is read together with
-- them, so it stands behind a base mark. A language that has signs as symbols of their own takes
-- it first, and what follows it is a literal with no sign.

def isSign (c : Char) : Bool := c == '-' || c == '+'

-- The numbers in range are less than this, and the least of them is its negative.
def limit : Nat := 9223372036854775808

-- A literal with no sign
def unsigned (text : List Char) : Option Int :=
  if text.any isSign then none else readLiteral text

-- A literal with no sign, or one behind a minus sign
def signFirst : List Char → Option Int
  | '-' :: rest => (unsigned rest).map (- ·)
  | text => unsigned text

example : readLiteral "-010".toList = some (-10) ∧ signFirst "-010".toList = some (-8) := by
  decide +kernel

-- The texts that the two ways of reading do not take for the same
inductive Parted : List Char → Prop
  -- a sign that is not in front, or is no minus sign
  | plus {rest : List Char} {value : Int} (h : signed 10 ('+' :: rest) = some value) :
      Parted ('+' :: rest)
  | behindMark {mark rest : List Char} {base : Nat} {sign : Char} {value : Int}
      (hm : (mark, base) ∈ [(['0'], 8), (['0', 'x'], 16), (['0', 'X'], 16)]) (hs : isSign sign)
      (h : signed base (sign :: rest) = some value) : Parted (mark ++ sign :: rest)
  -- the least number, whose digits are out of range without their sign
  | least {rest : List Char} (h : digits 10 rest = some limit) (hz : rest.head? ≠ some '0') :
      Parted ('-' :: rest)
  -- a minus sign in front of a base mark
  | hexadecimal {mark : Char} {rest : List Char} {value : Nat} (hm : mark = 'x' ∨ mark = 'X')
      (h : digits 16 rest = some value) (hv : value < limit) : Parted ('-' :: '0' :: mark :: rest)
  | octal {c : Char} {rest : List Char} (hx : c ≠ 'x') (hX : c ≠ 'X')
      (h : (digits 10 (c :: rest)).filter (· ≤ limit) ≠ (digits 8 (c :: rest)).filter (· < limit)) :
      Parted ('-' :: '0' :: c :: rest)

theorem isSome_digitOf {base value n : Nat} {text : List Char}
    (h : digitsFrom base value text = some n) : ∀ c ∈ text, (digitOf c).isSome := by
  induction text generalizing value with
  | nil => simp
  | cons c rest ih =>
      obtain ⟨digit, hdigit, hrest⟩ := Option.bind_eq_some_iff.mp h
      obtain ⟨hc, -⟩ := Option.filter_eq_some_iff.mp hdigit
      exact List.forall_mem_cons.mpr ⟨by simp [hc], ih hrest⟩

theorem isSome_digitOf_of_digits {base n : Nat} {text : List Char} (h : digits base text = some n) :
    ∀ c ∈ text, (digitOf c).isSome := by
  cases text with
  | nil => simp
  | cons c rest => exact isSome_digitOf h

theorem isSign_eq_false {c : Char} (h : (digitOf c).isSome) : isSign c = false := by
  by_contra hs
  rw [Bool.not_eq_false, isSign, Bool.or_eq_true, beq_iff_eq, beq_iff_eq] at hs
  rcases hs with rfl | rfl <;> exact absurd h (by decide)

theorem any_isSign_of_digits {base n : Nat} {text : List Char} (h : digits base text = some n) :
    text.any isSign = false := by
  rw [List.any_eq_false]
  intro c hc
  simp [isSign_eq_false (isSome_digitOf_of_digits h c hc)]

theorem signed_minus (base : Nat) (rest : List Char) :
    signed base ('-' :: rest)
      = ((digits base rest).map fun n : Nat => -(n : Int)).filter inRange := by
  cases h : digits base rest <;> simp only [signed, h] <;> rfl

theorem signed_of_head {base : Nat} {text : List Char} (h : ∀ c ∈ text.head?, isSign c = false) :
    signed base text = ((digits base text).map fun n : Nat => (n : Int)).filter inRange := by
  unfold signed
  split
  · exact absurd (h '-' rfl) (by decide)
  · exact absurd (h '+' rfl) (by decide)
  · cases digits base text <;> rfl

-- A sign that is read stands in front of the digits.
theorem exists_sign_of_signed {base : Nat} {text : List Char} {value : Int}
    (h : signed base text = some value) (hs : text.any isSign) :
    ∃ sign rest, text = sign :: rest ∧ isSign sign := by
  by_contra hnone
  have hhead : ∀ c ∈ text.head?, isSign c = false := by
    intro c hc
    obtain ⟨rest, rfl⟩ := List.head?_eq_some_iff.mp hc
    by_contra hsign
    exact hnone ⟨c, rest, rfl, by simpa using hsign⟩
  rw [signed_of_head hhead] at h
  obtain ⟨hmap, -⟩ := Option.filter_eq_some_iff.mp h
  obtain ⟨n, hn, -⟩ := Option.map_eq_some_iff.mp hmap
  rw [any_isSign_of_digits hn] at hs
  exact absurd hs (by decide)

-- The least number is negative, so a numeral reaches further behind a minus sign.
theorem filter_inRange_neg (value : Option Nat) :
    (value.map fun n : Nat => -(n : Int)).filter inRange
      = (value.filter (· ≤ limit)).map fun n : Nat => -(n : Int) := by
  cases value with
  | none => rfl
  | some n =>
      have hrange : inRange (-(n : Int)) ↔ n ≤ limit := by
        rw [inRange_iff, minInt, maxInt, limit]
        omega
      simp only [Option.map_some, Option.filter, hrange, decide_eq_true_eq]
      split <;> rfl

theorem filter_inRange_pos (value : Option Nat) :
    (value.map fun n : Nat => (n : Int)).filter inRange
      = (value.filter (· < limit)).map fun n : Nat => (n : Int) := by
  cases value with
  | none => rfl
  | some n =>
      have hrange : inRange (n : Int) ↔ n < limit := by
        rw [inRange_iff, minInt, maxInt, limit]
        omega
      simp only [Option.map_some, Option.filter, hrange, decide_eq_true_eq]
      split <;> rfl

theorem map_neg_inj {a b : Option Nat} :
    (a.map fun n : Nat => -(n : Int)) = (b.map fun n : Nat => -(n : Int)) ↔ a = b := by
  refine ⟨fun h => Option.map_injective ?_ h, fun h => by rw [h]⟩
  intro m n hmn
  simp only at hmn
  omega

-- Behind a minus sign only digits without a base mark are read with it.
theorem readLiteral_minus (rest : List Char) :
    readLiteral ('-' :: rest)
      = ((digits 10 rest).filter (· ≤ limit)).map fun n : Nat => -(n : Int) := by
  rw [← filter_inRange_neg, ← signed_minus]
  rfl

-- The base of a literal and the digits behind its mark
inductive Marked : List Char → Nat → List Char → Prop
  | hexadecimal {mark : Char} {rest : List Char} (hm : mark = 'x' ∨ mark = 'X') :
      Marked ('0' :: mark :: rest) 16 rest
  | octal {c : Char} {rest : List Char} (hx : c ≠ 'x') (hX : c ≠ 'X') :
      Marked ('0' :: c :: rest) 8 (c :: rest)
  | decimal {text : List Char} (h : ∀ c rest, text ≠ '0' :: c :: rest) : Marked text 10 text

theorem exists_marked (text : List Char) : ∃ base rest, Marked text base rest := by
  by_cases h : ∃ c rest, text = '0' :: c :: rest
  · obtain ⟨c, rest, rfl⟩ := h
    by_cases hm : c = 'x' ∨ c = 'X'
    · exact ⟨16, rest, .hexadecimal hm⟩
    · obtain ⟨hx, hX⟩ := not_or.mp hm
      exact ⟨8, c :: rest, .octal hx hX⟩
  · exact ⟨10, text, .decimal fun c rest he => h ⟨c, rest, he⟩⟩

section

variable {text rest : List Char} {base : Nat}

theorem Marked.readLiteral_eq (h : Marked text base rest) :
    readLiteral text = signed base rest := by
  cases h with
  | hexadecimal hm => rcases hm with rfl | rfl <;> rfl
  | @octal c rest hx hX =>
      unfold readLiteral
      split
      · rename_i he
        exact absurd (List.cons.inj (List.cons.inj he).2).1 hx
      · rename_i he
        exact absurd (List.cons.inj (List.cons.inj he).2).1 hX
      · rename_i he
        rw [(List.cons.inj he).2]
      · rename_i he
        exact absurd rfl (he c rest)
  | decimal h =>
      unfold readLiteral
      split
      · exact absurd rfl (h _ _)
      · exact absurd rfl (h _ _)
      · exact absurd rfl (h _ _)
      · rfl

theorem Marked.any_isSign (h : Marked text base rest) : text.any isSign = rest.any isSign := by
  cases h with
  | hexadecimal hm => rcases hm with rfl | rfl <;> rfl
  | octal => rfl
  | decimal => rfl

-- Digits have no sign, so it need not be looked for.
theorem Marked.unsigned_eq (h : Marked text base rest) :
    unsigned text = ((digits base rest).filter (· < limit)).map fun n : Nat => (n : Int) := by
  rw [unsigned, h.any_isSign, h.readLiteral_eq]
  cases hs : rest.any isSign with
  | true =>
      cases hd : digits base rest with
      | none => rfl
      | some n => simp [any_isSign_of_digits hd] at hs
  | false =>
      have hhead : ∀ c ∈ rest.head?, isSign c = false := by
        intro c hc
        have hnone := List.any_eq_false.mp hs c (List.mem_of_mem_head? hc)
        simpa using hnone
      rw [signed_of_head hhead, filter_inRange_pos]
      rfl

theorem Marked.minus_agree_iff (h : Marked text base rest) :
    readLiteral ('-' :: text) = signFirst ('-' :: text) ↔
      (digits 10 text).filter (· ≤ limit) = (digits base rest).filter (· < limit) := by
  have hsign : signFirst ('-' :: text)
      = ((digits base rest).filter (· < limit)).map fun n : Nat => -(n : Int) := by
    rw [signFirst, h.unsigned_eq, Option.map_map]
    rfl
  rw [readLiteral_minus, hsign, map_neg_inj]

end

theorem signFirst_of_head {text : List Char} (h : text.head? ≠ some '-') :
    signFirst text = unsigned text := by
  unfold signFirst
  split
  · exact absurd rfl h
  · rfl

theorem unsigned_eq_none {text : List Char} (h : text.any isSign) : unsigned text = none := by
  rw [unsigned, if_pos h]

theorem digits_ten_hexadecimal {mark : Char} (hm : mark = 'x' ∨ mark = 'X') (rest : List Char) :
    digits 10 ('0' :: mark :: rest) = none := by
  rcases hm with rfl | rfl <;> rfl

theorem readLiteral_ne_signFirst {text : List Char} (h : Parted text) :
    readLiteral text ≠ signFirst text := by
  cases h with
  | @plus rest value h =>
      have hread : readLiteral ('+' :: rest) = some value := h
      have hnone : signFirst ('+' :: rest) = none := unsigned_eq_none rfl
      simp [hread, hnone]
  | @behindMark mark rest base sign value hm hs h =>
      have hnone : signFirst (mark ++ sign :: rest) = none := by
        have hany : (mark ++ sign :: rest).any isSign := by simp [hs]
        have hhead : (mark ++ sign :: rest).head? ≠ some '-' := by
          simp only [List.mem_cons, Prod.mk.injEq, List.not_mem_nil, or_false] at hm
          rcases hm with ⟨rfl, -⟩ | ⟨rfl, -⟩ | ⟨rfl, -⟩ <;> simp
        rw [signFirst_of_head hhead, unsigned_eq_none hany]
      have hread : readLiteral (mark ++ sign :: rest) = some value := by
        have hsign : sign = '-' ∨ sign = '+' := by simpa [isSign] using hs
        simp only [List.mem_cons, Prod.mk.injEq, List.not_mem_nil, or_false] at hm
        rcases hm with ⟨rfl, rfl⟩ | ⟨rfl, rfl⟩ | ⟨rfl, rfl⟩ <;>
          rcases hsign with rfl | rfl <;> exact h
      simp [hread, hnone]
  | @least rest h hz =>
      have hmarked : Marked rest 10 rest := .decimal fun c rest he => hz (by rw [he]; rfl)
      rw [ne_eq, hmarked.minus_agree_iff, h]
      decide
  | @hexadecimal mark rest value hm h hv =>
      have hmarked : Marked ('0' :: mark :: rest) 16 rest := .hexadecimal hm
      have hkept : (some value).filter (· < limit) = some value :=
        Option.filter_eq_some_iff.mpr ⟨rfl, decide_eq_true hv⟩
      rw [ne_eq, hmarked.minus_agree_iff, digits_ten_hexadecimal hm, h, hkept]
      exact nofun
  | octal hx hX h =>
      rw [ne_eq, (Marked.octal hx hX).minus_agree_iff]
      exact h

theorem parted_of_minus {rest : List Char}
    (h : readLiteral ('-' :: rest) ≠ signFirst ('-' :: rest)) : Parted ('-' :: rest) := by
  obtain ⟨base, digitText, hmarked⟩ := exists_marked rest
  rw [ne_eq, hmarked.minus_agree_iff] at h
  cases hmarked with
  | @hexadecimal mark more hm =>
      rw [digits_ten_hexadecimal hm] at h
      obtain ⟨value, hvalue⟩ := Option.ne_none_iff_exists'.mp (Ne.symm h)
      obtain ⟨hdigits, hlt⟩ := Option.filter_eq_some_iff.mp hvalue
      exact .hexadecimal hm hdigits (by simpa using hlt)
  | octal hx hX => exact .octal hx hX h
  | decimal hnone =>
      cases hd : digits 10 rest with
      | none =>
          rw [hd] at h
          exact absurd rfl h
      | some n =>
          have hn : n = limit := by
            rw [hd] at h
            simp only [Option.filter, decide_eq_true_eq] at h
            by_contra hne
            apply h
            by_cases hle : n ≤ limit
            · rw [if_pos hle, if_pos (by omega)]
            · rw [if_neg hle, if_neg (by omega)]
          subst hn
          refine .least hd fun hz => ?_
          obtain ⟨more, rfl⟩ := List.head?_eq_some_iff.mp hz
          cases more with
          | nil => exact absurd hd (by decide)
          | cons c more => exact hnone c more rfl

theorem parted_of_ne {text : List Char} (h : readLiteral text ≠ signFirst text) :
    Parted text := by
  by_cases hminus : text.head? = some '-'
  · obtain ⟨rest, rfl⟩ := List.head?_eq_some_iff.mp hminus
    exact parted_of_minus h
  rw [signFirst_of_head hminus] at h
  by_cases hs : text.any isSign
  · rw [unsigned_eq_none hs] at h
    obtain ⟨value, hvalue⟩ := Option.ne_none_iff_exists'.mp h
    obtain ⟨base, digitText, hmarked⟩ := exists_marked text
    rw [hmarked.readLiteral_eq] at hvalue
    rw [hmarked.any_isSign] at hs
    obtain ⟨sign, rest, rfl, hsign⟩ := exists_sign_of_signed hvalue hs
    cases hmarked with
    | @hexadecimal mark rest hm =>
        have hmark : (['0', mark], 16) ∈ [(['0'], 8), (['0', 'x'], 16), (['0', 'X'], 16)] := by
          rcases hm with rfl | rfl <;> simp
        exact .behindMark hmark hsign hvalue
    | octal hx hX => exact .behindMark (List.mem_cons_self : (['0'], 8) ∈ _) hsign hvalue
    | decimal hnone =>
        -- a minus sign would be in front
        have hplus : sign = '+' := by
          have hsigns : sign = '-' ∨ sign = '+' := by simpa [isSign] using hsign
          exact hsigns.resolve_left fun he => hminus (congrArg some he)
        subst hplus
        exact .plus hvalue
  · rw [unsigned, if_neg hs] at h
    exact absurd rfl h

-- The two ways of reading part on these texts and on no others.
theorem readLiteral_eq_signFirst_iff (text : List Char) :
    readLiteral text = signFirst text ↔ ¬ Parted text := by
  constructor
  · intro h hp
    exact readLiteral_ne_signFirst hp h
  · intro hp
    by_contra h
    exact hp (parted_of_ne h)

end Codebook.Number
