import Codebook.Proofs.Settings.Text
import Codebook.Settings.Cursor

namespace Codebook.Settings

-- A string is read as what it spells, and the reader stops behind its closing quote.

theorem hexDigit_spec {c : Char} {value : Nat} (h : IsHexDigit c value) :
    Number.digitBelow 16 c = some value ∧ c.utf8Size = 1 := by
  have hlower : ∀ value < 16, Number.digitBelow 16 (Nat.digitChar value) = some value ∧
      (Nat.digitChar value).utf8Size = 1 := by
    decide
  have hupper : ∀ value < 16, Number.digitBelow 16 (Nat.digitChar value).toUpper = some value ∧
      (Nat.digitChar value).toUpper.utf8Size = 1 := by
    decide
  obtain ⟨hv, rfl | rfl⟩ := h
  · exact hlower value hv
  · exact hupper value hv

theorem IsHex.length {digits : List Char} {value : Nat} (h : IsHex digits value) :
    digits.length = 4 := by
  cases h
  rfl

theorem hexEscape_eq {digits : List Char} {value : Nat} (h : IsHex digits value) (offset : Nat)
    (rest : List Char) :
    hexEscape offset (digits ++ rest) = .ok value ∧ (digits ++ rest).drop 4 = rest ∧
      value < 0x10000 := by
  obtain ⟨ha, hb, hc, hd⟩ := h
  obtain ⟨haw, hau⟩ := hexDigit_spec ha
  obtain ⟨hbx, hbu⟩ := hexDigit_spec hb
  obtain ⟨hcy, hcu⟩ := hexDigit_spec hc
  obtain ⟨hdz, hdu⟩ := hexDigit_spec hd
  refine ⟨?_, rfl, ?_⟩
  · simp [hexEscape, hexValue, Number.digitsFrom, hau, hbu, hcu, hdu, haw, hbx, hcy, hdz]
    omega
  · have := ha.1
    have := hb.1
    have := hc.1
    have := hd.1
    omega

theorem codeEscape_code {c : Char} {digits : List Char} (h : IsHex digits c.toNat) (offset : Nat)
    (rest : List Char) : codeEscape offset (digits ++ rest) = .ok (c, 4) := by
  obtain ⟨hread, -, -⟩ := hexEscape_eq h offset rest
  -- the code of a character is no surrogate
  have hvalid : c.toNat < 0xD800 ∨ 0xDFFF < c.toNat ∧ c.toNat < 0x110000 := c.valid
  have hlow : ¬ (0xDC00 ≤ c.toNat ∧ c.toNat ≤ 0xDFFF) := by omega
  have hhigh : c.toNat < 0xD800 ∨ 0xDBFF < c.toNat := by omega
  simp [codeEscape, hread, hlow, hhigh, bind, Except.bind, pure, Except.pure]

theorem codeEscape_pair {c : Char} {first second : List Char} {high low : Nat}
    (hf : IsHex first high) (hs : IsHex second low) (hh : 0xD800 ≤ high ∧ high ≤ 0xDBFF)
    (hl : 0xDC00 ≤ low ∧ low ≤ 0xDFFF)
    (hc : c.toNat = (high - 0xD800) * 0x400 + (low - 0xDC00) + 0x10000) (offset : Nat)
    (rest : List Char) :
    codeEscape offset (first ++ '\\' :: 'u' :: (second ++ rest)) = .ok (c, 10) := by
  obtain ⟨hfirst, hdrop, -⟩ := hexEscape_eq hf offset ('\\' :: 'u' :: (second ++ rest))
  obtain ⟨hsecond, -, -⟩ := hexEscape_eq hs (offset + 6) rest
  have hnotLow : ¬ (0xDC00 ≤ high ∧ high ≤ 0xDFFF) := by omega
  have hsurrogate : ¬ (high < 0xD800 ∨ 0xDBFF < high) := by omega
  have hpair : ¬ (low < 0xDC00 ∨ 0xDFFF < low) := by omega
  simp [codeEscape, hfirst, hdrop, hsecond, hnotLow, hsurrogate, hpair, ← hc, bind, Except.bind,
    pure, Except.pure]

theorem escape_mark {m c : Char} (h : (m, c) ∈ marks) (offset : Nat) (rest : List Char) :
    escape offset (m :: rest) = .ok (c, 1) := by
  simp only [marks, List.mem_cons, Prod.mk.injEq, List.not_mem_nil, or_false] at h
  rcases h with ⟨rfl, rfl⟩ | ⟨rfl, rfl⟩ | ⟨rfl, rfl⟩ | ⟨rfl, rfl⟩ | ⟨rfl, rfl⟩ | ⟨rfl, rfl⟩ |
    ⟨rfl, rfl⟩ | ⟨rfl, rfl⟩ <;> rfl

-- What is read behind an escape does not depend on how it is written.
theorem stringBody_escape {c : Char} {offset count : Nat} {text rest : List Char}
    (he : escape (offset + 1) (text ++ rest) = .ok (c, count)) (hc : count = text.length) :
    stringBody offset ('\\' :: (text ++ rest))
      = (stringBody (offset + 1 + count) rest).map fun (more, cursor) => (c :: more, cursor) := by
  subst hc
  rw [stringBody]
  simp only [he, bind, Except.bind, List.drop_left]
  cases stringBody (offset + 1 + text.length) rest <;> rfl

theorem stringBody_spells {c : Char} {text : List Char} (h : Spells c text) (offset : Nat)
    (rest : List Char) :
    ∃ behind, stringBody offset (text ++ rest)
      = (stringBody behind rest).map fun (more, cursor) => (c :: more, cursor) := by
  cases h with
  | plain hc hq hb =>
      refine ⟨offset + c.utf8Size, ?_⟩
      have hplain : ¬ c.toNat < 0x20 := by omega
      rw [List.singleton_append, stringBody.eq_4 _ _ _ (by simpa using hq) (by simpa using hb),
        if_neg hplain]
      cases stringBody (offset + c.utf8Size) rest <;> rfl
  | @mark m h =>
      have he : escape (offset + 1) ([m] ++ rest) = .ok (c, 1) := escape_mark h _ rest
      exact ⟨_, stringBody_escape he rfl⟩
  | @code digits h =>
      have he : escape (offset + 1) ('u' :: digits ++ rest) = .ok (c, 5) := by
        simp [escape, codeEscape_code h, Except.map]
      exact ⟨_, stringBody_escape he (congrArg (· + 1) h.length.symm)⟩
  | @pair first second high low hf hs hh hl hc =>
      have he : escape (offset + 1) ('u' :: (first ++ '\\' :: 'u' :: second) ++ rest)
          = .ok (c, 11) := by
        simp [escape, codeEscape_pair hf hs hh hl hc, Except.map]
      exact ⟨_, stringBody_escape he (by simp [hf.length, hs.length])⟩

theorem stringBody_spellsAll {value text : List Char} (h : SpellsAll value text) (offset : Nat)
    (rest : List Char) :
    ∃ behind, stringBody offset (text ++ '"' :: rest) = .ok (value, ⟨rest, behind⟩) := by
  induction h generalizing offset with
  | nil => exact ⟨offset + 1, by rw [List.nil_append, stringBody]⟩
  | @cons c value text more hc _ ih =>
      obtain ⟨between, hfirst⟩ := stringBody_spells hc offset (more ++ '"' :: rest)
      obtain ⟨behind, hrest⟩ := ih between
      rw [List.append_assoc, hfirst, hrest]
      exact ⟨behind, rfl⟩

end Codebook.Settings
