import Codebook.Text.CaseContext

namespace Codebook.Text

-- Case mapping makes letters only. A sign of the lower ASCII half up to `@` in a mapped text
-- was there before.

theorem toNat_ofNat (code : Nat) :
    (Char.ofNat code).toNat = code ∨ (Char.ofNat code).toNat = 0 := by
  by_cases h : code.isValidChar
  · left
    unfold Char.ofNat
    rw [dif_pos h]
    rfl
  · right
    unfold Char.ofNat
    rw [dif_neg h]
    rfl

theorem forall_ascii {p : Char → Prop} (h : ∀ code < 0x80, p (Char.ofNat code)) {c : Char}
    (hc : c.toNat < 0x80) : p c := by
  simpa only [Char.ofNat_toNat] using h c.toNat hc

def IsSign (c : Char) : Prop := 0 < c.toNat ∧ c.toNat ≤ 0x40

theorem isSign_ofNat {code : Nat} (h : IsSign (Char.ofNat code)) : code ≤ 0x40 := by
  obtain ⟨hpos, hle⟩ := h
  rcases toNat_ofNat code with hc | hc <;> omega

theorem upperSeveral_letters : ∀ entry ∈ upperSeveral, ∀ code ∈ entry.2, 0x40 < code := by
  decide +kernel

theorem lowerSeveral_letters : ∀ entry ∈ lowerSeveral, ∀ code ∈ entry.2, 0x40 < code := by
  decide +kernel

theorem upperRuns_letters : ∀ run ∈ upperRuns, 0x40 < run.first + run.offset := by
  decide +kernel

theorem lowerRuns_letters : ∀ run ∈ lowerRuns, 0x40 < run.first + run.offset := by
  decide +kernel

theorem mem_of_lookup_eq_some {key : Nat} {codes : List Nat} {table : List (Nat × List Nat)}
    (h : table.lookup key = some codes) : ∃ entry ∈ table, entry.2 = codes := by
  induction table with
  | nil => simp at h
  | cons entry rest ih =>
      obtain ⟨k, v⟩ := entry
      rw [List.lookup_cons] at h
      split at h
      · exact ⟨(k, v), by simp, Option.some.inj h⟩
      · obtain ⟨found, hm, he⟩ := ih h
        exact ⟨found, List.mem_cons_of_mem _ hm, he⟩

theorem eq_of_mem_mapCase {several : List (Nat × List Nat)} {runs : List CaseRun} {c x : Char}
    (hseveral : ∀ entry ∈ several, ∀ code ∈ entry.2, 0x40 < code)
    (hruns : ∀ run ∈ runs, 0x40 < run.first + run.offset)
    (hx : x ∈ mapCase several runs c) (hs : IsSign x) : x = c := by
  unfold mapCase at hx
  split at hx
  · rename_i codes hlookup
    obtain ⟨entry, hentry, rfl⟩ := mem_of_lookup_eq_some hlookup
    obtain ⟨code, hcode, rfl⟩ := List.mem_map.mp hx
    have hletter := hseveral entry hentry code hcode
    have hsign := isSign_ofNat hs
    omega
  · split at hx
    · rename_i run hfind
      have hletter := hruns run (List.mem_of_find?_eq_some hfind)
      have hholds := List.find?_some hfind
      simp only [CaseRun.holds, Bool.and_eq_true, decide_eq_true_eq] at hholds
      rw [List.mem_singleton] at hx
      have hsign := isSign_ofNat (hx ▸ hs)
      omega
    · exact List.mem_singleton.mp hx

theorem eq_of_isSign_case {c : Char} (hc : c.toNat < 0x80) :
    (IsSign c.toUpper → c.toUpper = c) ∧ (IsSign c.toLower → c.toLower = c) := by
  refine forall_ascii (p := fun c => (IsSign c.toUpper → c.toUpper = c) ∧
    (IsSign c.toLower → c.toLower = c)) ?_ hc
  unfold IsSign
  decide +kernel

theorem eq_of_mem_toUpper {c x : Char} (hx : x ∈ toUpper c) (hs : IsSign x) : x = c := by
  unfold toUpper at hx
  split at hx
  · rename_i hascii
    rw [List.mem_singleton] at hx
    subst hx
    exact (eq_of_isSign_case hascii).1 hs
  · exact eq_of_mem_mapCase upperSeveral_letters upperRuns_letters hx hs

theorem eq_of_mem_toLower {c x : Char} (hx : x ∈ toLower c) (hs : IsSign x) : x = c := by
  unfold toLower at hx
  split at hx
  · rename_i hascii
    rw [List.mem_singleton] at hx
    subst hx
    exact (eq_of_isSign_case hascii).2 hs
  · exact eq_of_mem_mapCase lowerSeveral_letters lowerRuns_letters hx hs

theorem mem_of_mem_lowerBehind {before text : List Char} {x : Char}
    (hx : x ∈ lowerBehind before text) (hs : IsSign x) : x ∈ text := by
  induction text generalizing before with
  | nil => simp [lowerBehind] at hx
  | cons c rest ih =>
      simp only [lowerBehind, List.mem_append] at hx
      rcases hx with hx | hx
      · -- both forms of the small sigma are letters
        have hsigma : x ≠ 'ς' ∧ x ≠ 'σ' := by
          constructor <;> rintro rfl <;> exact absurd hs.2 (by decide)
        split at hx
        · split at hx <;> rw [List.mem_singleton] at hx
          · exact absurd hx hsigma.1
          · exact absurd hx hsigma.2
        · exact List.mem_cons.mpr (.inl (eq_of_mem_toLower hx hs))
      · exact List.mem_cons_of_mem _ (ih hx)

theorem mem_of_mem_lowercase {text : List Char} {x : Char}
    (hx : x ∈ lowercase text) (hs : IsSign x) : x ∈ text :=
  mem_of_mem_lowerBehind hx hs

end Codebook.Text
