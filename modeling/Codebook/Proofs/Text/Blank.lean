import Codebook.Text.Blank
import Mathlib.Data.List.DropRight
import Mathlib.Data.List.Infix

namespace Codebook.Text

theorem mem_of_mem_trim {text : List Char} {c : Char} (h : c ∈ trim text) : c ∈ text := by
  have hend : c ∈ (trimStart text).reverse :=
    (List.dropWhile_sublist _).mem (List.mem_reverse.mp h)
  exact (List.dropWhile_sublist _).mem (List.mem_reverse.mp hend)

-- A blank at the end does not change what is left of a text.
theorem trim_append_blank {blank : Char} (hb : isBlank blank) (text : List Char) :
    trim (text ++ [blank]) = trim text := by
  unfold trim trimStart
  rw [List.dropWhile_append]
  split
  · rename_i hall
    rw [List.isEmpty_iff.mp hall]
    simp [hb]
  · unfold trimEnd
    rw [List.reverse_append, List.reverse_singleton, List.singleton_append,
      List.dropWhile_cons_of_pos hb]

theorem trim_append_blanks {blanks : List Char} (hb : ∀ c ∈ blanks, isBlank c)
    (text : List Char) : trim (text ++ blanks) = trim text := by
  induction blanks generalizing text with
  | nil => rw [List.append_nil]
  | cons c rest ih =>
      obtain ⟨hc, hrest⟩ := List.forall_mem_cons.mp hb
      rw [List.append_cons, ih hrest, trim_append_blank hc]

theorem trim_cons_blank {blank : Char} (hb : isBlank blank) (text : List Char) :
    trim (blank :: text) = trim text := by
  unfold trim trimStart
  rw [List.dropWhile_cons_of_pos hb]

-- Trimming takes blanks off both ends of a text.

theorem exists_trimEnd (text : List Char) :
    ∃ trail, (∀ c ∈ trail, isBlank c) ∧ text = trimEnd text ++ trail := by
  refine ⟨(text.reverse.takeWhile isBlank).reverse, ?_, ?_⟩
  · intro c hc
    exact List.mem_takeWhile_imp (List.mem_reverse.mp hc)
  · unfold trimEnd
    rw [← List.reverse_append, List.takeWhile_append_dropWhile, List.reverse_reverse]

theorem exists_trim (text : List Char) :
    ∃ trail, (∀ c ∈ trail, isBlank c) ∧ text = text.takeWhile isBlank ++ (trim text ++ trail) := by
  obtain ⟨trail, hblanks, htrail⟩ := exists_trimEnd (trimStart text)
  refine ⟨trail, hblanks, ?_⟩
  rw [trim, ← htrail, trimStart, List.takeWhile_append_dropWhile]

theorem trim_trimEnd (text : List Char) : trim (trimEnd text) = trim text := by
  obtain ⟨trail, hblanks, htrail⟩ := exists_trimEnd text
  rw [← trim_append_blanks hblanks (trimEnd text), ← htrail]

theorem trim_trim (text : List Char) : trim (trim text) = trim text := by
  have hstart : trim (trimStart text) = trim text := by
    unfold trim trimStart
    rw [List.dropWhile_idempotent]
  exact (trim_trimEnd (trimStart text)).trans hstart

theorem trim_cons {c : Char} (hc : isBlank c = false) (text : List Char) :
    trim (c :: text) = c :: trimEnd text := by
  rw [trim, trimStart_eq_self hc, trimEnd, trimEnd, List.reverse_cons, List.dropWhile_append]
  split
  · rename_i hall
    rw [List.isEmpty_iff.mp hall]
    simp [hc]
  · rw [List.reverse_append]
    rfl

-- Trimming takes off no more than the blanks around a text.

theorem infix_of_trim (text : List Char) : trim text <:+: text := by
  have hend : trim text <+: trimStart text := by
    unfold trim trimEnd
    exact List.reverse_suffix.mp (by rw [List.reverse_reverse]; exact List.dropWhile_suffix _)
  exact hend.isInfix.trans (List.dropWhile_suffix _).isInfix

theorem trim_margins {margin trail : List Char} (hm : ∀ c ∈ margin, isBlank c)
    (ht : ∀ c ∈ trail, isBlank c) (text : List Char) :
    trim (margin ++ (text ++ trail)) = trim text := by
  induction margin with
  | nil => exact trim_append_blanks ht text
  | cons c margin ih =>
      obtain ⟨hc, hmargin⟩ := List.forall_mem_cons.mp hm
      rw [List.cons_append, trim_cons_blank hc, ih hmargin]

theorem trimEnd_cons {c : Char} (hc : isBlank c = false) (text : List Char) :
    trimEnd (c :: text) = c :: trimEnd text := by
  rw [← trim_cons hc, trim, trimStart_eq_self hc]

-- A stretch that begins and ends without a blank is kept.

theorem infix_trimStart {pattern text : List Char} (hp : ∀ c ∈ pattern.head?, isBlank c = false)
    (h : pattern <:+: text) : pattern <:+: trimStart text := by
  induction text with
  | nil => exact h
  | cons c rest ih =>
      by_cases hc : isBlank c
      · have hrest : trimStart (c :: rest) = trimStart rest := List.dropWhile_cons_of_pos hc
        rw [hrest]
        rcases List.infix_cons_iff.mp h with hfront | hbehind
        · rcases List.prefix_cons_iff.mp hfront with rfl | ⟨more, rfl, -⟩
          · exact List.nil_infix
          · simp [hc] at hp
        · exact ih hbehind
      · rwa [trimStart_eq_self (by simpa using hc)]

theorem infix_trim {pattern text : List Char} (hf : ∀ c ∈ pattern.head?, isBlank c = false)
    (hl : ∀ c ∈ pattern.getLast?, isBlank c = false) (h : pattern <:+: text) :
    pattern <:+: trim text := by
  have hback : pattern.reverse <:+: trimStart (trimStart text).reverse :=
    infix_trimStart (by simpa using hl) (List.reverse_infix.mpr (infix_trimStart hf h))
  exact List.reverse_infix.mp (by rwa [trim, trimEnd, List.reverse_reverse])

theorem trim_eq_self {text : List Char} (hf : ∀ c ∈ text.head?, isBlank c = false)
    (hl : ∀ c ∈ text.getLast?, isBlank c = false) : trim text = text :=
  (infix_of_trim text).eq_of_length_le (infix_trim hf hl List.infix_rfl).length_le

theorem isBlank_of_getLast?_trim {text : List Char} : ∀ c ∈ (trim text).getLast?,
    isBlank c = false := by
  intro c hc
  rw [trim, trimEnd, List.getLast?_reverse] at hc
  have hhead := List.head?_dropWhile_not isBlank (trimStart text).reverse
  rw [Option.mem_def.mp hc] at hhead
  simpa using hhead

end Codebook.Text
