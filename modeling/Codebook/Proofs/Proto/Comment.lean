import Codebook.Proofs.Text.Blank
import Codebook.Proofs.Text.Lines
import Codebook.Proto.Comment

namespace Codebook.Proto

open Codebook.Text

theorem mem_of_mem_withoutStar {row : List Char} {c : Char} (h : c ∈ withoutStar row) :
    c ∈ trim row := by
  unfold withoutStar at h
  split at h
  · rename_i rest hrow
    rw [hrow]
    exact List.mem_cons_of_mem _ (mem_of_mem_trim h)
  · exact h

theorem trim_withoutStar (row : List Char) : trim (withoutStar row) = withoutStar row := by
  unfold withoutStar
  split
  · exact trim_trim _
  · exact trim_trim row

theorem infix_of_withoutStar (row : List Char) : withoutStar row <:+: row := by
  unfold withoutStar
  split
  · rename_i rest hrow
    have hrest : rest <:+: trim row := hrow ▸ (List.suffix_cons '*' rest).isInfix
    exact (infix_of_trim rest).trans (hrest.trans (infix_of_trim row))
  · exact infix_of_trim row

theorem mem_of_mem_withoutEmptyEnds {lines : List (List Char)} {line : List Char}
    (h : line ∈ withoutEmptyEnds lines) : line ∈ lines := by
  have hend : line ∈ (lines.dropWhile List.isEmpty).reverse :=
    (List.dropWhile_sublist _).mem (List.mem_reverse.mp h)
  exact (List.dropWhile_sublist _).mem (List.mem_reverse.mp hend)

theorem ends_withoutEmptyEnds (lines : List (List Char)) :
    (withoutEmptyEnds lines).head? ≠ some [] ∧ (withoutEmptyEnds lines).getLast? ≠ some [] := by
  have hdrop (texts : List (List Char)) : (texts.dropWhile List.isEmpty).head? ≠ some [] := by
    intro hempty
    have hfirst := List.head?_dropWhile_not List.isEmpty texts
    rw [hempty] at hfirst
    simp at hfirst
  constructor
  · intro hempty
    have hfront : withoutEmptyEnds lines <+: lines.dropWhile List.isEmpty :=
      List.reverse_suffix.mp (by
        rw [withoutEmptyEnds, List.reverse_reverse]
        exact List.dropWhile_suffix _)
    obtain ⟨more, hmore⟩ := hfront
    exact hdrop lines (by rw [← hmore, List.head?_append, hempty]; rfl)
  · rw [withoutEmptyEnds, List.getLast?_reverse]
    exact hdrop _

-- The line feed at the end of a row is trimmed.
theorem no_lineFeed_docLines (body : List Char) : ∀ line ∈ docLines body, '\n' ∉ line.toList := by
  intro line hl
  obtain ⟨text, htext, rfl⟩ := List.mem_map.mp hl
  obtain ⟨row, hrow, rfl⟩ := List.mem_map.mp (mem_of_mem_withoutEmptyEnds htext)
  obtain ⟨inner, hinner, he⟩ := exists_of_mem_rows hrow
  have htrim : trim row = trim inner := by
    rcases he with rfl | rfl
    · rfl
    · exact trim_append_blank (by decide) inner
  rw [String.toList_ofList]
  intro hm
  have hm := mem_of_mem_withoutStar hm
  rw [htrim] at hm
  exact hinner (mem_of_mem_trim hm)

-- A doc without blanks around its lines and without an empty line at an end
structure IsNormalDoc (doc : List String) : Prop where
  trimmed : ∀ line ∈ doc, trim line.toList = line.toList
  oneLine : ∀ line ∈ doc, '\n' ∉ line.toList
  head : doc.head? ≠ some ""
  last : doc.getLast? ≠ some ""

instance (doc : List String) : Decidable (IsNormalDoc doc) :=
  decidable_of_iff ((∀ line ∈ doc, trim line.toList = line.toList) ∧
    (∀ line ∈ doc, '\n' ∉ line.toList) ∧ doc.head? ≠ some "" ∧ doc.getLast? ≠ some "")
    ⟨fun ⟨trimmed, oneLine, head, last⟩ => ⟨trimmed, oneLine, head, last⟩,
      fun h => ⟨h.trimmed, h.oneLine, h.head, h.last⟩⟩

theorem isNormalDoc_nil : IsNormalDoc [] := ⟨nofun, nofun, nofun, nofun⟩

theorem isNormalDoc_docLines (body : List Char) : IsNormalDoc (docLines body) := by
  have hempty (line : Option (List Char)) (hl : line ≠ some []) :
      line.map String.ofList ≠ some "" := by
    intro he
    obtain ⟨text, rfl, htext⟩ := Option.map_eq_some_iff.mp he
    exact hl (congrArg some (String.ofList_eq_empty_iff.mp htext))
  obtain ⟨hfirst, hlast⟩ := ends_withoutEmptyEnds ((rows body).map withoutStar)
  refine ⟨fun line hl => ?_, no_lineFeed_docLines body, ?_, ?_⟩
  · obtain ⟨text, htext, rfl⟩ := List.mem_map.mp hl
    obtain ⟨row, -, rfl⟩ := List.mem_map.mp (mem_of_mem_withoutEmptyEnds htext)
    rw [String.toList_ofList, trim_withoutStar]
  · rw [docLines, List.head?_map]
    exact hempty _ hfirst
  · rw [docLines, List.getLast?_map]
    exact hempty _ hlast

theorem no_lineFeed_remarkText {run : List Char} (h : '\n' ∉ run) :
    '\n' ∉ (remarkText run).toList := by
  unfold remarkText
  rw [String.toList_ofList]
  intro hm
  exact h ((List.dropWhile_sublist _).mem (mem_of_mem_trim hm))

theorem trim_remarkText (run : List Char) :
    trim (remarkText run).toList = (remarkText run).toList := by
  rw [remarkText, String.toList_ofList, trim_trim]

-- The text of a remark makes up a doc in normal form unless it is empty.
theorem isNormalDoc_remarkText {run : List Char} (h : '\n' ∉ run) :
    IsNormalDoc [remarkText run] ∨ [remarkText run] = [""] := by
  by_cases hempty : remarkText run = ""
  · exact .inr (congrArg ([·]) hempty)
  · refine .inl ⟨?_, ?_, ?_, ?_⟩
    · exact List.forall_mem_singleton.mpr (trim_remarkText run)
    · exact List.forall_mem_singleton.mpr (no_lineFeed_remarkText h)
    · exact fun he => hempty (Option.some.inj he)
    · exact fun he => hempty (Option.some.inj he)

end Codebook.Proto
