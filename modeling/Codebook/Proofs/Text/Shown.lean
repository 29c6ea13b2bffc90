import Codebook.Proofs.Text.Lines
import Codebook.Proofs.Text.Position

namespace Codebook

namespace Text

-- Which places of a text stand in a line that is shown. A line is shown without its line end, so
-- there is none behind a line feed that ends the text.

theorem length_rows_of_lineFeed {text : List Char} (h : text.getLast? = some '\n') :
    (rows text).length = text.count '\n' := by
  induction text using rows_induction with
  | nil => simp at h
  | last line hne hline => exact absurd (List.mem_of_getLast? h) hline
  | feed line rest hline ih =>
      rw [rows_append_lineFeed hline, List.length_cons, List.count_append,
        List.count_eq_zero.mpr hline, List.count_cons_self, Nat.zero_add]
      by_cases hrest : rest = []
      · rw [hrest]
        rfl
      · rw [List.getLast?_append_of_ne_nil _ (List.cons_ne_nil _ _),
          List.getLast?_cons_of_ne_nil hrest] at h
        rw [ih h]

theorem rows_ne_nil {text : List Char} (h : text ≠ []) : rows text ≠ [] := by
  intro hnil
  exact h (by rw [← flatten_rows text, hnil, List.flatten_nil])

-- Without a line feed at the end, a text ends in its last row.
theorem after_eq_of_rows {text : List Char} (h : text.getLast? ≠ some '\n') {p : Position}
    (hp : p.column = 0) :
    p.after text = ⟨p.byte + byteLength text, p.line + ((rows text).length - 1),
      ((rows text).getLast?.map fun row => (withoutLineEnd row).length).getD 0⟩ := by
  induction text using rows_induction generalizing p with
  | nil =>
      rw [← hp]
      rfl
  | last line hne hline =>
      rw [after_of_notMem hline, rows_of_notMem hne hline, hp, Nat.zero_add]
      simp [withoutLineEnd_of_notMem hline]
  | feed line rest hline ih =>
      have hrest : rest ≠ [] := by
        rintro rfl
        simp at h
      have hrows := rows_ne_nil hrest
      rw [List.getLast?_append_of_ne_nil _ (List.cons_ne_nil _ _),
        List.getLast?_cons_of_ne_nil hrest] at h
      have hlength := List.length_pos_iff.mpr hrows
      rw [Position.after_append, Position.after_cons, after_of_notMem hline, ih h rfl,
        rows_append_lineFeed hline, List.getLast?_cons_of_ne_nil hrows]
      simp only [Position.next, if_true, byteLength_append, byteLength_cons, List.length_cons,
        Position.mk.injEq, and_true]
      omega

-- A character stands in its row behind what is in front of it there.

theorem exists_rows_cons {line : List Char} (h : '\n' ∉ line) (c : Char) (behind : List Char) :
    ∃ rest more, rows (line ++ c :: behind) = (line ++ c :: rest) :: more := by
  induction line with
  | nil =>
      rw [List.nil_append, rows]
      split
      · exact ⟨[], rows behind, rfl⟩
      · cases rows behind with
        | nil => exact ⟨[], [], rfl⟩
        | cons row more => exact ⟨row, more, rfl⟩
  | cons d line ih =>
      obtain ⟨hd, hline⟩ := not_or.mp (mt List.mem_cons.mpr h)
      obtain ⟨rest, more, hrows⟩ := ih hline
      rw [List.cons_append, rows, if_neg (Ne.symm hd), hrows]
      exact ⟨rest, more, rfl⟩

theorem exists_row_of_notMem {line : List Char} (h : '\n' ∉ line) (c : Char)
    (behind : List Char) {p : Position} (hp : p.column = 0) :
    ∃ before rest, (rows (line ++ c :: behind))[line.count '\n']? = some (before ++ c :: rest) ∧
      before.length = (p.after line).column := by
  obtain ⟨rest, more, hrows⟩ := exists_rows_cons h c behind
  refine ⟨line, rest, by rw [hrows, List.count_eq_zero.mpr h]; rfl, ?_⟩
  rw [after_of_notMem h, hp, Nat.zero_add]

theorem exists_row_after (front : List Char) (c : Char) (behind : List Char) {p : Position}
    (hp : p.column = 0) :
    ∃ before rest, (rows (front ++ c :: behind))[front.count '\n']? = some (before ++ c :: rest) ∧
      before.length = (p.after front).column := by
  induction front using rows_induction generalizing p with
  | nil => exact exists_row_of_notMem List.not_mem_nil c behind hp
  | last line hne hline => exact exists_row_of_notMem hline c behind hp
  | feed line rest hline ih =>
      obtain ⟨before, trail, hrow, hlength⟩ := ih (p := (p.after line).next '\n') rfl
      refine ⟨before, trail, ?_, ?_⟩
      · rw [List.append_assoc, List.cons_append, rows_append_lineFeed hline, List.count_append,
          List.count_eq_zero.mpr hline, List.count_cons_self, Nat.zero_add]
        exact hrow
      · rw [Position.after_append, Position.after_cons]
        exact hlength

end Text

open Text

-- A place that stands in a line as it is shown, or at the end of it
def Position.IsShown (source : String) (p : Position) : Prop :=
  ∃ line, (lines source)[p.line]? = some line ∧ p.column ≤ line.length

-- A place at which something can be seen
def Position.IsSeen (source : String) (p : Position) : Prop :=
  ∃ front c behind, source.toList = front ++ c :: behind ∧ isBlank c = false ∧
    p = Position.start.after front

section

variable {source : String}

theorem Position.IsSeen.isShown {p : Position} (h : p.IsSeen source) : p.IsShown source := by
  obtain ⟨front, c, behind, hs, hb, rfl⟩ := h
  obtain ⟨before, rest, hrow, hlength⟩ := exists_row_after front c behind (p := .start) rfl
  have hline : (Position.start.after front).line = front.count '\n' := by
    rw [line_after]
    exact Nat.zero_add _
  have hlast : ∀ d ∈ (before ++ [c]).getLast?, isBlank d = false := by simpa using hb
  obtain ⟨more, hmore⟩ := withoutLineEnd_append hlast rest
  refine ⟨String.ofList ((before ++ [c]) ++ more), ?_, ?_⟩
  · rw [lines, List.getElem?_map, hline, hs, hrow, Option.map_some, List.append_cons, hmore]
  · rw [String.length_ofList, ← hlength, List.append_assoc, List.length_append]
    exact Nat.le_add_right _ _

-- The end of the last line is shown.
theorem isShown_last (hne : source ≠ "") {p : Position}
    (hl : p.line = (rows source.toList).length - 1)
    (hc : p.column = ((rows source.toList).getLast?.map fun row =>
      (withoutLineEnd row).length).getD 0) : p.IsShown source := by
  have hrows := rows_ne_nil (mt String.toList_eq_nil_iff.mp hne)
  have hlast := List.getLast?_eq_getElem? (l := rows source.toList)
  cases hrow : (rows source.toList).getLast? with
  | none => exact absurd (List.getLast?_eq_none_iff.mp hrow) hrows
  | some row =>
      rw [hrow] at hc hlast
      refine ⟨String.ofList (withoutLineEnd row), ?_, ?_⟩
      · rw [lines, List.getElem?_map, hl, ← hlast, Option.map_some]
      · rw [String.length_ofList, hc]
        exact Nat.le_refl _

theorem isShown_start (hne : source ≠ "") : Position.start.IsShown source := by
  have hlines : lines source ≠ [] := by
    rw [lines, ne_eq, List.map_eq_nil_iff]
    exact rows_ne_nil (mt String.toList_eq_nil_iff.mp hne)
  obtain ⟨line, rest, hline⟩ := List.exists_cons_of_ne_nil hlines
  exact ⟨line, by rw [hline]; rfl, Nat.zero_le _⟩

-- Behind a line feed at the end there is no line.
theorem line_after_of_lineFeed (h : source.toList.getLast? = some '\n') :
    (Position.start.after source.toList).line = (lines source).length := by
  rw [line_after, lines, List.length_map, length_rows_of_lineFeed h]
  exact Nat.zero_add _

theorem isShown_after_iff (hne : source ≠ "") :
    (Position.start.after source.toList).IsShown source ↔
      source.toList.getLast? ≠ some '\n' := by
  constructor
  · rintro ⟨line, hline, -⟩ h
    have hlt := (List.getElem?_eq_some_iff.mp hline).1
    rw [line_after_of_lineFeed h] at hlt
    exact Nat.lt_irrefl _ hlt
  · intro h
    have hend := after_eq_of_rows h (p := Position.start) rfl
    refine isShown_last hne ?_ (congrArg Position.column hend)
    rw [hend]
    exact Nat.zero_add _

end

end Codebook
