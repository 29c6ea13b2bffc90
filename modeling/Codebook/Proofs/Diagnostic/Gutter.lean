import Codebook.Proofs.Diagnostic.Carets
import Codebook.Proofs.Result
import Codebook.Proto.Parser
import Mathlib.Algebra.Group.Nat.Defs

namespace Codebook

open Text

namespace Diagnostic

-- Where the bars stand in the rows for the line of a diagnostic and for the line that is related to
-- it. Each line has a gutter for its own number, so the bars part when one number is longer.

-- A line behind its number, and the carets below it
def lineRows (span : Span) (line label : String) : List (List Char) :=
  [edge (span.start.line + 1) (toString (span.start.line + 1)) ++ line.toList ++ ['\n'],
    edge (span.start.line + 1) "" ++ List.replicate span.start.column ' '
      ++ List.replicate (caretCount span line) '^' ++ label.toList ++ ['\n']]

def excerptRows (d : Diagnostic) (line : String) (related : Span) (relatedLine : String) :
    List (List Char) :=
  lineRows d.span line "" ++ lineRows related relatedLine (" " ++ d.label.getD "opened here")

-- The bar behind the gutter is the first of its row.
def barColumn (row : List Char) : Nat := row.idxOf '|'

def AreAligned (rows : List (List Char)) : Prop :=
  ∀ row ∈ rows, ∀ other ∈ rows, barColumn row = barColumn other

instance (rows : List (List Char)) : Decidable (AreAligned rows) :=
  inferInstanceAs (Decidable (∀ row ∈ rows, _))

theorem barColumn_edge {number : Nat} {text : String} (hl : text.length ≤ gutterWidth number)
    (hb : '|' ∉ text.toList) (rest : List Char) :
    '|' ∈ edge number text ++ rest ∧
      barColumn (edge number text ++ rest) = gutterWidth number + 1 := by
  have hpad : '|' ∉ (padLeft (gutterWidth number) text).toList ++ [' '] := by
    simp [padLeft, hb]
  have hlength : (padLeft (gutterWidth number) text).toList.length = gutterWidth number := by
    rw [String.length_toList, padLeft, String.length_append, String.length_ofList,
      List.length_replicate, Nat.sub_add_cancel hl]
  have hedge : edge number text ++ rest
      = ((padLeft (gutterWidth number) text).toList ++ [' ']) ++ ('|' :: ' ' :: rest) := by
    simp [edge]
  rw [hedge, barColumn, List.idxOf_append_of_notMem hpad, List.idxOf_cons_self,
    List.length_append, hlength]
  exact ⟨List.mem_append_right _ List.mem_cons_self, rfl⟩

-- Number and carets have the bar in one column.
theorem barColumn_of_mem_lineRows {span : Span} {line label : String} {row : List Char}
    (h : row ∈ lineRows span line label) :
    '|' ∈ row ∧ barColumn row = gutterWidth (span.start.line + 1) + 1 := by
  have hnumber : '|' ∉ (toString (span.start.line + 1)).toList := fun hbar =>
    absurd (Number.isDigit_of_mem_toString hbar) (by decide)
  have hempty : "".length ≤ gutterWidth (span.start.line + 1) := Nat.zero_le _
  rcases List.mem_pair.mp h with hrow | hrow
  · rw [hrow, List.append_assoc]
    exact barColumn_edge (Nat.le_max_right _ _) hnumber _
  · rw [hrow, List.append_assoc, List.append_assoc, List.append_assoc]
    exact barColumn_edge hempty (by decide) _

theorem gutterWidth_le_iff {number width : Nat} (h : 2 ≤ width) :
    gutterWidth number ≤ width ↔ number < 10 ^ width := by
  have hlength : (toString number).length ≤ width ↔ number < 10 ^ width :=
    Nat.length_repr_le_iff (Nat.lt_of_lt_of_le (by decide) h)
  rw [gutterWidth, Nat.max_le, hlength, and_iff_right h]

-- Numbers have gutters of one width when no power of ten from a hundred on is between them.
theorem gutterWidth_eq_iff {number other : Nat} :
    gutterWidth number = gutterWidth other ↔
      ∀ power, 2 ≤ power → (number < 10 ^ power ↔ other < 10 ^ power) := by
  constructor
  · intro h power hp
    rw [← gutterWidth_le_iff hp, ← gutterWidth_le_iff hp, h]
  · intro h
    have hwide (n : Nat) : 2 ≤ gutterWidth n := Nat.le_max_left _ _
    have hfits (n : Nat) : n < 10 ^ gutterWidth n := (gutterWidth_le_iff (hwide n)).mp le_rfl
    apply Nat.le_antisymm
    · exact (gutterWidth_le_iff (hwide other)).mpr ((h _ (hwide other)).mpr (hfits other))
    · exact (gutterWidth_le_iff (hwide number)).mpr ((h _ (hwide number)).mp (hfits number))

theorem toList_relatedExcerpt {d : Diagnostic} {related : Span} {source : List String}
    {line : String} (hr : d.related = some related)
    (hl : source[related.start.line]? = some line) :
    (relatedExcerpt d source).plain.toList
      = (lineRows related line (" " ++ d.label.getD "opened here")).flatten := by
  simp only [relatedExcerpt, hr, hl, Styled.plain_append, String.toList_append,
    toList_excerptRow, toList_caretRow]
  simp [lineRows]

theorem areAligned_excerptRows_iff (d : Diagnostic) (line : String) (related : Span)
    (relatedLine : String) :
    AreAligned (d.excerptRows line related relatedLine) ↔
      gutterWidth (d.span.start.line + 1) = gutterWidth (related.start.line + 1) := by
  rw [excerptRows]
  constructor
  · intro h
    have hfirst (span : Span) (line label : String) : ∃ row, row ∈ lineRows span line label :=
      ⟨_, List.mem_cons_self⟩
    obtain ⟨row, hrow⟩ := hfirst d.span line ""
    obtain ⟨other, hother⟩ := hfirst related relatedLine (" " ++ d.label.getD "opened here")
    have hcolumns := h row (List.mem_append_left _ hrow) other (List.mem_append_right _ hother)
    rw [(barColumn_of_mem_lineRows hrow).2, (barColumn_of_mem_lineRows hother).2] at hcolumns
    exact Nat.succ.inj hcolumns
  · intro h
    have hcolumn : ∀ row ∈ lineRows d.span line ""
        ++ lineRows related relatedLine (" " ++ d.label.getD "opened here"),
        barColumn row = gutterWidth (d.span.start.line + 1) + 1 := by
      intro row hrow
      rcases List.mem_append.mp hrow with hrow | hrow
      · exact (barColumn_of_mem_lineRows hrow).2
      · rw [(barColumn_of_mem_lineRows hrow).2, h]
    intro row hrow other hother
    rw [hcolumn row hrow, hcolumn other hother]

-- The rows of both lines have their bars in one column exactly when the numbers of the lines have
-- gutters of one width.
theorem bars_aligned_iff {d : Diagnostic} {related : Span} {source line relatedLine : String}
    (hr : d.related = some related) (hl : (lines source)[d.span.start.line]? = some line)
    (hrl : (lines source)[related.start.line]? = some relatedLine) (filename : String) :
    (d.render source filename).toList = (d.heading filename).toList ++
      ((d.excerptRows line related relatedLine).flatten ++ d.helpRows.plain.toList) ∧
    (∀ row ∈ d.excerptRows line related relatedLine, '|' ∈ row) ∧
    (AreAligned (d.excerptRows line related relatedLine) ↔
      ∀ power, 2 ≤ power →
        (d.span.start.line + 1 < 10 ^ power ↔ related.start.line + 1 < 10 ^ power)) := by
  refine ⟨?_, ?_, (areAligned_excerptRows_iff ..).trans gutterWidth_eq_iff⟩
  · rw [toList_render hl, Styled.plain_append, String.toList_append, toList_relatedExcerpt hr hrl]
    simp [excerptRows, lineRows]
  · intro row hrow
    rcases List.mem_append.mp hrow with hrow | hrow
    · exact (barColumn_of_mem_lineRows hrow).1
    · exact (barColumn_of_mem_lineRows hrow).1

end Diagnostic

-- A message that is never closed, in a source that ends some lines below it
def openAcross (count : Nat) : String :=
  "message M \x7b" ++ String.ofList (List.replicate count '\n') ++ " "

def openBrace : Span := ⟨⟨10, 0, 10⟩, ⟨11, 0, 11⟩⟩

def faultAcross (count : Nat) : Proto.Fault :=
  .openBlock .message "M" openBrace (Span.point ⟨count + 12, count, 1⟩)

-- The bars part when the source ends on its hundredth line.
theorem bars_part_at_hundred :
    (Proto.parse (openAcross 98) = .error (faultAcross 98) ∧
      (lines (openAcross 98))[98]? = some " " ∧
      (lines (openAcross 98))[0]? = some "message M \x7b" ∧
      Diagnostic.AreAligned
        ((faultAcross 98).diagnostic.excerptRows " " openBrace "message M \x7b")) ∧
    Proto.parse (openAcross 99) = .error (faultAcross 99) ∧
      (lines (openAcross 99))[99]? = some " " ∧
      (lines (openAcross 99))[0]? = some "message M \x7b" ∧
      ¬ Diagnostic.AreAligned
        ((faultAcross 99).diagnostic.excerptRows " " openBrace "message M \x7b") ∧
      (faultAcross 99).diagnostic.render (openAcross 99) "input.proto"
        = " file: input.proto:100:2\n" ++
          "error: Unclosed block: This 'message M' block is never closed.\n" ++
          "    |\n" ++
          "100 |  \n" ++
          "    |  ^\n" ++
          " 1 | message M \x7b\n" ++
          "   |           ^ opened here\n" ++
          "\n help: Close with '\x7d'\n" := by
  have hnear : Proto.parse (openAcross 98) = .error (faultAcross 98) :=
    (map_eq_error (f := fun _ => ())).mp (by decide +kernel)
  have hfar : Proto.parse (openAcross 99) = .error (faultAcross 99) :=
    (map_eq_error (f := fun _ => ())).mp (by decide +kernel)
  have hnearLine : (lines (openAcross 98))[98]? = some " " := by decide +kernel
  have hfarLine : (lines (openAcross 99))[99]? = some " " := by decide +kernel
  have hnearBrace : (lines (openAcross 98))[0]? = some "message M \x7b" := by decide +kernel
  have hfarBrace : (lines (openAcross 99))[0]? = some "message M \x7b" := by decide +kernel
  have hnearBars := (Diagnostic.bars_aligned_iff (d := (faultAcross 98).diagnostic) rfl hnearLine
    hnearBrace "input.proto").2.2
  have hfarBars := (Diagnostic.bars_aligned_iff (d := (faultAcross 99).diagnostic) rfl hfarLine
    hfarBrace "input.proto").2.2
  refine ⟨⟨hnear, hnearLine, hnearBrace, hnearBars.mpr fun power hp => ?_⟩, hfar, hfarLine,
    hfarBrace, fun h => ?_, by decide +kernel⟩
  · have hpower : 10 ^ 2 ≤ 10 ^ power := Nat.pow_le_pow_right (by decide) hp
    have hnumber : 98 + 1 < 10 ^ power := by omega
    have hone : 0 + 1 < 10 ^ power := by omega
    exact iff_of_true hnumber hone
  · have hpart : 99 + 1 < 10 ^ 2 ↔ 0 + 1 < 10 ^ 2 := hfarBars.mp h 2 le_rfl
    exact absurd hpart (by decide)

end Codebook
