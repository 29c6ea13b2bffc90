import Codebook.Proofs.Declarations.Ends
import Codebook.Proofs.Declarations.Pointing

namespace Codebook.Declarations

open Codebook.Text

-- Every fault of the declarations is put at a place that is shown: at the start of a line, at a
-- word, at the end of the last line, or at the start of the source.

-- The lines are shown at least as far as they are read.
theorem length_withoutLineEnds_le (row : List Char) :
    (withoutLineEnds row).length ≤ (withoutLineEnd row).length := by
  have hdrop (text : List Char) : (text.dropWhile isLineEnd).length ≤ text.length :=
    (List.dropWhile_sublist _).length_le
  rw [withoutLineEnds, List.length_reverse]
  unfold withoutLineEnd
  split
  · rename_i body hrow
    rw [hrow, List.length_reverse]
    exact hdrop body
  · rename_i body hother hrow
    rw [hrow, List.length_reverse]
    exact hdrop body
  · exact (hdrop row.reverse).trans_eq List.length_reverse

theorem exists_ofRow {number byte i : Nat} {rows : List (List Char)} {line : Line}
    (h : (linesFrom number byte rows)[i]? = some line) :
    ∃ row start, rows[i]? = some row ∧ line = Line.ofRow (number + i) start row := by
  induction rows generalizing number byte i with
  | nil => simp [linesFrom] at h
  | cons row rest ih =>
      cases i with
      | zero => exact ⟨row, byte, rfl, (Option.some.inj h).symm⟩
      | succ i =>
          obtain ⟨found, start, hfound, hline⟩ := ih h
          refine ⟨found, start, hfound, ?_⟩
          rw [hline, Nat.add_assoc, Nat.add_comm 1]

variable {markers : Markers} {source : String}

theorem isShown_sourceLines {line : Line} (h : line ∈ sourceLines source) :
    line.span.start.IsShown source := by
  obtain ⟨i, hi⟩ := List.getElem?_of_mem h
  obtain ⟨row, start, hrow, rfl⟩ := exists_ofRow hi
  refine ⟨String.ofList (withoutLineEnd row), ?_, ?_⟩
  · rw [lines, List.getElem?_map]
    simp only [Line.ofRow, Nat.zero_add, hrow, Option.map_some]
  · rw [String.length_ofList]
    exact (List.takeWhile_sublist isBlank).length_le.trans (length_withoutLineEnds_le row)

theorem isShown_endOfSource (hne : source ≠ "") : (endOfSource source).IsShown source :=
  isShown_last hne (congrArg Position.line (endOfSource_eq source))
    (congrArg Position.column (endOfSource_eq source))

-- A scan stops at a line or at the end.
theorem span_of_blocks_eq_error {fault : BlockFault} (h : blocks markers source = .error fault) :
    (∃ line ∈ sourceLines source, fault.diagnostic.span = line.span) ∨
      fault.diagnostic.span = Span.point (endOfSource source) := by
  have hscan := isOf_scanSource markers source
  unfold Scan.IsOf at hscan
  unfold blocks at h
  cases hending : (scanSource markers source).ending with
  | complete => simp [hending] at h
  | nested line opening =>
      simp only [hending] at hscan h
      obtain rfl := Except.error.inj h
      obtain ⟨i, -, -, -, -, hline, -⟩ := hscan
      obtain ⟨found, hfound, rfl⟩ := Option.map_eq_some_iff.mp hline
      exact .inl ⟨found, List.mem_of_getElem? hfound, rfl⟩
  | unclosed opening =>
      simp only [hending] at h
      obtain rfl := Except.error.inj h
      exact .inr rfl

theorem isShown_of_firstBlock (hne : source ≠ "") {fault : BlockFault}
    (h : firstBlock markers source = .error fault) :
    fault.diagnostic.span.start.IsShown source := by
  cases hblocks : blocks markers source with
  | error found =>
      obtain rfl := Except.error.inj ((firstBlock_of_error hblocks).symm.trans h)
      rcases span_of_blocks_eq_error hblocks with ⟨line, hm, hspan⟩ | hspan
      · rw [hspan]
        exact isShown_sourceLines hm
      · rw [hspan]
        exact isShown_endOfSource hne
  | ok found =>
      rw [firstBlock, hblocks] at h
      cases found with
      | nil =>
          obtain rfl := Except.error.inj h
          exact isShown_start hne
      | cons block rest => cases h

theorem isShown_of_pointsAt {d : Diagnostic} {text : List Char} (h : d.PointsAt source text) :
    d.span.start.IsShown source := by
  obtain ⟨before, behind, -, -, -, hlength, hline, -⟩ := h.marks ""
  refine ⟨_, hline, ?_⟩
  rw [String.length_ofList, List.length_append, hlength]
  exact Nat.le_add_right _ _

-- The fault of a block is that of one of its lines, and is put at the line or at a word of it.
theorem isShown_of_readEntries {found : List Block} (h : blocks markers source = .ok found)
    {block : Block} (hb : block ∈ found) {fault : EntryFault}
    (hf : readEntries block = .error fault) : fault.diagnostic.span.start.IsShown source := by
  obtain ⟨line, hl, hread⟩ := exists_of_readLines_eq_error hf
  obtain ⟨i, row, hr, hrow⟩ := exists_isOfRow h hb hl
  obtain ⟨hne, hplaced⟩ := isPlaced_of_readEntry hread
  cases hplaced with
  | line habout hspan => exact isShown_of_pointsAt (pointsAt_line hr hrow hne hspan)
  | field field number front hw hc habout hspan =>
      have hn := noLineFeed_of_mem_blocks h hb line hl
      exact isShown_of_pointsAt (pointsAt_field hr hrow hn hw hc hspan).2

end Codebook.Declarations
