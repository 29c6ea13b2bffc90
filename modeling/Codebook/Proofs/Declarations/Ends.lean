import Codebook.Proofs.Declarations.Scan
import Codebook.Proofs.Text.Shown

namespace Codebook.Declarations

open Codebook.Text

-- The places of blocks and of faults. Those of lines are places of the source. The end of a block
-- that is never closed is put at the last byte, but in the last line that is shown, and these are
-- two places when a line feed ends the source.

section

variable (source : String)

theorem endOfSource_eq : endOfSource source = ⟨byteLength source.toList,
    (rows source.toList).length - 1,
    ((rows source.toList).getLast?.map fun row => (withoutLineEnd row).length).getD 0⟩ := by
  simp [endOfSource, Text.lines, utf8ByteSize_eq_byteLength, Function.comp_def]

theorem isIn_endOfSource_iff :
    (endOfSource source).IsIn source.toList ↔ source.toList.getLast? ≠ some '\n' := by
  constructor
  · intro h hlast
    rw [← List.append_nil source.toList] at h
    have hline := line_of_isIn h (congrArg Position.byte (endOfSource_eq source))
    have hrows := length_rows_of_lineFeed hlast
    have hpos := List.count_pos_iff.mpr (List.mem_of_getLast? hlast)
    rw [endOfSource_eq, ← hrows] at hline
    simp only at hline
    omega
  · intro h
    have hend := after_eq_of_rows h (p := Position.start) rfl
    have hin := isIn_after source.toList []
    rw [List.append_nil, hend] at hin
    rw [endOfSource_eq]
    simpa [Position.start] using hin

end

def Block.spans (block : Block) : List Span :=
  block.opening :: block.closing :: block.lines.map Line.span

theorem IsLineAt.isIn {source : List Char} {i : Nat} {span : Span} (h : IsLineAt source i span) :
    span.IsIn source := by
  obtain ⟨text, -, hcovers⟩ := h.covers
  exact hcovers.isIn

theorem Block.IsAt.isIn {source : List Char} {pair : Nat × Nat} {block : Block}
    (h : block.IsAt source pair) : ∀ span ∈ block.spans, span.IsIn source := by
  refine List.forall_mem_cons.mpr ⟨h.opening.isIn, List.forall_mem_cons.mpr ⟨h.closing.isIn, ?_⟩⟩
  refine List.forall_mem_map.mpr fun line hm => ?_
  obtain ⟨i, hline⟩ := List.getElem?_of_mem hm
  exact (h.places i line hline).isIn

-- The places are those of the bytes, but for the end of a block that is never closed.
theorem isIn_of_scan (markers : Markers) (source : String) :
    (∀ found, blocks markers source = .ok found →
      ∀ block ∈ found, ∀ span ∈ block.spans, span.IsIn source.toList) ∧
    ∀ fault, blocks markers source = .error fault →
      (∀ span ∈ fault.diagnostic.related, span.IsIn source.toList) ∧
      (fault.diagnostic.span.IsIn source.toList ↔
        ¬ (fault.diagnostic.kind = .unclosedBlock ∧ source.toList.getLast? = some '\n')) := by
  constructor
  · intro found h block hm
    obtain ⟨pairs, -, hfound⟩ := isAt_of_blocks h
    obtain ⟨i, hi, rfl⟩ := List.getElem_of_mem hm
    exact (hfound.get (hfound.length_eq ▸ hi) hi).isIn
  · intro fault h
    rcases (not_paired_of_blocks h).2 with hnested | ⟨hunclosed, hspan⟩
    · obtain ⟨hkind, i, first, opening, hrelated, -, -, -, hline, hopening⟩ := hnested
      have hother : ¬ (fault.diagnostic.kind = .unclosedBlock ∧
          source.toList.getLast? = some '\n') := by simp [hkind]
      refine ⟨fun span hs => ?_, iff_of_true hline.isIn hother⟩
      obtain rfl := Option.some.inj (hrelated.symm.trans hs)
      exact hopening.isIn
    · obtain ⟨hkind, -, first, opening, hrelated, -, -, -, hopening⟩ := hunclosed
      refine ⟨fun span hs => ?_, ?_⟩
      · obtain rfl := Option.some.inj (hrelated.symm.trans hs)
        exact hopening.isIn
      · rw [hspan, hkind, Span.IsIn, Span.point, and_self, isIn_endOfSource_iff]
        simp

def openEnum : String := "enum A \x7b\n"

def closedEnum : String := "/* é */\r\nenum A \x7b\r\n\tÄ = 1\r\n\r\n\x7d"

theorem isIn_of_scan_openEnum :
    (∃ fault, blocks (.ofEnum "enum A \x7b") openEnum = .error fault ∧
      fault.diagnostic.span = Span.point ⟨9, 0, 8⟩ ∧
      ¬ fault.diagnostic.span.IsIn openEnum.toList ∧
      ∀ span ∈ fault.diagnostic.related, span.IsIn openEnum.toList) ∧
    ∃ block, blocks (.ofEnum "enum A \x7b") closedEnum = .ok [block] ∧
      ∀ span ∈ block.spans, span.IsIn closedEnum.toList := by
  constructor
  · have hblocks : blocks (.ofEnum "enum A \x7b") openEnum
        = .error (.unclosed (.ofEnum "enum A \x7b") (Span.point ⟨9, 0, 8⟩)
          ⟨⟨0, 0, 0⟩, ⟨8, 0, 8⟩⟩) := by decide
    obtain ⟨hrelated, hmain⟩ := (isIn_of_scan _ _).2 _ hblocks
    exact ⟨_, hblocks, rfl, fun h => hmain.mp h ⟨rfl, by decide⟩, hrelated⟩
  · have hblocks : blocks (.ofEnum "enum A \x7b") closedEnum
        = .ok [⟨⟨⟨10, 1, 0⟩, ⟨18, 1, 8⟩⟩, ⟨⟨31, 4, 0⟩, ⟨32, 4, 1⟩⟩,
          [⟨"Ä = 1", ⟨⟨21, 2, 1⟩, ⟨27, 2, 6⟩⟩⟩, ⟨"", ⟨⟨29, 3, 0⟩, ⟨29, 3, 0⟩⟩⟩]⟩] := by decide
    exact ⟨_, hblocks, (isIn_of_scan _ _).1 _ hblocks _ List.mem_cons_self⟩

end Codebook.Declarations
