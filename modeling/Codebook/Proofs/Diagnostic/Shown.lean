import Codebook.Proofs.Declarations.Shown
import Codebook.Proofs.Proto.Faults

namespace Codebook

open Declarations Text

-- Which faults are shown with the line that they are in. All are but those at the end of a
-- definition source that ends with a line feed: they are put behind the last line.

namespace Diagnostic

-- A diagnostic is shown with its line, and with carets under the line or behind it.
structure IsShown (source : String) (d : Diagnostic) : Prop where
  place : d.span.start.IsShown source
  excerpt : ∀ filename, ∃ line count below, (lines source)[d.span.start.line]? = some line ∧
    0 < count ∧ (d.render source filename).toList = (d.heading filename).toList ++
      (edge (d.span.start.line + 1) (toString (d.span.start.line + 1)) ++ line.toList ++ '\n' ::
        (edge (d.span.start.line + 1) "" ++ List.replicate d.span.start.column ' '
          ++ List.replicate count '^' ++ '\n' :: below))

theorem caretCount_pos (span : Span) (line : String) : 0 < caretCount span line :=
  Nat.lt_of_lt_of_le Nat.zero_lt_one (Nat.le_max_left _ _)

variable {source : String} {d : Diagnostic}

theorem isShown_of_place (h : d.span.start.IsShown source) : d.IsShown source where
  place := h
  excerpt filename := by
    obtain ⟨line, hline, -⟩ := h
    obtain ⟨below, hrender⟩ := render_of_shown hline filename
    exact ⟨line, _, below, hline, caretCount_pos d.span line, hrender⟩

-- Behind the last line nothing is shown for the place.
theorem mainExcerpt_of_line_eq (h : d.span.start.line = (lines source).length) :
    mainExcerpt d (lines source) = [] := by
  have hnone : (lines source)[d.span.start.line]? = none :=
    List.getElem?_eq_none_iff.mpr (Nat.le_of_eq h.symm)
  simp only [mainExcerpt, hnone]

-- A diagnostic at the end of a source whose last line ends with a line feed
def IsBehind (source : String) (d : Diagnostic) : Prop :=
  d.span = Span.point (Position.start.after source.toList) ∧
    source.toList.getLast? = some '\n'

instance (source : String) (d : Diagnostic) : Decidable (d.IsBehind source) :=
  inferInstanceAs (Decidable (_ ∧ _))

theorem IsBehind.line_eq (h : d.IsBehind source) :
    d.span.start.line = (lines source).length := by
  obtain ⟨hspan, hlast⟩ := h
  rw [hspan]
  exact line_after_of_lineFeed hlast

theorem isShown_iff_of_parse (hne : source ≠ "") {fault : Proto.Fault}
    (h : Proto.parse source = .error fault) :
    fault.diagnostic.IsShown source ↔ ¬ fault.diagnostic.IsBehind source := by
  constructor
  · rintro ⟨hplace, -⟩ ⟨hspan, hlast⟩
    rw [hspan] at hplace
    exact (isShown_after_iff hne).mp hplace hlast
  · intro hbehind
    apply isShown_of_place
    rcases Proto.isSeen_of_parse_eq_error h with hseen | hspan
    · exact hseen.isShown
    · have hlast : source.toList.getLast? ≠ some '\n' := fun hl => hbehind ⟨hspan, hl⟩
      rw [hspan]
      exact (isShown_after_iff hne).mpr hlast

end Diagnostic

-- Every fault of the declarations is shown with its line. A fault of a definition source is unless
-- it is behind the last line, and then nothing is shown for it.
theorem faults_shown_iff {source : String} (hne : source ≠ "") :
    (∀ fault, Proto.parse source = .error fault →
      (fault.diagnostic.IsShown source ↔ ¬ fault.diagnostic.IsBehind source) ∧
      (fault.diagnostic.IsBehind source →
        fault.diagnostic.span.start.line = (lines source).length ∧
        fault.diagnostic.mainExcerpt (lines source) = [])) ∧
    ∀ markers,
      (∀ fault, firstBlock markers source = .error fault → fault.diagnostic.IsShown source) ∧
      ∀ found, blocks markers source = .ok found → ∀ block ∈ found, ∀ fault,
        readEntries block = .error fault → fault.diagnostic.IsShown source := by
  refine ⟨fun fault h => ⟨Diagnostic.isShown_iff_of_parse hne h, fun hbehind => ?_⟩,
    fun markers => ⟨fun fault h => ?_, fun found h block hb fault hf => ?_⟩⟩
  · exact ⟨hbehind.line_eq, Diagnostic.mainExcerpt_of_line_eq hbehind.line_eq⟩
  · exact Diagnostic.isShown_of_place (isShown_of_firstBlock hne h)
  · exact Diagnostic.isShown_of_place (isShown_of_readEntries h hb hf)

-- A message that is never closed, and a line of a block that holds no integer
def openMessage : String := "message M \x7b\n"

def wordCode : String := "enum E \x7b\r\n\tA = x\r\n\x7d"

theorem openMessage_not_shown :
    (∃ fault, Proto.parse openMessage = .error fault ∧ ¬ fault.diagnostic.IsShown openMessage ∧
      fault.diagnostic.mainExcerpt (lines openMessage) = []) ∧
    (∃ fault, Proto.parse "message M \x7b" = .error fault ∧
      fault.diagnostic.IsShown "message M \x7b") ∧
    (∃ fault, firstBlock (.ofEnum "message M \x7b") openMessage = .error fault ∧
      fault.diagnostic.IsShown openMessage) ∧
    ∃ block fault, firstBlock (.ofEnum "enum E \x7b") wordCode = .ok block ∧
      readEntries block = .error fault ∧ fault.diagnostic.IsShown wordCode := by
  have hopen : Proto.parse openMessage = .error
      (.openBlock .message "M" ⟨⟨10, 0, 10⟩, ⟨11, 0, 11⟩⟩ (Span.point ⟨12, 1, 0⟩)) :=
    (map_eq_error (f := fun _ => ())).mp (by decide +kernel)
  have hlast : Proto.parse "message M \x7b" = .error
      (.openBlock .message "M" ⟨⟨10, 0, 10⟩, ⟨11, 0, 11⟩⟩ (Span.point ⟨11, 0, 11⟩)) :=
    (map_eq_error (f := fun _ => ())).mp (by decide +kernel)
  have hblock : firstBlock (.ofEnum "message M \x7b") openMessage = .error
      (.unclosed (.ofEnum "message M \x7b") (Span.point ⟨12, 0, 11⟩)
        ⟨⟨0, 0, 0⟩, ⟨11, 0, 11⟩⟩) := by
    decide
  have hword : blocks (.ofEnum "enum E \x7b") wordCode = .ok
      [⟨⟨⟨0, 0, 0⟩, ⟨8, 0, 8⟩⟩, ⟨⟨18, 2, 0⟩, ⟨19, 2, 1⟩⟩,
        [⟨"A = x", ⟨⟨11, 1, 1⟩, ⟨16, 1, 6⟩⟩⟩]⟩] := by
    decide
  have hfilled : openMessage ≠ "" := by decide
  obtain ⟨hparse, hscan⟩ := faults_shown_iff hfilled
  obtain ⟨hiff, hnone⟩ := hparse _ hopen
  have hbehind : Diagnostic.IsBehind openMessage (Proto.Fault.openBlock .message "M"
      ⟨⟨10, 0, 10⟩, ⟨11, 0, 11⟩⟩ (Span.point ⟨12, 1, 0⟩)).diagnostic := by
    decide
  refine ⟨⟨_, hopen, fun hshown => hiff.mp hshown hbehind, (hnone hbehind).2⟩, ⟨_, hlast, ?_⟩,
    ⟨_, hblock, (hscan _).1 _ hblock⟩, ?_⟩
  · have hfeed : ¬ "message M \x7b".toList.getLast? = some '\n' := by decide
    exact ((faults_shown_iff (by decide)).1 _ hlast).1.mpr fun h => hfeed h.2
  · refine ⟨_, .notInteger "x" ⟨⟨15, 1, 5⟩, ⟨16, 1, 6⟩⟩, (firstBlock_of_ok hword).1 _ rfl,
      by decide, ?_⟩
    exact ((faults_shown_iff (by decide)).2 _).2 _ hword _ List.mem_cons_self _ (by decide)

end Codebook
