import Codebook.Proofs.Diagnostic.Styled
import Codebook.Proofs.Number.Decimal
import Codebook.Proofs.Text.Lines

namespace Codebook

-- Colours add terminal codes to what is shown, and nothing else.

-- A text without the codes that begin an ink and the one that ends it
def withoutCodes : List Char → List Char
  | '\x1b' :: '[' :: '1' :: ';' :: '3' :: '1' :: 'm' :: rest => withoutCodes rest
  | '\x1b' :: '[' :: '2' :: 'm' :: rest => withoutCodes rest
  | '\x1b' :: '[' :: '1' :: ';' :: '3' :: '6' :: 'm' :: rest => withoutCodes rest
  | '\x1b' :: '[' :: '1' :: 'm' :: rest => withoutCodes rest
  | '\x1b' :: '[' :: '0' :: 'm' :: rest => withoutCodes rest
  | c :: rest => c :: withoutCodes rest
  | [] => []

theorem withoutCodes_append {text : List Char} (h : '\x1b' ∉ text) (rest : List Char) :
    withoutCodes (text ++ rest) = text ++ withoutCodes rest := by
  induction text with
  | nil => rfl
  | cons c text ih =>
      obtain ⟨hc, htext⟩ := not_or.mp (mt List.mem_cons.mpr h)
      rw [List.cons_append, List.cons_append, ← ih htext]
      simp [withoutCodes, Ne.symm hc]

namespace Text

-- A text without the character that every code begins with
def IsUncoded (text : String) : Prop := '\x1b' ∉ text.toList

instance (text : String) : Decidable (IsUncoded text) := inferInstanceAs (Decidable (¬ _))

@[simp] theorem isUncoded_append {front behind : String} :
    IsUncoded (front ++ behind) ↔ IsUncoded front ∧ IsUncoded behind := by
  simp [IsUncoded]

theorem isUncoded_blank : IsUncoded " " := by decide

theorem isUncoded_lineFeed : IsUncoded "\n" := by decide

theorem isUncoded_replicate {c : Char} (hc : c ≠ '\x1b') (count : Nat) :
    IsUncoded (String.ofList (List.replicate count c)) := by
  rw [IsUncoded, String.toList_ofList]
  exact fun h => hc (List.eq_of_mem_replicate h).symm

theorem isUncoded_toString (n : Nat) : IsUncoded (toString n) := fun h =>
  absurd (Number.isDigit_of_mem_toString h) (by decide)

theorem isUncoded_of_mem_lines {text line : String} (h : IsUncoded text)
    (hl : line ∈ lines text) : IsUncoded line := by
  obtain ⟨row, hrow, rfl⟩ := List.mem_map.mp hl
  obtain ⟨ends, -, hends⟩ := exists_lineEnd row
  rw [IsUncoded, String.toList_ofList]
  intro hm
  have hmem : '\x1b' ∈ row := hends ▸ List.mem_append_left ends hm
  exact h (flatten_rows text.toList ▸ List.mem_flatten_of_mem hrow hmem)

end Text

theorem withoutCodes_begins (ink : Ink) (rest : List Char) :
    withoutCodes ((Palette.coloured.begins ink).toList ++ rest) = withoutCodes rest := by
  cases ink <;> rfl

namespace Stretch

theorem withoutCodes_written {stretch : Stretch} (h : Text.IsUncoded stretch.text)
    (rest : List Char) :
    withoutCodes ((stretch.written .coloured).toList ++ rest)
      = stretch.text.toList ++ withoutCodes rest := by
  obtain ⟨ink, text⟩ := stretch
  by_cases hplain : ink = .plain
  · subst hplain
    exact withoutCodes_append h rest
  · -- the text stands between the code of its ink and the one that ends it
    rw [written_of_ne_plain _ _ hplain, String.toList_append, String.toList_append,
      List.append_assoc, List.append_assoc, withoutCodes_begins, withoutCodes_append h]
    rfl

end Stretch

namespace Styled

def IsUncoded (text : Styled) : Prop := ∀ stretch ∈ text, Text.IsUncoded stretch.text

@[simp] theorem isUncoded_nil : IsUncoded [] := nofun

@[simp] theorem isUncoded_cons {stretch : Stretch} {rest : Styled} :
    IsUncoded (stretch :: rest) ↔ Text.IsUncoded stretch.text ∧ IsUncoded rest :=
  List.forall_mem_cons

@[simp] theorem isUncoded_append {front behind : Styled} :
    IsUncoded (front ++ behind) ↔ front.IsUncoded ∧ behind.IsUncoded :=
  List.forall_mem_append

theorem withoutCodes_written {text : Styled} (h : text.IsUncoded) :
    withoutCodes (text.written .coloured).toList = text.plain.toList := by
  induction text with
  | nil => rfl
  | cons stretch rest ih =>
      obtain ⟨hstretch, hrest⟩ := isUncoded_cons.mp h
      have hplain : plain (stretch :: rest) = stretch.text ++ plain rest := by
        simp [plain]
      rw [written_cons, hplain, String.toList_append, String.toList_append,
        Stretch.withoutCodes_written hstretch, ih hrest]

end Styled

namespace Diagnostic

-- Nothing that a diagnostic says has a code.
structure IsUncoded (d : Diagnostic) : Prop where
  message : Text.IsUncoded d.message
  label : ∀ label ∈ d.label, Text.IsUncoded label
  help : ∀ help ∈ d.help, Text.IsUncoded help

theorem isUncoded_title (kind : DiagnosticKind) : Text.IsUncoded kind.title := by
  cases kind <;> decide

theorem isUncoded_gutter {text : String} (h : Text.IsUncoded text) (width : Nat) :
    Text.IsUncoded (gutter width text).text := by
  have hbar : Text.IsUncoded " |" := by decide
  simp only [gutter, padLeft, Text.isUncoded_append]
  exact ⟨⟨Text.isUncoded_replicate (by decide) _, h⟩, hbar⟩

theorem isUncoded_excerptRow {line : String} (h : Text.IsUncoded line) (number : Nat) :
    (excerptRow number line).IsUncoded := by
  simp only [excerptRow, Styled.isUncoded_cons, Text.isUncoded_append]
  exact ⟨isUncoded_gutter (Text.isUncoded_toString number) _,
    ⟨⟨Text.isUncoded_blank, h⟩, Text.isUncoded_lineFeed⟩, Styled.isUncoded_nil⟩

theorem isUncoded_caretRow {label : String} (h : Text.IsUncoded label) (span : Span)
    (line : String) (ink : Ink) : (caretRow span line ink label).IsUncoded := by
  simp only [caretRow, Styled.isUncoded_cons, Text.isUncoded_append]
  exact ⟨isUncoded_gutter (by decide) _,
    ⟨Text.isUncoded_blank, Text.isUncoded_replicate (by decide) _⟩,
    ⟨Text.isUncoded_replicate (by decide) _, h⟩, Text.isUncoded_lineFeed, Styled.isUncoded_nil⟩

variable {d : Diagnostic} {source filename : String}

theorem isUncoded_mainExcerpt (hs : Text.IsUncoded source) :
    (mainExcerpt d (Text.lines source)).IsUncoded := by
  unfold mainExcerpt
  split
  · exact Styled.isUncoded_nil
  · rename_i line hline
    have hrow := Text.isUncoded_of_mem_lines hs (List.mem_of_getElem? hline)
    simp only [Styled.isUncoded_append, Styled.isUncoded_cons]
    exact ⟨⟨⟨isUncoded_gutter (by decide) _, Text.isUncoded_lineFeed, Styled.isUncoded_nil⟩,
      isUncoded_excerptRow hrow _⟩, isUncoded_caretRow (by decide) _ _ _⟩

theorem isUncoded_relatedExcerpt (hd : d.IsUncoded) (hs : Text.IsUncoded source) :
    (relatedExcerpt d (Text.lines source)).IsUncoded := by
  unfold relatedExcerpt
  split
  · exact Styled.isUncoded_nil
  split
  · exact Styled.isUncoded_nil
  · rename_i line hline
    have hrow := Text.isUncoded_of_mem_lines hs (List.mem_of_getElem? hline)
    have hlabel : Text.IsUncoded (" " ++ d.label.getD "opened here") := by
      refine Text.isUncoded_append.mpr ⟨Text.isUncoded_blank, ?_⟩
      cases h : d.label with
      | none => decide
      | some label => exact hd.label label h
    exact Styled.isUncoded_append.mpr
      ⟨isUncoded_excerptRow hrow _, isUncoded_caretRow hlabel _ _ _⟩

theorem isUncoded_helpRows (hd : d.IsUncoded) : d.helpRows.IsUncoded := by
  unfold helpRows
  split
  · exact Styled.isUncoded_nil
  · rename_i help hhelp
    have hlines : ∀ line ∈ Text.lines help, Text.IsUncoded line := fun _ =>
      Text.isUncoded_of_mem_lines (hd.help help hhelp)
    refine Styled.isUncoded_cons.mpr ⟨Text.isUncoded_lineFeed, ?_⟩
    split
    · exact Styled.isUncoded_nil
    · rename_i first rest hrows
      rw [hrows] at hlines
      obtain ⟨hfirst, hrest⟩ := List.forall_mem_cons.mp hlines
      simp only [Styled.isUncoded_append, Styled.isUncoded_cons, Text.isUncoded_append]
      refine ⟨⟨Text.isUncoded_blank, by decide, ⟨⟨Text.isUncoded_blank, hfirst⟩,
        Text.isUncoded_lineFeed⟩, Styled.isUncoded_nil⟩, ?_⟩
      refine List.forall_mem_map.mpr fun row hrow => ?_
      simp only [Text.isUncoded_append]
      exact ⟨⟨by decide, hrest row hrow⟩, Text.isUncoded_lineFeed⟩

theorem isUncoded_styled (hd : d.IsUncoded) (hs : Text.IsUncoded source)
    (hf : Text.IsUncoded filename) : (d.styled source filename).IsUncoded := by
  have hcolon : Text.IsUncoded ":" := by decide
  simp only [styled, Styled.isUncoded_append, Styled.isUncoded_cons, Text.isUncoded_append]
  refine ⟨⟨⟨⟨Text.isUncoded_blank, by decide, ?_, by decide, ?_, Styled.isUncoded_nil⟩,
    isUncoded_mainExcerpt hs⟩, isUncoded_relatedExcerpt hd hs⟩, isUncoded_helpRows hd⟩
  · exact ⟨⟨⟨⟨⟨⟨Text.isUncoded_blank, hf⟩, hcolon⟩, Text.isUncoded_toString _⟩, hcolon⟩,
      Text.isUncoded_toString _⟩, Text.isUncoded_lineFeed⟩
  · exact ⟨⟨⟨⟨Text.isUncoded_blank, isUncoded_title d.kind⟩, by decide⟩, hd.message⟩,
      Text.isUncoded_lineFeed⟩

end Diagnostic

namespace Failure

-- Nothing that a failure says has a code.
def IsUncoded : Failure → Prop
  | missing path => Text.IsUncoded path
  | unreadable path reason => Text.IsUncoded path ∧ Text.IsUncoded reason
  | invalid path text diagnostic =>
    Text.IsUncoded path ∧ Text.IsUncoded text ∧ diagnostic.IsUncoded
  | unwritable path reason => Text.IsUncoded path ∧ Text.IsUncoded reason
  | settings path message => Text.IsUncoded path ∧ Text.IsUncoded message

theorem isUncoded_styled {failure : Failure} (h : failure.IsUncoded) :
    failure.styled.IsUncoded := by
  have hframe {text : String} (ht : Text.IsUncoded text) : (framed text).IsUncoded := by
    simp only [framed, Styled.isUncoded_cons]
    exact ⟨by decide, Text.isUncoded_blank, ht, Text.isUncoded_lineFeed, Styled.isUncoded_nil⟩
  -- what failed, with its path and the reason
  have hreason (front : String) (hf : Text.IsUncoded front) {path reason : String}
      (hr : Text.IsUncoded path ∧ Text.IsUncoded reason) :
      Text.IsUncoded (front ++ path ++ ": " ++ reason) := by
    simp only [Text.isUncoded_append]
    exact ⟨⟨⟨hf, hr.1⟩, by decide⟩, hr.2⟩
  cases failure with
  | missing path =>
      have hmessage : Text.IsUncoded (path ++ " does not exist") :=
        Text.isUncoded_append.mpr ⟨h, by decide⟩
      exact hframe hmessage
  | unreadable path reason =>
      exact hframe (hreason "failed to read " (by decide) h)
  | invalid path text diagnostic => exact Diagnostic.isUncoded_styled h.2.2 h.2.1 h.1
  | unwritable path reason =>
      exact hframe (hreason "failed to write " (by decide) h)
  | settings path message =>
      exact hframe (hreason "invalid config " (by decide) h)

end Failure

-- What is shown in colours is what is shown without them and terminal codes, for a diagnostic and
-- for a failure of every kind.
theorem withoutCodes_renderColoured :
    (∀ (d : Diagnostic) (source filename : String), d.IsUncoded → Text.IsUncoded source →
      Text.IsUncoded filename →
      withoutCodes (d.renderColoured source filename).toList
        = (d.render source filename).toList) ∧
    ∀ failure : Failure, failure.IsUncoded →
      withoutCodes failure.renderColoured.toList = failure.render.toList := by
  constructor
  · intro d source filename hd hs hf
    rw [d.renderColoured_eq, d.render_eq]
    exact Styled.withoutCodes_written (Diagnostic.isUncoded_styled hd hs hf)
  · intro failure h
    rw [failure.renderColoured_eq, failure.render_eq]
    exact Styled.withoutCodes_written (Failure.isUncoded_styled h)

-- A bracket that is open at the end, with help of two lines
def openBracket : Diagnostic where
  kind := .unclosedBlock
  message := "never closed"
  span := Span.point ⟨7, 1, 1⟩
  related := some ⟨⟨2, 0, 2⟩, ⟨5, 0, 5⟩⟩
  help := some "Close it\nor drop it"

theorem withoutCodes_renderColoured_openBracket :
    (openBracket.IsUncoded ∧ Text.IsUncoded "a ( b\n c" ∧ Text.IsUncoded "f") ∧
    openBracket.renderColoured "a ( b\n c" "f"
      = " \x1b[2mfile:\x1b[0m f:2:2\n" ++
        "\x1b[1;31merror:\x1b[0m Unclosed block: never closed\n" ++
        "\x1b[2m   |\x1b[0m\n" ++
        "\x1b[2m 2 |\x1b[0m  c\n" ++
        "\x1b[2m   |\x1b[0m  \x1b[1;31m^\x1b[0m\n" ++
        "\x1b[2m 1 |\x1b[0m a ( b\n" ++
        "\x1b[2m   |\x1b[0m   \x1b[2m^^^ opened here\x1b[0m\n" ++
        "\n \x1b[1;36mhelp:\x1b[0m Close it\n       or drop it\n" ∧
    withoutCodes (openBracket.renderColoured "a ( b\n c" "f").toList
      = (openBracket.render "a ( b\n c" "f").toList ∧
    (Failure.unreadable "f" "gone").IsUncoded ∧
    (Failure.unreadable "f" "gone").renderColoured
      = "\x1b[1;31merror:\x1b[0m \x1b[1mfailed to read f: gone\x1b[0m\n" ∧
    withoutCodes (Failure.unreadable "f" "gone").renderColoured.toList
      = (Failure.unreadable "f" "gone").render.toList := by
  have hbracket : openBracket.IsUncoded := ⟨by decide, by decide, by decide⟩
  have htexts : Text.IsUncoded "a ( b\n c" ∧ Text.IsUncoded "f" := by decide
  have hfailure : (Failure.unreadable "f" "gone").IsUncoded := ⟨by decide, by decide⟩
  refine ⟨⟨hbracket, htexts⟩, by decide +kernel, ?_, hfailure, by decide +kernel, ?_⟩
  · exact withoutCodes_renderColoured.1 _ _ _ hbracket htexts.1 htexts.2
  · exact withoutCodes_renderColoured.2 _ hfailure

end Codebook
