import Codebook.Proofs.Diagnostic.Styled
import Codebook.Proofs.Number.Decimal
import Codebook.Proofs.Text.Lines
import Codebook.Proofs.Text.Position

namespace Codebook

theorem Styled.plain_append (first second : Styled) :
    Styled.plain (first ++ second) = first.plain ++ second.plain := by
  simp [plain]

namespace Diagnostic

open Codebook.Text

-- What a diagnostic shows of the text that it covers: a row with the line of the text, and under
-- it a row with a caret under each character of the text.

-- What is shown in front of the line
def heading (d : Diagnostic) (filename : String) : String :=
  s!" file: {filename}:{d.span.start.line + 1}:{d.span.start.column + 1}\n" ++
    s!"error: {d.kind.title}: {d.message}\n" ++
    padLeft (gutterWidth (d.span.start.line + 1)) "" ++ " |\n"

-- A text is marked where it stands in its line: behind the heading there are a row with the line
-- behind a gutter, and a row with the carets behind a margin of the same width as all that is in
-- front of the text.
def Marks (d : Diagnostic) (source filename : String) (text : List Char) : Prop :=
  ∃ before behind gutter margin below, before.length = d.span.start.column ∧
    (Text.lines source)[d.span.start.line]? = some (String.ofList (before ++ (text ++ behind))) ∧
    (d.render source filename).toList = (d.heading filename).toList ++
      (gutter ++ (before ++ (text ++ behind)) ++ '\n' ::
        (margin ++ List.replicate text.length '^' ++ '\n' :: below)) ∧
    margin.length = (gutter ++ before).length ∧
    '\n' ∉ gutter ++ (before ++ (text ++ behind)) ∧ ∀ c ∈ margin, c = ' ' ∨ c = '|'

-- A gutter with the bar and the blank behind it
def edge (number : Nat) (text : String) : List Char :=
  (padLeft (gutterWidth number) text).toList ++ [' ', '|', ' ']

theorem length_edge {number : Nat} {text : String} (h : text.length ≤ gutterWidth number) :
    (edge number text).length = gutterWidth number + 3 := by
  rw [edge, List.length_append, String.length_toList, padLeft, String.length_append,
    String.length_ofList, List.length_replicate, Nat.sub_add_cancel h]
  rfl

theorem mem_edge {number : Nat} {text : String} {c : Char} (h : c ∈ edge number text) :
    c ∈ text.toList ∨ c = ' ' ∨ c = '|' := by
  rw [edge, padLeft, String.toList_append, String.toList_ofList, List.mem_append,
    List.mem_append] at h
  rcases h with (hpad | htext) | hbar
  · exact .inr (.inl (List.eq_of_mem_replicate hpad))
  · exact .inl htext
  · simp only [List.mem_cons, List.not_mem_nil, or_false] at hbar
    exact .inr (hbar.elim .inl Or.symm)

theorem plain_heading (d : Diagnostic) (filename : String) :
    Styled.plain ([⟨.plain, " "⟩, ⟨.dim, "file:"⟩,
      ⟨.plain, s!" {filename}:{d.span.start.line + 1}:{d.span.start.column + 1}\n"⟩,
      ⟨.error, "error:"⟩, ⟨.plain, s!" {d.kind.title}: {d.message}\n"⟩]
      ++ [gutter (gutterWidth (d.span.start.line + 1)) "", ⟨.plain, "\n"⟩])
      = d.heading filename := by
  have hstring (text : String) : toString text = text := rfl
  -- an equation lemma of the heading would evaluate the literals in it
  delta heading
  simp [Styled.plain, gutter, hstring, ← String.toList_inj]

theorem toList_excerptRow (number : Nat) (line : String) :
    (excerptRow number line).plain.toList
      = edge number (toString number) ++ line.toList ++ ['\n'] := by
  have hstring (text : String) : toString text = text := rfl
  simp [Styled.plain, excerptRow, gutter, edge, hstring]

theorem toList_caretRow (span : Span) (line label : String) (ink : Ink) :
    (caretRow span line ink label).plain.toList
      = edge (span.start.line + 1) "" ++ List.replicate span.start.column ' '
        ++ List.replicate (caretCount span line) '^' ++ label.toList ++ ['\n'] := by
  simp [Styled.plain, caretRow, gutter, edge]

theorem toList_render {d : Diagnostic} {source line : String}
    (h : (Text.lines source)[d.span.start.line]? = some line) (filename : String) :
    (d.render source filename).toList = (d.heading filename).toList ++
      (edge (d.span.start.line + 1) (toString (d.span.start.line + 1)) ++ line.toList ++ '\n' ::
        (edge (d.span.start.line + 1) "" ++ List.replicate d.span.start.column ' '
          ++ List.replicate (caretCount d.span line) '^' ++ '\n' ::
            (Styled.plain (relatedExcerpt d (Text.lines source) ++ helpRows d)).toList)) := by
  have hmain : mainExcerpt d (Text.lines source)
      = [gutter (gutterWidth (d.span.start.line + 1)) "", ⟨.plain, "\n"⟩]
        ++ (excerptRow (d.span.start.line + 1) line ++ caretRow d.span line .error "") := by
    simp only [mainExcerpt, h, List.append_assoc]
  rw [render_eq, styled, hmain, ← List.append_assoc, List.append_assoc _ _ (helpRows d),
    Styled.plain_append, Styled.plain_append, plain_heading, Styled.plain_append,
    String.toList_append, String.toList_append, String.toList_append, toList_excerptRow,
    toList_caretRow]
  simp

theorem render_of_shown {d : Diagnostic} {source line : String}
    (h : (Text.lines source)[d.span.start.line]? = some line) (filename : String) :
    ∃ below, (d.render source filename).toList = (d.heading filename).toList ++
      (edge (d.span.start.line + 1) (toString (d.span.start.line + 1)) ++ line.toList ++ '\n' ::
        (edge (d.span.start.line + 1) "" ++ List.replicate d.span.start.column ' '
          ++ List.replicate (caretCount d.span line) '^' ++ '\n' :: below)) :=
  ⟨_, toList_render h filename⟩

-- There is a caret for each character of a text within a line.
theorem caretCount_of_covers {source text : List Char} {span : Span} (h : span.Covers source text)
    (hne : text ≠ []) (hn : '\n' ∉ text) (line : String) :
    caretCount span line = text.length := by
  obtain ⟨front, behind, -, rfl⟩ := h
  have hpos := List.length_pos_iff.mpr hne
  simp only [caretCount, Span.covering, after_of_notMem hn, if_true, Nat.add_sub_cancel_left]
  omega

theorem marks_of_covers {d : Diagnostic} {source : String} {before text behind : List Char}
    (hc : d.span.Covers source.toList text) (hne : text ≠ [])
    (hs : (Text.lines source)[d.span.start.line]?
      = some (String.ofList (before ++ (text ++ behind))))
    (hb : before.length = d.span.start.column) (filename : String) :
    d.Marks source filename text := by
  have hline := noLineFeed_of_mem_lines (List.mem_of_getElem? hs)
  rw [String.toList_ofList] at hline
  have htext : '\n' ∉ text := fun hm => hline (by simp [hm])
  obtain ⟨below, hrender⟩ := render_of_shown hs filename
  rw [caretCount_of_covers hc hne htext, String.toList_ofList] at hrender
  have hwidth : (toString (d.span.start.line + 1)).length ≤ gutterWidth (d.span.start.line + 1) :=
    Nat.le_max_right _ _
  have hempty : "".length ≤ gutterWidth (d.span.start.line + 1) := Nat.zero_le _
  refine ⟨before, behind, _, _, below, hb, hs, hrender, ?_, ?_, ?_⟩
  · rw [List.length_append, List.length_append, length_edge hwidth, length_edge hempty,
      List.length_replicate, hb]
  · intro hm
    rcases List.mem_append.mp hm with hedge | hm
    · rcases mem_edge hedge with hnumber | hm | hm
      · exact absurd (Number.isDigit_of_mem_toString hnumber) (by decide)
      · exact absurd hm (by decide)
      · exact absurd hm (by decide)
    · exact hline hm
  · intro c hm
    rcases List.mem_append.mp hm with hedge | hm
    · exact (mem_edge hedge).elim (fun hnone => absurd hnone (by simp)) id
    · exact .inl (List.eq_of_mem_replicate hm)

-- A diagnostic points at a text: its span is where the text stands, its places are those of their
-- bytes, and the text is marked in what is shown.
structure PointsAt (d : Diagnostic) (source : String) (text : List Char) : Prop where
  slice_eq : slice d.span.start.byte d.span.stop.byte source.toList = text
  isIn : d.span.IsIn source.toList
  marks : ∀ filename, d.Marks source filename text

end Diagnostic
end Codebook
