import Codebook.Failure

namespace Codebook

-- Text whose stretches are written in different inks. What is shown with terminal codes and
-- without them is one such text.

inductive Ink where
  | plain
  | error
  | dim
  | help
  | strong
deriving Repr, DecidableEq, Inhabited

structure Stretch where
  ink : Ink
  text : String
deriving Repr, DecidableEq, Inhabited

-- What begins a stretch
@[simp] def Palette.begins (palette : Palette) : Ink → String
  | .plain => ""
  | .error => palette.error
  | .dim => palette.dim
  | .help => palette.help
  | .strong => palette.strong

-- Only a stretch in plain ink has nothing that ends it.
def Stretch.written (palette : Palette) (stretch : Stretch) : String :=
  if stretch.ink = .plain then stretch.text
  else palette.begins stretch.ink ++ stretch.text ++ palette.reset

namespace Stretch

variable (palette : Palette) (text : String)

@[simp] theorem written_plain : written palette ⟨.plain, text⟩ = text := rfl

@[simp] theorem written_of_ne_plain {ink : Ink} (h : ink ≠ .plain) :
    written palette ⟨ink, text⟩ = palette.begins ink ++ text ++ palette.reset := if_neg h

end Stretch

abbrev Styled := List Stretch

namespace Styled

def written (palette : Palette) (text : Styled) : String :=
  String.join (text.map (Stretch.written palette))

def plain (text : Styled) : String := String.join (text.map Stretch.text)

@[simp] theorem written_nil (palette : Palette) : written palette [] = "" := rfl

@[simp] theorem written_cons (palette : Palette) (stretch : Stretch) (rest : Styled) :
    written palette (stretch :: rest) = stretch.written palette ++ written palette rest := by
  simp [written]

@[simp] theorem written_append (palette : Palette) (front behind : Styled) :
    written palette (front ++ behind) = written palette front ++ written palette behind := by
  simp [written]

@[simp] theorem written_plainRows (palette : Palette) (shown : String → String)
    (rows : List String) :
    written palette (rows.map fun row => ⟨.plain, shown row⟩) = String.join (rows.map shown) := by
  simp [written, Function.comp_def]

theorem written_plain (text : Styled) : written .plain text = plain text := by
  have hstretch : Stretch.written .plain = Stretch.text := by
    funext ⟨ink, text⟩
    cases ink <;> simp [Palette.plain]
  rw [written, hstretch, plain]

end Styled

namespace Diagnostic

def gutter (width : Nat) (text : String) : Stretch := ⟨.dim, padLeft width text ++ " |"⟩

def excerptRow (number : Nat) (line : String) : Styled :=
  [gutter (gutterWidth number) (toString number), ⟨.plain, s!" {line}\n"⟩]

def caretRow (span : Span) (line : String) (ink : Ink) (label : String) : Styled :=
  [gutter (gutterWidth (span.start.line + 1)) "",
    ⟨.plain, " " ++ String.ofList (List.replicate span.start.column ' ')⟩,
    ⟨ink, String.ofList (List.replicate (caretCount span line) '^') ++ label⟩,
    ⟨.plain, "\n"⟩]

def mainExcerpt (d : Diagnostic) (source : List String) : Styled :=
  match source[d.span.start.line]? with
  | none => []
  | some line =>
    let number := d.span.start.line + 1
    [gutter (gutterWidth number) "", ⟨.plain, "\n"⟩]
      ++ excerptRow number line ++ caretRow d.span line .error ""

def relatedExcerpt (d : Diagnostic) (source : List String) : Styled :=
  match d.related with
  | none => []
  | some related =>
    match source[related.start.line]? with
    | none => []
    | some line =>
      excerptRow (related.start.line + 1) line
        ++ caretRow related line .dim (" " ++ d.label.getD "opened here")

def helpRows (d : Diagnostic) : Styled :=
  match d.help with
  | none => []
  | some help =>
    let rows := match Text.lines help with
      | [] => []
      | first :: rest =>
        [⟨.plain, " "⟩, ⟨.help, "help:"⟩, ⟨.plain, s!" {first}\n"⟩]
          ++ rest.map fun row => ⟨.plain, s!"       {row}\n"⟩
    ⟨.plain, "\n"⟩ :: rows

def styled (d : Diagnostic) (source filename : String) : Styled :=
  let shown := Text.lines source
  [⟨.plain, " "⟩, ⟨.dim, "file:"⟩,
    ⟨.plain, s!" {filename}:{d.span.start.line + 1}:{d.span.start.column + 1}\n"⟩,
    ⟨.error, "error:"⟩, ⟨.plain, s!" {d.kind.title}: {d.message}\n"⟩]
    ++ mainExcerpt d shown ++ relatedExcerpt d shown ++ helpRows d

section

variable (palette : Palette)

@[simp] theorem written_gutter (width : Nat) (text : String) :
    (gutter width text).written palette = gutterText palette width text := by
  simp [gutter, gutterText, toString, String.append_assoc]

@[simp] theorem written_excerptRow (number : Nat) (line : String) :
    (excerptRow number line).written palette = excerptText palette number line := by
  simp [excerptRow, excerptText, toString, String.append_assoc]

@[simp] theorem written_caretRow {ink : Ink} (h : ink ≠ .plain) (span : Span)
    (line label : String) :
    (caretRow span line ink label).written palette
      = caretText palette span line (palette.begins ink) label := by
  simp [caretRow, caretText, h, toString, String.append_assoc]

theorem written_mainExcerpt (d : Diagnostic) (source : List String) :
    (mainExcerpt d source).written palette = mainText palette d source := by
  unfold mainExcerpt mainText
  cases source[d.span.start.line]? with
  | none => rfl
  | some line => simp [toString, String.append_assoc]

theorem written_relatedExcerpt (d : Diagnostic) (source : List String) :
    (relatedExcerpt d source).written palette = relatedText palette d source := by
  unfold relatedExcerpt relatedText
  cases d.related with
  | none => rfl
  | some related =>
      cases hline : source[related.start.line]? with
      | none => simp [hline]
      | some line => simp [hline]

theorem written_helpRows (d : Diagnostic) : (helpRows d).written palette = helpText palette d := by
  unfold helpRows helpText
  cases d.help with
  | none => rfl
  | some help =>
      cases hlines : Text.lines help with
      | nil => simp [hlines]
      | cons first rest => simp [hlines, toString, String.append_assoc]

-- Each rendering writes the same stretches with codes of its own.
theorem written_styled (d : Diagnostic) (source filename : String) :
    (d.styled source filename).written palette = rendered palette d source filename := by
  unfold styled rendered
  simp [written_mainExcerpt, written_relatedExcerpt, written_helpRows, toString,
    String.append_assoc]

end

theorem render_eq (d : Diagnostic) (source filename : String) :
    d.render source filename = (d.styled source filename).plain := by
  rw [← Styled.written_plain, written_styled, render]

theorem renderColoured_eq (d : Diagnostic) (source filename : String) :
    d.renderColoured source filename = (d.styled source filename).written .coloured := by
  rw [written_styled, renderColoured]

end Diagnostic

namespace Failure

def framed (message : String) : Styled :=
  [⟨.error, "error:"⟩, ⟨.plain, " "⟩, ⟨.strong, message⟩, ⟨.plain, "\n"⟩]

def styled (failure : Failure) : Styled :=
  match failure with
  | invalid path text diagnostic => diagnostic.styled text path
  | other => framed other.message

theorem plain_framed (message : String) : (framed message).plain = s!"error: {message}\n" := by
  simp [framed, Styled.plain, toString, ← String.toList_inj]

theorem written_framed (palette : Palette) (message : String) :
    (framed message).written palette = s!"{palette.error}error:{palette.reset} "
      ++ s!"{palette.strong}{message}{palette.reset}\n" := by
  simp [framed, toString, String.append_assoc]

theorem render_eq (failure : Failure) : failure.render = failure.styled.plain := by
  cases failure with
  | invalid path text diagnostic => exact diagnostic.render_eq text path
  | missing | unreadable | unwritable | settings => exact (plain_framed _).symm

theorem renderColoured_eq (failure : Failure) :
    failure.renderColoured = failure.styled.written .coloured := by
  cases failure with
  | invalid path text diagnostic => exact diagnostic.renderColoured_eq text path
  | missing | unreadable | unwritable | settings =>
      simp [renderColoured, styled, written_framed, toString, String.append_assoc]

end Failure

end Codebook
