import Codebook.Diagnostic
import Codebook.Text.Lines

namespace Codebook

-- What begins a text of some importance on a terminal, and what ends it again. Plain texts are
-- written without.
structure Palette where
  error : String := ""
  dim : String := ""
  help : String := ""
  strong : String := ""
  reset : String := ""
deriving Repr, DecidableEq, Inhabited

def Palette.plain : Palette := {}

def Palette.coloured : Palette where
  error := "\x1b[1;31m"
  dim := "\x1b[2m"
  help := "\x1b[1;36m"
  strong := "\x1b[1m"
  reset := "\x1b[0m"

namespace Diagnostic

-- A diagnostic shown with the source lines that it points at.

-- Numbers are set flush right behind which the gutter bar stands
def padLeft (width : Nat) (text : String) : String :=
  String.ofList (List.replicate (width - text.length) ' ') ++ text

-- The gutter is as wide as the line number and at least two wide
def gutterWidth (number : Nat) : Nat := max 2 (toString number).length

-- The number of carets under a line. A span that goes on behind its first line is shown up to
-- the end of that line, and an empty one by one caret.
def caretCount (span : Span) (line : String) : Nat :=
  let stop := if span.stop.line = span.start.line then span.stop.column else line.length
  max 1 (stop - span.start.column)

section

variable (palette : Palette)

def gutterText (width : Nat) (text : String) : String :=
  s!"{palette.dim}{padLeft width text} |{palette.reset}"

def excerptText (number : Nat) (line : String) : String :=
  s!"{gutterText palette (gutterWidth number) (toString number)} {line}\n"

-- The carets under a line, with the label behind them
def caretText (span : Span) (line begins label : String) : String :=
  let gutter := gutterText palette (gutterWidth (span.start.line + 1)) ""
  let margin := String.ofList (List.replicate span.start.column ' ')
  let carets := String.ofList (List.replicate (caretCount span line) '^')
  s!"{gutter} {margin}{begins}{carets}{label}{palette.reset}\n"

def mainText (d : Diagnostic) (source : List String) : String :=
  match source[d.span.start.line]? with
  | none => ""
  | some line =>
    let number := d.span.start.line + 1
    let gutter := gutterText palette (gutterWidth number) ""
    s!"{gutter}\n" ++ excerptText palette number line
      ++ caretText palette d.span line palette.error ""

def relatedText (d : Diagnostic) (source : List String) : String :=
  match d.related with
  | none => ""
  | some related =>
    match source[related.start.line]? with
    | none => ""
    | some line =>
      excerptText palette (related.start.line + 1) line
        ++ caretText palette related line palette.dim (" " ++ d.label.getD "opened here")

def helpText (d : Diagnostic) : String :=
  match d.help with
  | none => ""
  | some help =>
    "\n" ++ match Text.lines help with
      | [] => ""
      | first :: rest =>
        s!" {palette.help}help:{palette.reset} {first}\n"
          ++ String.join (rest.map fun row => s!"       {row}\n")

def rendered (d : Diagnostic) (source filename : String) : String :=
  let shown := Text.lines source
  s!" {palette.dim}file:{palette.reset} "
    ++ s!"{filename}:{d.span.start.line + 1}:{d.span.start.column + 1}\n"
    ++ s!"{palette.error}error:{palette.reset} {d.kind.title}: {d.message}\n"
    ++ mainText palette d shown ++ relatedText palette d shown ++ helpText palette d

end

def render (d : Diagnostic) (source filename : String) : String :=
  rendered .plain d source filename

def renderColoured (d : Diagnostic) (source filename : String) : String :=
  rendered .coloured d source filename

end Diagnostic

end Codebook
