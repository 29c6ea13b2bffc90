import Codebook.Diagnostic
import Codebook.Text.Blank
import Codebook.Text.Lines
import Codebook.Text.Search

namespace Codebook.Declarations

open Codebook.Text

-- Blocks of a source that is read by lines. A block begins at a line that contains a marker
-- and ends at the next line that is equal to another.

-- A source line without the blanks around it, and what it covers without them
structure Line where
  text : String
  span : Span
deriving Repr, DecidableEq, Inhabited

structure Markers where
  opening : String
  closing : String
deriving Repr, DecidableEq, Inhabited

-- The markers of an enumeration
def Markers.ofEnum (opening : String) : Markers := ⟨opening, "\x7d"⟩

structure Block where
  opening : Span
  closing : Span
  lines : List Line
deriving Repr, DecidableEq, Inhabited

def isLineEnd (c : Char) : Bool := c == '\n' || c == '\r'

def withoutLineEnds (row : List Char) : List Char :=
  (row.reverse.dropWhile isLineEnd).reverse

-- The line of a row that begins at a byte offset
def Line.ofRow (number byte : Nat) (row : List Char) : Line :=
  let line := withoutLineEnds row
  let blanks := line.takeWhile isBlank
  let text := trim line
  let start : Position := ⟨byte + byteLength blanks, number, blanks.length⟩
  { text := String.ofList text
    span := ⟨start, ⟨start.byte + byteLength text, number, start.column + text.length⟩⟩ }

-- The lines of rows that begin at a line number and a byte offset
def linesFrom (number byte : Nat) : List (List Char) → List Line
  | [] => []
  | row :: rest => Line.ofRow number byte row :: linesFrom (number + 1) (byte + byteLength row) rest

def sourceLines (source : String) : List Line := linesFrom 0 0 (rows source.toList)

def Markers.opens (markers : Markers) (line : Line) : Bool :=
  occursIn markers.opening.toList line.text.toList

def Markers.closes (markers : Markers) (line : Line) : Bool := line.text == markers.closing

-- How the lines of a source came to an end. The place in `nested` and `unclosed` is where the
-- open block began.
inductive Ending where
  | complete
  | nested (line : Span) (opening : Span)
  | unclosed (opening : Span)
deriving Repr, DecidableEq, Inhabited

structure Scan where
  blocks : List Block
  ending : Ending
deriving Repr, DecidableEq, Inhabited

-- Reads the lines behind those of `inside`, which holds the start of an open block and the
-- lines captured in it
def scanLines (markers : Markers) (inside : Option (Span × List Line)) : List Line → Scan
  | [] =>
    match inside with
    | none => ⟨[], .complete⟩
    | some (opening, _) => ⟨[], .unclosed opening⟩
  | line :: rest =>
    match inside with
    | none =>
      if markers.opens line then scanLines markers (some (line.span, [])) rest
      else scanLines markers none rest
    | some (opening, captured) =>
      if markers.opens line then ⟨[], .nested line.span opening⟩
      else if markers.closes line then
        let behind := scanLines markers none rest
        { behind with blocks := ⟨opening, line.span, captured⟩ :: behind.blocks }
      else scanLines markers (some (opening, captured ++ [line])) rest

inductive BlockFault where
  | nested (markers : Markers) (line opening : Span)
  | unclosed (markers : Markers) (stop opening : Span)
  | missing (markers : Markers)
deriving Repr, DecidableEq, Inhabited

def BlockFault.diagnostic : BlockFault → Diagnostic
  | nested markers line opening =>
    { kind := .nestedBlock
      message := s!"'{markers.opening}' appears again before the block is closed."
      span := line, related := some opening, label := some "outer block opened here"
      help := some s!"Close the first block with '{markers.closing}'" }
  | unclosed markers stop opening =>
    { kind := .unclosedBlock, message := s!"This block is never closed with '{markers.closing}'."
      span := stop, related := some opening, help := some s!"Close with '{markers.closing}'" }
  | missing markers =>
    { kind := .missingBlock, message := s!"No line contains '{markers.opening}'."
      span := Span.point {} }

-- The end of the last line that is shown, at the byte where the source ends
def endOfSource (source : String) : Position :=
  let shown := lines source
  { byte := source.utf8ByteSize
    line := shown.length - 1
    column := (shown.getLast?.map String.length).getD 0 }

def scanSource (markers : Markers) (source : String) : Scan :=
  scanLines markers none (sourceLines source)

-- Every block of a source
def blocks (markers : Markers) (source : String) : Except BlockFault (List Block) :=
  let scan := scanSource markers source
  match scan.ending with
  | .complete => .ok scan.blocks
  | .nested line opening => .error (.nested markers line opening)
  | .unclosed opening => .error (.unclosed markers (Span.point (endOfSource source)) opening)

def firstBlock (markers : Markers) (source : String) : Except BlockFault Block := do
  match ← blocks markers source with
  | [] => .error (.missing markers)
  | block :: _ => .ok block

end Codebook.Declarations
