namespace Codebook.Script

-- A text that is written line by line and indented by level.

-- A written line and the declaration line that it comes from, both counted from zero
structure Mark where
  written : Nat
  declared : Nat
deriving Repr, DecidableEq, Inhabited

structure Page where
  -- each with its line feed
  lines : Array String := #[]
  pending : String := ""
  -- the number of the line that is begun or begins next
  number : Nat := 0
  level : Nat := 0
  marks : Array Mark := #[]
  number_eq : number = lines.size := by rfl
deriving Repr, DecidableEq

namespace Page

instance : Inhabited Page := ⟨{}⟩

def indentation (level : Nat) : String := String.ofList (List.replicate (4 * level) ' ')

-- The first text of a line that is not empty is indented
def push (page : Page) (text : String) : Page :=
  let margin :=
    if page.pending.isEmpty && !text.isEmpty then indentation page.level else ""
  { page with pending := page.pending ++ margin ++ text }

def newline (page : Page) : Page :=
  { page with
    lines := page.lines.push (page.pending ++ "\n")
    pending := ""
    number := page.number + 1
    number_eq := by rw [Array.size_push, page.number_eq] }

def line (page : Page) (text : String) : Page := (page.push text).newline

-- A line that comes from a line of the declarations
def lineFrom (page : Page) (text : String) (declared : Nat) : Page :=
  { page with marks := page.marks.push ⟨page.number, declared⟩ }.line text

def indent (page : Page) : Page := { page with level := page.level + 1 }
def dedent (page : Page) : Page := { page with level := page.level - 1 }

-- Everything that was written, also behind the last line feed
def text (page : Page) : String := String.join page.lines.toList ++ page.pending

end Page

-- A line at an indentation level of its own. The level goes up and down between rows.
structure Row where
  level : Nat := 0
  text : String := ""
  declared : Option Nat := none
deriving Repr, DecidableEq, Inhabited

def Page.addRow (page : Page) (row : Row) : Page :=
  let here := { page with level := row.level }
  match row.declared with
  | some declared => here.lineFrom row.text declared
  | none => here.line row.text

def Page.ofRows (rows : List Row) : Page := rows.foldl Page.addRow {}

-- The same rows one level deeper
def indented (rows : List Row) : List Row :=
  rows.map fun row => { row with level := row.level + 1 }

def row (text : String) : Row := { text }

def blank : Row := {}

end Codebook.Script
