import Codebook.Log
import Codebook.Log.Condition
import Codebook.Text.Blank
import Codebook.Text.Letter
import Codebook.Text.Position
import Codebook.Text.Split

namespace Codebook.Log

open Codebook.Text

-- Which records are shown, by directives with commas between them. A directive is
-- `target[span{field=value}]=level`, of which every part may be left out.

structure Directive where
  -- how the topics of its records begin
  target : String := ""
  -- a field that its records have
  field : Option String := none
  -- whether it is for certain spans or values only. No record is.
  special : Bool := false
  threshold : Threshold
deriving Repr, DecidableEq, Inhabited

namespace Directive

-- A single word is a level for all records, or else a target that is shown at every level
def ofWord (word : List Char) : Directive :=
  match Threshold.ofText? word with
  | some threshold => { threshold }
  | none => { target := String.ofList word, threshold := .debug }

-- What is read as a field, given the directive and its rest from the field on. Places are
-- counted without blanks in front of the directive but cut from the text with them, so that
-- behind blanks the text begins too early.
def fieldText (text rest field : List Char) : List Char :=
  let start := byteLength (trimStart text) - byteLength rest
  slice start (start + byteLength field) text

-- A directive with what stands in its brackets, and the text behind them
def readBrackets? (directive : Directive) (text inside : List Char) :
    Option (Directive × List Char) :=
  let (span, rest) := inside.span fun c => c != ']' && c != '\x7b'
  match rest with
  | ']' :: rest => some ({ directive with special := true }, rest)
  | '\x7b' :: rest =>
    match rest.span (· != '\x7d') with
    | ([], _) => none
    | (field, '\x7d' :: ']' :: behind) => do
      let condition ← Condition.read? (fieldText text rest field)
      let special := !span.isEmpty || condition.hasValue
      return ({ directive with field := some condition.field, special }, behind)
    | _ => none
  | _ => none

-- A directive with the level that is given for it. No level is every level.
def readLevel? (directive : Directive) (text : List Char) : Option Directive :=
  if text.isEmpty then some directive
  else (Threshold.ofText? text).map fun threshold => { directive with threshold }

def beginsWord (c : Char) : Bool := c == '-' || c == ':' || c == '_' || isAlphanumeric c

-- Blanks in front belong to the target, and then there can be no level
def read? (text : List Char) : Option Directive := do
  let first ← (trimStart text).head?
  if !(first == '[' || beginsWord first) then none
  let (word, rest) := text.span fun c => c != '=' && c != '['
  if rest.isEmpty then return ofWord word
  let plain : Directive := { target := String.ofList word, threshold := .debug }
  let (directive, rest) ← match rest with
    | '[' :: rest => plain.readBrackets? text rest
    | rest => some (plain, rest)
  match rest with
  | '=' :: level => if text.head?.any isBlank then none else directive.readLevel? level
  | rest => if rest.all isBlank then some directive else none

def covers (naming : Topic → String) (directive : Directive) (record : Record) : Bool :=
  !directive.special && directive.target.toList.isPrefixOf (naming record.topic).toList
    && directive.field.all record.hasField

-- Whether one of two directives that cover a record says more about it
def outranks (a b : Directive) : Bool :=
  b.target.length < a.target.length
    || a.target.length = b.target.length && b.field.toList < a.field.toList

-- Of directives that say as much the last one counts
def strongest? : List Directive → Option Directive
  | [] => none
  | directive :: rest =>
    match strongest? rest with
    | some later => if directive.outranks later then some directive else some later
    | none => some directive

end Directive

structure Filter where
  directives : List Directive
deriving Repr, DecidableEq, Inhabited

namespace Filter

def ofVerbosity (count : Nat) : Filter := ⟨[{ threshold := .ofVerbosity count }]⟩

-- Parts without a text are passed over. Every other one has to be a directive.
def parse? (text : String) : Option Filter := do
  let parts := (splitOn ',' text.toList).filter fun part => !part.isEmpty
  return ⟨← parts.mapM Directive.read?⟩

-- A record that no directive covers is not shown
def shows (filter : Filter) (naming : Topic → String) (record : Record) : Bool :=
  match Directive.strongest? (filter.directives.filter fun d => d.covers naming record) with
  | some directive => record.level.shown directive.threshold
  | none => false

@[simp] theorem shows_ofVerbosity (count : Nat) (naming : Topic → String) (record : Record) :
    (ofVerbosity count).shows naming record = record.level.shown (.ofVerbosity count) := by
  simp [ofVerbosity, shows, Directive.covers, Directive.strongest?]

end Filter

end Codebook.Log
