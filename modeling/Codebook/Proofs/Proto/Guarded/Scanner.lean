import Codebook.Proofs.Proto.Guarded
import Codebook.Proofs.Proto.Lexing

namespace Codebook.Proto.Guarded

-- The cutting of a source into tokens by byte offsets. One character after the other is passed
-- over, and what a token says is a slice of the source.

open Codebook.Text

abbrev Scanner := Checked Position

section

variable (source : String)

-- What is left of the source
def remaining : Scanner (List Char) := do sliceOf source (← get).byte source.utf8ByteSize

def peek : Scanner (Option Char) := do return (← remaining source).head?

def peekSecond : Scanner (Option Char) := do return (← remaining source)[1]?

def advance : Scanner (Option Char) := do
  match ← peek source with
  | some c =>
    modify (·.next c)
    return some c
  | none => return none

def scanning {σ α : Type} : (σ → Scanner (σ ⊕ α)) → σ → Scanner α :=
  loop ⟨source.utf8ByteSize, Position.byte⟩

def runStep (wanted : Char → Bool) (_ : Unit) : Scanner (Unit ⊕ Unit) := do
  match ← peek source with
  | some c =>
    if wanted c then
      let _ ← advance source
      return .inl ()
    else return .inr ()
  | none => return .inr ()

-- Passes over wanted characters
def run (wanted : Char → Bool) : Scanner (List Char) := do
  let start ← get
  scanning source (runStep source wanted) ()
  sliceOf source start.byte (← get).byte

def runToken (wanted : Char → Bool) (token : List Char → Token) : Scanner (Located Token) := do
  let start ← get
  let text ← run source wanted
  return ⟨token text, ⟨start, ← get⟩⟩

def symbol (c : Char) : Scanner (Located Token) := do
  let start ← get
  let _ ← advance source
  return ⟨.symbol c, ⟨start, ← get⟩⟩

def quotedStep (quote : Char) (start : Position) (value : List Char) :
    Scanner (List Char ⊕ List Char) := do
  match ← advance source with
  | some c =>
    if c = quote then return .inr value
    else if c = '\\' then
      match ← advance source with
      | some escaped => return .inl (value ++ [escaped])
      | none => return .inl value
    else if c = '\n' then refuse (.openQuote quote ⟨start, ← get⟩)
    else return .inl (value ++ [c])
  | none => refuse (.openQuote quote ⟨start, ← get⟩)

def quoted (quote : Char) : Scanner (Located Token) := do
  let start ← get
  let _ ← advance source
  let value ← scanning source (quotedStep source quote start) []
  return ⟨.quoted (String.ofList value), ⟨start, ← get⟩⟩

def commentStep (start : Position) (_ : Unit) : Scanner (Unit ⊕ Unit) := do
  if ['*', '/'].isPrefixOf (← remaining source) then return .inr ()
  else
    match ← advance source with
    | some _ => return .inl ()
    | none => refuse (.openComment ⟨start, ← get⟩)

-- A comment with a second star documents something, unless it ends there
def comment : Scanner (Option (Located Token)) := do
  let start ← get
  let text ← remaining source
  let documents := ['/', '*', '*'].isPrefixOf text && !(['/', '*', '*', '/'].isPrefixOf text)
  let _ ← advance source
  let _ ← advance source
  let inside ← get
  scanning source (commentStep source start) ()
  let body ← sliceOf source inside.byte (← get).byte
  let _ ← advance source
  let _ ← advance source
  if documents then return some ⟨.doc (docLines body), ⟨start, ← get⟩⟩ else return none

-- What begins with a character: a token, or a comment that is none
def tokenAt (c : Char) : Scanner (Option (Located Token)) := do
  let second ← if c = '/' then peekSecond source else pure none
  if second = some '/' then
    return some (← runToken source (· != '\n') fun text => .remark (remarkText text))
  else if second = some '*' then comment source
  else if c = '"' ∨ c = '\'' then return some (← quoted source c)
  else if startsWord c then
    return some (← runToken source inWord fun text => .word (String.ofList text))
  else if isDigit c then
    return some (← runToken source inNumber fun text => .number (String.ofList text))
  else return some (← symbol source c)

def tokenizeStep (tokens : List (Located Token)) :
    Scanner (List (Located Token) ⊕ List (Located Token)) := do
  let _ ← run source isBlank
  match ← peek source with
  | some c => return .inl (tokens ++ (← tokenAt source c).toList)
  | none => return .inr tokens

def tokenize : Except Trap (Except Fault (List (Located Token) × Position)) :=
  outcome (scanning source (tokenizeStep source) []) .start

end

end Codebook.Proto.Guarded
