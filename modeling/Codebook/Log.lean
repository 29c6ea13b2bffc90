import Codebook.Number.Literal

namespace Codebook.Log

-- What a run reports while it goes on.

inductive Level where
  | debug
  | info
  | warn
deriving Repr, DecidableEq, Inhabited

def Level.title : Level → String
  | debug => "DEBUG"
  | info => "INFO"
  | warn => "WARN"

-- From which level on records are shown
inductive Threshold where
  | debug
  | info
  | warn
  | error
  | none
deriving Repr, DecidableEq, Inhabited

def Level.shown (threshold : Threshold) (level : Level) : Bool :=
  match threshold, level with
  | .debug, _ => true
  | .info, .debug => false
  | .info, _ => true
  | .warn, .warn => true
  | _, _ => false

-- Each repetition of the flag for more output shows one level more
def Threshold.ofVerbosity : Nat → Threshold
  | 0 => .warn
  | 1 => .info
  | _ => .debug

def Threshold.named : List (String × Threshold) :=
  [("off", none), ("error", error), ("warn", warn), ("info", info), ("debug", debug),
    ("trace", debug)]

def Threshold.numbered : List Threshold := [none, error, warn, info, debug, debug]

-- A number, which may have a plus sign, or a name in capital or small letters
def Threshold.ofText? (text : List Char) : Option Threshold :=
  let number : Option Nat := match text with
    | '+' :: rest => Number.digits 10 rest
    | _ => Number.digits 10 text
  match number with
  | some n => numbered[n]?
  | .none => named.lookup (String.ofList text).toLower

-- Fixed names are shown in quotes, paths, names from the sources and counts as they are
inductive Value where
  | plain (text : String)
  | quoted (text : String)
deriving Repr, DecidableEq, Inhabited

def Value.text : Value → String
  | plain text => text
  | quoted text => "\"" ++ text ++ "\""

-- What a record is about
inductive Topic where
  | blocks
  | tables
  | run
deriving Repr, DecidableEq, Inhabited

def Topic.name : Topic → String
  | blocks => "codebook.declarations.blocks"
  | tables => "codebook.declarations.tables"
  | run => "codebook.run"

structure Record where
  topic : Topic := .run
  level : Level
  message : String
  fields : List (String × Value) := []
deriving Repr, DecidableEq, Inhabited

def Record.text (record : Record) : String :=
  " ".intercalate (record.level.title :: record.message
    :: record.fields.map fun (name, value) => name ++ "=" ++ value.text)

-- The message is a field as well
def Record.hasField (record : Record) (name : String) : Bool :=
  name == "message" || record.fields.any (·.1 == name)

def count (n : Nat) : Value := .plain (toString n)

end Codebook.Log
