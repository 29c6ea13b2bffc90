import Codebook.Settings
import Codebook.Settings.Cursor

namespace Codebook.Settings

-- Settings as JSON: an object with any of the fields, or an array of values in the order of
-- the fields. Fields that are not given have their defaults.

inductive Field where
  | protoFolder
  | declarations
  | output
  | target
  | names
  | duplicates
  | license
deriving Repr, DecidableEq, Inhabited

namespace Field

def all : List Field :=
  [protoFolder, declarations, output, target, names, duplicates, license]

def key : Field → String
  | protoFolder => "proto_dir"
  | declarations => "declarations"
  | output => "output"
  | target => "target"
  | names => "name_style"
  | duplicates => "duplicates"
  | license => "license_header"

def ofKey? (key : String) : Option Field := all.find? (·.key == key)

end Field

-- The written forms of choices

def targets : List (String × Target) := [("status", .status), ("request-type", .requestType)]

def nameStyles : List (String × Script.NameStyle) := [("pascal", .pascal), ("raw", .raw)]

def duplicatePolicies : List (String × Declarations.Duplicates) :=
  [("reject", .reject), ("last-write-wins", .lastWins)]

namespace Reader

def colon : Reader Unit := do
  match ← next with
  | some ':' => skip
  | some _ => failNext (.form .colonExpected)
  | none => fail (.unfinished .object)

def stringValue (expected : String) : Reader String := do
  match ← next with
  | none => fail (.unfinished .value)
  | some '"' => skip *> string
  | some _ => wrongType expected

def boolValue : Reader Bool := do
  match ← next with
  | none => fail (.unfinished .value)
  | some 't' =>
    skip
    word ['r', 'u', 'e']
    return true
  | some 'f' =>
    skip
    word ['a', 'l', 's', 'e']
    return false
  | some _ => wrongType "a boolean"

def nullValue : Reader Unit := do
  match ← next with
  | none => fail (.unfinished .value)
  | some 'n' => skip *> word ['u', 'l', 'l']
  | some _ => wrongType "unit"

def choose {α : Type} (known : List (String × α)) (text : String) : Reader α :=
  match known.lookup text with
  | some value => return value
  | none => fail (.meaning (.unknownChoice text (known.map Prod.fst)))

-- The key of an object with one member
def onlyKey : Reader String := do
  match ← next with
  | some '"' => skip *> string
  | some '\x7d' => failNext (.form .valueExpected)
  | some _ => failNext (.form .keyExpected)
  | none => fail (.unfinished .object)

-- One of some choices by name, or an object that gives null to that name
def choice {α : Type} (known : List (String × α)) : Reader α := do
  match ← next with
  | none => fail (.unfinished .value)
  | some '"' =>
    skip
    choose known (← string)
  | some '\x7b' =>
    skip
    let value ← choose known (← onlyKey)
    colon
    nullValue
    match ← next with
    | some '\x7d' => skip *> return value
    | some _ => fail (.form .valueExpected)
    | none => fail (.unfinished .object)
  | some _ => failNext (.form .valueExpected)

-- The settings with the value that is read for a field
def fieldValue (settings : Settings) : Field → Reader Settings
  | .protoFolder => return { settings with protoFolder := ← stringValue "path string" }
  | .declarations => return { settings with declarations := ← stringValue "path string" }
  | .output => return { settings with output := ← stringValue "path string" }
  | .target => return { settings with target := ← choice targets }
  | .names => return { settings with names := ← choice nameStyles }
  | .duplicates => return { settings with duplicates := ← choice duplicatePolicies }
  | .license => return { settings with license := ← boolValue }

-- Whether a key follows. It stands behind a comma unless it is the first one.
def hasKey (first : Bool) : Reader Bool := do
  match ← next with
  | some '\x7d' => return false
  | none => fail (.unfinished .object)
  | some c =>
    if first then
      if c = '"' then return true else failNext (.form .keyExpected)
    else if c = ',' then
      skip
      match ← next with
      | some '"' => return true
      | some '\x7d' => failNext (.form .trailingComma)
      | some _ => failNext (.form .keyExpected)
      | none => fail (.unfinished .value)
    else failNext (.form .objectCommaExpected)

-- A fault of a key is placed behind the blanks that follow it, and behind a brace there
def keyFault {α : Type} (fault : MeaningFault) : Reader α := do
  if (← next) = some '\x7d' then skip
  fail (.meaning fault)

-- The members of an object, of which only those of fields that were not read yet may follow
def members (settings : Settings) (unread : List Field) (first : Bool) : Reader Settings := do
  if ← hasKey first then
    skip
    let key ← string
    match Field.ofKey? key with
    | none => keyFault (.unknownField key (Field.all.map Field.key))
    | some field =>
      if _h : field ∈ unread then
        colon
        let settings ← fieldValue settings field
        members settings (unread.erase field) false
      else keyFault (.repeatedField key)
  else return settings
termination_by unread.length
decreasing_by
  have := List.length_pos_of_mem _h
  rw [List.length_erase_of_mem _h]
  omega

-- Whether a value follows in an array
def hasElement (first : Bool) : Reader Bool := do
  match ← next with
  | some ']' => return false
  | none => fail (.unfinished .list)
  | some c =>
    if first then return true
    else if c = ',' then
      skip
      match ← next with
      | some ']' => failNext (.form .trailingComma)
      | some _ => return true
      | none => fail (.unfinished .value)
    else failNext (.form .listCommaExpected)

def elements (settings : Settings) (first : Bool) : List Field → Reader Settings
  | [] => return settings
  | field :: more => do
    if ← hasElement first then
      let settings ← fieldValue settings field
      elements settings false more
    else return settings

def closeList : Reader Unit := do
  match ← next with
  | some ']' => skip
  | some ',' =>
    skip
    if (← next) = some ']' then failNext (.form .trailingComma)
    else failNext (.form .trailingText)
  | some _ => failNext (.form .trailingText)
  | none => fail (.unfinished .list)

def settings : Reader Settings := do
  match ← next with
  | none => fail (.unfinished .value)
  | some '[' =>
    skip
    let settings ← elements {} true Field.all
    closeList
    return settings
  | some '\x7b' =>
    skip
    let settings ← members {} Field.all true
    skip
    return settings
  | some _ => wrongType "struct Options"

-- Only blanks may follow
def document : Reader Settings := do
  let settings ← settings
  if (← next).isSome then failNext (.form .trailingText)
  return settings

end Reader

def ofJson (text : String) : Except Fault Settings :=
  (Reader.document.run ⟨text.toList, 0⟩).map Prod.fst

end Codebook.Settings
