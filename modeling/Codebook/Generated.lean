import Codebook.Declarations.Table
import Codebook.Failure
import Codebook.Proto.File
import Codebook.Script.ClassText
import Codebook.Settings

namespace Codebook

open Declarations Script

-- What one run generates: the class of an enumeration that is read from declarations, with
-- docs from the definitions of the same enumeration.

structure Document where
  path : String
  text : String
deriving Repr, DecidableEq, Inhabited

def Document.failure (document : Document) (diagnostic : Diagnostic) : Failure :=
  .invalid document.path document.text diagnostic

-- Names that only one of the two sources has
structure Drift where
  missingInProto : List String
  missingInDeclarations : List String
deriving Repr, DecidableEq, Inhabited

def Drift.isEmpty (drift : Drift) : Bool :=
  drift.missingInProto.isEmpty && drift.missingInDeclarations.isEmpty

def Drift.between (declared defined : List String) : Drift where
  missingInProto := declared.filter fun name => !defined.contains name
  missingInDeclarations := defined.filter fun name => !declared.contains name

structure Generated where
  page : Page
  output : String
  className : String
  -- the count of definition sources
  protoFiles : Nat
  constants : List Constant
  -- the count of constants with a doc
  documented : Nat
  -- there is none when no source defines the enumeration
  drift : Option Drift
deriving Repr, DecidableEq, Inhabited

def Generated.code (generated : Generated) : String := generated.page.text

def Settings.markers (settings : Settings) : Markers := .ofEnum settings.target.marker

def Settings.style (settings : Settings) : ClassStyle where
  className := settings.target.className
  enumName := settings.target.enumName
  names := settings.names
  license := settings.license

-- The entries of the first block of the declarations
def readDeclarations (settings : Settings) (document : Document) :
    Except Failure (List Entry) := do
  let block ← (firstBlock settings.markers document.text).mapError
    fun fault => document.failure fault.diagnostic
  (readEntries block).mapError fun fault => document.failure fault.diagnostic

-- The first definition of the enumeration
def definition? (settings : Settings) (protos : List Proto.File) : Option Proto.Enumeration :=
  protos.findSome? (·.findEnum settings.target.enumName)

-- The docs of values by name. The last value with a name gives its doc.
def valueDocs (definition : Option Proto.Enumeration) : Dictionary String (List String) :=
  match definition with
  | some enumeration => Dictionary.ofList (enumeration.values.map fun v => (v.name, v.doc))
  | none => {}

def constantOf (docs : Dictionary String (List String)) (entry : Entry) : Constant where
  name := entry.name
  number := entry.number
  doc := (docs.get? entry.name).getD []
  line := entry.span.start.line

-- One constant for each name. The last entry with a name gives it.
def constantsOf (docs : Dictionary String (List String)) (entries : List Entry) :
    List Constant :=
  (Dictionary.ofList (entries.map fun entry => (entry.name, constantOf docs entry))).values

def driftOf (constants : List Constant) (definition : Proto.Enumeration) : Drift :=
  Drift.between (constants.map (·.name)) (definition.values.map (·.name))

def compile (settings : Settings) (document : Document) (protos : List Proto.File) :
    Except Failure Generated := do
  let entries ← readDeclarations settings document
  let table (column : Column) : Except Failure Table :=
    (Table.ofEntries column settings.duplicates entries).mapError
      fun fault => document.failure fault.diagnostic
  let toName ← table .name
  let fromCode ← table .code
  let definition := definition? settings protos
  let constants := constantsOf (valueDocs definition) entries
  return {
    page := classPage settings.style ⟨toName, fromCode, constants⟩
    output := settings.output
    className := settings.target.className
    protoFiles := protos.length
    constants
    documented := constants.countP fun constant => !constant.doc.isEmpty
    drift := definition.map (driftOf constants) }

end Codebook
