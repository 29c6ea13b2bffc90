import Codebook.Files.Tree
import Codebook.Generated
import Codebook.Proto.Docs
import Codebook.Proto.Parser
import Codebook.Report

namespace Codebook

open Declarations

-- A run: reading of the declarations and of the definitions, then generation. Everything that
-- is done is reported.

-- The records of blocks that were read, and of one that was begun
def scanRecords (markers : Markers) (scan : Scan) : List Log.Record :=
  let begun (opening : Span) : Log.Record :=
    { topic := .blocks, level := .debug, message := "block start"
      fields := [("line", Log.count (opening.start.line + 1)),
        ("marker", .quoted markers.opening)] }
  let ended (block : Block) : Log.Record :=
    { topic := .blocks, level := .debug, message := "block end"
      fields := [("line", Log.count (block.closing.start.line + 1)),
        ("captured", Log.count block.lines.length)] }
  (scan.blocks.flatMap fun block => [begun block.opening, ended block])
    ++ match scan.ending with
      | .complete => []
      | .nested _ opening => [begun opening]
      | .unclosed opening => [begun opening]

def repeatRecords (column : Column) (entries : List Entry) : List Log.Record :=
  (repeats column entries).map fun (entry, _) =>
    { topic := .tables, level := .debug, message := "duplicate key, last write wins"
      fields := [("key", .plain (entry.key column)), ("replaced_by", .plain entry.name)] }

def entryRecords (settings : Settings) (entries : List Entry) : List Log.Record :=
  let empty : List Log.Record :=
    if entries.isEmpty then
      [{ level := .warn, message := "enum block is empty"
         fields := [("enum_name", .quoted settings.target.enumName)] }]
    else []
  match settings.duplicates with
  | .reject => empty
  | .lastWins => empty ++ repeatRecords .name entries ++ repeatRecords .code entries

def generatedRecords (settings : Settings) (generated : Generated) : List Log.Record :=
  let enumName : String × Log.Value := ("enum_name", .quoted settings.target.enumName)
  let missing (message name : String) : Log.Record :=
    { level := .warn, message, fields := [enumName, ("name", .plain name)] }
  let drift : List Log.Record :=
    match generated.drift with
    | some drift =>
      drift.missingInProto.map (missing "value declared but not found in .proto sources")
        ++ drift.missingInDeclarations.map
          (missing "value defined in .proto sources but not declared")
    | none =>
      if generated.protoFiles = 0 then []
      else [{ level := .warn
              message := "enum not found in .proto sources, constants are undocumented"
              fields := [enumName] }]
  drift ++ [{ level := .info, message := "generated"
              fields := [("class", .quoted generated.className),
                ("constants", Log.count generated.constants.length),
                ("documented", Log.count generated.documented)] }]

def compileRecords (settings : Settings) (document : Document) (protos : List Proto.File) :
    List Log.Record :=
  scanRecords settings.markers (scanSource settings.markers document.text)
    ++ match readDeclarations settings document with
      | .error _ => []
      | .ok entries =>
        entryRecords settings entries
          ++ match compile settings document protos with
            | .error _ => []
            | .ok generated => generatedRecords settings generated

def compileReport (settings : Settings) (document : Document) (protos : List Proto.File) :
    Report Generated :=
  ⟨compileRecords settings document protos, compile settings document protos⟩

-- A path that is not there is told from a file that cannot be read
def readDocument (view : Files.View) (path : String) : Except Failure Document :=
  if !view.present path then .error (.missing path)
  else
    match view.text path with
    | .ok text => .ok ⟨path, text⟩
    | .error reason => .error (.unreadable path reason)

-- The definition sources directly in a folder, ordered by name
def protoPaths (view : Files.View) (folder : String) : Except Failure (List String) :=
  if !view.isFolder folder then .error (.missing folder)
  else
    let names := (view.fileNames folder).filter (Files.hasExtension "proto")
    .ok ((names.mergeSort fun a b => a ≤ b).map (Files.below folder))

def discoverProtos (view : Files.View) (folder : String) : Report (List String) := do
  let paths ← Report.ofExcept (protoPaths view folder)
  Report.say [{ level := .info, message := "found proto files"
                fields := [("dir", .plain folder), ("count", Log.count paths.length)] }]
  return paths

def parseProto (document : Document) : Except Failure Proto.File := do
  let file ← (Proto.parse document.text).mapError fun fault => document.failure fault.diagnostic
  return { file with path := some document.path }

def readProto (view : Files.View) (path : String) : Except Failure Proto.File := do
  parseProto (← readDocument view path)

def loadProto (view : Files.View) (path : String) : Report Proto.File := do
  let file ← Report.ofExcept (readProto view path)
  Report.say [{ level := .debug, message := "parsed proto"
                fields := [("path", .plain path), ("messages", Log.count file.messages.length),
                  ("enums", Log.count file.enums.length)] }]
  return file

def loadEach (view : Files.View) : List String → Report (List Proto.File)
  | [] => return []
  | path :: rest => do
    let file ← loadProto view path
    return file :: (← loadEach view rest)

def loadProtos (view : Files.View) (folder : String) : Report (List Proto.File) := do
  loadEach view (← discoverProtos view folder)

-- Reads every input and generates, without writing
def generate (view : Files.View) (settings : Settings) : Report Generated := do
  Report.say [{ level := .info, message := "reading declarations"
                fields := [("path", .plain settings.declarations)] }]
  let document ← Report.ofExcept (readDocument view settings.declarations)
  let protos ← loadProtos view settings.protoFolder
  compileReport settings document protos

-- What follows the writing of the output, given its outcome
def written (generated : Generated) (outcome : Except String Unit) : Report Unit :=
  match outcome with
  | .error reason => Report.fail (.unwritable generated.output reason)
  | .ok _ =>
    Report.say [{ level := .info, message := "wrote output"
                  fields := [("path", .plain generated.output),
                    ("bytes", Log.count generated.code.utf8ByteSize)] }]

-- Generates and writes the output into a tree. A failure leaves the tree as it is.
def generateInto (tree : Files.Tree) (settings : Settings) : Report Generated × Files.Tree :=
  let report := generate tree.view settings
  match report.result with
  | .error _ => (report, tree)
  | .ok generated =>
    let after (outcome : Except String Unit) : Report Generated := do
      let generated ← report
      written generated outcome
      return generated
    match tree.write generated.output generated.code.toUTF8 with
    | .ok tree => (after (.ok ()), tree)
    | .error fault => (after (.error fault.reason), tree)

end Codebook
