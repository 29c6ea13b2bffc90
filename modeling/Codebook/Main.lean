import Codebook.Command.Plan
import Codebook.Duration

-- The command line on the files of the machine. What a run may look at is looked at first, then
-- its plan is carried out.

namespace Codebook

-- The number of an error, which some calls give with a minus sign
def errorNumber (code : UInt32) : UInt32 := if code < 0x80000000 then code else 0 - code

-- The reason that the machine gives in an error text
def reasonOf (error : IO.Error) : String :=
  match error with
  | .noFileOrDirectory _ _ _ => Files.FileFault.notFound.reason
  | .inappropriateType _ code _ =>
    if errorNumber code = 21 then Files.FileFault.isFolder.reason
    else Files.FileFault.notFolder.reason
  | .invalidArgument _ code _ =>
    if errorNumber code = 36 then Files.FileFault.tooLong.reason else toString error
  | _ => toString error

def textOf (path : String) : IO (Except String String) := do
  if let some fault := Files.pathFault? path then return .error fault.reason
  try
    let content ← IO.FS.readBinFile path
    return (Files.decodeText content).mapError Files.FileFault.reason
  catch error => return .error (reasonOf error)

-- Looks at a path, and at the definition sources in it when it is a folder
def lookAt (path : String) : IO (List (String × Files.Seen)) := do
  let text ← textOf path
  let absent : Files.Seen := { present := false, isFolder := false, text, fileNames := [] }
  try
    let place ← IO.FS.realPath path
    if !(← place.pathExists) then return [(path, absent)]
    if ← place.isDir then
      let mut names := #[]
      for entry in ← place.readDir do
        if !(← entry.path.isDir) then names := names.push entry.fileName
      let folder : Files.Seen :=
        { present := true, isFolder := true, text, fileNames := names.toList }
      let sources := (names.toList.filter (Files.hasExtension "proto")).map (Files.below path)
      let files ← sources.mapM fun source => do
        let text ← textOf source
        let file : Files.Seen := { present := true, isFolder := false, text, fileNames := [] }
        return (source, file)
      return (path, folder) :: files
    else return [(path, { absent with present := true })]
  catch _ => return [(path, absent)]

def viewFor (arguments : List String) : IO Files.View := do
  match Command.Arguments.read arguments with
  | none => return Files.View.ofSeen []
  | some read =>
    let config ← read.config?.toList.mapM lookAt
    let inputs ← (read.inputs (Files.View.ofSeen config.flatten)).mapM lookAt
    return Files.View.ofSeen (config.flatten ++ inputs.flatten)

def writeFile (path text : String) : IO (Except String Unit) := do
  if let some fault := Files.pathFault? path then return .error fault.reason
  try
    IO.FS.writeFile path text
    return .ok ()
  catch error => return .error (reasonOf error)

def carryOut (plan : Command.Plan) : IO Command.Outcome := do
  match plan with
  | .finish outcome => return outcome
  | .write path text next => return next (← writeFile path text)

end Codebook

open Codebook in
def main (arguments : List String) : IO UInt32 := do
  let begun ← IO.monoNanosNow
  let outcome ← carryOut (Command.plan (← viewFor arguments) arguments)
  let elapsed := durationText ((← IO.monoNanosNow) - begun)
  IO.print outcome.output
  let filter := (← IO.getEnv "CODEBOOK_LOG").bind Log.Filter.parse?
  IO.eprint (outcome.shown filter Log.Topic.name elapsed)
  return outcome.exit.toUInt32
