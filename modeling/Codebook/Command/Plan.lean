import Codebook.Command.Arguments
import Codebook.Command.Display
import Codebook.Files.Tree
import Codebook.Generation
import Codebook.Log.Filter

namespace Codebook.Command

-- What a command line does, as a value: the output that it ends with, and the one file that it
-- may write in between.

-- One piece of what is shown beside the output. The span of time of the run stands between the
-- texts of `timed`.
inductive Notice where
  | record (record : Log.Record)
  | text (text : String)
  | timed (before after : String)
deriving Repr, DecidableEq, Inhabited

structure Outcome where
  exit : Nat
  output : String := ""
  notices : List Notice := []
  verbosity : Nat := 0
deriving Repr, DecidableEq, Inhabited

def Notice.shown (visible : Log.Record → Bool) (elapsed : String) (notice : Notice) : String :=
  match notice with
  | record r => if visible r then r.text ++ "\n" else ""
  | text t => t
  | timed before after => before ++ elapsed ++ after

-- A filter that is given stands in place of the verbosity
def Outcome.shown (outcome : Outcome) (filter : Option Log.Filter) (naming : Log.Topic → String)
    (elapsed : String) : String :=
  let filter := filter.getD (.ofVerbosity outcome.verbosity)
  String.join (outcome.notices.map (Notice.shown (filter.shows naming) elapsed))

-- What is written, and what follows the attempt
inductive Plan where
  | finish (outcome : Outcome)
  | write (path text : String) (next : Except String Unit → Outcome)

def usage : String :=
  "Usage: generate [OPTIONS] or inspect [OPTIONS] PATH\n"

def usageOutcome : Outcome := { exit := 2, notices := [.text usage] }

-- Settings from a file
def loadSettings (view : Files.View) (path : String) : Except Failure Settings :=
  match view.text path with
  | .error reason => .error (.settings path reason)
  | .ok text => (Settings.ofJson text).mapError fun fault => .settings path (fault.located text)

-- Arguments stand in place of what the settings file says
def GenerateRequest.override (request : GenerateRequest) (settings : Settings) : Settings where
  protoFolder := request.protoFolder.getD settings.protoFolder
  declarations := request.declarations.getD settings.declarations
  output := request.output.getD settings.output
  target := request.target.getD settings.target
  names := request.names.getD settings.names
  duplicates := if request.allowDuplicates then .lastWins else settings.duplicates
  license := settings.license && !request.noLicense

def GenerateRequest.settings (request : GenerateRequest) (view : Files.View) :
    Except Failure Settings := do
  let settings ← match request.config with
    | some path => loadSettings view path
    | none => pure {}
  return request.override settings

def recordNotices (records : List Log.Record) : List Notice := records.map .record

def failureOutcome (verbosity : Nat) (notices : List Notice) (failure : Failure) : Outcome :=
  { exit := 1, notices := notices ++ [.text failure.render], verbosity }

def jsonText (json : Bool) (value : Json) : String :=
  if json then value.pretty 0 ++ "\n" else ""

-- What is shown when the output was written
def doneNotices (generated : Generated) : List Notice :=
  [.text s!"  ✓ {generated.output}\n",
    .timed s!"\n✨ {generated.summary}" "\n", .text generated.driftLine]

def afterWriting (verbosity : Nat) (json : Bool) (notices : List Notice)
    (generated : Generated) (outcome : Except String Unit) : Outcome :=
  let report := written generated outcome
  let notices := notices ++ recordNotices report.records
  match report.result with
  | .error failure => failureOutcome verbosity notices failure
  | .ok _ =>
    { exit := 0, output := jsonText json generated.json
      notices := notices ++ doneNotices generated, verbosity }

def planGenerate (view : Files.View) (verbosity : Nat) (request : GenerateRequest) : Plan :=
  let report : Report Generated := do
    generate view (← Report.ofExcept (request.settings view))
  let notices := recordNotices report.records
  match report.result with
  | .error failure => .finish (failureOutcome verbosity notices failure)
  | .ok generated =>
    if request.stdout then
      .finish
        { exit := 0, output := generated.code ++ jsonText request.json generated.json
          notices, verbosity }
    else
      .write generated.output generated.code
        (afterWriting verbosity request.json notices generated)

-- The sources at a path, which is a folder of them or one of them
def inspected (view : Files.View) (path : String) : Report (List Proto.File) :=
  if view.isFolder path then loadProtos view path
  else if view.present path then loadEach view [path]
  else Report.fail (.missing path)

def inspectOutcome (view : Files.View) (verbosity : Nat) (path : String) (json : Bool) :
    Outcome :=
  let report := inspected view path
  let notices := recordNotices report.records
  match report.result with
  | .error failure => failureOutcome verbosity notices failure
  | .ok files =>
    let output :=
      if json then jsonText true (Proto.inspectionJson files)
      else String.join (files.map Proto.File.overview)
    { exit := 0, output, notices, verbosity }

def Arguments.plan (arguments : Arguments) (view : Files.View) : Plan :=
  match arguments.request with
  | .generate request => planGenerate view arguments.verbosity request
  | .inspect path json => .finish (inspectOutcome view arguments.verbosity path json)
  | .help => .finish { exit := 0, output := usage }

-- The file that the settings come from
def Arguments.config? (arguments : Arguments) : Option String :=
  match arguments.request with
  | .generate request => request.config
  | _ => none

-- What is looked at beside that file. A folder counts with the definition sources in it.
def Arguments.inputs (arguments : Arguments) (view : Files.View) : List String :=
  match arguments.request with
  | .generate request =>
    match request.settings view with
    | .ok settings => [settings.declarations, settings.protoFolder]
    | .error _ => []
  | .inspect path _ => [path]
  | .help => []

-- The plan of a command line
def plan (view : Files.View) (arguments : List String) : Plan :=
  match Arguments.read arguments with
  | some arguments => arguments.plan view
  | none => .finish usageOutcome

-- A plan carried out on a tree. A write that fails leaves the tree as it is.
def Plan.run (plan : Plan) (tree : Files.Tree) : Outcome × Files.Tree :=
  match plan with
  | finish outcome => (outcome, tree)
  | write path text next =>
    match tree.write path text.toUTF8 with
    | .ok tree => (next (.ok ()), tree)
    | .error fault => (next (.error fault.reason), tree)

def run (tree : Files.Tree) (arguments : List String) : Outcome × Files.Tree :=
  (plan tree.view arguments).run tree

end Codebook.Command
