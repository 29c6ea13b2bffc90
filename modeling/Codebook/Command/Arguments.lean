import Codebook.Settings.Reader

namespace Codebook.Command

-- The command line. Arguments are read from left to right into what was given, and that is
-- made into a request.

structure GenerateRequest where
  config : Option String := none
  protoFolder : Option String := none
  declarations : Option String := none
  output : Option String := none
  target : Option Target := none
  names : Option Script.NameStyle := none
  allowDuplicates : Bool := false
  noLicense : Bool := false
  stdout : Bool := false
  json : Bool := false
deriving Repr, DecidableEq, Inhabited

inductive Request where
  | generate (request : GenerateRequest)
  | inspect (path : String) (json : Bool)
  | help
deriving Repr, DecidableEq, Inhabited

structure Arguments where
  verbosity : Nat
  request : Request
deriving Repr, DecidableEq, Inhabited

-- An option by its long name, its letter if it has one, and whether a value follows it
structure OptionShape where
  name : String
  letter : Option Char := none
  takesValue : Bool := false
deriving Repr, DecidableEq, Inhabited

def verbose : OptionShape := { name := "verbose", letter := some 'v' }
def helpOption : OptionShape := { name := "help", letter := some 'h' }

def generateShapes : List OptionShape := [
  { name := "config", takesValue := true },
  { name := "proto-dir", takesValue := true },
  { name := "declarations", takesValue := true },
  { name := "output", letter := some 'o', takesValue := true },
  { name := "target", takesValue := true },
  { name := "names", takesValue := true },
  { name := "allow-duplicates" }, { name := "no-license" }, { name := "stdout" },
  { name := "json" }, verbose, helpOption]

def inspectShapes : List OptionShape := [{ name := "json" }, verbose, helpOption]

-- One thing that the arguments give
inductive Given where
  | flag (name : String)
  | value (name text : String)
  | positional (text : String)
deriving Repr, DecidableEq, Inhabited

-- How the reading of arguments came to an end. Help is given as soon as it is asked for.
inductive Ending where
  | complete
  | help
  | wrong
deriving Repr, DecidableEq, Inhabited

structure Reading where
  given : List Given
  ending : Ending
deriving Repr, DecidableEq, Inhabited

def Reading.behind (given : Given) (reading : Reading) : Reading :=
  { reading with given := given :: reading.given }

-- An argument that begins with a dash is an option, but for the dash alone
def looksLikeOption (argument : String) : Bool :=
  match argument.toList with
  | '-' :: _ :: _ => true
  | _ => false

-- Letters behind one dash. The letter of an option that takes a value takes the rest for it,
-- or asks for the next argument when nothing is left.
inductive Letters where
  | done (given : List Given) (ending : Ending)
  | wants (given : List Given) (name : String)
deriving Repr, DecidableEq, Inhabited

def Letters.behind (given : Given) : Letters → Letters
  | done more ending => done (given :: more) ending
  | wants more name => wants (given :: more) name

def readLetters (shapes : List OptionShape) : List Char → Letters
  | [] => .done [] .complete
  | c :: rest =>
    match shapes.find? (·.letter == some c) with
    | none => .done [] .wrong
    | some shape =>
      if shape.takesValue then
        match rest with
        | [] => .wants [] shape.name
        | '=' :: text => .done [.value shape.name (String.ofList text)] .complete
        | text => .done [.value shape.name (String.ofList text)] .complete
      else if shape.name = helpOption.name then .done [] .help
      else (readLetters shapes rest).behind (.flag shape.name)

-- The same for the name of an option, and what follows an equals sign behind it
def readLong (shapes : List OptionShape) (text : List Char) : Letters :=
  let name := String.ofList (text.takeWhile (· != '='))
  match shapes.find? (·.name == name), text.dropWhile (· != '=') with
  | none, _ => .done [] .wrong
  | some shape, '=' :: value =>
    if shape.takesValue then .done [.value name (String.ofList value)] .complete
    else .done [] .wrong
  | some shape, _ =>
    if shape.takesValue then .wants [] name
    else if name = helpOption.name then .done [] .help
    else .done [.flag name] .complete

def readOption (shapes : List OptionShape) (argument : String) : Letters :=
  match argument.toList with
  | '-' :: '-' :: name => readLong shapes name
  | '-' :: letters => readLetters shapes letters
  | _ => .done [] .wrong

-- `wanted` is the option whose value comes next. Behind two dashes everything is positional.
def readGiven (shapes : List OptionShape) (wanted : Option String) : List String → Reading
  | [] => ⟨[], if wanted.isSome then .wrong else .complete⟩
  | argument :: rest =>
    if looksLikeOption argument then
      if wanted.isSome then ⟨[], .wrong⟩
      else if argument = "--" then ⟨rest.map .positional, .complete⟩
      else
        match readOption shapes argument with
        | .done given .complete =>
          given.foldr Reading.behind (readGiven shapes none rest)
        | .done given ending => ⟨given, ending⟩
        | .wants given name => given.foldr Reading.behind (readGiven shapes (some name) rest)
    else
      match wanted with
      | some name => (readGiven shapes none rest).behind (.value name argument)
      | none => (readGiven shapes none rest).behind (.positional argument)

-- A value that is given for the first time
def once {α : Type} (before : Option α) (value : α) : Option (Option α) :=
  if before.isSome then none else some (some value)

def onceFlag (before : Bool) : Option Bool := if before then none else some true

def pathValue (text : String) : Option String := if text.isEmpty then none else some text

-- The request with one more thing that was given. There is none when it was given before or
-- cannot be understood.
def GenerateRequest.add (request : GenerateRequest) (given : Given) : Option GenerateRequest :=
  match given with
  | .value "config" text => do
    return { request with config := ← once request.config (← pathValue text) }
  | .value "proto-dir" text => do
    return { request with protoFolder := ← once request.protoFolder (← pathValue text) }
  | .value "declarations" text => do
    return { request with declarations := ← once request.declarations (← pathValue text) }
  | .value "output" text => do
    return { request with output := ← once request.output (← pathValue text) }
  | .value "target" text => do
    return { request with target := ← once request.target (← Settings.targets.lookup text) }
  | .value "names" text => do
    return { request with names := ← once request.names (← Settings.nameStyles.lookup text) }
  | .flag "allow-duplicates" => do
    return { request with allowDuplicates := ← onceFlag request.allowDuplicates }
  | .flag "no-license" => do
    return { request with noLicense := ← onceFlag request.noLicense }
  | .flag "stdout" => do return { request with stdout := ← onceFlag request.stdout }
  | .flag "json" => do return { request with json := ← onceFlag request.json }
  | .flag "verbose" => some request
  | _ => none

def addInspect (request : Option String × Bool) (given : Given) : Option (Option String × Bool) :=
  match given with
  | .positional text => do return (← once request.1 (← pathValue text), request.2)
  | .flag "json" => do return (request.1, ← onceFlag request.2)
  | .flag "verbose" => some request
  | _ => none

def verbosity (given : List Given) : Nat := given.count (.flag "verbose")

-- What is asked of a subcommand. What was given in front of a wrong argument or of help has
-- to be right as well.
def readGenerate (reading : Reading) : Option Request := do
  let request ← reading.given.foldlM GenerateRequest.add {}
  match reading.ending with
  | .complete => return .generate request
  | .help => return .help
  | .wrong => none

def readInspect (reading : Reading) : Option Request := do
  let (path, json) ← reading.given.foldlM addInspect (none, false)
  match reading.ending, path with
  | .complete, some path => return .inspect path json
  | .help, _ => return .help
  | _, _ => none

-- The verbosity that a subcommand is given stands in place of the one in front of it
def withVerbosity (before : Nat) (given : List Given) (request : Option Request) :
    Option Arguments := do
  let within := verbosity given
  return ⟨if within = 0 then before else within, ← request⟩

def readSubcommand (before : Nat) (name : String) (rest : List String) : Option Arguments :=
  if name = "generate" then
    let reading := readGiven generateShapes none rest
    withVerbosity before reading.given (readGenerate reading)
  else if name = "inspect" then
    let reading := readGiven inspectShapes none rest
    withVerbosity before reading.given (readInspect reading)
  else if name = "help" then
    match rest with
    | [] => some ⟨before, .help⟩
    | [topic] => if topic ∈ ["generate", "inspect", "help"] then some ⟨before, .help⟩ else none
    | _ => none
  else none

-- Only options that every subcommand has may stand in front of it
def readFrom (before : Nat) : List String → Option Arguments
  | [] => none
  | argument :: rest =>
    if looksLikeOption argument then
      match readOption [verbose, helpOption] argument with
      | .done given .complete => readFrom (before + verbosity given) rest
      | .done _ .help => some ⟨before, .help⟩
      | _ => none
    else readSubcommand before argument rest

def Arguments.read (arguments : List String) : Option Arguments := readFrom 0 arguments

end Codebook.Command
