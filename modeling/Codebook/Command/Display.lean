import Codebook.Generated
import Codebook.Json
import Codebook.Proto.Docs

namespace Codebook

-- What the command line shows of its results.

open Script

-- Documents of a run

def Constant.json (constant : Constant) : Json :=
  .object [("name", .text constant.name), ("number", .int constant.number),
    ("doc", .texts constant.doc)]

def Drift.json (drift : Drift) : Json :=
  .object [("missing_in_proto", .texts drift.missingInProto),
    ("missing_in_declarations", .texts drift.missingInDeclarations)]

def Mark.json (mark : Mark) : Json :=
  .object [("gen_line", .nat mark.written), ("src_line", .nat mark.declared)]

-- The text itself is left out
def Generated.json (generated : Generated) : Json :=
  .object [("output", .text generated.output), ("class_name", .text generated.className),
    ("proto_files", .nat generated.protoFiles),
    ("constants", .list (generated.constants.map Constant.json)),
    ("documented", .nat generated.documented),
    ("drift", (generated.drift.map Drift.json).getD .null),
    ("mappings", .list (generated.page.marks.toList.map Mark.json))]

def Generated.summary (generated : Generated) : String :=
  let count := generated.constants.length
  let word := if count = 1 then "constant" else "constants"
  s!"Generated {generated.className} with {count} {word} ({generated.documented} documented, "
    ++ s!"{generated.protoFiles} .proto files) in "

-- A line is shown only when the sources differ
def Generated.driftLine (generated : Generated) : String :=
  match generated.drift with
  | none => ""
  | some drift =>
    if drift.isEmpty then ""
    else
      s!"  {drift.missingInProto.length} declared value(s) missing from .proto, "
        ++ s!"{drift.missingInDeclarations.length} .proto value(s) not declared\n"

namespace Proto

def EnumValue.json (value : EnumValue) : Json :=
  .object [("name", .text value.name), ("number", .int value.number), ("doc", .texts value.doc)]

def Enumeration.json (enumeration : Enumeration) : Json :=
  .object [("name", .text enumeration.name), ("doc", .texts enumeration.doc),
    ("values", .list (enumeration.values.map EnumValue.json))]

mutual

def Message.json : Message → Json
  | ⟨name, doc, messages, enums, _⟩ =>
    .object [("name", .text name), ("doc", .texts doc), ("messages", .list (jsonIn messages)),
      ("enums", .list (enums.map Enumeration.json))]

def jsonIn : List Message → List Json
  | [] => []
  | message :: rest => message.json :: jsonIn rest

end

-- What is not there is left out
def File.json (file : File) : Json :=
  let optional (key : String) (value : Option String) : List (String × Json) :=
    match value with
    | some text => [(key, .text text)]
    | none => []
  .object (optional "path" file.path ++ optional "package" file.package
    ++ [("messages", .list (jsonIn file.messages)),
      ("enums", .list (file.enums.map Enumeration.json))])

-- All files with the docs of their messages, keys in order
def inspectionJson (files : List File) : Json :=
  let docs := (messageDocs files).pairs.map fun (name, doc) => (name, Json.texts doc)
  (Json.object [("files", .list (files.map File.json)), ("message_docs", .object docs)]).sorted

-- A row with the first line of a doc behind it
def documentedRow (row : String) (doc : List String) : String :=
  match doc with
  | summary :: _ => s!"{row}  // {summary}\n"
  | [] => row ++ "\n"

def messageRows (path : String) (message : Message) : List String :=
  documentedRow s!"  message {path}" message.doc
    :: message.enums.map fun e => s!"  enum {path}.{e.name} ({e.values.length} values)\n"

def enumRows (enumeration : Enumeration) : List String :=
  s!"  enum {enumeration.name} ({enumeration.values.length} values)\n"
    :: enumeration.values.map fun value =>
      documentedRow s!"    {value.name} = {value.number}" value.doc

def File.overview (file : File) : String :=
  let name := file.path.getD "<source>"
  let head := match file.package with
    | some package => s!"{name} (package {package})\n"
    | none => name ++ "\n"
  String.join (head
    :: file.allMessages.flatMap (fun (path, message) => messageRows path message)
    ++ file.enums.flatMap enumRows)

end Proto

end Codebook
