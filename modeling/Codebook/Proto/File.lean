import Codebook.Text.Position

namespace Codebook.Proto

-- What is kept of a source of the definition language: its messages, its enumerations and
-- their doc comments.

structure EnumValue where
  name : String
  number : Int
  doc : List String
  span : Span
deriving Repr, DecidableEq, Inhabited

structure Enumeration where
  name : String
  doc : List String
  values : List EnumValue
  span : Span
deriving Repr, DecidableEq, Inhabited

structure Message where
  name : String
  doc : List String
  messages : List Message
  enums : List Enumeration
  span : Span
deriving Repr, Inhabited

structure File where
  path : Option String := none
  package : Option String := none
  messages : List Message := []
  enums : List Enumeration := []
deriving Repr, Inhabited

-- The search for an enumeration: those of a block come before those of the messages in it
mutual

def Message.findEnum (name : String) : Message → Option Enumeration
  | ⟨_, _, messages, enums, _⟩ =>
    match enums.find? (·.name == name) with
    | some found => some found
    | none => findEnumIn name messages

def findEnumIn (name : String) : List Message → Option Enumeration
  | [] => none
  | message :: rest =>
    match message.findEnum name with
    | some found => some found
    | none => findEnumIn name rest

end

def File.findEnum (file : File) (name : String) : Option Enumeration :=
  match file.enums.find? (·.name == name) with
  | some found => some found
  | none => findEnumIn name file.messages

-- A message comes before those nested in it, each with the names of the messages around it
-- and its own
mutual

def Message.nested (above : List String) : Message → List (List String × Message)
  | ⟨name, doc, messages, enums, span⟩ =>
    (above ++ [name], ⟨name, doc, messages, enums, span⟩) :: nestedIn (above ++ [name]) messages

def nestedIn (above : List String) : List Message → List (List String × Message)
  | [] => []
  | message :: rest => message.nested above ++ nestedIn above rest

end

-- The names on the way to a message, written with dots between them
def dotted (path : List String) : String := ".".intercalate path

def File.allMessages (file : File) : List (String × Message) :=
  (nestedIn [] file.messages).map fun (path, message) => (dotted path, message)

end Codebook.Proto
