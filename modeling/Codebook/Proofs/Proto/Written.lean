import Codebook.Proofs.Proto.Lexing
import Codebook.Proto.Parser
import Mathlib.Data.List.Infix

namespace Codebook.Proto

open Codebook.Text

-- The canonical text of the declarations that are kept.

def rowText (line : String) : List Char := " * ".toList ++ line.toList ++ ['\n']

-- A declaration without a doc has no comment in front of it.
def docText : List String → List Char
  | [] => []
  | doc => "/**\n".toList ++ doc.flatMap rowText ++ " */\n".toList

def EnumValue.text (value : EnumValue) : List Char :=
  docText value.doc ++ value.name.toList ++ " = ".toList ++ (toString value.number).toList
    ++ ";\n".toList

example : EnumValue.text ⟨"LOST", -1, ["Not found."], {}⟩
    = "/**\n * Not found.\n */\nLOST = -1;\n".toList := by decide +kernel

def blockText (keyword : String) (doc : List String) (name : String) (body : List Char) :
    List Char :=
  docText doc ++ keyword.toList ++ " ".toList ++ name.toList ++ " \x7b\n".toList ++ body
    ++ "\x7d\n".toList

def Enumeration.text (enumeration : Enumeration) : List Char :=
  blockText "enum" enumeration.doc enumeration.name (enumeration.values.flatMap EnumValue.text)

mutual

def Message.text : Message → List Char
  | ⟨name, doc, messages, enums, _⟩ =>
    blockText "message" doc name (messagesText messages ++ enums.flatMap Enumeration.text)

def messagesText : List Message → List Char
  | [] => []
  | message :: rest => message.text ++ messagesText rest

end

def packageText (package : String) : List Char :=
  "package ".toList ++ package.toList ++ ";\n".toList

def File.written (file : File) : String :=
  String.ofList (file.package.elim [] packageText ++ messagesText file.messages
    ++ file.enums.flatMap Enumeration.text)

-- The declarations that can be written: their names are names of the language, their numbers
-- have literals, and their docs stand in a comment as they are.

structure IsDocLine (line : String) : Prop where
  trimmed : trim line.toList = line.toList
  noLineFeed : '\n' ∉ line.toList
  noEnd : ¬ ['*', '/'] <:+: line.toList

instance (line : String) : Decidable (IsDocLine line) :=
  decidable_of_iff (trim line.toList = line.toList ∧ '\n' ∉ line.toList ∧
    ¬ ['*', '/'] <:+: line.toList)
    ⟨fun ⟨trimmed, feed, close⟩ => ⟨trimmed, feed, close⟩,
      fun h => ⟨h.trimmed, h.noLineFeed, h.noEnd⟩⟩

structure IsDoc (doc : List String) : Prop where
  lines : ∀ line ∈ doc, IsDocLine line
  head : doc.head? ≠ some ""
  last : doc.getLast? ≠ some ""

instance (doc : List String) : Decidable (IsDoc doc) :=
  decidable_of_iff ((∀ line ∈ doc, IsDocLine line) ∧ doc.head? ≠ some "" ∧
    doc.getLast? ≠ some "")
    ⟨fun ⟨lines, head, last⟩ => ⟨lines, head, last⟩, fun h => ⟨h.lines, h.head, h.last⟩⟩

-- Two words begin a statement where a value could stand. The literal of the least number is
-- out of range before its sign is taken.
structure EnumValue.IsWritable (value : EnumValue) : Prop where
  name : IsIdentifier value.name.toList
  noKeyword : value.name ∉ ["option", "reserved"]
  above : Number.minInt < value.number
  below : value.number ≤ Number.maxInt
  doc : IsDoc value.doc

instance (value : EnumValue) : Decidable value.IsWritable :=
  decidable_of_iff (IsIdentifier value.name.toList ∧ value.name ∉ ["option", "reserved"] ∧
    Number.minInt < value.number ∧ value.number ≤ Number.maxInt ∧ IsDoc value.doc)
    ⟨fun ⟨name, noKeyword, above, below, doc⟩ => ⟨name, noKeyword, above, below, doc⟩,
      fun h => ⟨h.name, h.noKeyword, h.above, h.below, h.doc⟩⟩

structure Enumeration.IsWritable (enumeration : Enumeration) : Prop where
  name : IsIdentifier enumeration.name.toList
  doc : IsDoc enumeration.doc
  values : ∀ value ∈ enumeration.values, value.IsWritable

instance (enumeration : Enumeration) : Decidable enumeration.IsWritable :=
  decidable_of_iff (IsIdentifier enumeration.name.toList ∧ IsDoc enumeration.doc ∧
    ∀ value ∈ enumeration.values, value.IsWritable)
    ⟨fun ⟨name, doc, values⟩ => ⟨name, doc, values⟩, fun h => ⟨h.name, h.doc, h.values⟩⟩

inductive Message.IsWritable : Message → Prop
  | intro {message : Message} (name : IsIdentifier message.name.toList) (doc : IsDoc message.doc)
      (messages : ∀ nested ∈ message.messages, nested.IsWritable)
      (enums : ∀ enumeration ∈ message.enums, enumeration.IsWritable) : IsWritable message

structure File.IsWritable (file : File) : Prop where
  package : ∀ package ∈ file.package, ∃ part parts, package = dotted (part :: parts) ∧
    ∀ name ∈ part :: parts, IsIdentifier name.toList
  messages : ∀ message ∈ file.messages, message.IsWritable
  enums : ∀ enumeration ∈ file.enums, enumeration.IsWritable

end Codebook.Proto
