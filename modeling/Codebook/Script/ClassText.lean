import Codebook.Declarations.Table
import Codebook.Script.MemberName
import Codebook.Script.Page

namespace Codebook.Script

open Codebook.Declarations

-- The text of a class that converts between names and codes. It has a static instance for
-- every constant, `toString` from instance to name, and `_fromCode` from code to instance.

structure Constant where
  name : String
  number : Int
  doc : List String
  -- its line in the declarations
  line : Nat
deriving Repr, DecidableEq, Inhabited

structure ClassModel where
  toName : Table
  fromCode : Table
  constants : List Constant
deriving Repr, DecidableEq, Inhabited

structure ClassStyle where
  className : String
  enumName : String
  names : NameStyle
  license : Bool
deriving Repr, DecidableEq, Inhabited

def licenseRows : List Row := [
  "/*-",
  " *",
  " * Hedera JavaScript SDK",
  " *",
  " * Copyright (C) 2020 - 2022 Hedera Hashgraph, LLC",
  " *",
  " * Licensed under the Apache License, Version 2.0 (the \"License\");",
  " * you may not use this file except in compliance with the License.",
  " * You may obtain a copy of the License at",
  " *",
  " *      http://www.apache.org/licenses/LICENSE-2.0",
  " *",
  " * Unless required by applicable law or agreed to in writing, software",
  " * distributed under the License is distributed on an \"AS IS\" BASIS,",
  " * WITHOUT WARRANTIES OR CONDITIONS OF ANY KIND, either express or implied.",
  " * See the License for the specific language governing permissions and",
  " * limitations under the License.",
  " *",
  " */"].map row

-- A star line for each line of a doc, in which no line ends the comment
def withoutClose : List Char → List Char
  | [] => []
  | '*' :: '/' :: rest => '*' :: '\\' :: '/' :: withoutClose rest
  | c :: rest => c :: withoutClose rest

def docRow (line : String) : Row :=
  if line.isEmpty then row " *" else row (" * " ++ String.ofList (withoutClose line.toList))

def commentRows (lines : List Row) : List Row := row "/**" :: lines ++ [row " */"]

def docRows (doc : List String) : List Row :=
  if doc.isEmpty then [] else commentRows (doc.map docRow)

-- A head that opens a brace, the rows inside it and the closing brace
def braced (head : String) (rows : List Row) : List Row :=
  row (head ++ " \x7b") :: indented rows ++ [row "\x7d"]

def typedefRows (style : ClassStyle) : List Row :=
  commentRows [
    row " * @namespace proto",
    row (" * @typedef \x7bimport(\"@hashgraph/proto\").proto." ++ style.enumName
      ++ "\x7d HashgraphProto.proto." ++ style.enumName)]

def constructorRows : List Row :=
  commentRows [row " * @hideconstructor", row " * @internal", row " * @param \x7bnumber\x7d code"]
    ++ braced "constructor(code)" [
      row "/** @readonly */",
      row "this._code = code;",
      blank,
      row "Object.freeze(this);"]

-- The lines of the constants by name. The last constant with a name gives its line.
def declaredLines (constants : List Constant) : Dictionary String Nat :=
  Dictionary.ofList (constants.map fun constant => (constant.name, constant.line))

-- A name without a constant is taken for one of the first line
def declaredLine (lines : Dictionary String Nat) (name : String) : Nat :=
  (lines.get? name).getD 0

def memberOf (style : ClassStyle) (name : String) : String :=
  s!"{style.className}.{memberName style.names name}"

def nameCase (style : ClassStyle) (lines : Dictionary String Nat) (key name : String) :
    List Row :=
  [{ text := s!"case {memberOf style name}:", declared := some (declaredLine lines key) },
    { level := 1, text := s!"return \"{name}\";" }]

def codeCase (style : ClassStyle) (lines : Dictionary String Nat) (code name : String) :
    List Row :=
  [{ text := s!"case {code}:", declared := some (declaredLine lines name) },
    { level := 1, text := s!"return {memberOf style name};" }]

def toStringRows (style : ClassStyle) (model : ClassModel) : List Row :=
  let lines := declaredLines model.constants
  commentRows [row " * @returns \x7bstring\x7d"]
    ++ braced "toString()" (braced "switch (this)"
      (model.toName.names.pairs.flatMap (fun (key, name) => nameCase style lines key name)
        ++ row "default:" :: indented [row "return `UNKNOWN ($\x7bthis._code\x7d)`;"]))

def fromCodeRows (style : ClassStyle) (model : ClassModel) : List Row :=
  let lines := declaredLines model.constants
  commentRows [
    row " * @internal",
    row " * @param \x7bnumber\x7d code",
    row (" * @returns \x7b" ++ style.className ++ "\x7d")]
    ++ braced "static _fromCode(code)" (braced "switch (code)"
      (model.fromCode.names.pairs.flatMap (fun (code, name) => codeCase style lines code name)
        ++ row "default:" :: indented (
          row "throw new Error("
            :: indented [row ("`(BUG) " ++ style.className
              ++ ".fromCode() does not handle code: $\x7bcode\x7d`")]
            ++ [row ");"])))

def valueOfRows (style : ClassStyle) : List Row :=
  commentRows [row (" * @returns \x7bHashgraphProto.proto." ++ style.enumName ++ "\x7d")]
    ++ braced "valueOf()" [row "return this._code;"]

def classRows (style : ClassStyle) (model : ClassModel) : List Row :=
  braced ("export default class " ++ style.className)
    (constructorRows ++ blank :: toStringRows style model ++ blank :: fromCodeRows style model
      ++ blank :: valueOfRows style)

def definitionRow (style : ClassStyle) (constant : Constant) : Row where
  text := s!"{memberOf style constant.name} = new {style.className}({constant.number});"
  declared := some constant.line

def constantRows (style : ClassStyle) (constant : Constant) : List Row :=
  blank :: docRows constant.doc ++ [definitionRow style constant]

def scriptRows (style : ClassStyle) (model : ClassModel) : List Row :=
  (if style.license then licenseRows ++ [blank] else [])
    ++ typedefRows style ++ blank :: classRows style model
    ++ model.constants.flatMap (constantRows style)

-- The page with the whole class
def classPage (style : ClassStyle) (model : ClassModel) : Page :=
  Page.ofRows (scriptRows style model)

end Codebook.Script
