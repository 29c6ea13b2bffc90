import Codebook.Number.Literal
import Codebook.Proto.File
import Codebook.Proto.Lexer

namespace Codebook.Proto

-- The reader of declarations. It takes one token at a time, and its state says which blocks
-- are open and what is looked for next, so reading is a fold over the tokens. Only messages,
-- enumerations and their doc comments are kept; everything else is passed over with its
-- brackets counted.

-- A message whose closing brace has not been read
structure OpenMessage where
  keyword : Span
  name : String
  doc : List String
  brace : Span
  messages : List Message := []
  enums : List Enumeration := []
deriving Repr, Inhabited

-- The place of a declaration: the file, or a message and what is around it
inductive Scope where
  | file (file : File)
  | message (inner : OpenMessage) (outer : Scope)
deriving Repr, Inhabited

-- An enumeration whose closing brace has not been read, and its place
structure OpenEnum where
  keyword : Span
  name : String
  doc : List String
  brace : Span
  values : List EnumValue := []
  scope : Scope
deriving Repr, Inhabited

-- A value whose number has not been read
structure ValueName where
  name : String
  span : Span
  doc : List String
deriving Repr, DecidableEq, Inhabited

-- Where reading goes on behind a statement that is passed over
inductive Return where
  | declaration (scope : Scope)
  | value (block : OpenEnum)
deriving Repr, Inhabited

inductive State where
  -- between declarations, behind comments that document the next one
  | declaration (scope : Scope) (doc : List String)
  -- behind `package` or a dot in its name
  | packagePart (file : File) (before : List String)
  -- behind a part of the name
  | packageRest (file : File) (parts : List String)
  -- behind a comment that follows the name
  | packageEnd (file : File) (parts : List String)
  -- behind the keyword of a block that is kept
  | blockName (kind : BlockKind) (scope : Scope) (keyword : Span) (doc : List String)
  -- behind its name
  | blockBrace (kind : BlockKind) (scope : Scope) (keyword : Span) (doc : List String)
      (name : String)
  -- between values, behind comments that document the next one
  | value (block : OpenEnum) (doc : List String)
  -- behind the name of a value
  | equals (block : OpenEnum) (name : ValueName)
  -- behind its equals sign
  | number (block : OpenEnum) (name : ValueName)
  -- behind its minus sign
  | negative (block : OpenEnum) (name : ValueName)
  -- behind its number
  | options (block : OpenEnum) (name : ValueName) (number : Int)
  -- among its options, with the count of open brackets
  | insideOptions (block : OpenEnum) (name : ValueName) (number : Int) (bracket : Span)
      (depth : Nat)
  -- behind its options or a comment that follows its number
  | semicolon (block : OpenEnum) (name : ValueName) (number : Int)
  -- behind its semicolon
  | trailing (block : OpenEnum) (value : EnumValue)
  -- inside a statement that is passed over, with the count of open brackets
  | statement (back : Return) (start : Span) (depth : Nat)
  -- in front of the brace of a declaration that is passed over
  | skippedHead (scope : Scope) (keyword : String) (start : Span)
  -- inside its braces, with the count of open braces
  | skippedBody (scope : Scope) (keyword : String) (start : Span) (depth : Nat)
deriving Repr, Inhabited

def Scope.addMessage (added : Message) : Scope → Scope
  | file f => .file { f with messages := f.messages ++ [added] }
  | message inner outer => .message { inner with messages := inner.messages ++ [added] } outer

def Scope.addEnum (added : Enumeration) : Scope → Scope
  | file f => .file { f with enums := f.enums ++ [added] }
  | message inner outer => .message { inner with enums := inner.enums ++ [added] } outer

-- The message that a closing brace completes
def OpenMessage.close (block : OpenMessage) (brace : Span) : Message where
  name := block.name
  doc := block.doc
  messages := block.messages
  enums := block.enums
  span := ⟨block.keyword.start, brace.stop⟩

def OpenEnum.close (block : OpenEnum) (brace : Span) : Enumeration where
  name := block.name
  doc := block.doc
  values := block.values
  span := ⟨block.keyword.start, brace.stop⟩

def OpenEnum.add (block : OpenEnum) (value : EnumValue) : OpenEnum :=
  { block with values := block.values ++ [value] }

def ValueName.complete (name : ValueName) (number : Int) (semicolon : Span) : EnumValue where
  name := name.name
  number
  doc := name.doc
  span := ⟨name.span.start, semicolon.stop⟩

def Return.state : Return → State
  | declaration scope => .declaration scope []
  | value block => .value block []

abbrev Step := Except Fault State

def unexpected (wanted : Wanted) (found : Located Token) : Step :=
  .error (.unexpected wanted (some found.value) found.span)

-- A keyword at the top level of a file
def stepTopLevel (f : File) (doc : List String) (word : String) (found : Located Token) : Step :=
  let scope := Scope.file f
  if word = "message" then .ok (.blockName .message scope found.span doc)
  else if word = "enum" then .ok (.blockName .enum scope found.span doc)
  else if word = "package" then .ok (.packagePart f [])
  else if word ∈ ["syntax", "edition", "import", "option"] then
    .ok (.statement (.declaration scope) found.span 0)
  else if word ∈ ["service", "extend"] then .ok (.skippedHead scope word found.span)
  else unexpected .topLevel found

-- A word inside a message that begins a nested block, a declaration that is passed over, or
-- else a field or another statement
def stepMember (scope : Scope) (doc : List String) (word : String) (found : Located Token) :
    State :=
  if word = "message" then .blockName .message scope found.span doc
  else if word = "enum" then .blockName .enum scope found.span doc
  else if word ∈ ["oneof", "extend"] then .skippedHead scope word found.span
  else .statement (.declaration scope) found.span 0

-- The comment that documents a declaration is the last one in front of it
def stepDeclaration (scope : Scope) (doc : List String) (found : Located Token) : Step :=
  match found.value, scope with
  | .doc lines, _ => .ok (.declaration scope lines)
  | .remark _, _ => .ok (.declaration scope doc)
  | .symbol ';', _ => .ok (.declaration scope [])
  | .word word, .file f => stepTopLevel f doc word found
  | .word word, .message _ _ => .ok (stepMember scope doc word found)
  | .symbol '}', .message inner outer =>
    .ok (.declaration (outer.addMessage (inner.close found.span)) [])
  | _, .file _ => unexpected .topLevel found
  | _, .message _ _ => unexpected .field found

def stepValue (block : OpenEnum) (doc : List String) (found : Located Token) : Step :=
  match found.value with
  | .doc lines => .ok (.value block lines)
  | .remark _ => .ok (.value block doc)
  | .symbol ';' => .ok (.value block [])
  | .symbol '}' => .ok (.declaration (block.scope.addEnum (block.close found.span)) [])
  | .word word =>
    if word ∈ ["option", "reserved"] then .ok (.statement (.value block) found.span 0)
    else .ok (.equals block ⟨word, found.span, doc⟩)
  | _ => unexpected .enumValue found

-- A symbol is looked for behind any comments
def stepSymbol (char : Char) (here next : State) (found : Located Token) : Step :=
  if found.value.isComment then .ok here
  else if found.value = .symbol char then .ok next
  else unexpected (.symbol char) found

def stepPackageEnd (f : File) (parts : List String) (found : Located Token) : Step :=
  stepSymbol ';' (.packageEnd f parts)
    (.declaration (.file { f with package := some (dotted parts) }) []) found

-- The options that stand behind a number begin directly behind it
def stepSemicolon (block : OpenEnum) (name : ValueName) (number : Int) (found : Located Token) :
    Step :=
  stepSymbol ';' (.semicolon block name number)
    (.trailing block (name.complete number found.span)) found

def stepDigits (block : OpenEnum) (name : ValueName) (negative : Bool) (found : Located Token) :
    Step :=
  match found.value with
  | .number text =>
    match Number.literal? text with
    | some value => .ok (.options block name (if negative then -value else value))
    | none => .error (.notInteger text found.span)
  | _ => unexpected .integer found

-- A comment on the line where a value ends documents it unless one in front does
def stepTrailing (block : OpenEnum) (value : EnumValue) (found : Located Token) : Step :=
  match found.value with
  | .remark text =>
    if found.span.start.line = value.span.stop.line then
      let documented :=
        if value.doc.isEmpty then { value with doc := [text] } else value
      .ok (.value (block.add documented) [])
    else stepValue (block.add value) [] found
  | _ => stepValue (block.add value) [] found

-- A statement ends at a semicolon outside of brackets or at the brace that closes its body
def stepStatement (back : Return) (start : Span) (depth : Nat) (found : Located Token) : Step :=
  match found.value with
  | .symbol ';' => if depth = 0 then .ok back.state else .ok (.statement back start depth)
  | .symbol '}' =>
    if depth = 0 then unexpected (.symbol ';') found
    else if depth = 1 then .ok back.state
    else .ok (.statement back start (depth - 1))
  | .symbol c =>
    if c ∈ ['{', '[', '(', '<'] then .ok (.statement back start (depth + 1))
    else if c ∈ [']', ')', '>'] then .ok (.statement back start (depth - 1))
    else .ok (.statement back start depth)
  | _ => .ok (.statement back start depth)

def step (state : State) (found : Located Token) : Step :=
  match state with
  | .declaration scope doc => stepDeclaration scope doc found
  | .packagePart f before =>
    match found.value with
    | .word part => .ok (.packageRest f (before ++ [part]))
    | other => if other.isComment then .ok state else unexpected .name found
  | .packageRest f parts =>
    if found.value = .symbol '.' then .ok (.packagePart f parts)
    else stepPackageEnd f parts found
  | .packageEnd f parts => stepPackageEnd f parts found
  | .blockName kind scope keyword doc =>
    match found.value with
    | .word name => .ok (.blockBrace kind scope keyword doc name)
    | other =>
      if other.isComment then .ok state
      else
        match kind with
        | .message => unexpected .messageName found
        | .enum => unexpected .enumName found
  | .blockBrace kind scope keyword doc name =>
    let opened : State := match kind with
      | .message =>
        .declaration (.message { keyword, name, doc, brace := found.span } scope) []
      | .enum => .value { keyword, name, doc, brace := found.span, scope } []
    stepSymbol '{' state opened found
  | .value block doc => stepValue block doc found
  | .equals block name => stepSymbol '=' state (.number block name) found
  | .number block name =>
    if found.value.isComment then .ok state
    else if found.value = .symbol '-' then .ok (.negative block name)
    else stepDigits block name false found
  | .negative block name => stepDigits block name true found
  | .options block name number =>
    if found.value = .symbol '[' then .ok (.insideOptions block name number found.span 1)
    else stepSemicolon block name number found
  | .insideOptions block name number bracket depth =>
    if found.value = .symbol '[' then .ok (.insideOptions block name number bracket (depth + 1))
    else if found.value = .symbol ']' then
      if depth = 1 then .ok (.semicolon block name number)
      else .ok (.insideOptions block name number bracket (depth - 1))
    else .ok state
  | .semicolon block name number => stepSemicolon block name number found
  | .trailing block value => stepTrailing block value found
  | .statement back start depth => stepStatement back start depth found
  | .skippedHead scope keyword start =>
    if found.value = .symbol '{' then .ok (.skippedBody scope keyword start 1) else .ok state
  | .skippedBody scope keyword start depth =>
    if found.value = .symbol '{' then .ok (.skippedBody scope keyword start (depth + 1))
    else if found.value = .symbol '}' then
      if depth = 1 then .ok (.declaration scope [])
      else .ok (.skippedBody scope keyword start (depth - 1))
    else .ok state

-- What the end of the source means
def finish (state : State) (stop : Position) : Except Fault File :=
  let here := Span.point stop
  let missing (wanted : Wanted) : Except Fault File := .error (.unexpected wanted none here)
  match state with
  | .declaration (.file f) _ => .ok f
  | .declaration (.message inner _) _ =>
    .error (.openBlock .message inner.name inner.brace here)
  | .packagePart _ _ => missing .name
  | .packageRest _ _ => missing (.symbol ';')
  | .packageEnd _ _ => missing (.symbol ';')
  | .blockName .message _ _ _ => missing .messageName
  | .blockName .enum _ _ _ => missing .enumName
  | .blockBrace _ _ _ _ _ => missing (.symbol '{')
  | .value block _ => .error (.openBlock .enum block.name block.brace here)
  | .equals _ _ => missing (.symbol '=')
  | .number _ _ => missing .integer
  | .negative _ _ => missing .integer
  | .options _ _ _ => missing (.symbol ';')
  | .insideOptions _ _ _ bracket _ => .error (.openOptions bracket here)
  | .semicolon _ _ _ => missing (.symbol ';')
  | .trailing block _ => .error (.openBlock .enum block.name block.brace here)
  | .statement _ start _ => .error (.openStatement start here)
  | .skippedHead _ _ _ => missing (.symbol '{')
  | .skippedBody _ keyword start _ => .error (.openSkipped keyword start here)

def start : State := .declaration (.file {}) []

def parseTokens (stream : TokenStream) : Except Fault File := do
  finish (← stream.tokens.foldlM step start) stream.stop

def parse (source : String) : Except Fault File := do parseTokens (← tokenize source)

end Codebook.Proto
