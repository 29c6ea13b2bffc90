import Codebook.Proofs.Proto.Guarded
import Codebook.Proto.Parser

namespace Codebook.Proto.Guarded

-- The reading of declarations by descent, with an index into the tokens. The end of the source is
-- the last of them, and it is not passed.

abbrev Item := Located (Option Token)

abbrev Builder := Checked Nat

section

variable (items : List Item)

def itemAt (index : Nat) : Builder Item :=
  match items[index]? with
  | some item => return item
  | none => trap (.token index)

def here : Builder Item := do
  let last ← minusOne items.length
  itemAt items (min (← get) last)

def pass : Builder Item := do
  let item ← here items
  if item.value.isSome then modify (· + 1)
  return item

def building {σ α : Type} : (σ → Builder (σ ⊕ α)) → σ → Builder α := loop ⟨items.length, id⟩

def commentsStep (_ : Unit) : Builder (Unit ⊕ Unit) := do
  match (← here items).value with
  | some (.doc _) | some (.remark _) =>
    let _ ← pass items
    return .inl ()
  | _ => return .inr ()

def passComments : Builder Unit := building items (commentsStep items) ()

def docStep (doc : List String) : Builder (List String ⊕ List String) := do
  match (← here items).value with
  | some (.doc lines) =>
    let _ ← pass items
    return .inl lines
  | some (.remark _) =>
    let _ ← pass items
    return .inl doc
  | _ => return .inr doc

-- The comment that documents what follows
def takeDoc : Builder (List String) := building items (docStep items) []

def unexpectedItem {α : Type} (wanted : Wanted) (item : Item) : Builder α :=
  refuse (.unexpected wanted item.value item.span)

def expectSymbol (c : Char) : Builder Span := do
  passComments items
  let item ← here items
  if item.value = some (.symbol c) then
    let _ ← pass items
    return item.span
  else unexpectedItem (.symbol c) item

def expectWord (wanted : Wanted) : Builder String := do
  passComments items
  let item ← here items
  match item.value with
  | some (.word name) =>
    let _ ← pass items
    return name
  | _ => unexpectedItem wanted item

def dottedStep (parts : List String) : Builder (List String ⊕ List String) := do
  if (← here items).value = some (.symbol '.') then
    let _ ← pass items
    return .inl (parts ++ [← expectWord items .name])
  else return .inr parts

def dottedName : Builder (List String) := do
  building items (dottedStep items) [← expectWord items .name]

def digits (negative : Bool) : Builder Int := do
  let item ← here items
  match item.value with
  | some (.number text) =>
    match ← literal text with
    | some value =>
      let value ← withoutSign value
      let _ ← pass items
      if negative then negate value else return value
    | none => refuse (.notInteger text item.span)
  | _ => unexpectedItem .integer item

-- A number with a sign inside, which no source has
example : outcome (digits [⟨some (.number "0x-5"), {}⟩, ⟨none, {}⟩] false) 0
    = .error (.sign (-5)) := by
  rfl

def number : Builder Int := do
  passComments items
  if (← here items).value = some (.symbol '-') then
    let _ ← pass items
    digits items true
  else digits items false

-- Statements and declarations that are passed over

-- One token more inside of brackets. Nothing is left to do when the last one is closed.
def nestedStep (opening closing : Char) (unclosed : Span → Fault) (depth : Nat) :
    Builder (Nat ⊕ Unit) := do
  if depth = 0 then return .inr ()
  else
    let item ← pass items
    match item.value with
    | some found =>
      if found = .symbol opening then return .inl (depth + 1)
      else if found = .symbol closing then return .inl (← minusOne depth)
      else return .inl depth
    | none => refuse (unclosed item.span)

def passOptions : Builder Unit := do
  let bracket := (← pass items).span
  building items (nestedStep items '[' ']' (.openOptions bracket)) 1

def statementStep (start : Span) (depth : Nat) : Builder (Nat ⊕ Unit) := do
  let item ← here items
  match item.value with
  | none => refuse (.openStatement start item.span)
  | some (.symbol c) =>
    if c = ';' ∧ depth = 0 then
      let _ ← pass items
      return .inr ()
    else if c = '\x7d' ∧ depth = 0 then unexpectedItem (.symbol ';') item
    else if c ∈ ['\x7b', '[', '(', '<'] then
      let _ ← pass items
      return .inl (depth + 1)
    else if c = '\x7d' then
      let depth ← minusOne depth
      let _ ← pass items
      if depth = 0 then return .inr () else return .inl depth
    else if c ∈ [']', ')', '>'] then
      let _ ← pass items
      return .inl (depth - 1)
    else
      let _ ← pass items
      return .inl depth
  | some _ =>
    let _ ← pass items
    return .inl depth

def passStatement : Builder Unit := do
  let start := (← here items).span
  building items (statementStep items start) 0

def headStep (_ : Unit) : Builder (Unit ⊕ Unit) := do
  let item ← pass items
  match item.value with
  | some found => if found = .symbol '\x7b' then return .inr () else return .inl ()
  | none => unexpectedItem (.symbol '\x7b') item

def passDeclaration : Builder Unit := do
  let item ← pass items
  let keyword := match item.value with
    | some (.word name) => name
    | found => describeFound found
  building items (headStep items) ()
  building items (nestedStep items '\x7b' '\x7d' (.openSkipped keyword item.span)) 1

def passAnyOptions : Builder Unit := do
  if (← here items).value = some (.symbol '[') then passOptions items else return ()

-- A comment on the line of a semicolon documents the value in front of it
def trailing (value : EnumValue) : Builder EnumValue := do
  let item ← here items
  match item.value with
  | some (.remark text) =>
    if item.span.start.line = value.span.stop.line then
      let _ ← pass items
      return if value.doc.isEmpty then { value with doc := [text] } else value
    else return value
  | _ => return value

-- What stands behind the name of a value
def enumValue (name : ValueName) : Builder EnumValue := do
  let _ ← expectSymbol items '='
  let number ← number items
  passAnyOptions items
  let semicolon ← expectSymbol items ';'
  trailing items (name.complete number semicolon)

def enumStep (keyword brace : Span) (name : String) (doc : List String)
    (values : List EnumValue) : Builder (List EnumValue ⊕ Enumeration) := do
  let valueDoc ← takeDoc items
  let item ← here items
  match item.value with
  | none => refuse (.openBlock .enum name brace item.span)
  | some (.symbol c) =>
    if c = '\x7d' then
      let _ ← pass items
      return .inr { name, doc, values, span := ⟨keyword.start, item.span.stop⟩ }
    else if c = ';' then
      let _ ← pass items
      return .inl values
    else unexpectedItem .enumValue item
  | some (.word word) =>
    if word ∈ ["option", "reserved"] then
      passStatement items
      return .inl values
    else
      let _ ← pass items
      return .inl (values ++ [← enumValue items ⟨word, item.span, valueDoc⟩])
  | _ => unexpectedItem .enumValue item

def enumeration (doc : List String) : Builder Enumeration := do
  let keyword := (← pass items).span
  let name ← expectWord items .enumName
  let brace ← expectSymbol items '\x7b'
  building items (enumStep items keyword brace name doc) []

-- The start of a message up to its brace
def messageHead (doc : List String) : Builder OpenMessage := do
  let keyword := (← pass items).span
  let name ← expectWord items .messageName
  let brace ← expectSymbol items '\x7b'
  return { keyword, name, doc, brace }

-- What is found in a message: more of it, its end, or the start of one inside of it
inductive Part where
  | more (inner : OpenMessage)
  | closed (message : Message)
  | nested (opened : OpenMessage)

def messageStep (inner : OpenMessage) : Builder Part := do
  let doc ← takeDoc items
  let item ← here items
  match item.value with
  | none => refuse (.openBlock .message inner.name inner.brace item.span)
  | some (.symbol c) =>
    if c = '\x7d' then
      let _ ← pass items
      return .closed (inner.close item.span)
    else if c = ';' then
      let _ ← pass items
      return .more inner
    else unexpectedItem .field item
  | some (.word word) =>
    if word = "message" then return .nested (← messageHead items doc)
    else if word = "enum" then
      return .more { inner with enums := inner.enums ++ [← enumeration items doc] }
    else if word ∈ ["oneof", "extend"] then
      passDeclaration items
      return .more inner
    else
      passStatement items
      return .more inner
  | _ => unexpectedItem .field item

-- A message behind its brace. What it holds is read the same way, further on.
def messageFrom (inner : OpenMessage) (place : Nat) :
    Except Trap (Except Fault (Message × Nat)) :=
  match outcome (messageStep items inner) place with
  | .error why => .error why
  | .ok (.error fault) => .ok (.error fault)
  | .ok (.ok (.closed message, next)) => .ok (.ok (message, next))
  | .ok (.ok (.more inner, next)) =>
    if items.length - next < items.length - place then messageFrom inner next
    else .error .stuck
  | .ok (.ok (.nested opened, next)) =>
    if items.length - next < items.length - place then
      match messageFrom opened next with
      | .error why => .error why
      | .ok (.error fault) => .ok (.error fault)
      | .ok (.ok (message, behind)) =>
        if items.length - behind < items.length - place then
          messageFrom { inner with messages := inner.messages ++ [message] } behind
        else .error .stuck
    else .error .stuck
termination_by items.length - place

section

variable {items} {inner : OpenMessage} {place next : Nat}

theorem outcome_messageFrom_closed {message : Message}
    (h : outcome (messageStep items inner) place = .ok (.ok (.closed message, next))) :
    outcome (messageFrom items inner) place = .ok (.ok (message, next)) := by
  show messageFrom items inner place = _
  rw [messageFrom, h]

theorem outcome_messageFrom_refused {fault : Fault}
    (h : outcome (messageStep items inner) place = .ok (.error fault)) :
    outcome (messageFrom items inner) place = .ok (.error fault) := by
  show messageFrom items inner place = _
  rw [messageFrom, h]

theorem outcome_messageFrom_more {larger : OpenMessage}
    (h : outcome (messageStep items inner) place = .ok (.ok (.more larger, next)))
    (hm : items.length - next < items.length - place) :
    outcome (messageFrom items inner) place = outcome (messageFrom items larger) next := by
  show messageFrom items inner place = messageFrom items larger next
  rw [messageFrom, h]
  exact if_pos hm

section

variable {opened : OpenMessage}
  (h : outcome (messageStep items inner) place = .ok (.ok (.nested opened, next)))
  (hm : items.length - next < items.length - place)

include h hm

theorem outcome_messageFrom_nested {message : Message} {behind : Nat}
    (hn : outcome (messageFrom items opened) next = .ok (.ok (message, behind)))
    (hb : items.length - behind < items.length - place) :
    outcome (messageFrom items inner) place
      = outcome (messageFrom items { inner with messages := inner.messages ++ [message] })
        behind := by
  have hn : messageFrom items opened next = .ok (.ok (message, behind)) := hn
  show messageFrom items inner place = messageFrom items _ behind
  rw [messageFrom, h]
  dsimp only
  rw [if_pos hm, hn]
  exact if_pos hb

theorem outcome_messageFrom_nested_refused {fault : Fault}
    (hn : outcome (messageFrom items opened) next = .ok (.error fault)) :
    outcome (messageFrom items inner) place = .ok (.error fault) := by
  have hn : messageFrom items opened next = .ok (.error fault) := hn
  show messageFrom items inner place = _
  rw [messageFrom, h]
  dsimp only
  rw [if_pos hm, hn]

end

end

def message (doc : List String) : Builder Message := do
  messageFrom items (← messageHead items doc)

def fileStep (file : File) : Builder (File ⊕ File) := do
  let doc ← takeDoc items
  let item ← here items
  match item.value with
  | none => return .inr file
  | some (.symbol c) =>
    if c = ';' then
      let _ ← pass items
      return .inl file
    else unexpectedItem .topLevel item
  | some (.word word) =>
    if word = "message" then
      return .inl { file with messages := file.messages ++ [← message items doc] }
    else if word = "enum" then
      return .inl { file with enums := file.enums ++ [← enumeration items doc] }
    else if word = "package" then
      let _ ← pass items
      let parts ← dottedName items
      let _ ← expectSymbol items ';'
      return .inl { file with package := some (dotted parts) }
    else if word ∈ ["syntax", "edition", "import", "option"] then
      passStatement items
      return .inl file
    else if word ∈ ["service", "extend"] then
      passDeclaration items
      return .inl file
    else unexpectedItem .topLevel item
  | _ => unexpectedItem .topLevel item

def file : Except Trap (Except Fault (File × Nat)) :=
  outcome (building items (fileStep items) {}) 0

end

end Codebook.Proto.Guarded
