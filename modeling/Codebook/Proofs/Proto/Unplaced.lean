import Codebook.Proofs.Proto.Revised

namespace Codebook.Proto

-- Files without the places of their declarations. The reader looks at a place only to tell
-- whether a remark stands on the line of a value, so without remarks it goes through the same
-- states whatever the places are.

def EnumValue.unplaced (value : EnumValue) : EnumValue := { value with span := {} }

def Enumeration.unplaced (enumeration : Enumeration) : Enumeration :=
  { enumeration with values := enumeration.values.map EnumValue.unplaced, span := {} }

mutual

def Message.unplaced : Message → Message
  | ⟨name, doc, messages, enums, _⟩ =>
    ⟨name, doc, unplacedAll messages, enums.map Enumeration.unplaced, {}⟩

def unplacedAll : List Message → List Message
  | [] => []
  | message :: rest => message.unplaced :: unplacedAll rest

end

@[simp] theorem unplacedAll_eq_map (messages : List Message) :
    unplacedAll messages = messages.map Message.unplaced := by
  induction messages with
  | nil => rfl
  | cons message rest ih => rw [unplacedAll, ih, List.map_cons]

def File.unplaced (file : File) : File where
  package := file.package
  messages := file.messages.map Message.unplaced
  enums := file.enums.map Enumeration.unplaced

def OpenMessage.unplaced (block : OpenMessage) : OpenMessage where
  keyword := {}
  name := block.name
  doc := block.doc
  brace := {}
  messages := block.messages.map Message.unplaced
  enums := block.enums.map Enumeration.unplaced

def Scope.unplaced : Scope → Scope
  | .file f => .file f.unplaced
  | .message inner outer => .message inner.unplaced outer.unplaced

def OpenEnum.unplaced (block : OpenEnum) : OpenEnum where
  keyword := {}
  name := block.name
  doc := block.doc
  brace := {}
  values := block.values.map EnumValue.unplaced
  scope := block.scope.unplaced

def ValueName.unplaced (name : ValueName) : ValueName := { name with span := {} }

def Return.unplaced : Return → Return
  | .declaration scope => .declaration scope.unplaced
  | .value block => .value block.unplaced

def State.unplaced : State → State
  | .declaration scope doc => .declaration scope.unplaced doc
  | .packagePart f before => .packagePart f.unplaced before
  | .packageRest f parts => .packageRest f.unplaced parts
  | .packageEnd f parts => .packageEnd f.unplaced parts
  | .blockName kind scope _ doc => .blockName kind scope.unplaced {} doc
  | .blockBrace kind scope _ doc name => .blockBrace kind scope.unplaced {} doc name
  | .value block doc => .value block.unplaced doc
  | .equals block name => .equals block.unplaced name.unplaced
  | .number block name => .number block.unplaced name.unplaced
  | .negative block name => .negative block.unplaced name.unplaced
  | .options block name code => .options block.unplaced name.unplaced code
  | .insideOptions block name code _ depth =>
    .insideOptions block.unplaced name.unplaced code {} depth
  | .semicolon block name code => .semicolon block.unplaced name.unplaced code
  | .trailing block last => .trailing block.unplaced last.unplaced
  | .statement back _ depth => .statement back.unplaced {} depth
  | .skippedHead scope keyword _ => .skippedHead scope.unplaced keyword {}
  | .skippedBody scope keyword _ depth => .skippedBody scope.unplaced keyword {} depth

-- A token as it stands at no place
abbrev Token.unplaced (token : Token) : Located Token := ⟨token, {}⟩

-- The state that a step leads to, without places
def reached (result : Step) : Option State := result.toOption.map State.unplaced

-- Nothing is kept of places.
def Revision.placeless : Revision where
  position _ := {}
  doc_nil := Revision.kept_nil

mutual

theorem revised_placeless_message :
    ∀ message : Message, message.revised .placeless = message.unplaced
  | ⟨name, doc, messages, enums, _⟩ => by
    rw [Message.revised, Message.unplaced, revisedAll_placeless messages]
    rfl

theorem revisedAll_placeless :
    ∀ messages : List Message, revisedAll .placeless messages = unplacedAll messages
  | [] => rfl
  | message :: rest => by
    rw [revisedAll, unplacedAll, revised_placeless_message message, revisedAll_placeless rest]

end

theorem map_revised_placeless (messages : List Message) :
    messages.map (Message.revised .placeless) = messages.map Message.unplaced :=
  List.map_congr_left fun message _ => revised_placeless_message message

theorem revised_placeless_file (file : File) : file.revised .placeless = file.unplaced := by
  rw [File.revised, map_revised_placeless]
  simp only [Revision.placeless, Option.or_none, List.nil_append]
  rfl

theorem revised_placeless_scope (scope : Scope) :
    scope.revised .placeless = scope.unplaced := by
  induction scope with
  | file f => exact congrArg Scope.file (revised_placeless_file f)
  | message inner outer ih =>
      rw [Scope.revised, Scope.unplaced, ih, OpenMessage.revised, map_revised_placeless]
      rfl

theorem revised_placeless_block (block : OpenEnum) :
    block.revised .placeless = block.unplaced := by
  rw [OpenEnum.revised, revised_placeless_scope]
  rfl

theorem revised_placeless_return (back : Return) :
    back.revised .placeless = back.unplaced := by
  cases back with
  | declaration scope => exact congrArg Return.declaration (revised_placeless_scope scope)
  | value block => exact congrArg Return.value (revised_placeless_block block)

theorem revised_placeless (state : State) : state.revised .placeless = state.unplaced := by
  cases state <;>
    simp only [State.revised, State.unplaced, revised_placeless_file, revised_placeless_scope,
      revised_placeless_block, revised_placeless_return] <;> rfl

theorem located_placeless (found : Located Token) :
    Revision.placeless.located found = found.value.unplaced := by
  obtain ⟨value, covered⟩ := found
  cases value <;> rfl

-- Reading of tokens that stand at no place
def run (state : State) (tokens : List Token) : Step :=
  (tokens.map Token.unplaced).foldlM step state

theorem run_cons (state : State) (token : Token) (rest : List Token) :
    run state (token :: rest) = (step state token.unplaced).bind fun next => run next rest := rfl

-- What tokens lead to does not depend on places, unless a remark is read.
theorem reached_foldlM (tokens : List (Located Token)) (state : State)
    (h : ∀ found ∈ tokens, ∀ text, found.value ≠ .remark text) :
    reached (tokens.foldlM step state)
      = (run state.unplaced (tokens.map Located.value)).toOption := by
  have hreached (result : Step) : Revision.placeless.reached result = reached result :=
    congrFun (congrArg Option.map (funext revised_placeless)) result.toOption
  have hlocated : tokens.map Revision.placeless.located
      = (tokens.map Located.value).map Token.unplaced := by
    rw [List.map_map]
    exact List.map_congr_left fun found _ => located_placeless found
  have hrevised := revised_foldlM .placeless tokens state fun found hf => .inl (h found hf)
  rwa [hreached, hlocated, revised_placeless] at hrevised

theorem finish_unplaced {state : State} {file : File} {doc : List String}
    (h : state.unplaced = .declaration (.file file) doc) (stop : Position) :
    ∃ read, finish state stop = .ok read ∧ read.unplaced = file := by
  cases state with
  | declaration scope other =>
      cases scope with
      | file f =>
          simp only [State.unplaced, Scope.unplaced, State.declaration.injEq,
            Scope.file.injEq] at h
          exact ⟨f, rfl, h.1⟩
      | message inner outer => simp [State.unplaced, Scope.unplaced] at h
  | _ => simp [State.unplaced] at h

end Codebook.Proto
