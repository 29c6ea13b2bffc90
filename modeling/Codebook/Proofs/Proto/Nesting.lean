import Codebook.Proofs.Proto.Places

namespace Codebook

namespace Span

-- One span ends in front of another.
def Precedes (before next : Span) : Prop := before.stop.byte ≤ next.start.byte

-- Two spans have no byte in common.
def IsApart (one other : Span) : Prop := one.Precedes other ∨ other.Precedes one

-- A span lies inside another and shares neither end with it.
structure IsWithin (inner outer : Span) : Prop where
  start : outer.start.byte < inner.start.byte
  stop : inner.stop.byte < outer.stop.byte

-- A span begins with one text and ends with a character.
def Encloses (source : List Char) (span : Span) (opening : String) (closing : Char) : Prop :=
  ∃ inside, span.Covers source (opening.toList ++ (inside ++ [closing]))

theorem Encloses.start_lt_stop {source : List Char} {span : Span} {opening : String}
    {closing : Char} (h : span.Encloses source opening closing) :
    span.start.byte < span.stop.byte := by
  obtain ⟨inside, hcovers⟩ := h
  exact hcovers.start_lt_stop (by simp)

end Span

namespace Proto

-- How the places of declarations lie to each other: what is declared in a block lies inside of it,
-- and what is declared side by side does not overlap.

-- The declarations of one block
structure AreApart (messages : List Message) (enums : List Enumeration) : Prop where
  messageOrder : (messages.map Message.span).Pairwise Span.Precedes
  enumOrder : (enums.map Enumeration.span).Pairwise Span.Precedes
  kinds : ∀ message ∈ messages, ∀ enumeration ∈ enums, message.span.IsApart enumeration.span

section

variable (source : List Char)

structure Enumeration.IsNested (enumeration : Enumeration) : Prop where
  text : enumeration.span.Encloses source "enum" '}'
  values : ∀ value ∈ enumeration.values,
    value.span.Encloses source value.name ';' ∧ value.span.IsWithin enumeration.span
  order : (enumeration.values.map EnumValue.span).Pairwise Span.Precedes

inductive Message.IsNested : Message → Prop
  | intro {message : Message} (text : message.span.Encloses source "message" '}')
      (messages : ∀ nested ∈ message.messages, nested.IsNested)
      (enums : ∀ enumeration ∈ message.enums, enumeration.IsNested source)
      (within : ∀ span ∈ message.messages.map Message.span ++ message.enums.map Enumeration.span,
        span.IsWithin message.span)
      (apart : AreApart message.messages message.enums) : IsNested message

structure File.IsNested (file : File) : Prop where
  messages : ∀ message ∈ file.messages, message.IsNested source
  enums : ∀ enumeration ∈ file.enums, enumeration.IsNested source
  apart : AreApart file.messages file.enums

-- While a source is read, what is complete in a block lies behind the keyword of the block and in
-- front of the byte up to which the source has been read.

structure AreBetween (first last : Nat) (messages : List Message) (enums : List Enumeration) :
    Prop where
  nestedMessages : ∀ message ∈ messages, message.IsNested source
  nestedEnums : ∀ enumeration ∈ enums, enumeration.IsNested source
  between : ∀ span ∈ messages.map Message.span ++ enums.map Enumeration.span,
    first ≤ span.start.byte ∧ span.stop.byte ≤ last
  apart : AreApart messages enums

-- A keyword or a name that has been read
structure IsRead (last : Nat) (span : Span) (word : String) : Prop where
  text : span.Covers source word.toList
  stop : span.stop.byte ≤ last

-- What is around a block has been read up to the keyword of the block.
def Scope.IsNested (last : Nat) : Scope → Prop
  | .file f => AreBetween source 0 last f.messages f.enums
  | .message inner outer =>
    IsRead source last inner.keyword "message" ∧
      AreBetween source inner.keyword.stop.byte last inner.messages inner.enums ∧
      outer.IsNested inner.keyword.start.byte

structure OpenEnum.IsNested (last : Nat) (block : OpenEnum) : Prop where
  keyword : IsRead source last block.keyword "enum"
  values : ∀ value ∈ block.values, value.span.Encloses source value.name ';' ∧
    block.keyword.stop.byte ≤ value.span.start.byte ∧ value.span.stop.byte ≤ last
  order : (block.values.map EnumValue.span).Pairwise Span.Precedes
  scope : block.scope.IsNested source block.keyword.start.byte

def Return.IsNested (last : Nat) : Return → Prop
  | .declaration scope => scope.IsNested source last
  | .value block => block.IsNested source last

def State.IsNested (last : Nat) : State → Prop
  | .declaration scope _ | .skippedHead scope _ _ | .skippedBody scope _ _ _ =>
    scope.IsNested source last
  | .packagePart f _ | .packageRest f _ | .packageEnd f _ => (Scope.file f).IsNested source last
  | .blockName kind scope keyword _ | .blockBrace kind scope keyword _ _ =>
    IsRead source last keyword kind.keyword ∧ scope.IsNested source keyword.start.byte
  | .value block _ => block.IsNested source last
  | .equals block name | .number block name | .negative block name | .options block name _
  | .insideOptions block name _ _ _ | .semicolon block name _ =>
    IsRead source last name.span name.name ∧ block.IsNested source name.span.start.byte
  | .trailing block ended =>
    ended.span.Encloses source ended.name ';' ∧ ended.span.stop.byte ≤ last ∧
      block.IsNested source ended.span.start.byte
  | .statement back _ _ => back.IsNested source last

end

section

variable {source : List Char} {first last later : Nat}

-- Nothing of this is lost when more is read.

theorem IsRead.mono {span : Span} {word : String} (h : IsRead source last span word)
    (hl : last ≤ later) : IsRead source later span word :=
  ⟨h.text, h.stop.trans hl⟩

theorem AreBetween.nil (source : List Char) (first last : Nat) :
    AreBetween source first last [] [] where
  nestedMessages := List.forall_mem_nil _
  nestedEnums := List.forall_mem_nil _
  between := List.forall_mem_nil _
  apart := ⟨.nil, .nil, List.forall_mem_nil _⟩

theorem AreBetween.mono {messages : List Message} {enums : List Enumeration}
    (h : AreBetween source first last messages enums) (hl : last ≤ later) :
    AreBetween source first later messages enums where
  nestedMessages := h.nestedMessages
  nestedEnums := h.nestedEnums
  between span hm := by
    obtain ⟨hstart, hstop⟩ := h.between span hm
    exact ⟨hstart, hstop.trans hl⟩
  apart := h.apart

theorem Scope.IsNested.mono {scope : Scope} (h : scope.IsNested source last)
    (hl : last ≤ later) : scope.IsNested source later := by
  cases scope with
  | file f => exact AreBetween.mono h hl
  | message inner outer =>
      obtain ⟨hkeyword, hinner, houter⟩ := h
      exact ⟨hkeyword.mono hl, hinner.mono hl, houter⟩

theorem OpenEnum.IsNested.mono {block : OpenEnum} (h : block.IsNested source last)
    (hl : last ≤ later) : block.IsNested source later where
  keyword := h.keyword.mono hl
  values value hm := by
    obtain ⟨htext, hstart, hstop⟩ := h.values value hm
    exact ⟨htext, hstart, hstop.trans hl⟩
  order := h.order
  scope := h.scope

theorem Return.IsNested.mono {back : Return} (h : back.IsNested source last)
    (hl : last ≤ later) : back.IsNested source later := by
  cases back with
  | declaration scope => exact Scope.IsNested.mono h hl
  | value block => exact OpenEnum.IsNested.mono h hl

-- What is complete is added behind what was there.

theorem pairwise_concat {spans : List Span} {span : Span} (h : spans.Pairwise Span.Precedes)
    (hs : ∀ before ∈ spans, before.Precedes span) :
    (spans ++ [span]).Pairwise Span.Precedes := by
  refine List.pairwise_append.mpr ⟨h, List.pairwise_singleton _ _, fun before hb next hn => ?_⟩
  obtain rfl := List.mem_singleton.mp hn
  exact hs before hb

theorem Message.IsNested.start_lt_stop {message : Message} (h : message.IsNested source) :
    message.span.start.byte < message.span.stop.byte := by
  obtain ⟨htext, -, -, -, -⟩ := h
  exact htext.start_lt_stop

theorem AreBetween.addMessage {messages : List Message} {enums : List Enumeration}
    {message : Message} (h : AreBetween source first last messages enums) (hf : first ≤ last)
    (hm : message.IsNested source) (hl : last ≤ message.span.start.byte) :
    AreBetween source first message.span.stop.byte (messages ++ [message]) enums := by
  have hlt := hm.start_lt_stop
  have hbefore : ∀ span ∈ messages.map Message.span ++ enums.map Enumeration.span,
      span.Precedes message.span := by
    intro span hs
    exact (h.between span hs).2.trans hl
  obtain ⟨hmessages, henums⟩ := List.forall_mem_append.mp hbefore
  refine ⟨List.forall_mem_append.mpr ⟨h.nestedMessages, List.forall_mem_singleton.mpr hm⟩,
    h.nestedEnums, fun span hs => ?_, ⟨?_, h.apart.enumOrder, fun other ho enumeration he => ?_⟩⟩
  · simp only [List.map_append, List.map_singleton, List.append_assoc, List.mem_append,
      List.mem_singleton] at hs
    rcases hs with hs | rfl | hs
    · have hspan := h.between span (List.mem_append_left _ hs)
      omega
    · omega
    · have hspan := h.between span (List.mem_append_right _ hs)
      omega
  · rw [List.map_append]
    exact pairwise_concat h.apart.messageOrder hmessages
  · rcases List.mem_append.mp ho with ho | ho
    · exact h.apart.kinds other ho enumeration he
    · obtain rfl := List.mem_singleton.mp ho
      exact .inr (henums _ (List.mem_map_of_mem he))

theorem AreBetween.addEnum {messages : List Message} {enums : List Enumeration}
    {enumeration : Enumeration} (h : AreBetween source first last messages enums)
    (hf : first ≤ last) (he : enumeration.IsNested source)
    (hl : last ≤ enumeration.span.start.byte) :
    AreBetween source first enumeration.span.stop.byte messages (enums ++ [enumeration]) := by
  have hlt := he.text.start_lt_stop
  have hbefore : ∀ span ∈ messages.map Message.span ++ enums.map Enumeration.span,
      span.Precedes enumeration.span := by
    intro span hs
    exact (h.between span hs).2.trans hl
  obtain ⟨hmessages, henums⟩ := List.forall_mem_append.mp hbefore
  refine ⟨h.nestedMessages,
    List.forall_mem_append.mpr ⟨h.nestedEnums, List.forall_mem_singleton.mpr he⟩,
    fun span hs => ?_, ⟨h.apart.messageOrder, ?_, fun message hm other ho => ?_⟩⟩
  · rw [List.map_append, ← List.append_assoc, List.map_singleton] at hs
    rcases List.mem_append.mp hs with hs | hs
    · have hspan := h.between span hs
      omega
    · obtain rfl := List.mem_singleton.mp hs
      omega
  · rw [List.map_append]
    exact pairwise_concat h.apart.enumOrder henums
  · rcases List.mem_append.mp ho with ho | ho
    · exact h.apart.kinds message hm other ho
    · obtain rfl := List.mem_singleton.mp ho
      exact .inl (hmessages _ (List.mem_map_of_mem hm))

theorem Scope.IsNested.addMessage {scope : Scope} {message : Message}
    (hs : scope.IsNested source last) (hm : message.IsNested source)
    (hl : last ≤ message.span.start.byte) :
    (scope.addMessage message).IsNested source message.span.stop.byte := by
  cases scope with
  | file f => exact AreBetween.addMessage hs (Nat.zero_le _) hm hl
  | message inner outer =>
      obtain ⟨hkeyword, hinner, houter⟩ := hs
      have hlt := hm.start_lt_stop
      exact ⟨hkeyword.mono (by omega), hinner.addMessage hkeyword.stop hm hl, houter⟩

theorem Scope.IsNested.addEnum {scope : Scope} {enumeration : Enumeration}
    (hs : scope.IsNested source last) (he : enumeration.IsNested source)
    (hl : last ≤ enumeration.span.start.byte) :
    (scope.addEnum enumeration).IsNested source enumeration.span.stop.byte := by
  cases scope with
  | file f => exact AreBetween.addEnum hs (Nat.zero_le _) he hl
  | message inner outer =>
      obtain ⟨hkeyword, hinner, houter⟩ := hs
      have hlt := he.text.start_lt_stop
      exact ⟨hkeyword.mono (by omega), hinner.addEnum hkeyword.stop he hl, houter⟩

theorem OpenEnum.IsNested.add {block : OpenEnum} {value : EnumValue}
    (hb : block.IsNested source last) (hv : value.span.Encloses source value.name ';')
    (hl : last ≤ value.span.start.byte) :
    (block.add value).IsNested source value.span.stop.byte := by
  have hlt := hv.start_lt_stop
  have hkeyword := hb.keyword.stop
  refine ⟨hb.keyword.mono (by omega), fun other ho => ?_, ?_, hb.scope⟩
  · rcases List.mem_append.mp ho with ho | ho
    · obtain ⟨htext, hstart, hstop⟩ := hb.values other ho
      exact ⟨htext, hstart, by omega⟩
    · obtain rfl := List.mem_singleton.mp ho
      exact ⟨hv, hkeyword.trans hl, Nat.le_refl _⟩
  · have hbefore : ∀ span ∈ block.values.map EnumValue.span, span.Precedes value.span := by
      intro span hs
      obtain ⟨other, ho, rfl⟩ := List.mem_map.mp hs
      exact (hb.values other ho).2.2.trans hl
    rw [OpenEnum.add, List.map_append]
    exact pairwise_concat hb.order hbefore

-- What a closing brace completes lies around what is in it.

variable {brace : Span} (hb : brace.Covers source ['}']) (hl : last ≤ brace.start.byte)

include hb hl

theorem isNested_closeMessage {block : OpenMessage}
    (hk : IsRead source last block.keyword "message")
    (hi : AreBetween source block.keyword.stop.byte last block.messages block.enums) :
    (block.close brace).IsNested source := by
  have hopening := hk.text.start_lt_stop (by decide)
  have hclosing := hb.start_lt_stop (by decide)
  have htext := hk.text.join hb (hk.stop.trans hl)
  refine .intro htext hi.nestedMessages hi.nestedEnums (fun span hs => ?_) hi.apart
  obtain ⟨hstart, hstop⟩ := hi.between span hs
  exact ⟨Nat.lt_of_lt_of_le hopening hstart, by show _ < brace.stop.byte; omega⟩

theorem OpenEnum.IsNested.close {block : OpenEnum} (h : block.IsNested source last) :
    (block.close brace).IsNested source := by
  have hopening := h.keyword.text.start_lt_stop (by decide)
  have hclosing := hb.start_lt_stop (by decide)
  refine ⟨h.keyword.text.join hb (h.keyword.stop.trans hl), fun value hv => ?_, h.order⟩
  obtain ⟨htext, hstart, hstop⟩ := h.values value hv
  exact ⟨htext, Nat.lt_of_lt_of_le hopening hstart, by show _ < brace.stop.byte; omega⟩

end

theorem State.IsNested.mono {source : List Char} {last later : Nat} {state : State}
    (h : state.IsNested source last) (hl : last ≤ later) : state.IsNested source later := by
  cases state with
  | declaration scope doc => exact Scope.IsNested.mono h hl
  | packagePart f before => exact @Scope.IsNested.mono _ _ _ (.file f) h hl
  | packageRest f parts => exact @Scope.IsNested.mono _ _ _ (.file f) h hl
  | packageEnd f parts => exact @Scope.IsNested.mono _ _ _ (.file f) h hl
  | value block doc => exact OpenEnum.IsNested.mono h hl
  | trailing block ended => exact ⟨h.1, h.2.1.trans hl, h.2.2⟩
  | statement back start depth => exact Return.IsNested.mono h hl
  | skippedHead scope keyword start => exact Scope.IsNested.mono h hl
  | skippedBody scope keyword start depth => exact Scope.IsNested.mono h hl
  | _ => exact ⟨h.1.mono hl, h.2⟩

theorem Return.IsNested.state {source : List Char} {last : Nat} {back : Return}
    (h : back.IsNested source last) : back.state.IsNested source last := by
  cases back <;> exact h

-- A token is written where its span says.
def StandsIn (source : List Char) (found : Located Token) : Prop :=
  ∃ text, found.span.Covers source text ∧ found.value.IsWrittenAs text

section

variable {source : List Char} {last : Nat} {found : Located Token} (hf : StandsIn source found)
  (hl : last ≤ found.span.start.byte)

include hf

theorem StandsIn.word {name : String} (hv : found.value = .word name) :
    found.span.Covers source name.toList := by
  obtain ⟨text, hcovers, hwritten⟩ := hf
  rw [hv] at hwritten
  exact hwritten ▸ hcovers

theorem StandsIn.symbol {c : Char} (hv : found.value = .symbol c) :
    found.span.Covers source [c] := by
  obtain ⟨text, hcovers, hwritten⟩ := hf
  rw [hv] at hwritten
  exact hwritten ▸ hcovers

theorem StandsIn.start_le_stop : found.span.start.byte ≤ found.span.stop.byte := by
  obtain ⟨text, hcovers, -⟩ := hf
  exact hcovers.start_le_stop

include hl

theorem last_le_stop : last ≤ found.span.stop.byte := hl.trans hf.start_le_stop

theorem isNested_stepDeclaration {scope : Scope} {doc : List String} {next : State}
    (hs : scope.IsNested source last) (h : stepDeclaration scope doc found = .ok next) :
    next.IsNested source found.span.stop.byte := by
  have hstays := hs.mono (last_le_stop hf hl)
  have hkeyword (kind : BlockKind) (hw : found.value = .word kind.keyword) :
      (State.blockName kind scope found.span doc).IsNested source found.span.stop.byte :=
    ⟨⟨hf.word hw, Nat.le_refl _⟩, hs.mono hl⟩
  unfold stepDeclaration at h
  split at h
  · cases h
    exact hstays
  · cases h
    exact hstays
  · cases h
    exact hstays
  · rename_i word file hv
    simp only [stepTopLevel, unexpected] at h
    split_ifs at h with hm he <;> cases h
    · exact hkeyword .message (hv.trans (congrArg Token.word hm))
    · exact hkeyword .enum (hv.trans (congrArg Token.word he))
    all_goals exact hstays
  · rename_i word inner outer hv
    cases h
    unfold stepMember
    split_ifs with hm he
    · exact hkeyword .message (hv.trans (congrArg Token.word hm))
    · exact hkeyword .enum (hv.trans (congrArg Token.word he))
    all_goals exact hstays
  · rename_i inner outer hv
    cases h
    obtain ⟨hread, hinner, houter⟩ := hs
    exact houter.addMessage (isNested_closeMessage (hf.symbol hv) hl hread hinner) (Nat.le_refl _)
  · simp [unexpected] at h
  · simp [unexpected] at h

theorem isNested_stepValue {block : OpenEnum} {doc : List String} {next : State}
    (hb : block.IsNested source last) (h : stepValue block doc found = .ok next) :
    next.IsNested source found.span.stop.byte := by
  have hstays := hb.mono (last_le_stop hf hl)
  unfold stepValue at h
  split at h
  · cases h
    exact hstays
  · cases h
    exact hstays
  · cases h
    exact hstays
  · rename_i hv
    cases h
    exact hb.scope.addEnum (hb.close (hf.symbol hv) hl) (Nat.le_refl _)
  · rename_i word hv
    split at h <;> cases h
    · exact hstays
    · exact ⟨⟨hf.word hv, Nat.le_refl _⟩, hb.mono hl⟩
  · simp [unexpected] at h

omit hf hl in
theorem isNested_stepSymbol {char : Char} {here next reached : State}
    (h : stepSymbol char here next found = .ok reached)
    (hh : here.IsNested source found.span.stop.byte)
    (hn : found.value = .symbol char → next.IsNested source found.span.stop.byte) :
    reached.IsNested source found.span.stop.byte := by
  unfold stepSymbol at h
  split_ifs at h with _ hc
  · exact Except.ok.inj h ▸ hh
  · exact Except.ok.inj h ▸ hn hc
  · simp [unexpected] at h

theorem isNested_stepDigits {block : OpenEnum} {name : ValueName} {negative : Bool} {next : State}
    (hn : IsRead source last name.span name.name)
    (hb : block.IsNested source name.span.start.byte)
    (h : stepDigits block name negative found = .ok next) :
    next.IsNested source found.span.stop.byte := by
  unfold stepDigits at h
  split at h
  · split at h <;> cases h
    exact ⟨hn.mono (last_le_stop hf hl), hb⟩
  · simp [unexpected] at h

theorem isNested_stepTrailing {block : OpenEnum} {ended : EnumValue} {next : State}
    (hv : ended.span.Encloses source ended.name ';') (hs : ended.span.stop.byte ≤ last)
    (hb : block.IsNested source ended.span.start.byte)
    (h : stepTrailing block ended found = .ok next) :
    next.IsNested source found.span.stop.byte := by
  have hadded (doc : List String) : (block.add { ended with doc := doc }).IsNested source last :=
    OpenEnum.IsNested.mono (hb.add hv (Nat.le_refl _)) hs
  unfold stepTrailing at h
  split at h
  · split at h
    · cases h
      show OpenEnum.IsNested _ _ _
      split_ifs
      · exact (hadded _).mono (last_le_stop hf hl)
      · exact (hadded _).mono (last_le_stop hf hl)
    · exact isNested_stepValue hf hl (hadded _) h
  · exact isNested_stepValue hf hl (hadded _) h

theorem isNested_stepStatement {back : Return} {start : Span} {depth : Nat} {next : State}
    (hb : back.IsNested source last) (h : stepStatement back start depth found = .ok next) :
    next.IsNested source found.span.stop.byte := by
  have hstays := hb.mono (last_le_stop hf hl)
  unfold stepStatement unexpected at h
  split at h
  · split_ifs at h <;> cases h
    · exact hstays.state
    · exact hstays
  · split_ifs at h <;> cases h
    · exact hstays.state
    · exact hstays
  · split_ifs at h <;> cases h <;> exact hstays
  · cases h
    exact hstays

theorem isNested_step {state next : State} (hs : state.IsNested source last)
    (h : step state found = .ok next) : next.IsNested source found.span.stop.byte := by
  have hstays := hs.mono (last_le_stop hf hl)
  have hpackage {f : File} {parts : List String}
      (hend : stepPackageEnd f parts found = .ok next)
      (hscope : (Scope.file f).IsNested source found.span.stop.byte) :
      next.IsNested source found.span.stop.byte :=
    isNested_stepSymbol hend hscope fun _ => hscope
  have hvalue {block : OpenEnum} {name : ValueName} {number : Int}
      (hn : IsRead source last name.span name.name)
      (hb : block.IsNested source name.span.start.byte)
      (hend : stepSemicolon block name number found = .ok next) :
      next.IsNested source found.span.stop.byte :=
    isNested_stepSymbol hend ⟨hn.mono (last_le_stop hf hl), hb⟩ fun hv =>
      ⟨hn.text.join (hf.symbol hv) (hn.stop.trans hl), Nat.le_refl _, hb⟩
  cases state with
  | declaration scope doc => exact isNested_stepDeclaration hf hl hs h
  | packagePart f before =>
      simp only [step, unexpected] at h
      split at h
      · cases h
        exact hstays
      · split_ifs at h
        cases h
        exact hstays
  | packageRest f parts =>
      simp only [step] at h
      split_ifs at h
      · cases h
        exact hstays
      · exact hpackage h hstays
  | packageEnd f parts => exact hpackage h hstays
  | blockName kind scope keyword doc =>
      simp only [step, unexpected] at h
      split at h
      · cases h
        exact hstays
      · split_ifs at h
        · cases h
          exact hstays
        · split at h <;> cases h
  | blockBrace kind scope keyword doc name =>
      obtain ⟨hkeyword, hscope⟩ := hstays
      refine isNested_stepSymbol h ⟨hkeyword, hscope⟩ fun _ => ?_
      cases kind with
      | message => exact ⟨hkeyword, .nil source _ _, hscope⟩
      | enum => exact ⟨hkeyword, List.forall_mem_nil _, .nil, hscope⟩
  | value block doc => exact isNested_stepValue hf hl hs h
  | equals block name => exact isNested_stepSymbol h hstays fun _ => hstays
  | number block name =>
      simp only [step] at h
      split_ifs at h
      · cases h
        exact hstays
      · cases h
        exact hstays
      · exact isNested_stepDigits hf hl hs.1 hs.2 h
  | negative block name => exact isNested_stepDigits hf hl hs.1 hs.2 h
  | options block name number =>
      simp only [step] at h
      split_ifs at h
      · cases h
        exact hstays
      · exact hvalue hs.1 hs.2 h
  | insideOptions block name number bracket depth =>
      simp only [step] at h
      split_ifs at h <;> cases h <;> exact hstays
  | semicolon block name number => exact hvalue hs.1 hs.2 h
  | trailing block ended => exact isNested_stepTrailing hf hl hs.1 hs.2.1 hs.2.2 h
  | statement back start depth => exact isNested_stepStatement hf hl hs h
  | skippedHead scope keyword start =>
      simp only [step] at h
      split_ifs at h <;> cases h <;> exact hstays
  | skippedBody scope keyword start depth =>
      simp only [step] at h
      split_ifs at h <;> cases h <;> exact hstays

end

-- The byte up to which a source has been read is the length of the pieces in front.
theorem isNested_run {source front : List Char} {ps : List Piece} {state reached : State}
    (hw : ∀ piece ∈ ps, piece.IsWritten) (hs : source = front ++ ps.flatMap Piece.text)
    (hstate : state.IsNested source (byteLength front))
    (h : (place (Position.start.after front) ps).foldlM step state = .ok reached) :
    reached.IsNested source (byteLength source) := by
  induction ps generalizing front state with
  | nil =>
      obtain rfl := Except.ok.inj h
      rw [List.flatMap_nil, List.append_nil] at hs
      exact hs ▸ hstate
  | cons piece rest ih =>
      obtain ⟨hpiece, hrest⟩ := List.forall_mem_cons.mp hw
      obtain ⟨next, hleads, hrun⟩ := run_place_cons.mp h
      rw [← Position.after_append] at hrun
      have hbehind : source = (front ++ piece.text) ++ rest.flatMap Piece.text := by
        rw [hs, List.flatMap_cons, List.append_assoc]
      refine ih hrest hbehind ?_ hrun
      unfold Piece.Leads at hleads
      split at hleads
      · rename_i token htoken
        rw [Piece.IsWritten, htoken] at hpiece
        have hcovers : (Span.covering (Position.start.after front) piece.text).Covers source
            piece.text :=
          ⟨front, rest.flatMap Piece.text, by rw [hs, List.flatMap_cons], rfl⟩
        have hstart : byteLength front
            ≤ (Span.covering (Position.start.after front) piece.text).start.byte := by
          show _ ≤ (Position.start.after front).byte
          rw [byte_after_start]
        have hnext := isNested_step ⟨piece.text, hcovers, hpiece⟩ hstart hstate hleads
        rw [Span.covering, ← Position.after_append, byte_after_start] at hnext
        exact hnext
      · subst hleads
        refine hstate.mono ?_
        rw [byteLength_append]
        exact Nat.le_add_right _ _

-- In an accepted source each message, enumeration and value covers the text from its first word to
-- its last sign, inside of what it is declared in and beside what is declared with it.
theorem spans_nested {source : String} {file : File} (h : parse source = .ok file) :
    file.IsNested source.toList := by
  obtain ⟨ps, doc, hps, hrun⟩ := parse_eq_ok_iff.mp h
  have hwritten := forall_mem_pieces isWritten_of_cuts source.toList
  rw [hps] at hwritten
  have hstart : start.IsNested source.toList (byteLength []) := AreBetween.nil source.toList 0 0
  have hfile := isNested_run hwritten (flatMap_pieces hps).symm hstart hrun
  exact ⟨hfile.nestedMessages, hfile.nestedEnums, hfile.apart⟩

-- A message with a field, a message and an enumeration in it, and an enumeration beside it
def shapes : String :=
  "message Shape \x7b\n  string id = 1;\n  message Side \x7b\x7d\n  enum Kind \x7b\n"
    ++ "    ROUND = 0;\n    FLAT = 1 [old = true];\n  \x7d\n\x7d\nenum Unit \x7b\x7d\n"

-- The bytes at both ends of the messages of a file and of what is declared in them
def bytesIn (file : File) : List (Nat × Nat) :=
  (file.messages.flatMap fun message => message.span :: (message.messages.map Message.span
    ++ message.enums.flatMap fun enumeration =>
      enumeration.span :: enumeration.values.map EnumValue.span)).map
    fun span => (span.start.byte, span.stop.byte)

theorem spans_nested_shapes :
    ∃ file, parse shapes = .ok file ∧
      bytesIn file = [(0, 112), (35, 50), (53, 110), (69, 79), (84, 106)] ∧
      file.IsNested shapes.toList := by
  have hbytes : (parse shapes).toOption.map bytesIn
      = some [(0, 112), (35, 50), (53, 110), (69, 79), (84, 106)] := by
    decide +kernel
  obtain ⟨file, hfile, hmessages⟩ := Option.map_eq_some_iff.mp hbytes
  have hparse := toOption_eq_some.mp hfile
  exact ⟨file, hparse, hmessages, spans_nested hparse⟩

end Proto
end Codebook
