import Codebook.Proofs.Proto.Spelled
import Codebook.Proofs.Proto.Truncated.Outermost

namespace Codebook.Proto

-- The names of the messages in an accepted source are words of it, so they are identifiers.

inductive Message.AllNames (P : String → Prop) : Message → Prop
  | intro {message : Message} (name : P message.name)
      (messages : ∀ nested ∈ message.messages, nested.AllNames P) : AllNames P message

def File.AllNames (P : String → Prop) (file : File) : Prop :=
  ∀ message ∈ file.messages, message.AllNames P

def Scope.AllNames (P : String → Prop) : Scope → Prop
  | .file f => f.AllNames P
  | .message inner outer =>
    P inner.name ∧ (∀ message ∈ inner.messages, message.AllNames P) ∧ outer.AllNames P

-- The name of a block in front of its brace
def State.blockName? : State → Option String
  | .blockBrace _ _ _ _ name => some name
  | _ => none

structure State.AllNames (P : String → Prop) (state : State) : Prop where
  scope : state.around.scope.AllNames P
  name : ∀ name ∈ state.blockName?, P name

section

variable {P : String → Prop}

theorem Scope.AllNames.addMessage {scope : Scope} {message : Message} (hs : scope.AllNames P)
    (hm : message.AllNames P) : (scope.addMessage message).AllNames P := by
  cases scope with
  | file f => exact List.forall_mem_append.mpr ⟨hs, List.forall_mem_singleton.mpr hm⟩
  | message inner outer =>
      obtain ⟨hname, hinner, houter⟩ := hs
      exact ⟨hname, List.forall_mem_append.mpr ⟨hinner, List.forall_mem_singleton.mpr hm⟩, houter⟩

theorem Scope.AllNames.addEnum {scope : Scope} (hs : scope.AllNames P)
    (enumeration : Enumeration) : (scope.addEnum enumeration).AllNames P := by
  cases scope <;> exact hs

theorem State.AllNames.of_scope {state : State} (h : state.around.scope.AllNames P)
    (hn : state.blockName? = none) : state.AllNames P where
  scope := h
  name := by simp [hn]

-- Most tokens leave what is around as it is.
theorem State.AllNames.of_around {state next : State} (hs : state.AllNames P)
    (h : next.around.scope = state.around.scope) (hn : next.blockName? = none) :
    next.AllNames P :=
  .of_scope (h ▸ hs.scope) hn

theorem allNames_stepSymbol {here next reached : State} {char : Char}
    {found : Located Token} (h : stepSymbol char here next found = .ok reached)
    (hh : here.AllNames P) (hn : next.AllNames P) : reached.AllNames P := by
  unfold stepSymbol at h
  split_ifs at h
  · exact Except.ok.inj h ▸ hh
  · exact Except.ok.inj h ▸ hn
  · simp [unexpected] at h

theorem allNames_stepDeclaration {scope : Scope} {doc : List String} {found : Located Token}
    {next : State} (hs : (State.declaration scope doc).AllNames P)
    (h : stepDeclaration scope doc found = .ok next) : next.AllNames P := by
  unfold stepDeclaration at h
  split at h
  · cases h
    exact hs.of_around rfl rfl
  · cases h
    exact hs.of_around rfl rfl
  · cases h
    exact hs.of_around rfl rfl
  · simp only [stepTopLevel, unexpected] at h
    split_ifs at h <;> cases h <;> exact hs.of_around rfl rfl
  · cases h
    unfold stepMember
    split_ifs <;> exact hs.of_around rfl rfl
  · cases h
    obtain ⟨hname, hmessages, houter⟩ := hs.scope
    exact .of_scope (houter.addMessage (.intro hname hmessages)) rfl
  · simp [unexpected] at h
  · simp [unexpected] at h

theorem allNames_stepValue {block : OpenEnum} {doc : List String} {state : State}
    (hs : state.AllNames P) (hb : state.around = block.around) {found : Located Token}
    {next : State} (h : stepValue block doc found = .ok next) : next.AllNames P := by
  have hscope : block.scope = state.around.scope := by rw [hb]; rfl
  unfold stepValue at h
  split at h
  · cases h
    exact hs.of_around hscope rfl
  · cases h
    exact hs.of_around hscope rfl
  · cases h
    exact hs.of_around hscope rfl
  · cases h
    exact .of_scope (Scope.AllNames.addEnum (hscope ▸ hs.scope) _) rfl
  · split at h <;> cases h <;> exact hs.of_around hscope rfl
  · simp [unexpected] at h

theorem allNames_stepDigits {block : OpenEnum} {name : ValueName} {negative : Bool}
    {state : State} (hs : state.AllNames P) (hb : state.around = block.around)
    {found : Located Token} {next : State}
    (h : stepDigits block name negative found = .ok next) : next.AllNames P := by
  unfold stepDigits at h
  split at h
  · split at h <;> cases h
    exact hs.of_around (by rw [hb]; rfl) rfl
  · simp [unexpected] at h

theorem allNames_stepTrailing {block : OpenEnum} {value : EnumValue} {found : Located Token}
    {next : State} (hs : (State.trailing block value).AllNames P)
    (h : stepTrailing block value found = .ok next) : next.AllNames P := by
  have hadd : (State.trailing block value).around = (block.add value).around := rfl
  unfold stepTrailing at h
  split at h
  · split at h
    · cases h
      exact hs.of_around rfl rfl
    · exact allNames_stepValue hs hadd h
  · exact allNames_stepValue hs hadd h

theorem allNames_stepStatement {back : Return} {start : Span} {depth : Nat}
    {found : Located Token} {next : State} (hs : (State.statement back start depth).AllNames P)
    (h : stepStatement back start depth found = .ok next) : next.AllNames P := by
  have hback : back.state.AllNames P := by
    refine hs.of_around (congrArg Around.scope (around_state back)) ?_
    cases back <;> rfl
  unfold stepStatement unexpected at h
  split at h
  · split_ifs at h <;> cases h
    · exact hback
    · exact hs.of_around rfl rfl
  · split_ifs at h <;> cases h
    · exact hback
    · exact hs.of_around rfl rfl
  · split_ifs at h <;> cases h <;> exact hs.of_around rfl rfl
  · cases h
    exact hs

theorem allNames_step {state next : State} {found : Located Token} (hs : state.AllNames P)
    (ht : ∀ name, found.value = .word name → P name) (h : step state found = .ok next) :
    next.AllNames P := by
  cases state with
  | declaration scope doc => exact allNames_stepDeclaration hs h
  | packagePart f before =>
      simp only [step, unexpected] at h
      split at h
      · cases h
        exact hs.of_around rfl rfl
      · split_ifs at h
        exact Except.ok.inj h ▸ hs
  | packageRest f parts =>
      simp only [step] at h
      split_ifs at h
      · cases h
        exact hs.of_around rfl rfl
      · have hend : (State.packageEnd f parts).AllNames P := hs.of_around rfl rfl
        exact allNames_stepSymbol h hend (.of_scope hs.scope rfl)
  | packageEnd f parts => exact allNames_stepSymbol h hs (.of_scope hs.scope rfl)
  | blockName kind scope keyword doc =>
      simp only [step, unexpected] at h
      split at h
      · rename_i name hname
        cases h
        exact ⟨hs.scope, fun _ hn => Option.some.inj hn ▸ ht name hname⟩
      · split_ifs at h
        · exact Except.ok.inj h ▸ hs
        · split at h <;> cases h
  | blockBrace kind scope keyword doc name =>
      refine allNames_stepSymbol h hs ?_
      cases kind with
      | message => exact .of_scope ⟨hs.name name rfl, List.forall_mem_nil _, hs.scope⟩ rfl
      | enum => exact hs.of_around rfl rfl
  | value block doc => exact allNames_stepValue hs rfl h
  | equals block name => exact allNames_stepSymbol h hs (hs.of_around rfl rfl)
  | number block name =>
      simp only [step] at h
      split_ifs at h
      · exact Except.ok.inj h ▸ hs
      · cases h
        exact hs.of_around rfl rfl
      · exact allNames_stepDigits hs rfl h
  | negative block name => exact allNames_stepDigits hs rfl h
  | options block name number =>
      simp only [step] at h
      split_ifs at h
      · cases h
        exact hs.of_around rfl rfl
      · exact allNames_stepSymbol h (hs.of_around rfl rfl) (hs.of_around rfl rfl)
  | insideOptions block name number bracket depth =>
      simp only [step] at h
      split_ifs at h <;> cases h <;> exact hs.of_around rfl rfl
  | semicolon block name number => exact allNames_stepSymbol h hs (hs.of_around rfl rfl)
  | trailing block value => exact allNames_stepTrailing hs h
  | statement back start depth => exact allNames_stepStatement hs h
  | skippedHead scope keyword start =>
      simp only [step] at h
      split_ifs at h <;> cases h <;> exact hs.of_around rfl rfl
  | skippedBody scope keyword start depth =>
      simp only [step] at h
      split_ifs at h <;> cases h <;> exact hs.of_around rfl rfl

theorem allNames_run {tokens : List (Located Token)} {state last : State}
    (hs : state.AllNames P) (ht : ∀ name, .word name ∈ tokens.map Located.value → P name)
    (h : tokens.foldlM step state = .ok last) : last.AllNames P := by
  induction tokens generalizing state with
  | nil => exact Except.ok.inj h ▸ hs
  | cons found rest ih =>
      obtain ⟨next, hstep, hrest⟩ := foldlM_cons_eq_ok.mp h
      have hnext := allNames_step hs (fun name hn => ht name (by simp [hn])) hstep
      exact ih hnext (fun name hm => ht name (List.mem_cons_of_mem _ hm)) hrest

end

theorem allNames_parse {source : String} {file : File} (h : parse source = .ok file) :
    file.AllNames fun name => IsIdentifier name.toList := by
  obtain ⟨stream, hstream, hparse⟩ := bind_eq_ok.mp h
  obtain ⟨doc, hrun⟩ := parseTokens_eq_ok_iff.mp hparse
  have hwords (name : String) (hm : .word name ∈ stream.tokens.map Located.value) :
      IsIdentifier name.toList := isSpellable_of_tokenize hstream (.word name) hm
  have hstart : start.AllNames fun name => IsIdentifier name.toList :=
    .of_scope (List.forall_mem_nil _) rfl
  exact (allNames_run hstart hwords hrun).scope

end Codebook.Proto
