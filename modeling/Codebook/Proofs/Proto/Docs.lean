import Codebook.Proofs.Proto.Cuts
import Codebook.Proto.Parser
import Mathlib.Tactic.SplitIfs

namespace Codebook.Proto

-- What holds of every doc in a file because it holds of the comments in the source.

def Enumeration.AllDocs (P : List String → Prop) (enumeration : Enumeration) : Prop :=
  P enumeration.doc ∧ ∀ value ∈ enumeration.values, P value.doc

inductive Message.AllDocs (P : List String → Prop) : Message → Prop
  | intro {message : Message} (doc : P message.doc)
      (messages : ∀ nested ∈ message.messages, nested.AllDocs P)
      (enums : ∀ enumeration ∈ message.enums, enumeration.AllDocs P) : AllDocs P message

structure File.AllDocs (P : List String → Prop) (file : File) : Prop where
  messages : ∀ message ∈ file.messages, message.AllDocs P
  enums : ∀ enumeration ∈ file.enums, enumeration.AllDocs P

-- The doc that a comment may become. A remark becomes a doc of one line.
def Token.AllDocs (P : List String → Prop) : Token → Prop
  | .doc lines => P lines
  | .remark text => P [text]
  | _ => True

structure OpenMessage.AllDocs (P : List String → Prop) (block : OpenMessage) : Prop where
  doc : P block.doc
  messages : ∀ message ∈ block.messages, message.AllDocs P
  enums : ∀ enumeration ∈ block.enums, enumeration.AllDocs P

def Scope.AllDocs (P : List String → Prop) : Scope → Prop
  | .file f => f.AllDocs P
  | .message inner outer => inner.AllDocs P ∧ outer.AllDocs P

structure OpenEnum.AllDocs (P : List String → Prop) (block : OpenEnum) : Prop where
  doc : P block.doc
  values : ∀ value ∈ block.values, P value.doc
  scope : block.scope.AllDocs P

def Return.AllDocs (P : List String → Prop) : Return → Prop
  | .declaration scope => scope.AllDocs P
  | .value block => block.AllDocs P

def State.AllDocs (P : List String → Prop) : State → Prop
  | .declaration scope doc => scope.AllDocs P ∧ P doc
  | .packagePart f _ => f.AllDocs P
  | .packageRest f _ => f.AllDocs P
  | .packageEnd f _ => f.AllDocs P
  | .blockName _ scope _ doc => scope.AllDocs P ∧ P doc
  | .blockBrace _ scope _ doc _ => scope.AllDocs P ∧ P doc
  | .value block doc => block.AllDocs P ∧ P doc
  | .equals block name => block.AllDocs P ∧ P name.doc
  | .number block name => block.AllDocs P ∧ P name.doc
  | .negative block name => block.AllDocs P ∧ P name.doc
  | .options block name _ => block.AllDocs P ∧ P name.doc
  | .insideOptions block name _ _ _ => block.AllDocs P ∧ P name.doc
  | .semicolon block name _ => block.AllDocs P ∧ P name.doc
  | .trailing block last => block.AllDocs P ∧ P last.doc
  | .statement back _ _ => back.AllDocs P
  | .skippedHead scope _ _ => scope.AllDocs P
  | .skippedBody scope _ _ _ => scope.AllDocs P

section

variable {P : List String → Prop}

theorem Scope.AllDocs.addMessage {scope : Scope} {message : Message} (hs : scope.AllDocs P)
    (hm : message.AllDocs P) : (scope.addMessage message).AllDocs P := by
  cases scope with
  | file f =>
      refine ⟨fun other ho => ?_, hs.enums⟩
      rcases List.mem_append.mp ho with ho | ho
      · exact hs.messages other ho
      · exact List.mem_singleton.mp ho ▸ hm
  | message inner outer =>
      obtain ⟨hinner, houter⟩ := hs
      refine ⟨⟨hinner.doc, fun other ho => ?_, hinner.enums⟩, houter⟩
      rcases List.mem_append.mp ho with ho | ho
      · exact hinner.messages other ho
      · exact List.mem_singleton.mp ho ▸ hm

theorem Scope.AllDocs.addEnum {scope : Scope} {enumeration : Enumeration} (hs : scope.AllDocs P)
    (he : enumeration.AllDocs P) : (scope.addEnum enumeration).AllDocs P := by
  cases scope with
  | file f =>
      refine ⟨hs.messages, fun other ho => ?_⟩
      rcases List.mem_append.mp ho with ho | ho
      · exact hs.enums other ho
      · exact List.mem_singleton.mp ho ▸ he
  | message inner outer =>
      obtain ⟨hinner, houter⟩ := hs
      refine ⟨⟨hinner.doc, hinner.messages, fun other ho => ?_⟩, houter⟩
      rcases List.mem_append.mp ho with ho | ho
      · exact hinner.enums other ho
      · exact List.mem_singleton.mp ho ▸ he

theorem OpenEnum.AllDocs.add {block : OpenEnum} {value : EnumValue} (hb : block.AllDocs P)
    (hv : P value.doc) : (block.add value).AllDocs P := by
  refine ⟨hb.doc, fun other ho => ?_, hb.scope⟩
  rcases List.mem_append.mp ho with ho | ho
  · exact hb.values other ho
  · exact List.mem_singleton.mp ho ▸ hv

variable (hnil : P [])

include hnil

theorem allDocs_state {back : Return} (hb : back.AllDocs P) : back.state.AllDocs P := by
  cases back <;> exact ⟨hb, hnil⟩

theorem allDocs_stepDeclaration {scope : Scope} {doc : List String} {found : Located Token}
    {next : State} (hs : scope.AllDocs P) (hd : P doc) (ht : found.value.AllDocs P)
    (h : stepDeclaration scope doc found = .ok next) : next.AllDocs P := by
  unfold stepDeclaration at h
  split at h
  · rename_i hv
    cases h
    exact ⟨hs, by simpa [hv, Token.AllDocs] using ht⟩
  · cases h
    exact ⟨hs, hd⟩
  · cases h
    exact ⟨hs, hnil⟩
  · simp only [stepTopLevel, unexpected] at h
    split_ifs at h <;> cases h <;> first | exact ⟨hs, hd⟩ | exact hs
  · cases h
    unfold stepMember
    split_ifs <;> first | exact ⟨hs, hd⟩ | exact hs
  · cases h
    obtain ⟨hinner, houter⟩ := hs
    exact ⟨houter.addMessage ⟨hinner.doc, hinner.messages, hinner.enums⟩, hnil⟩
  · simp [unexpected] at h
  · simp [unexpected] at h

theorem allDocs_stepValue {block : OpenEnum} {doc : List String} {found : Located Token}
    {next : State} (hb : block.AllDocs P) (hd : P doc) (ht : found.value.AllDocs P)
    (h : stepValue block doc found = .ok next) : next.AllDocs P := by
  unfold stepValue at h
  split at h
  · rename_i hv
    cases h
    exact ⟨hb, by simpa [hv, Token.AllDocs] using ht⟩
  · cases h
    exact ⟨hb, hd⟩
  · cases h
    exact ⟨hb, hnil⟩
  · cases h
    exact ⟨hb.scope.addEnum ⟨hb.doc, hb.values⟩, hnil⟩
  · split at h <;> cases h
    · exact hb
    · exact ⟨hb, hd⟩
  · simp [unexpected] at h

omit hnil in
theorem allDocs_stepSymbol {char : Char} {here next : State} {found : Located Token}
    {reached : State} (h : stepSymbol char here next found = .ok reached)
    (hh : here.AllDocs P) (hn : next.AllDocs P) : reached.AllDocs P := by
  unfold stepSymbol at h
  split_ifs at h
  · exact Except.ok.inj h ▸ hh
  · exact Except.ok.inj h ▸ hn
  · simp [unexpected] at h

omit hnil in
theorem allDocs_stepDigits {block : OpenEnum} {name : ValueName} {negative : Bool}
    {found : Located Token} {next : State} (hb : block.AllDocs P) (hn : P name.doc)
    (h : stepDigits block name negative found = .ok next) : next.AllDocs P := by
  unfold stepDigits at h
  split at h
  · split at h <;> cases h
    exact ⟨hb, hn⟩
  · simp [unexpected] at h

theorem allDocs_stepTrailing {block : OpenEnum} {value : EnumValue} {found : Located Token}
    {next : State} (hb : block.AllDocs P) (hv : P value.doc) (ht : found.value.AllDocs P)
    (h : stepTrailing block value found = .ok next) : next.AllDocs P := by
  unfold stepTrailing at h
  split at h
  · rename_i text hf
    split at h
    · cases h
      refine ⟨hb.add ?_, hnil⟩
      split
      · simpa [hf, Token.AllDocs] using ht
      · exact hv
    · exact allDocs_stepValue hnil (hb.add hv) hnil ht h
  · exact allDocs_stepValue hnil (hb.add hv) hnil ht h

theorem allDocs_stepStatement {back : Return} {start : Span} {depth : Nat}
    {found : Located Token} {next : State} (hb : back.AllDocs P)
    (h : stepStatement back start depth found = .ok next) : next.AllDocs P := by
  have hback := allDocs_state hnil hb
  unfold stepStatement unexpected at h
  split at h
  · split_ifs at h <;> cases h
    · exact hback
    · exact hb
  · split_ifs at h <;> cases h
    · exact hback
    · exact hb
  · split_ifs at h <;> cases h <;> exact hb
  · cases h
    exact hb

theorem allDocs_step {state next : State} {found : Located Token} (hs : state.AllDocs P)
    (ht : found.value.AllDocs P) (h : step state found = .ok next) : next.AllDocs P := by
  cases state with
  | declaration scope doc => exact allDocs_stepDeclaration hnil hs.1 hs.2 ht h
  | packagePart f before =>
      simp only [step, unexpected] at h
      split at h
      · cases h
        exact hs
      · split_ifs at h
        cases h
        exact hs
  | packageRest f parts =>
      simp only [step] at h
      split_ifs at h
      · cases h
        exact hs
      · exact allDocs_stepSymbol h hs ⟨⟨hs.messages, hs.enums⟩, hnil⟩
  | packageEnd f parts => exact allDocs_stepSymbol h hs ⟨⟨hs.messages, hs.enums⟩, hnil⟩
  | blockName kind scope keyword doc =>
      simp only [step, unexpected] at h
      split at h
      · cases h
        exact hs
      · split_ifs at h
        · cases h
          exact hs
        · split at h <;> cases h
  | blockBrace kind scope keyword doc name =>
      obtain ⟨hscope, hdoc⟩ := hs
      refine allDocs_stepSymbol h ⟨hscope, hdoc⟩ ?_
      cases kind with
      | message => exact ⟨⟨⟨hdoc, nofun, nofun⟩, hscope⟩, hnil⟩
      | enum => exact ⟨⟨hdoc, nofun, hscope⟩, hnil⟩
  | value block doc => exact allDocs_stepValue hnil hs.1 hs.2 ht h
  | equals block name => exact allDocs_stepSymbol h hs hs
  | number block name =>
      simp only [step] at h
      split_ifs at h
      · cases h
        exact hs
      · cases h
        exact hs
      · exact allDocs_stepDigits hs.1 hs.2 h
  | negative block name => exact allDocs_stepDigits hs.1 hs.2 h
  | options block name number =>
      simp only [step] at h
      split_ifs at h
      · cases h
        exact hs
      · exact allDocs_stepSymbol h hs hs
  | insideOptions block name number bracket depth =>
      simp only [step] at h
      split_ifs at h <;> cases h <;> exact hs
  | semicolon block name number => exact allDocs_stepSymbol h hs hs
  | trailing block value => exact allDocs_stepTrailing hnil hs.1 hs.2 ht h
  | statement back start depth => exact allDocs_stepStatement hnil hs h
  | skippedHead scope keyword start =>
      simp only [step] at h
      split_ifs at h <;> cases h <;> exact hs
  | skippedBody scope keyword start depth =>
      simp only [step] at h
      split_ifs at h <;> cases h
      · exact hs
      · exact ⟨hs, hnil⟩
      · exact hs
      · exact hs

theorem allDocs_run {tokens : List (Located Token)} {state last : State} (hs : state.AllDocs P)
    (ht : ∀ found ∈ tokens, found.value.AllDocs P) (h : tokens.foldlM step state = .ok last) :
    last.AllDocs P := by
  induction tokens generalizing state with
  | nil => exact Except.ok.inj h ▸ hs
  | cons found rest ih =>
      rw [List.foldlM_cons] at h
      cases hstep : step state found with
      | error fault => simp [hstep, bind, Except.bind] at h
      | ok next =>
          simp only [hstep, bind, Except.bind] at h
          have hnext := allDocs_step hnil hs (ht found (by simp)) hstep
          exact ih hnext (fun other ho => ht other (List.mem_cons_of_mem _ ho)) h

omit hnil in
theorem allDocs_finish {state : State} {stop : Position} {file : File} (hs : state.AllDocs P)
    (h : finish state stop = .ok file) : file.AllDocs P := by
  unfold finish at h
  split at h <;> simp only [reduceCtorEq, Except.ok.injEq] at h
  exact h ▸ hs.1

theorem allDocs_parseTokens {stream : TokenStream} {file : File}
    (ht : ∀ found ∈ stream.tokens, found.value.AllDocs P) (h : parseTokens stream = .ok file) :
    file.AllDocs P := by
  unfold parseTokens at h
  cases hrun : stream.tokens.foldlM step start with
  | error fault => simp [hrun, bind, Except.bind] at h
  | ok last =>
      simp only [hrun, bind, Except.bind] at h
      have hstart : start.AllDocs P := ⟨⟨nofun, nofun⟩, hnil⟩
      exact allDocs_finish (allDocs_run hnil hstart ht hrun) h

omit hnil

-- Every doc comes from the body of a block comment or is the text of a comment on one line.
theorem allDocs_cuts (hdoc : ∀ body, P (docLines body))
    (hremark : ∀ run, '\n' ∉ run → P [remarkText run]) {c : Char} {rest more : List Char}
    {piece : Piece} (h : Cuts c rest piece more) : ∀ token ∈ piece.token, token.AllDocs P := by
  intro token ht
  cases h with
  | blank => simp at ht
  | remark hr =>
      obtain rfl := Option.some.inj ht
      apply hremark
      simpa using fun hm => hr _ hm rfl
  | comment =>
      simp only [commentPiece] at ht
      split at ht
      · obtain rfl := Option.some.inj ht
        exact hdoc _
      · simp at ht
  | quoted | word | number | symbol =>
      obtain rfl := Option.some.inj ht
      trivial

theorem allDocs_place {start : Position} {ps : List Piece}
    (h : ∀ piece ∈ ps, ∀ token ∈ piece.token, token.AllDocs P) :
    ∀ found ∈ place start ps, found.value.AllDocs P := by
  induction ps generalizing start with
  | nil => simp [place]
  | cons piece rest ih =>
      have hrest := @ih (start.after piece.text)
        fun other ho => h other (List.mem_cons_of_mem _ ho)
      rw [place]
      split
      · rename_i token ht
        exact List.forall_mem_cons.mpr ⟨h piece (by simp) token ht, hrest⟩
      · exact hrest

theorem allDocs_parse (hnil : P []) (hdoc : ∀ body, P (docLines body))
    (hremark : ∀ run, '\n' ∉ run → P [remarkText run]) {source : String} {file : File}
    (h : parse source = .ok file) : file.AllDocs P := by
  have hpieces := forall_mem_pieces (allDocs_cuts hdoc hremark) source.toList
  unfold parse tokenize at h
  split at h
  · rename_i ps hps
    rw [hps] at hpieces
    exact allDocs_parseTokens hnil (allDocs_place hpieces) h
  · simp [bind, Except.bind] at h

-- Files as parsing gives them, each with the path of its source or without one
def AreParsed (files : List File) : Prop :=
  ∀ file ∈ files, ∃ source parsed, parse source = .ok parsed ∧
    { parsed with path := file.path } = file

-- What holds of every doc in an accepted source holds of those in its file.
theorem AreParsed.allDocs (h : ∀ source file, parse source = .ok file → file.AllDocs P)
    {files : List File} (hf : AreParsed files) : ∀ file ∈ files, file.AllDocs P := by
  intro file hm
  obtain ⟨source, parsed, hparsed, hfile⟩ := hf file hm
  obtain ⟨hmessages, henums⟩ := h source parsed hparsed
  exact hfile ▸ ⟨hmessages, henums⟩

-- The docs of an enumeration that a search finds

mutual

theorem Message.allDocs_of_findEnum {name : String} {found : Enumeration} :
    (message : Message) → message.AllDocs P → message.findEnum name = some found →
      found.AllDocs P
  | ⟨_, _, messages, enums, _⟩, hm, h => by
    obtain ⟨-, hmessages, henums⟩ := hm
    rw [Message.findEnum] at h
    split at h
    · rename_i hfound
      exact Option.some.inj h ▸ henums _ (List.mem_of_find?_eq_some hfound)
    · exact allDocs_of_findEnumIn messages hmessages h

theorem allDocs_of_findEnumIn {name : String} {found : Enumeration} :
    (messages : List Message) → (∀ message ∈ messages, message.AllDocs P) →
      findEnumIn name messages = some found → found.AllDocs P
  | [], _, h => by simp [findEnumIn] at h
  | message :: rest, hm, h => by
    obtain ⟨hmessage, hrest⟩ := List.forall_mem_cons.mp hm
    rw [findEnumIn] at h
    split at h
    · rename_i hfound
      exact Option.some.inj h ▸ message.allDocs_of_findEnum hmessage hfound
    · exact allDocs_of_findEnumIn rest hrest h

end

theorem File.AllDocs.of_findEnum {file : File} (hf : file.AllDocs P) {name : String}
    {found : Enumeration} (h : file.findEnum name = some found) : found.AllDocs P := by
  unfold File.findEnum at h
  split at h
  · rename_i hfound
    exact Option.some.inj h ▸ hf.enums _ (List.mem_of_find?_eq_some hfound)
  · exact allDocs_of_findEnumIn file.messages hf.messages h

end

end Codebook.Proto
