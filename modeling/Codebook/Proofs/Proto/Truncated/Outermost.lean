import Codebook.Proofs.Proto.Lexing
import Codebook.Proofs.Result
import Codebook.Proto.Parser
import Mathlib.Tactic.SplitIfs

namespace Codebook.Proto

-- The outermost block that is open while a file is read. What one token does to it is said once,
-- and what holds of the declarations of a file follows by going through its tokens.

-- The places of the declarations that are not inside another one
def File.spans (file : File) : List Span :=
  file.messages.map Message.span ++ file.enums.map Enumeration.span

-- The file around a declaration, as far as it has been read
def Scope.root : Scope → File
  | .file f => f
  | .message _ outer => outer.root

-- Where the outermost open message begins
def Scope.opened : Scope → Option Position
  | .file _ => none
  | .message inner outer => some (outer.opened.getD inner.keyword.start)

-- A scope, and the keyword of a block in it that is no scope of its own: an enumeration, or a
-- message in front of its brace
structure Around where
  scope : Scope
  keyword : Option Span := none

def Around.opened (around : Around) : Option Position :=
  match around.keyword with
  | none => around.scope.opened
  | some keyword => some (around.scope.opened.getD keyword.start)

def OpenEnum.around (block : OpenEnum) : Around := ⟨block.scope, some block.keyword⟩

def Return.around : Return → Around
  | .declaration scope => ⟨scope, none⟩
  | .value block => block.around

def State.around : State → Around
  | .declaration scope _ | .skippedHead scope _ _ | .skippedBody scope _ _ _ => ⟨scope, none⟩
  | .packagePart f _ | .packageRest f _ | .packageEnd f _ => ⟨.file f, none⟩
  | .blockName _ scope keyword _ | .blockBrace _ scope keyword _ _ => ⟨scope, some keyword⟩
  | .value block _ | .equals block _ | .number block _ | .negative block _ => block.around
  | .options block _ _ | .insideOptions block _ _ _ _ => block.around
  | .semicolon block _ _ | .trailing block _ => block.around
  | .statement back _ _ => back.around

def State.opened (state : State) : Option Position := state.around.opened

-- The declarations that are complete
def State.spans (state : State) : List Span := state.around.scope.root.spans

theorem around_state (back : Return) : back.state.around = back.around := by
  cases back <;> rfl

-- What a token does to the outermost block
inductive Outcome (state : State) (found : Located Token) (next : State) : Prop
  | stays (opened : next.opened = state.opened) (spans : next.spans = state.spans)
  | opens (file : File) (doc : List String) (hs : state = .declaration (.file file) doc)
      (word : String) (hw : found.value = .word word) (hk : word = "message" ∨ word = "enum")
      (opened : next.opened = some found.span.start) (spans : next.spans = state.spans)
  | closes (first : Position) (hb : found.value = .symbol '\x7d')
      (hs : state.opened = some first) (outside : ∃ file, next = .declaration (.file file) [])
      (spans : ∀ span ∈ next.spans, span ∈ state.spans ∨ span = ⟨first, found.span.stop⟩)

theorem Outcome.of_around {state next : State} {found : Located Token}
    (h : next.around = state.around) : Outcome state found next := by
  refine .stays ?_ ?_
  · rw [State.opened, h, State.opened]
  · rw [State.spans, h, State.spans]

theorem outcome_closeMessage (inner : OpenMessage) (outer : Scope) (doc : List String)
    {found : Located Token} (hb : found.value = .symbol '\x7d') :
    Outcome (.declaration (.message inner outer) doc) found
      (.declaration (outer.addMessage (inner.close found.span)) []) := by
  cases outer with
  | file f =>
      refine .closes inner.keyword.start hb rfl ⟨_, rfl⟩ fun span hspan => ?_
      simp only [State.spans, State.around, Scope.addMessage, Scope.root, File.spans,
        List.map_append, List.mem_append, List.map_cons, List.map_nil, List.mem_singleton]
        at hspan ⊢
      rcases hspan with (hspan | rfl) | hspan
      · exact .inl (.inl hspan)
      · exact .inr rfl
      · exact .inl (.inr hspan)
  | message block scope => exact .stays rfl rfl

theorem outcome_closeEnum (block : OpenEnum) {state : State} (hs : state.around = block.around)
    {found : Located Token} (hb : found.value = .symbol '\x7d') :
    Outcome state found (.declaration (block.scope.addEnum (block.close found.span)) []) := by
  have hopened : state.opened = block.around.opened := by rw [State.opened, hs]
  have hspans : state.spans = block.scope.root.spans := by rw [State.spans, hs]; rfl
  obtain ⟨keyword, name, doc, brace, values, scope⟩ := block
  cases scope with
  | file f =>
      refine .closes keyword.start hb hopened ⟨_, rfl⟩ fun span hspan => ?_
      rw [hspans]
      simp only [State.spans, State.around, Scope.addEnum, Scope.root, File.spans,
        List.map_append, List.mem_append, List.map_cons, List.map_nil, List.mem_singleton]
        at hspan ⊢
      rcases hspan with hspan | hspan | rfl
      · exact .inl (.inl hspan)
      · exact .inl (.inr hspan)
      · exact .inr rfl
  | message inner outer => exact .stays hopened.symm hspans.symm

theorem outcome_stepDeclaration {scope : Scope} {doc : List String} {found : Located Token}
    {next : State} (h : stepDeclaration scope doc found = .ok next) :
    Outcome (.declaration scope doc) found next := by
  unfold stepDeclaration at h
  split at h
  · cases h
    exact .of_around rfl
  · cases h
    exact .of_around rfl
  · cases h
    exact .of_around rfl
  · rename_i word file hw
    simp only [stepTopLevel, unexpected] at h
    split_ifs at h with hm he
    · cases h
      exact .opens file doc rfl word hw (.inl hm) rfl rfl
    · cases h
      exact .opens file doc rfl word hw (.inr he) rfl rfl
    all_goals
      cases h
      exact .of_around rfl
  · cases h
    unfold stepMember
    split_ifs <;> exact .stays rfl rfl
  · rename_i hb
    cases h
    exact outcome_closeMessage _ _ _ hb
  · simp [unexpected] at h
  · simp [unexpected] at h

theorem outcome_stepValue {block : OpenEnum} {doc : List String} {state : State}
    (hs : state.around = block.around) {found : Located Token} {next : State}
    (h : stepValue block doc found = .ok next) : Outcome state found next := by
  unfold stepValue at h
  split at h
  · cases h
    exact .of_around hs.symm
  · cases h
    exact .of_around hs.symm
  · cases h
    exact .of_around hs.symm
  · rename_i hb
    cases h
    exact outcome_closeEnum block hs hb
  · split at h <;> cases h <;> exact .of_around hs.symm
  · simp [unexpected] at h

theorem outcome_stepSymbol {state here next reached : State} {char : Char}
    {found : Located Token} (h : stepSymbol char here next found = .ok reached)
    (hh : Outcome state found here) (hn : Outcome state found next) :
    Outcome state found reached := by
  unfold stepSymbol at h
  split_ifs at h
  · exact Except.ok.inj h ▸ hh
  · exact Except.ok.inj h ▸ hn
  · simp [unexpected] at h

theorem outcome_stepDigits {block : OpenEnum} {name : ValueName} {negative : Bool} {state : State}
    (hs : state.around = block.around) {found : Located Token} {next : State}
    (h : stepDigits block name negative found = .ok next) : Outcome state found next := by
  unfold stepDigits at h
  split at h
  · split at h <;> cases h
    exact .of_around hs.symm
  · simp [unexpected] at h

theorem outcome_stepTrailing {block : OpenEnum} {value : EnumValue} {found : Located Token}
    {next : State} (h : stepTrailing block value found = .ok next) :
    Outcome (.trailing block value) found next := by
  have hadd : (State.trailing block value).around = (block.add value).around := rfl
  unfold stepTrailing at h
  split at h
  · split at h
    · cases h
      exact .of_around rfl
    · exact outcome_stepValue hadd h
  · exact outcome_stepValue hadd h

theorem outcome_stepStatement {back : Return} {start : Span} {depth : Nat}
    {found : Located Token} {next : State} (h : stepStatement back start depth found = .ok next) :
    Outcome (.statement back start depth) found next := by
  have hback := around_state back
  unfold stepStatement unexpected at h
  split at h
  · split_ifs at h <;> cases h
    · exact .of_around hback
    · exact .of_around rfl
  · split_ifs at h <;> cases h
    · exact .of_around hback
    · exact .of_around rfl
  · split_ifs at h <;> cases h <;> exact .of_around rfl
  · cases h
    exact .of_around rfl

theorem outcome_step {state next : State} {found : Located Token}
    (h : step state found = .ok next) : Outcome state found next := by
  cases state with
  | declaration scope doc => exact outcome_stepDeclaration h
  | packagePart f before =>
      simp only [step, unexpected] at h
      split at h
      · cases h
        exact .of_around rfl
      · split_ifs at h
        cases h
        exact .of_around rfl
  | packageRest f parts =>
      simp only [step] at h
      split_ifs at h
      · cases h
        exact .of_around rfl
      · exact outcome_stepSymbol h (.of_around rfl) (.stays rfl rfl)
  | packageEnd f parts => exact outcome_stepSymbol h (.of_around rfl) (.stays rfl rfl)
  | blockName kind scope keyword doc =>
      simp only [step, unexpected] at h
      split at h
      · cases h
        exact .of_around rfl
      · split_ifs at h
        · cases h
          exact .of_around rfl
        · split at h <;> cases h
  | blockBrace kind scope keyword doc name =>
      cases kind with
      | message => exact outcome_stepSymbol h (.of_around rfl) (.stays rfl rfl)
      | enum => exact outcome_stepSymbol h (.of_around rfl) (.of_around rfl)
  | value block doc => exact outcome_stepValue rfl h
  | equals block name => exact outcome_stepSymbol h (.of_around rfl) (.of_around rfl)
  | number block name =>
      simp only [step] at h
      split_ifs at h
      · cases h
        exact .of_around rfl
      · cases h
        exact .of_around rfl
      · exact outcome_stepDigits rfl h
  | negative block name => exact outcome_stepDigits rfl h
  | options block name number =>
      simp only [step] at h
      split_ifs at h
      · cases h
        exact .of_around rfl
      · exact outcome_stepSymbol h (.of_around rfl) (.of_around rfl)
  | insideOptions block name number bracket depth =>
      simp only [step] at h
      split_ifs at h <;> cases h <;> exact .of_around rfl
  | semicolon block name number => exact outcome_stepSymbol h (.of_around rfl) (.of_around rfl)
  | trailing block value => exact outcome_stepTrailing h
  | statement back start depth => exact outcome_stepStatement h
  | skippedHead scope keyword start =>
      simp only [step] at h
      split_ifs at h <;> cases h <;> exact .of_around rfl
  | skippedBody scope keyword start depth =>
      simp only [step] at h
      split_ifs at h <;> cases h <;> exact .of_around rfl

-- A declaration that tokens complete begins where the block that was open does, or at one of the
-- tokens, and it ends at one of them.
theorem mem_spans_run {tokens : List (Located Token)} {state last : State}
    (h : tokens.foldlM step state = .ok last) {span : Span} (hs : span ∈ last.spans) :
    span ∈ state.spans ∨
      ((state.opened = some span.start ∨ ∃ opening ∈ tokens, opening.span.start = span.start) ∧
        ∃ closing ∈ tokens, closing.span.stop = span.stop) := by
  induction tokens generalizing state with
  | nil =>
      obtain rfl := Except.ok.inj h
      exact .inl hs
  | cons found rest ih =>
      rw [List.foldlM_cons] at h
      obtain ⟨next, hstep, hrest⟩ := bind_eq_ok.mp h
      have hbehind : (∃ opening ∈ rest, opening.span.start = span.start) →
          ∃ opening ∈ found :: rest, opening.span.start = span.start :=
        fun ⟨opening, ho, hstart⟩ => ⟨opening, List.mem_cons_of_mem _ ho, hstart⟩
      have hclosing : (∃ closing ∈ rest, closing.span.stop = span.stop) →
          ∃ closing ∈ found :: rest, closing.span.stop = span.stop :=
        fun ⟨closing, hc, hstop⟩ => ⟨closing, List.mem_cons_of_mem _ hc, hstop⟩
      rcases ih hrest with hnext | ⟨hopened, hc⟩
      · cases outcome_step hstep with
        | stays opened spans => exact .inl (spans ▸ hnext)
        | opens file doc hstate word hw hk opened spans => exact .inl (spans ▸ hnext)
        | closes first hb hstate outside spans =>
            rcases spans span hnext with hnext | rfl
            · exact .inl hnext
            · exact .inr ⟨.inl hstate, found, List.mem_cons_self, rfl⟩
      · refine .inr ⟨?_, hclosing hc⟩
        rcases hopened with hopened | ho
        · cases outcome_step hstep with
          | stays opened spans => exact .inl (opened ▸ hopened)
          | opens file doc hstate word hw hk opened spans =>
              exact .inr ⟨found, List.mem_cons_self, Option.some.inj (opened.symm.trans hopened)⟩
          | closes first hb hstate outside spans =>
              obtain ⟨file, rfl⟩ := outside
              simp [State.opened, State.around, Around.opened, Scope.opened] at hopened
        · exact .inr (hbehind ho)

-- A source may end only outside of all blocks.
theorem finish_eq_ok_iff {state : State} {stop : Position} {file : File} :
    finish state stop = .ok file ↔ ∃ doc, state = .declaration (.file file) doc := by
  cases state with
  | declaration scope doc => cases scope <;> simp [finish]
  | blockName kind => cases kind <;> simp [finish]
  | _ => simp [finish]

theorem parseTokens_eq_ok_iff {stream : TokenStream} {file : File} :
    parseTokens stream = .ok file ↔
      ∃ doc, stream.tokens.foldlM step start = .ok (.declaration (.file file) doc) := by
  refine bind_eq_ok.trans ⟨?_, ?_⟩
  · rintro ⟨last, hrun, hend⟩
    obtain ⟨doc, rfl⟩ := finish_eq_ok_iff.mp hend
    exact ⟨doc, hrun⟩
  · rintro ⟨doc, hrun⟩
    exact ⟨_, hrun, finish_eq_ok_iff.mpr ⟨doc, rfl⟩⟩

theorem parse_eq_ok_iff {source : String} {file : File} :
    parse source = .ok file ↔ ∃ ps doc, pieces source.toList = (ps, none) ∧
      (place .start ps).foldlM step start = .ok (.declaration (.file file) doc) := by
  refine bind_eq_ok.trans ⟨?_, ?_⟩
  · rintro ⟨stream, hstream, hparse⟩
    obtain ⟨doc, hrun⟩ := parseTokens_eq_ok_iff.mp hparse
    obtain ⟨ps, hps, rfl⟩ := tokenize_eq_ok.mp hstream
    exact ⟨ps, doc, hps, hrun⟩
  · rintro ⟨ps, doc, hps, hrun⟩
    exact ⟨_, tokenize_of_pieces hps, parseTokens_eq_ok_iff.mpr ⟨doc, hrun⟩⟩

end Codebook.Proto
