import Codebook.Proofs.Proto.Lexing
import Codebook.Proofs.Proto.Truncated.Outermost
import Codebook.Proofs.Result
import Mathlib.Data.List.Basic

namespace Codebook.Proto

-- How far an accepted source has its braces in pairs. The braces of blocks that are kept and of
-- bodies that are passed over are matched one by one. In the rest of what is passed over a brace
-- is one bracket among others, or none at all.

-- Opening braces less closing ones
def surplus (tokens : List Token) : Int :=
  tokens.count (.symbol '\x7b') - tokens.count (.symbol '\x7d')

structure Balanced (tokens : List Token) : Prop where
  noStray : ∀ front, front <+: tokens → 0 ≤ surplus front
  noMissing : surplus tokens = 0

-- The braces that are open where the reader matches them

def Scope.depth : Scope → Nat
  | .file _ => 0
  | .message _ outer => outer.depth + 1

def OpenEnum.depth (block : OpenEnum) : Nat := block.scope.depth + 1

def Return.depth : Return → Nat
  | .declaration scope => scope.depth
  | .value block => block.depth

def State.depth : State → Nat
  | .declaration scope _ | .blockName _ scope _ _ | .blockBrace _ scope _ _ _ => scope.depth
  | .packagePart _ _ | .packageRest _ _ | .packageEnd _ _ => 0
  | .value block _ | .equals block _ | .number block _ | .negative block _ => block.depth
  | .options block _ _ | .insideOptions block _ _ _ _ => block.depth
  | .semicolon block _ _ | .trailing block _ => block.depth
  | .statement back _ _ => back.depth
  | .skippedHead scope _ _ => scope.depth
  | .skippedBody scope _ _ depth => scope.depth + depth

-- A token is read without a look at whether its brace has a partner: in a statement that is passed
-- over, among options, and in front of the body of a declaration that is passed over.
def State.isLoose (state : State) (token : Token) : Bool :=
  match state with
  | .statement _ _ _ | .insideOptions _ _ _ _ _ => true
  | .skippedHead _ _ _ => token != .symbol '\x7b'
  | _ => false

-- The tokens of a run, each with the state in which it is read
def traceFrom (state : State) : List (Located Token) → List (State × Token)
  | [] => []
  | found :: rest =>
    (state, found.value) ::
      match step state found with
      | .ok next => traceFrom next rest
      | .error _ => []

def looseOf (trace : List (State × Token)) : List Token :=
  (trace.filter fun (state, token) => state.isLoose token).map Prod.snd

def matchedOf (trace : List (State × Token)) : List Token :=
  (trace.filter fun (state, token) => !state.isLoose token).map Prod.snd

@[simp] theorem surplus_nil : surplus [] = 0 := rfl

@[simp] theorem surplus_append (front behind : List Token) :
    surplus (front ++ behind) = surplus front + surplus behind := by
  simp only [surplus, List.count_append]
  omega

theorem surplus_cons (token : Token) (rest : List Token) :
    surplus (token :: rest) = surplus [token] + surplus rest :=
  surplus_append [token] rest

-- Every token of a trace is either loose or matched.
theorem surplus_trace (trace : List (State × Token)) :
    surplus (trace.map Prod.snd) = surplus (looseOf trace) + surplus (matchedOf trace) := by
  have hparts : (looseOf trace ++ matchedOf trace).Perm (trace.map Prod.snd) := by
    rw [looseOf, matchedOf, ← List.map_append]
    exact (List.filter_append_perm (fun (state, token) => state.isLoose token) trace).map Prod.snd
  rw [← surplus_append, surplus, surplus, hparts.count_eq, hparts.count_eq]

-- A token that is no brace does not count.
theorem surplus_singleton {token : Token} (ho : token ≠ .symbol '\x7b')
    (hc : token ≠ .symbol '\x7d') : surplus [token] = 0 := by
  simp [surplus, ho, hc]

def Token.isSymbol : Token → Bool
  | symbol _ => true
  | _ => false

theorem surplus_of_isSymbol {token : Token} (h : token.isSymbol = false) :
    surplus [token] = 0 := by
  refine surplus_singleton ?_ ?_ <;> rintro rfl <;> simp [Token.isSymbol] at h

theorem surplus_comment {token : Token} (h : token.isComment) : surplus [token] = 0 := by
  refine surplus_singleton ?_ ?_ <;> rintro rfl <;> simp [Token.isComment] at h

-- The body of a declaration that is passed over is open.
def State.IsOpen : State → Prop
  | .skippedBody _ _ _ depth => 0 < depth
  | _ => True

-- What a step does to the open braces
structure Steps (state : State) (token : Token) (next : State) : Prop where
  isOpen : next.IsOpen
  depth : (next.depth : Int)
    = state.depth + if state.isLoose token then 0 else surplus [token]

theorem Steps.of_depth {state next : State} {token : Token} (ho : next.IsOpen)
    (hd : next.depth = state.depth) (hs : surplus [token] = 0) : Steps state token next where
  isOpen := ho
  depth := by simp [hd, hs]

theorem Steps.of_loose {state next : State} {token : Token} (ho : next.IsOpen)
    (hd : next.depth = state.depth) (hl : state.isLoose token) : Steps state token next where
  isOpen := ho
  depth := by simp [hd, hl]

theorem Steps.opens {state next : State} (ho : next.IsOpen) (hd : next.depth = state.depth + 1)
    (hl : state.isLoose (.symbol '\x7b') = false) : Steps state (.symbol '\x7b') next where
  isOpen := ho
  depth := by
    have hs : surplus [.symbol '\x7b'] = 1 := by decide
    simp [hd, hl, hs]

theorem Steps.closes {state next : State} (ho : next.IsOpen) (hd : state.depth = next.depth + 1)
    (hl : state.isLoose (.symbol '\x7d') = false) : Steps state (.symbol '\x7d') next where
  isOpen := ho
  depth := by
    have hs : surplus [.symbol '\x7d'] = -1 := by decide
    simp only [hd, hl, hs, Bool.false_eq_true, if_false]
    omega

theorem depth_addMessage (added : Message) (scope : Scope) :
    (scope.addMessage added).depth = scope.depth := by
  cases scope <;> rfl

theorem depth_addEnum (added : Enumeration) (scope : Scope) :
    (scope.addEnum added).depth = scope.depth := by
  cases scope <;> rfl

theorem depth_state (back : Return) : back.state.IsOpen ∧ back.state.depth = back.depth := by
  cases back <;> exact ⟨trivial, rfl⟩

theorem steps_stepDeclaration {scope : Scope} {doc : List String} {found : Located Token}
    {next : State} (h : stepDeclaration scope doc found = .ok next) :
    Steps (.declaration scope doc) found.value next := by
  unfold stepDeclaration at h
  split at h
  · rename_i lines scope ht
    cases h
    exact .of_depth trivial rfl (ht ▸ surplus_of_isSymbol rfl)
  · rename_i text scope ht
    cases h
    exact .of_depth trivial rfl (ht ▸ surplus_of_isSymbol rfl)
  · rename_i scope ht
    cases h
    exact .of_depth trivial rfl (ht ▸ surplus_singleton (by decide) (by decide))
  · rename_i word file ht
    have hs : surplus [found.value] = 0 := ht ▸ surplus_of_isSymbol rfl
    simp only [stepTopLevel, unexpected] at h
    split_ifs at h <;> cases h <;> exact .of_depth trivial rfl hs
  · rename_i word inner outer ht
    have hs : surplus [found.value] = 0 := ht ▸ surplus_of_isSymbol rfl
    cases h
    unfold stepMember
    split_ifs <;> exact .of_depth trivial rfl hs
  · rename_i inner outer ht
    cases h
    exact ht ▸ .closes trivial (congrArg (· + 1) (depth_addMessage _ outer).symm) rfl
  · simp [unexpected] at h
  · simp [unexpected] at h

theorem steps_stepValue {block : OpenEnum} {doc : List String} {state : State}
    (hd : state.depth = block.depth) (hl : ∀ token, state.isLoose token = false)
    {found : Located Token} {next : State} (h : stepValue block doc found = .ok next) :
    Steps state found.value next := by
  unfold stepValue at h
  split at h
  · rename_i lines ht
    cases h
    exact .of_depth trivial hd.symm (ht ▸ surplus_of_isSymbol rfl)
  · rename_i text ht
    cases h
    exact .of_depth trivial hd.symm (ht ▸ surplus_of_isSymbol rfl)
  · rename_i ht
    cases h
    exact .of_depth trivial hd.symm (ht ▸ surplus_singleton (by decide) (by decide))
  · rename_i ht
    cases h
    refine ht ▸ .closes trivial ?_ (hl _)
    rw [hd]
    exact congrArg (· + 1) (depth_addEnum _ block.scope).symm
  · rename_i word ht
    have hs : surplus [found.value] = 0 := ht ▸ surplus_of_isSymbol rfl
    split at h <;> cases h <;> exact .of_depth trivial hd.symm hs
  · simp [unexpected] at h

theorem steps_stepSymbol {state here next reached : State} {char : Char} {found : Located Token}
    (h : stepSymbol char here next found = .ok reached)
    (hh : surplus [found.value] = 0 → Steps state found.value here)
    (hn : found.value = .symbol char → Steps state found.value next) :
    Steps state found.value reached := by
  unfold stepSymbol at h
  split_ifs at h with hc hs
  · exact Except.ok.inj h ▸ hh (surplus_comment hc)
  · exact Except.ok.inj h ▸ hn hs
  · simp [unexpected] at h

-- A sign that is no brace is awaited where the depth stays.
theorem steps_stepSign {state here next reached : State} {char : Char} {found : Located Token}
    (h : stepSymbol char here next found = .ok reached) (ho : char ≠ '\x7b') (hc : char ≠ '\x7d')
    (hh : here.IsOpen ∧ here.depth = state.depth) (hn : next.IsOpen ∧ next.depth = state.depth) :
    Steps state found.value reached := by
  refine steps_stepSymbol h (.of_depth hh.1 hh.2) fun ht => .of_depth hn.1 hn.2 ?_
  rw [ht]
  exact surplus_singleton (by simpa using ho) (by simpa using hc)

theorem steps_stepDigits {block : OpenEnum} {name : ValueName} {negative : Bool} {state : State}
    (hd : state.depth = block.depth) {found : Located Token} {next : State}
    (h : stepDigits block name negative found = .ok next) : Steps state found.value next := by
  unfold stepDigits at h
  split at h
  · rename_i text ht
    split at h <;> cases h
    exact .of_depth trivial hd.symm (ht ▸ surplus_of_isSymbol rfl)
  · simp [unexpected] at h

theorem steps_stepStatement {back : Return} {start : Span} {depth : Nat} {found : Located Token}
    {next : State} (h : stepStatement back start depth found = .ok next) :
    Steps (.statement back start depth) found.value next := by
  obtain ⟨hopen, hback⟩ := depth_state back
  unfold stepStatement unexpected at h
  split at h
  · split_ifs at h <;> cases h
    · exact .of_loose hopen hback rfl
    · exact .of_loose trivial rfl rfl
  · split_ifs at h <;> cases h
    · exact .of_loose hopen hback rfl
    · exact .of_loose trivial rfl rfl
  · split_ifs at h <;> cases h <;> exact .of_loose trivial rfl rfl
  · cases h
    exact .of_loose trivial rfl rfl

theorem steps_skippedHead {scope : Scope} {keyword : String} {start : Span} {found : Located Token}
    {next : State} (h : step (.skippedHead scope keyword start) found = .ok next) :
    Steps (.skippedHead scope keyword start) found.value next := by
  simp only [step] at h
  split_ifs at h with ht
  · cases h
    exact ht ▸ .opens Nat.one_pos rfl rfl
  · cases h
    exact .of_loose trivial rfl (bne_iff_ne.mpr ht)

theorem steps_skippedBody {scope : Scope} {keyword : String} {start : Span} {depth : Nat}
    {found : Located Token} {next : State} (hd : 0 < depth)
    (h : step (.skippedBody scope keyword start depth) found = .ok next) :
    Steps (.skippedBody scope keyword start depth) found.value next := by
  simp only [step] at h
  split_ifs at h with hopen hclose hone
  · cases h
    exact hopen ▸ .opens (Nat.succ_pos depth) rfl rfl
  · cases h
    subst hone
    exact hclose ▸ .closes trivial rfl rfl
  · cases h
    refine hclose ▸ .closes (Nat.sub_pos_of_lt (by omega)) ?_ rfl
    simp only [State.depth]
    omega
  · cases h
    exact .of_depth hd rfl (surplus_singleton hopen hclose)

theorem steps_step {state next : State} {found : Located Token} (ho : state.IsOpen)
    (h : step state found = .ok next) : Steps state found.value next := by
  cases state with
  | declaration scope doc => exact steps_stepDeclaration h
  | packagePart f before =>
      simp only [step, unexpected] at h
      split at h
      · rename_i part ht
        cases h
        exact .of_depth trivial rfl (ht ▸ surplus_of_isSymbol rfl)
      · split_ifs at h with hc
        cases h
        exact .of_depth trivial rfl (surplus_comment hc)
  | packageRest f parts =>
      simp only [step] at h
      split_ifs at h with ht
      · cases h
        exact .of_depth trivial rfl (ht ▸ surplus_singleton (by decide) (by decide))
      · exact steps_stepSign h (by decide) (by decide) ⟨trivial, rfl⟩ ⟨trivial, rfl⟩
  | packageEnd f parts =>
      exact steps_stepSign h (by decide) (by decide) ⟨trivial, rfl⟩ ⟨trivial, rfl⟩
  | blockName kind scope keyword doc =>
      simp only [step, unexpected] at h
      split at h
      · rename_i name ht
        cases h
        exact .of_depth trivial rfl (ht ▸ surplus_of_isSymbol rfl)
      · split_ifs at h with hc
        · cases h
          exact .of_depth trivial rfl (surplus_comment hc)
        · split at h <;> cases h
  | blockBrace kind scope keyword doc name =>
      cases kind with
      | message =>
          exact steps_stepSymbol h (.of_depth trivial rfl)
            fun ht => ht ▸ .opens trivial rfl rfl
      | enum =>
          exact steps_stepSymbol h (.of_depth trivial rfl)
            fun ht => ht ▸ .opens trivial rfl rfl
  | value block doc => exact steps_stepValue rfl (fun _ => rfl) h
  | equals block name =>
      exact steps_stepSign h (by decide) (by decide) ⟨trivial, rfl⟩ ⟨trivial, rfl⟩
  | number block name =>
      simp only [step] at h
      split_ifs at h with hc ht
      · cases h
        exact .of_depth trivial rfl (surplus_comment hc)
      · cases h
        exact .of_depth trivial rfl (ht ▸ surplus_singleton (by decide) (by decide))
      · exact steps_stepDigits rfl h
  | negative block name => exact steps_stepDigits rfl h
  | options block name number =>
      simp only [step] at h
      split_ifs at h with ht
      · cases h
        exact .of_depth trivial rfl (ht ▸ surplus_singleton (by decide) (by decide))
      · exact steps_stepSign h (by decide) (by decide) ⟨trivial, rfl⟩ ⟨trivial, rfl⟩
  | insideOptions block name number bracket depth =>
      simp only [step] at h
      split_ifs at h <;> cases h <;> exact .of_loose trivial rfl rfl
  | semicolon block name number =>
      exact steps_stepSign h (by decide) (by decide) ⟨trivial, rfl⟩ ⟨trivial, rfl⟩
  | trailing block value =>
      simp only [step, stepTrailing] at h
      split at h
      · rename_i text ht
        split at h
        · cases h
          exact .of_depth trivial rfl (ht ▸ surplus_of_isSymbol rfl)
        · exact steps_stepValue rfl (fun _ => rfl) h
      · exact steps_stepValue rfl (fun _ => rfl) h
  | statement back start depth => exact steps_stepStatement h
  | skippedHead scope keyword start => exact steps_skippedHead h
  | skippedBody scope keyword start depth => exact steps_skippedBody ho h

theorem traceFrom_take (count : Nat) (state : State) (tokens : List (Located Token)) :
    traceFrom state (tokens.take count) = (traceFrom state tokens).take count := by
  induction tokens generalizing state count with
  | nil => simp [traceFrom]
  | cons found rest ih =>
      cases count with
      | zero => rfl
      | succ count =>
          simp only [List.take_succ_cons, traceFrom]
          cases step state found with
          | ok next => exact congrArg _ (ih count next)
          | error fault => exact congrArg _ List.take_nil.symm

-- A part of a trace from its beginning is the trace of a part of the tokens.
theorem exists_of_prefix_traceFrom {state : State} {tokens : List (Located Token)}
    {met : List (State × Token)} (h : met <+: traceFrom state tokens) :
    ∃ front, front <+: tokens ∧ met = traceFrom state front := by
  refine ⟨tokens.take met.length, List.take_prefix _ _, ?_⟩
  rw [traceFrom_take]
  exact List.prefix_iff_eq_take.mp h

theorem map_snd_traceFrom {tokens : List (Located Token)} {state last : State}
    (h : tokens.foldlM step state = .ok last) :
    (traceFrom state tokens).map Prod.snd = tokens.map Located.value := by
  induction tokens generalizing state with
  | nil => rfl
  | cons found rest ih =>
      rw [List.foldlM_cons] at h
      obtain ⟨next, hstep, hrest⟩ := bind_eq_ok.mp h
      simp only [traceFrom, hstep, List.map_cons, ih hrest]

-- The open braces are counted exactly, apart from those of the loose text.
theorem depth_run {tokens : List (Located Token)} {state last : State} (ho : state.IsOpen)
    (h : tokens.foldlM step state = .ok last) :
    (last.depth : Int) = state.depth + surplus (matchedOf (traceFrom state tokens)) := by
  induction tokens generalizing state with
  | nil => exact Except.ok.inj h ▸ (Int.add_zero _).symm
  | cons found rest ih =>
      rw [List.foldlM_cons] at h
      obtain ⟨next, hstep, hrest⟩ := bind_eq_ok.mp h
      obtain ⟨hopen, hdepth⟩ := steps_step ho hstep
      rw [ih hopen hrest, hdepth]
      by_cases hl : state.isLoose found.value
      · have hm : matchedOf (traceFrom state (found :: rest))
            = matchedOf (traceFrom next rest) := by
          simp [traceFrom, hstep, matchedOf, hl]
        simp [hl, hm]
      · have hm : matchedOf (traceFrom state (found :: rest))
            = found.value :: matchedOf (traceFrom next rest) := by
          simp [traceFrom, hstep, matchedOf, hl]
        rw [hm, surplus_cons found.value (matchedOf _), if_neg hl, Int.add_assoc]

-- At every place of a source that is read to its end
theorem surplus_run {tokens front : List (Located Token)} {last : State}
    (h : tokens.foldlM step start = .ok last) (hp : front <+: tokens) :
    ∃ state, front.foldlM step start = .ok state ∧
      surplus (matchedOf (traceFrom start front)) = state.depth ∧
      surplus (front.map Located.value)
        = state.depth + surplus (looseOf (traceFrom start front)) := by
  obtain ⟨behind, rfl⟩ := hp
  rw [List.foldlM_append] at h
  obtain ⟨state, hfront, -⟩ := bind_eq_ok.mp h
  have hopen : start.IsOpen := trivial
  have hdepth := depth_run hopen hfront
  have hstart : (start.depth : Int) = 0 := rfl
  rw [hstart, Int.zero_add] at hdepth
  refine ⟨state, hfront, hdepth.symm, ?_⟩
  rw [← map_snd_traceFrom hfront, surplus_trace, hdepth, Int.add_comm]

-- The braces of an accepted source are in pairs outside of loose text. All of them are exactly when
-- the braces of loose text never close more than is open and close what they open; they do so
-- whenever loose text has its own braces in pairs.
theorem braces_balanced_iff {source : String} {file : File} (h : parse source = .ok file) :
    ∃ stream, tokenize source = .ok stream ∧
      Balanced (matchedOf (traceFrom start stream.tokens)) ∧
      (Balanced (stream.tokens.map Located.value) ↔
        (∀ front state, front <+: stream.tokens → front.foldlM step start = .ok state →
          0 ≤ state.depth + surplus (looseOf (traceFrom start front))) ∧
        surplus (looseOf (traceFrom start stream.tokens)) = 0) ∧
      (Balanced (looseOf (traceFrom start stream.tokens)) →
        Balanced (stream.tokens.map Located.value)) := by
  obtain ⟨ps, doc, hps, hrun⟩ := parse_eq_ok_iff.mp h
  have hend {state : State} (hs : (place .start ps).foldlM step start = .ok state) :
      state.depth = 0 := by
    obtain rfl := Except.ok.inj (hs.symm.trans hrun)
    rfl
  have hiff : Balanced ((place .start ps).map Located.value) ↔
      (∀ front state, front <+: place .start ps → front.foldlM step start = .ok state →
        0 ≤ state.depth + surplus (looseOf (traceFrom start front))) ∧
      surplus (looseOf (traceFrom start (place .start ps))) = 0 := by
    obtain ⟨last, hlast, -, htotal⟩ := surplus_run hrun (List.prefix_refl _)
    rw [hend hlast, Int.natCast_zero, Int.zero_add] at htotal
    constructor
    · intro hb
      refine ⟨fun front state hp hs => ?_, htotal ▸ hb.noMissing⟩
      obtain ⟨reached, hreached, -, hsurplus⟩ := surplus_run hrun hp
      obtain rfl := Except.ok.inj (hs.symm.trans hreached)
      exact hsurplus ▸ hb.noStray _ (hp.map _)
    · rintro ⟨hfronts, hnone⟩
      refine ⟨fun front hp => ?_, htotal.trans hnone⟩
      obtain ⟨read, hread, rfl⟩ := List.prefix_map_iff.mp hp
      obtain ⟨state, hs, -, hsurplus⟩ := surplus_run hrun hread
      exact hsurplus ▸ hfronts read state hread hs
  refine ⟨_, tokenize_of_pieces hps, ?_, hiff, fun hl => hiff.mpr ⟨?_, hl.noMissing⟩⟩
  · refine ⟨fun front hp => ?_, ?_⟩
    · obtain ⟨kept, hkept, rfl⟩ := List.prefix_map_iff.mp hp
      obtain ⟨met, hmet, rfl⟩ := List.prefix_filter_iff.mp hkept
      obtain ⟨read, hread, rfl⟩ := exists_of_prefix_traceFrom hmet
      obtain ⟨state, -, hmatched, -⟩ := surplus_run hrun hread
      exact hmatched ▸ Int.natCast_nonneg _
    · obtain ⟨last, hlast, hmatched, -⟩ := surplus_run hrun (List.prefix_refl _)
      rw [hmatched, hend hlast, Int.natCast_zero]
  · intro front state hp hs
    have hloose : looseOf (traceFrom start front)
        <+: looseOf (traceFrom start (place .start ps)) := by
      rw [List.prefix_iff_eq_take.mp hp, traceFrom_take]
      exact ((List.take_prefix _ _).filter _).map _
    have hnone := hl.noStray _ hloose
    omega

-- A brace is closed in front of the body of a service before any is open. Without it the braces
-- are in pairs.
theorem braces_part_in_front_of_body :
    (∃ file stream, parse "service S \x7d \x7b\x7d" = .ok file ∧
        tokenize "service S \x7d \x7b\x7d" = .ok stream ∧
        ¬ Balanced (stream.tokens.map Located.value)) ∧
      ∃ file stream, parse "service S \x7b\x7d" = .ok file ∧
        tokenize "service S \x7b\x7d" = .ok stream ∧
        Balanced (stream.tokens.map Located.value) := by
  have hread (source : String)
      (h : (parse source).toOption.map File.package = some none) :
      ∃ file, parse source = .ok file := by
    obtain ⟨file, hfile, -⟩ := Option.map_eq_some_iff.mp h
    exact ⟨file, toOption_eq_some.mp hfile⟩
  obtain ⟨first, hfirst⟩ := hread "service S \x7d \x7b\x7d" (by decide +kernel)
  obtain ⟨second, hsecond⟩ := hread "service S \x7b\x7d" (by decide +kernel)
  obtain ⟨stray, hstray, -, hiff, -⟩ := braces_balanced_iff hfirst
  obtain ⟨even, heven, -, -, hbalanced⟩ := braces_balanced_iff hsecond
  refine ⟨⟨first, stray, hfirst, hstray, fun hb => ?_⟩, second, even, hsecond, heven,
    hbalanced ?_⟩
  · have hloose : (tokenize "service S \x7d \x7b\x7d").toOption.map
        (fun stream => looseOf (traceFrom start stream.tokens))
          = some [.word "S", .symbol '\x7d'] := by
      decide +kernel
    rw [hstray] at hloose
    have hnone := (hiff.mp hb).2
    rw [show looseOf (traceFrom start stray.tokens) = [.word "S", .symbol '\x7d'] from
      Option.some.inj hloose] at hnone
    exact absurd hnone (by decide)
  · have hloose : (tokenize "service S \x7b\x7d").toOption.map
        (fun stream => looseOf (traceFrom start stream.tokens)) = some [.word "S"] := by
      decide +kernel
    rw [heven] at hloose
    rw [show looseOf (traceFrom start even.tokens) = [.word "S"] from Option.some.inj hloose]
    refine ⟨fun front hp => ?_, by decide⟩
    rcases List.prefix_cons_iff.mp hp with rfl | ⟨rest, rfl, hrest⟩
    · decide
    · obtain rfl := List.prefix_nil.mp hrest
      decide

end Codebook.Proto
