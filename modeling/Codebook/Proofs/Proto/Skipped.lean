import Codebook.Proofs.Result
import Codebook.Proto.Parser
import Mathlib.Data.List.Infix
import Mathlib.Tactic.SplitIfs

namespace Codebook.Proto

-- Where the reader stops that passes over tokens. It counts open brackets, and one count does for
-- all kinds of them where they are properly nested.

-- Kinds of brackets, each by what opens and what closes it
def braces : List (Char × Char) := [('{', '}')]

def squares : List (Char × Char) := [('[', ']')]

def allBrackets : List (Char × Char) := [('{', '}'), ('[', ']'), ('(', ')'), ('<', '>')]

def Token.IsFree (kinds : List (Char × Char)) (token : Token) : Prop :=
  ∀ kind ∈ kinds, token ≠ .symbol kind.1 ∧ token ≠ .symbol kind.2

-- Every bracket of some kinds has its partner in the same group.
inductive Nested (kinds : List (Char × Char)) : List Token → Prop
  | nil : Nested kinds []
  | token {token : Token} {rest : List Token} (ht : token.IsFree kinds) (hr : Nested kinds rest) :
      Nested kinds (token :: rest)
  | group {kind : Char × Char} {inner rest : List Token} (hk : kind ∈ kinds)
      (hi : Nested kinds inner) (hr : Nested kinds rest) :
      Nested kinds (.symbol kind.1 :: (inner ++ .symbol kind.2 :: rest))

-- A semicolon outside of all brackets, or the brace that closes a group outside of all brackets
def EndsStatement (tokens : List Token) : Prop :=
  ∃ front, Nested allBrackets front ∧
    (tokens = front ++ [.symbol ';'] ∨
      ∃ body, Nested allBrackets body ∧ tokens = front ++ .symbol '{' :: (body ++ [.symbol '}']))

-- A statement goes to the first place where one ends.
structure IsStatement (tokens : List Token) : Prop where
  ends : EndsStatement tokens
  first : ∀ front, front <+: tokens → EndsStatement front → front = tokens

-- What follows the keyword of a declaration with a body
def IsHeadAndBody (tokens : List Token) : Prop :=
  ∃ head body, .symbol '{' ∉ head ∧ Nested braces body ∧
    tokens = head ++ .symbol '{' :: (body ++ [.symbol '}'])

def IsOptionList (tokens : List Token) : Prop :=
  ∃ options, Nested squares options ∧ tokens = .symbol '[' :: (options ++ [.symbol ']'])

-- Strings and comments
def Token.isQuiet : Token → Bool
  | .quoted _ | .doc _ | .remark _ => true
  | _ => false

def State.skips : State → Bool
  | .statement _ _ _ | .insideOptions _ _ _ _ _ | .skippedHead _ _ _ | .skippedBody _ _ _ _ => true
  | _ => false

-- Skipping begins at the first of some tokens and stops directly behind the last.
structure Skips (before : State) (tokens : List (Located Token)) (behind : State) : Prop where
  reads : ∀ more, (tokens ++ more).foldlM step before = more.foldlM step behind
  inside : ∀ front, front <+: tokens → front ≠ [] → front ≠ tokens →
    ∃ state, front.foldlM step before = .ok state ∧ state.skips

-- A run of which every token leads to a state that skips
inductive Within : State → List (Located Token) → State → Prop
  | nil {state : State} : Within state [] state
  | cons {state next last : State} {found : Located Token} {rest : List (Located Token)}
      (hstep : step state found = .ok next) (hs : next.skips) (hr : Within next rest last) :
      Within state (found :: rest) last

theorem Nested.append {kinds : List (Char × Char)} {front behind : List Token}
    (hf : Nested kinds front) (hb : Nested kinds behind) : Nested kinds (front ++ behind) := by
  induction hf with
  | nil => exact hb
  | token ht _ ih => exact .token ht ih
  | group hk hi _ _ ih =>
      rw [List.cons_append, List.append_assoc, List.cons_append]
      exact .group hk hi ih

theorem EndsStatement.append {front tokens : List Token} (hf : Nested allBrackets front)
    (h : EndsStatement tokens) : EndsStatement (front ++ tokens) := by
  obtain ⟨first, hfirst, rfl | ⟨body, hbody, rfl⟩⟩ := h
  · exact ⟨front ++ first, hf.append hfirst, .inl (List.append_assoc _ _ _).symm⟩
  · exact ⟨front ++ first, hf.append hfirst, .inr ⟨body, hbody, (List.append_assoc _ _ _).symm⟩⟩

namespace Within

theorem append {state between last : State} {front behind : List (Located Token)}
    (hf : Within state front between) (hb : Within between behind last) :
    Within state (front ++ behind) last := by
  induction hf with
  | nil => exact hb
  | cons hstep hs _ ih => exact .cons hstep hs (ih hb)

theorem exists_of_append {state last : State} {front behind : List (Located Token)}
    (h : Within state (front ++ behind) last) :
    ∃ between, Within state front between ∧ Within between behind last := by
  induction front generalizing state with
  | nil => exact ⟨state, .nil, h⟩
  | cons found rest ih =>
      cases h with
      | cons hstep hs hr =>
          obtain ⟨between, hfront, hbehind⟩ := ih hr
          exact ⟨between, .cons hstep hs hfront, hbehind⟩

theorem foldlM_eq {state last : State} {tokens : List (Located Token)}
    (h : Within state tokens last) : tokens.foldlM step state = .ok last := by
  induction h with
  | nil => rfl
  | cons hstep _ _ ih =>
      rw [foldlM_cons_of_eq_ok hstep]
      exact ih

theorem skips {state last : State} {tokens : List (Located Token)} (h : Within state tokens last)
    (hne : tokens ≠ []) : last.skips := by
  induction h with
  | nil => exact absurd rfl hne
  | @cons _ _ _ _ rest _ hs hr ih =>
      cases rest with
      | nil =>
          cases hr
          exact hs
      | cons => exact ih (List.cons_ne_nil _ _)

-- A run that skips at every place
theorem of_prefixes {state last : State} {tokens : List (Located Token)}
    (h : tokens.foldlM step state = .ok last)
    (hs : ∀ front, front <+: tokens → front ≠ [] →
      ∃ reached, front.foldlM step state = .ok reached ∧ reached.skips) :
    Within state tokens last := by
  induction tokens generalizing state with
  | nil =>
      obtain rfl := Except.ok.inj h
      exact .nil
  | cons found rest ih =>
      obtain ⟨next, hstep, hrest⟩ := foldlM_cons_eq_ok.mp h
      have hbehind (front : List (Located Token)) (hf : front <+: rest) :
          ∃ reached, front.foldlM step next = .ok reached ∧ reached.skips := by
        obtain ⟨reached, hreached, hskips⟩ :=
          hs (found :: front) (List.cons_prefix_cons.mpr ⟨rfl, hf⟩) (List.cons_ne_nil _ _)
        rw [foldlM_cons_of_eq_ok hstep] at hreached
        exact ⟨reached, hreached, hskips⟩
      obtain ⟨same, hsame, hskips⟩ := hbehind [] (List.nil_prefix)
      obtain rfl := Except.ok.inj hsame
      exact .cons hstep hskips (ih hrest fun front hf _ => hbehind front hf)

end Within

-- The last token is the one that ends the skipping.
theorem skips_iff {before behind : State} {front : List (Located Token)} {last : Located Token} :
    Skips before (front ++ [last]) behind ↔
      ∃ state, Within before front state ∧ step state last = .ok behind := by
  constructor
  · intro h
    have hrun := h.reads []
    rw [List.append_nil] at hrun
    obtain ⟨state, hstate, hlast⟩ := foldlM_append_eq_ok.mp hrun
    obtain ⟨next, hstep, hnext⟩ := foldlM_cons_eq_ok.mp hlast
    obtain rfl := Except.ok.inj hnext
    refine ⟨state, .of_prefixes hstate fun part hp hne => ?_, hstep⟩
    refine h.inside part (hp.trans (List.prefix_append _ _)) hne fun he => ?_
    have hlength := hp.length_le
    rw [he, List.length_append, List.length_singleton] at hlength
    omega
  · rintro ⟨state, hfront, hlast⟩
    refine ⟨fun more => ?_, fun part hp hne hpart => ?_⟩
    · rw [List.append_assoc, foldlM_append_of_eq_ok hfront.foldlM_eq]
      exact foldlM_cons_of_eq_ok hlast more
    · have hpart : part <+: front := by
        rcases List.prefix_concat_iff.mp hp with he | hp
        · exact absurd he hpart
        · exact hp
      obtain ⟨behind, rfl⟩ := hpart
      obtain ⟨reached, hreached, -⟩ := hfront.exists_of_append
      exact ⟨reached, hreached.foldlM_eq, hreached.skips hne⟩

-- A string or a comment leaves a state that skips as it is.
theorem step_quiet {state : State} (hs : state.skips) {found : Located Token}
    (hq : found.value.isQuiet) : step state found = .ok state := by
  obtain ⟨value, covered⟩ := found
  cases value with
  | word | number | symbol => simp [Token.isQuiet] at hq
  | quoted | doc | remark =>
      cases state with
      | statement | insideOptions | skippedHead | skippedBody => rfl
      | _ => simp [State.skips] at hs

theorem skips_quiet_iff {before behind : State} {front back : List (Located Token)}
    {found : Located Token} (hf : front = [] → before.skips) (hb : back ≠ [])
    (hq : found.value.isQuiet) :
    Skips before (front ++ found :: back) behind ↔ Skips before (front ++ back) behind := by
  obtain ⟨more, last, rfl⟩ := (List.eq_nil_or_concat' back).resolve_left hb
  rw [← List.append_assoc, skips_iff, ← List.cons_append, ← List.append_assoc, skips_iff]
  have hskips {between : State} (hfront : Within before front between) : between.skips := by
    rcases eq_or_ne front [] with rfl | hne
    · cases hfront
      exact hf rfl
    · exact hfront.skips hne
  refine exists_congr fun state => and_congr_left fun _ => ⟨fun h => ?_, fun h => ?_⟩
  · obtain ⟨between, hfront, hbehind⟩ := h.exists_of_append
    cases hbehind with
    | cons hstep _ hr =>
        obtain rfl := Except.ok.inj ((step_quiet (hskips hfront) hq).symm.trans hstep)
        exact hfront.append hr
  · obtain ⟨between, hfront, hbehind⟩ := h.exists_of_append
    have hbetween := hskips hfront
    exact hfront.append (.cons (step_quiet hbetween hq) hbetween hbehind)

-- Any of what is quiet can be left out.
theorem skips_filter_iff {before behind : State} {front rest : List (Located Token)}
    {last : Located Token} {p : Located Token → Bool} (hf : front = [] → before.skips)
    (hp : ∀ found, p found = false → found.value.isQuiet) :
    Skips before (front ++ (rest ++ [last])) behind ↔
      Skips before (front ++ (rest.filter p ++ [last])) behind := by
  induction rest generalizing front with
  | nil => rfl
  | cons found rest ih =>
      cases hq : p found with
      | false =>
          rw [List.filter_cons_of_neg (by simp [hq]), ← ih hf, List.cons_append]
          exact skips_quiet_iff hf (by simp) (hp found hq)
      | true =>
          have hfound := @ih (front ++ [found]) (by simp)
          rw [List.filter_cons_of_pos hq]
          simpa only [List.append_assoc, List.cons_append, List.nil_append] using hfound

theorem Skips.cons {before next behind : State} {first : Located Token}
    {rest : List (Located Token)} (hstep : step before first = .ok next) (hs : next.skips)
    (hne : rest ≠ []) (h : Skips next rest behind) : Skips before (first :: rest) behind := by
  obtain ⟨front, last, rfl⟩ := (List.eq_nil_or_concat' rest).resolve_left hne
  obtain ⟨state, hfront, hlast⟩ := skips_iff.mp h
  rw [← List.cons_append]
  exact skips_iff.mpr ⟨state, .cons hstep hs hfront, hlast⟩

-- States that differ in a count of open brackets. What is done at the count zero is not said.
structure Counts (kinds : List (Char × Char)) (state : Nat → State) : Prop where
  skips : ∀ depth, (state depth).skips
  opens : ∀ kind ∈ kinds, ∀ depth covered,
    step (state (depth + 1)) ⟨.symbol kind.1, covered⟩ = .ok (state (depth + 2))
  closes : ∀ kind ∈ kinds, ∀ depth covered,
    step (state (depth + 2)) ⟨.symbol kind.2, covered⟩ = .ok (state (depth + 1))
  passes : ∀ depth found, found.value.IsFree kinds →
    step (state (depth + 1)) found = .ok (state (depth + 1))

-- The count comes back to what it was, whatever is open around.
theorem Counts.within_nested {kinds : List (Char × Char)} {state : Nat → State}
    (hc : Counts kinds state) {tokens : List (Located Token)}
    (h : Nested kinds (tokens.map Located.value)) (depth : Nat) :
    Within (state (depth + 1)) tokens (state (depth + 1)) := by
  generalize hv : tokens.map Located.value = values at h
  induction h generalizing tokens depth with
  | nil =>
      obtain rfl := List.map_eq_nil_iff.mp hv
      exact .nil
  | token ht _ ih =>
      obtain ⟨found, rest, rfl, rfl, hrest⟩ := List.map_eq_cons_iff.mp hv
      exact .cons (hc.passes depth found ht) (hc.skips _) (ih depth hrest)
  | group hk _ _ ihinner ihrest =>
      obtain ⟨opening, behind, rfl, hopening, hbehind⟩ := List.map_eq_cons_iff.mp hv
      obtain ⟨inner, more, rfl, hinner, hmore⟩ := List.map_eq_append_iff.mp hbehind
      obtain ⟨closing, rest, rfl, hclosing, hrest⟩ := List.map_eq_cons_iff.mp hmore
      obtain ⟨_, first⟩ := opening
      obtain ⟨_, last⟩ := closing
      subst hopening hclosing
      refine .cons (hc.opens _ hk depth first) (hc.skips _) ?_
      exact (ihinner (depth + 1) hinner).append
        (.cons (hc.closes _ hk depth last) (hc.skips _) (ihrest depth hrest))

theorem counts_options (block : OpenEnum) (name : ValueName) (number : Int) (bracket : Span) :
    Counts squares (.insideOptions block name number bracket) where
  skips _ := rfl
  opens kind hk depth covered := by
    obtain rfl := List.mem_singleton.mp hk
    rfl
  closes kind hk depth covered := by
    obtain rfl := List.mem_singleton.mp hk
    simp [step]
  passes depth found ht := by
    obtain ⟨hopen, hclose⟩ := ht _ (List.mem_singleton_self _)
    simp only [step, if_neg hopen, if_neg hclose]

theorem counts_body (scope : Scope) (keyword : String) (start : Span) :
    Counts braces (.skippedBody scope keyword start) where
  skips _ := rfl
  opens kind hk depth covered := by
    obtain rfl := List.mem_singleton.mp hk
    rfl
  closes kind hk depth covered := by
    obtain rfl := List.mem_singleton.mp hk
    simp [step]
  passes depth found ht := by
    obtain ⟨hopen, hclose⟩ := ht _ (List.mem_singleton_self _)
    simp only [step, if_neg hopen, if_neg hclose]

-- A bracket is counted in a statement at every depth, and a semicolon only ends it outside of all.

theorem step_statement_opens (back : Return) (start : Span) (depth : Nat) {kind : Char × Char}
    (hk : kind ∈ allBrackets) (covered : Span) :
    step (.statement back start depth) ⟨.symbol kind.1, covered⟩
      = .ok (.statement back start (depth + 1)) := by
  simp only [allBrackets, List.mem_cons, List.not_mem_nil, or_false] at hk
  rcases hk with rfl | rfl | rfl | rfl <;> rfl

theorem step_statement_closes (back : Return) (start : Span) {depth : Nat} {kind : Char × Char}
    (hk : kind ∈ allBrackets) (hd : kind ∈ braces → depth ≠ 0) (covered : Span) :
    step (.statement back start (depth + 1)) ⟨.symbol kind.2, covered⟩
      = .ok (.statement back start depth) := by
  simp only [allBrackets, List.mem_cons, List.not_mem_nil, or_false] at hk
  rcases hk with rfl | rfl | rfl | rfl
  · have hne : depth ≠ 0 := hd (List.mem_singleton_self _)
    simp [step, stepStatement, hne]
  all_goals rfl

theorem step_statement_free (back : Return) (start : Span) {depth : Nat} {found : Located Token}
    (ht : found.value.IsFree allBrackets) (hs : depth = 0 → found.value ≠ .symbol ';') :
    step (.statement back start depth) found = .ok (.statement back start depth) := by
  have hother (c : Char) (hc : c ∈ ['{', '[', '(', '<', '}', ']', ')', '>']) :
      found.value ≠ .symbol c := by
    simp only [allBrackets, Token.IsFree, List.forall_mem_cons] at ht
    simp only [List.mem_cons, List.not_mem_nil, or_false] at hc
    rcases hc with rfl | rfl | rfl | rfl | rfl | rfl | rfl | rfl <;> simp [ht]
  simp only [step, stepStatement]
  split
  · rename_i hv
    exact if_neg fun hd => hs hd hv
  · rename_i hv
    exact absurd hv (hother '}' (by decide))
  · rename_i c _ _ hv
    have hopening : c ∉ ['{', '[', '(', '<'] := fun hc =>
      hother c (List.mem_append_left ['}', ']', ')', '>'] hc) hv
    have hclosing : c ∉ [']', ')', '>'] := fun hc =>
      hother c (List.mem_append_right ['{', '[', '(', '<', '}'] hc) hv
    rw [if_neg hopening, if_neg hclosing]
  · rfl

theorem counts_statement (back : Return) (start : Span) :
    Counts allBrackets (.statement back start) where
  skips _ := rfl
  opens _ hk depth := step_statement_opens back start (depth + 1) hk
  closes _ hk depth := step_statement_closes back start hk fun _ => Nat.succ_ne_zero depth
  passes depth _ ht :=
    step_statement_free back start ht fun hd => absurd hd (Nat.succ_ne_zero depth)

-- Tokens behind which a statement goes on
inductive GoesOn : List Token → Prop
  | nil : GoesOn []
  | token {token : Token} {rest : List Token} (ht : token.IsFree allBrackets)
      (hs : token ≠ .symbol ';') (hr : GoesOn rest) : GoesOn (token :: rest)
  | group {kind : Char × Char} {inner rest : List Token} (hk : kind ∈ allBrackets)
      (hb : kind ∉ braces) (hi : Nested allBrackets inner) (hr : GoesOn rest) :
      GoesOn (.symbol kind.1 :: (inner ++ .symbol kind.2 :: rest))

theorem goesOn_of_nested {tokens : List Token} (h : Nested allBrackets tokens)
    (hf : ∀ front, front <+: tokens → ¬ EndsStatement front) : GoesOn tokens := by
  induction h with
  | nil => exact .nil
  | @token token rest ht _ ih =>
      have hone : Nested allBrackets [token] := .token ht .nil
      refine .token ht ?_ (ih fun front hp he => ?_)
      · rintro rfl
        exact hf [.symbol ';'] ⟨rest, rfl⟩ ⟨[], .nil, .inl rfl⟩
      · exact hf (token :: front) (List.cons_prefix_cons.mpr ⟨rfl, hp⟩) (he.append hone)
  | @group kind inner rest hk hi _ _ ih =>
      have hgroup : Nested allBrackets (.symbol kind.1 :: (inner ++ [.symbol kind.2])) :=
        .group hk hi .nil
      refine .group hk ?_ hi (ih fun front hp he => ?_)
      · intro hb
        obtain rfl := List.mem_singleton.mp hb
        exact hf (.symbol '{' :: (inner ++ [.symbol '}'])) ⟨rest, by simp⟩
          ⟨[], .nil, .inr ⟨inner, hi, rfl⟩⟩
      · obtain ⟨more, rfl⟩ := hp
        exact hf _ ⟨more, by simp⟩ (he.append hgroup)

theorem within_goesOn (back : Return) (start : Span) {tokens : List (Located Token)}
    (h : GoesOn (tokens.map Located.value)) :
    Within (.statement back start 0) tokens (.statement back start 0) := by
  generalize hv : tokens.map Located.value = values at h
  induction h generalizing tokens with
  | nil =>
      obtain rfl := List.map_eq_nil_iff.mp hv
      exact .nil
  | token ht hs _ ih =>
      obtain ⟨found, rest, rfl, rfl, hrest⟩ := List.map_eq_cons_iff.mp hv
      exact .cons (step_statement_free back start ht fun _ => hs) rfl (ih hrest)
  | group hk hb hi _ ih =>
      obtain ⟨⟨_, first⟩, behind, rfl, rfl, hbehind⟩ := List.map_eq_cons_iff.mp hv
      obtain ⟨inner, more, rfl, rfl, hmore⟩ := List.map_eq_append_iff.mp hbehind
      obtain ⟨⟨_, last⟩, rest, rfl, rfl, hrest⟩ := List.map_eq_cons_iff.mp hmore
      refine .cons (step_statement_opens back start 0 hk first) rfl ?_
      refine ((counts_statement back start).within_nested hi 0).append ?_
      exact .cons (step_statement_closes back start hk (fun h => absurd h hb) last) rfl
        (ih hrest)

theorem GoesOn.append {front behind : List Token} (hf : GoesOn front) (hb : GoesOn behind) :
    GoesOn (front ++ behind) := by
  induction hf with
  | nil => exact hb
  | token ht hs _ ih => exact .token ht hs ih
  | group hk hn hi _ ih =>
      rw [List.cons_append, List.append_assoc, List.cons_append]
      exact .group hk hn hi ih

theorem GoesOn.nested {tokens : List Token} (h : GoesOn tokens) : Nested allBrackets tokens := by
  induction h with
  | nil => exact .nil
  | token ht _ _ ih => exact .token ht ih
  | group hk _ hi _ ih => exact .group hk hi ih

theorem skips_goesOn (back : Return) (start : Span) {front : List (Located Token)}
    {last : Located Token} (hf : GoesOn (front.map Located.value))
    (hl : last.value = .symbol ';') :
    Skips (.statement back start 0) (front ++ [last]) back.state := by
  refine skips_iff.mpr ⟨.statement back start 0, within_goesOn back start hf, ?_⟩
  simp [step, stepStatement, hl]

-- A statement goes on up to the semicolon or the group of braces that ends it.
theorem IsStatement.goesOn {tokens : List Token} (h : IsStatement tokens) :
    ∃ front, GoesOn front ∧ (tokens = front ++ [.symbol ';'] ∨
      ∃ body, Nested allBrackets body ∧
        tokens = front ++ .symbol '{' :: (body ++ [.symbol '}'])) := by
  obtain ⟨front, hfront, hends⟩ := h.ends
  have hshorter : front <+: tokens ∧ front.length < tokens.length := by
    rcases hends with rfl | ⟨body, -, rfl⟩
    · exact ⟨List.prefix_append _ _, by simp⟩
    · exact ⟨List.prefix_append _ _, by simp⟩
  refine ⟨front, goesOn_of_nested hfront fun part hp he => ?_, hends⟩
  have hlength := hp.length_le
  rw [h.first part (hp.trans hshorter.1) he] at hlength
  exact absurd hlength (Nat.not_le.mpr hshorter.2)

theorem exists_group {opening closing : Token} {body : List Token} {tokens : List (Located Token)}
    (h : tokens.map Located.value = opening :: (body ++ [closing])) :
    ∃ first inner last, tokens = first :: (inner ++ [last]) ∧ first.value = opening ∧
      inner.map Located.value = body ∧ last.value = closing := by
  obtain ⟨first, behind, rfl, hfirst, hbehind⟩ := List.map_eq_cons_iff.mp h
  obtain ⟨inner, ending, rfl, hinner, hending⟩ := List.map_eq_append_iff.mp hbehind
  obtain ⟨last, nothing, rfl, hlast, hnothing⟩ := List.map_eq_cons_iff.mp hending
  obtain rfl := List.map_eq_nil_iff.mp hnothing
  exact ⟨first, inner, last, rfl, hfirst, hinner, hlast⟩

theorem skips_statement (back : Return) (start : Span) {name : String}
    {rest : List (Located Token)} (h : IsStatement (.word name :: rest.map Located.value)) :
    Skips (.statement back start 0) rest back.state := by
  obtain ⟨front, hgoes, hends⟩ := h.goesOn
  cases hgoes with
  | nil => rcases hends with he | ⟨_, -, he⟩ <;> simp at he
  | group => rcases hends with he | ⟨_, -, he⟩ <;> simp at he
  | token _ _ hgoes =>
      rcases hends with he | ⟨body, hbody, he⟩
      · obtain ⟨init, ending, rfl, rfl, hending⟩ := List.map_eq_append_iff.mp (List.cons.inj he).2
        obtain ⟨semicolon, nothing, rfl, hsemicolon, hnothing⟩ := List.map_eq_cons_iff.mp hending
        obtain rfl := List.map_eq_nil_iff.mp hnothing
        exact skips_goesOn back start hgoes hsemicolon
      · obtain ⟨init, ending, rfl, rfl, hending⟩ := List.map_eq_append_iff.mp (List.cons.inj he).2
        obtain ⟨brace, inner, closing, rfl, hbrace, rfl, hclosing⟩ := exists_group hending
        have hopens : step (.statement back start 0) brace = .ok (.statement back start 1) := by
          simp [step, stepStatement, hbrace]
        have hinside : Within (.statement back start 0) (brace :: inner)
            (.statement back start 1) :=
          .cons hopens rfl ((counts_statement back start).within_nested hbody 0)
        rw [← List.cons_append, ← List.append_assoc]
        refine skips_iff.mpr ⟨.statement back start 1, ?_, ?_⟩
        · exact (within_goesOn back start hgoes).append hinside
        · simp [step, stepStatement, hclosing]

theorem skips_headAndBody (scope : Scope) (keyword : String) (start : Span)
    {tokens : List (Located Token)} (h : IsHeadAndBody (tokens.map Located.value)) :
    Skips (.skippedHead scope keyword start) tokens (.declaration scope []) := by
  obtain ⟨head, body, hhead, hbody, he⟩ := h
  obtain ⟨front, ending, rfl, rfl, hending⟩ := List.map_eq_append_iff.mp he
  obtain ⟨brace, inner, closing, rfl, hbrace, rfl, hclosing⟩ := exists_group hending
  have hfront : Within (.skippedHead scope keyword start) front
      (.skippedHead scope keyword start) := by
    clear he
    induction front with
    | nil => exact .nil
    | cons found rest ih =>
        obtain ⟨hfound, hrest⟩ := not_or.mp (mt List.mem_cons.mpr hhead)
        have hstep : step (.skippedHead scope keyword start) found
            = .ok (.skippedHead scope keyword start) := by
          simp only [step, if_neg (Ne.symm hfound)]
        exact .cons hstep rfl (ih hrest)
  have hopens : step (.skippedHead scope keyword start) brace
      = .ok (.skippedBody scope keyword start 1) := by
    simp only [step, hbrace, if_true]
  have hinside : Within (.skippedHead scope keyword start) (brace :: inner)
      (.skippedBody scope keyword start 1) :=
    .cons hopens rfl ((counts_body scope keyword start).within_nested hbody 0)
  rw [← List.cons_append, ← List.append_assoc]
  refine skips_iff.mpr ⟨.skippedBody scope keyword start 1, hfront.append hinside, ?_⟩
  simp [step, hclosing]

theorem skips_optionList (block : OpenEnum) (name : ValueName) (number : Int)
    {tokens : List (Located Token)} (h : IsOptionList (tokens.map Located.value)) :
    Skips (.options block name number) tokens (.semicolon block name number) := by
  obtain ⟨options, hoptions, he⟩ := h
  obtain ⟨bracket, inner, closing, rfl, hbracket, rfl, hclosing⟩ := exists_group he
  have hopens : step (.options block name number) bracket
      = .ok (.insideOptions block name number bracket.span 1) := by
    simp only [step, hbracket, if_true]
  rw [← List.cons_append]
  refine skips_iff.mpr ⟨.insideOptions block name number bracket.span 1, ?_, ?_⟩
  · exact .cons hopens rfl
      ((counts_options block name number bracket.span).within_nested hoptions 0)
  · simp [step, hclosing]

theorem endsStatement_getLast? {tokens : List Token} (h : EndsStatement tokens) :
    tokens.getLast? = some (.symbol ';') ∨ tokens.getLast? = some (.symbol '}') := by
  obtain ⟨front, -, rfl | ⟨body, -, rfl⟩⟩ := h
  · exact .inl List.getLast?_concat
  · right
    rw [← List.cons_append, ← List.append_assoc]
    exact List.getLast?_concat

-- Skipping goes to the end of the statement, of the body or of the options, wherever its first word
-- stands. Strings and comments have no part in where it ends.
theorem skips_to_end :
    (∀ back start name rest, IsStatement (.word name :: rest.map Located.value) →
      Skips (.statement back start 0) rest back.state) ∧
    (∀ scope keyword start rest, IsHeadAndBody (rest.map Located.value) →
      Skips (.skippedHead scope keyword start) rest (.declaration scope [])) ∧
    (∀ block name number tokens, IsOptionList (tokens.map Located.value) →
      Skips (.options block name number) tokens (.semicolon block name number)) ∧
    (∀ before first next rest behind, step before first = .ok next → next.skips → rest ≠ [] →
      Skips next rest behind → Skips before (first :: rest) behind) ∧
    ∀ before front found back behind, (front = [] → before.skips) → back ≠ [] →
      found.value.isQuiet →
        (Skips before (front ++ found :: back) behind ↔ Skips before (front ++ back) behind) :=
  ⟨fun back start _ _ => skips_statement back start,
    fun scope keyword start _ => skips_headAndBody scope keyword start,
    fun block name number _ => skips_optionList block name number,
    fun _ _ _ _ _ => Skips.cons, fun _ _ _ _ _ => skips_quiet_iff⟩

-- `option (o) = "};";`, then `service S { rpc { } }` and `[a = [1]]` with and without a comment
theorem skips_option_service_and_bracket :
    let anywhere (value : Token) : Located Token := ⟨value, default⟩
    let option := [.symbol '(', .word "o", .symbol ')', .symbol '=', .quoted "\x7d;", .symbol ';']
    let service :=
      [.word "S", .symbol '{', .word "rpc", .symbol '{', .symbol '}', .symbol '}']
    let bracket := [.symbol '[', .word "a", .symbol '=', .symbol '[', .number "1"]
    let closing := [.symbol ']', .symbol ']'].map anywhere
    let comment := anywhere (.remark "];")
    IsStatement (.word "option" :: option) ∧ IsHeadAndBody service ∧
      IsOptionList (bracket ++ [.symbol ']', .symbol ']']) ∧
      Skips start (anywhere (.word "option") :: option.map anywhere) start ∧
      Skips start (anywhere (.word "service") :: service.map anywhere) start ∧
      Skips (.options default default 1) (bracket.map anywhere ++ closing)
        (.semicolon default default 1) ∧
      Skips (.options default default 1) (bracket.map anywhere ++ comment :: closing)
        (.semicolon default default 1) := by
  intro anywhere option service bracket closing comment
  have hmap (tokens : List Token) : (tokens.map anywhere).map Located.value = tokens := by
    rw [List.map_map]
    exact List.map_id _
  have hfree (kinds : List (Char × Char)) (token : Token)
      (h : ∀ kind ∈ kinds, token ≠ .symbol kind.1 ∧ token ≠ .symbol kind.2) :
      token.IsFree kinds := h
  have hoption : IsStatement (.word "option" :: option) := by
    refine ⟨⟨.word "option" :: .symbol '(' :: ([.word "o"] ++ .symbol ')' :: [.symbol '=',
      .quoted "\x7d;"]), .token (hfree _ _ (by decide)) ?_, .inl rfl⟩, fun front hp he => ?_⟩
    · refine @Nested.group _ ('(', ')') _ _ (by decide) (.token (hfree _ _ (by decide)) .nil) ?_
      exact .token (hfree _ _ (by decide)) (.token (hfree _ _ (by decide)) .nil)
    · have hlast := endsStatement_getLast? he
      rw [← List.mem_inits] at hp
      clear he
      revert front
      decide
  have hservice : IsHeadAndBody service := by
    refine ⟨[.word "S"], .word "rpc" :: .symbol '{' :: ([] ++ [.symbol '}']), by decide, ?_, rfl⟩
    exact .token (hfree _ _ (by decide)) (@Nested.group _ ('{', '}') _ _ (by decide) .nil .nil)
  have hbracket : IsOptionList (bracket ++ [.symbol ']', .symbol ']']) := by
    refine ⟨.word "a" :: .symbol '=' :: .symbol '[' :: ([.number "1"] ++ [.symbol ']']), ?_, rfl⟩
    refine .token (hfree _ _ (by decide)) (.token (hfree _ _ (by decide)) ?_)
    exact @Nested.group _ ('[', ']') _ _ (by decide) (.token (hfree _ _ (by decide)) .nil) .nil
  obtain ⟨hstatement, hbody, hoptions, hcons, hquiet⟩ := skips_to_end
  have hlist : Skips (.options default default 1) (bracket.map anywhere ++ closing)
      (.semicolon default default 1) :=
    hoptions _ _ _ _ (by rw [List.map_append, hmap, hmap]; exact hbracket)
  refine ⟨hoption, hservice, hbracket, ?_, ?_, hlist, ?_⟩
  · exact hcons _ _ _ _ _ rfl rfl (by decide)
      (hstatement (.declaration (.file {})) default "option" _ (by rw [hmap]; exact hoption))
  · exact hcons _ _ _ _ _ rfl rfl (by decide)
      (hbody (.file {}) "service" default _ (by rw [hmap]; exact hservice))
  · exact (hquiet _ _ _ _ _ (fun he => absurd he (List.cons_ne_nil _ _)) (by decide) rfl).mpr hlist

end Codebook.Proto
