import Codebook.Proofs.Proto.Guarded.Mirrors

namespace Codebook.Proto.Guarded

-- Each part of the descent against the states of the run.

section

variable {stream : TokenStream} {state : State} {place : Nat}

-- No comment stands at an index.
def IsPlain (stream : TokenStream) (place : Nat) : Prop :=
  ∀ found, stream.tokens[place]? = some found → found.value.isComment = false

theorem isPlain_of_token {found : Located Token} (ht : stream.tokens[place]? = some found)
    (hc : found.value.isComment = false) : IsPlain stream place := by
  intro other ho
  obtain rfl := Option.some.inj (ht.symm.trans ho)
  exact hc

theorem isPlain_last (hl : place = stream.tokens.length) : IsPlain stream place := by
  intro found hfound
  rw [hl, List.getElem?_eq_none (Nat.le_refl _)] at hfound
  exact absurd hfound.symm (Option.some_ne_none _)

theorem succ_le_of_token {found : Located Token} (ht : stream.tokens[place]? = some found) :
    place + 1 ≤ stream.tokens.length :=
  (List.getElem?_eq_some_iff.mp ht).1

theorem mirrors_passComments (hs : ∀ found, found.value.isComment → step state found = .ok state)
    (hp : place ≤ stream.tokens.length) :
    Mirrors stream (passComments stream.all) state place
      (fun _ behind => place ≤ behind ∧ IsPlain stream behind) fun _ => state := by
  refine Mirrors.loop (fun _ => state) (fun _ place hp => ?_) () hp
  refine Mirrors.here hp fun item hseen => ?_
  cases hseen with
  | last hl => exact .read rfl hp ⟨Nat.le_refl _, isPlain_last hl⟩ rfl
  | @token found ht =>
      obtain ⟨value, span⟩ := found
      have hmore := succ_le_of_token ht
      cases value with
      | doc | remark =>
          exact .pass ht (hs _ rfl) (.read rfl hmore (Nat.lt_succ_self place) rfl)
      | word | number | quoted | symbol =>
          exact .read rfl hp ⟨Nat.le_refl _, isPlain_of_token ht rfl⟩ rfl

-- States in which the last doc comment is kept
theorem mirrors_takeDoc (states : List String → State)
    (hd : ∀ doc lines span, step (states doc) ⟨.doc lines, span⟩ = .ok (states lines))
    (hr : ∀ doc text span, step (states doc) ⟨.remark text, span⟩ = .ok (states doc))
    (hp : place ≤ stream.tokens.length) :
    Mirrors stream (takeDoc stream.all) (states []) place
      (fun _ behind => place ≤ behind ∧ IsPlain stream behind) states := by
  refine Mirrors.loop states (fun doc place hp => ?_) [] hp
  refine Mirrors.here hp fun item hseen => ?_
  cases hseen with
  | last hl => exact .read rfl hp ⟨Nat.le_refl _, isPlain_last hl⟩ rfl
  | @token found ht =>
      obtain ⟨value, span⟩ := found
      have hmore := succ_le_of_token ht
      cases value with
      | doc lines =>
          exact .pass ht (hd doc lines span) (.read rfl hmore (Nat.lt_succ_self place) rfl)
      | remark text =>
          exact .pass ht (hr doc text span) (.read rfl hmore (Nat.lt_succ_self place) rfl)
      | word | number | quoted | symbol =>
          exact .read rfl hp ⟨Nat.le_refl _, isPlain_of_token ht rfl⟩ rfl

-- What is read behind comments: the end of the source, or a token that is none

theorem Mirrors.behind_comments {β : Type} {f : Item → Builder β} {post : β → Nat → Prop}
    {next : β → State} (hs : ∀ found, found.value.isComment → step state found = .ok state)
    (hp : place ≤ stream.tokens.length)
    (hlast : Mirrors stream (f ⟨none, Span.point stream.stop⟩) state stream.tokens.length post
      next)
    (htoken : ∀ behind value span, place ≤ behind →
      stream.tokens[behind]? = some ⟨value, span⟩ → value.isComment = false →
      Mirrors stream (f ⟨some value, span⟩) state behind post next) :
    Mirrors stream (passComments stream.all >>= fun _ => Guarded.here stream.all >>= f) state place
      post next := by
  refine (mirrors_passComments hs hp).bind fun _ behind hb hbehind => ?_
  obtain ⟨hle, hplain⟩ := hbehind
  refine .here hb fun item hseen => ?_
  cases hseen with
  | last hl => exact hl ▸ hlast
  | token ht => exact htoken behind _ _ hle ht (hplain _ ht)

theorem Mirrors.behind_doc {β : Type} {f : List String → Item → Builder β}
    {post : β → Nat → Prop} {next : β → State} (states : List String → State)
    (hd : ∀ doc lines span, step (states doc) ⟨.doc lines, span⟩ = .ok (states lines))
    (hr : ∀ doc text span, step (states doc) ⟨.remark text, span⟩ = .ok (states doc))
    (hp : place ≤ stream.tokens.length)
    (hlast : ∀ doc, Mirrors stream (f doc ⟨none, Span.point stream.stop⟩) (states doc)
      stream.tokens.length post next)
    (htoken : ∀ doc behind value span, place ≤ behind →
      stream.tokens[behind]? = some ⟨value, span⟩ → value.isComment = false →
      Mirrors stream (f doc ⟨some value, span⟩) (states doc) behind post next) :
    Mirrors stream (takeDoc stream.all >>= fun doc => Guarded.here stream.all >>= f doc)
      (states []) place post next := by
  refine (mirrors_takeDoc states hd hr hp).bind fun doc behind hb hbehind => ?_
  obtain ⟨hle, hplain⟩ := hbehind
  refine .here hb fun item hseen => ?_
  cases hseen with
  | last hl => exact hl ▸ hlast doc
  | token ht => exact htoken doc behind _ _ hle ht (hplain _ ht)

-- A state that looks for a symbol
def Awaits (c : Char) (state : State) (next : Span → State) : Prop :=
  (∀ found, step state found = stepSymbol c state (next found.span) found) ∧
    ∀ stop, finish state stop = .error (.unexpected (.symbol c) none (Span.point stop))

theorem mirrors_expectSymbol {c : Char} {next : Span → State} (h : Awaits c state next)
    (hp : place ≤ stream.tokens.length) :
    Mirrors stream (expectSymbol stream.all c) state place (fun _ behind => place < behind)
      next := by
  obtain ⟨hstep, hfinish⟩ := h
  have hcomment (found : Located Token) (hc : found.value.isComment) :
      step state found = .ok state := by
    rw [hstep, stepSymbol, if_pos hc]
  refine .behind_comments hcomment hp (.refuse_last rfl (hfinish _)) ?_
  intro behind value span hle ht hplain
  have hplain := Bool.eq_false_iff.mp hplain
  by_cases hc : value = .symbol c
  · have hs : step state ⟨value, span⟩ = .ok (next span) := by
      rw [hstep, stepSymbol, if_neg hplain, if_pos hc]
    rw [if_pos (congrArg some hc)]
    exact .pass ht hs (.read rfl (succ_le_of_token ht) (Nat.lt_succ_of_le hle) rfl)
  · have hs : step state ⟨value, span⟩ = unexpected (.symbol c) ⟨value, span⟩ := by
      rw [hstep, stepSymbol, if_neg hplain, if_neg hc]
    rw [if_neg fun he => hc (Option.some.inj he)]
    exact .refuse_token ht hs

-- A state that looks for a word
def AwaitsWord (wanted : Wanted) (state : State) (next : String → State) : Prop :=
  (∀ found, step state found = match found.value with
    | .word name => .ok (next name)
    | other => if other.isComment then .ok state else unexpected wanted found) ∧
    ∀ stop, finish state stop = .error (.unexpected wanted none (Span.point stop))

theorem mirrors_expectWord {wanted : Wanted} {next : String → State}
    (h : AwaitsWord wanted state next) (hp : place ≤ stream.tokens.length) :
    Mirrors stream (expectWord stream.all wanted) state place (fun _ behind => place < behind)
      next := by
  obtain ⟨hstep, hfinish⟩ := h
  have hcomment (found : Located Token) (hc : found.value.isComment) :
      step state found = .ok state := by
    obtain ⟨value, span⟩ := found
    rw [hstep]
    cases value with
    | doc | remark => rfl
    | word | number | quoted | symbol => exact absurd hc Bool.false_ne_true
  refine .behind_comments hcomment hp (.refuse_last rfl (hfinish _)) ?_
  intro behind value span hle ht hplain
  have hs := hstep ⟨value, span⟩
  cases value with
  | word name => exact .pass ht hs (.read rfl (succ_le_of_token ht) (Nat.lt_succ_of_le hle) rfl)
  | doc | remark => exact absurd hplain.symm Bool.false_ne_true
  | number | quoted | symbol => exact .refuse_token ht hs

theorem mirrors_dottedStep (f : File) (parts : List String) (hp : place ≤ stream.tokens.length) :
    Mirrors stream (dottedStep stream.all parts) (.packageRest f parts) place
      (Moves place fun _ _ => True) (Sum.elim (.packageRest f) (.packageEnd f)) := by
  have hword : AwaitsWord .name (.packagePart f parts) fun part =>
      .packageRest f (parts ++ [part]) := ⟨fun _ => rfl, fun _ => rfl⟩
  refine .here hp fun item hseen => ?_
  cases hseen with
  | last hl =>
      refine .read rfl hp ⟨Nat.le_refl _, trivial⟩ ?_
      rw [runFrom_last hl, runFrom_last hl]
      rfl
  | @token found ht =>
      by_cases hdot : found.value = .symbol '.'
      · have hs : step (.packageRest f parts) found = .ok (.packagePart f parts) := if_pos hdot
        rw [if_pos (congrArg some hdot)]
        refine .pass ht hs ?_
        exact (mirrors_expectWord hword (succ_le_of_token ht)).yields
          (fun _ _ => Nat.lt_of_succ_lt) fun _ => rfl
      · have hs : step (.packageRest f parts) found = step (.packageEnd f parts) found :=
          if_neg hdot
        rw [if_neg fun he => hdot (Option.some.inj he)]
        refine .read rfl hp ⟨Nat.le_refl _, trivial⟩ ?_
        rw [runFrom_token ht, runFrom_token ht, hs]
        rfl

theorem mirrors_dottedName (f : File) (hp : place ≤ stream.tokens.length) :
    Mirrors stream (dottedName stream.all) (.packagePart f []) place
      (fun _ behind => place < behind) (.packageEnd f) := by
  have hword : AwaitsWord .name (.packagePart f []) fun part => .packageRest f [part] :=
    ⟨fun _ => rfl, fun _ => rfl⟩
  refine (mirrors_expectWord hword hp).bind fun part behind hb hlt => ?_
  have hparts := Mirrors.loop (.packageRest f) (fun parts _ hp => mirrors_dottedStep f parts hp)
    [part] hb
  exact hparts.weaken fun _ _ hle => Nat.lt_of_lt_of_le hlt hle.1

-- The numbers among tokens have no signs.
def AreUnsigned (stream : TokenStream) : Prop :=
  ∀ found ∈ stream.tokens, ∀ text value, found.value = .number text →
    Number.literal? text = some value → 0 ≤ value

theorem mirrors_digits (hn : AreUnsigned stream) {block : OpenEnum} {name : ValueName}
    {negative : Bool} (hs : ∀ found, stream.tokens[place]? = some found →
      step state found = stepDigits block name negative found)
    (hf : ∀ stop, finish state stop = .error (.unexpected .integer none (Span.point stop)))
    (hp : place ≤ stream.tokens.length) :
    Mirrors stream (digits stream.all negative) state place (fun _ behind => place < behind)
      (.options block name) := by
  refine Mirrors.here hp fun item hseen => ?_
  cases hseen with
  | last hl => exact .refuse_last hl (hf _)
  | @token found ht =>
      have hs := hs found ht
      have hunsigned := hn found (List.mem_of_getElem? ht)
      obtain ⟨value, span⟩ := found
      cases value with
      | word | quoted | symbol | doc | remark => exact .refuse_token ht hs
      | number text =>
          dsimp only
          refine .onward (outcome_bind_of_ok (outcome_literal text place) _) rfl ?_
          cases hv : Number.literal? text with
          | none =>
              refine .refuse_token ht (hs.trans ?_)
              simp only [stepDigits, hv]
          | some value =>
              have hvalue := hunsigned text value rfl hv
              have hstep : step state ⟨.number text, span⟩
                  = .ok (.options block name (if negative then -value else value)) := by
                rw [hs]
                simp only [stepDigits, hv]
              have hsign : withoutSign value = (pure value : Builder Int) := if_pos hvalue
              have hrange : Number.inRange (-value) := by
                have hfits := Number.inRange_of_readLiteral hv
                rw [Number.inRange_iff, Number.minInt, Number.maxInt] at hfits ⊢
                omega
              have hnegate : negate value = (pure (-value) : Builder Int) := if_pos hrange
              dsimp only
              rw [hsign]
              refine .onward (outcome_bind_of_ok (outcome_pure value place) _) rfl ?_
              refine .pass ht hstep ?_
              cases negative with
              | true =>
                  rw [if_pos rfl, hnegate]
                  exact .read rfl (succ_le_of_token ht) (Nat.lt_succ_self place) rfl
              | false => exact .read rfl (succ_le_of_token ht) (Nat.lt_succ_self place) rfl

theorem mirrors_number (hn : AreUnsigned stream) (block : OpenEnum) (name : ValueName)
    (hp : place ≤ stream.tokens.length) :
    Mirrors stream (number stream.all) (.number block name) place
      (fun _ behind => place < behind) (.options block name) := by
  have hcomment (found : Located Token) (hc : found.value.isComment) :
      step (.number block name) found = .ok (.number block name) := if_pos hc
  refine .behind_comments hcomment hp ?_ fun behind value span hle ht hplain => ?_
  · refine (mirrors_digits hn (fun found ht => ?_) (fun _ => rfl) (Nat.le_refl _)).weaken
      fun _ _ hlt => Nat.lt_of_le_of_lt hp hlt
    exact absurd ht (by simp)
  · by_cases hminus : value = .symbol '-'
    · have hs : step (.number block name) ⟨value, span⟩ = .ok (.negative block name) := by
        simp only [step, if_neg (Bool.eq_false_iff.mp hplain), if_pos hminus]
      rw [if_pos (congrArg some hminus)]
      refine .pass ht hs ?_
      exact (mirrors_digits hn (fun _ _ => rfl) (fun _ => rfl) (succ_le_of_token ht)).weaken
        fun _ _ hlt => Nat.lt_of_le_of_lt hle (Nat.lt_of_succ_lt hlt)
    · rw [if_neg fun he => hminus (Option.some.inj he)]
      refine (mirrors_digits hn (fun found hfound => ?_) (fun _ => rfl)
        (Nat.le_of_succ_le (succ_le_of_token ht))).weaken
          fun _ _ hlt => Nat.lt_of_le_of_lt hle hlt
      obtain rfl := Option.some.inj (ht.symm.trans hfound)
      simp only [step, if_neg (Bool.eq_false_iff.mp hplain), if_neg hminus]

-- States inside of brackets by the count of open ones, and the state behind them
structure Nests (opening closing : Char) (unclosed : Span → Fault) (inside : Nat → State)
    (outside : State) : Prop where
  step : ∀ depth found, Proto.step (inside (depth + 1)) found =
    if found.value = .symbol opening then .ok (inside (depth + 2))
    else if found.value = .symbol closing then
      if depth = 0 then .ok outside else .ok (inside depth)
    else .ok (inside (depth + 1))
  finish : ∀ depth stop, Proto.finish (inside depth) stop = .error (unclosed (Span.point stop))

-- The state at a count. Behind the last closing bracket it is the one outside.
def Nests.states (inside : Nat → State) (outside : State) : Nat → State
  | 0 => outside
  | depth + 1 => inside (depth + 1)

theorem mirrors_nestedStep {opening closing : Char} {unclosed : Span → Fault}
    {inside : Nat → State} {outside : State} (h : Nests opening closing unclosed inside outside)
    (depth : Nat) (hp : place ≤ stream.tokens.length) :
    Mirrors stream (nestedStep stream.all opening closing unclosed depth)
      (Nests.states inside outside depth) place (Moves place fun _ _ => True)
      (Sum.elim (Nests.states inside outside) fun _ => outside) := by
  cases depth with
  | zero => exact .read rfl hp ⟨Nat.le_refl _, trivial⟩ rfl
  | succ depth =>
      rw [nestedStep, if_neg (Nat.succ_ne_zero depth)]
      obtain ⟨item, hseen⟩ := exists_seen hp
      cases hseen with
      | last hl =>
          exact .onward (outcome_bind_of_ok (outcome_pass_last hl) _) rfl
            (.refuse_last hl (h.finish _ _))
      | @token found ht =>
          have hmore := succ_le_of_token ht
          have hfound := h.step depth found
          by_cases hopen : found.value = .symbol opening
          · rw [if_pos hopen] at hfound
            refine .pass ht hfound ?_
            dsimp only
            rw [if_pos hopen]
            exact .read rfl hmore (Nat.lt_succ_self place) rfl
          · rw [if_neg hopen] at hfound
            by_cases hclose : found.value = .symbol closing
            · rw [if_pos hclose] at hfound
              have hbehind : (if depth = 0 then .ok outside else .ok (inside depth) : Step)
                  = .ok (Nests.states inside outside depth) := by
                cases depth <;> rfl
              refine .pass ht (hfound.trans hbehind) ?_
              dsimp only
              rw [if_neg hopen, if_pos hclose, minusOne, if_pos (Nat.le_add_left 1 depth)]
              exact .read rfl hmore (Nat.lt_succ_self place) rfl
            · rw [if_neg hclose] at hfound
              refine .pass ht hfound ?_
              dsimp only
              rw [if_neg hopen, if_neg hclose]
              exact .read rfl hmore (Nat.lt_succ_self place) rfl

theorem mirrors_nested {opening closing : Char} {unclosed : Span → Fault} {inside : Nat → State}
    {outside : State} (h : Nests opening closing unclosed inside outside)
    (hp : place ≤ stream.tokens.length) :
    Mirrors stream (building stream.all (nestedStep stream.all opening closing unclosed) 1)
      (inside 1) place (fun _ behind => place ≤ behind) fun _ => outside := by
  have hloop := Mirrors.loop (Nests.states inside outside)
    (fun depth _ hp => mirrors_nestedStep h depth hp) 1 hp
  exact hloop.weaken fun _ _ hle => hle.1

theorem mirrors_passOptions {block : OpenEnum} {name : ValueName} {number : Int}
    {found : Located Token} (ht : stream.tokens[place]? = some found)
    (ho : found.value = .symbol '[') :
    Mirrors stream (passOptions stream.all) (.options block name number) place
      (fun _ behind => place < behind) fun _ => .semicolon block name number := by
  have hnests : Nests '[' ']' (.openOptions found.span)
      (.insideOptions block name number found.span) (.semicolon block name number) := by
    refine ⟨fun depth token => ?_, fun _ _ => rfl⟩
    simp only [step, Nat.add_eq_right, Nat.add_sub_cancel]
  have hs : step (.options block name number) found
      = .ok (.insideOptions block name number found.span 1) := if_pos ho
  refine .pass ht hs ?_
  exact (mirrors_nested hnests (succ_le_of_token ht)).weaken fun _ _ hle => hle

theorem mirrors_headStep (scope : Scope) (keyword : String) (start : Span)
    (hp : place ≤ stream.tokens.length) :
    Mirrors stream (headStep stream.all ()) (.skippedHead scope keyword start) place
      (Moves place fun _ _ => True) (Sum.elim (fun _ : Unit => .skippedHead scope keyword start)
        fun _ : Unit => .skippedBody scope keyword start 1) := by
  obtain ⟨item, hseen⟩ := exists_seen hp
  cases hseen with
  | last hl =>
      exact .onward (outcome_bind_of_ok (outcome_pass_last hl) _) rfl (.refuse_last hl rfl)
  | @token next hnext =>
      have hmore := succ_le_of_token hnext
      by_cases hopen : next.value = .symbol '\x7b'
      · refine .pass hnext (if_pos hopen) ?_
        dsimp only
        rw [if_pos hopen]
        exact .read rfl hmore ⟨Nat.le_succ place, trivial⟩ rfl
      · refine .pass hnext (if_neg hopen) ?_
        dsimp only
        rw [if_neg hopen]
        exact .read rfl hmore (Nat.lt_succ_self place) rfl

theorem mirrors_passDeclaration {scope : Scope} {keyword : String} {found : Located Token}
    (ht : stream.tokens[place]? = some found) (hw : found.value = .word keyword)
    (hs : step state found = .ok (.skippedHead scope keyword found.span)) :
    Mirrors stream (passDeclaration stream.all) state place (fun _ behind => place < behind)
      fun _ => .declaration scope [] := by
  have hnests : Nests '\x7b' '\x7d' (.openSkipped keyword found.span)
      (.skippedBody scope keyword found.span) (.declaration scope []) := by
    refine ⟨fun depth token => ?_, fun _ _ => rfl⟩
    simp only [step, Nat.add_eq_right, Nat.add_sub_cancel]
  refine .pass ht hs ?_
  rw [hw]
  have hhead := Mirrors.loop _ (fun _ _ hp => mirrors_headStep scope keyword found.span hp) ()
    (succ_le_of_token ht)
  refine hhead.bind fun _ behind hb hle => ?_
  exact (mirrors_nested hnests hb).weaken fun _ _ hlast => hle.1.trans hlast

theorem stepStatement_symbol {c : Char} (hs : c ≠ ';') (hb : c ≠ '\x7d') (back : Return)
    (start span : Span) (depth : Nat) :
    stepStatement back start depth ⟨.symbol c, span⟩ =
      if c ∈ ['\x7b', '[', '(', '<'] then .ok (.statement back start (depth + 1))
      else if c ∈ [']', ')', '>'] then .ok (.statement back start (depth - 1))
      else .ok (.statement back start depth) := by
  unfold stepStatement
  split
  · exact absurd (Token.symbol.inj ‹_›) hs
  · exact absurd (Token.symbol.inj ‹_›) hb
  · obtain rfl := Token.symbol.inj ‹_›
    rfl
  · rename_i hnone
    exact (hnone c rfl).elim

theorem mirrors_statementStep (back : Return) (start : Span) (depth : Nat)
    (hp : place ≤ stream.tokens.length) :
    Mirrors stream (statementStep stream.all start depth) (.statement back start depth) place
      (Moves place fun _ _ => True) (Sum.elim (.statement back start) fun _ => back.state) := by
  refine Mirrors.here hp fun item hseen => ?_
  cases hseen with
  | last hl => exact .refuse_last hl rfl
  | @token found ht =>
      obtain ⟨value, span⟩ := found
      have hmore := succ_le_of_token ht
      have hpass (result : Nat ⊕ Unit) (hm : Moves place (fun _ _ => True) result (place + 1))
          (hs : stepStatement back start depth ⟨value, span⟩
            = .ok (Sum.elim (.statement back start) (fun _ => back.state) result)) :
          Mirrors stream (do
            let _ ← pass stream.all
            return result) (.statement back start depth) place (Moves place fun _ _ => True)
            (Sum.elim (.statement back start) fun _ => back.state) :=
        .pass ht hs (.read rfl hmore hm rfl)
      have hgoes (deeper : Nat) := hpass (.inl deeper) (Nat.lt_succ_self place)
      have hends := hpass (.inr ()) ⟨Nat.le_succ place, trivial⟩
      cases value with
      | word | number | quoted | doc | remark => exact hgoes depth rfl
      | symbol c =>
          dsimp only
          by_cases hsemicolon : c = ';'
          · subst hsemicolon
            cases depth with
            | zero => exact hends rfl
            | succ depth => exact hgoes (depth + 1) rfl
          by_cases hbrace : c = '\x7d'
          · subst hbrace
            cases depth with
            | zero => exact .refuse_token ht rfl
            | succ depth =>
                cases depth with
                | zero => exact hends rfl
                | succ depth => exact hgoes (depth + 1) rfl
          have hs := stepStatement_symbol hsemicolon hbrace back start span depth
          rw [if_neg fun he => hsemicolon he.1, if_neg fun he => hbrace he.1]
          by_cases hopens : c ∈ ['\x7b', '[', '(', '<']
          · rw [if_pos hopens] at hs ⊢
            exact hgoes (depth + 1) hs
          rw [if_neg hopens] at hs ⊢
          rw [if_neg hbrace]
          by_cases hcloses : c ∈ [']', ')', '>']
          · rw [if_pos hcloses] at hs ⊢
            exact hgoes (depth - 1) hs
          · rw [if_neg hcloses] at hs ⊢
            exact hgoes depth hs

-- A statement begins with a word.
theorem mirrors_passStatement {back : Return} {word : String} {found : Located Token}
    (ht : stream.tokens[place]? = some found) (hw : found.value = .word word)
    (hs : step state found = .ok (.statement back found.span 0)) :
    Mirrors stream (passStatement stream.all) state place (fun _ behind => place < behind)
      fun _ => back.state := by
  have hpassed : outcome (statementStep stream.all found.span 0) place
      = .ok (.ok (.inl 0, place + 1)) := by
    refine (outcome_bind_of_ok (outcome_here (.token ht)) _).trans ?_
    rw [hw]
    exact outcome_bind_of_ok (outcome_pass_token ht) _
  have hmoved : Track.left ⟨stream.all.length, id⟩ (place + 1)
      < Track.left ⟨stream.all.length, id⟩ place := by
    have := succ_le_of_token ht
    simp only [Track.left, id, length_all]
    omega
  have hrest := Mirrors.loop (.statement back found.span)
    (fun depth _ hp => mirrors_statementStep back found.span depth hp) 0 (succ_le_of_token ht)
  have hrun : runFrom stream state place
      = runFrom stream (.statement back found.span 0) (place + 1) := by
    rw [runFrom_token ht, hs]
    rfl
  refine .onward (outcome_bind_of_ok (outcome_here (.token ht)) _) rfl ?_
  refine .onward (outcome_loop_next hpassed hmoved) hrun ?_
  exact hrest.weaken fun _ _ hle => hle.1

-- Values

theorem mirrors_passAnyOptions (block : OpenEnum) (name : ValueName) (number : Int)
    (hp : place ≤ stream.tokens.length) :
    Mirrors stream (passAnyOptions stream.all) (.options block name number) place
      (fun _ behind => place ≤ behind) fun _ => .semicolon block name number := by
  refine .here hp fun item hseen => ?_
  by_cases hopen : item.value = some (.symbol '[')
  · rw [if_pos hopen]
    cases hseen with
    | last hl => exact absurd hopen.symm (Option.some_ne_none _)
    | token ht =>
        exact (mirrors_passOptions ht (Option.some.inj hopen)).weaken fun _ _ hlt => hlt.le
  · rw [if_neg hopen]
    refine .read rfl hp (Nat.le_refl _) (runFrom_congr (fun found ht => ?_) rfl hp)
    have hnot : found.value ≠ .symbol '[' := by
      intro he
      have hitem := Option.some.inj ((Seen.token ht).getElem?.symm.trans hseen.getElem?)
      exact hopen (hitem ▸ congrArg some he)
    exact if_neg hnot

theorem mirrors_trailing (block : OpenEnum) (value : EnumValue)
    (hp : place ≤ stream.tokens.length) :
    Mirrors stream (trailing stream.all value) (.trailing block value) place
      (fun _ behind => place ≤ behind) fun value => .value (block.add value) [] := by
  have hplain (hs : ∀ found, stream.tokens[place]? = some found →
      stepTrailing block value found = stepValue (block.add value) [] found) :
      Mirrors stream (pure value) (.trailing block value) place (fun _ behind => place ≤ behind)
        fun value => .value (block.add value) [] :=
    .read rfl hp (Nat.le_refl _) (runFrom_congr hs rfl hp)
  refine .here hp fun item hseen => ?_
  cases hseen with
  | last hl => exact hplain fun found ht => absurd ht (by simp [hl])
  | @token found ht =>
      have hother (hs : stepTrailing block value found = stepValue (block.add value) [] found) :=
        hplain fun other ho => Option.some.inj (ho.symm.trans ht) ▸ hs
      obtain ⟨token, span⟩ := found
      cases token with
      | remark text =>
          by_cases hline : span.start.line = value.span.stop.line
          · dsimp only
            rw [if_pos hline]
            exact .pass ht (if_pos hline)
              (.read rfl (succ_le_of_token ht) (Nat.le_succ place) rfl)
          · dsimp only
            rw [if_neg hline]
            exact hother (if_neg hline)
      | word | number | quoted | symbol | doc => exact hother rfl

theorem mirrors_enumValue (hn : AreUnsigned stream) (block : OpenEnum) (name : ValueName)
    (hp : place ≤ stream.tokens.length) :
    Mirrors stream (enumValue stream.all name) (.equals block name) place
      (fun _ behind => place < behind) fun value => .value (block.add value) [] := by
  have hequals : Awaits '=' (.equals block name) fun _ => .number block name :=
    ⟨fun _ => rfl, fun _ => rfl⟩
  have hsemicolon (number : Int) : Awaits ';' (.semicolon block name number) fun span =>
      .trailing block (name.complete number span) :=
    ⟨fun _ => rfl, fun _ => rfl⟩
  refine (mirrors_expectSymbol hequals hp).bind fun _ first hb hfirst => ?_
  refine (mirrors_number hn block name hb).bind fun number second hb hsecond => ?_
  refine (mirrors_passAnyOptions block name number hb).bind fun _ third hb hthird => ?_
  refine (mirrors_expectSymbol (hsemicolon number) hb).bind fun span fourth hb hfourth => ?_
  refine (mirrors_trailing block (name.complete number span) hb).weaken fun _ last hlast => ?_
  omega

theorem stepValue_symbol {c : Char} (hb : c ≠ '\x7d') (hs : c ≠ ';') (block : OpenEnum)
    (doc : List String) (span : Span) :
    stepValue block doc ⟨.symbol c, span⟩ = unexpected .enumValue ⟨.symbol c, span⟩ := by
  unfold stepValue
  split
  · exact Token.noConfusion ‹_›
  · exact Token.noConfusion ‹_›
  · exact absurd (Token.symbol.inj ‹_›) hs
  · exact absurd (Token.symbol.inj ‹_›) hb
  · exact Token.noConfusion ‹_›
  · rfl

theorem mirrors_enumStep (hn : AreUnsigned stream) (block : OpenEnum)
    (hp : place ≤ stream.tokens.length) :
    Mirrors stream (enumStep stream.all block.keyword block.brace block.name block.doc block.values)
      (.value block []) place (Moves place fun _ _ => True)
      (Sum.elim (fun values => .value { block with values } []) fun result =>
        .declaration (block.scope.addEnum result) []) := by
  refine .behind_doc (.value block) (fun _ _ _ => rfl) (fun _ _ _ => rfl) hp
    (fun _ => .refuse_last rfl rfl) fun doc behind value span hle ht hplain => ?_
  have hmore := succ_le_of_token ht
  have hlt := Nat.lt_succ_of_le hle
  cases value with
  | doc | remark => exact absurd hplain.symm Bool.false_ne_true
  | number | quoted => exact .refuse_token ht rfl
  | symbol c =>
      dsimp only
      by_cases hbrace : c = '\x7d'
      · subst hbrace
        exact .pass ht rfl (.read rfl hmore ⟨hlt.le, trivial⟩ rfl)
      by_cases hsemicolon : c = ';'
      · subst hsemicolon
        exact .pass ht rfl (.read rfl hmore hlt rfl)
      rw [if_neg hbrace, if_neg hsemicolon]
      exact .refuse_token ht (stepValue_symbol hbrace hsemicolon block doc span)
  | word word =>
      dsimp only
      by_cases hword : word ∈ ["option", "reserved"]
      · rw [if_pos hword]
        have hs : step (.value block doc) ⟨.word word, span⟩
            = .ok (.statement (.value block) span 0) := if_pos hword
        exact (mirrors_passStatement ht rfl hs).yields
          (fun _ _ => Nat.lt_of_le_of_lt hle) fun _ => rfl
      · rw [if_neg hword]
        have hs : step (.value block doc) ⟨.word word, span⟩
            = .ok (.equals block ⟨word, span, doc⟩) := if_neg hword
        refine .pass ht hs ?_
        exact (mirrors_enumValue hn block _ hmore).yields (fun _ _ => Nat.lt_trans hlt)
          fun _ => rfl

theorem mirrors_enumeration (hn : AreUnsigned stream) {scope : Scope} {doc : List String}
    {found : Located Token} (ht : stream.tokens[place]? = some found)
    (hs : step state found = .ok (.blockName .enum scope found.span doc)) :
    Mirrors stream (enumeration stream.all doc) state place (fun _ behind => place < behind)
      fun result => .declaration (scope.addEnum result) [] := by
  have hname : AwaitsWord .enumName (.blockName .enum scope found.span doc)
      (.blockBrace .enum scope found.span doc) := ⟨fun _ => rfl, fun _ => rfl⟩
  have hbrace (name : String) : Awaits '\x7b' (.blockBrace .enum scope found.span doc name)
      fun brace => .value ⟨found.span, name, doc, brace, [], scope⟩ [] :=
    ⟨fun _ => rfl, fun _ => rfl⟩
  refine .pass ht hs ?_
  refine (mirrors_expectWord hname (succ_le_of_token ht)).bind fun name first hb hfirst => ?_
  refine (mirrors_expectSymbol (hbrace name) hb).bind fun brace second hb hsecond => ?_
  have hstep (values : List EnumValue) (place : Nat) (hp : place ≤ stream.tokens.length) :
      Mirrors stream (enumStep stream.all found.span brace name doc values)
        (.value ⟨found.span, name, doc, brace, values, scope⟩ []) place
        (Moves place fun _ _ => True)
        (Sum.elim (fun values => .value ⟨found.span, name, doc, brace, values, scope⟩ [])
          fun result => .declaration (scope.addEnum result) []) :=
    mirrors_enumStep hn ⟨found.span, name, doc, brace, values, scope⟩ hp
  exact (Mirrors.loop _ hstep [] hb).weaken fun _ last hlast => by omega

-- Messages

theorem mirrors_messageHead {scope : Scope} {doc : List String} {found : Located Token}
    (ht : stream.tokens[place]? = some found)
    (hs : step state found = .ok (.blockName .message scope found.span doc)) :
    Mirrors stream (messageHead stream.all doc) state place (fun _ behind => place < behind)
      fun opened => .declaration (.message opened scope) [] := by
  have hname : AwaitsWord .messageName (.blockName .message scope found.span doc)
      (.blockBrace .message scope found.span doc) := ⟨fun _ => rfl, fun _ => rfl⟩
  have hbrace (name : String) : Awaits '\x7b' (.blockBrace .message scope found.span doc name)
      fun brace => .declaration (.message ⟨found.span, name, doc, brace, [], []⟩ scope) [] :=
    ⟨fun _ => rfl, fun _ => rfl⟩
  refine .pass ht hs ?_
  refine (mirrors_expectWord hname (succ_le_of_token ht)).bind fun name first hb hfirst => ?_
  refine (mirrors_expectSymbol (hbrace name) hb).bind fun brace second hb hsecond => ?_
  exact .read rfl hb (by omega) rfl

theorem stepDeclaration_symbol {c : Char} (hb : c ≠ '\x7d') (hs : c ≠ ';') (inner : OpenMessage)
    (outer : Scope) (doc : List String) (span : Span) :
    stepDeclaration (.message inner outer) doc ⟨.symbol c, span⟩
      = unexpected .field ⟨.symbol c, span⟩ := by
  unfold stepDeclaration
  split
  · exact Token.noConfusion ‹_›
  · exact Token.noConfusion ‹_›
  · exact absurd (Token.symbol.inj ‹_›) hs
  · exact Token.noConfusion ‹_›
  · exact Token.noConfusion ‹_›
  · exact absurd (Token.symbol.inj ‹_›) hb
  · exact Scope.noConfusion ‹_›
  · rfl

theorem stepDeclaration_file_symbol {c : Char} (hs : c ≠ ';') (f : File) (doc : List String)
    (span : Span) :
    stepDeclaration (.file f) doc ⟨.symbol c, span⟩ = unexpected .topLevel ⟨.symbol c, span⟩ := by
  unfold stepDeclaration
  split
  · exact Token.noConfusion ‹_›
  · exact Token.noConfusion ‹_›
  · exact absurd (Token.symbol.inj ‹_›) hs
  · exact Token.noConfusion ‹_›
  · exact Token.noConfusion ‹_›
  · exact Scope.noConfusion ‹_›
  · rfl
  · exact Scope.noConfusion ‹_›

-- Where the run is behind a part of a message
def Part.reached (inner : OpenMessage) (scope : Scope) : Part → State
  | .more inner => .declaration (.message inner scope) []
  | .closed message => .declaration (scope.addMessage message) []
  | .nested opened => .declaration (.message opened (.message inner scope)) []

theorem mirrors_messageStep (hn : AreUnsigned stream) (inner : OpenMessage) (scope : Scope)
    (hp : place ≤ stream.tokens.length) :
    Mirrors stream (messageStep stream.all inner) (.declaration (.message inner scope) []) place
      (fun _ behind => place < behind) (Part.reached inner scope) := by
  refine .behind_doc (.declaration (.message inner scope)) (fun _ _ _ => rfl) (fun _ _ _ => rfl) hp
    (fun _ => .refuse_last rfl rfl) fun doc behind value span hle ht hplain => ?_
  have hmore := succ_le_of_token ht
  have hlt := Nat.lt_succ_of_le hle
  cases value with
  | doc | remark => exact absurd hplain.symm Bool.false_ne_true
  | number | quoted => exact .refuse_token ht rfl
  | symbol c =>
      dsimp only
      by_cases hbrace : c = '\x7d'
      · subst hbrace
        exact .pass ht rfl (.read rfl hmore hlt rfl)
      by_cases hsemicolon : c = ';'
      · subst hsemicolon
        exact .pass ht rfl (.read rfl hmore hlt rfl)
      rw [if_neg hbrace, if_neg hsemicolon]
      exact .refuse_token ht (stepDeclaration_symbol hbrace hsemicolon inner scope doc span)
  | word word =>
      dsimp only
      have hs : step (.declaration (.message inner scope) doc) ⟨.word word, span⟩
          = .ok (stepMember (.message inner scope) doc word ⟨.word word, span⟩) := rfl
      unfold stepMember at hs
      by_cases hmessage : word = "message"
      · rw [if_pos hmessage] at hs ⊢
        exact (mirrors_messageHead ht hs).yields (fun _ _ => Nat.lt_of_le_of_lt hle) fun _ => rfl
      rw [if_neg hmessage] at hs ⊢
      by_cases henum : word = "enum"
      · rw [if_pos henum] at hs ⊢
        exact (mirrors_enumeration hn ht hs).yields (fun _ _ => Nat.lt_of_le_of_lt hle) fun _ => rfl
      rw [if_neg henum] at hs ⊢
      by_cases hskipped : word ∈ ["oneof", "extend"]
      · rw [if_pos hskipped] at hs ⊢
        exact (mirrors_passDeclaration ht rfl hs).yields
          (fun _ _ => Nat.lt_of_le_of_lt hle) fun _ => rfl
      · rw [if_neg hskipped] at hs ⊢
        exact (mirrors_passStatement ht rfl hs).yields
          (fun _ _ => Nat.lt_of_le_of_lt hle) fun _ => rfl

theorem mirrors_messageFrom (hn : AreUnsigned stream) (inner : OpenMessage) (scope : Scope)
    (hp : place ≤ stream.tokens.length) :
    Mirrors stream (messageFrom stream.all inner) (.declaration (.message inner scope) []) place
      (fun _ behind => place < behind)
      fun message => .declaration (scope.addMessage message) [] := by
  -- The induction is on the tokens that are left. A message inside is read with the message
  -- around it as its scope, and what is behind it has fewer tokens still.
  induction hm : stream.tokens.length - place using Nat.strong_induction_on
    generalizing inner scope place with
  | _ n ih =>
      have hpart := mirrors_messageStep hn inner scope hp
      have hleft {next : Nat} (hlt : place < next) :
          stream.all.length - next < stream.all.length - place := by
        rw [length_all]
        omega
      have hshorter {further : Nat} (h : place < further) (hb : further ≤ stream.tokens.length) :
          stream.tokens.length - further < n := by
        omega
      cases hpart with
      | refused ho hr => exact .refused (outcome_messageFrom_refused ho) hr
      | @read part next ho hb hlt hr =>
          cases part with
          | closed message => exact .read (outcome_messageFrom_closed ho) hb hlt hr
          | more larger =>
              have hrest := ih _ (hshorter hlt hb) larger scope hb rfl
              exact .onward (outcome_messageFrom_more ho (hleft hlt)) hr
                (hrest.weaken fun _ _ => Nat.lt_trans hlt)
          | nested opened =>
              have hnested := ih _ (hshorter hlt hb) opened (.message inner scope) hb rfl
              cases hnested with
              | refused ho' hr' =>
                  exact .refused (outcome_messageFrom_nested_refused ho (hleft hlt) ho')
                    (hr.trans hr')
              | @read message behind ho' hb' hlt' hr' =>
                  have hfurther := Nat.lt_trans hlt hlt'
                  have hrest := ih _ (hshorter hfurther hb')
                    { inner with messages := inner.messages ++ [message] } scope hb' rfl
                  exact .onward (outcome_messageFrom_nested ho (hleft hlt) ho' (hleft hfurther))
                    (hr.trans hr') (hrest.weaken fun _ _ => Nat.lt_trans hfurther)

theorem mirrors_message (hn : AreUnsigned stream) {scope : Scope} {doc : List String}
    {found : Located Token} (ht : stream.tokens[place]? = some found)
    (hs : step state found = .ok (.blockName .message scope found.span doc)) :
    Mirrors stream (message stream.all doc) state place (fun _ behind => place < behind)
      fun message => .declaration (scope.addMessage message) [] := by
  refine (mirrors_messageHead ht hs).bind fun opened behind hb hlt => ?_
  exact (mirrors_messageFrom hn opened scope hb).weaken fun _ _ hlast => Nat.lt_trans hlt hlast

-- Files

theorem mirrors_fileStep (hn : AreUnsigned stream) (f : File) (hp : place ≤ stream.tokens.length) :
    Mirrors stream (fileStep stream.all f) (.declaration (.file f) []) place
      (Moves place fun _ behind => behind = stream.tokens.length)
      (Sum.elim (fun f => .declaration (.file f) []) fun f => .declaration (.file f) []) := by
  have hend (doc : List String) : runFrom stream (.declaration (.file f) doc) stream.tokens.length
      = runFrom stream (.declaration (.file f) []) stream.tokens.length := by
    rw [runFrom_last rfl, runFrom_last rfl]
    rfl
  refine .behind_doc (.declaration (.file f)) (fun _ _ _ => rfl) (fun _ _ _ => rfl) hp
    (fun doc => .read rfl (Nat.le_refl _) ⟨hp, rfl⟩ (hend doc))
    fun doc behind value span hle ht hplain => ?_
  have hmore := succ_le_of_token ht
  have hlt := Nat.lt_succ_of_le hle
  cases value with
  | doc | remark => exact absurd hplain.symm Bool.false_ne_true
  | number | quoted => exact .refuse_token ht rfl
  | symbol c =>
      dsimp only
      by_cases hsemicolon : c = ';'
      · subst hsemicolon
        exact .pass ht rfl (.read rfl hmore hlt rfl)
      rw [if_neg hsemicolon]
      exact .refuse_token ht (stepDeclaration_file_symbol hsemicolon f doc span)
  | word word =>
      dsimp only
      have hs : step (.declaration (.file f) doc) ⟨.word word, span⟩
          = stepTopLevel f doc word ⟨.word word, span⟩ := rfl
      unfold stepTopLevel at hs
      by_cases hmessage : word = "message"
      · rw [if_pos hmessage] at hs ⊢
        exact (mirrors_message hn ht hs).yields (fun _ _ => Nat.lt_of_le_of_lt hle) fun _ => rfl
      rw [if_neg hmessage] at hs ⊢
      by_cases henum : word = "enum"
      · rw [if_pos henum] at hs ⊢
        exact (mirrors_enumeration hn ht hs).yields (fun _ _ => Nat.lt_of_le_of_lt hle) fun _ => rfl
      rw [if_neg henum] at hs ⊢
      by_cases hpackage : word = "package"
      · rw [if_pos hpackage] at hs ⊢
        refine .pass ht hs ?_
        refine (mirrors_dottedName f hmore).bind fun parts first hb hfirst => ?_
        have hend : Awaits ';' (.packageEnd f parts) fun _ =>
            .declaration (.file { f with package := some (dotted parts) }) [] :=
          ⟨fun _ => rfl, fun _ => rfl⟩
        refine (mirrors_expectSymbol hend hb).bind fun _ last hb hlast => ?_
        exact .read rfl hb (by show place < last; omega) rfl
      rw [if_neg hpackage] at hs ⊢
      by_cases hstatement : word ∈ ["syntax", "edition", "import", "option"]
      · rw [if_pos hstatement] at hs ⊢
        exact (mirrors_passStatement ht rfl hs).yields
          (fun _ _ => Nat.lt_of_le_of_lt hle) fun _ => rfl
      rw [if_neg hstatement] at hs ⊢
      by_cases hskipped : word ∈ ["service", "extend"]
      · rw [if_pos hskipped] at hs ⊢
        exact (mirrors_passDeclaration ht rfl hs).yields
          (fun _ _ => Nat.lt_of_le_of_lt hle) fun _ => rfl
      · rw [if_neg hskipped] at hs ⊢
        exact .refuse_token ht hs

-- Every token that is looked for is there, and every loop moves on.
theorem file_eq (hn : AreUnsigned stream) :
    file stream.all = .ok ((parseTokens stream).map fun f => (f, stream.tokens.length)) := by
  have hfile := Mirrors.loop (fun f => .declaration (.file f) [])
    (fun f _ hp => mirrors_fileStep hn f hp) {} (Nat.zero_le _)
  have hrun : parseTokens stream = runFrom stream start 0 := rfl
  rw [hrun]
  cases hfile with
  | refused ho hr =>
      rw [show runFrom stream start 0 = _ from hr]
      exact ho
  | @read f behind ho hb hlast hr =>
      rw [show runFrom stream start 0 = _ from hr, runFrom_last hlast.2]
      refine ho.trans ?_
      rw [hlast.2]
      rfl

end

end Codebook.Proto.Guarded
