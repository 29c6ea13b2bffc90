import Codebook.Proofs.Proto.Truncated.Outermost
import Codebook.Proofs.Proto.Written.Theorems

namespace Codebook.Proto

-- A block inside of another declaration. Until it closes, the reader does not look at what is
-- around it, so it is read there as it is read alone.

-- A scope that is inside of another one. What is declared in its file is declared there.
def Scope.inside (around : Scope) : Scope → Scope
  | .file f => around.extended f.messages f.enums
  | .message inner outer => .message inner (Scope.inside around outer)

section

variable (around : Scope)

def OpenEnum.inside (block : OpenEnum) : OpenEnum :=
  { block with scope := Scope.inside around block.scope }

def Return.inside : Return → Return
  | .declaration scope => .declaration (Scope.inside around scope)
  | .value block => .value (block.inside around)

-- A package is named outside of all blocks.
def State.inside : State → State
  | .declaration scope doc => .declaration (Scope.inside around scope) doc
  | .packagePart f before => .packagePart f before
  | .packageRest f parts => .packageRest f parts
  | .packageEnd f parts => .packageEnd f parts
  | .blockName kind scope keyword doc => .blockName kind (Scope.inside around scope) keyword doc
  | .blockBrace kind scope keyword doc name =>
    .blockBrace kind (Scope.inside around scope) keyword doc name
  | .value block doc => .value (block.inside around) doc
  | .equals block name => .equals (block.inside around) name
  | .number block name => .number (block.inside around) name
  | .negative block name => .negative (block.inside around) name
  | .options block name code => .options (block.inside around) name code
  | .insideOptions block name code bracket depth =>
    .insideOptions (block.inside around) name code bracket depth
  | .semicolon block name code => .semicolon (block.inside around) name code
  | .trailing block last => .trailing (block.inside around) last
  | .statement back start depth => .statement (back.inside around) start depth
  | .skippedHead scope keyword start => .skippedHead (Scope.inside around scope) keyword start
  | .skippedBody scope keyword start depth =>
    .skippedBody (Scope.inside around scope) keyword start depth

theorem inside_empty : Scope.inside around (.file {}) = around := by
  cases around <;> simp [Scope.inside, Scope.extended]

theorem inside_addMessage (scope : Scope) (message : Message) :
    Scope.inside around (scope.addMessage message)
      = (Scope.inside around scope).addMessage message := by
  cases scope with
  | file f => cases around <;> simp [Scope.inside, Scope.extended, Scope.addMessage]
  | message inner outer => rfl

theorem inside_addEnum (scope : Scope) (enumeration : Enumeration) :
    Scope.inside around (scope.addEnum enumeration)
      = (Scope.inside around scope).addEnum enumeration := by
  cases scope with
  | file f => cases around <;> simp [Scope.inside, Scope.extended, Scope.addEnum]
  | message inner outer => rfl

theorem inside_state (back : Return) : back.state.inside around = (back.inside around).state := by
  cases back <;> rfl

theorem inside_stepSymbol (char : Char) (here next : State) (found : Located Token) :
    stepSymbol char (here.inside around) (next.inside around) found
      = (stepSymbol char here next found).map (State.inside around) := by
  simp only [stepSymbol, unexpected]
  split_ifs <;> rfl

theorem inside_stepDeclaration (inner : OpenMessage) (outer : Scope) (doc : List String)
    (found : Located Token) :
    stepDeclaration (Scope.inside around (.message inner outer)) doc found
      = (stepDeclaration (.message inner outer) doc found).map (State.inside around) := by
  obtain ⟨value, covered⟩ := found
  cases value with
  | word name =>
      simp only [stepDeclaration, Scope.inside, stepMember]
      split_ifs <;> rfl
  | symbol c =>
      by_cases hc : c = ';'
      · subst hc
        rfl
      by_cases hb : c = '}'
      · subst hb
        simp only [stepDeclaration, Scope.inside, Except.map, State.inside, inside_addMessage]
      · simp [stepDeclaration, Scope.inside, unexpected, hc, hb, Except.map]
  | _ => rfl

theorem inside_stepValue (block : OpenEnum) (doc : List String) (found : Located Token) :
    stepValue (block.inside around) doc found
      = (stepValue block doc found).map (State.inside around) := by
  obtain ⟨value, covered⟩ := found
  cases value with
  | word name =>
      simp only [stepValue]
      split_ifs <;> rfl
  | symbol c =>
      by_cases hc : c = ';'
      · subst hc
        rfl
      by_cases hb : c = '}'
      · subst hb
        simp only [stepValue, Except.map, State.inside, inside_addEnum]
        rfl
      · simp [stepValue, unexpected, hc, hb, Except.map]
  | _ => rfl

theorem inside_stepDigits (block : OpenEnum) (name : ValueName) (negative : Bool)
    (found : Located Token) :
    stepDigits (block.inside around) name negative found
      = (stepDigits block name negative found).map (State.inside around) := by
  obtain ⟨value, covered⟩ := found
  cases value with
  | number text =>
      simp only [stepDigits]
      cases Number.literal? text <;> rfl
  | _ => rfl

theorem inside_stepTrailing (block : OpenEnum) (last : EnumValue) (found : Located Token) :
    stepTrailing (block.inside around) last found
      = (stepTrailing block last found).map (State.inside around) := by
  have hvalue := inside_stepValue around (block.add last) [] found
  obtain ⟨value, covered⟩ := found
  cases value with
  | remark text =>
      simp only [stepTrailing]
      split_ifs
      · rfl
      · rfl
      · exact hvalue
  | _ => exact hvalue

theorem inside_stepStatement (back : Return) (start : Span) (depth : Nat)
    (found : Located Token) :
    stepStatement (back.inside around) start depth found
      = (stepStatement back start depth found).map (State.inside around) := by
  unfold stepStatement
  split
  · split_ifs
    · exact congrArg Except.ok (inside_state around back).symm
    · rfl
  · split_ifs
    · rfl
    · exact congrArg Except.ok (inside_state around back).symm
    · rfl
  · split_ifs <;> rfl
  · rfl

-- Where a block is open, it does not matter what is around it.
theorem inside_step {state : State} (ho : state.opened.isSome) (found : Located Token) :
    step (state.inside around) found = (step state found).map (State.inside around) := by
  cases state with
  | declaration scope doc =>
      cases scope with
      | file f => simp [State.opened, State.around, Around.opened, Scope.opened] at ho
      | message inner outer => exact inside_stepDeclaration around inner outer doc found
  | packagePart | packageRest | packageEnd =>
      simp [State.opened, State.around, Around.opened, Scope.opened] at ho
  | blockName kind scope keyword doc =>
      obtain ⟨value, covered⟩ := found
      cases value <;> cases kind <;> rfl
  | blockBrace kind scope keyword doc name =>
      cases kind with
      | message =>
          exact inside_stepSymbol around '{' (.blockBrace .message scope keyword doc name)
            (.declaration (.message { keyword, name, doc, brace := found.span } scope) []) found
      | enum =>
          exact inside_stepSymbol around '{' (.blockBrace .enum scope keyword doc name)
            (.value { keyword, name, doc, brace := found.span, scope } []) found
  | value block doc => exact inside_stepValue around block doc found
  | equals block name =>
      exact inside_stepSymbol around '=' (.equals block name) (.number block name) found
  | number block name =>
      simp only [step, State.inside]
      split_ifs
      · rfl
      · rfl
      · exact inside_stepDigits around block name false found
  | negative block name => exact inside_stepDigits around block name true found
  | options block name number =>
      simp only [step, State.inside]
      split_ifs
      · rfl
      · exact inside_stepSymbol around ';' (.semicolon block name number)
          (.trailing block (name.complete number found.span)) found
  | insideOptions block name number bracket depth =>
      simp only [step, State.inside]
      split_ifs <;> rfl
  | semicolon block name number =>
      exact inside_stepSymbol around ';' (.semicolon block name number)
        (.trailing block (name.complete number found.span)) found
  | trailing block last => exact inside_stepTrailing around block last found
  | statement back start depth => exact inside_stepStatement around back start depth found
  | skippedHead scope keyword start =>
      simp only [step, State.inside]
      split_ifs <;> rfl
  | skippedBody scope keyword start depth =>
      simp only [step, State.inside]
      split_ifs <;> rfl

-- A block that is open stays open, or it closes and nothing else is open.
theorem opened_or_outside {state next : State} {found : Located Token}
    (ho : state.opened.isSome) (h : step state found = .ok next) :
    next.opened.isSome ∨ ∃ file, next = .declaration (.file file) [] := by
  cases outcome_step h with
  | stays opened spans => exact .inl (opened ▸ ho)
  | opens file doc hstate =>
      simp [hstate, State.opened, State.around, Around.opened, Scope.opened] at ho
  | closes first hb hs outside spans => exact .inr outside

-- A run that leaves the block with its last token only
theorem inside_run {tokens : List (Located Token)} {state : State} {file : File}
    {doc : List String} (ho : state.opened.isSome)
    (hwhole : ∀ front behind, tokens = front ++ behind → behind ≠ [] →
      ∀ other, front.foldlM step state ≠ .ok (.declaration (.file other) []))
    (h : tokens.foldlM step state = .ok (.declaration (.file file) doc)) :
    tokens.foldlM step (state.inside around)
      = .ok (.declaration (around.extended file.messages file.enums) []) := by
  induction tokens generalizing state with
  | nil =>
      obtain rfl := Except.ok.inj h
      simp [State.opened, State.around, Around.opened, Scope.opened] at ho
  | cons found rest ih =>
      obtain ⟨next, hstep, hrest⟩ := foldlM_cons_eq_ok.mp h
      have hinside : step (state.inside around) found = .ok (next.inside around) := by
        rw [inside_step around ho, hstep]
        rfl
      refine foldlM_cons_eq_ok.mpr ⟨next.inside around, hinside, ?_⟩
      rcases opened_or_outside ho hstep with hnext | ⟨other, rfl⟩
      · refine ih hnext (fun front behind hsplit hne other hfront => ?_) hrest
        refine hwhole (found :: front) behind (congrArg (found :: ·) hsplit) hne other ?_
        exact foldlM_cons_eq_ok.mpr ⟨next, hstep, hfront⟩
      · cases rest with
        | nil =>
            obtain ⟨⟨rfl⟩, rfl⟩ := State.declaration.inj (Except.ok.inj hrest)
            rfl
        | cons last more =>
            refine absurd ?_ (hwhole [found] (last :: more) rfl (List.cons_ne_nil _ _) other)
            exact foldlM_cons_eq_ok.mpr ⟨_, hstep, rfl⟩

end

-- Comments change no more than the doc that waits.
theorem foldlM_comments {found : List (Located Token)} (h : ∀ one ∈ found, one.value.isComment)
    (doc : List String) :
    ∃ waiting, ∀ scope,
      found.foldlM step (.declaration scope doc) = .ok (.declaration scope waiting) := by
  induction found generalizing doc with
  | nil => exact ⟨doc, fun _ => rfl⟩
  | cons one rest ih =>
      obtain ⟨hone, hrest⟩ := List.forall_mem_cons.mp h
      obtain ⟨value, span⟩ := one
      cases value with
      | doc lines => exact ih hrest lines
      | remark text => exact ih hrest doc
      | _ => simp [Token.isComment] at hone

theorem step_keyword (kind : BlockKind) (scope : Scope) (doc : List String)
    {found : Located Token} (h : found.value = .word kind.keyword) :
    step (.declaration scope doc) found = .ok (.blockName kind scope found.span doc) := by
  obtain ⟨value, covered⟩ := found
  subst h
  cases scope <;> cases kind <;> rfl

-- The tokens of one block from its comments to its closing brace, with the file that they make
structure IsBlock (tokens : List (Located Token)) (file : File) : Prop where
  begins : ∃ comments keyword rest, ∃ kind : BlockKind, tokens = comments ++ keyword :: rest ∧
    (∀ comment ∈ comments, comment.value.isComment) ∧ keyword.value = .word kind.keyword
  accepted : ∀ stop, parseTokens ⟨tokens, stop⟩ = .ok file
  whole : ∀ front behind, tokens = front ++ behind → behind ≠ [] →
    (∃ found ∈ front, found.value.isComment = false) →
    ∀ stop other, parseTokens ⟨front, stop⟩ ≠ .ok other

-- A block is read in any declaration as it is read in a file of its own.
theorem IsBlock.run {tokens : List (Located Token)} {file : File} (h : IsBlock tokens file)
    (around : Scope) : tokens.foldlM step (.declaration around [])
      = .ok (.declaration (around.extended file.messages file.enums) []) := by
  obtain ⟨comments, keyword, rest, kind, rfl, hcomments, hkeyword⟩ := h.begins
  obtain ⟨waiting, hwaiting⟩ := foldlM_comments hcomments []
  have hstep (scope : Scope) := step_keyword kind scope waiting hkeyword
  have hfirst : (State.blockName kind (.file {}) keyword.span waiting).inside around
      = .blockName kind around keyword.span waiting := by
    rw [State.inside, inside_empty]
  rw [foldlM_append_of_eq_ok (hwaiting around), foldlM_cons_of_eq_ok (hstep around), ← hfirst]
  have halone (behind : List (Located Token)) : (comments ++ keyword :: behind).foldlM step start
      = behind.foldlM step (.blockName kind (.file {}) keyword.span waiting) :=
    (foldlM_append_of_eq_ok (hwaiting (.file {})) _).trans (foldlM_cons_of_eq_ok (hstep _) behind)
  obtain ⟨doc, haccepted⟩ := parseTokens_eq_ok_iff.mp (h.accepted .start)
  rw [halone] at haccepted
  refine inside_run around rfl (fun front behind hsplit hne other hfront => ?_) haccepted
  refine h.whole (comments ++ keyword :: front) behind ?_ hne ?_ .start other ?_
  · rw [hsplit, List.append_assoc, List.cons_append]
  · exact ⟨keyword, by simp, by rw [hkeyword]; rfl⟩
  · exact parseTokens_eq_ok_iff.mpr ⟨[], (halone front).trans hfront⟩

end Codebook.Proto
