import Codebook.Proto.Parser
import Mathlib.Tactic.SplitIfs

namespace Codebook.Proto

-- Two readings of the same tokens that differ in their places, in their docs and in what was read
-- in front of them. The reader looks at a place only to tell whether a remark stands on the line
-- of a value, and at a doc only to tell whether a remark may become one, so both readings go
-- through the same states otherwise.

structure Revision where
  -- what was read in front
  front : File := {}
  position : Position → Position
  doc : List String → List String := id
  -- What has no doc has none in the other reading.
  doc_nil : doc [] = []

namespace Revision

-- Docs that are kept
theorem kept_nil : id ([] : List String) = [] := rfl

def span (r : Revision) (covered : Span) : Span :=
  ⟨r.position covered.start, r.position covered.stop⟩

-- A remark becomes a doc in both readings or in neither.
structure KeepsRemarks (r : Revision) : Prop where
  line_iff : ∀ p q, (r.position p).line = (r.position q).line ↔ p.line = q.line
  doc_eq : ∀ doc, r.doc doc = doc

end Revision

section

variable (r : Revision)

def EnumValue.revised (value : EnumValue) : EnumValue where
  name := value.name
  number := value.number
  doc := r.doc value.doc
  span := r.span value.span

def Enumeration.revised (enumeration : Enumeration) : Enumeration where
  name := enumeration.name
  doc := r.doc enumeration.doc
  values := enumeration.values.map (EnumValue.revised r)
  span := r.span enumeration.span

mutual

def Message.revised : Message → Message
  | ⟨name, doc, messages, enums, covered⟩ =>
    ⟨name, r.doc doc, revisedAll messages, enums.map (Enumeration.revised r), r.span covered⟩

def revisedAll : List Message → List Message
  | [] => []
  | message :: rest => message.revised :: revisedAll rest

end

@[simp] theorem revisedAll_eq_map (messages : List Message) :
    revisedAll r messages = messages.map (Message.revised r) := by
  induction messages with
  | nil => rfl
  | cons message rest ih => rw [revisedAll, ih, List.map_cons]

-- What was read in front stays in front, and its package counts where none is named behind it.
def File.revised (file : File) : File where
  path := r.front.path
  package := file.package.or r.front.package
  messages := r.front.messages ++ file.messages.map (Message.revised r)
  enums := r.front.enums ++ file.enums.map (Enumeration.revised r)

def OpenMessage.revised (block : OpenMessage) : OpenMessage where
  keyword := r.span block.keyword
  name := block.name
  doc := r.doc block.doc
  brace := r.span block.brace
  messages := block.messages.map (Message.revised r)
  enums := block.enums.map (Enumeration.revised r)

def Scope.revised : Scope → Scope
  | .file f => .file (f.revised r)
  | .message inner outer => .message (inner.revised r) outer.revised

def OpenEnum.revised (block : OpenEnum) : OpenEnum where
  keyword := r.span block.keyword
  name := block.name
  doc := r.doc block.doc
  brace := r.span block.brace
  values := block.values.map (EnumValue.revised r)
  scope := block.scope.revised r

def ValueName.revised (name : ValueName) : ValueName where
  name := name.name
  span := r.span name.span
  doc := r.doc name.doc

def Return.revised : Return → Return
  | .declaration scope => .declaration (scope.revised r)
  | .value block => .value (block.revised r)

def State.revised : State → State
  | .declaration scope doc => .declaration (scope.revised r) (r.doc doc)
  | .packagePart f before => .packagePart (f.revised r) before
  | .packageRest f parts => .packageRest (f.revised r) parts
  | .packageEnd f parts => .packageEnd (f.revised r) parts
  | .blockName kind scope keyword doc =>
    .blockName kind (scope.revised r) (r.span keyword) (r.doc doc)
  | .blockBrace kind scope keyword doc name =>
    .blockBrace kind (scope.revised r) (r.span keyword) (r.doc doc) name
  | .value block doc => .value (block.revised r) (r.doc doc)
  | .equals block name => .equals (block.revised r) (name.revised r)
  | .number block name => .number (block.revised r) (name.revised r)
  | .negative block name => .negative (block.revised r) (name.revised r)
  | .options block name code => .options (block.revised r) (name.revised r) code
  | .insideOptions block name code bracket depth =>
    .insideOptions (block.revised r) (name.revised r) code (r.span bracket) depth
  | .semicolon block name code => .semicolon (block.revised r) (name.revised r) code
  | .trailing block last => .trailing (block.revised r) (last.revised r)
  | .statement back start depth => .statement (back.revised r) (r.span start) depth
  | .skippedHead scope keyword start => .skippedHead (scope.revised r) keyword (r.span start)
  | .skippedBody scope keyword start depth =>
    .skippedBody (scope.revised r) keyword (r.span start) depth

def Token.revised : Token → Token
  | .doc lines => .doc (r.doc lines)
  | token => token

def Revision.located (found : Located Token) : Located Token :=
  ⟨found.value.revised r, r.span found.span⟩

-- The state that a step leads to, as the other reading has it
def Revision.reached (result : Step) : Option State := result.toOption.map (State.revised r)

@[simp] theorem isComment_revised (token : Token) :
    (token.revised r).isComment = token.isComment := by
  cases token <;> rfl

@[simp] theorem revised_eq_symbol_iff (token : Token) (c : Char) :
    token.revised r = .symbol c ↔ token = .symbol c := by
  cases token <;> simp [Token.revised]

theorem revised_addMessage (scope : Scope) (message : Message) :
    (scope.addMessage message).revised r = (scope.revised r).addMessage (message.revised r) := by
  cases scope with
  | file f => simp [Scope.addMessage, Scope.revised, File.revised]
  | message inner outer => simp [Scope.addMessage, Scope.revised, OpenMessage.revised]

theorem revised_addEnum (scope : Scope) (enumeration : Enumeration) :
    (scope.addEnum enumeration).revised r = (scope.revised r).addEnum (enumeration.revised r) := by
  cases scope with
  | file f => simp [Scope.addEnum, Scope.revised, File.revised]
  | message inner outer => simp [Scope.addEnum, Scope.revised, OpenMessage.revised]

theorem revised_add (block : OpenEnum) (value : EnumValue) :
    (block.add value).revised r = (block.revised r).add (value.revised r) := by
  simp [OpenEnum.add, OpenEnum.revised]

theorem revised_closeMessage (block : OpenMessage) (brace : Span) :
    (block.close brace).revised r = (block.revised r).close (r.span brace) := by
  simp [OpenMessage.close, OpenMessage.revised, Message.revised, Revision.span]

theorem revised_closeEnum (block : OpenEnum) (brace : Span) :
    (block.close brace).revised r = (block.revised r).close (r.span brace) := rfl

theorem revised_declaration (scope : Scope) :
    (State.declaration scope []).revised r = .declaration (scope.revised r) [] := by
  rw [State.revised, r.doc_nil]

theorem revised_value (block : OpenEnum) :
    (State.value block []).revised r = .value (block.revised r) [] := by
  rw [State.revised, r.doc_nil]

theorem revised_state (back : Return) : back.state.revised r = (back.revised r).state := by
  cases back with
  | declaration scope => exact revised_declaration r scope
  | value block => exact revised_value r block

theorem revised_stepSymbol (char : Char) (here next : State) (found : Located Token) :
    r.reached (stepSymbol char here next found)
      = (stepSymbol char (here.revised r) (next.revised r) (r.located found)).toOption := by
  simp only [stepSymbol, unexpected, Revision.located, isComment_revised, revised_eq_symbol_iff]
  split_ifs <;> rfl

theorem revised_stepDeclaration (scope : Scope) (doc : List String) (found : Located Token) :
    r.reached (stepDeclaration scope doc found)
      = (stepDeclaration (scope.revised r) (r.doc doc) (r.located found)).toOption := by
  obtain ⟨value, covered⟩ := found
  have hend := congrArg some (revised_declaration r scope)
  cases scope with
  | file f =>
      cases value with
      | word name =>
          simp only [stepDeclaration, Scope.revised, stepTopLevel, unexpected, Revision.located,
            Token.revised]
          split_ifs <;> rfl
      | symbol c =>
          by_cases hc : c = ';'
          · subst hc
            exact hend
          · simp [Revision.reached, Revision.located, Token.revised, stepDeclaration,
              Scope.revised, unexpected, hc, Except.toOption]
      | _ => rfl
  | message inner outer =>
      cases value with
      | word name =>
          simp only [stepDeclaration, Scope.revised, stepMember, Revision.located, Token.revised]
          split_ifs <;> rfl
      | symbol c =>
          by_cases hc : c = ';'
          · subst hc
            exact hend
          by_cases hb : c = '}'
          · subst hb
            have hclosed := revised_declaration r (outer.addMessage (inner.close covered))
            rw [revised_addMessage, revised_closeMessage] at hclosed
            exact congrArg some hclosed
          · simp [Revision.reached, Revision.located, Token.revised, stepDeclaration,
              Scope.revised, unexpected, hc, hb, Except.toOption]
      | _ => rfl

theorem revised_stepValue (block : OpenEnum) (doc : List String) (found : Located Token) :
    r.reached (stepValue block doc found)
      = (stepValue (block.revised r) (r.doc doc) (r.located found)).toOption := by
  obtain ⟨value, covered⟩ := found
  cases value with
  | word name =>
      simp only [stepValue, Revision.located, Token.revised]
      split_ifs <;> rfl
  | symbol c =>
      by_cases hc : c = ';'
      · subst hc
        exact congrArg some (revised_value r block)
      by_cases hb : c = '}'
      · subst hb
        have hclosed := revised_declaration r (block.scope.addEnum (block.close covered))
        rw [revised_addEnum, revised_closeEnum] at hclosed
        exact congrArg some hclosed
      · simp [Revision.reached, Revision.located, Token.revised, stepValue, unexpected, hc, hb,
          Except.toOption]
  | _ => rfl

theorem revised_stepDigits (block : OpenEnum) (name : ValueName) (negative : Bool)
    (found : Located Token) :
    r.reached (stepDigits block name negative found)
      = (stepDigits (block.revised r) (name.revised r) negative (r.located found)).toOption := by
  obtain ⟨value, covered⟩ := found
  cases value with
  | number text =>
      simp only [stepDigits, Revision.located, Token.revised]
      cases Number.literal? text <;> rfl
  | _ => rfl

theorem revised_stepStatement (back : Return) (start : Span) (depth : Nat)
    (found : Located Token) :
    r.reached (stepStatement back start depth found)
      = (stepStatement (back.revised r) (r.span start) depth (r.located found)).toOption := by
  obtain ⟨value, covered⟩ := found
  have hback := congrArg some (revised_state r back)
  cases value with
  | symbol c =>
      by_cases hc : c = ';'
      · subst hc
        simp only [stepStatement, Revision.located, Token.revised]
        split_ifs
        · exact hback
        · rfl
      by_cases hb : c = '}'
      · subst hb
        simp only [stepStatement, unexpected, Revision.located, Token.revised]
        split_ifs
        · rfl
        · exact hback
        · rfl
      · simp only [stepStatement, Revision.located, Token.revised]
        split_ifs <;> rfl
  | _ => rfl

theorem stepTrailing_remark (block : OpenEnum) (value : EnumValue) (text : String)
    (covered : Span) :
    stepTrailing block value ⟨.remark text, covered⟩
      = if covered.start.line = value.span.stop.line then
          .ok (.value
            (block.add (if value.doc.isEmpty then { value with doc := [text] } else value)) [])
        else stepValue (block.add value) [] ⟨.remark text, covered⟩ := rfl

theorem revised_stepTrailing (block : OpenEnum) (last : EnumValue) (found : Located Token)
    (h : (∀ text, found.value ≠ .remark text) ∨ r.KeepsRemarks) :
    r.reached (stepTrailing block last found)
      = (stepTrailing (block.revised r) (last.revised r) (r.located found)).toOption := by
  have hvalue := revised_stepValue r (block.add last) [] found
  rw [revised_add, r.doc_nil] at hvalue
  obtain ⟨value, covered⟩ := found
  cases value with
  | remark text =>
      have hkeeps := h.resolve_left fun hnone => hnone text rfl
      have hdoc : (last.revised r).doc = last.doc := hkeeps.doc_eq last.doc
      have hlines : (r.span covered).start.line = (last.revised r).span.stop.line ↔
          covered.start.line = last.span.stop.line := hkeeps.line_iff _ _
      show r.reached _ = (stepTrailing _ _ ⟨.remark text, r.span covered⟩).toOption
      rw [stepTrailing_remark, stepTrailing_remark, hdoc]
      by_cases hline : covered.start.line = last.span.stop.line
      · rw [if_pos hline, if_pos (hlines.mpr hline)]
        refine congrArg some ((revised_value r _).trans ?_)
        rw [revised_add]
        split_ifs
        · simp only [EnumValue.revised, hkeeps.doc_eq]
        · rfl
      · rw [if_neg hline, if_neg (mt hlines.mp hline)]
        exact hvalue
  | _ => exact hvalue

-- A step and a revision can be taken in either order, unless a remark is read of which the
-- revision may make something else.
theorem revised_step (state : State) (found : Located Token)
    (h : (∀ text, found.value ≠ .remark text) ∨ r.KeepsRemarks) :
    r.reached (step state found) = (step (state.revised r) (r.located found)).toOption := by
  have hsymbol {c : Char} : (r.located found).value = .symbol c ↔ found.value = .symbol c :=
    revised_eq_symbol_iff r found.value c
  have hcomment : (r.located found).value.isComment = found.value.isComment :=
    isComment_revised r found.value
  -- the state behind the semicolon of a package or of a value
  have hpackage (f : File) (parts : List String) :
      r.reached (stepPackageEnd f parts found)
        = (stepPackageEnd (f.revised r) parts (r.located found)).toOption := by
    have hend := revised_stepSymbol r ';' (.packageEnd f parts)
      (.declaration (.file { f with package := some (dotted parts) }) []) found
    rw [revised_declaration] at hend
    exact hend
  have hvalue (block : OpenEnum) (name : ValueName) (code : Int) :
      r.reached (stepSemicolon block name code found)
        = (stepSemicolon (block.revised r) (name.revised r) code (r.located found)).toOption :=
    revised_stepSymbol r ';' (.semicolon block name code)
      (.trailing block (name.complete code found.span)) found
  cases state with
  | declaration scope doc => exact revised_stepDeclaration r scope doc found
  | packagePart f before =>
      obtain ⟨value, covered⟩ := found
      cases value <;> rfl
  | packageRest f parts =>
      simp only [step, State.revised, hsymbol]
      by_cases hdot : found.value = .symbol '.'
      · rw [if_pos hdot, if_pos hdot]
        rfl
      · rw [if_neg hdot, if_neg hdot]
        exact hpackage f parts
  | packageEnd f parts => exact hpackage f parts
  | blockName kind scope keyword doc =>
      obtain ⟨value, covered⟩ := found
      cases value <;> cases kind <;> rfl
  | blockBrace kind scope keyword doc name =>
      cases kind with
      | message =>
          have hopen := revised_stepSymbol r '{' (.blockBrace .message scope keyword doc name)
            (.declaration (.message { keyword, name, doc, brace := found.span } scope) []) found
          rw [revised_declaration] at hopen
          exact hopen
      | enum =>
          have hopen := revised_stepSymbol r '{' (.blockBrace .enum scope keyword doc name)
            (.value { keyword, name, doc, brace := found.span, scope } []) found
          rw [revised_value] at hopen
          exact hopen
  | value block doc => exact revised_stepValue r block doc found
  | equals block name => exact revised_stepSymbol r '=' _ _ found
  | number block name =>
      simp only [step, State.revised, hsymbol, hcomment]
      by_cases hskipped : found.value.isComment
      · rw [if_pos hskipped, if_pos hskipped]
        rfl
      rw [if_neg hskipped, if_neg hskipped]
      by_cases hminus : found.value = .symbol '-'
      · rw [if_pos hminus, if_pos hminus]
        rfl
      · rw [if_neg hminus, if_neg hminus]
        exact revised_stepDigits r block name false found
  | negative block name => exact revised_stepDigits r block name true found
  | options block name code =>
      simp only [step, State.revised, hsymbol]
      by_cases hopen : found.value = .symbol '['
      · rw [if_pos hopen, if_pos hopen]
        rfl
      · rw [if_neg hopen, if_neg hopen]
        exact hvalue block name code
  | insideOptions block name code bracket depth =>
      simp only [step, State.revised, hsymbol]
      split_ifs <;> rfl
  | semicolon block name code => exact hvalue block name code
  | trailing block last => exact revised_stepTrailing r block last found h
  | statement back start depth => exact revised_stepStatement r back start depth found
  | skippedHead scope keyword start =>
      simp only [step, State.revised, hsymbol]
      split_ifs <;> rfl
  | skippedBody scope keyword start depth =>
      simp only [step, State.revised, hsymbol]
      split_ifs
      · rfl
      · exact congrArg some (revised_declaration r scope)
      · rfl
      · rfl

theorem revised_foldlM (tokens : List (Located Token)) (state : State)
    (h : ∀ found ∈ tokens, (∀ text, found.value ≠ .remark text) ∨ r.KeepsRemarks) :
    r.reached (tokens.foldlM step state)
      = ((tokens.map r.located).foldlM step (state.revised r)).toOption := by
  induction tokens generalizing state with
  | nil => rfl
  | cons found rest ih =>
      obtain ⟨hfound, hrest⟩ := List.forall_mem_cons.mp h
      have hstep := revised_step r state found hfound
      rw [List.map_cons, List.foldlM_cons, List.foldlM_cons]
      cases hs : step state found with
      | error fault =>
          cases hu : step (state.revised r) (r.located found) with
          | error other => rfl
          | ok next => simp [hs, hu, Revision.reached, Except.toOption] at hstep
      | ok next =>
          cases hu : step (state.revised r) (r.located found) with
          | error other => simp [hs, hu, Revision.reached, Except.toOption] at hstep
          | ok revised =>
              obtain rfl : next.revised r = revised := by
                simpa [hs, hu, Revision.reached, Except.toOption] using hstep
              exact ih next hrest

end

end Codebook.Proto
