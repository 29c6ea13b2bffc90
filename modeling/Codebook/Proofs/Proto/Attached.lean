import Codebook.Proofs.Proto.Skipped
import Codebook.Proofs.Proto.Truncated.Outermost
import Mathlib.Data.List.DropRight

namespace Codebook.Proto

-- Which comment documents a declaration: the last doc comment of those that stand directly in front
-- of it, and for a value without one a remark behind its semicolon.

def Token.lines? : Token → Option (List String)
  | .doc lines => some lines
  | _ => none

-- The last doc comment among the comments at the end of some tokens
def docBefore (tokens : List Token) : List String :=
  ((tokens.rtakeWhile Token.isComment).filterMap Token.lines?).getLast?.getD []

-- A remark that begins on the line where a value ends
def remarkBehind (stop : Position) : List (Located Token) → List String
  | ⟨.remark text, covered⟩ :: _ => if covered.start.line = stop.line then [text] else []
  | _ => []

section

variable (tokens : List (Located Token))

-- A block whose keyword is at a place has the doc of the comments in front of the keyword.
def IsAttached (keyword : String) (first : Position) (doc : List String) : Prop :=
  ∃ front found behind, tokens = front ++ found :: behind ∧ found.value = .word keyword ∧
    found.span.start = first ∧ doc = docBefore (front.map Located.value)

def EnumValue.IsAttached (value : EnumValue) : Prop :=
  ∃ front name between semicolon behind,
    tokens = front ++ name :: (between ++ semicolon :: behind) ∧ name.value = .word value.name ∧
      semicolon.value = .symbol ';' ∧ value.span = ⟨name.span.start, semicolon.span.stop⟩ ∧
      value.doc = if docBefore (front.map Located.value) = []
        then remarkBehind semicolon.span.stop behind else docBefore (front.map Located.value)

structure Enumeration.IsAttached (enumeration : Enumeration) : Prop where
  doc : Proto.IsAttached tokens "enum" enumeration.span.start enumeration.doc
  values : ∀ value ∈ enumeration.values, value.IsAttached tokens

inductive Message.IsAttached : Message → Prop
  | intro {message : Message}
      (doc : Proto.IsAttached tokens "message" message.span.start message.doc)
      (messages : ∀ nested ∈ message.messages, nested.IsAttached)
      (enums : ∀ enumeration ∈ message.enums, enumeration.IsAttached tokens) : IsAttached message

structure File.IsAttached (file : File) : Prop where
  messages : ∀ message ∈ file.messages, message.IsAttached tokens
  enums : ∀ enumeration ∈ file.enums, enumeration.IsAttached tokens

structure OpenMessage.IsAttached (block : OpenMessage) : Prop where
  doc : Proto.IsAttached tokens "message" block.keyword.start block.doc
  messages : ∀ message ∈ block.messages, message.IsAttached tokens
  enums : ∀ enumeration ∈ block.enums, enumeration.IsAttached tokens

def Scope.IsAttached : Scope → Prop
  | .file f => f.IsAttached tokens
  | .message inner outer => inner.IsAttached tokens ∧ outer.IsAttached

structure OpenEnum.IsAttached (block : OpenEnum) : Prop where
  doc : Proto.IsAttached tokens "enum" block.keyword.start block.doc
  values : ∀ value ∈ block.values, value.IsAttached tokens
  scope : block.scope.IsAttached tokens

def Return.IsAttached : Return → Prop
  | .declaration scope => scope.IsAttached tokens
  | .value block => block.IsAttached tokens

-- What has been read up to a value that is not complete
def ValueName.IsRead (read : List (Located Token)) (name : ValueName) : Prop :=
  ∃ front found between, read = front ++ found :: between ∧ found.value = .word name.name ∧
    found.span = name.span ∧ name.doc = docBefore (front.map Located.value)

-- What has been read up to the semicolon of a value
def EnumValue.IsRead (read : List (Located Token)) (value : EnumValue) : Prop :=
  ∃ front name between semicolon, read = front ++ name :: (between ++ [semicolon]) ∧
    name.value = .word value.name ∧ semicolon.value = .symbol ';' ∧
    value.span = ⟨name.span.start, semicolon.span.stop⟩ ∧
    value.doc = docBefore (front.map Located.value)

-- A doc that waits for a declaration is that of the comments read last.
def State.IsAttached (read : List (Located Token)) : State → Prop
  | .declaration scope doc => scope.IsAttached tokens ∧ doc = docBefore (read.map Located.value)
  | .packagePart f _ | .packageRest f _ | .packageEnd f _ => f.IsAttached tokens
  | .blockName kind scope keyword doc | .blockBrace kind scope keyword doc _ =>
    scope.IsAttached tokens ∧ Proto.IsAttached tokens kind.keyword keyword.start doc
  | .value block doc => block.IsAttached tokens ∧ doc = docBefore (read.map Located.value)
  | .equals block name | .number block name | .negative block name | .options block name _
  | .insideOptions block name _ _ _ | .semicolon block name _ =>
    block.IsAttached tokens ∧ name.IsRead read
  | .trailing block last => block.IsAttached tokens ∧ last.IsRead read
  | .statement back _ _ => back.IsAttached tokens
  | .skippedHead scope _ _ | .skippedBody scope _ _ _ => scope.IsAttached tokens

end

@[simp] theorem docBefore_nil : docBefore [] = [] := by
  simp [docBefore]

theorem docBefore_doc (front : List Token) (lines : List String) :
    docBefore (front ++ [.doc lines]) = lines := by
  rw [docBefore, List.rtakeWhile_concat_pos _ _ _ rfl, List.filterMap_append]
  simp [Token.lines?]

theorem docBefore_remark (front : List Token) (text : String) :
    docBefore (front ++ [.remark text]) = docBefore front := by
  rw [docBefore, List.rtakeWhile_concat_pos _ _ _ rfl, List.filterMap_append]
  simp [Token.lines?, docBefore]

theorem docBefore_other (front : List Token) {token : Token} (h : token.isComment = false) :
    docBefore (front ++ [token]) = [] := by
  rw [docBefore, List.rtakeWhile_concat_neg _ _ _ (by simp [h])]
  rfl

section

variable {tokens read behind : List (Located Token)}

theorem Scope.IsAttached.addMessage {scope : Scope} {message : Message}
    (hs : scope.IsAttached tokens) (hm : message.IsAttached tokens) :
    (scope.addMessage message).IsAttached tokens := by
  cases scope with
  | file f =>
      exact ⟨List.forall_mem_append.mpr ⟨hs.messages, List.forall_mem_singleton.mpr hm⟩, hs.enums⟩
  | message inner outer =>
      obtain ⟨hinner, houter⟩ := hs
      have hmessages := List.forall_mem_append.mpr
        ⟨hinner.messages, List.forall_mem_singleton.mpr hm⟩
      exact ⟨⟨hinner.doc, hmessages, hinner.enums⟩, houter⟩

theorem Scope.IsAttached.addEnum {scope : Scope} {enumeration : Enumeration}
    (hs : scope.IsAttached tokens) (he : enumeration.IsAttached tokens) :
    (scope.addEnum enumeration).IsAttached tokens := by
  cases scope with
  | file f =>
      exact ⟨hs.messages, List.forall_mem_append.mpr ⟨hs.enums, List.forall_mem_singleton.mpr he⟩⟩
  | message inner outer =>
      obtain ⟨hinner, houter⟩ := hs
      have henums := List.forall_mem_append.mpr ⟨hinner.enums, List.forall_mem_singleton.mpr he⟩
      exact ⟨⟨hinner.doc, hinner.messages, henums⟩, houter⟩

theorem OpenEnum.IsAttached.add {block : OpenEnum} {value : EnumValue}
    (hb : block.IsAttached tokens) (hv : value.IsAttached tokens) :
    (block.add value).IsAttached tokens :=
  ⟨hb.doc, List.forall_mem_append.mpr ⟨hb.values, List.forall_mem_singleton.mpr hv⟩,
    hb.scope⟩

theorem ValueName.IsRead.append {name : ValueName} (h : name.IsRead read)
    (more : List (Located Token)) : name.IsRead (read ++ more) := by
  obtain ⟨front, found, between, rfl, hrest⟩ := h
  exact ⟨front, found, between ++ more, by simp, hrest⟩

theorem ValueName.IsRead.complete {name : ValueName} (h : name.IsRead read) (number : Int)
    {found : Located Token} (hf : found.value = .symbol ';') :
    (name.complete number found.span).IsRead (read ++ [found]) := by
  obtain ⟨front, first, between, rfl, hname, hspan, hdoc⟩ := h
  refine ⟨front, first, between, found, by simp, hname, hf, ?_, hdoc⟩
  rw [hspan]
  rfl

-- A remark behind the value is taken where the value has no doc.
theorem EnumValue.IsRead.attached {value : EnumValue} (h : value.IsRead read)
    (ht : tokens = read ++ behind) {doc : List String}
    (hd : doc = if value.doc = [] then remarkBehind value.span.stop behind else value.doc) :
    ({ value with doc := doc } : EnumValue).IsAttached tokens := by
  obtain ⟨front, name, between, semicolon, rfl, hname, hsemicolon, hspan, hdoc⟩ := h
  rw [hspan, hdoc] at hd
  exact ⟨front, name, between, semicolon, behind, by rw [ht]; simp, hname, hsemicolon, hspan, hd⟩

end

section

variable {tokens read rest : List (Located Token)} {found : Located Token}

theorem isAttached_state {back : Return} (hb : back.IsAttached tokens)
    (hf : found.value.isComment = false) : back.state.IsAttached tokens (read ++ [found]) := by
  have hnil : docBefore ((read ++ [found]).map Located.value) = [] := by
    rw [List.map_append]
    exact docBefore_other _ hf
  cases back <;> exact ⟨hb, hnil.symm⟩

variable (ht : tokens = read ++ found :: rest)

include ht

theorem isAttached_stepDeclaration {scope : Scope} {doc : List String} {next : State}
    (hs : scope.IsAttached tokens) (hd : doc = docBefore (read.map Located.value))
    (h : stepDeclaration scope doc found = .ok next) :
    next.IsAttached tokens (read ++ [found]) := by
  have hkeyword (kind : BlockKind) (hw : found.value = .word kind.keyword) :
      (State.blockName kind scope found.span doc).IsAttached tokens (read ++ [found]) :=
    ⟨hs, read, found, rest, ht, hw, rfl, hd⟩
  have hnone {other : Scope} (ho : other.IsAttached tokens) (hf : found.value.isComment = false) :
      (State.declaration other []).IsAttached tokens (read ++ [found]) :=
    @isAttached_state _ _ _ (.declaration other) ho hf
  unfold stepDeclaration at h
  split at h
  · rename_i hv
    cases h
    refine ⟨hs, ?_⟩
    rw [List.map_append, List.map_singleton, hv, docBefore_doc]
  · rename_i hv
    cases h
    refine ⟨hs, ?_⟩
    rw [List.map_append, List.map_singleton, hv, docBefore_remark, hd]
  · rename_i hv
    cases h
    exact hnone hs (by rw [hv]; rfl)
  · rename_i word file hv
    simp only [stepTopLevel, unexpected] at h
    split_ifs at h with hm he <;> cases h
    · exact hkeyword .message (hv.trans (congrArg Token.word hm))
    · exact hkeyword .enum (hv.trans (congrArg Token.word he))
    all_goals exact hs
  · rename_i word inner outer hv
    cases h
    unfold stepMember
    split_ifs with hm he
    · exact hkeyword .message (hv.trans (congrArg Token.word hm))
    · exact hkeyword .enum (hv.trans (congrArg Token.word he))
    all_goals exact hs
  · rename_i inner outer hv
    cases h
    obtain ⟨hinner, houter⟩ := hs
    have hclosed : (inner.close found.span).IsAttached tokens :=
      .intro hinner.doc hinner.messages hinner.enums
    exact hnone (houter.addMessage hclosed) (by rw [hv]; rfl)
  · simp [unexpected] at h
  · simp [unexpected] at h

omit ht in
theorem isAttached_stepValue {block : OpenEnum} {doc : List String} {next : State}
    (hb : block.IsAttached tokens) (hd : doc = docBefore (read.map Located.value))
    (h : stepValue block doc found = .ok next) : next.IsAttached tokens (read ++ [found]) := by
  unfold stepValue at h
  split at h
  · rename_i hv
    cases h
    refine ⟨hb, ?_⟩
    rw [List.map_append, List.map_singleton, hv, docBefore_doc]
  · rename_i hv
    cases h
    refine ⟨hb, ?_⟩
    rw [List.map_append, List.map_singleton, hv, docBefore_remark, hd]
  · rename_i hv
    cases h
    exact @isAttached_state _ _ _ (.value block) hb (by rw [hv]; rfl)
  · rename_i hv
    cases h
    have hclosed : (block.close found.span).IsAttached tokens := ⟨hb.doc, hb.values⟩
    exact @isAttached_state _ _ _ (.declaration _) (hb.scope.addEnum hclosed) (by rw [hv]; rfl)
  · rename_i word hv
    split at h <;> cases h
    · exact hb
    · exact ⟨hb, read, found, [], rfl, hv, rfl, hd⟩
  · simp [unexpected] at h

omit ht in
theorem isAttached_stepSymbol {char : Char} {here next reached : State}
    (h : stepSymbol char here next found = .ok reached)
    (hh : here.IsAttached tokens (read ++ [found]))
    (hn : found.value = .symbol char → next.IsAttached tokens (read ++ [found])) :
    reached.IsAttached tokens (read ++ [found]) := by
  unfold stepSymbol at h
  split_ifs at h with _ hc
  · exact Except.ok.inj h ▸ hh
  · exact Except.ok.inj h ▸ hn hc
  · simp [unexpected] at h

omit ht in
theorem isAttached_stepDigits {block : OpenEnum} {name : ValueName} {negative : Bool}
    {next : State} (hb : block.IsAttached tokens) (hn : name.IsRead read)
    (h : stepDigits block name negative found = .ok next) :
    next.IsAttached tokens (read ++ [found]) := by
  unfold stepDigits at h
  split at h
  · split at h <;> cases h
    exact ⟨hb, hn.append _⟩
  · simp [unexpected] at h

theorem isAttached_stepTrailing {block : OpenEnum} {value : EnumValue} {next : State}
    (hb : block.IsAttached tokens) (hv : value.IsRead read)
    (h : stepTrailing block value found = .ok next) : next.IsAttached tokens (read ++ [found]) := by
  have hnil : docBefore (read.map Located.value) = [] := by
    obtain ⟨front, name, between, semicolon, rfl, -, hsemicolon, -⟩ := hv
    rw [← List.cons_append, ← List.append_assoc, List.map_append, List.map_singleton, hsemicolon]
    exact docBefore_other _ rfl
  have hother (hr : remarkBehind value.span.stop (found :: rest) = []) :
      (block.add value).IsAttached tokens := by
    refine hb.add (hv.attached ht ?_)
    rw [hr]
    split_ifs with hd
    · exact hd
    · rfl
  unfold stepTrailing at h
  split at h
  · rename_i text hf
    have hremark : remarkBehind value.span.stop (found :: rest)
        = if found.span.start.line = value.span.stop.line then [text] else [] := by
      obtain ⟨_, covered⟩ := found
      subst hf
      rfl
    split at h
    · rename_i hline
      cases h
      rw [if_pos hline] at hremark
      refine ⟨hb.add ?_, ?_⟩
      · by_cases hd : value.doc = []
        · rw [hd]
          exact hv.attached ht (by rw [if_pos hd, hremark])
        · rw [if_neg (by simpa using hd)]
          exact hv.attached ht (if_neg hd).symm
      · rw [List.map_append, List.map_singleton, hf, docBefore_remark, hnil]
    · rename_i hline
      exact isAttached_stepValue (hother (hremark.trans (if_neg hline))) hnil.symm h
  · rename_i hf
    refine isAttached_stepValue (hother ?_) hnil.symm h
    obtain ⟨token, covered⟩ := found
    cases token with
    | remark text => exact absurd rfl (hf text)
    | _ => rfl

omit ht in
theorem isAttached_stepStatement {back : Return} {start : Span} {depth : Nat} {next : State}
    (hb : back.IsAttached tokens) (h : stepStatement back start depth found = .ok next) :
    next.IsAttached tokens (read ++ [found]) := by
  have hback (c : Char) (hv : found.value = .symbol c) :
      back.state.IsAttached tokens (read ++ [found]) :=
    isAttached_state hb (by rw [hv]; rfl)
  unfold stepStatement unexpected at h
  split at h
  · rename_i hv
    split_ifs at h <;> cases h
    · exact hback ';' hv
    · exact hb
  · rename_i hv
    split_ifs at h <;> cases h
    · exact hback '}' hv
    · exact hb
  · split_ifs at h <;> cases h <;> exact hb
  · cases h
    exact hb

theorem isAttached_step {state next : State} (hs : state.IsAttached tokens read)
    (h : step state found = .ok next) : next.IsAttached tokens (read ++ [found]) := by
  have hpackage {f : File} {parts : List String} (hf : f.IsAttached tokens)
      (hend : stepPackageEnd f parts found = .ok next) :
      next.IsAttached tokens (read ++ [found]) :=
    isAttached_stepSymbol hend hf fun hv =>
      @isAttached_state _ _ _ (.declaration (.file _)) ⟨hf.messages, hf.enums⟩ (by rw [hv]; rfl)
  have hvalue {block : OpenEnum} {name : ValueName} {number : Int} (hb : block.IsAttached tokens)
      (hn : name.IsRead read) (hend : stepSemicolon block name number found = .ok next) :
      next.IsAttached tokens (read ++ [found]) :=
    isAttached_stepSymbol hend ⟨hb, hn.append _⟩ fun hv => ⟨hb, hn.complete number hv⟩
  cases state with
  | declaration scope doc => exact isAttached_stepDeclaration ht hs.1 hs.2 h
  | packagePart f before =>
      simp only [step, unexpected] at h
      split at h
      · cases h
        exact hs
      · split_ifs at h
        cases h
        exact hs
  | packageRest f parts =>
      simp only [step] at h
      split_ifs at h
      · cases h
        exact hs
      · exact hpackage hs h
  | packageEnd f parts => exact hpackage hs h
  | blockName kind scope keyword doc =>
      simp only [step, unexpected] at h
      split at h
      · cases h
        exact hs
      · split_ifs at h
        · cases h
          exact hs
        · split at h <;> cases h
  | blockBrace kind scope keyword doc name =>
      obtain ⟨hscope, hdoc⟩ := hs
      refine isAttached_stepSymbol h ⟨hscope, hdoc⟩ fun hv => ?_
      have hf : found.value.isComment = false := by rw [hv]; rfl
      cases kind with
      | message =>
          exact @isAttached_state _ _ _ (.declaration (.message _ _))
            ⟨⟨hdoc, List.forall_mem_nil _, List.forall_mem_nil _⟩, hscope⟩ hf
      | enum =>
          exact @isAttached_state _ _ _ (.value _) ⟨hdoc, List.forall_mem_nil _, hscope⟩ hf
  | value block doc => exact isAttached_stepValue hs.1 hs.2 h
  | equals block name =>
      obtain ⟨hb, hn⟩ := hs
      exact isAttached_stepSymbol h ⟨hb, hn.append _⟩ fun _ => ⟨hb, hn.append _⟩
  | number block name =>
      obtain ⟨hb, hn⟩ := hs
      simp only [step] at h
      split_ifs at h
      · cases h
        exact ⟨hb, hn.append _⟩
      · cases h
        exact ⟨hb, hn.append _⟩
      · exact isAttached_stepDigits hb hn h
  | negative block name => exact isAttached_stepDigits hs.1 hs.2 h
  | options block name number =>
      obtain ⟨hb, hn⟩ := hs
      simp only [step] at h
      split_ifs at h
      · cases h
        exact ⟨hb, hn.append _⟩
      · exact hvalue hb hn h
  | insideOptions block name number bracket depth =>
      obtain ⟨hb, hn⟩ := hs
      simp only [step] at h
      split_ifs at h <;> cases h <;> exact ⟨hb, hn.append _⟩
  | semicolon block name number => exact hvalue hs.1 hs.2 h
  | trailing block value => exact isAttached_stepTrailing ht hs.1 hs.2 h
  | statement back start depth => exact isAttached_stepStatement hs h
  | skippedHead scope keyword start =>
      simp only [step] at h
      split_ifs at h <;> cases h <;> exact hs
  | skippedBody scope keyword start depth =>
      simp only [step] at h
      split_ifs at h with _ hv <;> cases h
      · exact hs
      · exact @isAttached_state _ _ _ (.declaration scope) hs (by rw [hv]; rfl)
      · exact hs
      · exact hs

end

theorem isAttached_run {tokens read rest : List (Located Token)} {state last : State}
    (ht : tokens = read ++ rest) (hs : state.IsAttached tokens read)
    (h : rest.foldlM step state = .ok last) : last.IsAttached tokens tokens := by
  induction rest generalizing read state with
  | nil =>
      obtain rfl := Except.ok.inj h
      rw [List.append_nil] at ht
      exact ht ▸ hs
  | cons found rest ih =>
      obtain ⟨next, hstep, hrest⟩ := foldlM_cons_eq_ok.mp h
      exact ih (by rw [ht]; simp) (isAttached_step ht hs hstep) hrest

theorem isAttached_parseTokens {stream : TokenStream} {file : File}
    (h : parseTokens stream = .ok file) : file.IsAttached stream.tokens := by
  obtain ⟨doc, hrun⟩ := parseTokens_eq_ok_iff.mp h
  have hstart : start.IsAttached stream.tokens [] := ⟨⟨nofun, nofun⟩, docBefore_nil.symm⟩
  exact (isAttached_run (List.nil_append _).symm hstart hrun).1

-- Two states that differ in no more than the doc that waits for a declaration
inductive State.SameButDoc : State → State → Prop
  | refl (state : State) : SameButDoc state state
  | declaration (scope : Scope) (doc other : List String) :
      SameButDoc (.declaration scope doc) (.declaration scope other)
  | value (block : OpenEnum) (doc other : List String) :
      SameButDoc (.value block doc) (.value block other)

theorem sameButDoc_doc {state next : State} {lines : List String} {covered : Span}
    (h : step state ⟨.doc lines, covered⟩ = .ok next) (other : List String) :
    ∃ same, step state ⟨.doc other, covered⟩ = .ok same ∧ next.SameButDoc same := by
  cases state with
  | declaration scope doc =>
      obtain rfl := Except.ok.inj h
      exact ⟨_, rfl, .declaration scope lines other⟩
  | value block doc =>
      obtain rfl := Except.ok.inj h
      exact ⟨_, rfl, .value block lines other⟩
  | trailing block last =>
      obtain rfl := Except.ok.inj h
      exact ⟨_, rfl, .value (block.add last) lines other⟩
  | negative block name => simp [step, stepDigits, unexpected] at h
  | _ =>
      obtain rfl := Except.ok.inj h
      exact ⟨_, rfl, .refl _⟩

section

variable {state same next : State} {found : Located Token}

theorem sameButDoc_comment (hs : state.SameButDoc same) (hc : found.value.isComment)
    (h : step state found = .ok next) :
    ∃ reached, step same found = .ok reached ∧ next.SameButDoc reached := by
  cases hs with
  | refl => exact ⟨next, h, .refl next⟩
  | declaration scope doc other =>
      obtain ⟨token, covered⟩ := found
      cases token with
      | doc lines =>
          obtain rfl := Except.ok.inj h
          exact ⟨_, rfl, .refl _⟩
      | remark text =>
          obtain rfl := Except.ok.inj h
          exact ⟨_, rfl, .declaration scope doc other⟩
      | _ => simp [Token.isComment] at hc
  | value block doc other =>
      obtain ⟨token, covered⟩ := found
      cases token with
      | doc lines =>
          obtain rfl := Except.ok.inj h
          exact ⟨_, rfl, .refl _⟩
      | remark text =>
          obtain rfl := Except.ok.inj h
          exact ⟨_, rfl, .value block doc other⟩
      | _ => simp [Token.isComment] at hc

theorem sameButDoc_comments {comments : List (Located Token)} (hs : state.SameButDoc same)
    (hc : ∀ comment ∈ comments, comment.value.isComment)
    (h : comments.foldlM step state = .ok next) :
    ∃ reached, comments.foldlM step same = .ok reached ∧ next.SameButDoc reached := by
  induction comments generalizing state same with
  | nil =>
      obtain rfl := Except.ok.inj h
      exact ⟨same, rfl, hs⟩
  | cons comment rest ih =>
      obtain ⟨hcomment, hrest⟩ := List.forall_mem_cons.mp hc
      obtain ⟨between, hstep, hrun⟩ := foldlM_cons_eq_ok.mp h
      obtain ⟨other, hother, hbetween⟩ := sameButDoc_comment hs hcomment hstep
      obtain ⟨reached, hreached, hnext⟩ := ih hbetween hrest hrun
      exact ⟨reached, foldlM_cons_eq_ok.mpr ⟨other, hother, hreached⟩, hnext⟩

-- A token that belongs to what is passed over
def IsPassedOver (state : State) (found : Located Token) : Prop :=
  found.value = .symbol ';' ∨ state.skips ∨ ∃ next, step state found = .ok next ∧ next.skips

-- The doc that waits goes no further than to a block or a value, so what is passed over drops it.

theorem stepDeclaration_passedOver {scope : Scope} {doc : List String}
    (h : stepDeclaration scope doc found = .ok next)
    (hp : found.value = .symbol ';' ∨ next.skips) (other : List String) :
    stepDeclaration scope other found = .ok next := by
  unfold stepDeclaration at h ⊢
  split at h
  · rename_i hv
    obtain rfl := Except.ok.inj h
    simp [hv, State.skips] at hp
  · rename_i hv
    obtain rfl := Except.ok.inj h
    simp [hv, State.skips] at hp
  · rename_i hv
    simpa only [hv] using h
  · rename_i word f hv
    simp only [stepTopLevel] at h ⊢
    split_ifs at h ⊢ with hm he
    · obtain rfl := Except.ok.inj h
      simp [hv, State.skips] at hp
    · obtain rfl := Except.ok.inj h
      simp [hv, State.skips] at hp
    all_goals exact h
  · rename_i word inner outer hv
    obtain rfl := Except.ok.inj h
    simp only [hv, stepMember] at hp ⊢
    split_ifs at hp ⊢ with hm he
    · simp [State.skips] at hp
    · simp [State.skips] at hp
    all_goals rfl
  · rename_i hv
    simpa only [hv] using h
  · simp [unexpected] at h
  · simp [unexpected] at h

theorem stepValue_passedOver {block : OpenEnum} {doc : List String}
    (h : stepValue block doc found = .ok next) (hp : found.value = .symbol ';' ∨ next.skips)
    (other : List String) : stepValue block other found = .ok next := by
  unfold stepValue at h ⊢
  split at h
  · rename_i hv
    obtain rfl := Except.ok.inj h
    simp [hv, State.skips] at hp
  · rename_i hv
    obtain rfl := Except.ok.inj h
    simp [hv, State.skips] at hp
  · rename_i hv
    simpa only [hv] using h
  · rename_i hv
    simpa only [hv] using h
  · rename_i word hv
    split_ifs at h ⊢
    · exact h
    · obtain rfl := Except.ok.inj h
      simp [hv, State.skips] at hp
  · simp [unexpected] at h

theorem step_passedOver (hs : state.SameButDoc same) (hp : IsPassedOver state found)
    (h : step state found = .ok next) : step same found = .ok next := by
  have hnext (hnone : state.skips = false) : found.value = .symbol ';' ∨ next.skips := by
    obtain hsemicolon | hstate | ⟨reached, hstep, hreached⟩ := hp
    · exact .inl hsemicolon
    · simp [hnone] at hstate
    · exact .inr (Except.ok.inj (hstep.symm.trans h) ▸ hreached)
  cases hs with
  | refl => exact h
  | declaration scope doc other => exact stepDeclaration_passedOver h (hnext rfl) other
  | value block doc other => exact stepValue_passedOver h (hnext rfl) other

end

-- In an accepted source the doc of a message or an enumeration is that of the comments in front of
-- its keyword, and the doc of a value that of the comments in front of its name or else the remark
-- on its line. A doc comment in front of what is passed over has no part in the file.
theorem docs_attached {source : String} {file : File} (h : parse source = .ok file) :
    ∃ stream, tokenize source = .ok stream ∧ file.IsAttached stream.tokens ∧
      ∀ front lines covered comments found behind state,
        stream.tokens = front ++ ⟨.doc lines, covered⟩ :: (comments ++ found :: behind) →
        (∀ comment ∈ comments, comment.value.isComment) →
        (front ++ ⟨.doc lines, covered⟩ :: comments).foldlM step start = .ok state →
        IsPassedOver state found →
        ∀ other, parseTokens
          ⟨front ++ ⟨.doc other, covered⟩ :: (comments ++ found :: behind), stream.stop⟩
            = .ok file := by
  obtain ⟨stream, hstream, hparse⟩ := bind_eq_ok.mp h
  refine ⟨stream, hstream, isAttached_parseTokens hparse, ?_⟩
  intro front lines covered comments found behind state htokens hcomments hbefore hp other
  obtain ⟨doc, hwhole⟩ := parseTokens_eq_ok_iff.mp hparse
  rw [htokens, ← List.cons_append, ← List.append_assoc, foldlM_append_of_eq_ok hbefore] at hwhole
  obtain ⟨last, hstep, hbehind⟩ := foldlM_cons_eq_ok.mp hwhole
  obtain ⟨before, hfront, hrun⟩ := foldlM_append_eq_ok.mp hbefore
  obtain ⟨next, hdoc, hrun⟩ := foldlM_cons_eq_ok.mp hrun
  obtain ⟨same, hsame, hnext⟩ := sameButDoc_doc hdoc other
  obtain ⟨reached, hreached, hstate⟩ := sameButDoc_comments hnext hcomments hrun
  refine parseTokens_eq_ok_iff.mpr ⟨doc, ?_⟩
  rw [foldlM_append_of_eq_ok hfront, foldlM_cons_of_eq_ok hsame, foldlM_append_of_eq_ok hreached,
    foldlM_cons_of_eq_ok (step_passedOver hstate hp hstep)]
  exact hbehind

-- Docs of every kind, and one in front of a field
def documentedSizes : String :=
  "/** Sizes */ // here\nmessage M \x7b\n/** area */ int32 area = 1;\nenum E \x7b\n"
    ++ "/** zero */ A = 0; // none\nB = 1; // one\nC = 2;\n\x7d\n\x7d\n"

theorem docs_attached_sizes :
    ∃ stream file, tokenize documentedSizes = .ok stream ∧ parse documentedSizes = .ok file ∧
      file.IsAttached stream.tokens ∧
      (file.messages.map fun message =>
        (message.doc, message.enums.map fun enumeration => enumeration.values.map EnumValue.doc))
          = [(["Sizes"], [[["zero"], ["one"], []]])] ∧
      ∃ front covered behind, stream.tokens = front ++ ⟨.doc ["area"], covered⟩ :: behind ∧
        parseTokens ⟨front ++ ⟨.doc ["another"], covered⟩ :: behind, stream.stop⟩ = .ok file := by
  have hdocs : ((parse documentedSizes).toOption.map fun file => file.messages.map fun message =>
      (message.doc, message.enums.map fun enumeration => enumeration.values.map EnumValue.doc))
        = some [(["Sizes"], [[["zero"], ["one"], []]])] := by
    decide +kernel
  let comment : Located Token := ⟨.doc ["area"], ⟨⟨33, 2, 0⟩, ⟨44, 2, 11⟩⟩⟩
  let field : Located Token := ⟨.word "int32", ⟨⟨45, 2, 12⟩, ⟨50, 2, 17⟩⟩⟩
  have hfield : ((tokenize documentedSizes).toOption.map fun stream =>
      (stream.tokens.drop 5).take 2) = some [comment, field] := by
    decide +kernel
  have hskips : ((tokenize documentedSizes).toOption.bind fun stream =>
      ((stream.tokens.take 5 ++ [comment]).foldlM step start).toOption.bind fun state =>
        (step state field).toOption.map State.skips) = some true := by
    decide +kernel
  obtain ⟨file, hfile, hvalues⟩ := Option.map_eq_some_iff.mp hdocs
  have hparse : parse documentedSizes = .ok file := toOption_eq_some.mp hfile
  obtain ⟨stream, hstream, hattached, hpassed⟩ := docs_attached hparse
  rw [hstream] at hfield hskips
  have htwo : (stream.tokens.drop 5).take 2 = [comment, field] := Option.some.inj hfield
  have htokens : stream.tokens
      = stream.tokens.take 5 ++ comment :: field :: stream.tokens.drop 7 := by
    have hdrop := List.take_append_drop 2 (stream.tokens.drop 5)
    rw [htwo, List.drop_drop] at hdrop
    exact (List.take_append_drop 5 _).symm.trans (congrArg _ hdrop.symm)
  have hrun : ((stream.tokens.take 5 ++ [comment]).foldlM step start).toOption.bind (fun state =>
      (step state field).toOption.map State.skips) = some true := hskips
  obtain ⟨state, hstate, hnext⟩ := Option.bind_eq_some_iff.mp hrun
  obtain ⟨next, hstep, hnext⟩ := Option.map_eq_some_iff.mp hnext
  refine ⟨stream, file, hstream, hparse, hattached, hvalues, _, _, _, htokens, ?_⟩
  exact hpassed _ _ _ [] field _ state htokens nofun (toOption_eq_some.mp hstate)
    (.inr (.inr ⟨next, toOption_eq_some.mp hstep, hnext⟩)) ["another"]

end Codebook.Proto
