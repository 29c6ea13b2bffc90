import Codebook.Proofs.Proto.Inside
import Codebook.Proofs.Proto.Skipped
import Mathlib.Data.List.Forall2

namespace Codebook.Proto

-- The fields of a message. Nothing is kept of them, and the reader has no grammar for them: it
-- looks at the first token of a member to tell what it is.

-- The name of a type. An absolute one begins with a dot.
structure Reference where
  absolute : Bool
  first : String
  rest : List String
deriving Repr, DecidableEq

inductive FieldType where
  | named (reference : Reference)
  | map (key : String) (value : Reference)
deriving Repr, DecidableEq

inductive Label where
  | optional
  | repeated
  | required
deriving Repr, DecidableEq

structure Field where
  label : Option Label
  type : FieldType
  name : String
  number : String
  options : Option (List Token)
  nested : ∀ list ∈ options, Nested allBrackets list

def Reference.tokens (reference : Reference) : List Token :=
  (if reference.absolute then [.symbol '.'] else [])
    ++ .word reference.first :: reference.rest.flatMap fun part => [.symbol '.', .word part]

def FieldType.tokens : FieldType → List Token
  | .named reference => reference.tokens
  | .map key value =>
    .word "map" :: .symbol '<' :: (.word key :: .symbol ',' :: value.tokens ++ [.symbol '>'])

def Label.word : Label → String
  | optional => "optional"
  | repeated => "repeated"
  | required => "required"

def optionTokens (options : Option (List Token)) : List Token :=
  options.elim [] fun list => .symbol '[' :: (list ++ [.symbol ']'])

def Field.tokens (field : Field) : List Token :=
  (field.label.elim [] fun label => [.word label.word]) ++ field.type.tokens
    ++ .word field.name :: .symbol '=' :: .number field.number
      :: (optionTokens field.options ++ [.symbol ';'])

-- The first token of a type

def Reference.opening (reference : Reference) : Token :=
  if reference.absolute then .symbol '.' else .word reference.first

def FieldType.opening : FieldType → Token
  | .named reference => reference.opening
  | .map _ _ => .word "map"

-- The first token of a field
def Field.opening (field : Field) : Token :=
  field.label.elim field.type.opening fun label => .word label.word

inductive Member where
  | field (field : Field)
  | message (block : Message)
  | enum (block : Enumeration)

def Member.messages : Member → List Message
  | message block => [block]
  | _ => []

def Member.enums : Member → List Enumeration
  | enum block => [block]
  | _ => []

def OpenMessage.withMembers (block : OpenMessage) (members : List Member) : OpenMessage :=
  { block with
    messages := block.messages ++ members.flatMap Member.messages
    enums := block.enums ++ members.flatMap Member.enums }

def uncommented (tokens : List (Located Token)) : List Token :=
  (tokens.filter (!·.value.isComment)).map Located.value

-- Comments may stand anywhere in a field but behind its semicolon. There they belong to the member
-- that follows.
def Member.IsWrittenAs (tokens : List (Located Token)) : Member → Prop
  | field one => uncommented tokens = one.tokens ∧
      ∃ front last, tokens = front ++ [last] ∧ last.value = .symbol ';'
  | message block => IsBlock tokens { messages := [block] }
  | enum block => IsBlock tokens { enums := [block] }

-- The tokens of a message with some members
def IsMessage (tokens : List (Located Token)) (name : String) (members : List Member)
    (covered : Span) : Prop :=
  ∃ keyword title opening pieces comments closing,
    tokens = keyword :: title :: opening :: (pieces.flatten ++ (comments ++ [closing])) ∧
      keyword.value = .word "message" ∧ title.value = .word name ∧ opening.value = .symbol '{' ∧
      closing.value = .symbol '}' ∧ covered = ⟨keyword.span.start, closing.span.stop⟩ ∧
      (∀ comment ∈ comments, comment.value.isComment) ∧
      List.Forall₂ Member.IsWrittenAs pieces members

-- A member whose first token does not make the reader take it for another one
def Member.IsPlain : Member → Prop
  | field one => one.opening ∉
      [.symbol '.', .word "message", .word "enum", .word "oneof", .word "extend"]
  | _ => True

instance : DecidablePred Member.IsPlain
  | .field one => inferInstanceAs (Decidable (one.opening ∉ _))
  | .message _ | .enum _ => .isTrue trivial

-- What stands behind the first token of a field

instance (kinds : List (Char × Char)) (token : Token) : Decidable (token.IsFree kinds) :=
  inferInstanceAs (Decidable (∀ kind ∈ kinds, token ≠ .symbol kind.1 ∧ token ≠ .symbol kind.2))

theorem isFree_word (kinds : List (Char × Char)) (name : String) :
    (Token.word name).IsFree kinds := fun _ _ => ⟨nofun, nofun⟩

theorem isFree_number (kinds : List (Char × Char)) (text : String) :
    (Token.number text).IsFree kinds := fun _ _ => ⟨nofun, nofun⟩

theorem goesOn_word (name : String) {rest : List Token} (h : GoesOn rest) :
    GoesOn (.word name :: rest) :=
  .token (isFree_word _ _) nofun h

theorem goesOn_symbol {c : Char} (hc : c ∈ ['.', ',', '=']) {rest : List Token} (h : GoesOn rest) :
    GoesOn (.symbol c :: rest) := by
  simp only [List.mem_cons, List.not_mem_nil, or_false] at hc
  rcases hc with rfl | rfl | rfl
  all_goals exact .token (by decide) (by decide) h

theorem goesOn_reference (reference : Reference) :
    ∃ values, reference.tokens = reference.opening :: values ∧ GoesOn values := by
  have hparts (parts : List String) :
      GoesOn (parts.flatMap fun part => [.symbol '.', .word part]) := by
    induction parts with
    | nil => exact .nil
    | cons part rest ih =>
        rw [List.flatMap_cons]
        exact goesOn_symbol (by decide) (goesOn_word part ih)
  obtain ⟨absolute, first, rest⟩ := reference
  cases absolute with
  | false => exact ⟨_, rfl, hparts rest⟩
  | true => exact ⟨_, rfl, goesOn_word first (hparts rest)⟩

theorem goesOn_opening (type : FieldType) {rest : List Token} (h : GoesOn rest) :
    GoesOn (type.opening :: rest) := by
  cases type with
  | map key value => exact goesOn_word _ h
  | named reference =>
      obtain ⟨absolute, first, parts⟩ := reference
      cases absolute with
      | false => exact goesOn_word first h
      | true => exact goesOn_symbol (by decide) h

theorem goesOn_type (type : FieldType) :
    ∃ values, type.tokens = type.opening :: values ∧ GoesOn values := by
  cases type with
  | named reference => exact goesOn_reference reference
  | map key value =>
      obtain ⟨values, htokens, hvalues⟩ := goesOn_reference value
      refine ⟨_, rfl, ?_⟩
      rw [htokens]
      have hinner : GoesOn (.word key :: .symbol ',' :: value.opening :: values) :=
        goesOn_word _ (goesOn_symbol (by decide) (goesOn_opening (.named value) hvalues))
      exact @GoesOn.group ('<', '>') _ _ (by decide) (by decide) hinner.nested .nil

theorem goesOn_options {options : Option (List Token)}
    (h : ∀ list ∈ options, Nested allBrackets list) : GoesOn (optionTokens options) := by
  cases options with
  | none => exact .nil
  | some list => exact @GoesOn.group ('[', ']') _ _ (by decide) (by decide) (h list rfl) .nil

theorem goesOn_field (field : Field) :
    ∃ values, field.tokens = field.opening :: (values ++ [.symbol ';']) ∧ GoesOn values := by
  obtain ⟨label, type, name, number, options, nested⟩ := field
  have hend : GoesOn (.word name :: .symbol '=' :: .number number :: optionTokens options) :=
    goesOn_word _ (goesOn_symbol (by decide)
      (.token (isFree_number _ _) nofun (goesOn_options nested)))
  obtain ⟨values, htype, hvalues⟩ := goesOn_type type
  cases label with
  | none =>
      refine ⟨_, ?_, hvalues.append hend⟩
      simp [Field.tokens, Field.opening, htype]
  | some label =>
      refine ⟨_, ?_, (goesOn_opening type hvalues).append hend⟩
      simp [Field.tokens, Field.opening, htype]

-- The first token that is no comment
theorem exists_of_uncommented {tokens : List (Located Token)} {value : Token}
    {values : List Token} (h : uncommented tokens = value :: values) :
    ∃ comments found rest, tokens = comments ++ found :: rest ∧
      (∀ comment ∈ comments, comment.value.isComment) ∧ found.value = value ∧
        uncommented rest = values := by
  obtain ⟨found, others, hfilter, hfound, hothers⟩ := List.map_eq_cons_iff.mp h
  obtain ⟨comments, rest, rfl, hcomments, -, hrest⟩ := List.filter_eq_cons_iff.mp hfilter
  refine ⟨comments, found, rest, rfl, ?_, hfound, ?_⟩
  · simpa using hcomments
  · rw [uncommented, hrest, hothers]

-- A word in a message that begins no block begins a statement.
theorem step_plain {inner : OpenMessage} {outer : Scope} {doc : List String}
    {found : Located Token} {name : String} (hv : found.value = .word name)
    (hn : name ∉ ["message", "enum", "oneof", "extend"]) :
    step (.declaration (.message inner outer) doc) found
      = .ok (.statement (.declaration (.message inner outer)) found.span 0) := by
  simp only [List.mem_cons, List.not_mem_nil, or_false, not_or] at hn
  simp [step, stepDeclaration, hv, stepMember, hn]

theorem step_skipped (inner : OpenMessage) (outer : Scope) (doc : List String)
    {found : Located Token} {keyword : String} (hv : found.value = .word keyword)
    (hk : keyword ∈ ["oneof", "extend"]) :
    step (.declaration (.message inner outer) doc) found
      = .ok (.skippedHead (.message inner outer) keyword found.span) := by
  simp only [List.mem_cons, List.not_mem_nil, or_false] at hk
  rcases hk with rfl | rfl <;> simp [step, stepDeclaration, hv, stepMember]

theorem opening_field (field : Field) :
    field.opening = .symbol '.' ∨ ∃ name, field.opening = .word name := by
  obtain ⟨label, type, name, number, options, nested⟩ := field
  cases label with
  | some label => exact .inr ⟨label.word, rfl⟩
  | none =>
      cases type with
      | map key value => exact .inr ⟨"map", rfl⟩
      | named reference =>
          obtain ⟨absolute, first, rest⟩ := reference
          cases absolute with
          | false => exact .inr ⟨first, rfl⟩
          | true => exact .inl rfl

theorem foldlM_field {field : Field} {tokens : List (Located Token)}
    (hw : (Member.field field).IsWrittenAs tokens) (hp : (Member.field field).IsPlain)
    (inner : OpenMessage) (outer : Scope) :
    tokens.foldlM step (.declaration (.message inner outer) [])
      = .ok (.declaration (.message inner outer) []) := by
  obtain ⟨hvalues, front, last, rfl, hlast⟩ := hw
  obtain ⟨values, htokens, hgoes⟩ := goesOn_field field
  have hsplit : uncommented (front ++ [last]) = uncommented front ++ [.symbol ';'] := by
    simp [uncommented, hlast, Token.isComment]
  rw [hsplit, htokens, ← List.cons_append] at hvalues
  obtain ⟨comments, found, rest, rfl, hcomments, hfound, hrest⟩ :=
    exists_of_uncommented (List.append_cancel_right hvalues)
  obtain ⟨name, hname⟩ : ∃ name, field.opening = .word name :=
    (opening_field field).resolve_left fun hdot => hp (by simp [hdot])
  obtain ⟨waiting, hwaiting⟩ := foldlM_comments hcomments []
  have hstatement : step (.declaration (.message inner outer) waiting) found
      = .ok (.statement (.declaration (.message inner outer)) found.span 0) := by
    refine step_plain (hfound.trans hname) fun hn => hp ?_
    rw [hname]
    simpa using hn
  have hskips : Skips (.statement (.declaration (.message inner outer)) found.span 0)
      (rest ++ [last]) (.declaration (.message inner outer) []) := by
    have hquiet (found : Located Token) (hf : (!found.value.isComment) = false) :
        found.value.isQuiet := by
      obtain ⟨value, covered⟩ := found
      cases value with
      | doc | remark => rfl
      | _ => simp [Token.isComment] at hf
    refine (@skips_filter_iff _ _ [] rest last _ (fun _ => rfl) hquiet).mpr ?_
    refine skips_goesOn _ _ ?_ hlast
    rw [← hrest] at hgoes
    exact hgoes
  have hend := hskips.reads []
  rw [List.append_nil] at hend
  rw [List.append_assoc, List.cons_append, foldlM_append_of_eq_ok (hwaiting _),
    foldlM_cons_of_eq_ok hstatement]
  exact hend

theorem foldlM_member {member : Member} {tokens : List (Located Token)}
    (hw : member.IsWrittenAs tokens) (hp : member.IsPlain) (inner : OpenMessage) (outer : Scope) :
    tokens.foldlM step (.declaration (.message inner outer) [])
      = .ok (.declaration (.message (inner.withMembers [member]) outer) []) := by
  cases member with
  | field one =>
      have hsame : inner.withMembers [.field one] = inner := by
        simp [OpenMessage.withMembers, Member.messages, Member.enums]
      rw [hsame]
      exact foldlM_field hw hp inner outer
  | message block => exact hw.run (.message inner outer)
  | enum block => exact hw.run (.message inner outer)

theorem foldlM_members {members : List Member} {pieces : List (List (Located Token))}
    (hw : List.Forall₂ Member.IsWrittenAs pieces members) (hp : ∀ member ∈ members, member.IsPlain)
    (inner : OpenMessage) (outer : Scope) :
    pieces.flatten.foldlM step (.declaration (.message inner outer) [])
      = .ok (.declaration (.message (inner.withMembers members) outer) []) := by
  induction hw generalizing inner with
  | nil =>
      have hsame : inner.withMembers [] = inner := by simp [OpenMessage.withMembers]
      rw [hsame]
      rfl
  | @cons piece member _ rest hone _ ih =>
      obtain ⟨hfirst, hrest⟩ := List.forall_mem_cons.mp hp
      have hboth : inner.withMembers (member :: rest)
          = (inner.withMembers [member]).withMembers rest := by
        simp [OpenMessage.withMembers]
      rw [List.flatten_cons, hboth,
        foldlM_append_of_eq_ok (foldlM_member hone hfirst inner outer)]
      exact ih hrest _

-- A run goes on behind comments that change nothing.
theorem exists_next {state last : State} {tokens : List (Located Token)} {value : Token}
    {values : List Token}
    (hs : ∀ one : Located Token, one.value.isComment → step state one = .ok state)
    (h : uncommented tokens = value :: values) (hrun : tokens.foldlM step state = .ok last) :
    ∃ found next rest, found.value = value ∧ step state found = .ok next ∧
      uncommented rest = values ∧ rest.foldlM step next = .ok last := by
  obtain ⟨comments, found, rest, rfl, hcomments, hfound, hrest⟩ := exists_of_uncommented h
  have hstays : comments.foldlM step state = .ok state := by
    clear h hrun
    induction comments with
    | nil => rfl
    | cons one more ih =>
        obtain ⟨hone, hmore⟩ := List.forall_mem_cons.mp hcomments
        rw [foldlM_cons_of_eq_ok (hs one hone)]
        exact ih hmore
  rw [foldlM_append_of_eq_ok hstays] at hrun
  obtain ⟨next, hnext, hlast⟩ := foldlM_cons_eq_ok.mp hrun
  exact ⟨found, next, rest, hfound, hnext, hrest, hlast⟩

theorem tokens_of_keyword {field : Field} {kind : BlockKind}
    (h : field.opening = .word kind.keyword) :
    ∃ values, field.tokens = .word kind.keyword :: .symbol '.' :: values ∨
      field.tokens = .word kind.keyword :: .word field.name :: .symbol '=' :: values := by
  obtain ⟨label, type, name, number, options, nested⟩ := field
  cases label with
  | some label =>
      have hword : label.word ≠ kind.keyword := by cases label <;> cases kind <;> decide
      exact absurd (Token.word.inj h) hword
  | none =>
      cases type with
      | map key value =>
          have hword : "map" ≠ kind.keyword := by cases kind <;> decide
          exact absurd (Token.word.inj h) hword
      | named reference =>
          obtain ⟨absolute, first, rest⟩ := reference
          cases absolute with
          | true => simp [Field.opening, FieldType.opening, Reference.opening] at h
          | false =>
              obtain rfl : first = kind.keyword := Token.word.inj h
              cases rest with
              | nil => exact ⟨_, .inr rfl⟩
              | cons part more => exact ⟨_, .inl rfl⟩

-- A dot or an equals sign stands in no head of a block.
theorem foldlM_notHead {kind : BlockKind} {scope : Scope} {keyword : Span} {doc : List String}
    {tokens : List (Located Token)} {name : String} {values : List Token} {last : State}
    (h : uncommented tokens = .symbol '.' :: values ∨
      uncommented tokens = .word name :: .symbol '=' :: values) :
    tokens.foldlM step (.blockName kind scope keyword doc) ≠ .ok last := by
  intro hrun
  have hname (one : Located Token) (hc : one.value.isComment) :
      step (.blockName kind scope keyword doc) one = .ok (.blockName kind scope keyword doc) := by
    obtain ⟨value, covered⟩ := one
    cases value with
    | doc | remark => rfl
    | _ => simp [Token.isComment] at hc
  have hbrace (one : Located Token) (hc : one.value.isComment) :
      step (.blockBrace kind scope keyword doc name) one
        = .ok (.blockBrace kind scope keyword doc name) := if_pos hc
  rcases h with hdot | hequals
  · obtain ⟨found, next, rest, hfound, hnext, -, -⟩ := exists_next hname hdot hrun
    cases kind <;> simp [step, hfound, unexpected, Token.isComment] at hnext
  · obtain ⟨found, next, rest, hfound, hnext, hrest, hbehind⟩ := exists_next hname hequals hrun
    obtain rfl : .blockBrace kind scope keyword doc name = next := by
      simpa [step, hfound] using hnext
    obtain ⟨equals, brace, more, hvalue, hstep, -, -⟩ := exists_next hbrace hrest hbehind
    simp [step, stepSymbol, hvalue, unexpected, Token.isComment] at hstep

theorem exists_written {front behind : List Member} {member : Member}
    {pieces : List (List (Located Token))}
    (h : List.Forall₂ Member.IsWrittenAs pieces (front ++ member :: behind)) :
    ∃ before piece after, pieces = before ++ piece :: after ∧
      List.Forall₂ Member.IsWrittenAs before front ∧ member.IsWrittenAs piece := by
  obtain ⟨piece, after, hpiece, -, hdrop⟩ :=
    List.forall₂_cons_right_iff.mp (List.forall₂_drop_append _ _ _ h)
  refine ⟨_, piece, after, ?_, List.forall₂_take_append _ _ _ h, hpiece⟩
  rw [← hdrop, List.take_append_drop]

theorem parseTokens_eq_error {front behind : List (Located Token)} {found : Located Token}
    {state : State} {fault : Fault} (hrun : front.foldlM step start = .ok state)
    (hstep : step state found = .error fault) (stop : Position) :
    parseTokens ⟨front ++ found :: behind, stop⟩ = .error fault := by
  rw [parseTokens, foldlM_append_of_eq_ok hrun, List.foldlM_cons, hstep]
  rfl

theorem foldlM_heading {keyword title opening : Located Token} {name : String}
    (hk : keyword.value = .word "message") (ht : title.value = .word name)
    (ho : opening.value = .symbol '{') (more : List (Located Token)) :
    (keyword :: title :: opening :: more).foldlM step start
      = more.foldlM step (.declaration (.message
        { keyword := keyword.span, name, doc := [], brace := opening.span } (.file {})) []) := by
  obtain ⟨_, first⟩ := keyword
  obtain ⟨_, second⟩ := title
  obtain ⟨_, brace⟩ := opening
  subst hk ht ho
  rfl

section

variable {tokens : List (Located Token)} {name : String} {members : List Member} {covered : Span}

theorem parseTokens_message (hm : IsMessage tokens name members covered)
    (hp : ∀ member ∈ members, member.IsPlain) (stop : Position) :
    parseTokens ⟨tokens, stop⟩ = .ok { messages := [{
      name, doc := [], span := covered,
      messages := members.flatMap Member.messages, enums := members.flatMap Member.enums }] } := by
  obtain ⟨keyword, title, opening, pieces, comments, ⟨_, last⟩, rfl, hkeyword, htitle, hopening,
    rfl, rfl, hcomments, hpieces⟩ := hm
  obtain ⟨waiting, hwaiting⟩ := foldlM_comments hcomments []
  refine parseTokens_eq_ok_iff.mpr ⟨[], ?_⟩
  rw [foldlM_heading hkeyword htitle hopening,
    foldlM_append_of_eq_ok (foldlM_members hpieces hp _ _), foldlM_append_of_eq_ok (hwaiting _)]
  rfl

-- What is read up to the first token of a field
theorem exists_opening {front behind : List Member} {one : Field}
    (hm : IsMessage tokens name (front ++ .field one :: behind) covered)
    (hp : ∀ member ∈ front, member.IsPlain) :
    ∃ read found rest more inner outer waiting, tokens = read ++ found :: (rest ++ more) ∧
      found.value = one.opening ∧ one.tokens = one.opening :: uncommented rest ∧
      read.foldlM step start = .ok (.declaration (.message inner outer) waiting) := by
  obtain ⟨keyword, title, opening, pieces, comments, closing, rfl, hkeyword, htitle, hopening,
    -, -, -, hpieces⟩ := hm
  obtain ⟨before, piece, after, rfl, hbefore, hvalues, -⟩ := exists_written hpieces
  obtain ⟨values, htokens, -⟩ := goesOn_field one
  obtain ⟨skipped, found, rest, rfl, hskipped, hfound, hrest⟩ :=
    exists_of_uncommented (hvalues.trans htokens)
  obtain ⟨waiting, hwaiting⟩ := foldlM_comments hskipped []
  have hread := (foldlM_heading hkeyword htitle hopening (before.flatten ++ skipped)).trans
    (foldlM_append_eq_ok.mpr ⟨_, foldlM_members hbefore hp _ _, hwaiting _⟩)
  refine ⟨_, found, rest, after.flatten ++ (comments ++ [closing]), _, _, waiting, ?_, hfound, ?_,
    hread⟩
  · simp
  · rw [htokens, hrest]

end

-- Fields are passed over wherever they stand in a message, so what is read of it is what is nested
-- in it. But a field is told by its first token. Without a label it is not accepted where its type
-- begins with a dot or with the keyword of a block, and where it begins with the keyword of another
-- declaration it is passed over with the next group of braces as its body.
theorem fields_read {source : String} {stream : TokenStream} {name : String}
    {members : List Member} {covered : Span} (hs : tokenize source = .ok stream)
    (hm : IsMessage stream.tokens name members covered) :
    ((∀ member ∈ members, member.IsPlain) →
      parse source = .ok { messages := [{
        name, doc := [], span := covered,
        messages := members.flatMap Member.messages, enums := members.flatMap Member.enums }] }) ∧
    ∀ front one behind, members = front ++ .field one :: behind →
      (∀ member ∈ front, member.IsPlain) →
        (one.opening = .symbol '.' → ∃ dot ∈ stream.tokens, dot.value = .symbol '.' ∧
          parse source = .error (.unexpected .field (some dot.value) dot.span)) ∧
        (∀ kind : BlockKind, one.opening = .word kind.keyword →
          ∃ fault, parse source = .error fault) ∧
        ∀ keyword ∈ ["oneof", "extend"], one.opening = .word keyword →
          ∃ read found more scope, stream.tokens = read ++ found :: more ∧
            found.value = .word keyword ∧ (read ++ [found]).foldlM step start
              = .ok (.skippedHead scope keyword found.span) := by
  have hparse : parse source = parseTokens stream := by
    rw [parse, hs]
    rfl
  rw [hparse]
  refine ⟨fun hp => parseTokens_message hm hp stream.stop, ?_⟩
  rintro front one behind rfl hp
  obtain ⟨read, found, rest, more, inner, outer, waiting, htokens, hfound, hone, hread⟩ :=
    exists_opening hm hp
  have hstream : stream = ⟨read ++ found :: (rest ++ more), stream.stop⟩ := by rw [← htokens]
  refine ⟨fun hdot => ⟨found, by simp [htokens], hfound.trans hdot, ?_⟩, fun kind hkind => ?_,
    fun keyword hk hword => ?_⟩
  · rw [hstream]
    refine parseTokens_eq_error hread ?_ stream.stop
    simp [step, stepDeclaration, unexpected, hfound, hdot]
  · cases hresult : parseTokens stream with
    | error fault => exact ⟨fault, rfl⟩
    | ok file =>
        obtain ⟨doc, hall⟩ := parseTokens_eq_ok_iff.mp hresult
        have hkeyword := step_keyword kind (.message inner outer) waiting (hfound.trans hkind)
        rw [htokens, foldlM_append_of_eq_ok hread, foldlM_cons_of_eq_ok hkeyword] at hall
        obtain ⟨_, hpiece, -⟩ := foldlM_append_eq_ok.mp hall
        obtain ⟨others, hothers⟩ := tokens_of_keyword hkind
        rw [hone, hkind, List.cons.injEq, List.cons.injEq] at hothers
        exact absurd hpiece (foldlM_notHead (hothers.imp And.right And.right))
  · have hstep := step_skipped inner outer waiting (hfound.trans hword) hk
    refine ⟨read, found, rest ++ more, .message inner outer, htokens, hfound.trans hword, ?_⟩
    rw [foldlM_append_of_eq_ok hread, foldlM_cons_of_eq_ok hstep]
    rfl

-- An absolute type behind a label, an enumeration and a map
def mixedFields : String :=
  "message M \x7b\noptional .a.B b = 1 [(o) = \x7b\x7d];\nenum E \x7b A = 0; \x7d\n"
    ++ "map<string, .a.B> c = 2; // c\n\x7d\n"

def mixedStream : TokenStream := (tokenize mixedFields).toOption.getD default

def nestedEnum : Enumeration :=
  ⟨"E", [], [⟨"A", 0, [], ⟨⟨53, 2, 9⟩, ⟨59, 2, 15⟩⟩⟩], ⟨⟨44, 2, 0⟩, ⟨61, 2, 17⟩⟩⟩

def nestedTokens : List (Located Token) :=
  [⟨.word "enum", ⟨⟨44, 2, 0⟩, ⟨48, 2, 4⟩⟩⟩, ⟨.word "E", ⟨⟨49, 2, 5⟩, ⟨50, 2, 6⟩⟩⟩,
    ⟨.symbol '{', ⟨⟨51, 2, 7⟩, ⟨52, 2, 8⟩⟩⟩, ⟨.word "A", ⟨⟨53, 2, 9⟩, ⟨54, 2, 10⟩⟩⟩,
    ⟨.symbol '=', ⟨⟨55, 2, 11⟩, ⟨56, 2, 12⟩⟩⟩, ⟨.number "0", ⟨⟨57, 2, 13⟩, ⟨58, 2, 14⟩⟩⟩,
    ⟨.symbol ';', ⟨⟨58, 2, 14⟩, ⟨59, 2, 15⟩⟩⟩, ⟨.symbol '}', ⟨⟨60, 2, 16⟩, ⟨61, 2, 17⟩⟩⟩]

theorem isBlock_nestedTokens : IsBlock nestedTokens { enums := [nestedEnum] } := by
  refine ⟨⟨[], _, _, .enum, rfl, nofun, rfl⟩, fun _ => rfl, ?_⟩
  intro front behind hsplit hne ⟨found, hfound, _⟩ stop other hother
  have hprefixes : ∀ front ∈ nestedTokens.inits, front ≠ [] → front ≠ nestedTokens →
      (parseTokens ⟨front, .start⟩).toOption = none := by decide +kernel
  have hnone := hprefixes front ((List.mem_inits _ _).mpr ⟨behind, hsplit.symm⟩)
    (List.ne_nil_of_mem hfound) fun he => hne (List.self_eq_append_right.mp (he.trans hsplit))
  obtain ⟨doc, hrun⟩ := parseTokens_eq_ok_iff.mp hother
  have haccepted : parseTokens ⟨front, .start⟩ = .ok other :=
    parseTokens_eq_ok_iff.mpr ⟨doc, hrun⟩
  simp [haccepted, Except.toOption] at hnone

def absoluteType : FieldType := .named ⟨true, "a", ["B"]⟩

def labelledField : Field where
  label := some .optional
  type := absoluteType
  name := "b"
  number := "1"
  options := some [.symbol '(', .word "o", .symbol ')', .symbol '=', .symbol '{', .symbol '}']
  nested := by
    rintro _ ⟨⟩
    refine @Nested.group _ ('(', ')') [.word "o"] _ (by decide) (.token (by decide) .nil) ?_
    exact .token (by decide) (@Nested.group _ ('{', '}') [] _ (by decide) .nil .nil)

def mapField : Field := ⟨none, .map "string" ⟨true, "a", ["B"]⟩, "c", "2", none, nofun⟩

def unlabelledField : Field := ⟨none, absoluteType, "b", "1", none, nofun⟩

def unlabelledFields : String := "message M \x7b\n.a.B b = 1;\n\x7d\n"

def unlabelledStream : TokenStream := (tokenize unlabelledFields).toOption.getD default

theorem fields_read_with_and_without_label :
    parse mixedFields = .ok { messages := [{
      name := "M", doc := [], messages := [], enums := [nestedEnum],
      span := ⟨⟨0, 0, 0⟩, ⟨93, 4, 1⟩⟩ }] } ∧
    ∃ covered, parse unlabelledFields
      = .error (.unexpected .field (some (.symbol '.')) covered) := by
  have hmixed : tokenize mixedFields = .ok mixedStream := toOption_eq_some.mp (by decide +kernel)
  have hfields : IsMessage mixedStream.tokens "M"
      [.field labelledField, .enum nestedEnum, .field mapField] ⟨⟨0, 0, 0⟩, ⟨93, 4, 1⟩⟩ := by
    refine ⟨⟨.word "message", ⟨⟨0, 0, 0⟩, ⟨7, 0, 7⟩⟩⟩, ⟨.word "M", ⟨⟨8, 0, 8⟩, ⟨9, 0, 9⟩⟩⟩,
      ⟨.symbol '{', ⟨⟨10, 0, 10⟩, ⟨11, 0, 11⟩⟩⟩,
      [(mixedStream.tokens.drop 3).take 16 ++ [⟨.symbol ';', ⟨⟨42, 1, 30⟩, ⟨43, 1, 31⟩⟩⟩],
        nestedTokens,
        (mixedStream.tokens.drop 28).take 12 ++ [⟨.symbol ';', ⟨⟨85, 3, 23⟩, ⟨86, 3, 24⟩⟩⟩]],
      (mixedStream.tokens.drop 41).take 1, ⟨.symbol '}', ⟨⟨92, 4, 0⟩, ⟨93, 4, 1⟩⟩⟩,
      by decide +kernel, rfl, rfl, rfl, rfl, rfl, by decide +kernel, ?_⟩
    refine .cons ⟨by decide +kernel, _, _, rfl, rfl⟩ (.cons isBlock_nestedTokens ?_)
    exact .cons ⟨by decide +kernel, _, _, rfl, rfl⟩ .nil
  have hunlabelled : tokenize unlabelledFields = .ok unlabelledStream :=
    toOption_eq_some.mp (by decide +kernel)
  have hfield : IsMessage unlabelledStream.tokens "M" [.field unlabelledField]
      ⟨⟨0, 0, 0⟩, ⟨25, 2, 1⟩⟩ := by
    refine ⟨⟨.word "message", ⟨⟨0, 0, 0⟩, ⟨7, 0, 7⟩⟩⟩, ⟨.word "M", ⟨⟨8, 0, 8⟩, ⟨9, 0, 9⟩⟩⟩,
      ⟨.symbol '{', ⟨⟨10, 0, 10⟩, ⟨11, 0, 11⟩⟩⟩,
      [(unlabelledStream.tokens.drop 3).take 7 ++ [⟨.symbol ';', ⟨⟨22, 1, 10⟩, ⟨23, 1, 11⟩⟩⟩]],
      [], ⟨.symbol '}', ⟨⟨24, 2, 0⟩, ⟨25, 2, 1⟩⟩⟩,
      by decide +kernel, rfl, rfl, rfl, rfl, rfl, nofun, ?_⟩
    exact .cons ⟨by decide +kernel, _, _, rfl, rfl⟩ .nil
  refine ⟨(fields_read hmixed hfields).1 (by decide), ?_⟩
  · obtain ⟨dot, -, hvalue, hparse⟩ :=
      ((fields_read hunlabelled hfield).2 [] unlabelledField [] rfl nofun).1 rfl
    exact ⟨dot.span, hvalue ▸ hparse⟩

end Codebook.Proto
