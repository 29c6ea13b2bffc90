import Codebook.Proofs.Proto.Joined
import Codebook.Proofs.Proto.Plain
import Codebook.Proofs.Proto.Revised
import Codebook.Proofs.Proto.Truncated.Theorems

namespace Codebook.Proto

open Codebook.Text

-- A source behind another one. Nothing of the first source is left open at its end but the doc of
-- a declaration that does not follow, so the second one is read as it is read alone.

def Token.isRemark : Token → Bool
  | .remark _ => true
  | _ => false

-- The last token that is no remark is a doc.
def EndsInDoc (tokens : List Token) : Prop :=
  ∃ lines, (tokens.filter (!·.isRemark)).getLast? = some (.doc lines)

-- The doc that waits for a declaration
def State.pending : State → List String
  | .declaration _ doc => doc
  | _ => []

theorem pending_state (back : Return) : back.state.pending = [] := by
  cases back <;> rfl

theorem pending_stepSymbol {char : Char} {here next reached : State} {found : Located Token}
    (h : stepSymbol char here next found = .ok reached) (hh : here.pending = [])
    (hn : next.pending = []) : reached.pending = [] := by
  unfold stepSymbol at h
  split_ifs at h
  · exact Except.ok.inj h ▸ hh
  · exact Except.ok.inj h ▸ hn
  · simp [unexpected] at h

theorem pending_stepDeclaration {scope : Scope} {doc : List String} {found : Located Token}
    {next : State} (h : stepDeclaration scope doc found = .ok next)
    (hf : found.value.isComment = false) : next.pending = [] := by
  unfold stepDeclaration at h
  split at h
  · rename_i hv
    simp [hv, Token.isComment] at hf
  · rename_i hv
    simp [hv, Token.isComment] at hf
  · exact Except.ok.inj h ▸ rfl
  · simp only [stepTopLevel, unexpected] at h
    split_ifs at h <;> cases h <;> rfl
  · cases h
    unfold stepMember
    split_ifs <;> rfl
  · exact Except.ok.inj h ▸ rfl
  · simp [unexpected] at h
  · simp [unexpected] at h

theorem pending_stepValue {block : OpenEnum} {doc : List String} {found : Located Token}
    {next : State} (h : stepValue block doc found = .ok next) : next.pending = [] := by
  unfold stepValue at h
  split at h <;> first | exact Except.ok.inj h ▸ rfl | skip
  · split_ifs at h <;> cases h <;> rfl
  · simp [unexpected] at h

theorem pending_stepStatement {back : Return} {start : Span} {depth : Nat}
    {found : Located Token} {next : State}
    (h : stepStatement back start depth found = .ok next) : next.pending = [] := by
  unfold stepStatement at h
  split at h
  · split_ifs at h <;> cases h
    · exact pending_state back
    · rfl
  · split_ifs at h
    · simp [unexpected] at h
    · exact Except.ok.inj h ▸ pending_state back
    · exact Except.ok.inj h ▸ rfl
  · split_ifs at h <;> cases h <;> rfl
  · exact Except.ok.inj h ▸ rfl

theorem pending_stepTrailing {block : OpenEnum} {last : EnumValue} {found : Located Token}
    {next : State} (h : stepTrailing block last found = .ok next) : next.pending = [] := by
  unfold stepTrailing at h
  split at h
  · split at h
    · exact Except.ok.inj h ▸ rfl
    · exact pending_stepValue h
  · exact pending_stepValue h

theorem pending_stepDigits {block : OpenEnum} {name : ValueName} {negative : Bool}
    {found : Located Token} {next : State}
    (h : stepDigits block name negative found = .ok next) : next.pending = [] := by
  unfold stepDigits at h
  split at h
  · split at h <;> cases h
    rfl
  · simp [unexpected] at h

-- What is waited for is a declaration, so no doc waits behind anything else than a comment.
theorem pending_step {state next : State} {found : Located Token}
    (h : step state found = .ok next) (hd : ∀ lines, found.value ≠ .doc lines)
    (hr : found.value.isRemark → state.pending = []) : next.pending = [] := by
  cases state with
  | declaration scope doc =>
      obtain ⟨value, covered⟩ := found
      cases value with
      | doc lines => exact absurd rfl (hd lines)
      | remark text =>
          obtain rfl := Except.ok.inj h
          exact hr rfl
      | _ => exact pending_stepDeclaration h rfl
  | packagePart f before =>
      simp only [step, unexpected] at h
      split at h
      · exact Except.ok.inj h ▸ rfl
      · split_ifs at h
        exact Except.ok.inj h ▸ rfl
  | packageRest f parts =>
      simp only [step] at h
      split_ifs at h
      · exact Except.ok.inj h ▸ rfl
      · exact pending_stepSymbol h rfl rfl
  | packageEnd f parts => exact pending_stepSymbol h rfl rfl
  | blockName kind scope keyword doc =>
      simp only [step, unexpected] at h
      split at h
      · exact Except.ok.inj h ▸ rfl
      · split_ifs at h
        · exact Except.ok.inj h ▸ rfl
        · split at h <;> cases h
  | blockBrace kind scope keyword doc name => cases kind <;> exact pending_stepSymbol h rfl rfl
  | value block doc => exact pending_stepValue h
  | equals block name => exact pending_stepSymbol h rfl rfl
  | number block name =>
      simp only [step] at h
      split_ifs at h
      · exact Except.ok.inj h ▸ rfl
      · exact Except.ok.inj h ▸ rfl
      · exact pending_stepDigits h
  | negative block name => exact pending_stepDigits h
  | options block name number =>
      simp only [step] at h
      split_ifs at h
      · exact Except.ok.inj h ▸ rfl
      · exact pending_stepSymbol h rfl rfl
  | insideOptions block name number bracket depth =>
      simp only [step] at h
      split_ifs at h <;> exact Except.ok.inj h ▸ rfl
  | semicolon block name number => exact pending_stepSymbol h rfl rfl
  | trailing block value => exact pending_stepTrailing h
  | statement back start depth => exact pending_stepStatement h
  | skippedHead scope keyword start =>
      simp only [step] at h
      split_ifs at h <;> exact Except.ok.inj h ▸ rfl
  | skippedBody scope keyword start depth =>
      simp only [step] at h
      split_ifs at h <;> exact Except.ok.inj h ▸ rfl

theorem pending_run {tokens : List (Located Token)} {last : State}
    (h : tokens.foldlM step start = .ok last) (hd : ¬ EndsInDoc (tokens.map Located.value)) :
    last.pending = [] := by
  induction tokens using List.reverseRecOn generalizing last with
  | nil => exact Except.ok.inj h ▸ rfl
  | append_singleton front found ih =>
      rw [List.foldlM_append] at h
      obtain ⟨state, hfront, hrest⟩ := bind_eq_ok.mp h
      obtain ⟨next, hstep, hnil⟩ := bind_eq_ok.mp hrest
      obtain rfl := Except.ok.inj hnil
      unfold EndsInDoc at hd ih
      rw [List.map_append, List.filter_append] at hd
      refine pending_step hstep (fun lines hdoc => hd ⟨lines, ?_⟩) fun hremark => ?_
      · simp [hdoc, Token.isRemark]
      · refine ih hfront ?_
        simpa [hremark] using hd

-- What is read behind a file, from the place on that its source and a line feed end at
def Revision.behind (front : File) (source : String) : Revision where
  front := front
  position p :=
    { byte := p.byte + (source.utf8ByteSize + 1)
      line := p.line + (source.toList.count '\n' + 1)
      column := p.column }
  doc_nil := Revision.kept_nil

section

variable (front : File) (source : String)

theorem keepsRemarks_behind : (Revision.behind front source).KeepsRemarks where
  line_iff p q := by
    show p.line + _ = q.line + _ ↔ _
    omega
  doc_eq _ := rfl

theorem position_next (p : Position) (c : Char) :
    (Revision.behind front source).position (p.next c)
      = ((Revision.behind front source).position p).next c := by
  simp only [Revision.behind, Position.next]
  split
  · exact Position.mk.injEq .. |>.mpr ⟨Nat.add_right_comm .., Nat.add_right_comm .., rfl⟩
  · exact Position.mk.injEq .. |>.mpr ⟨Nat.add_right_comm .., rfl, rfl⟩

theorem position_after (p : Position) (text : List Char) :
    (Revision.behind front source).position (p.after text)
      = ((Revision.behind front source).position p).after text := by
  induction text generalizing p with
  | nil => rfl
  | cons c rest ih => rw [Position.after_cons, Position.after_cons, ih, position_next]

-- The place behind a source and a line feed is the beginning of the source that follows.
theorem position_start :
    (Revision.behind front source).position .start
      = Position.start.after (source.toList ++ ['\n']) := by
  have hbyte := byte_after .start source.toList
  have hline := line_after .start source.toList
  have hone : '\n'.utf8Size = 1 := rfl
  rw [Position.after_append, Position.after_cons, Position.after_nil, Position.next, if_pos rfl,
    hbyte, hline, hone, ← utf8ByteSize_eq_byteLength]
  simp [Revision.behind, Position.start]

theorem located_place (ps : List Piece) (p : Position) :
    (place p ps).map (Revision.behind front source).located
      = place ((Revision.behind front source).position p) ps := by
  induction ps generalizing p with
  | nil => rfl
  | cons piece rest ih =>
      have hrest := ih (p.after piece.text)
      rw [position_after] at hrest
      rw [place, place]
      cases ht : piece.token with
      | none => exact hrest
      | some token =>
          have htoken : token.revised (Revision.behind front source) = token := by
            cases token <;> rfl
          have hspan : (Revision.behind front source).span (Span.covering p piece.text)
              = Span.covering ((Revision.behind front source).position p) piece.text := by
            rw [Span.covering, Span.covering, ← position_after]
            rfl
          rw [List.map_cons, hrest, Revision.located, htoken, hspan]

end

-- The text of one source and of another one in the next line is read as both of them together.
-- What the second one declares comes behind, with its places moved, and its package counts before
-- that of the first one.
theorem parse_append {first second : String} {before behind : File}
    (hf : parse first = .ok before) (hs : parse second = .ok behind)
    (hd : ¬ EndsInDoc (tokensOf first.toList)) :
    parse (first ++ "\n" ++ second) = .ok { before with
      package := behind.package.or before.package
      messages := before.messages
        ++ behind.messages.map (Message.revised (.behind before first))
      enums := before.enums
        ++ behind.enums.map (Enumeration.revised (.behind before first)) } := by
  obtain ⟨ps, doc, hps, hfirst⟩ := parse_eq_ok_iff.mp hf
  obtain ⟨qs, last, hqs, hsecond⟩ := parse_eq_ok_iff.mp hs
  let r := Revision.behind before first
  have hdoc : doc = [] := by
    have hvalues : (place .start ps).map Located.value = tokensOf first.toList := by
      rw [map_value_place, tokensOf, hps]
    exact pending_run hfirst (hvalues ▸ hd)
  subst hdoc
  have hstart : start.revised r = .declaration (.file before) [] := by
    simp [start, State.revised, Scope.revised, File.revised, r, Revision.behind]
  have hpieces : pieces (first ++ "\n" ++ second).toList = (ps ++ ⟨['\n'], none⟩ :: qs, none) := by
    have hjoined : pieces (first.toList ++ '\n' :: second.toList)
        = (ps ++ (pieces ('\n' :: second.toList)).1, (pieces ('\n' :: second.toList)).2) := by
      refine pieces_append hps fun last _ d hd => ?_
      obtain rfl := Option.some.inj hd
      exact ⟨.inr rfl, .inl rfl⟩
    rw [pieces_separator (.inr rfl), hqs] at hjoined
    simpa using hjoined
  have hplace : place .start (ps ++ ⟨['\n'], none⟩ :: qs)
      = place .start ps ++ (place .start qs).map r.located := by
    rw [place_append, located_place, position_start, flatMap_pieces hps, Position.after_append]
    rfl
  refine parse_eq_ok_iff.mpr ⟨_, last, hpieces, ?_⟩
  have hrevised := revised_foldlM r (place .start qs) start fun _ _ =>
    .inr (keepsRemarks_behind before first)
  rw [hsecond, hstart] at hrevised
  rw [hplace, List.foldlM_append, hfirst]
  exact toOption_eq_some.mp hrevised.symm

-- Two sources of which the first ends in a remark
def shopSizes : String := "package shop;\nenum Size \x7b\n  SMALL = 1;\n\x7d // sizes"

def shopOrders : String := "message Order \x7b\x7d\n"

theorem parse_append_shop :
    ¬ EndsInDoc (tokensOf shopSizes.toList) ∧
      ∃ before behind file, parse shopSizes = .ok before ∧ parse shopOrders = .ok behind ∧
        parse (shopSizes ++ "\n" ++ shopOrders) = .ok file ∧ file.package = some "shop" ∧
        file.spans = [⟨⟨50, 4, 0⟩, ⟨66, 4, 16⟩⟩, ⟨⟨14, 1, 0⟩, ⟨40, 3, 1⟩⟩] := by
  have hlast : ((tokensOf shopSizes.toList).filter (!·.isRemark)).getLast?
      = some (.symbol '\x7d') := by
    decide +kernel
  have hdoc : ¬ EndsInDoc (tokensOf shopSizes.toList) := by
    rintro ⟨lines, hlines⟩
    simp [hlast] at hlines
  have hsizes : (parse shopSizes).toOption.map File.package = some (some "shop") := by
    decide +kernel
  have horders : (parse shopOrders).toOption.map File.package = some none := by decide +kernel
  have hspans : (parse (shopSizes ++ "\n" ++ shopOrders)).toOption.map File.spans
      = some [⟨⟨50, 4, 0⟩, ⟨66, 4, 16⟩⟩, ⟨⟨14, 1, 0⟩, ⟨40, 3, 1⟩⟩] := by
    decide +kernel
  obtain ⟨before, hbefore, hshop⟩ := Option.map_eq_some_iff.mp hsizes
  obtain ⟨behind, hbehind, hnone⟩ := Option.map_eq_some_iff.mp horders
  have hfile := parse_append (toOption_eq_some.mp hbefore) (toOption_eq_some.mp hbehind) hdoc
  rw [hfile] at hspans
  refine ⟨hdoc, before, behind, _, toOption_eq_some.mp hbefore, toOption_eq_some.mp hbehind,
    hfile, ?_, Option.some.inj hspans⟩
  simp only [hnone, hshop, Option.none_or]

end Codebook.Proto
