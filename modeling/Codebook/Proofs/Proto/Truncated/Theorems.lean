import Codebook.Proofs.Proto.Truncated.Outermost
import Codebook.Proofs.Proto.Truncated.Pieces
import Codebook.Proofs.Text.Position
import Mathlib.Data.List.Infix

namespace Codebook.Proto

-- A source that ends inside of a declaration is not accepted.

theorem place_append (front behind : List Piece) (p : Position) :
    place p (front ++ behind)
      = place p front ++ place (p.after (front.flatMap Piece.text)) behind := by
  induction front generalizing p with
  | nil => rfl
  | cons piece rest ih =>
      rw [List.cons_append, place, place, ih, List.flatMap_cons, Position.after_append]
      split <;> rfl

-- A token stands between the ends of the text that it was cut from.
theorem mem_place {ps : List Piece} {p : Position} {found : Located Token}
    (h : found ∈ place p ps) :
    p.byte ≤ found.span.start.byte ∧
      found.span.stop.byte ≤ p.byte + byteLength (ps.flatMap Piece.text) := by
  induction ps generalizing p with
  | nil => simp [place] at h
  | cons piece rest ih =>
      have hbyte := byte_after p piece.text
      rw [List.flatMap_cons, byteLength_append]
      have hbehind (hm : found ∈ place (p.after piece.text) rest) :
          p.byte ≤ found.span.start.byte ∧ found.span.stop.byte
            ≤ p.byte + (byteLength piece.text + byteLength (rest.flatMap Piece.text)) := by
        obtain ⟨hstart, hstop⟩ := ih hm
        omega
      rw [place] at h
      split at h
      · rcases List.mem_cons.mp h with rfl | h
        · simp only [Span.covering, hbyte]
          omega
        · exact hbehind h
      · exact hbehind h

-- Behind the beginning of a keyword no top-level declaration goes on.
theorem step_shorterKeyword (file : File) (doc : List String) (span : Span) {word less : String}
    (hk : word = "message" ∨ word = "enum") (hp : less.toList <+: word.toList)
    (hne : less ≠ word) :
    ∃ fault, step (.declaration (.file file) doc) ⟨.word less, span⟩ = .error fault := by
  have hall : ∀ keyword ∈ ["message", "enum"], ∀ cs ∈ keyword.toList.inits,
      String.ofList cs ≠ keyword → String.ofList cs ∉ ["message", "enum", "package", "syntax",
        "edition", "import", "option", "service", "extend"] := by
    decide +kernel
  have hless := hall word (by simpa using hk) less.toList ((List.mem_inits _ _).mpr hp)
  rw [String.ofList_toList] at hless
  have hno := hless hne
  simp only [List.mem_cons, not_or] at hno
  obtain ⟨hm, he, hpackage, hsyntax, hedition, himport, hoption, hservice, hextend, -⟩ := hno
  refine ⟨.unexpected .topLevel (some (.word less)) span, ?_⟩
  simp [step, stepDeclaration, stepTopLevel, unexpected, hm, he, hpackage, hsyntax, hedition,
    himport, hoption, hservice, hextend]

-- An accepted source is read to its end, and no block is open there.
theorem run_of_parse {source : String} {file : File} (h : parse source = .ok file) :
    ∃ ps last, pieces source.toList = (ps, none) ∧
      (place .start ps).foldlM step start = .ok last ∧ last.opened = none ∧
      last.spans = file.spans := by
  obtain ⟨ps, doc, hps, hrun⟩ := parse_eq_ok_iff.mp h
  exact ⟨ps, _, hps, hrun, rfl, rfl⟩

-- Where no block is open, every declaration lies in front or behind.
theorem not_across {n : Nat} {tokens : List (Located Token)} {state last : State}
    (hopened : state.opened = none) (hfront : ∀ span ∈ state.spans, span.stop.byte ≤ n)
    (hbehind : ∀ found ∈ tokens, n ≤ found.span.start.byte)
    (h : tokens.foldlM step state = .ok last) {span : Span} (hs : span ∈ last.spans) :
    span.stop.byte ≤ n ∨ n ≤ span.start.byte := by
  rcases mem_spans_run h hs with hspan | ⟨hfirst | ⟨opening, ho, hstart⟩, -⟩
  · exact .inl (hfront span hspan)
  · simp [hopened] at hfirst
  · exact .inr (hstart ▸ hbehind opening ho)

theorem stop_le_of_run {ps : List Piece} {last : State}
    (h : (place .start ps).foldlM step start = .ok last) :
    ∀ span ∈ last.spans, span.stop.byte ≤ byteLength (ps.flatMap Piece.text) := by
  intro span hs
  rcases mem_spans_run h hs with hspan | ⟨-, closing, hc, hstop⟩
  · simp [State.spans, start, State.around, Scope.root, File.spans] at hspan
  · obtain ⟨-, hle⟩ := mem_place hc
    rw [← hstop]
    exact hle.trans (by simp [Position.start])

-- What one piece does to a state
def Piece.Leads (piece : Piece) (here : Position) (state next : State) : Prop :=
  match piece.token with
  | some token => step state ⟨token, Span.covering here piece.text⟩ = .ok next
  | none => next = state

theorem run_place_cons {piece : Piece} {rest : List Piece} {here : Position}
    {state last : State} :
    (place here (piece :: rest)).foldlM step state = .ok last ↔
      ∃ next, piece.Leads here state next ∧
        (place (here.after piece.text) rest).foldlM step next = .ok last := by
  rw [place]
  unfold Piece.Leads
  cases piece.token with
  | none => simp
  | some token =>
      rw [List.foldlM_cons]
      exact bind_eq_ok

section

variable {piece left : Piece} {here : Position} {state next : State}

-- If no block is open behind what is left of a piece, then none was open in front of it, and
-- the piece is no keyword there.
theorem opened_of_leads_left (h : left.Leads here state next) (hopened : next.opened = none)
    (hb : left.token ≠ some (.symbol '\x7d')) : state.opened = none := by
  unfold Piece.Leads at h
  split at h
  · rename_i token ht
    cases outcome_step h with
    | stays opened spans => exact opened.symm.trans hopened
    | opens file doc hstate word hw hk opened spans => simp [opened] at hopened
    | closes first hbrace hstate outside spans => exact absurd (hbrace ▸ ht) hb
  · exact h ▸ hopened

theorem not_keyword_of_leads_left (h : left.Leads here state next)
    (hw : ∀ name, piece.token = some (.word name) → ∃ less,
      left.token = some (.word less) ∧ less.toList <+: name.toList ∧ less ≠ name)
    {file : File} {doc : List String} (hstate : state = .declaration (.file file) doc)
    {word : String} (hk : word = "message" ∨ word = "enum") :
    piece.token ≠ some (.word word) := by
  intro hword
  obtain ⟨less, hless, hp, hne⟩ := hw word hword
  obtain ⟨fault, hfault⟩ := step_shorterKeyword file doc (Span.covering here left.text) hk hp hne
  simp only [Piece.Leads, hless, hstate, hfault, reduceCtorEq] at h

theorem stays_of_leads (h : piece.Leads here state next) (hopened : state.opened = none)
    (hk : ∀ file doc, state = .declaration (.file file) doc → ∀ word,
      word = "message" ∨ word = "enum" → piece.token ≠ some (.word word)) :
    next.opened = none ∧ next.spans = state.spans := by
  unfold Piece.Leads at h
  split at h
  · rename_i token ht
    cases outcome_step h with
    | stays opened spans => exact ⟨opened.trans hopened, spans⟩
    | opens file doc hstate word hw hkeyword opened spans =>
        exact absurd (hw ▸ ht) (hk file doc hstate word hkeyword)
    | closes first hbrace hstate outside spans => simp [hstate] at hopened
  · subst h
    exact ⟨hopened, rfl⟩

end

theorem start_le_of_place {first rest : List Piece} {found : Located Token}
    (h : found ∈ place (Position.start.after (first.flatMap Piece.text)) rest) :
    byteLength (first.flatMap Piece.text) ≤ found.span.start.byte := by
  obtain ⟨hle, -⟩ := mem_place h
  rw [byte_after] at hle
  exact (Nat.le_add_left _ _).trans hle

-- The state behind the pieces in front of a piece, when a text ends inside of that one
theorem outside_of_inside {first rest : List Piece} {piece : Piece} {part : List Char}
    {state reached last : State} (hp : part <+: piece.text) (remnant : Remnant piece part)
    (hfirst : (place .start first).foldlM step start = .ok state)
    (hpart : (pieces part).2 = none)
    (hreached : (place (Position.start.after (first.flatMap Piece.text)) (pieces part).1).foldlM
      step state = .ok reached) (hopened : reached.opened = none)
    (hrest : (place (Position.start.after (first.flatMap Piece.text)) (piece :: rest)).foldlM
      step state = .ok last) {span : Span} (hs : span ∈ last.spans) :
    span.stop.byte ≤ byteLength (first.flatMap Piece.text ++ part) ∨
      byteLength (first.flatMap Piece.text ++ part) ≤ span.start.byte := by
  cases remnant with
  | fault fault hfault => simp [hfault] at hpart
  | shorter left hleft brace word =>
      rw [hleft] at hreached
      obtain ⟨behind, hleads, hnil⟩ := run_place_cons.mp hreached
      obtain rfl := Except.ok.inj hnil
      obtain ⟨next, hpiece, hrun⟩ := run_place_cons.mp hrest
      have hstate := opened_of_leads_left hleads hopened brace
      obtain ⟨hnext, hspans⟩ := stays_of_leads hpiece hstate fun file doc hfile name hk =>
        not_keyword_of_leads_left hleads word hfile hk
      have hfront := stop_le_of_run hfirst
      refine not_across hnext (fun span hspan => ?_) (fun found hm => ?_) hrun hs
      · rw [byteLength_append]
        exact (hfront span (hspans ▸ hspan)).trans (Nat.le_add_right _ _)
      · -- the piece is at least as long as the part of it
        obtain ⟨missing, hpiece⟩ := hp
        rw [← Position.after_append, ← hpiece, ← List.append_assoc] at hm
        obtain ⟨hle, -⟩ := mem_place hm
        rw [byte_after, byteLength_append] at hle
        omega

-- A prefix that ends inside of a message or an enumeration is not accepted.
theorem truncated_not_accepted {front behind : String} {file : File}
    (h : parse (front ++ behind) = .ok file) {declared : Span} (hd : declared ∈ file.spans)
    (hstart : declared.start.byte < front.utf8ByteSize)
    (hstop : front.utf8ByteSize < declared.stop.byte) : ∃ fault, parse front = .error fault := by
  cases hfront : parse front with
  | error fault => exact ⟨fault, rfl⟩
  | ok other =>
      exfalso
      obtain ⟨ps, last, hps, hrun, -, hspans⟩ := run_of_parse h
      obtain ⟨qs, reached, hqs, hreached, hopened, -⟩ := run_of_parse hfront
      have htext := flatMap_pieces hqs
      rw [utf8ByteSize_eq_byteLength] at hstart hstop
      rw [← hspans] at hd
      rw [String.toList_append] at hps
      have houtside : declared.stop.byte ≤ byteLength front.toList ∨
          byteLength front.toList ≤ declared.start.byte := by
        cases ends_of_pieces hps with
        | between first rest hsplit hf =>
            obtain ⟨rfl, -⟩ := Prod.mk.inj (hqs.symm.trans hf)
            rw [hsplit, place_append, List.foldlM_append] at hrun
            obtain ⟨state, hstate, hrest⟩ := bind_eq_ok.mp hrun
            obtain rfl := Except.ok.inj (hreached.symm.trans hstate)
            rw [← htext]
            exact not_across hopened (stop_le_of_run hreached)
              (fun found hm => start_le_of_place hm) hrest hd
        | inside first rest piece part hsplit hf hp hpieces remnant =>
            obtain ⟨rfl, hpart⟩ := Prod.mk.inj (hqs.symm.trans hpieces)
            rw [place_append, List.foldlM_append] at hreached
            obtain ⟨state, hstate, hleft⟩ := bind_eq_ok.mp hreached
            rw [hsplit, place_append, List.foldlM_append] at hrun
            obtain ⟨same, hsame, hrest⟩ := bind_eq_ok.mp hrun
            obtain rfl := Except.ok.inj (hstate.symm.trans hsame)
            rw [hf]
            exact outside_of_inside hp remnant hstate hpart.symm hleft hopened hrest hd
      omega

-- An enumeration that ends early behind the first slash of a remark
def beforeRemark : String := "enum Level \x7b\n  LOW = 1; /"

def insideRemark : String := "/ The least\n\x7d\n"

theorem spans_remark : (parse (beforeRemark ++ insideRemark)).toOption.map File.spans
    = some [⟨⟨0, 0, 0⟩, ⟨38, 2, 1⟩⟩] := by
  decide +kernel

theorem truncated_in_remark :
    ∃ file, parse (beforeRemark ++ insideRemark) = .ok file ∧
      (∃ declared ∈ file.spans, declared.start.byte < beforeRemark.utf8ByteSize ∧
        beforeRemark.utf8ByteSize < declared.stop.byte) ∧
      ∃ fault, parse beforeRemark = .error fault := by
  have hread := spans_remark
  cases h : parse (beforeRemark ++ insideRemark) with
  | error fault => simp [h, Except.toOption] at hread
  | ok file =>
      have hspans : file.spans = [⟨⟨0, 0, 0⟩, ⟨38, 2, 1⟩⟩] := by
        simpa [h, Except.toOption] using hread
      have hd : ⟨⟨0, 0, 0⟩, ⟨38, 2, 1⟩⟩ ∈ file.spans := by simp [hspans]
      have hstart : 0 < beforeRemark.utf8ByteSize := by decide +kernel
      have hstop : beforeRemark.utf8ByteSize < 38 := by decide +kernel
      exact ⟨file, rfl, ⟨_, hd, hstart, hstop⟩, truncated_not_accepted h hd hstart hstop⟩

end Codebook.Proto
