import Codebook.Proofs.Number.Decimal
import Codebook.Proofs.Proto.Unplaced
import Codebook.Proofs.Proto.Written.Comment

namespace Codebook.Proto

open Codebook.Text

-- Behind its semicolon a value is complete unless a remark on its line follows.
def State.settled : State → State
  | .trailing block last => .value (block.add last) []
  | state => state

theorem settled_settled (state : State) : state.settled.settled = state.settled := by
  cases state <;> rfl

def IsNoRemark (token : Token) : Prop := ∀ text, token ≠ .remark text

theorem step_settled (state : State) {token : Token} (h : IsNoRemark token) :
    step state.settled token.unplaced = step state token.unplaced := by
  cases state with
  | trailing block last =>
      cases token with
      | remark text => exact absurd rfl (h text)
      | _ => rfl
  | _ => rfl

theorem run_settled (state : State) {tokens : List Token} (h : ∀ token ∈ tokens, IsNoRemark token) :
    (run state.settled tokens).map State.settled = (run state tokens).map State.settled := by
  cases tokens with
  | nil => exact congrArg Except.ok (settled_settled state)
  | cons token rest => rw [run_cons, run_cons, step_settled state (h token List.mem_cons_self)]

theorem run_append (state : State) (front behind : List Token) :
    run state (front ++ behind) = (run state front).bind fun next => run next behind := by
  rw [run, List.map_append, List.foldlM_append]
  rfl

-- Reading a text leads from one state to another, whatever stands behind the text.
def Reads (text : List Char) (before after : State) : Prop :=
  ∃ tokens, Lexes text tokens ∧ (∀ token ∈ tokens, IsNoRemark token) ∧
    (run before tokens).map State.settled = .ok after

namespace Reads

theorem nil {before after : State} (h : before.settled = after) : Reads [] before after :=
  ⟨[], Lexes.nil, by simp, congrArg Except.ok h⟩

theorem append {first second : List Char} {before between after : State}
    (hf : Reads first before between) (hs : Reads second between after) :
    Reads (first ++ second) before after := by
  obtain ⟨front, hfront, hfr, hbetween⟩ := hf
  obtain ⟨behind, hbehind, hbr, hafter⟩ := hs
  refine ⟨front ++ behind, hfront.append hbehind, ?_, ?_⟩
  · intro token ht
    rcases List.mem_append.mp ht with ht | ht
    · exact hfr token ht
    · exact hbr token ht
  · cases hrun : run before front with
    | error fault => simp [hrun, Except.map] at hbetween
    | ok reached =>
        rw [hrun] at hbetween
        have hsettled : reached.settled = between := Except.ok.inj hbetween
        rw [run_append, hrun]
        show (run reached behind).map State.settled = .ok after
        rw [← run_settled reached hbr, hsettled, hafter]

theorem of_step {text more : List Char} {before next after : State} (token : Token)
    (hl : ∀ tokens, Lexes more tokens → Lexes text (token :: tokens)) (ht : IsNoRemark token)
    (hs : step before token.unplaced = .ok next) (h : Reads more next after) :
    Reads text before after := by
  obtain ⟨tokens, hlexes, hremarks, hrun⟩ := h
  refine ⟨token :: tokens, hl tokens hlexes, List.forall_mem_cons.mpr ⟨ht, hremarks⟩, ?_⟩
  rw [run_cons, hs]
  exact hrun

theorem blank {c : Char} {text : List Char} {before after : State} (hb : isBlank c)
    (h : Reads text before after) : Reads (c :: text) before after := by
  obtain ⟨tokens, hlexes, hrest⟩ := h
  exact ⟨tokens, hlexes.blank hb, hrest⟩

theorem symbol {c : Char} {text : List Char} {before next after : State} (hc : isSymbol c)
    (hs : step before (Token.symbol c).unplaced = .ok next) (h : Reads text next after) :
    Reads (c :: text) before after :=
  of_step (.symbol c) (fun _ hl => hl.symbol hc) nofun hs h

theorem word {name : String} {c : Char} {text : List Char} {before next after : State}
    (hn : IsIdentifier name.toList) (hc : inWord c = false)
    (hs : step before (Token.word name).unplaced = .ok next) (h : Reads (c :: text) next after) :
    Reads (name.toList ++ c :: text) before after := by
  refine of_step (.word name) (fun tokens hl => ?_) nofun hs h
  have hlexes := Lexes.word hn hc hl
  rwa [String.ofList_toList] at hlexes

theorem number {digits : List Char} {c : Char} {text : List Char} {before next after : State}
    (hne : digits ≠ []) (hd : ∀ d ∈ digits, isDigit d) (hc : inNumber c = false)
    (hs : step before (Token.number (String.ofList digits)).unplaced = .ok next)
    (h : Reads (c :: text) next after) : Reads (digits ++ c :: text) before after := by
  obtain ⟨d, run, rfl⟩ := List.exists_cons_of_ne_nil hne
  obtain ⟨hfirst, hrest⟩ := List.forall_mem_cons.mp hd
  have hrun : ∀ e ∈ run, inNumber e := fun e he => by simp [inNumber, hrest e he]
  exact of_step (.number (String.ofList (d :: run))) (fun _ hl => hl.number hfirst hrun hc)
    nofun hs h

-- The states that a doc may precede: `here` tells which one stands behind a doc.
theorem docText (here : List String → State) (hn : ∀ doc, (here doc).settled = here doc)
    (hs : ∀ doc, step (here []) (Token.doc doc).unplaced = .ok (here doc)) {doc : List String}
    (hd : IsDoc doc) : Reads (docText doc) (here []) (here doc) := by
  by_cases hempty : doc = []
  · subst hempty
    exact nil (hn [])
  · rw [docText_eq hempty]
    have hrest : Reads ['\n'] (here doc) (here doc) := blank (by decide) (nil (hn doc))
    refine of_step (.doc doc) (fun tokens hl => ?_) nofun (hs doc) hrest
    have hlexes := Lexes.doc (isInside_docBody hd.lines) rfl hl
    rwa [docLines_docBody hd] at hlexes

-- Texts behind one another, each with what it does to what has been read
theorem flatMap {α β : Type} {text : α → List Char} {add : β → α → β} (state : β → State)
    (hn : ∀ read, (state read).settled = state read) {items : List α} (read : β)
    (h : ∀ item ∈ items, ∀ read, Reads (text item) (state read) (state (add read item))) :
    Reads (items.flatMap text) (state read) (state (items.foldl add read)) := by
  induction items generalizing read with
  | nil => exact nil (hn read)
  | cons item rest ih =>
      obtain ⟨hitem, hrest⟩ := List.forall_mem_cons.mp h
      rw [List.flatMap_cons, List.foldl_cons]
      exact (hitem read).append (ih (add read item) hrest)

end Reads

theorem map_value_place (ps : List Piece) (here : Position) :
    (place here ps).map Located.value = ps.filterMap Piece.token := by
  induction ps generalizing here with
  | nil => rfl
  | cons piece rest ih =>
      rw [place]
      cases hp : piece.token with
      | none => simp [hp, ih]
      | some token => simp [hp, ih]

theorem tokenize_of_lexes {source : String} {tokens : List Token}
    (h : Lexes source.toList tokens) :
    ∃ stream, tokenize source = .ok stream ∧ stream.tokens.map Located.value = tokens := by
  obtain ⟨ps, rfl, hps⟩ := h
  have hend : pieces [] = ([], none) := by
    unfold pieces
    rfl
  have hall : pieces source.toList = (ps, none) := by
    have hnil := hps []
    rwa [List.append_nil, hend, List.append_nil] at hnil
  exact ⟨_, tokenize_of_pieces hall, map_value_place ps _⟩

-- A source that is read as a whole without its places is read with them as well.
theorem parse_of_reads {source : String} {file : File} {doc : List String}
    (h : Reads source.toList start (.declaration (.file file) doc)) :
    ∃ parsed, parse source = .ok parsed ∧ parsed.unplaced = file := by
  obtain ⟨tokens, hlexes, hremarks, hrun⟩ := h
  obtain ⟨stream, hstream, rfl⟩ := tokenize_of_lexes hlexes
  cases hr : run start (stream.tokens.map Located.value) with
  | error fault => simp [hr, Except.map] at hrun
  | ok last =>
      rw [hr] at hrun
      have hlast : last = .declaration (.file file) doc := by
        have hsettled : last.settled = .declaration (.file file) doc := Except.ok.inj hrun
        cases last <;> simp_all [State.settled]
      have hreached := reached_foldlM stream.tokens start fun found hf =>
        hremarks found.value (List.mem_map_of_mem hf)
      rw [show start.unplaced = start from rfl, hr] at hreached
      cases hfold : stream.tokens.foldlM step start with
      | error fault => simp [hfold, reached, Except.toOption] at hreached
      | ok state =>
          rw [hfold] at hreached
          have hstate : state.unplaced = .declaration (.file file) doc :=
            (Option.some.inj hreached).trans hlast
          obtain ⟨parsed, hparsed, hfile⟩ := finish_unplaced hstate stream.stop
          refine ⟨parsed, ?_, hfile⟩
          rw [parse, hstream]
          show parseTokens stream = .ok parsed
          rw [parseTokens, hfold]
          exact hparsed

end Codebook.Proto
