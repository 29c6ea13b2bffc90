import Codebook.Proofs.Proto.Joined
import Codebook.Proofs.Proto.Plain
import Codebook.Proofs.Proto.Revised
import Codebook.Proofs.Result

namespace Codebook.Proto

open Codebook.Text

-- What a remark does that is put between two tokens of a source. Apart from places and docs it
-- changes nothing where the reader passes over remarks. There are three places where it does not.

-- Nothing is kept of places and docs.
def Revision.bare : Revision where
  position _ := {}
  doc _ := []
  doc_nil := rfl

def File.bare (file : File) : File := file.revised .bare

def State.bare (state : State) : State := (state.revised .bare).settled

-- What becomes of a state without places and docs when a remark is read
def State.behindRemark : State → Option State
  | .packageRest f parts => some (.packageEnd f parts)
  | .options block name code => some (.semicolon block name code)
  | .negative _ _ => none
  | state => some state

-- How a token is read when places and docs do not count
def bareStep (state : State) (token : Token) : Option State :=
  match token with
  | .remark _ => state.behindRemark
  | other => (step state (other.revised .bare).unplaced).toOption.map State.settled

-- No comment is looked for between what was read and the next token.
def State.IsTight (next : Option Token) : State → Prop
  | .packageRest _ _ => next = some (.symbol '.')
  | .options _ _ _ => next = some (.symbol '[')
  | .negative _ _ => True
  | _ => False

-- How far a source is read that may go on
def readTo (source : String) : Step := do (← tokenize source).tokens.foldlM step start

-- The place between a part of a package name and a dot, between a number and its options, or
-- behind a minus sign
def IsTight (front behind : String) : Prop :=
  ∃ state, readTo front = .ok state ∧ state.IsTight (tokensOf behind.toList).head?

-- A text is cut between two parts of it.
def IsBoundary (front behind : List Char) : Prop :=
  ∃ ps qs, pieces (front ++ behind) = (ps ++ qs, none) ∧ ps.flatMap Piece.text = front

def remarkLine (text : String) : String := " //" ++ text ++ "\n"

theorem isTight_bare (state : State) (next : Option Token) :
    state.bare.IsTight next ↔ state.IsTight next := by
  cases state <;> exact Iff.rfl

theorem bare_value_add {block : OpenEnum} {value last : EnumValue}
    (h : value.revised .bare = last.revised .bare) :
    State.bare (.value (block.add value) []) = State.bare (.trailing block last) := by
  show State.value ((block.add value).revised .bare) []
    = .value ((block.revised .bare).add (last.revised .bare)) []
  rw [revised_add, h]

theorem bare_step_remark (state : State) (text : String) (covered : Span) :
    (step state ⟨.remark text, covered⟩).toOption.map State.bare = state.bare.behindRemark := by
  cases state with
  | trailing block last =>
      simp only [step, stepTrailing_remark]
      split_ifs <;> exact congrArg some (bare_value_add rfl)
  | _ => rfl

theorem bareStep_of_noRemark {token : Token} (h : IsNoRemark token) (state : State) :
    bareStep state token
      = (step state (token.revised .bare).unplaced).toOption.map State.settled := by
  cases token with
  | remark text => exact absurd rfl (h text)
  | _ => rfl

-- What a step leads to does not depend on places and docs, apart from them.
theorem bare_step (state : State) (found : Located Token) :
    (step state found).toOption.map State.bare = bareStep state.bare found.value := by
  obtain ⟨value, covered⟩ := found
  by_cases hremark : ∃ text, value = .remark text
  · obtain ⟨text, rfl⟩ := hremark
    exact bare_step_remark state text covered
  · have hno : IsNoRemark value := not_exists.mp hremark
    have hother : IsNoRemark (value.revised .bare) := by
      cases value with
      | remark text => exact absurd rfl (hno text)
      | _ => exact nofun
    calc (step state ⟨value, covered⟩).toOption.map State.bare
        = (Revision.bare.reached (step state ⟨value, covered⟩)).map State.settled := by
          rw [Revision.reached, Option.map_map]
          rfl
      _ = (step (state.revised .bare) (value.revised .bare).unplaced).toOption.map
            State.settled := by
          rw [revised_step .bare state ⟨value, covered⟩ (.inl hno)]
          rfl
      _ = (step state.bare (value.revised .bare).unplaced).toOption.map State.settled := by
          rw [State.bare, step_settled _ hother]
      _ = bareStep state.bare value := (bareStep_of_noRemark hno _).symm

theorem bare_foldlM (tokens : List (Located Token)) (state : State) :
    (tokens.foldlM step state).toOption.map State.bare
      = (tokens.map Located.value).foldlM bareStep state.bare := by
  induction tokens generalizing state with
  | nil => rfl
  | cons found rest ih =>
      rw [List.foldlM_cons, List.map_cons, List.foldlM_cons, ← bare_step]
      cases step state found with
      | error fault => rfl
      | ok next => exact ih next

theorem bare_finish (state : State) (stop : Position) :
    (finish state stop).toOption.map File.bare = state.bare.file? := by
  cases state with
  | declaration scope doc => cases scope <;> rfl
  | blockName kind => cases kind <;> rfl
  | _ => rfl

theorem bare_readTo {source : String} {ps : List Piece} (h : pieces source.toList = (ps, none)) :
    (readTo source).toOption.map State.bare
      = (ps.filterMap Piece.token).foldlM bareStep start := by
  have hrun := bare_foldlM (place .start ps) start
  rw [map_value_place] at hrun
  rw [readTo, tokenize_of_pieces h]
  exact hrun

theorem bare_parse {source : String} {ps : List Piece} (h : pieces source.toList = (ps, none)) :
    (parse source).toOption.map File.bare
      = ((ps.filterMap Piece.token).foldlM bareStep start).bind State.file? := by
  rw [← bare_readTo h, parse, readTo, tokenize_of_pieces h]
  show ((place .start ps).foldlM step start >>= fun state => finish state _).toOption.map _
    = (((place .start ps).foldlM step start).toOption.map State.bare).bind State.file?
  cases (place .start ps).foldlM step start with
  | error fault => rfl
  | ok state => exact bare_finish state _

-- Where a remark changes the state, the next token is not the one that is now refused.
theorem behindRemark_of_loose {state : State} {tokens : List Token}
    (h : ¬ state.IsTight tokens.head?) :
    (state.behindRemark.bind fun next => tokens.foldlM bareStep next).bind State.file?
      = (tokens.foldlM bareStep state).bind State.file? := by
  cases state with
  | packageRest f parts =>
      cases tokens with
      | nil => rfl
      | cons token rest =>
          have hsame : bareStep (.packageEnd f parts) token
              = bareStep (.packageRest f parts) token := by
            cases token with
            | symbol c =>
                have hc : c ≠ '.' := fun he => h (by rw [he]; rfl)
                simp [bareStep, step, Token.revised, hc]
            | _ => rfl
          show ((token :: rest).foldlM bareStep (.packageEnd f parts)).bind _ = _
          rw [List.foldlM_cons, List.foldlM_cons, hsame]
  | options block name number =>
      cases tokens with
      | nil => rfl
      | cons token rest =>
          have hsame : bareStep (.semicolon block name number) token
              = bareStep (.options block name number) token := by
            cases token with
            | symbol c =>
                have hc : c ≠ '[' := fun he => h (by rw [he]; rfl)
                simp [bareStep, step, Token.revised, hc]
            | _ => rfl
          show ((token :: rest).foldlM bareStep (.semicolon block name number)).bind _ = _
          rw [List.foldlM_cons, List.foldlM_cons, hsame]
  | negative block name => exact absurd trivial h
  | _ => rfl

theorem behindRemark_of_tight {state : State} {tokens : List Token}
    (h : state.IsTight tokens.head?) :
    (state.behindRemark.bind fun next => tokens.foldlM bareStep next) = none := by
  cases state with
  | packageRest f parts =>
      obtain ⟨rest, rfl⟩ := List.head?_eq_some_iff.mp h
      rfl
  | options block name number =>
      obtain ⟨rest, rfl⟩ := List.head?_eq_some_iff.mp h
      rfl
  | negative block name => rfl
  | _ => exact h.elim

-- A remark that stands there already is not parted from anything.
theorem not_isTight_behindRemark {state next : State} (h : state.behindRemark = some next)
    (token : Option Token) : ¬ next.IsTight token := by
  cases state with
  | negative block name => simp [State.behindRemark] at h
  | _ =>
      obtain rfl := Option.some.inj h
      exact id

theorem pieces_remark {run behind : List Char} {qs : List Piece} (hr : '\n' ∉ run)
    (hb : pieces behind = (qs, none)) :
    ∃ remark : Piece, (∃ new, remark.token = some (.remark new)) ∧
      pieces ('/' :: '/' :: (run ++ '\n' :: behind)) = (remark :: ⟨['\n'], none⟩ :: qs, none) := by
  have hrun : ∀ d ∈ run, d ≠ '\n' := fun d hd he => hr (he ▸ hd)
  have hend : ∀ d ∈ ('\n' :: behind).head?, d = '\n' := by simp
  have hpieces := pieces_of_cuts (Cuts.remark hrun hend)
  rw [pieces_separator (.inr rfl), hb] at hpieces
  exact ⟨_, ⟨_, rfl⟩, hpieces⟩

-- The text of a remark at the end of a text
theorem exists_run_of_remark {front : List Char} {init : List Piece} {last : Piece} {old : String}
    (h : pieces front = (init ++ [last], none)) (ht : last.token = some (.remark old)) :
    ∃ run, last.text = '/' :: '/' :: run ∧ '\n' ∉ run := by
  have htext := flatMap_pieces h
  rw [List.flatMap_append, List.flatMap_singleton] at htext
  rw [← htext] at h
  obtain ⟨-, hlast⟩ := pieces_of_append h rfl
  obtain ⟨c, tail, more, -, hcut, -⟩ := pieces_eq_cons hlast
  cases cuts_of_cut hcut with
  | @remark run _ hr he => exact ⟨run, rfl, fun hm => hr _ hm rfl⟩
  | comment =>
      unfold commentPiece at ht
      dsimp only at ht
      split at ht <;> simp at ht
  | _ => simp [runPiece] at ht

-- A remark that is put behind a text is a token of its own, unless it becomes the end of another.
theorem pieces_insert {front behind text : List Char} {ps qs : List Piece}
    (hf : pieces front = (ps, none)) (hb : pieces behind = (qs, none)) (ht : '\n' ∉ text) :
    ∃ all tokens new,
      pieces (front ++ ' ' :: '/' :: '/' :: (text ++ '\n' :: behind)) = (all, none) ∧
      all.filterMap Piece.token = tokens ++ .remark new :: qs.filterMap Piece.token ∧
      (ps.filterMap Piece.token = tokens ∨
        ∃ old, ps.filterMap Piece.token = tokens ++ [.remark old]) := by
  by_cases hlast : ∃ last ∈ ps.getLast?, ∃ old, last.token = some (.remark old)
  · obtain ⟨last, hm, old, hold⟩ := hlast
    obtain ⟨init, rfl⟩ := List.getLast?_eq_some_iff.mp hm
    obtain ⟨run, htext, hrun⟩ := exists_run_of_remark hf hold
    have hlonger : '\n' ∉ run ++ ' ' :: '/' :: '/' :: text := by
      simp [hrun, ht]
    obtain ⟨remark, ⟨new, hnew⟩, hremark⟩ := pieces_remark hlonger hb
    have hend : pieces (last.text ++ ' ' :: '/' :: '/' :: (text ++ '\n' :: behind))
        = (remark :: ⟨['\n'], none⟩ :: qs, none) := by
      rw [htext]
      simpa using hremark
    refine ⟨_, init.filterMap Piece.token, new, pieces_append_of_last hf hend, ?_,
      .inr ⟨old, ?_⟩⟩
    · simp [hnew]
    · simp [hold]
  · obtain ⟨remark, ⟨new, hnew⟩, hremark⟩ := pieces_remark ht hb
    have hend : ∀ last ∈ ps.getLast?,
        ∀ d ∈ (' ' :: '/' :: '/' :: (text ++ '\n' :: behind)).head?, last.EndsAt d := by
      intro last hm d hd
      obtain rfl := Option.some.inj hd
      exact ⟨.inl rfl, .inr fun old hold => hlast ⟨last, hm, old, hold⟩⟩
    have hpieces := pieces_append hf hend
    rw [pieces_separator (.inl rfl), hremark] at hpieces
    refine ⟨_, ps.filterMap Piece.token, new, hpieces, ?_, .inl rfl⟩
    simp [hnew]

-- A remark that becomes the end of another one is read in its place. No token is refused there.
theorem foldlM_insert {state last : State} {before tokens behind : List Token} {new : String}
    (hl : before.foldlM bareStep state = some last)
    (hb : before = tokens ∨ ∃ old, before = tokens ++ [.remark old]) :
    ((tokens ++ .remark new :: behind).foldlM bareStep state).bind State.file?
      = (last.behindRemark.bind fun next => behind.foldlM bareStep next).bind State.file? := by
  rw [List.foldlM_append]
  rcases hb with rfl | ⟨old, rfl⟩
  · rw [hl]
    rfl
  · rw [List.foldlM_append] at hl
    obtain ⟨between, hbetween, hrest⟩ := Option.bind_eq_some_iff.mp hl
    obtain ⟨next, hnext, hlast⟩ := Option.bind_eq_some_iff.mp hrest
    obtain rfl := Option.some.inj hlast
    have hremark : between.behindRemark = some next := hnext
    rw [behindRemark_of_loose (not_isTight_behindRemark hremark _), hbetween]
    show (between.behindRemark.bind fun next => behind.foldlM bareStep next).bind _ = _
    rw [hremark]
    rfl

-- A remark in front of a line feed changes nothing of a source but places and docs, unless it is
-- put where no comment is looked for. There it makes the source one that is not accepted.
theorem remark_between {front behind text : String} {file : File}
    (h : parse (front ++ behind) = .ok file) (hb : IsBoundary front.toList behind.toList)
    (ht : '\n' ∉ text.toList) :
    (IsTight front behind → ∃ fault, parse (front ++ remarkLine text ++ behind) = .error fault) ∧
      (¬ IsTight front behind →
        ∃ read, parse (front ++ remarkLine text ++ behind) = .ok read ∧ read.bare = file.bare) := by
  obtain ⟨ps, qs, hpieces, hfront⟩ := hb
  obtain ⟨hps, hqs⟩ := pieces_of_append hpieces hfront
  obtain ⟨all, tokens, new, hall, htokens, hsame⟩ := pieces_insert hps hqs ht
  have hwhole : pieces (front ++ behind).toList = (ps ++ qs, none) := by
    rw [String.toList_append, hpieces]
  have hmarked : pieces (front ++ remarkLine text ++ behind).toList = (all, none) := by
    rw [← hall]
    simp [remarkLine]
  have hbehind : tokensOf behind.toList = qs.filterMap Piece.token := by rw [tokensOf, hqs]
  have hread := bare_parse hwhole
  rw [h, List.filterMap_append, List.foldlM_append, ← bare_readTo hps] at hread
  cases hstate : readTo front with
  | error fault => simp [hstate, Except.toOption] at hread
  | ok state =>
      have hbefore : (ps.filterMap Piece.token).foldlM bareStep start = some state.bare := by
        rw [← bare_readTo hps, hstate]
        rfl
      have hresult := bare_parse hmarked
      rw [htokens, foldlM_insert hbefore hsame] at hresult
      have htight : IsTight front behind ↔
          state.bare.IsTight (qs.filterMap Piece.token).head? := by
        rw [isTight_bare, ← hbehind]
        constructor
        · rintro ⟨reached, hreached, hnext⟩
          obtain rfl := Except.ok.inj (hstate.symm.trans hreached)
          exact hnext
        · exact fun hnext => ⟨state, hstate, hnext⟩
      rw [htight]
      constructor
      · intro hyes
        rw [behindRemark_of_tight hyes] at hresult
        cases hparse : parse (front ++ remarkLine text ++ behind) with
        | error fault => exact ⟨fault, rfl⟩
        | ok read => simp [hparse, Except.toOption] at hresult
      · intro hno
        rw [behindRemark_of_loose hno] at hresult
        rw [hstate] at hread
        have hbare : (parse (front ++ remarkLine text ++ behind)).toOption.map File.bare
            = some file.bare := hresult.trans hread.symm
        obtain ⟨read, hparse, hsame⟩ := Option.map_eq_some_iff.mp hbare
        exact ⟨read, toOption_eq_some.mp hparse, hsame⟩

-- A remark in front of the semicolon of a package is passed over, one in front of a dot is not.
theorem remark_in_package_name :
    IsTight "package a" ".b;" ∧ ¬ IsTight "package a.b" ";" ∧
      ∃ file, parse "package a.b;" = .ok file ∧
        (∃ fault, parse "package a // c\n.b;" = .error fault) ∧
        ∃ read, parse "package a.b // c\n;" = .ok read ∧ read.bare = file.bare := by
  have hpart : pieces "package a".toList
      = ([⟨"package".toList, some (.word "package")⟩, ⟨[' '], none⟩, ⟨['a'], some (.word "a")⟩],
        none) := by
    decide +kernel
  have hname : pieces "package a.b".toList
      = ([⟨"package".toList, some (.word "package")⟩, ⟨[' '], none⟩, ⟨['a'], some (.word "a")⟩,
          ⟨['.'], some (.symbol '.')⟩, ⟨['b'], some (.word "b")⟩], none) := by
    decide +kernel
  have hdot : (tokensOf ".b;".toList).head? = some (.symbol '.') := by decide +kernel
  have hend : (tokensOf ";".toList).head? = some (.symbol ';') := by decide +kernel
  have htight : IsTight "package a" ".b;" := by
    refine ⟨.packageRest {} ["a"], ?_, hdot⟩
    rw [readTo, tokenize_of_pieces hpart]
    rfl
  have hloose : ¬ IsTight "package a.b" ";" := by
    rintro ⟨state, hstate, hnext⟩
    rw [readTo, tokenize_of_pieces hname] at hstate
    obtain rfl := Except.ok.inj hstate
    rw [hend] at hnext
    have hsign : some (Token.symbol ';') = some (.symbol '.') := hnext
    exact absurd hsign (by decide)
  have hfile : (parse "package a.b;").toOption.map File.package = some (some "a.b") := by
    decide +kernel
  obtain ⟨file, hparse, -⟩ := Option.map_eq_some_iff.mp hfile
  have hread : parse "package a.b;" = .ok file := toOption_eq_some.mp hparse
  have hfirst : IsBoundary "package a".toList ".b;".toList := by
    refine ⟨(pieces "package a".toList).1, (pieces ".b;".toList).1, ?_, ?_⟩ <;> decide +kernel
  have hsecond : IsBoundary "package a.b".toList ";".toList := by
    refine ⟨(pieces "package a.b".toList).1, (pieces ";".toList).1, ?_, ?_⟩ <;> decide +kernel
  have hline : '\n' ∉ " c".toList := by decide
  have hdotted : parse ("package a" ++ ".b;") = .ok file := hread
  have hended : parse ("package a.b" ++ ";") = .ok file := hread
  exact ⟨htight, hloose, file, hread, (remark_between hdotted hfirst hline).1 htight,
    (remark_between hended hsecond hline).2 hloose⟩

end Codebook.Proto
