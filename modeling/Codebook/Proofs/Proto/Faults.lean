import Codebook.Proofs.Proto.Places
import Codebook.Proofs.Text.Shown

namespace Codebook.Proto

-- Where a source is found to be wrong: at a token that does not fit, at a quote or a comment that
-- is never closed, or at the end.

open Text

section

variable (found : Located Token)

-- Whatever fault a step comes to, it is put at the token that is read.
def Blames (result : Step) : Prop :=
  ∀ fault, result = .error fault → fault.diagnostic.span = found.span

theorem blames_ok (next : State) : Blames found (.ok next) := nofun

theorem blames_error {fault : Fault} (h : fault.diagnostic.span = found.span) :
    Blames found (.error fault) := by
  intro other ho
  obtain rfl := Except.error.inj ho
  exact h

theorem blames_unexpected (wanted : Wanted) : Blames found (unexpected wanted found) :=
  blames_error found rfl

variable {found}

theorem blames_ite {p : Prop} [Decidable p] {first second : Step} (hf : Blames found first)
    (hs : Blames found second) : Blames found (if p then first else second) := by
  split
  · exact hf
  · exact hs

variable (found)

theorem blames_stepTopLevel (f : File) (doc : List String) (word : String) :
    Blames found (stepTopLevel f doc word found) := by
  unfold stepTopLevel
  exact blames_ite (blames_ok found _) (blames_ite (blames_ok found _) (blames_ite
    (blames_ok found _) (blames_ite (blames_ok found _) (blames_ite (blames_ok found _)
      (blames_unexpected found _)))))

theorem blames_stepDeclaration (scope : Scope) (doc : List String) :
    Blames found (stepDeclaration scope doc found) := by
  unfold stepDeclaration
  split
  · exact blames_ok found _
  · exact blames_ok found _
  · exact blames_ok found _
  · exact blames_stepTopLevel found _ _ _
  · exact blames_ok found _
  · exact blames_ok found _
  · exact blames_unexpected found _
  · exact blames_unexpected found _

theorem blames_stepValue (block : OpenEnum) (doc : List String) :
    Blames found (stepValue block doc found) := by
  unfold stepValue
  split
  · exact blames_ok found _
  · exact blames_ok found _
  · exact blames_ok found _
  · exact blames_ok found _
  · exact blames_ite (blames_ok found _) (blames_ok found _)
  · exact blames_unexpected found _

theorem blames_stepSymbol (char : Char) (here next : State) :
    Blames found (stepSymbol char here next found) := by
  unfold stepSymbol
  exact blames_ite (blames_ok found _) (blames_ite (blames_ok found _) (blames_unexpected found _))

theorem blames_stepDigits (block : OpenEnum) (name : ValueName) (negative : Bool) :
    Blames found (stepDigits block name negative found) := by
  unfold stepDigits
  split
  · split
    · exact blames_ok found _
    · exact blames_error found rfl
  · exact blames_unexpected found _

theorem blames_stepTrailing (block : OpenEnum) (value : EnumValue) :
    Blames found (stepTrailing block value found) := by
  unfold stepTrailing
  split
  · exact blames_ite (blames_ok found _) (blames_stepValue found _ _)
  · exact blames_stepValue found _ _

theorem blames_stepStatement (back : Return) (start : Span) (depth : Nat) :
    Blames found (stepStatement back start depth found) := by
  unfold stepStatement
  split
  · exact blames_ite (blames_ok found _) (blames_ok found _)
  · exact blames_ite (blames_unexpected found _)
      (blames_ite (blames_ok found _) (blames_ok found _))
  · exact blames_ite (blames_ok found _) (blames_ite (blames_ok found _) (blames_ok found _))
  · exact blames_ok found _

theorem blames_step (state : State) : Blames found (step state found) := by
  cases state with
  | declaration scope doc => exact blames_stepDeclaration found scope doc
  | packagePart f before =>
      unfold step
      dsimp only
      split
      · exact blames_ok found _
      · exact blames_ite (blames_ok found _) (blames_unexpected found _)
  | packageRest f parts => exact blames_ite (blames_ok found _) (blames_stepSymbol found _ _ _)
  | packageEnd f parts => exact blames_stepSymbol found _ _ _
  | blockName kind scope keyword doc =>
      unfold step
      dsimp only
      split
      · exact blames_ok found _
      · cases kind with
        | message => exact blames_ite (blames_ok found _) (blames_unexpected found _)
        | enum => exact blames_ite (blames_ok found _) (blames_unexpected found _)
  | blockBrace kind scope keyword doc name => exact blames_stepSymbol found _ _ _
  | value block doc => exact blames_stepValue found block doc
  | equals block name => exact blames_stepSymbol found _ _ _
  | number block name =>
      exact blames_ite (blames_ok found _)
        (blames_ite (blames_ok found _) (blames_stepDigits found block name false))
  | negative block name => exact blames_stepDigits found block name true
  | options block name number =>
      exact blames_ite (blames_ok found _) (blames_stepSymbol found _ _ _)
  | insideOptions block name number bracket depth =>
      exact blames_ite (blames_ok found _)
        (blames_ite (blames_ite (blames_ok found _) (blames_ok found _)) (blames_ok found _))
  | semicolon block name number => exact blames_stepSymbol found _ _ _
  | trailing block value => exact blames_stepTrailing found block value
  | statement back start depth => exact blames_stepStatement found back start depth
  | skippedHead scope keyword start => exact blames_ite (blames_ok found _) (blames_ok found _)
  | skippedBody scope keyword start depth =>
      exact blames_ite (blames_ok found _)
        (blames_ite (blames_ite (blames_ok found _) (blames_ok found _)) (blames_ok found _))

end

-- A run is stopped by one of its tokens.
theorem exists_of_foldlM_eq_error {tokens : List (Located Token)} {state : State} {fault : Fault}
    (h : tokens.foldlM step state = .error fault) :
    ∃ found ∈ tokens, fault.diagnostic.span = found.span := by
  induction tokens generalizing state with
  | nil => cases h
  | cons found rest ih =>
      rw [List.foldlM_cons] at h
      cases hstep : step state found with
      | error stopped =>
          rw [hstep] at h
          obtain rfl := Except.error.inj h
          exact ⟨found, List.mem_cons_self, blames_step found state _ hstep⟩
      | ok next =>
          rw [hstep] at h
          obtain ⟨other, hm, hspan⟩ := ih h
          exact ⟨other, List.mem_cons_of_mem _ hm, hspan⟩

-- A state in which something is missing is put at the end.
theorem span_of_finish {state : State} {stop : Position} {fault : Fault}
    (h : finish state stop = .error fault) : fault.diagnostic.span = Span.point stop := by
  unfold finish at h
  split at h
  · cases h
  all_goals
    obtain rfl := Except.error.inj h
    rfl

-- What stands for a token begins with what can be seen, and so does what no piece is cut from.

theorem head_of_cuts {c : Char} {rest more : List Char} {piece : Piece}
    (h : Cuts c rest piece more) (ht : piece.token.isSome) :
    ∃ d run, piece.text = d :: run ∧ isBlank d = false := by
  cases h with
  | blank hb => simp at ht
  | remark hr he => exact ⟨'/', _, rfl, by decide⟩
  | comment hb => exact ⟨'/', _, rfl, by decide⟩
  | quoted hc hq =>
      refine ⟨c, _, rfl, ?_⟩
      rcases hc with rfl | rfl <;> decide
  | word hc hr he => exact ⟨c, _, rfl, (no_sign_of_inWord (inWord_of_startsWord hc)).1⟩
  | number hc hr he => exact ⟨c, _, rfl, (no_sign_of_inWord (by simp [inWord, hc])).1⟩
  | symbol hb hq hw hd hs => exact ⟨c, _, rfl, hb⟩

theorem isBlank_of_cut_eq_error {c : Char} {rest : List Char} {fault : CutFault}
    (h : cut c rest = .error fault) : isBlank c = false := by
  by_contra hb
  unfold cut at h
  rw [if_pos (by simpa using hb)] at h
  cases h

theorem exists_of_pieces_eq_fault {text : List Char} {ps : List Piece} {fault : CutFault}
    (h : pieces text = (ps, some fault)) :
    ∃ c rest, text = ps.flatMap Piece.text ++ c :: rest ∧ isBlank c = false := by
  fun_induction pieces text generalizing ps with
  | case1 => cases h
  | case2 c rest found hcut =>
      obtain ⟨rfl, -⟩ := Prod.mk.inj h
      exact ⟨c, rest, rfl, isBlank_of_cut_eq_error hcut⟩
  | case3 c rest piece more hcut _ behind found hpieces ih =>
      obtain ⟨rfl, rfl⟩ := Prod.mk.inj h
      obtain ⟨d, left, hmore, hb⟩ := ih hpieces
      refine ⟨d, left, ?_, hb⟩
      rw [(cut_eq hcut).1, hmore, List.flatMap_cons, List.append_assoc]

theorem start_located (fault : CutFault) (p : Position) :
    (fault.located p).diagnostic.span.start = p := by
  cases fault <;> rfl

theorem isSeen_of_tokenize_eq_error {source : String} {fault : Fault}
    (h : tokenize source = .error fault) :
    fault.diagnostic.span.start.IsSeen source := by
  unfold tokenize at h
  split at h
  · cases h
  · rename_i ps found hps
    obtain rfl := Except.error.inj h
    obtain ⟨c, rest, hsource, hb⟩ := exists_of_pieces_eq_fault hps
    exact ⟨_, c, rest, hsource, hb, start_located found _⟩

theorem isSeen_of_mem_place {source : String} {ps : List Piece}
    (hps : pieces source.toList = (ps, none)) {found : Located Token}
    (hm : found ∈ place .start ps) : found.span.start.IsSeen source := by
  obtain ⟨front, piece, behind, rfl, htoken, hspan⟩ := exists_of_mem_place hm
  have hpieces := forall_mem_pieces head_of_cuts source.toList
  rw [hps] at hpieces
  obtain ⟨c, run, htext, hb⟩ := hpieces piece (by simp) (by rw [htoken]; rfl)
  refine ⟨front.flatMap Piece.text, c, run ++ behind.flatMap Piece.text, ?_, hb, ?_⟩
  · rw [← flatMap_pieces hps, List.flatMap_append, List.flatMap_cons, htext, List.cons_append]
  · rw [hspan]
    rfl

-- A source is wrong at something that can be seen, or at its end.
theorem isSeen_of_parse_eq_error {source : String} {fault : Fault}
    (h : parse source = .error fault) :
    fault.diagnostic.span.start.IsSeen source ∨
      fault.diagnostic.span = Span.point (Position.start.after source.toList) := by
  unfold parse at h
  cases hstream : tokenize source with
  | error found =>
      rw [hstream] at h
      obtain rfl := Except.error.inj h
      exact .inl (isSeen_of_tokenize_eq_error hstream)
  | ok stream =>
      rw [hstream] at h
      obtain ⟨ps, hps, rfl⟩ := tokenize_eq_ok.mp hstream
      cases hrun : (place .start ps).foldlM step start with
      | error found =>
          have hfault : parseTokens ⟨place .start ps, Position.start.after source.toList⟩
              = .error found := by
            rw [parseTokens, hrun]
            rfl
          obtain rfl := Except.error.inj (hfault.symm.trans h)
          obtain ⟨token, hm, hspan⟩ := exists_of_foldlM_eq_error hrun
          exact .inl (hspan ▸ isSeen_of_mem_place hps hm)
      | ok state =>
          have hfinish : parseTokens ⟨place .start ps, Position.start.after source.toList⟩
              = finish state (Position.start.after source.toList) := by
            rw [parseTokens, hrun]
            rfl
          exact .inr (span_of_finish (hfinish.symm.trans h))

end Codebook.Proto
