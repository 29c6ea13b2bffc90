import Codebook.Proofs.Proto.Guarded.Scanner
import Codebook.Proofs.Proto.Truncated.Pieces

namespace Codebook.Proto.Guarded

-- Cutting by byte offsets is never stopped, and it comes to the tokens of the source.

open Codebook.Text

-- A text is what is left of a source behind a place.
def Stands (source : String) (place : Position) (text : List Char) : Prop :=
  ∃ front, source.toList = front ++ text ∧ place.byte = byteLength front

section

variable {source : String} {place : Position} {c : Char} {text rest : List Char}

theorem Stands.after (h : Stands source place (text ++ rest)) :
    Stands source (place.after text) rest := by
  obtain ⟨front, hsource, hbyte⟩ := h
  refine ⟨front ++ text, by rw [hsource, List.append_assoc], ?_⟩
  rw [byte_after, hbyte, byteLength_append]

theorem Stands.next (h : Stands source place (c :: rest)) : Stands source (place.next c) rest := by
  rw [← List.singleton_append] at h
  exact h.after

theorem left_eq (h : Stands source place text) :
    Track.left ⟨source.utf8ByteSize, Position.byte⟩ place = byteLength text := by
  obtain ⟨front, hsource, hbyte⟩ := h
  show source.utf8ByteSize - place.byte = _
  rw [utf8ByteSize_eq_byteLength, hsource, byteLength_append, hbyte, Nat.add_sub_cancel_left]

theorem left_lt (h : Stands source place (text ++ rest)) (hne : text ≠ []) :
    Track.left ⟨source.utf8ByteSize, Position.byte⟩ (place.after text)
      < Track.left ⟨source.utf8ByteSize, Position.byte⟩ place := by
  have hpos := byteLength_pos hne
  rw [left_eq h, left_eq h.after, byteLength_append]
  omega

theorem left_next_lt (h : Stands source place (c :: rest)) :
    Track.left ⟨source.utf8ByteSize, Position.byte⟩ (place.next c)
      < Track.left ⟨source.utf8ByteSize, Position.byte⟩ place := by
  rw [left_eq h, left_eq h.next, byteLength_cons]
  have := c.utf8Size_pos
  omega

theorem outcome_remaining (h : Stands source place text) :
    outcome (remaining source) place = .ok (.ok (text, place)) := by
  obtain ⟨front, hsource, hbyte⟩ := h
  have hparts : source.toList = front ++ (text ++ []) := by rw [List.append_nil, hsource]
  refine outcome_sliceOf hparts hbyte ?_ place
  rw [utf8ByteSize_eq_byteLength, hsource, byteLength_append, hbyte]

theorem outcome_peek (h : Stands source place text) :
    outcome (peek source) place = .ok (.ok (text.head?, place)) :=
  outcome_bind_of_ok (outcome_remaining h) _

theorem outcome_peekSecond (h : Stands source place text) :
    outcome (peekSecond source) place = .ok (.ok (text[1]?, place)) :=
  outcome_bind_of_ok (outcome_remaining h) _

theorem outcome_advance (h : Stands source place (c :: rest)) :
    outcome (advance source) place = .ok (.ok (some c, place.next c)) :=
  outcome_bind_of_ok (outcome_peek h) _

theorem outcome_advance_end (h : Stands source place []) :
    outcome (advance source) place = .ok (.ok (none, place)) :=
  outcome_bind_of_ok (outcome_peek h) _

theorem outcome_runStep {wanted : Char → Bool} (h : Stands source place (c :: rest))
    (hc : wanted c) :
    outcome (runStep source wanted ()) place = .ok (.ok (.inl (), place.next c)) := by
  refine (outcome_bind_of_ok (outcome_peek h) _).trans ?_
  simp only [List.head?_cons, if_pos hc]
  exact outcome_bind_of_ok (outcome_advance h) _

theorem outcome_runStep_end {wanted : Char → Bool} (h : Stands source place text)
    (hc : ∀ c ∈ text.head?, wanted c = false) :
    outcome (runStep source wanted ()) place = .ok (.ok (.inr (), place)) := by
  refine (outcome_bind_of_ok (outcome_peek h) _).trans ?_
  cases text with
  | nil => rfl
  | cons c rest =>
      simp only [List.head?_cons, hc c rfl]
      rfl

theorem outcome_running {wanted : Char → Bool} (h : Stands source place text) :
    outcome (scanning source (runStep source wanted) ()) place
      = .ok (.ok ((), place.after (text.takeWhile wanted))) := by
  induction text generalizing place with
  | nil => exact outcome_loop_done (outcome_runStep_end h (by simp))
  | cons c rest ih =>
      by_cases hc : wanted c
      · refine (outcome_loop_next (outcome_runStep h hc) (left_next_lt h)).trans ?_
        rw [List.takeWhile_cons_of_pos hc]
        exact ih h.next
      · rw [List.takeWhile_cons_of_neg hc]
        exact outcome_loop_done (outcome_runStep_end h (by simpa using hc))

theorem outcome_run {wanted : Char → Bool} (h : Stands source place text) :
    outcome (run source wanted) place
      = .ok (.ok (text.takeWhile wanted, place.after (text.takeWhile wanted))) := by
  obtain ⟨front, hsource, hbyte⟩ := h
  have hparts : source.toList = front ++ (text.takeWhile wanted ++ text.dropWhile wanted) := by
    rw [List.takeWhile_append_dropWhile, hsource]
  refine (outcome_bind_of_ok (outcome_get place) _).trans ?_
  refine (outcome_bind_of_ok (outcome_running ⟨front, hsource, hbyte⟩) _).trans ?_
  refine (outcome_bind_of_ok (outcome_get _) _).trans ?_
  exact outcome_sliceOf hparts hbyte (byte_after _ _) _

theorem outcome_runToken {wanted : Char → Bool} (token : List Char → Token)
    (h : Stands source place text) :
    outcome (runToken source wanted token) place
      = .ok (.ok (⟨token (text.takeWhile wanted), Span.covering place (text.takeWhile wanted)⟩,
        place.after (text.takeWhile wanted))) := by
  refine (outcome_bind_of_ok (outcome_get place) _).trans ?_
  exact (outcome_bind_of_ok (outcome_run h) _).trans rfl

theorem outcome_symbol (h : Stands source place (c :: rest)) :
    outcome (symbol source c) place
      = .ok (.ok (⟨.symbol c, Span.covering place [c]⟩, place.after [c])) := by
  refine (outcome_bind_of_ok (outcome_get place) _).trans ?_
  exact (outcome_bind_of_ok (outcome_advance h) _).trans rfl

-- What is found behind an opening quote, with what was read in front of it
def quotedOutcome (quote : Char) (start place : Position) (before : List Char) :
    Quoted → Except Fault (List Char × Position)
  | .closed value written _ => .ok (before ++ value, place.after written)
  | .unclosed written => .error (.openQuote quote ⟨start, place.after written⟩)

theorem quotedOutcome_behind (quote : Char) (start place : Position)
    (before value written : List Char) (inside : Quoted) :
    quotedOutcome quote start place before (inside.behind value written)
      = quotedOutcome quote start (place.after written) (before ++ value) inside := by
  cases inside <;> simp [quotedOutcome, Quoted.behind]

section

variable {quote : Char} {start : Position} {before : List Char}

theorem outcome_quotedStep_end (h : Stands source place []) :
    outcome (quotedStep source quote start before) place
      = .ok (.error (.openQuote quote ⟨start, place⟩)) :=
  (outcome_bind_of_ok (outcome_advance_end h) _).trans rfl

theorem outcome_quotedStep_quote (h : Stands source place (quote :: rest)) :
    outcome (quotedStep source quote start before) place
      = .ok (.ok (.inr before, place.next quote)) := by
  refine (outcome_bind_of_ok (outcome_advance h) _).trans ?_
  simp only [if_true, outcome_pure]

theorem outcome_quotedStep_escape (hq : '\\' ≠ quote) (h : Stands source place ('\\' :: text)) :
    outcome (quotedStep source quote start before) place
      = .ok (.ok (.inl (before ++ text.head?.toList),
        place.after ('\\' :: text.head?.toList))) := by
  refine (outcome_bind_of_ok (outcome_advance h) _).trans ?_
  simp only [if_neg hq, if_true]
  cases text with
  | nil =>
      refine (outcome_bind_of_ok (outcome_advance_end h.next) _).trans ?_
      simp
  | cons d rest => exact (outcome_bind_of_ok (outcome_advance h.next) _).trans rfl

theorem outcome_quotedStep_feed (hq : '\n' ≠ quote) (h : Stands source place ('\n' :: rest)) :
    outcome (quotedStep source quote start before) place
      = .ok (.error (.openQuote quote ⟨start, place.next '\n'⟩)) := by
  refine (outcome_bind_of_ok (outcome_advance h) _).trans ?_
  simp only [if_neg hq]
  rfl

theorem outcome_quotedStep_plain (hq : c ≠ quote) (hb : c ≠ '\\') (hn : c ≠ '\n')
    (h : Stands source place (c :: rest)) :
    outcome (quotedStep source quote start before) place
      = .ok (.ok (.inl (before ++ [c]), place.next c)) := by
  refine (outcome_bind_of_ok (outcome_advance h) _).trans ?_
  simp only [if_neg hq, if_neg hb, if_neg hn, outcome_pure]

end

theorem outcome_quoting (quote : Char) (start : Position) (before : List Char)
    (h : Stands source place text) :
    outcome (scanning source (quotedStep source quote start) before) place
      = .ok (quotedOutcome quote start place before (splitQuoted quote text)) := by
  fun_induction splitQuoted quote text generalizing place before with
  | case1 => exact outcome_loop_refused (outcome_quotedStep_end h)
  | case2 =>
      refine (outcome_loop_done (outcome_quotedStep_quote h)).trans ?_
      simp [quotedOutcome]
  | case3 c hq =>
      by_cases hb : c = '\\'
      · subst hb
        refine (outcome_loop_next (outcome_quotedStep_escape hq h) (left_next_lt h)).trans ?_
        exact outcome_loop_refused (outcome_quotedStep_end h.next)
      · by_cases hn : c = '\n'
        · subst hn
          exact outcome_loop_refused (outcome_quotedStep_feed hq h)
        · refine (outcome_loop_next (outcome_quotedStep_plain hq hb hn h) (left_next_lt h)).trans ?_
          exact outcome_loop_refused (outcome_quotedStep_end h.next)
  | case4 =>
      refine (outcome_loop_done (outcome_quotedStep_quote h)).trans ?_
      simp [quotedOutcome]
  | case5 d rest hq ih =>
      have hmoved := (left_next_lt h.next).trans (left_next_lt h)
      refine (outcome_loop_next (outcome_quotedStep_escape hq h) hmoved).trans ?_
      rw [quotedOutcome_behind]
      exact ih _ h.next.next
  | case6 d rest hq => exact outcome_loop_refused (outcome_quotedStep_feed hq h)
  | case7 c d rest hq hb hn ih =>
      refine (outcome_loop_next (outcome_quotedStep_plain hq hb hn h) (left_next_lt h)).trans ?_
      rw [quotedOutcome_behind]
      exact ih _ h.next

theorem outcome_quoted (h : Stands source place (c :: text)) :
    outcome (quoted source c) place = match splitQuoted c text with
      | .closed value written _ => .ok (.ok (⟨.quoted (String.ofList value),
          Span.covering place (c :: written)⟩, place.after (c :: written)))
      | .unclosed written => .ok (.error (.openQuote c (Span.covering place (c :: written)))) := by
  have hinside := outcome_quoting c place [] h.next
  refine (outcome_bind_of_ok (outcome_get place) _).trans ?_
  refine (outcome_bind_of_ok (outcome_advance h) _).trans ?_
  cases hsplit : splitQuoted c text with
  | closed value written rest =>
      rw [hsplit] at hinside
      exact (outcome_bind_of_ok hinside _).trans rfl
  | unclosed written =>
      rw [hsplit] at hinside
      exact outcome_bind_of_fault hinside _

-- Comments

theorem outcome_commentStep_end {start : Position} (h : Stands source place ('*' :: '/' :: rest)) :
    outcome (commentStep source start ()) place = .ok (.ok (.inr (), place)) :=
  (outcome_bind_of_ok (outcome_remaining h) _).trans rfl

theorem outcome_commentStep {start : Position} (h : Stands source place (c :: rest))
    (hc : ¬ ['*', '/'] <+: c :: rest) :
    outcome (commentStep source start ()) place = .ok (.ok (.inl (), place.next c)) := by
  refine (outcome_bind_of_ok (outcome_remaining h) _).trans ?_
  rw [← List.isPrefixOf_iff_prefix] at hc
  rw [if_neg hc]
  exact (outcome_bind_of_ok (outcome_advance h) _).trans rfl

theorem outcome_commentStep_refused {start : Position} (h : Stands source place []) :
    outcome (commentStep source start ()) place = .ok (.error (.openComment ⟨start, place⟩)) := by
  refine (outcome_bind_of_ok (outcome_remaining h) _).trans ?_
  exact (outcome_bind_of_ok (outcome_advance_end h) _).trans rfl

theorem outcome_commenting (start : Position) (h : Stands source place text) :
    outcome (scanning source (commentStep source start) ()) place
      = match splitComment text with
        | some (body, _) => .ok (.ok ((), place.after body))
        | none => .ok (.error (.openComment ⟨start, place.after text⟩)) := by
  fun_induction splitComment text generalizing place with
  | case1 => exact outcome_loop_refused (outcome_commentStep_refused h)
  | case2 rest => exact outcome_loop_done (outcome_commentStep_end h)
  | case3 c rest hne ih =>
      have hc : ¬ ['*', '/'] <+: c :: rest := by
        rintro ⟨more, hmore⟩
        obtain ⟨rfl, rfl⟩ := List.cons.inj hmore
        exact hne _ rfl rfl
      refine (outcome_loop_next (outcome_commentStep h hc) (left_next_lt h)).trans ?_
      refine (ih h.next).trans ?_
      cases splitComment rest <;> rfl

theorem documents_eq {body : List Char} (h : splitComment text = some (body, rest)) :
    (['/', '*', '*'].isPrefixOf ('/' :: '*' :: text) &&
      !(['/', '*', '*', '/'].isPrefixOf ('/' :: '*' :: text))) = (body.head? == some '*') := by
  have hinside := not_infix_of_splitComment h
  obtain rfl := splitComment_eq h
  cases body with
  | nil => rfl
  | cons d more =>
      by_cases hd : d = '*'
      · subst hd
        cases more with
        | nil => rfl
        | cons e more =>
            have he : e ≠ '/' := by
              rintro rfl
              exact hinside ⟨[], more, rfl⟩
            simp [List.isPrefixOf, he.symm]
      · have hone : ('*' == d) = false := beq_eq_false_iff_ne.mpr (Ne.symm hd)
        have hother : (d == '*') = false := beq_eq_false_iff_ne.mpr hd
        simp [List.isPrefixOf, hone, hother]

-- What a piece is read as from a place on
def pieceRead (piece : Piece) (place : Position) : Option (Located Token) × Position :=
  (piece.token.map (⟨·, Span.covering place piece.text⟩), place.after piece.text)

theorem outcome_comment (h : Stands source place ('/' :: '*' :: text)) :
    outcome (comment source) place = match splitComment text with
      | some (body, _) => .ok (.ok (pieceRead (commentPiece body) place))
      | none => .ok (.error (.openComment (Span.covering place ('/' :: '*' :: text)))) := by
  have hinside := outcome_commenting place h.next.next
  refine (outcome_bind_of_ok (outcome_get place) _).trans ?_
  refine (outcome_bind_of_ok (outcome_remaining h) _).trans ?_
  refine (outcome_bind_of_ok (outcome_advance h) _).trans ?_
  refine (outcome_bind_of_ok (outcome_advance h.next) _).trans ?_
  refine (outcome_bind_of_ok (outcome_get _) _).trans ?_
  cases hsplit : splitComment text with
  | none =>
      rw [hsplit] at hinside
      exact outcome_bind_of_fault hinside _
  | some parts =>
      obtain ⟨body, more⟩ := parts
      rw [hsplit] at hinside
      obtain ⟨front, hsource, hbyte⟩ := h.next.next
      obtain rfl := splitComment_eq hsplit
      have hend : Stands source (((place.next '/').next '*').after body) ('*' :: '/' :: more) :=
        h.next.next.after
      refine (outcome_bind_of_ok hinside _).trans ?_
      refine (outcome_bind_of_ok (outcome_get _) _).trans ?_
      refine (outcome_bind_of_ok
        (outcome_sliceOf hsource hbyte (byte_after _ _) _) _).trans ?_
      refine (outcome_bind_of_ok (outcome_advance hend) _).trans ?_
      refine (outcome_bind_of_ok (outcome_advance hend.next) _).trans ?_
      have hstop : place.after (commentPiece body).text
          = ((((place.next '/').next '*').after body).next '*').next '/' := by
        simp [commentPiece]
      rw [documents_eq hsplit]
      dsimp only [pieceRead, Span.covering]
      rw [hstop]
      by_cases hs : body.head? = some '*'
      · simp only [hs, beq_self_eq_true, if_true, commentPiece]
        rfl
      · simp only [beq_eq_false_iff_ne.mpr hs, commentPiece, if_neg hs]
        rfl

-- What a cut is read as from a place on
def cutRead (place : Position) : Except CutFault (Piece × List Char) →
    Except Fault (Option (Located Token) × Position)
  | .ok (piece, _) => .ok (pieceRead piece place)
  | .error fault => .error (fault.located place)

-- A run that begins with a wanted character
theorem outcome_someRun {wanted : Char → Bool} (token : List Char → Token)
    (h : Stands source place (c :: text)) (hc : wanted c) :
    outcome (do return some (← runToken source wanted token)) place
      = .ok (.ok (pieceRead (runPiece c (text.takeWhile wanted) token) place)) := by
  have hrun : outcome (runToken source wanted token) place = _ := outcome_runToken token h
  rw [List.takeWhile_cons_of_pos hc] at hrun
  exact (outcome_bind_of_ok hrun _).trans rfl

theorem outcome_tokenAt_slash (h : Stands source place ('/' :: text)) :
    outcome (tokenAt source '/') place = .ok (cutRead place (cut '/' text)) := by
  have hblank : isBlank '/' = false := by decide
  have hsymbol : outcome (do return some (← symbol source '/')) place
      = .ok (.ok (pieceRead ⟨['/'], some (.symbol '/')⟩ place)) :=
    (outcome_bind_of_ok (outcome_symbol h) _).trans rfl
  refine (outcome_bind_of_ok (outcome_peekSecond h) _).trans ?_
  unfold cut
  rw [if_neg (Bool.eq_false_iff.mp hblank), if_pos rfl]
  cases text with
  | nil => exact hsymbol
  | cons d rest =>
      simp only [List.getElem?_cons_succ, List.getElem?_cons_zero, Option.some.injEq]
      by_cases hremark : d = '/'
      · subst hremark
        exact outcome_someRun (fun text => .remark (remarkText text)) h (by decide)
      · rw [if_neg hremark]
        by_cases hcomment : d = '*'
        · subst hcomment
          refine (outcome_comment h).trans ?_
          cases hs : splitComment rest <;> simp [hs, cutRead, CutFault.located]
        · rw [if_neg hcomment]
          refine hsymbol.trans ?_
          split
          · exact absurd (List.cons.inj ‹_›).1 hremark
          · exact absurd (List.cons.inj ‹_›).1 hcomment
          · rfl

-- A token is what is cut off in front of a text.
theorem outcome_tokenAt (h : Stands source place (c :: text)) (hb : isBlank c = false) :
    outcome (tokenAt source c) place = .ok (cutRead place (cut c text)) := by
  by_cases hslash : c = '/'
  · subst hslash
    exact outcome_tokenAt_slash h
  have hnone : outcome (pure none : Scanner (Option Char)) place = .ok (.ok (none, place)) := rfl
  unfold tokenAt cut
  rw [if_neg (Bool.eq_false_iff.mp hb), if_neg hslash, if_neg hslash]
  refine (outcome_bind_of_ok hnone _).trans ?_
  dsimp only
  rw [if_neg (Option.some_ne_none _).symm, if_neg (Option.some_ne_none _).symm]
  by_cases hq : c = '"' ∨ c = '\''
  · rw [if_pos hq, if_pos hq]
    have hquoted := outcome_quoted h
    cases hsplit : splitQuoted c text with
    | closed value written more =>
        rw [hsplit] at hquoted
        exact (outcome_bind_of_ok hquoted _).trans rfl
    | unclosed written =>
        rw [hsplit] at hquoted
        exact (outcome_bind_of_fault hquoted _).trans rfl
  · rw [if_neg hq, if_neg hq]
    by_cases hw : startsWord c
    · rw [if_pos hw, if_pos hw]
      exact outcome_someRun _ h (inWord_of_startsWord hw)
    · rw [if_neg hw, if_neg hw]
      by_cases hd : isDigit c
      · rw [if_pos hd, if_pos hd]
        exact outcome_someRun _ h (by simp [inNumber, hd])
      · rw [if_neg hd, if_neg hd]
        exact (outcome_bind_of_ok (outcome_symbol h) _).trans rfl

-- The tokens of a text that begins at a place, and where it ends
def tokensFrom (place : Position) (text : List Char) :
    Except Fault (List (Located Token) × Position) :=
  match pieces text with
  | (ps, none) => .ok (Proto.place place ps, place.after text)
  | (ps, some fault) => .error (fault.located (place.after (ps.flatMap Piece.text)))

theorem tokensFrom_nil (place : Position) : tokensFrom place [] = .ok ([], place) := by
  unfold tokensFrom
  rw [pieces_nil]
  rfl

theorem tokensFrom_cut {more : List Char} {piece : Piece} (hc : cut c text = .ok (piece, more))
    (place : Position) :
    tokensFrom place (c :: text) = (tokensFrom (place.after piece.text) more).map
      fun (found, stop) => ((pieceRead piece place).1.toList ++ found, stop) := by
  unfold tokensFrom
  rw [pieces_of_cut hc]
  cases hpieces : pieces more with
  | mk ps fault =>
    cases fault with
    | some fault => simp [Except.map]
    | none =>
        have htext := (cut_eq hc).1
        have hplace : Proto.place place (piece :: ps) = (pieceRead piece place).1.toList
            ++ Proto.place (place.after piece.text) ps := by
          rw [Proto.place, pieceRead]
          cases piece.token <;> rfl
        simp [Except.map, hplace, htext]

theorem tokensFrom_error {fault : CutFault} (hc : cut c text = .error fault) (place : Position) :
    tokensFrom place (c :: text) = .error (fault.located place) := by
  unfold tokensFrom
  rw [pieces_of_fault hc]
  rfl

theorem tokensFrom_blanks (place : Position) (text : List Char) :
    tokensFrom place text
      = tokensFrom (place.after (text.takeWhile isBlank)) (text.dropWhile isBlank) := by
  induction text generalizing place with
  | nil => rfl
  | cons c rest ih =>
      by_cases hb : isBlank c
      · have hcut : cut c rest = .ok (⟨[c], none⟩, rest) := if_pos hb
        rw [tokensFrom_cut hcut, List.takeWhile_cons_of_pos hb, List.dropWhile_cons_of_pos hb]
        refine (?_ : _ = tokensFrom (place.next c) rest).trans (ih (place.next c))
        cases h : tokensFrom (place.next c) rest <;> simp [pieceRead, Except.map, h]
      · rw [List.takeWhile_cons_of_neg hb, List.dropWhile_cons_of_neg hb]
        rfl

theorem Stands.behindBlanks (h : Stands source place text) :
    Stands source (place.after (text.takeWhile isBlank)) (text.dropWhile isBlank) := by
  rw [← List.takeWhile_append_dropWhile (p := isBlank) (l := text)] at h
  exact h.after

theorem outcome_tokenizeStep_end (tokens : List (Located Token)) (h : Stands source place text)
    (hrest : text.dropWhile isBlank = []) :
    outcome (tokenizeStep source tokens) place
      = .ok (.ok (.inr tokens, place.after (text.takeWhile isBlank))) := by
  have hnext := h.behindBlanks
  rw [hrest] at hnext
  refine (outcome_bind_of_ok (outcome_run h) _).trans ?_
  exact (outcome_bind_of_ok (outcome_peek hnext) _).trans rfl

theorem outcome_tokenizeStep (tokens : List (Located Token)) (h : Stands source place text)
    (hrest : text.dropWhile isBlank = c :: rest) :
    outcome (tokenizeStep source tokens) place
      = .ok ((cutRead (place.after (text.takeWhile isBlank)) (cut c rest)).map
        fun (found, stop) => (.inl (tokens ++ found.toList), stop)) := by
  have hnext := h.behindBlanks
  rw [hrest] at hnext
  have hb : isBlank c = false := head?_dropWhile isBlank text c (by rw [hrest]; rfl)
  refine (outcome_bind_of_ok (outcome_run h) _).trans ?_
  refine (outcome_bind_of_ok (outcome_peek hnext) _).trans ?_
  have htoken := outcome_tokenAt hnext hb
  cases hcut : cutRead (place.after (text.takeWhile isBlank)) (cut c rest) with
  | error fault =>
      rw [hcut] at htoken
      exact outcome_bind_of_fault htoken _
  | ok read =>
      rw [hcut] at htoken
      exact (outcome_bind_of_ok htoken _).trans rfl

theorem outcome_tokenizing (tokens : List (Located Token)) (h : Stands source place text) :
    outcome (scanning source (tokenizeStep source) tokens) place
      = .ok ((tokensFrom place text).map fun (found, stop) => (tokens ++ found, stop)) := by
  -- A step passes over blanks and one piece, so the induction is on the length and not on the text.
  induction hn : text.length using Nat.strong_induction_on generalizing text place tokens with
  | _ n ih =>
      have hlength := (List.dropWhile_sublist isBlank (l := text)).length_le
      rw [tokensFrom_blanks]
      cases hrest : text.dropWhile isBlank with
      | nil =>
          refine (outcome_loop_done (outcome_tokenizeStep_end tokens h hrest)).trans ?_
          rw [tokensFrom_nil]
          simp [Except.map]
      | cons c rest =>
          have hstep := outcome_tokenizeStep tokens h hrest
          rw [hrest, List.length_cons] at hlength
          cases hcut : cut c rest with
          | error fault =>
              rw [hcut] at hstep
              rw [tokensFrom_error hcut]
              exact outcome_loop_refused hstep
          | ok parts =>
              obtain ⟨piece, more⟩ := parts
              rw [hcut] at hstep
              obtain ⟨htext, hne⟩ := cut_eq hcut
              have hshorter := length_lt_of_cut hcut
              have hstands : Stands source place
                  (text.takeWhile isBlank ++ piece.text ++ more) := by
                rwa [List.append_assoc, ← htext, ← hrest, List.takeWhile_append_dropWhile]
              have hmoved := left_lt hstands (by simp [hne])
              have hmore := hstands.after
              rw [Position.after_append] at hmoved hmore
              refine (outcome_loop_next hstep hmoved).trans ?_
              refine (ih more.length (by omega) _ hmore rfl).trans ?_
              rw [tokensFrom_cut hcut]
              cases tokensFrom ((place.after (text.takeWhile isBlank)).after piece.text) more <;>
                simp [Except.map, pieceRead]

end

-- Every slice of a source stands where characters do, and every loop moves on.
theorem tokenize_eq (source : String) :
    tokenize source = .ok ((Proto.tokenize source).map fun stream =>
      (stream.tokens, stream.stop)) := by
  have hstart : Stands source .start source.toList := ⟨[], rfl, rfl⟩
  refine (outcome_tokenizing [] hstart).trans ?_
  unfold tokensFrom Proto.tokenize
  split <;> simp [Except.map, *]

end Codebook.Proto.Guarded
