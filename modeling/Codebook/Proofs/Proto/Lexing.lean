import Codebook.Proofs.Text.CaseMap
import Codebook.Proto.Lexer

namespace Codebook.Proto

open Codebook.Text

-- How texts are cut that are put one behind the other.

theorem pieces_of_cut {c : Char} {rest more : List Char} {piece : Piece}
    (h : cut c rest = .ok (piece, more)) :
    pieces (c :: rest) = (piece :: (pieces more).1, (pieces more).2) := by
  rw [pieces.eq_def]
  dsimp only
  split
  · rename_i fault hc
    simp [hc] at h
  · rename_i found behind hc
    obtain ⟨rfl, rfl⟩ := Prod.mk.inj (Except.ok.inj (hc.symm.trans h))
    rfl

theorem tokenize_of_pieces {source : String} {ps : List Piece}
    (h : pieces source.toList = (ps, none)) :
    tokenize source = .ok ⟨place .start ps, Position.start.after source.toList⟩ := by
  unfold tokenize
  rw [h]

theorem tokenize_eq_ok {source : String} {stream : TokenStream} :
    tokenize source = .ok stream ↔ ∃ ps, pieces source.toList = (ps, none) ∧
      ⟨place .start ps, Position.start.after source.toList⟩ = stream := by
  constructor
  · intro h
    unfold tokenize at h
    split at h
    · rename_i ps hps
      exact ⟨ps, hps, Except.ok.inj h⟩
    · simp at h
  · rintro ⟨ps, hps, rfl⟩
    exact tokenize_of_pieces hps

-- A text that stands for some tokens whatever follows it
def Lexes (text : List Char) (tokens : List Token) : Prop :=
  ∃ ps : List Piece, ps.filterMap Piece.token = tokens ∧
    ∀ rest, pieces (text ++ rest) = (ps ++ (pieces rest).1, (pieces rest).2)

theorem Lexes.nil : Lexes [] [] := ⟨[], rfl, fun _ => rfl⟩

theorem Lexes.append {first second : List Char} {front behind : List Token}
    (hf : Lexes first front) (hs : Lexes second behind) :
    Lexes (first ++ second) (front ++ behind) := by
  obtain ⟨ps, rfl, hps⟩ := hf
  obtain ⟨qs, rfl, hqs⟩ := hs
  refine ⟨ps ++ qs, List.filterMap_append, fun rest => ?_⟩
  rw [List.append_assoc, hps, hqs, List.append_assoc]

theorem Lexes.of_cut {c : Char} {tail more : List Char} {piece : Piece} {tokens : List Token}
    (h : ∀ rest, cut c (tail ++ rest) = .ok (piece, more ++ rest)) (hm : Lexes more tokens) :
    Lexes (c :: tail) (piece.token.toList ++ tokens) := by
  obtain ⟨ps, rfl, hps⟩ := hm
  refine ⟨piece :: ps, ?_, fun rest => ?_⟩
  · cases hp : piece.token <;> simp [hp]
  · rw [List.cons_append, pieces_of_cut (h rest), hps]
    rfl

theorem Lexes.blank {c : Char} {text : List Char} {tokens : List Token} (hb : isBlank c)
    (h : Lexes text tokens) : Lexes (c :: text) tokens := by
  have hcut (rest : List Char) : cut c (text ++ rest) = .ok (⟨[c], none⟩, text ++ rest) := by
    unfold cut
    rw [if_pos hb]
  exact Lexes.of_cut hcut h

theorem Lexes.margin {margin text : List Char} {tokens : List Token}
    (hm : ∀ c ∈ margin, isBlank c) (h : Lexes text tokens) : Lexes (margin ++ text) tokens := by
  induction margin with
  | nil => exact h
  | cons c rest ih =>
      obtain ⟨hc, hrest⟩ := List.forall_mem_cons.mp hm
      exact Lexes.blank hc (ih hrest)

-- The symbols of the canonical form
def isSymbol (c : Char) : Bool := "\x7b\x7d=;-.".toList.contains c

theorem Lexes.symbol {c : Char} {text : List Char} {tokens : List Token} (hc : isSymbol c)
    (h : Lexes text tokens) : Lexes (c :: text) (.symbol c :: tokens) := by
  have hsix : c = '\x7b' ∨ c = '\x7d' ∨ c = '=' ∨ c = ';' ∨ c = '-' ∨ c = '.' := by
    simpa [isSymbol] using hc
  have hcut (rest : List Char) :
      cut c (text ++ rest) = .ok (⟨[c], some (.symbol c)⟩, text ++ rest) := by
    rcases hsix with rfl | rfl | rfl | rfl | rfl | rfl <;> rfl
  exact Lexes.of_cut hcut h

-- A name as the language has it
def IsIdentifier : List Char → Prop
  | [] => False
  | c :: rest => startsWord c ∧ rest.all inWord

instance : DecidablePred IsIdentifier
  | [] => inferInstanceAs (Decidable False)
  | c :: rest => inferInstanceAs (Decidable (startsWord c ∧ rest.all inWord))

theorem toNat_lt_of_inWord {c : Char} (h : inWord c) : c.toNat < 0x80 := by
  simp only [inWord, isLetter, isDigit, Bool.or_eq_true, Bool.and_eq_true, decide_eq_true_eq,
    beq_iff_eq] at h
  rcases h with ((⟨-, h⟩ | ⟨-, h⟩) | ⟨-, h⟩) | rfl
  · exact Nat.lt_of_le_of_lt h (by decide)
  · exact Nat.lt_of_le_of_lt h (by decide)
  · exact Nat.lt_of_le_of_lt h (by decide)
  · decide

theorem inWord_of_startsWord {c : Char} (h : startsWord c) : inWord c := by
  rw [startsWord, Bool.or_eq_true] at h
  rcases h with h | h <;> simp [inWord, h]

theorem inWord_of_isDigit {c : Char} (h : isDigit c) : inWord c := by
  simp [inWord, h]

-- The characters of identifiers have no part in blanks, comments and line ends.
theorem no_sign_of_inWord {c : Char} (h : inWord c) :
    isBlank c = false ∧ c ≠ '/' ∧ c ≠ '*' ∧ c ≠ '\n' := by
  refine forall_ascii (p := fun c => inWord c → isBlank c = false ∧ c ≠ '/' ∧ c ≠ '*' ∧ c ≠ '\n')
    ?_ (toNat_lt_of_inWord h) h
  decide +kernel

theorem cut_word {c : Char} (hc : startsWord c) (rest : List Char) :
    cut c rest = .ok (runPiece c (rest.takeWhile inWord) fun text => .word (String.ofList text),
      rest.dropWhile inWord) := by
  have hother : isBlank c = false ∧ c ≠ '/' ∧ ¬ (c = '"' ∨ c = '\'') := by
    refine forall_ascii (p := fun c => startsWord c → isBlank c = false ∧ c ≠ '/' ∧
      ¬ (c = '"' ∨ c = '\'')) ?_
      (toNat_lt_of_inWord (inWord_of_startsWord hc)) hc
    decide +kernel
  obtain ⟨hblank, hslash, hquote⟩ := hother
  unfold cut
  rw [if_neg (by simp [hblank]), if_neg hslash, if_neg hquote, if_pos hc]

theorem takeWhile_run {p : Char → Bool} {run : List Char} {c : Char} (hr : ∀ d ∈ run, p d)
    (hc : p c = false) (rest : List Char) :
    (run ++ c :: rest).takeWhile p = run ∧ (run ++ c :: rest).dropWhile p = c :: rest := by
  rw [List.takeWhile_append_of_pos hr, List.dropWhile_append_of_pos hr]
  simp [hc]

-- A word ends in front of a character that no word has.
theorem Lexes.word {name text : List Char} {c : Char} {tokens : List Token}
    (hn : IsIdentifier name) (hc : inWord c = false) (h : Lexes (c :: text) tokens) :
    Lexes (name ++ c :: text) (.word (String.ofList name) :: tokens) := by
  cases name with
  | nil => exact hn.elim
  | cons d run =>
      obtain ⟨hd, hall⟩ := hn
      have hrun : ∀ e ∈ run, inWord e := List.all_eq_true.mp hall
      have hcut (rest : List Char) : cut d (run ++ c :: text ++ rest)
          = .ok (runPiece d run fun text => .word (String.ofList text), c :: text ++ rest) := by
        obtain ⟨htake, hdrop⟩ := takeWhile_run hrun hc (text ++ rest)
        rw [List.append_assoc, List.cons_append, cut_word hd, htake, hdrop]
      exact Lexes.of_cut hcut h

theorem cut_number {c : Char} (hc : isDigit c) (rest : List Char) :
    cut c rest = .ok (runPiece c (rest.takeWhile inNumber)
      fun text => .number (String.ofList text), rest.dropWhile inNumber) := by
  have hcode : c.toNat < 0x80 := toNat_lt_of_inWord (inWord_of_isDigit hc)
  have hother : isBlank c = false ∧ c ≠ '/' ∧ ¬ (c = '"' ∨ c = '\'') ∧
      startsWord c = false := by
    refine forall_ascii (p := fun c => isDigit c → isBlank c = false ∧ c ≠ '/' ∧
      ¬ (c = '"' ∨ c = '\'') ∧ startsWord c = false) ?_ hcode hc
    decide +kernel
  obtain ⟨hblank, hslash, hquote, hword⟩ := hother
  unfold cut
  rw [if_neg (by simp [hblank]), if_neg hslash, if_neg hquote, if_neg (by simp [hword]),
    if_pos hc]

-- A number ends in front of a character that no number has.
theorem Lexes.number {d c : Char} {run text : List Char} {tokens : List Token} (hd : isDigit d)
    (hr : ∀ e ∈ run, inNumber e) (hc : inNumber c = false) (h : Lexes (c :: text) tokens) :
    Lexes (d :: (run ++ c :: text)) (.number (String.ofList (d :: run)) :: tokens) := by
  have hcut (rest : List Char) : cut d (run ++ c :: text ++ rest)
      = .ok (runPiece d run fun text => .number (String.ofList text), c :: text ++ rest) := by
    obtain ⟨htake, hdrop⟩ := takeWhile_run hr hc (text ++ rest)
    rw [List.append_assoc, List.cons_append, cut_number hd, htake, hdrop]
  exact Lexes.of_cut hcut h

-- A text in which no block comment ends, also not together with what follows
def IsInside (text : List Char) : Prop :=
  ∀ more, splitComment (text ++ more)
    = (splitComment more).map fun (body, rest) => (text ++ body, rest)

theorem IsInside.nil : IsInside [] := by
  simp [IsInside]

theorem IsInside.append {first second : List Char} (hf : IsInside first) (hs : IsInside second) :
    IsInside (first ++ second) := by
  intro more
  rw [List.append_assoc, hf, hs]
  cases splitComment more <;> simp

theorem IsInside.cons {c : Char} {text : List Char}
    (hc : ∀ more, ¬ ['*', '/'] <+: c :: (text ++ more)) (h : IsInside text) :
    IsInside (c :: text) := by
  intro more
  have hrest : ∀ rest, c = '*' → text ++ more = '/' :: rest → False := by
    rintro rest rfl he
    exact hc more ⟨rest, by rw [he]; rfl⟩
  rw [List.cons_append, splitComment.eq_3 c (text ++ more) hrest, h]
  cases splitComment more <;> rfl

theorem IsInside.of_notMem {text : List Char} (h : '*' ∉ text) : IsInside text := by
  induction text with
  | nil => exact IsInside.nil
  | cons c rest ih =>
      obtain ⟨hc, hrest⟩ := not_or.mp (mt List.mem_cons.mpr h)
      exact IsInside.cons (fun more hp => hc (List.cons_prefix_cons.mp hp).1) (ih hrest)

-- No comment ends in a text without the end of one, nor together with a further character that
-- neither begins nor ends it.
theorem IsInside.concat {text : List Char} {last : Char} (h : ¬ ['*', '/'] <:+: text)
    (hstar : last ≠ '*') (hslash : last ≠ '/') : IsInside (text ++ [last]) := by
  induction text with
  | nil => exact IsInside.cons (by simp [hstar.symm]) IsInside.nil
  | cons c rest ih =>
      have hrest : ¬ ['*', '/'] <:+: rest := by
        intro hi
        exact h (hi.trans (List.suffix_cons c rest).isInfix)
      refine IsInside.cons (fun more hp => h ?_) (ih hrest)
      obtain ⟨hc, hbehind⟩ : '*' = c ∧ ['/'] <+: rest ++ [last] ++ more :=
        List.cons_prefix_cons.mp hp
      cases rest with
      | nil => exact absurd (List.cons_prefix_cons.mp hbehind).1.symm hslash
      | cons d rest =>
          obtain ⟨hd, -⟩ := List.cons_prefix_cons.mp hbehind
          subst hc hd
          exact ⟨[], rest, rfl⟩

-- A line without the end of a comment, and the line feed behind it
theorem IsInside.line {line : List Char} (h : ¬ ['*', '/'] <:+: line) :
    IsInside (line ++ ['\n']) := IsInside.concat h (by decide) (by decide)

-- A block comment is one piece.
theorem Lexes.comment {body text : List Char} {tokens : List Token} (hb : IsInside body)
    (h : Lexes text tokens) :
    Lexes ('/' :: '*' :: (body ++ '*' :: '/' :: text))
      ((commentPiece body).token.toList ++ tokens) := by
  have hcut (rest : List Char) : cut '/' ('*' :: (body ++ '*' :: '/' :: text) ++ rest)
      = .ok (commentPiece body, text ++ rest) := by
    have hsplit : splitComment (body ++ '*' :: '/' :: text ++ rest)
        = some (body, text ++ rest) := by
      rw [List.append_assoc, hb]
      simp [splitComment]
    have hblank : ¬ isBlank '/' := by decide
    unfold cut
    rw [if_neg hblank, if_pos rfl]
    simp only [List.cons_append, hsplit]
  exact Lexes.of_cut hcut h

theorem Lexes.doc {body text : List Char} {tokens : List Token} (hb : IsInside body)
    (hs : body.head? = some '*') (h : Lexes text tokens) :
    Lexes ('/' :: '*' :: (body ++ '*' :: '/' :: text)) (.doc (docLines body) :: tokens) := by
  have hlexes := Lexes.comment hb h
  rw [commentPiece, if_pos hs] at hlexes
  exact hlexes

end Codebook.Proto
