import Codebook.Proofs.Proto.Cuts
import Mathlib.Tactic.ByContra

namespace Codebook.Proto

open Codebook.Text

-- What is cut from a text that ends early. The pieces in front of its end are those of the whole
-- text, and the piece that it ends in becomes a shorter one or none at all.

theorem pieces_nil : pieces [] = ([], none) := by
  unfold pieces
  rfl

theorem pieces_of_fault {c : Char} {rest : List Char} {fault : CutFault}
    (h : cut c rest = .error fault) : pieces (c :: rest) = ([], some fault) := by
  rw [pieces.eq_def]
  dsimp only
  split
  · rename_i found hc
    rw [Except.error.inj (hc.symm.trans h)]
  · rename_i hc
    simp [hc] at h

theorem pieces_of_cuts {c : Char} {rest more : List Char} {piece : Piece}
    (h : Cuts c rest piece more) :
    pieces (c :: rest) = (piece :: (pieces more).1, (pieces more).2) :=
  pieces_of_cut (cut_of_cuts h)

-- A comment and a quote that are closed are open when their end is missing.
theorem splitComment_eq_none {body part : List Char}
    (h : splitComment (body ++ ['*', '/']) = some (body, [])) (hp : part <+: body ++ ['*', '/'])
    (hne : part ≠ body ++ ['*', '/']) : splitComment part = none := by
  by_contra hsome
  obtain ⟨⟨inner, rest⟩, hinner⟩ := Option.ne_none_iff_exists'.mp hsome
  obtain ⟨missing, hwhole⟩ := hp
  have hpart := splitComment_eq hinner
  have hlonger := splitComment_append_of_eq hinner (rest ++ missing)
  have htext : inner ++ '*' :: '/' :: (rest ++ missing) = body ++ ['*', '/'] := by
    rw [← hwhole, hpart]
    simp
  rw [htext, h] at hlonger
  obtain ⟨-, hnil⟩ := Prod.mk.inj (Option.some.inj hlonger)
  rw [(List.append_eq_nil_iff.mp hnil.symm).2, List.append_nil] at hwhole
  exact hne hwhole

theorem splitQuoted_eq_unclosed {quote : Char} {value written part : List Char}
    (h : splitQuoted quote written = .closed value written []) (hp : part <+: written)
    (hne : part ≠ written) : ∃ text, splitQuoted quote part = .unclosed text := by
  cases hq : splitQuoted quote part with
  | unclosed text => exact ⟨text, rfl⟩
  | closed v w rest =>
      obtain ⟨missing, hwhole⟩ := hp
      have hpart := splitQuoted_closed_eq hq
      have hlonger := splitQuoted_append_of_eq hq (rest ++ missing)
      rw [← List.append_assoc, ← hpart, hwhole, h] at hlonger
      obtain ⟨-, -, hnil⟩ := Quoted.closed.inj hlonger
      rw [(List.append_eq_nil_iff.mp hnil.symm).2, List.append_nil] at hwhole
      exact absurd hwhole hne

-- What is left of a piece when the text ends inside it. Of a word there is a shorter word.
inductive Remnant (piece : Piece) (part : List Char) : Prop
  | fault (fault : CutFault) (h : pieces part = ([], some fault))
  | shorter (left : Piece) (h : pieces part = ([left], none))
      (brace : left.token ≠ some (.symbol '\x7d'))
      (word : ∀ name, piece.token = some (.word name) → ∃ less,
        left.token = some (.word less) ∧ less.toList <+: name.toList ∧ less ≠ name)

theorem Remnant.of_cuts {piece left : Piece} {c : Char} {front : List Char}
    (h : Cuts c front left []) (hb : left.token ≠ some (.symbol '\x7d'))
    (hw : ∀ name, piece.token = some (.word name) → ∃ less,
      left.token = some (.word less) ∧ less.toList <+: name.toList ∧ less ≠ name) :
    Remnant piece (c :: front) :=
  .shorter left (by rw [pieces_of_cuts h, pieces_nil]) hb hw

theorem remnant_of_cuts {c : Char} {rest more : List Char} {piece : Piece}
    (h : Cuts c rest piece more) {front : List Char} (hp : c :: front <+: piece.text)
    (hne : c :: front ≠ piece.text) : Remnant piece (c :: front) := by
  have hslash : Cuts '/' [] ⟨['/'], some (.symbol '/')⟩ [] :=
    .symbol (by decide) (by decide) (by decide) (by decide) (by simp)
  -- a piece of one character has no beginning that is shorter
  have hone : piece.text ≠ [c] := by
    intro htext
    rw [htext] at hp hne
    have hnil := List.prefix_nil.mp (List.cons_prefix_cons.mp hp).2
    exact hne (by rw [hnil])
  cases h with
  | blank hb => exact absurd rfl hone
  | @remark run _ hr he =>
      obtain ⟨-, hfront⟩ := List.cons_prefix_cons.mp hp
      cases front with
      | nil => exact .of_cuts hslash (by decide) nofun
      | cons d front =>
          obtain ⟨rfl, hrun⟩ := List.cons_prefix_cons.mp hfront
          have hend : ∀ d ∈ ([] : List Char).head?, d = '\n' := by simp
          have hcuts := Cuts.remark (fun d hd => hr d (hrun.subset hd)) hend
          rw [List.append_nil] at hcuts
          exact .of_cuts hcuts nofun nofun
  | @comment body _ hb =>
      have hnoWord : ∀ name, (commentPiece body).token ≠ some (.word name) := by
        intro name
        unfold commentPiece
        split <;> simp
      obtain ⟨-, hfront⟩ := List.cons_prefix_cons.mp hp
      cases front with
      | nil => exact .of_cuts hslash (by decide) fun name hname => absurd hname (hnoWord name)
      | cons d front =>
          obtain ⟨rfl, hbody⟩ := List.cons_prefix_cons.mp hfront
          have hopen : splitComment front = none :=
            splitComment_eq_none (splitComment_append_of_eq hb []) hbody fun he =>
              hne (by rw [he]; rfl)
          have hcut : cut '/' ('*' :: front) = .error (.openComment ('/' :: '*' :: front)) := by
            have hblank : ¬ isBlank '/' := by decide
            unfold cut
            rw [if_neg hblank, if_pos rfl]
            simp only [hopen]
          exact .fault _ (pieces_of_fault hcut)
  | @quoted _ value written _ hc hq =>
      obtain ⟨-, hfront⟩ := List.cons_prefix_cons.mp hp
      have hclosed := splitQuoted_append_of_eq hq []
      rw [List.append_nil] at hclosed
      obtain ⟨text, hopen⟩ := splitQuoted_eq_unclosed hclosed hfront fun he => hne (by rw [he])
      have hcut : cut c front = .error (.openQuote c (c :: text)) := by
        have hother : isBlank c = false ∧ c ≠ '/' := by
          rcases hc with rfl | rfl <;> decide
        unfold cut
        rw [if_neg (by simp [hother.1]), if_neg hother.2, if_pos hc, hopen]
      exact .fault _ (pieces_of_fault hcut)
  | @word _ run _ hc hr he =>
      obtain ⟨-, hfront⟩ := List.cons_prefix_cons.mp hp
      have hend : ∀ d ∈ ([] : List Char).head?, inWord d = false := by simp
      have hcuts := Cuts.word hc (fun d hd => hr d (hfront.subset hd)) hend
      rw [List.append_nil] at hcuts
      refine .of_cuts hcuts nofun fun name hname => ?_
      obtain rfl : String.ofList (c :: run) = name := Token.word.inj (Option.some.inj hname)
      refine ⟨_, rfl, by simpa using hfront, fun he => hne ?_⟩
      exact String.ofList_inj.mp he
  | @number _ run _ hc hr he =>
      obtain ⟨-, hfront⟩ := List.cons_prefix_cons.mp hp
      have hend : ∀ d ∈ ([] : List Char).head?, inNumber d = false := by simp
      have hcuts := Cuts.number hc (fun d hd => hr d (hfront.subset hd)) hend
      rw [List.append_nil] at hcuts
      exact .of_cuts hcuts nofun nofun
  | symbol hb hq hw hd hs => exact absurd rfl hone

theorem pieces_eq_cons {text : List Char} {piece : Piece} {rest : List Piece}
    (h : pieces text = (piece :: rest, none)) :
    ∃ c behind more, text = c :: behind ∧ cut c behind = .ok (piece, more) ∧
      pieces more = (rest, none) := by
  cases text with
  | nil => simp [pieces_nil] at h
  | cons c behind =>
      cases hc : cut c behind with
      | error fault => simp [pieces_of_fault hc] at h
      | ok result =>
          obtain ⟨first, more⟩ := result
          rw [pieces_of_cut hc] at h
          obtain ⟨hpieces, hnone⟩ := Prod.mk.inj h
          obtain ⟨rfl, rfl⟩ := List.cons.inj hpieces
          exact ⟨c, behind, more, rfl, hc, Prod.ext rfl hnone⟩

theorem eq_nil_of_pieces {text : List Char} (h : pieces text = ([], none)) : text = [] := by
  cases text with
  | nil => rfl
  | cons c behind =>
      cases hc : cut c behind with
      | error fault => simp [pieces_of_fault hc] at h
      | ok result => simp [pieces_of_cut hc] at h

-- The pieces of a text are the text.
theorem flatMap_pieces {text : List Char} {ps : List Piece} (h : pieces text = (ps, none)) :
    ps.flatMap Piece.text = text := by
  induction ps generalizing text with
  | nil => rw [eq_nil_of_pieces h, List.flatMap_nil]
  | cons piece rest ih =>
      obtain ⟨c, behind, more, rfl, hc, hmore⟩ := pieces_eq_cons h
      rw [List.flatMap_cons, ih hmore, (cut_eq hc).1]

-- How a text ends in front of the end of a longer one: between two of its pieces or inside one
inductive Ends (ps : List Piece) (front : List Char) : Prop
  | between (first last : List Piece) (hs : ps = first ++ last)
      (hf : pieces front = (first, none))
  | inside (first last : List Piece) (piece : Piece) (part : List Char)
      (hs : ps = first ++ piece :: last) (hf : front = first.flatMap Piece.text ++ part)
      (hp : part <+: piece.text)
      (hpieces : pieces front = (first ++ (pieces part).1, (pieces part).2))
      (remnant : Remnant piece part)

theorem Ends.cons {piece : Piece} {ps : List Piece} {c : Char} {run front : List Char}
    (ht : piece.text = c :: run) (hc : Cuts c (run ++ front) piece front) (h : Ends ps front) :
    Ends (piece :: ps) (piece.text ++ front) := by
  have hpieces := pieces_of_cuts hc
  rw [← List.cons_append, ← ht] at hpieces
  cases h with
  | between first last hs hf =>
      exact .between (piece :: first) last (by rw [hs]; rfl) (by rw [hpieces, hf])
  | inside first last inner part hs hf hp hcut remnant =>
      refine .inside (piece :: first) last inner part (by rw [hs]; rfl) ?_ hp ?_ remnant
      · rw [hf, List.flatMap_cons, List.append_assoc]
      · rw [hpieces, hcut]
        rfl

theorem ends_of_pieces {front behind : List Char} {ps : List Piece}
    (h : pieces (front ++ behind) = (ps, none)) : Ends ps front := by
  induction ps generalizing front with
  | nil =>
      have hnil := List.append_eq_nil_iff.mp (eq_nil_of_pieces h)
      exact .between [] [] rfl (hnil.1 ▸ pieces_nil)
  | cons piece rest ih =>
      obtain ⟨c, tail, more, htext, hcut, hmore⟩ := pieces_eq_cons h
      have hcuts := cuts_of_cut hcut
      have hwhole := (cut_eq hcut).1
      rw [← htext] at hwhole
      have hbehind {later : List Char} (hlater : more = later ++ behind) :
          Ends (piece :: rest) (piece.text ++ later) := by
        obtain ⟨run, hrun, hfirst⟩ := hcuts.of_prefix ⟨behind, hlater.symm⟩
        exact .cons hrun hfirst (ih (hlater ▸ hmore))
      rcases List.append_eq_append_iff.mp hwhole with
        ⟨missing, hpiece, hrest⟩ | ⟨later, rfl, hlater⟩
      · by_cases hall : front = piece.text
        · have hnil : missing = [] := by simpa [hall] using hpiece
          have hends := @hbehind [] (by rw [hrest, hnil]; rfl)
          rwa [List.append_nil, ← hall] at hends
        · cases front with
          | nil => exact .between [] _ rfl pieces_nil
          | cons d front =>
              obtain ⟨rfl, -⟩ := List.cons.inj htext
              have hp : d :: front <+: piece.text := ⟨missing, hpiece.symm⟩
              exact .inside [] rest piece _ rfl rfl hp rfl (remnant_of_cuts hcuts hp hall)
      · exact hbehind hlater

end Codebook.Proto
