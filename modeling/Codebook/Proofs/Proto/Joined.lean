import Codebook.Proofs.Proto.Truncated.Pieces

namespace Codebook.Proto

open Codebook.Text

-- How a text is cut that is put together from others. A blank in between keeps their pieces apart,
-- unless it is in a remark that it does not end.

def IsSeparator (c : Char) : Prop := c = ' ' ∨ c = '\n'

theorem IsSeparator.isBlank {c : Char} (h : IsSeparator c) : isBlank c := by
  rcases h with rfl | rfl <;> decide

theorem IsSeparator.ends {c : Char} (h : IsSeparator c) :
    inWord c = false ∧ inNumber c = false ∧ c ≠ '/' ∧ c ≠ '*' := by
  rcases h with rfl | rfl <;> decide

-- A character that no piece goes on with
def Piece.EndsAt (piece : Piece) (c : Char) : Prop :=
  IsSeparator c ∧ (c = '\n' ∨ ∀ text, piece.token ≠ some (.remark text))

-- A piece is cut off in the same way when the text goes on behind it.
theorem Cuts.append {c : Char} {rest more behind : List Char} {piece : Piece}
    (h : Cuts c rest piece more) (he : more = [] → ∀ d ∈ behind.head?, piece.EndsAt d) :
    Cuts c (rest ++ behind) piece (more ++ behind) := by
  have hhead {p : Char → Prop} (hp : ∀ d ∈ more.head?, p d)
      (hend : ∀ d, piece.EndsAt d → p d) : ∀ d ∈ (more ++ behind).head?, p d := by
    cases more with
    | nil => exact fun d hd => hend d (he rfl d hd)
    | cons d more => exact hp
  cases h with
  | blank hb => exact .blank hb
  | remark hrun hr =>
      have hcuts := Cuts.remark hrun (hhead hr fun d hd => hd.2.resolve_right fun hno => hno _ rfl)
      rwa [← List.append_assoc] at hcuts
  | comment hb =>
      have hcuts := Cuts.comment (splitComment_append_of_eq hb (more ++ behind))
      simpa using hcuts
  | quoted hc hq =>
      have hcuts := Cuts.quoted hc (splitQuoted_append_of_eq hq (more ++ behind))
      rwa [← List.append_assoc] at hcuts
  | word hc hrun hr =>
      have hcuts := Cuts.word hc hrun (hhead hr fun d hd => hd.1.ends.1)
      rwa [← List.append_assoc] at hcuts
  | number hc hrun hr =>
      have hcuts := Cuts.number hc hrun (hhead hr fun d hd => hd.1.ends.2.1)
      rwa [← List.append_assoc] at hcuts
  | symbol hb hq hw hd hs =>
      exact .symbol hb hq hw hd fun hc => hhead (hs hc) fun d hd => hd.1.ends.2.2

-- What stands behind the last piece of a text can be joined to it first.
theorem pieces_append_of_last {front behind : List Char} {init qs : List Piece} {last : Piece}
    (h : pieces front = (init ++ [last], none))
    (hl : pieces (last.text ++ behind) = (qs, none)) :
    pieces (front ++ behind) = (init ++ qs, none) := by
  induction init generalizing front with
  | nil =>
      have htext := flatMap_pieces h
      simp only [List.nil_append, List.flatMap_singleton] at htext
      rw [← htext, hl, List.nil_append]
  | cons piece rest ih =>
      obtain ⟨c, tail, more, rfl, hcut, hmore⟩ := pieces_eq_cons h
      have hne : more ≠ [] := by
        rintro rfl
        simp [pieces_nil] at hmore
      have hcuts : Cuts c (tail ++ behind) piece (more ++ behind) :=
        (cuts_of_cut hcut).append fun hnil => absurd hnil hne
      rw [List.cons_append, pieces_of_cuts hcuts, ih hmore, List.cons_append]

theorem pieces_append {front behind : List Char} {ps : List Piece} (h : pieces front = (ps, none))
    (he : ∀ last ∈ ps.getLast?, ∀ d ∈ behind.head?, last.EndsAt d) :
    pieces (front ++ behind) = (ps ++ (pieces behind).1, (pieces behind).2) := by
  induction ps generalizing front with
  | nil =>
      rw [eq_nil_of_pieces h]
      rfl
  | cons piece rest ih =>
      obtain ⟨c, tail, more, rfl, hcut, hmore⟩ := pieces_eq_cons h
      have hlast : more = [] → ∀ d ∈ behind.head?, piece.EndsAt d := by
        rintro rfl
        obtain rfl : rest = [] := by simpa [pieces_nil] using hmore.symm
        exact he piece rfl
      have hbehind : ∀ last ∈ rest.getLast?, ∀ d ∈ behind.head?, last.EndsAt d := by
        intro last hm
        obtain ⟨init, rfl⟩ := List.getLast?_eq_some_iff.mp hm
        exact he last (List.getLast?_eq_some_iff.mpr ⟨piece :: init, rfl⟩)
      have hcuts := (cuts_of_cut hcut).append hlast
      rw [List.cons_append, pieces_of_cuts hcuts, ih hmore hbehind, List.cons_append]

theorem pieces_separator {c : Char} (hc : IsSeparator c) (behind : List Char) :
    pieces (c :: behind) = (⟨[c], none⟩ :: (pieces behind).1, (pieces behind).2) :=
  pieces_of_cuts (.blank hc.isBlank)

-- Both parts of a text that is cut in between are cut as they are together.
theorem pieces_of_append {front behind : List Char} {ps qs : List Piece}
    (h : pieces (front ++ behind) = (ps ++ qs, none)) (hf : ps.flatMap Piece.text = front) :
    pieces front = (ps, none) ∧ pieces behind = (qs, none) := by
  induction ps generalizing front with
  | nil =>
      subst hf
      exact ⟨pieces_nil, h⟩
  | cons piece rest ih =>
      obtain ⟨c, tail, more, htext, hcut, hmore⟩ := pieces_eq_cons h
      have hwhole := (cut_eq hcut).1
      rw [← htext, ← hf, List.flatMap_cons, List.append_assoc] at hwhole
      have hrest := List.append_cancel_left hwhole
      have hfirst := cuts_of_cut hcut
      obtain ⟨run, hrun, hcuts⟩ := hfirst.of_prefix ⟨behind, hrest⟩
      rw [← hrest] at hmore
      obtain ⟨hfront, hbehind⟩ := ih hmore rfl
      refine ⟨?_, hbehind⟩
      rw [← hf, List.flatMap_cons, hrun, List.cons_append, pieces_of_cuts hcuts, hfront]

end Codebook.Proto
