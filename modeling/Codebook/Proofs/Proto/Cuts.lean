import Codebook.Proofs.Proto.Lexing
import Mathlib.Data.List.TakeWhile

namespace Codebook.Proto

open Codebook.Text

-- What a piece is that is cut off, and that the text behind it does not matter.

theorem splitComment_append_of_eq {text body rest : List Char}
    (h : splitComment text = some (body, rest)) (more : List Char) :
    splitComment (body ++ '*' :: '/' :: more) = some (body, more) := by
  fun_induction splitComment text generalizing body rest with
  | case1 => simp at h
  | case2 =>
      obtain ⟨rfl, rfl⟩ := Prod.mk.inj (Option.some.inj h)
      rfl
  | case3 c text hopen ih =>
      obtain ⟨⟨inner, behind⟩, hinner, he⟩ := Option.map_eq_some_iff.mp h
      obtain ⟨rfl, rfl⟩ := Prod.mk.inj he
      have htext := splitComment_eq hinner
      have hend : ∀ tail, c = '*' → inner ++ '*' :: '/' :: more = '/' :: tail → False := by
        intro tail hc htail
        cases inner with
        | nil => exact absurd (List.cons.inj htail).1 (by decide)
        | cons d inner =>
            obtain ⟨rfl, -⟩ := List.cons.inj htail
            exact hopen _ hc htext
      rw [List.cons_append, splitComment.eq_3 c _ hend, ih hinner]
      rfl

theorem not_infix_of_splitComment {text body rest : List Char}
    (h : splitComment text = some (body, rest)) : ¬ ['*', '/'] <:+: body := by
  fun_induction splitComment text generalizing body rest with
  | case1 => simp at h
  | case2 =>
      obtain ⟨rfl, -⟩ := Prod.mk.inj (Option.some.inj h)
      simp
  | case3 c text hends ih =>
      obtain ⟨⟨inner, behind⟩, hinner, he⟩ := Option.map_eq_some_iff.mp h
      obtain ⟨rfl, -⟩ := Prod.mk.inj he
      rw [List.infix_cons_iff, not_or]
      refine ⟨?_, ih hinner⟩
      rintro ⟨more, hmore⟩
      obtain ⟨hc, htail⟩ := List.cons.inj hmore
      exact hends _ hc.symm (by rw [splitComment_eq hinner, ← htail]; rfl)

theorem splitQuoted_append_of_eq {quote : Char} {text value written rest : List Char}
    (h : splitQuoted quote text = .closed value written rest) (more : List Char) :
    splitQuoted quote (written ++ more) = .closed value written more := by
  fun_induction splitQuoted quote text generalizing value written rest more with
  | case1 => simp at h
  | case2 =>
      obtain ⟨rfl, rfl, rfl⟩ := Quoted.closed.inj h
      cases more <;> simp [splitQuoted]
  | case3 => simp at h
  | case4 =>
      obtain ⟨rfl, rfl, rfl⟩ := Quoted.closed.inj h
      cases more <;> simp [splitQuoted]
  | case5 d rest hc ih =>
      obtain ⟨v, w, hq, rfl, rfl⟩ := Quoted.behind_eq_closed h
      simp only [List.cons_append, List.nil_append, splitQuoted, if_neg hc, ih hq more]
      rfl
  | case6 => simp at h
  | case7 c d rest hq hb hn ih =>
      obtain ⟨v, w, hq', rfl, rfl⟩ := Quoted.behind_eq_closed h
      have hrest := ih hq' more
      cases w with
      | nil => exact absurd (ih hq' []) (by simp [splitQuoted])
      | cons e w =>
          simp only [List.cons_append, List.nil_append, splitQuoted, if_neg hq, if_neg hb,
            if_neg hn] at hrest ⊢
          simp [hrest]
          rfl

-- What a piece may be, with the character that it begins with, what follows it, and the rest
inductive Cuts : Char → List Char → Piece → List Char → Prop
  | blank {c : Char} {rest : List Char} (hb : isBlank c) : Cuts c rest ⟨[c], none⟩ rest
  | remark {run rest : List Char} (hr : ∀ d ∈ run, d ≠ '\n') (he : ∀ d ∈ rest.head?, d = '\n') :
      Cuts '/' ('/' :: run ++ rest)
        (runPiece '/' ('/' :: run) fun text => .remark (remarkText text)) rest
  | comment {body rest : List Char}
      (hb : splitComment (body ++ '*' :: '/' :: rest) = some (body, rest)) :
      Cuts '/' ('*' :: (body ++ '*' :: '/' :: rest)) (commentPiece body) rest
  | quoted {c : Char} {value written rest : List Char} (hc : c = '"' ∨ c = '\'')
      (hq : splitQuoted c (written ++ rest) = .closed value written rest) :
      Cuts c (written ++ rest) ⟨c :: written, some (.quoted (String.ofList value))⟩ rest
  | word {c : Char} {run rest : List Char} (hc : startsWord c) (hr : ∀ d ∈ run, inWord d)
      (he : ∀ d ∈ rest.head?, inWord d = false) :
      Cuts c (run ++ rest) (runPiece c run fun text => .word (String.ofList text)) rest
  | number {c : Char} {run rest : List Char} (hc : isDigit c) (hr : ∀ d ∈ run, inNumber d)
      (he : ∀ d ∈ rest.head?, inNumber d = false) :
      Cuts c (run ++ rest) (runPiece c run fun text => .number (String.ofList text)) rest
  | symbol {c : Char} {rest : List Char} (hb : isBlank c = false) (hq : ¬ (c = '"' ∨ c = '\''))
      (hw : startsWord c = false) (hd : isDigit c = false)
      (hs : c = '/' → ∀ d ∈ rest.head?, d ≠ '/' ∧ d ≠ '*') :
      Cuts c rest ⟨[c], some (.symbol c)⟩ rest

-- What is behind a run does not go on with it.
theorem head?_dropWhile (p : Char → Bool) (text : List Char) :
    ∀ d ∈ (text.dropWhile p).head?, p d = false := by
  intro d hd
  have := List.head?_dropWhile_not p text
  rw [Option.mem_def.mp hd] at this
  simpa using this

theorem cuts_of_cut {c : Char} {rest more : List Char} {piece : Piece}
    (h : cut c rest = .ok (piece, more)) : Cuts c rest piece more := by
  unfold cut at h
  split at h
  · rename_i hb
    cases h
    exact .blank hb
  rename_i hb
  split at h
  · rename_i hslash
    subst hslash
    split at h
    · rename_i tail
      cases h
      have hrun : ∀ d ∈ tail.takeWhile (· != '\n'), d ≠ '\n' :=
        fun d hd => by simpa using List.mem_takeWhile_imp hd
      have hend : ∀ d ∈ (tail.dropWhile (· != '\n')).head?, d = '\n' :=
        fun d hd => by simpa using head?_dropWhile _ tail d hd
      have hcuts := Cuts.remark hrun hend
      rwa [List.cons_append, List.takeWhile_append_dropWhile] at hcuts
    · split at h
      · rename_i body _ hbody
        cases h
        have htext := splitComment_eq hbody
        subst htext
        exact .comment hbody
      · simp at h
    · rename_i hslash hstar
      cases h
      refine .symbol (by decide) (by decide) (by decide) (by decide) fun _ d hd => ?_
      obtain ⟨tail, rfl⟩ := List.head?_eq_some_iff.mp hd
      constructor
      · rintro rfl
        exact hslash tail rfl
      · rintro rfl
        exact hstar tail rfl
  rename_i hslash
  split at h
  · rename_i hquote
    split at h
    · rename_i value written _ hq
      cases h
      have htext := splitQuoted_closed_eq hq
      subst htext
      exact .quoted hquote hq
    · simp at h
  rename_i hquote
  split at h
  · rename_i hword
    cases h
    have hrun : ∀ d ∈ rest.takeWhile inWord, inWord d := fun d hd => List.mem_takeWhile_imp hd
    have hcuts := Cuts.word hword hrun (head?_dropWhile inWord rest)
    rwa [List.takeWhile_append_dropWhile] at hcuts
  rename_i hword
  split at h
  · rename_i hdigit
    cases h
    have hrun : ∀ d ∈ rest.takeWhile inNumber, inNumber d := fun d hd => List.mem_takeWhile_imp hd
    have hcuts := Cuts.number hdigit hrun (head?_dropWhile inNumber rest)
    rwa [List.takeWhile_append_dropWhile] at hcuts
  rename_i hdigit
  cases h
  exact .symbol (by simpa using hb) hquote (by simpa using hword) (by simpa using hdigit)
    fun he => absurd he hslash

theorem forall_mem_pieces {P : Piece → Prop}
    (h : ∀ {c : Char} {rest more : List Char} {piece : Piece}, Cuts c rest piece more → P piece)
    (text : List Char) : ∀ piece ∈ (pieces text).1, P piece := by
  fun_induction pieces text with
  | case1 => exact List.forall_mem_nil _
  | case2 => exact List.forall_mem_nil _
  | case3 c rest piece more hcut _ behind fault hpieces ih =>
      rw [hpieces] at ih
      exact List.forall_mem_cons.mpr ⟨h (cuts_of_cut hcut), ih⟩

-- A run ends where its class of characters does.
theorem takeWhile_append_of_head? {p : Char → Bool} {run rest : List Char} (hr : ∀ d ∈ run, p d)
    (he : ∀ d ∈ rest.head?, p d = false) :
    (run ++ rest).takeWhile p = run ∧ (run ++ rest).dropWhile p = rest := by
  cases rest with
  | nil =>
      rw [List.append_nil]
      exact ⟨List.takeWhile_eq_self_iff.mpr hr, List.dropWhile_eq_nil_iff.mpr hr⟩
  | cons c rest => exact takeWhile_run hr (he c rfl) rest

theorem cut_of_cuts {c : Char} {rest more : List Char} {piece : Piece}
    (h : Cuts c rest piece more) : cut c rest = .ok (piece, more) := by
  cases h with
  | blank hb =>
      unfold cut
      rw [if_pos hb]
  | @remark run _ hr he =>
      have hrun : ∀ d ∈ '/' :: run, d != '\n' := by simpa using hr
      obtain ⟨htake, hdrop⟩ := takeWhile_append_of_head? hrun fun d hd => by simpa using he d hd
      have hcut : cut '/' ('/' :: run ++ more) = .ok (runPiece '/'
          (('/' :: run ++ more).takeWhile (· != '\n')) fun text => .remark (remarkText text),
          ('/' :: run ++ more).dropWhile (· != '\n')) := rfl
      rw [hcut, htake, hdrop]
  | comment hb =>
      have hblank : ¬ isBlank '/' := by decide
      unfold cut
      rw [if_neg hblank, if_pos rfl]
      simp only [hb]
  | quoted hc hq =>
      have hother : isBlank c = false ∧ c ≠ '/' := by
        rcases hc with rfl | rfl <;> decide
      obtain ⟨hblank, hslash⟩ := hother
      unfold cut
      rw [if_neg (by simp [hblank]), if_neg hslash, if_pos hc, hq]
  | word hc hr he =>
      obtain ⟨htake, hdrop⟩ := takeWhile_append_of_head? hr he
      rw [cut_word hc, htake, hdrop]
  | number hc hr he =>
      obtain ⟨htake, hdrop⟩ := takeWhile_append_of_head? hr he
      rw [cut_number hc, htake, hdrop]
  | symbol hb hq hw hd hs =>
      unfold cut
      rw [if_neg (by simp [hb])]
      by_cases hslash : c = '/'
      · rw [if_pos hslash]
        split
        · exact absurd rfl (hs hslash '/' rfl).1
        · exact absurd rfl (hs hslash '*' rfl).2
        · rfl
      · rw [if_neg hslash, if_neg hq, if_neg (by simp [hw]), if_neg (by simp [hd])]

-- A piece is cut off in the same way when the text ends somewhere behind it.
theorem Cuts.of_prefix {c : Char} {rest more : List Char} {piece : Piece}
    (h : Cuts c rest piece more) {front : List Char} (hf : front <+: more) :
    ∃ run, piece.text = c :: run ∧ Cuts c (run ++ front) piece front := by
  have hhead {p : Char → Prop} (hp : ∀ d ∈ more.head?, p d) : ∀ d ∈ front.head?, p d := by
    intro d hd
    obtain ⟨behind, rfl⟩ := hf
    exact hp d (by rw [List.head?_append, Option.mem_def.mp hd]; rfl)
  cases h with
  | blank hb => exact ⟨[], rfl, .blank hb⟩
  | remark hr he => exact ⟨_, rfl, .remark hr (hhead he)⟩
  | comment hb =>
      refine ⟨_, rfl, ?_⟩
      have hcuts := Cuts.comment (splitComment_append_of_eq hb front)
      simpa using hcuts
  | quoted hc hq => exact ⟨_, rfl, .quoted hc (splitQuoted_append_of_eq hq front)⟩
  | word hc hr he => exact ⟨_, rfl, .word hc hr (hhead he)⟩
  | number hc hr he => exact ⟨_, rfl, .number hc hr (hhead he)⟩
  | symbol hb hq hw hd hs => exact ⟨[], rfl, .symbol hb hq hw hd fun he => hhead (hs he)⟩

end Codebook.Proto
