import Codebook.Proofs.Declarations.Entry
import Mathlib.Data.List.Basic
import Mathlib.Data.List.TakeWhile

namespace Codebook.Declarations

open Codebook.Text

-- The fields of a line are its words, and the column of a field is the length of what is in front
-- of it.

-- The words of a text: what stands between its blanks
def words (text : List Char) : List (List Char) := (text.splitOnP isBlank).filter (· ≠ [])

-- A text is empty, or begins with a blank, or with a word up to a blank or to the end.
theorem words_induction {P : List Char → Prop} (nil : P [])
    (blank : ∀ c rest, isBlank c → P rest → P (c :: rest))
    (word : ∀ word rest, word ≠ [] → (∀ c ∈ word, isBlank c = false) →
      (∀ c ∈ rest.head?, isBlank c) → P rest → P (word ++ rest)) (text : List Char) : P text := by
  induction hn : text.length using Nat.strongRecOn generalizing text with
  | ind n ih =>
      cases text with
      | nil => exact nil
      | cons c rest =>
          by_cases hc : isBlank c
          · exact blank c rest hc (ih rest.length (by simp [← hn]) rest rfl)
          · have hsplit : (c :: rest).takeWhile (fun c => ! isBlank c)
                ++ (c :: rest).dropWhile (fun c => ! isBlank c) = c :: rest :=
              List.takeWhile_append_dropWhile
            have hne : (c :: rest).takeWhile (fun c => ! isBlank c) ≠ [] := by simp [hc]
            have hlength := congrArg List.length hsplit
            rw [List.length_append, hn] at hlength
            have hpos := List.length_pos_iff.mpr hne
            rw [← hsplit]
            refine word _ _ hne (fun x hx => ?_) (fun x hx => ?_) (ih _ (by omega) _ rfl)
            · simpa using List.mem_takeWhile_imp hx
            · have hhead := List.head?_dropWhile_not (fun c => ! isBlank c) (c :: rest)
              rw [Option.mem_def.mp hx] at hhead
              simpa using hhead

theorem words_cons_blank {c : Char} (hc : isBlank c) (rest : List Char) :
    words (c :: rest) = words rest := by
  have hsplit := List.splitOnP_append_cons [] rest hc
  rw [List.nil_append] at hsplit
  rw [words, hsplit, words]
  rfl

theorem words_append {word rest : List Char} (hne : word ≠ [])
    (hw : ∀ c ∈ word, isBlank c = false) (hr : ∀ c ∈ rest.head?, isBlank c) :
    words (word ++ rest) = word :: words rest := by
  have hword : word.splitOnP isBlank = [word] := List.splitOnP_eq_singleton hw
  cases rest with
  | nil => simp [words, hword, hne]
  | cons c rest =>
      have hc : isBlank c := hr c rfl
      rw [words_cons_blank hc, words, List.splitOnP_append_cons word rest hc, hword, words]
      simp [hne]

theorem map_text_fieldsFrom (column : Nat) (text : List Char) :
    (fieldsFrom column text).map Field.text = words text := by
  induction text using words_induction generalizing column with
  | nil => rfl
  | blank c rest hc ih => rw [fieldsFrom_blank hc, ih, words_cons_blank hc]
  | word word rest hne hw hr ih =>
      rw [fieldsFrom_append hne hw hr, List.map_cons, ih, words_append hne hw hr]

-- A word of a text behind a number of others
structure IsWordAt (text : List Char) (number : Nat) (front word : List Char) : Prop where
  text_eq : ∃ behind, (∀ c ∈ behind.head?, isBlank c) ∧ text = front ++ (word ++ behind)
  number_eq : (words front).length = number
  front_blank : ∀ c ∈ front.getLast?, isBlank c
  ne_nil : word ≠ []
  noBlank : ∀ c ∈ word, isBlank c = false

theorem IsWordAt.cons_blank {text front word : List Char} {number : Nat}
    (h : IsWordAt text number front word) {c : Char} (hc : isBlank c) :
    IsWordAt (c :: text) number (c :: front) word where
  text_eq := by
    obtain ⟨behind, hbehind, rfl⟩ := h.text_eq
    exact ⟨behind, hbehind, rfl⟩
  number_eq := by rw [words_cons_blank hc, h.number_eq]
  front_blank := by
    cases front with
    | nil => simpa using hc
    | cons d front =>
        rw [List.getLast?_cons_of_ne_nil (List.cons_ne_nil d front)]
        exact h.front_blank
  ne_nil := h.ne_nil
  noBlank := h.noBlank

theorem IsWordAt.append_word {text front word : List Char} {number : Nat}
    (h : IsWordAt text number front word) {first : List Char} (hne : first ≠ [])
    (hf : ∀ c ∈ first, isBlank c = false) (ht : ∀ c ∈ text.head?, isBlank c) :
    IsWordAt (first ++ text) (number + 1) (first ++ front) word := by
  obtain ⟨behind, hbehind, rfl⟩ := h.text_eq
  -- the word does not begin where the first one ends
  have hfront : front ≠ [] := by
    rintro rfl
    obtain ⟨c, rest, rfl⟩ := List.exists_cons_of_ne_nil h.ne_nil
    have hblank := ht c rfl
    rw [h.noBlank c List.mem_cons_self] at hblank
    exact absurd hblank Bool.false_ne_true
  have hhead : ∀ c ∈ front.head?, isBlank c := by
    intro c hc
    obtain ⟨rest, rfl⟩ : ∃ rest, front = c :: rest := ⟨_, List.eq_cons_of_mem_head? hc⟩
    exact ht c rfl
  refine ⟨⟨behind, hbehind, by rw [List.append_assoc]⟩, ?_, ?_, h.ne_nil, h.noBlank⟩
  · rw [words_append hne hf hhead, List.length_cons, h.number_eq]
  · rw [List.getLast?_append_of_ne_nil _ hfront]
    exact h.front_blank

theorem isWordAt_of_fieldsFrom {column : Nat} {text : List Char} {number : Nat} {field : Field}
    (h : (fieldsFrom column text)[number]? = some field) :
    ∃ front, IsWordAt text number front field.text ∧ field.column = column + front.length := by
  induction text using words_induction generalizing column number with
  | nil => simp [fieldsFrom] at h
  | blank c rest hc ih =>
      rw [fieldsFrom_blank hc] at h
      obtain ⟨front, hword, hcolumn⟩ := ih h
      exact ⟨c :: front, hword.cons_blank hc, by rw [hcolumn, List.length_cons]; omega⟩
  | word word rest hne hw hr ih =>
      rw [fieldsFrom_append hne hw hr] at h
      cases number with
      | zero =>
          obtain rfl := Option.some.inj h
          exact ⟨[], ⟨⟨rest, hr, rfl⟩, rfl, by simp, hne, hw⟩, rfl⟩
      | succ number =>
          obtain ⟨front, hword, hcolumn⟩ := ih h
          refine ⟨word ++ front, hword.append_word hne hw hr, ?_⟩
          rw [hcolumn, List.length_append, Nat.add_assoc]

end Codebook.Declarations
