import Codebook.Declarations.Entry

namespace Codebook.Declarations

open Codebook.Text

-- What the lines of a block guarantee for every entry that is read from them
structure Entry.WellFormed (entry : Entry) : Prop where
  name_ne_nil : entry.name.toList ≠ []
  name_blank : ∀ c ∈ entry.name.toList, isBlank c = false
  number_inRange : Number.inRange entry.number

-- What an entry declares
def Entry.declared (entry : Entry) : String × Int := (entry.name, entry.number)

-- A field is a stretch of characters that are not blank.
theorem field_of_mem {column : Nat} {text : List Char} {field : Field}
    (h : field ∈ fieldsFrom column text) :
    field.text ≠ [] ∧ ∀ c ∈ field.text, isBlank c = false := by
  induction text generalizing column field with
  | nil => simp [fieldsFrom] at h
  | cons c rest ih =>
      cases rest with
      | nil =>
          simp only [fieldsFrom] at h
          split at h
          · simp at h
          · rename_i hc
            rw [List.mem_singleton] at h
            subst h
            simpa using hc
      | cons d rest =>
          simp only [fieldsFrom] at h
          split at h
          · exact ih h
          rename_i hc
          have hone : ∀ x ∈ [c], isBlank x = false := by simpa using hc
          split at h
          · rcases List.mem_cons.mp h with rfl | h
            · exact ⟨by simp, hone⟩
            · exact ih h
          split at h
          · rw [List.mem_singleton] at h
            subst h
            exact ⟨by simp, hone⟩
          · rename_i first more hbehind
            rcases List.mem_cons.mp h with rfl | h
            · obtain ⟨-, hfirst⟩ := ih (hbehind ▸ List.mem_cons_self)
              exact ⟨by simp, List.forall_mem_cons.mpr ⟨by simpa using hc, hfirst⟩⟩
            · exact ih (hbehind ▸ List.mem_cons_of_mem _ h)

theorem fieldsFrom_blank {c : Char} (hc : isBlank c) (column : Nat) (rest : List Char) :
    fieldsFrom column (c :: rest) = fieldsFrom (column + 1) rest := by
  cases rest with
  | nil => simp [fieldsFrom, hc]
  | cons d rest => simp only [fieldsFrom, if_pos hc]

theorem fieldsFrom_blanks {blanks : List Char} (hb : ∀ c ∈ blanks, isBlank c) (column : Nat)
    (rest : List Char) :
    fieldsFrom column (blanks ++ rest) = fieldsFrom (column + blanks.length) rest := by
  induction blanks generalizing column with
  | nil => rfl
  | cons c blanks ih =>
      obtain ⟨hc, hblanks⟩ := List.forall_mem_cons.mp hb
      rw [List.cons_append, fieldsFrom_blank hc, ih hblanks, List.length_cons, Nat.add_assoc,
        Nat.add_comm 1]

theorem fieldsFrom_append_blank {blank : Char} (hb : isBlank blank) (column : Nat)
    (text : List Char) : fieldsFrom column (text ++ [blank]) = fieldsFrom column text := by
  induction text generalizing column with
  | nil => simp [fieldsFrom, hb]
  | cons c rest ih =>
      cases rest with
      | nil => simp [fieldsFrom, hb]
      | cons d rest =>
          have hbehind := ih (column + 1)
          rw [List.cons_append] at hbehind
          rw [List.cons_append, List.cons_append, fieldsFrom, fieldsFrom, hbehind]

theorem fieldsFrom_append_blanks {blanks : List Char} (hb : ∀ c ∈ blanks, isBlank c)
    (column : Nat) (text : List Char) :
    fieldsFrom column (text ++ blanks) = fieldsFrom column text := by
  induction blanks generalizing text with
  | nil => rw [List.append_nil]
  | cons c blanks ih =>
      obtain ⟨hc, hblanks⟩ := List.forall_mem_cons.mp hb
      rw [List.append_cons, ih hblanks, fieldsFrom_append_blank hc]

-- A stretch that ends at a blank or with the text is a field of its own.
theorem fieldsFrom_append {word rest : List Char} (hne : word ≠ [])
    (hw : ∀ c ∈ word, isBlank c = false) (hr : ∀ c ∈ rest.head?, isBlank c) (column : Nat) :
    fieldsFrom column (word ++ rest)
      = ⟨column, word⟩ :: fieldsFrom (column + word.length) rest := by
  induction word generalizing column with
  | nil => exact absurd rfl hne
  | cons c word ih =>
      obtain ⟨hc, hword⟩ := List.forall_mem_cons.mp hw
      have hblank : ¬ isBlank c := by simp [hc]
      cases word with
      | nil =>
          cases rest with
          | nil => simp [fieldsFrom, hc]
          | cons d rest =>
              have hd : isBlank d := hr d rfl
              simp only [List.cons_append, List.nil_append, fieldsFrom, if_neg hblank, if_pos hd,
                List.length_singleton]
      | cons d word =>
          obtain ⟨hd, -⟩ := List.forall_mem_cons.mp hword
          have hbehind := ih (List.cons_ne_nil d word) hword (column + 1)
          rw [List.cons_append] at hbehind
          have hother : ¬ isBlank d := by simp [hd]
          have hcount : column + 1 + (d :: word).length = column + (c :: d :: word).length := by
            simp only [List.length_cons]
            omega
          simp only [List.cons_append, fieldsFrom, if_neg hblank, if_neg hother, hbehind, hcount]

theorem withoutDelimiter_semicolon (code : List Char) :
    withoutDelimiter (code ++ [';']) = code := by
  simp [withoutDelimiter]

theorem withoutDelimiter_comma (code : List Char) : withoutDelimiter (code ++ [',']) = code := by
  simp [withoutDelimiter]

-- Two characters show whether a text begins a comment.
theorem beginsComment_cons_cons (c d : Char) (text : List Char) :
    beginsComment (c :: d :: text) = (c == '*' || (c == '/' && (d == '/' || d == '*'))) := by
  unfold beginsComment
  split
  · rename_i heq
    injection heq with hc heq
    injection heq with hd
    simp [hc, hd]
  · rename_i heq
    injection heq with hc heq
    injection heq with hd
    simp [hc, hd]
  · rename_i heq
    injection heq with hc
    simp [hc]
  · rename_i hline hblock hstar
    have hc : c ≠ '*' := fun hc => hstar _ (by rw [hc])
    have hd : c = '/' → d ≠ '/' ∧ d ≠ '*' := fun hc =>
      ⟨fun hd => hline text (by rw [hc, hd]), fun hd => hblock text (by rw [hc, hd])⟩
    simpa [hc] using hd

theorem beginsComment_append {word rest : List Char} (hne : word ≠ [])
    (hr : ∀ c ∈ rest.head?, c ≠ '/' ∧ c ≠ '*') :
    beginsComment (word ++ rest) = beginsComment word := by
  match word, rest with
  | [], _ => exact absurd rfl hne
  | [c], [] => rfl
  | [c], d :: rest =>
      obtain ⟨hslash, hstar⟩ := hr d rfl
      by_cases hc : c = '*'
      · simp [beginsComment, hc]
      · simp [beginsComment, hslash, hstar, hc]
  | c :: d :: word, rest =>
      rw [List.cons_append, List.cons_append, beginsComment_cons_cons, beginsComment_cons_cons]

-- A line that gives a name a code

section

variable {name code : List Char} (hne : name ≠ []) (hn : ∀ c ∈ name, isBlank c = false)
  (hce : code ≠ []) (hc : ∀ c ∈ code, isBlank c = false)

include hne hn hce hc

theorem fieldsFrom_assignment :
    fieldsFrom 0 (name ++ ' ' :: '=' :: ' ' :: code)
      = [⟨0, name⟩, ⟨0 + name.length + 1, ['=']⟩, ⟨0 + name.length + 1 + 1 + 1, code⟩] := by
  have hblank : isBlank ' ' := by decide
  have hequal : isBlank '=' = false := by decide
  have hequals (column : Nat) : fieldsFrom column ('=' :: ' ' :: code)
      = ⟨column, ['=']⟩ :: fieldsFrom (column + 1) (' ' :: code) :=
    fieldsFrom_append (List.cons_ne_nil '=' []) (by simpa using hequal) (by simpa using hblank)
      column
  have hcode (column : Nat) : fieldsFrom column code = [⟨column, code⟩] := by
    have hend : ∀ c ∈ ([] : List Char).head?, isBlank c := by simp
    have hlast := fieldsFrom_append hce hc hend column
    rwa [List.append_nil] at hlast
  rw [fieldsFrom_append hne hn (by simpa using hblank), fieldsFrom_blank hblank, hequals,
    fieldsFrom_blank hblank, hcode]

theorem readEntry_assignment (hcomment : beginsComment name = false) (span : Span) :
    (readEntry ⟨String.ofList (name ++ ' ' :: '=' :: ' ' :: code), span⟩).toOption
      = (Number.readLiteral (withoutDelimiter code)).map fun number =>
          some ⟨String.ofList name, String.ofList (withoutDelimiter code), number, span⟩ := by
  have hnone : beginsComment (name ++ ' ' :: '=' :: ' ' :: code) = false := by
    rw [beginsComment_append hne (by simp), hcomment]
  have hfilled : (name ++ ' ' :: '=' :: ' ' :: code).isEmpty = false := by simp
  simp only [readEntry, String.toList_ofList, hnone, hfilled, Bool.or_self, Bool.false_eq_true,
    if_false, fieldsFrom_assignment hne hn hce hc, readFields, followingFault, entryOf]
  cases Number.readLiteral (withoutDelimiter code) <;> simp [Except.map, Except.toOption]

end

-- What an entry is made of
theorem eq_of_readFields {line : Line} {fields : List Field} {entry : Entry}
    (h : readFields line fields = .ok entry) :
    ∃ name equals code rest number, fields = name :: equals :: code :: rest ∧
      equals.text = ['='] ∧ Number.readLiteral (withoutDelimiter code.text) = some number ∧
      entry = ⟨String.ofList name.text, String.ofList (withoutDelimiter code.text), number,
        line.span⟩ := by
  unfold readFields at h
  split at h
  · rename_i name equals code rest
    split at h
    · simp at h
    rename_i hequals
    split at h
    · simp at h
    simp only [entryOf] at h
    split at h
    · rename_i number hnumber
      exact ⟨name, equals, code, rest, number, rfl, Classical.not_not.mp hequals, hnumber,
        (Except.ok.inj h).symm⟩
    · simp at h
  · simp at h

theorem eq_of_readEntry {line : Line} {entry : Entry} (h : readEntry line = .ok (some entry)) :
    ∃ name equals code rest number,
      fieldsFrom 0 line.text.toList = name :: equals :: code :: rest ∧
      equals.text = ['='] ∧ Number.readLiteral (withoutDelimiter code.text) = some number ∧
      entry = ⟨String.ofList name.text, String.ofList (withoutDelimiter code.text), number,
        line.span⟩ := by
  simp only [readEntry] at h
  split at h
  · simp at h
  · cases hr : readFields line (fieldsFrom 0 line.text.toList) with
    | error fault => simp [hr, Except.map] at h
    | ok read =>
        simp only [hr, Except.map, Except.ok.injEq, Option.some.injEq] at h
        exact h ▸ eq_of_readFields hr

theorem wellFormed_of_readEntry {line : Line} {entry : Entry}
    (h : readEntry line = .ok (some entry)) : entry.WellFormed := by
  obtain ⟨name, equals, code, rest, number, hfields, -, hnumber, rfl⟩ := eq_of_readEntry h
  obtain ⟨hne, hblank⟩ := field_of_mem (hfields ▸ List.mem_cons_self)
  exact ⟨by simpa using hne, by simpa using hblank, Number.inRange_of_readLiteral hnumber⟩

theorem span_of_readEntry {line : Line} {entry : Entry}
    (h : readEntry line = .ok (some entry)) : entry.span = line.span := by
  obtain ⟨name, equals, code, rest, number, -, -, -, rfl⟩ := eq_of_readEntry h
  rfl

theorem exists_of_readLines_cons {line : Line} {rest : List Line} {entries : List Entry}
    (h : readLines (line :: rest) = .ok entries) :
    ∃ read behind, readEntry line = .ok read ∧ readLines rest = .ok behind ∧
      entries = read.toList ++ behind := by
  cases hl : readEntry line with
  | error fault => simp [readLines, hl, bind, Except.bind] at h
  | ok read =>
      cases read with
      | none =>
          simp only [readLines, hl, bind, Except.bind] at h
          exact ⟨none, entries, rfl, h, rfl⟩
      | some first =>
          cases hr : readLines rest with
          | error fault => simp [readLines, hl, hr, bind, Except.bind] at h
          | ok behind =>
              simp only [readLines, hl, hr, bind, Except.bind, pure, Except.pure,
                Except.ok.injEq] at h
              exact ⟨some first, behind, rfl, rfl, h.symm⟩

theorem mem_readLines {lines : List Line} {entries : List Entry}
    (h : readLines lines = .ok entries) {entry : Entry} (hm : entry ∈ entries) :
    ∃ line ∈ lines, readEntry line = .ok (some entry) := by
  induction lines generalizing entries with
  | nil =>
      simp only [readLines, Except.ok.injEq] at h
      simp [← h] at hm
  | cons line rest ih =>
      obtain ⟨read, behind, hl, hr, rfl⟩ := exists_of_readLines_cons h
      rcases List.mem_append.mp hm with hm | hm
      · rw [Option.mem_toList] at hm
        exact ⟨line, List.mem_cons_self, by rw [hl, hm]⟩
      · obtain ⟨found, hf, he⟩ := ih hr hm
        exact ⟨found, List.mem_cons_of_mem _ hf, he⟩

theorem wellFormed_of_readEntries {block : Block} {entries : List Entry}
    (h : readEntries block = .ok entries) : ∀ entry ∈ entries, entry.WellFormed := by
  intro entry hm
  obtain ⟨line, -, hr⟩ := mem_readLines h hm
  exact wellFormed_of_readEntry hr

end Codebook.Declarations
