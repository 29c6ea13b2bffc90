import Codebook.Proofs.Settings.Strings
import Codebook.Settings.Reader

namespace Codebook.Settings

-- What readers give for a text, wherever it stands.

-- What is read and what is left, or why reading stops, without places
def unplaced {α : Type} : Except Fault (α × Cursor) → Except Cause (α × List Char)
  | .ok (a, cursor) => .ok (a, cursor.rest)
  | .error fault => .error fault.cause

def Gives {α : Type} (reader : Reader α) (text : List Char)
    (result : Except Cause (α × List Char)) : Prop :=
  ∀ offset, unplaced (reader.run ⟨text, offset⟩) = result

-- What a reader may have given for a text
def MayGive {α : Type} (reader : Reader α) (text : List Char) (a : α) (rest : List Char) : Prop :=
  ∃ offset, unplaced (reader.run ⟨text, offset⟩) = .ok (a, rest)

section

variable {α β : Type} {reader : Reader α} {text rest : List Char} {a b : α}

theorem unplaced_bind {next : α → Reader β} (offset : Nat) :
    unplaced ((reader >>= next).run ⟨text, offset⟩)
      = match reader.run ⟨text, offset⟩ with
        | .ok (a, cursor) => unplaced ((next a).run cursor)
        | .error fault => .error fault.cause := by
  rw [StateT.run_bind]
  cases reader.run ⟨text, offset⟩ <;> rfl

theorem Gives.bind {next : α → Reader β} {result : Except Cause (β × List Char)}
    (h : Gives reader text (.ok (a, rest))) (hn : Gives (next a) rest result) :
    Gives (reader >>= next) text result := by
  intro offset
  have hfirst := h offset
  rw [unplaced_bind]
  cases hr : reader.run ⟨text, offset⟩ with
  | error fault => simp [hr, unplaced] at hfirst
  | ok read =>
      obtain ⟨c, cursor⟩ := read
      rw [hr] at hfirst
      obtain ⟨rfl, rfl⟩ := Prod.mk.inj (Except.ok.inj hfirst)
      exact hn cursor.offset

theorem Gives.bind_error {next : α → Reader β} {cause : Cause}
    (h : Gives reader text (.error cause)) : Gives (reader >>= next) text (.error cause) := by
  intro offset
  have hfirst := h offset
  rw [unplaced_bind]
  cases hr : reader.run ⟨text, offset⟩ with
  | error fault =>
      rw [hr] at hfirst
      exact congrArg _ (Except.error.inj hfirst)
  | ok read => simp [hr, unplaced] at hfirst

theorem gives_pure (a : α) (text : List Char) :
    Gives (pure a : Reader α) text (.ok (a, text)) :=
  fun _ => rfl

theorem gives_fail (cause : Cause) (text : List Char) :
    Gives (Reader.fail cause : Reader α) text (.error cause) :=
  fun _ => rfl

theorem gives_skip (c : Char) (rest : List Char) :
    Gives Reader.skip (c :: rest) (.ok ((), rest)) :=
  fun _ => rfl

theorem MayGive.of_bind {next : α → Reader β} {c : β}
    (h : MayGive (reader >>= next) text c rest) :
    ∃ a between, MayGive reader text a between ∧ MayGive (next a) between c rest := by
  obtain ⟨offset, h⟩ := h
  rw [unplaced_bind] at h
  cases hr : reader.run ⟨text, offset⟩ with
  | error fault => simp [hr] at h
  | ok read =>
      rw [hr] at h
      exact ⟨read.1, read.2.rest, ⟨offset, by rw [hr]; rfl⟩, ⟨read.2.offset, h⟩⟩

theorem MayGive.eq {between : List Char} (h : MayGive reader text b between)
    (hg : Gives reader text (.ok (a, rest))) : b = a ∧ between = rest := by
  obtain ⟨offset, h⟩ := h
  exact Prod.mk.inj (Except.ok.inj (h.symm.trans (hg offset)))

-- Reading goes on behind what is known to be read.
theorem MayGive.behind {next : α → Reader β} {between : List Char} {c : β}
    (h : MayGive (reader >>= next) text c rest) (hg : Gives reader text (.ok (a, between))) :
    MayGive (next a) between c rest := by
  obtain ⟨b, left, hfirst, h⟩ := h.of_bind
  obtain ⟨rfl, rfl⟩ := hfirst.eq hg
  exact h

theorem MayGive.absurd {between : List Char} {cause : Cause}
    (h : MayGive reader text b between) (hg : Gives reader text (.error cause)) : False := by
  obtain ⟨offset, h⟩ := h
  exact nomatch h.symm.trans (hg offset)

end

-- Blanks in front of a text are passed over.

theorem afterBlanks_append {blanks : List Char} (hb : AreBlanks blanks) (offset : Nat)
    (rest : List Char) :
    ∃ behind, Reader.afterBlanks offset (blanks ++ rest) = Reader.afterBlanks behind rest := by
  induction blanks generalizing offset with
  | nil => exact ⟨offset, rfl⟩
  | cons c more ih =>
      obtain ⟨hc, hmore⟩ := List.forall_mem_cons.mp hb
      have hblank : Reader.isJsonBlank c = true := by
        rcases hc with rfl | rfl | rfl | rfl <;> rfl
      obtain ⟨behind, hrest⟩ := ih hmore (offset + 1)
      exact ⟨behind, by rw [List.cons_append, Reader.afterBlanks, if_pos hblank, hrest]⟩

theorem gives_next {blanks rest : List Char} (hb : AreBlanks blanks)
    (hr : ∀ c ∈ rest.head?, Reader.isJsonBlank c = false) :
    Gives Reader.next (blanks ++ rest) (.ok (rest.head?, rest)) := by
  intro offset
  obtain ⟨behind, hpassed⟩ := afterBlanks_append hb offset rest
  have hstop : Reader.afterBlanks behind rest = ⟨rest, behind⟩ := by
    cases rest with
    | nil => rfl
    | cons c more => rw [Reader.afterBlanks, hr c rfl, if_neg Bool.false_ne_true]
  show unplaced (.ok ((Reader.afterBlanks offset (blanks ++ rest)).rest.head?,
    Reader.afterBlanks offset (blanks ++ rest))) = _
  rw [hpassed, hstop]
  rfl

theorem gives_next_cons {blanks : List Char} (hb : AreBlanks blanks) {c : Char}
    (hc : Reader.isJsonBlank c = false) (rest : List Char) :
    Gives Reader.next (blanks ++ c :: rest) (.ok (some c, c :: rest)) :=
  gives_next hb (by simpa using hc)

-- The parts of a document

theorem gives_word (expected rest : List Char) :
    Gives (Reader.word expected) (expected ++ rest) (.ok ((), rest)) := by
  induction expected with
  | nil => exact gives_pure () rest
  | cons c more ih =>
      have hpeek : Gives Reader.peek (c :: (more ++ rest)) (.ok (some c, c :: (more ++ rest))) :=
        fun _ => rfl
      refine hpeek.bind ?_
      simp only [if_true]
      exact (gives_skip c _).bind ih

theorem gives_string {value : String} {inside : List Char} (h : SpellsAll value.toList inside)
    (rest : List Char) :
    Gives Reader.string (inside ++ '"' :: rest) (.ok (value, rest)) := by
  intro offset
  obtain ⟨behind, hbody⟩ := stringBody_spellsAll h offset rest
  have hrun : Reader.string.run ⟨inside ++ '"' :: rest, offset⟩
      = .ok (String.ofList value.toList, ⟨rest, behind⟩) := by
    simp only [Reader.string, StateT.run_bind, StateT.run_get, pure_bind, StateT.run_monadLift,
      liftM, monadLift_self, hbody, StateT.run_set, StateT.run_pure]
    rfl
  rw [hrun, String.ofList_toList]
  rfl

theorem IsString.eq_cons {value : String} {text : List Char} (h : IsString value text)
    (rest : List Char) : ∃ inside, SpellsAll value.toList inside ∧
      text ++ rest = '"' :: (inside ++ '"' :: rest) := by
  obtain ⟨inside, hinside, rfl⟩ := h
  exact ⟨inside, hinside, by simp⟩

theorem gives_colon {blanks : List Char} (hb : AreBlanks blanks) (rest : List Char) :
    Gives Reader.colon (blanks ++ ':' :: rest) (.ok ((), rest)) :=
  (gives_next_cons hb rfl rest).bind (gives_skip ':' rest)

theorem gives_stringValue (expected : String) {blanks text : List Char} {value : String}
    (hb : AreBlanks blanks) (h : IsString value text) (rest : List Char) :
    Gives (Reader.stringValue expected) (blanks ++ (text ++ rest)) (.ok (value, rest)) := by
  obtain ⟨inside, hinside, htext⟩ := h.eq_cons rest
  rw [htext]
  exact (gives_next_cons hb rfl _).bind ((gives_skip '"' _).bind (gives_string hinside rest))

theorem gives_boolValue {blanks : List Char} (hb : AreBlanks blanks) (value : Bool)
    (rest : List Char) :
    Gives Reader.boolValue (blanks ++ ((if value then "true" else "false").toList ++ rest))
      (.ok (value, rest)) := by
  cases value with
  | true =>
      exact (gives_next_cons hb rfl _).bind ((gives_skip 't' _).bind
        ((gives_word ['r', 'u', 'e'] rest).bind (gives_pure true rest)))
  | false =>
      exact (gives_next_cons hb rfl _).bind ((gives_skip 'f' _).bind
        ((gives_word ['a', 'l', 's', 'e'] rest).bind (gives_pure false rest)))

theorem gives_choice {α : Type} {known : List (String × α)} {blanks text : List Char}
    {name : String} {value : α} (hb : AreBlanks blanks) (h : IsString name text)
    (hk : known.lookup name = some value) (rest : List Char) :
    Gives (Reader.choice known) (blanks ++ (text ++ rest)) (.ok (value, rest)) := by
  obtain ⟨inside, hinside, htext⟩ := h.eq_cons rest
  have hchoose : Gives (Reader.choose known name) rest (.ok (value, rest)) := by
    unfold Reader.choose
    rw [hk]
    exact gives_pure value rest
  rw [htext]
  exact (gives_next_cons hb rfl _).bind
    ((gives_skip '"' _).bind ((gives_string hinside rest).bind hchoose))

-- What stands in front of a key: blanks, and a comma if it is not the first one
inductive Leads : Bool → List Char → Prop
  | first {blanks : List Char} (hb : AreBlanks blanks) : Leads true blanks
  | later {behind blanks : List Char} (hb : AreBlanks behind) (hf : AreBlanks blanks) :
      Leads false (behind ++ ',' :: blanks)

theorem gives_hasKey {first : Bool} {lead : List Char} (h : Leads first lead)
    (rest : List Char) :
    Gives (Reader.hasKey first) (lead ++ '"' :: rest) (.ok (true, '"' :: rest)) := by
  cases h with
  | first hb => exact (gives_next_cons hb rfl rest).bind (gives_pure true _)
  | later hb hf =>
      rw [List.append_assoc]
      exact (gives_next_cons hb rfl _).bind
        ((gives_skip ',' _).bind ((gives_next_cons hf rfl rest).bind (gives_pure true _)))

theorem gives_hasKey_end (first : Bool) {blanks : List Char} (hb : AreBlanks blanks)
    (rest : List Char) :
    Gives (Reader.hasKey first) (blanks ++ '\x7d' :: rest) (.ok (false, '\x7d' :: rest)) :=
  (gives_next_cons hb rfl rest).bind (gives_pure false _)

end Codebook.Settings
