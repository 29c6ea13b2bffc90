import Codebook.Proofs.Settings.Members

namespace Codebook.Settings

-- Where reading stops behind a value, whatever the value is. A value that does not fit its field
-- is a fault, so no reader goes on in the middle of one.

def Never {α : Type} (reader : Reader α) : Prop :=
  ∀ text a rest, ¬ MayGive reader text a rest

section

variable {α β : Type}

theorem never_fail (cause : Cause) : Never (Reader.fail cause : Reader α) :=
  fun text _ _ h => h.absurd (gives_fail cause text)

theorem never_failNext (cause : Cause) : Never (Reader.failNext cause : Reader α) := by
  have hgives (text : List Char) :
      Gives (Reader.failNext cause : Reader α) text (.error cause) := fun _ => rfl
  exact fun text _ _ h => h.absurd (hgives text)

theorem Never.bind {reader : Reader α} {next : α → Reader β} (h : ∀ a, Never (next a)) :
    Never (reader >>= next) := by
  intro text b rest hb
  obtain ⟨a, between, -, hb⟩ := hb.of_bind
  exact h a _ _ _ hb

theorem never_wrongType (expected : String) : Never (Reader.wrongType expected : Reader α) := by
  have hwrong (found : String) :
      Never (Reader.fail (.meaning (.wrongType found expected)) : Reader α) := never_fail _
  refine Never.bind fun c => ?_
  split
  · exact .bind fun _ => .bind fun _ => hwrong _
  · exact .bind fun _ => .bind fun _ => hwrong _
  · exact .bind fun _ => .bind fun _ => hwrong _
  · exact .bind fun _ => .bind fun _ => hwrong _
  · exact .bind fun _ => .bind fun _ => hwrong _
  · exact hwrong _
  · exact hwrong _
  · refine .bind fun d => ?_
    split
    · exact .bind fun _ => hwrong _
    · exact never_failNext _

theorem never_keyFault (fault : MeaningFault) : Never (Reader.keyFault fault : Reader α) := by
  refine .bind fun c => ?_
  split
  · exact .bind fun _ => never_fail _
  · exact never_fail _

end

-- The first character of a value tells what it is.

theorem IsNumber.head {text : List Char} (h : IsNumber text) :
    ∃ c rest, text = c :: rest ∧ (c = '-' ∨ c.isDigit) := by
  obtain ⟨sign, whole, fraction, exponent, rfl, hsign, ⟨hne, hdigits⟩, -⟩ := h
  rcases hsign with rfl | rfl
  · obtain ⟨c, rest, rfl⟩ := List.exists_cons_of_ne_nil hne
    exact ⟨c, rest ++ (fraction ++ exponent), rfl, .inr (hdigits c List.mem_cons_self)⟩
  · exact ⟨'-', whole ++ (fraction ++ exponent), rfl, .inl rfl⟩

-- A value by its first character
inductive Begins : Char → List Char → Prop
  | null : Begins 'n' ['u', 'l', 'l']
  | yes : Begins 't' ['r', 'u', 'e']
  | no : Begins 'f' ['a', 'l', 's', 'e']
  | number {c : Char} {rest : List Char} (h : c = '-' ∨ c.isDigit) : Begins c rest
  | string {value : String} {inside : List Char} (h : SpellsAll value.toList inside) :
      Begins '"' (inside ++ ['"'])
  | list {rest : List Char} : Begins '[' rest
  | object {members : List (String × List Char)} {inside : List Char}
      (h : members = [] ∧ AreBlanks inside ∨ AreMembers members inside)
      (hm : ∀ member ∈ members, IsJson member.2) : Begins '\x7b' (inside ++ ['\x7d'])

theorem IsJson.begins {text : List Char} (h : IsJson text) :
    ∃ c rest, text = c :: rest ∧ Begins c rest := by
  cases h with
  | null => exact ⟨_, _, rfl, .null⟩
  | yes => exact ⟨_, _, rfl, .yes⟩
  | no => exact ⟨_, _, rfl, .no⟩
  | number h =>
      obtain ⟨c, rest, rfl, hc⟩ := h.head
      exact ⟨c, rest, rfl, .number hc⟩
  | string h =>
      obtain ⟨inside, hinside, rfl⟩ := h
      exact ⟨_, _, rfl, .string hinside⟩
  | list h =>
      obtain ⟨inside, rfl, -⟩ := h
      exact ⟨_, _, rfl, .list⟩
  | object h hm =>
      obtain ⟨inside, rfl, hinside⟩ := h
      exact ⟨_, _, rfl, .object hinside hm⟩

theorem Begins.not_blank {c : Char} {rest : List Char} (h : Begins c rest) :
    Reader.isJsonBlank c = false := by
  cases h with
  | number h =>
      refine Bool.eq_false_iff.mpr fun hb => ?_
      simp only [Reader.isJsonBlank, Bool.or_eq_true, beq_iff_eq] at hb
      rcases hb with ((rfl | rfl) | rfl) | rfl <;> exact absurd h (by decide)
  | _ => rfl

-- If anything is read, it is read up to where the rest begins.
def StopsBehind {α : Type} (reader : Reader α) (text rest : List Char) : Prop :=
  ∀ a between, MayGive reader text a between → between = rest

section

variable {α β : Type} {reader : Reader α} {text between rest : List Char}

theorem Never.stopsBehind (h : Never reader) (text rest : List Char) :
    StopsBehind reader text rest :=
  fun a between hm => absurd hm (h text a between)

theorem Gives.stopsBehind {a : α} (h : Gives reader text (.ok (a, rest))) :
    StopsBehind reader text rest :=
  fun _ _ hm => (hm.eq h).2

theorem Gives.stopsBehind_bind {a : α} {next : α → Reader β}
    (h : Gives reader text (.ok (a, between))) (hn : StopsBehind (next a) between rest) :
    StopsBehind (reader >>= next) text rest :=
  fun b last hm => hn b last (hm.behind h)

theorem StopsBehind.bind {next : α → Reader β} (h : StopsBehind reader text between)
    (hn : ∀ a, StopsBehind (next a) between rest) : StopsBehind (reader >>= next) text rest := by
  intro b last hm
  obtain ⟨a, left, ha, hm⟩ := hm.of_bind
  obtain rfl := h a left ha
  exact hn a b last hm

theorem stopsBehind_pure (a : α) (text : List Char) :
    StopsBehind (pure a : Reader α) text text :=
  (gives_pure a text).stopsBehind

end

section

variable {α : Type} {blanks value : List Char} (hb : AreBlanks blanks) (hv : IsJson value)
  (rest : List Char)

include hb hv

theorem stopsBehind_next {next : Option Char → Reader α}
    (h : ∀ c more, Begins c more → StopsBehind (next (some c)) (c :: (more ++ rest)) rest) :
    StopsBehind (Reader.next >>= next) (blanks ++ (value ++ rest)) rest := by
  obtain ⟨c, more, rfl, hbegins⟩ := hv.begins
  exact (gives_next_cons hb hbegins.not_blank _).stopsBehind_bind (h c more hbegins)

theorem stopsBehind_stringValue (expected : String) :
    StopsBehind (Reader.stringValue expected) (blanks ++ (value ++ rest)) rest := by
  have hwrong : Never (Reader.wrongType expected : Reader String) := never_wrongType expected
  refine stopsBehind_next hb hv rest fun c more hbegins => ?_
  cases hbegins with
  | @string _ inside hinside =>
      rw [List.append_assoc inside]
      exact ((gives_skip '"' _).bind (gives_string hinside rest)).stopsBehind
  | number hc =>
      split
      · exact (never_fail _).stopsBehind _ _
      · obtain rfl := Option.some.inj ‹_›
        exact absurd hc (by decide)
      · exact hwrong.stopsBehind _ _
  | null | yes | no | list | object => exact hwrong.stopsBehind _ _

theorem stopsBehind_boolValue :
    StopsBehind Reader.boolValue (blanks ++ (value ++ rest)) rest := by
  have hwrong : Never (Reader.wrongType "a boolean" : Reader Bool) := never_wrongType _
  refine stopsBehind_next hb hv rest fun c more hbegins => ?_
  cases hbegins with
  | yes =>
      exact ((gives_skip 't' _).bind
        ((gives_word ['r', 'u', 'e'] rest).bind (gives_pure true rest))).stopsBehind
  | no =>
      exact ((gives_skip 'f' _).bind
        ((gives_word ['a', 'l', 's', 'e'] rest).bind (gives_pure false rest))).stopsBehind
  | number hc =>
      split
      · exact (never_fail _).stopsBehind _ _
      · obtain rfl := Option.some.inj ‹_›
        exact absurd hc (by decide)
      · obtain rfl := Option.some.inj ‹_›
        exact absurd hc (by decide)
      · exact hwrong.stopsBehind _ _
  | null | string | list | object => exact hwrong.stopsBehind _ _

theorem stopsBehind_nullValue :
    StopsBehind Reader.nullValue (blanks ++ (value ++ rest)) rest := by
  have hwrong : Never (Reader.wrongType "unit" : Reader Unit) := never_wrongType _
  refine stopsBehind_next hb hv rest fun c more hbegins => ?_
  cases hbegins with
  | null => exact ((gives_skip 'n' _).bind (gives_word _ rest)).stopsBehind
  | number hc =>
      split
      · exact (never_fail _).stopsBehind _ _
      · obtain rfl := Option.some.inj ‹_›
        exact absurd hc (by decide)
      · exact hwrong.stopsBehind _ _
  | yes | no | string | list | object => exact hwrong.stopsBehind _ _

end

theorem stopsBehind_choose {α : Type} (known : List (String × α)) (name : String)
    (rest : List Char) : StopsBehind (Reader.choose known name) rest rest := by
  unfold Reader.choose
  split
  · exact stopsBehind_pure _ rest
  · exact (never_fail _).stopsBehind _ _

-- An object in place of a choice has one member.
theorem stopsBehind_choiceObject {α : Type} (known : List (String × α))
    {members : List (String × List Char)} {inside : List Char}
    (h : members = [] ∧ AreBlanks inside ∨ AreMembers members inside)
    (hm : ∀ member ∈ members, IsJson member.2) (rest : List Char) :
    StopsBehind (do
      let value ← Reader.choose known (← Reader.onlyKey)
      Reader.colon
      Reader.nullValue
      match ← Reader.next with
      | some '\x7d' => Reader.skip *> return value
      | some _ => Reader.fail (.form .valueExpected)
      | none => Reader.fail (.unfinished .object)) (inside ++ '\x7d' :: rest) rest := by
  rcases h with ⟨-, hblanks⟩ | h
  · have hnone : Gives Reader.onlyKey (inside ++ '\x7d' :: rest)
        (.error (.form .valueExpected)) :=
      (gives_next_cons hblanks rfl rest).bind fun _ => rfl
    intro a between hgiven
    exact (hgiven.absurd hnone.bind_error).elim
  · cases members with
    | nil => exact absurd rfl h.ne_nil
    | cons member others =>
      obtain ⟨key, value⟩ := member
      obtain ⟨front, name, behind, before, after, more, hf, hn, hb, hbefore, ha, rfl, hmore⟩ :=
        h.cases_cons
      obtain ⟨inside, hinside, hname⟩ := hn.eq_cons
        (behind ++ ':' :: (before ++ (value ++ (after ++ (more ++ '\x7d' :: rest)))))
      have hkey : Gives Reader.onlyKey
          (front ++ (name ++ (behind ++ ':' :: (before ++ (value ++ (after ++
            (more ++ '\x7d' :: rest)))))))
          (.ok (key, behind ++ ':' :: (before ++ (value ++ (after ++
            (more ++ '\x7d' :: rest)))))) := by
        rw [hname]
        exact (gives_next_cons hf rfl _).bind ((gives_skip '"' _).bind (gives_string hinside _))
      simp only [List.append_assoc, List.cons_append]
      refine hkey.stopsBehind_bind ((stopsBehind_choose known key _).bind fun choice => ?_)
      refine (gives_colon hb _).stopsBehind_bind ?_
      refine (stopsBehind_nullValue hbefore (hm _ List.mem_cons_self) _).bind fun _ => ?_
      rcases hmore with ⟨-, rfl⟩ | ⟨text, rfl, -⟩
      · refine (gives_next_cons ha rfl rest).stopsBehind_bind ?_
        exact ((gives_skip '\x7d' rest).bind (gives_pure choice rest)).stopsBehind
      · refine (gives_next_cons ha rfl _).stopsBehind_bind ?_
        exact (never_fail _).stopsBehind _ _

section

variable {blanks value : List Char} (hb : AreBlanks blanks) (hv : IsJson value)
  (rest : List Char)

include hb hv

theorem stopsBehind_choice {α : Type} (known : List (String × α)) :
    StopsBehind (Reader.choice known) (blanks ++ (value ++ rest)) rest := by
  refine stopsBehind_next hb hv rest fun c more hbegins => ?_
  have hother : Never (Reader.failNext (.form .valueExpected) : Reader α) := never_failNext _
  cases hbegins with
  | @string _ inside hinside =>
      rw [List.append_assoc inside]
      exact (gives_skip '"' _).stopsBehind_bind
        ((gives_string hinside rest).stopsBehind_bind (stopsBehind_choose known _ rest))
  | @object _ inside h hm =>
      rw [List.append_assoc inside]
      refine (gives_skip '\x7b' _).stopsBehind_bind ?_
      exact stopsBehind_choiceObject known h hm rest
  | number hc =>
      split
      · exact (never_fail _).stopsBehind _ _
      · obtain rfl := Option.some.inj ‹_›
        exact absurd hc (by decide)
      · obtain rfl := Option.some.inj ‹_›
        exact absurd hc (by decide)
      · exact hother.stopsBehind _ _
  | null | yes | no | list => exact hother.stopsBehind _ _

theorem stopsBehind_fieldValue (settings : Settings) (field : Field) :
    StopsBehind (Reader.fieldValue settings field) (blanks ++ (value ++ rest)) rest := by
  cases field with
  | protoFolder | declarations | output =>
      exact (stopsBehind_stringValue hb hv rest _).bind fun _ => stopsBehind_pure _ rest
  | target | names | duplicates =>
      exact (stopsBehind_choice hb hv rest _).bind fun _ => stopsBehind_pure _ rest
  | license =>
      exact (stopsBehind_boolValue hb hv rest).bind fun _ => stopsBehind_pure _ rest

end

-- Only keys of fields that were not read yet lead on.
theorem mayGive_readKey {settings last : Settings} {unread : List Field} {key : String}
    {text rest : List Char} (h : MayGive (readKey settings unread key) text last rest) :
    ∃ field ∈ unread, field.key = key ∧ MayGive (do
      Reader.colon
      let settings ← Reader.fieldValue settings field
      Reader.members settings (unread.erase field) false) text last rest := by
  unfold readKey at h
  split at h
  · exact absurd h (never_keyFault _ _ _ _)
  · rename_i field hfield
    split at h
    · exact ⟨field, ‹_›, key_of_ofKey? hfield, h⟩
    · exact absurd h (never_keyFault _ _ _ _)

-- Members that are read have different keys of fields.
theorem keys_of_mayGive {members : List (String × List Char)} {text rest left : List Char}
    (hm : AreMembers members text) (hj : ∀ member ∈ members, IsJson member.2)
    {settings last : Settings} {unread : List Field} (hu : unread.Nodup) {first : Bool}
    {lead : List Char} (hl : ∀ blanks, AreBlanks blanks → Leads first (lead ++ blanks))
    (h : MayGive (Reader.members settings unread first) (lead ++ (text ++ '\x7d' :: rest))
      last left) :
    (members.map Prod.fst).Nodup ∧ ∀ key ∈ members.map Prod.fst, ∃ field ∈ unread,
      field.key = key := by
  induction members generalizing text settings unread first lead with
  | nil => exact absurd rfl hm.ne_nil
  | cons member others ih =>
      obtain ⟨key, value⟩ := member
      obtain ⟨front, name, behind, before, after, more, hf, hn, hb, hbefore, ha, rfl, hmore⟩ :=
        AreMembers.cases_cons hm
      obtain ⟨hvalue, hothers⟩ := List.forall_mem_cons.mp hj
      obtain ⟨inside, hinside, hname⟩ := hn.eq_cons
        (behind ++ ':' :: (before ++ (value ++ (after ++ (more ++ '\x7d' :: rest)))))
      have htext : lead ++ (front ++ (name ++ (behind ++ ':' :: (before ++ (value ++
          (after ++ more))))) ++ '\x7d' :: rest) = lead ++ front ++ '"' :: (inside ++ '"' ::
            (behind ++ ':' :: (before ++ (value ++ (after ++ (more ++ '\x7d' :: rest)))))) := by
        rw [← hname]
        simp
      rw [htext, members_eq] at h
      have hkey := ((h.behind (gives_hasKey (hl front hf) _)).behind (gives_skip '"' _)).behind
        (gives_string hinside _)
      obtain ⟨field, hfield, rfl, hcolon⟩ := mayGive_readKey hkey
      have hread := hcolon.behind (gives_colon hb _)
      obtain ⟨next, between, hnext, hlast⟩ := hread.of_bind
      obtain rfl := stopsBehind_fieldValue hbefore hvalue _ settings field next between hnext
      rcases hmore with ⟨rfl, rfl⟩ | ⟨text, rfl, hrest⟩
      · exact ⟨List.pairwise_singleton _ _, List.forall_mem_singleton.mpr ⟨field, hfield, rfl⟩⟩
      · have hlater (blanks : List Char) (hblanks : AreBlanks blanks) :
            Leads false (after ++ [','] ++ blanks) := by
          rw [List.append_assoc]
          exact .later ha hblanks
        rw [List.cons_append, List.append_cons] at hlast
        obtain ⟨hnodup, hkeys⟩ := ih hrest hothers (hu.erase field) hlater hlast
        refine ⟨List.nodup_cons.mpr ⟨fun hagain => ?_, hnodup⟩, ?_⟩
        · obtain ⟨other, ho, hsame⟩ := hkeys _ hagain
          have hof := ofKey?_key other
          rw [hsame, ofKey?_key] at hof
          obtain rfl := Option.some.inj hof
          exact absurd rfl (hu.mem_erase_iff.mp ho).1
        · refine List.forall_mem_cons.mpr ⟨⟨field, hfield, rfl⟩, fun key hkey => ?_⟩
          obtain ⟨other, ho, he⟩ := hkeys key hkey
          exact ⟨other, List.mem_of_mem_erase ho, he⟩

end Codebook.Settings
