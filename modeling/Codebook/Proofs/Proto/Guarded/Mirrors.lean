import Codebook.Proofs.Proto.Guarded.Builder
import Codebook.Proofs.Proto.Places

namespace Codebook.Proto.Guarded

-- A reading by descent goes on as a run over the same tokens does. It is never stopped: it comes
-- to a value and to a state of the run further on, or both come to the same fault.

-- What a run comes to that has the tokens from an index on in front of it
def runFrom (stream : TokenStream) (state : State) (place : Nat) : Except Fault File := do
  finish (← (stream.tokens.drop place).foldlM step state) stream.stop

inductive Mirrors {α : Type} (stream : TokenStream) (reading : Builder α) (state : State)
    (place : Nat) (post : α → Nat → Prop) (next : α → State) : Prop
  | read {a : α} {behind : Nat} (ho : outcome reading place = .ok (.ok (a, behind)))
      (hb : behind ≤ stream.tokens.length) (hp : post a behind)
      (hr : runFrom stream state place = runFrom stream (next a) behind)
  | refused {fault : Fault} (ho : outcome reading place = .ok (.error fault))
      (hr : runFrom stream state place = .error fault)

-- What can be seen at an index: a token, or the end of the source
inductive Seen (stream : TokenStream) (place : Nat) : Item → Prop
  | token {found : Located Token} (h : stream.tokens[place]? = some found) :
      Seen stream place ⟨some found.value, found.span⟩
  | last (h : place = stream.tokens.length) : Seen stream place ⟨none, Span.point stream.stop⟩

section

variable {stream : TokenStream} {state state' : State} {place : Nat}

theorem runFrom_token {found : Located Token} (h : stream.tokens[place]? = some found) :
    runFrom stream state place
      = (step state found).bind fun next => runFrom stream next (place + 1) := by
  obtain ⟨hlt, rfl⟩ := List.getElem?_eq_some_iff.mp h
  rw [runFrom, List.drop_eq_getElem_cons hlt, List.foldlM_cons]
  cases hs : step state stream.tokens[place] <;> rfl

theorem runFrom_last (h : place = stream.tokens.length) :
    runFrom stream state place = finish state stream.stop := by
  rw [runFrom, h, List.drop_length]
  rfl

-- States that do the same at an index come to the same.
theorem runFrom_congr (ht : ∀ found, stream.tokens[place]? = some found →
      step state found = step state' found)
    (hf : finish state stream.stop = finish state' stream.stop)
    (hp : place ≤ stream.tokens.length) :
    runFrom stream state place = runFrom stream state' place := by
  rcases Nat.lt_or_eq_of_le hp with hlt | heq
  · have hfound := List.getElem?_eq_getElem hlt
    rw [runFrom_token hfound, runFrom_token hfound, ht _ hfound]
  · rw [runFrom_last heq, runFrom_last heq, hf]

theorem length_all (stream : TokenStream) : stream.all.length = stream.tokens.length + 1 := by
  simp [TokenStream.all]

theorem exists_seen (hp : place ≤ stream.tokens.length) : ∃ item, Seen stream place item := by
  rcases Nat.lt_or_eq_of_le hp with hlt | heq
  · exact ⟨_, .token (List.getElem?_eq_getElem hlt)⟩
  · exact ⟨_, .last heq⟩

theorem Seen.le {item : Item} (h : Seen stream place item) : place ≤ stream.tokens.length := by
  cases h with
  | token h => exact (List.getElem?_eq_some_iff.mp h).1.le
  | last h => exact h.le

theorem Seen.getElem? {item : Item} (h : Seen stream place item) :
    stream.all[place]? = some item := by
  cases h with
  | token h =>
      obtain ⟨hlt, -⟩ := List.getElem?_eq_some_iff.mp h
      rw [TokenStream.all, List.getElem?_append_left (by simpa using hlt), List.getElem?_map, h]
      rfl
  | last h =>
      rw [TokenStream.all, List.getElem?_append_right (by simp [h])]
      simp [h]

-- A token is looked for inside of the list.
theorem outcome_here {item : Item} (h : Seen stream place item) :
    outcome (here stream.all) place = .ok (.ok (item, place)) := by
  have hone : outcome (minusOne stream.all.length : Builder Nat) place
      = .ok (.ok (stream.tokens.length, place)) := by
    rw [minusOne, length_all, if_pos (Nat.le_add_left 1 _)]
    rfl
  refine (outcome_bind_of_ok hone _).trans ?_
  refine (outcome_bind_of_ok (outcome_get place) _).trans ?_
  rw [Nat.min_eq_left h.le, itemAt, h.getElem?]
  rfl

theorem outcome_pass_token {found : Located Token} (h : stream.tokens[place]? = some found) :
    outcome (pass stream.all) place
      = .ok (.ok (⟨some found.value, found.span⟩, place + 1)) :=
  (outcome_bind_of_ok (outcome_here (.token h)) _).trans rfl

theorem outcome_pass_last (h : place = stream.tokens.length) :
    outcome (pass stream.all) place = .ok (.ok (⟨none, Span.point stream.stop⟩, place)) :=
  (outcome_bind_of_ok (outcome_here (.last h)) _).trans rfl

end

section

variable {stream : TokenStream} {α β σ : Type} {reading : Builder α} {f : α → Builder β}
  {state state' : State} {place behind : Nat} {post : α → Nat → Prop} {post' : β → Nat → Prop}
  {next : α → State} {next' : β → State}

-- What a reading and a run come to further on
theorem Mirrors.onward {reading' : Builder α}
    (ho : outcome reading place = outcome reading' behind)
    (hr : runFrom stream state place = runFrom stream state' behind)
    (h : Mirrors stream reading' state' behind post next) :
    Mirrors stream reading state place post next := by
  cases h with
  | read ho' hb hp hr' => exact .read (ho.trans ho') hb hp (hr.trans hr')
  | refused ho' hr' => exact .refused (ho.trans ho') (hr.trans hr')

theorem Mirrors.weaken {wider : α → Nat → Prop} (h : Mirrors stream reading state place post next)
    (hw : ∀ a behind, post a behind → wider a behind) :
    Mirrors stream reading state place wider next := by
  cases h with
  | read ho hb hp hr => exact .read ho hb (hw _ _ hp) hr
  | refused ho hr => exact .refused ho hr

theorem Mirrors.bind (h : Mirrors stream reading state place post next)
    (hf : ∀ a behind, behind ≤ stream.tokens.length → post a behind →
      Mirrors stream (f a) (next a) behind post' next') :
    Mirrors stream (reading >>= f) state place post' next' := by
  cases h with
  | refused ho hr => exact .refused (outcome_bind_of_fault ho f) hr
  | @read a behind ho hb hp hr =>
      exact .onward (outcome_bind_of_ok ho f) hr (hf a behind hb hp)

-- A reading whose result is put together from what was read
theorem Mirrors.yields {g : α → β} (h : Mirrors stream reading state place post next)
    (hpost : ∀ a behind, post a behind → post' (g a) behind)
    (hnext : ∀ a, next a = next' (g a)) :
    Mirrors stream (reading >>= fun a => Pure.pure (g a)) state place post' next' :=
  h.bind fun a behind hb hp => .read rfl hb (hpost a behind hp) (by rw [hnext])

theorem Mirrors.here {f : Item → Builder β} (hp : place ≤ stream.tokens.length)
    (h : ∀ item, Seen stream place item → Mirrors stream (f item) state place post' next') :
    Mirrors stream (Guarded.here stream.all >>= f) state place post' next' := by
  obtain ⟨item, hitem⟩ := exists_seen hp
  exact .onward (outcome_bind_of_ok (outcome_here hitem) f) rfl (h item hitem)

theorem Mirrors.pass {f : Item → Builder β} {found : Located Token}
    (ht : stream.tokens[place]? = some found) (hs : step state found = .ok state')
    (h : Mirrors stream (f ⟨some found.value, found.span⟩) state' (place + 1) post' next') :
    Mirrors stream (Guarded.pass stream.all >>= f) state place post' next' :=
  .onward (outcome_bind_of_ok (outcome_pass_token ht) f) (by rw [runFrom_token ht, hs]; rfl) h

theorem Mirrors.refuse_token {fault : Fault} {found : Located Token}
    (ht : stream.tokens[place]? = some found) (hs : step state found = .error fault) :
    Mirrors stream (refuse fault : Builder α) state place post next :=
  .refused rfl (by rw [runFrom_token ht, hs]; rfl)

theorem Mirrors.refuse_last {fault : Fault} (hl : place = stream.tokens.length)
    (hf : finish state stream.stop = .error fault) :
    Mirrors stream (refuse fault : Builder α) state place post next :=
  .refused rfl ((runFrom_last hl).trans hf)

-- A step of a loop moves on unless it is the last one.
def Moves (place : Nat) (last : α → Nat → Prop) : σ ⊕ α → Nat → Prop
  | .inl _, behind => place < behind
  | .inr a, behind => place ≤ behind ∧ last a behind

theorem Mirrors.loop {body : σ → Builder (σ ⊕ α)} (states : σ → State) {last : α → Nat → Prop}
    (h : ∀ s place, place ≤ stream.tokens.length →
      Mirrors stream (body s) (states s) place (Moves place last) (Sum.elim states next))
    (s : σ) (hp : place ≤ stream.tokens.length) :
    Mirrors stream (building stream.all body s) (states s) place
      (fun a behind => place ≤ behind ∧ last a behind) next := by
  -- The check of the loop is on the list with its end, which has one more than the tokens.
  induction hn : stream.tokens.length - place using Nat.strong_induction_on
    generalizing s place with
  | _ n ih =>
      have hbody := h s place hp
      cases hbody with
      | refused ho hr => exact .refused (outcome_loop_refused ho) hr
      | @read result behind ho hb hmoves hr =>
          cases result with
          | inr a => exact .read (outcome_loop_done ho) hb hmoves hr
          | inl s' =>
              have hmoved : place < behind := hmoves
              have hleft : Track.left ⟨stream.all.length, id⟩ behind
                  < Track.left ⟨stream.all.length, id⟩ place := by
                simp only [Track.left, id, length_all]
                omega
              have hrest := ih (stream.tokens.length - behind) (by omega) s' hb rfl
              exact .onward (outcome_loop_next ho hleft) hr
                (hrest.weaken fun _ _ hlast => ⟨hmoved.le.trans hlast.1, hlast.2⟩)

end

end Codebook.Proto.Guarded
