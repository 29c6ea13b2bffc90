import Codebook.Number.Literal
import Codebook.Proofs.Text.Position
import Codebook.Proto.Fault

namespace Codebook.Proto.Guarded

-- Reading by byte offsets and indexes. What is not allowed at a place stops the reading, and so
-- does a loop that stays where it is. None of these is a fault of what is read.

inductive Trap where
  -- a slice that does not begin and end between characters
  | slice (start stop : Nat)
  -- a token that is not there
  | token (index : Nat)
  -- a count below zero
  | count
  -- a number with a sign of its own
  | sign (value : Int)
  -- a number whose negation does not fit
  | negation (value : Int)
  -- a step of a loop that does not move on
  | stuck
deriving Repr, DecidableEq

-- A reading that goes on from place to place
abbrev Checked (κ : Type) := StateT κ (ExceptT Fault (Except Trap))

variable {κ σ α β : Type}

def trap (why : Trap) : Checked κ α := fun _ => (.error why : Except Trap (Except Fault (α × κ)))

def refuse (fault : Fault) : Checked κ α :=
  fun _ => (.ok (.error fault) : Except Trap (Except Fault (α × κ)))

-- What a reading comes to from a place on
def outcome (reading : Checked κ α) (place : κ) : Except Trap (Except Fault (α × κ)) :=
  (reading.run place).run

def sliceOf (text : String) (start stop : Nat) : Checked κ (List Char) :=
  if String.Pos.Raw.isValid text ⟨start⟩ ∧ String.Pos.Raw.isValid text ⟨stop⟩ ∧ start ≤ stop then
    return slice start stop text.toList
  else trap (.slice start stop)

-- The letter takes up two bytes.
example : outcome (sliceOf "\u00e9" 1 2 : Checked Unit (List Char)) () = .error (.slice 1 2) := by
  rfl

def minusOne (count : Nat) : Checked κ Nat :=
  if 1 ≤ count then return count - 1 else trap .count

-- The value of a number that is written without a sign
def literal (text : String) : Checked κ (Option Int) :=
  match text.toList with
  | '0' :: 'x' :: digits => return Number.signed 16 digits
  | '0' :: 'X' :: digits => return Number.signed 16 digits
  | '0' :: _ :: _ => return Number.signed 8 (← sliceOf text 1 text.utf8ByteSize)
  | digits => return Number.signed 10 digits

def withoutSign (value : Int) : Checked κ Int :=
  if 0 ≤ value then return value else trap (.sign value)

def negate (value : Int) : Checked κ Int :=
  if Number.inRange (-value) then return -value else trap (.negation value)

-- Places of a text or a list of some size
structure Track (κ : Type) where
  size : Nat
  index : κ → Nat

def Track.left (track : Track κ) (place : κ) : Nat := track.size - track.index place

-- Takes steps until one of them has a result. Each other step has to leave less to go.
def loopFrom (track : Track κ) (step : σ → Checked κ (σ ⊕ α)) (s : σ) (place : κ) :
    Except Trap (Except Fault (α × κ)) :=
  match outcome (step s) place with
  | .error why => .error why
  | .ok (.error fault) => .ok (.error fault)
  | .ok (.ok (.inr a, next)) => .ok (.ok (a, next))
  | .ok (.ok (.inl s, next)) =>
    if track.left next < track.left place then loopFrom track step s next else .error .stuck
termination_by track.left place

def loop (track : Track κ) (step : σ → Checked κ (σ ⊕ α)) (s : σ) : Checked κ α :=
  loopFrom track step s

section

variable {reading : Checked κ α} {place next : κ} {a : α} {fault : Fault}

@[simp] theorem outcome_pure (a : α) (place : κ) :
    outcome (pure a : Checked κ α) place = .ok (.ok (a, place)) := rfl

@[simp] theorem outcome_get (place : κ) :
    outcome (get : Checked κ κ) place = .ok (.ok (place, place)) := rfl

theorem outcome_bind (reading : Checked κ α) (f : α → Checked κ β) (place : κ) :
    outcome (reading >>= f) place = match outcome reading place with
      | .error why => .error why
      | .ok (.error fault) => .ok (.error fault)
      | .ok (.ok (a, next)) => outcome (f a) next := by
  unfold outcome
  rw [StateT.run_bind, ExceptT.run_bind]
  cases (reading.run place).run with
  | error why => rfl
  | ok result => cases result <;> rfl

theorem outcome_bind_of_ok (h : outcome reading place = .ok (.ok (a, next)))
    (f : α → Checked κ β) : outcome (reading >>= f) place = outcome (f a) next := by
  rw [outcome_bind, h]

theorem outcome_bind_of_fault (h : outcome reading place = .ok (.error fault))
    (f : α → Checked κ β) : outcome (reading >>= f) place = .ok (.error fault) := by
  rw [outcome_bind, h]

end

section

variable {track : Track κ} {step : σ → Checked κ (σ ⊕ α)} {s s' : σ} {place next : κ} {a : α}
  {fault : Fault}

theorem outcome_loop_done (h : outcome (step s) place = .ok (.ok (.inr a, next))) :
    outcome (loop track step s) place = .ok (.ok (a, next)) := by
  show loopFrom track step s place = _
  rw [loopFrom, h]

theorem outcome_loop_refused (h : outcome (step s) place = .ok (.error fault)) :
    outcome (loop track step s) place = .ok (.error fault) := by
  show loopFrom track step s place = _
  rw [loopFrom, h]

theorem outcome_loop_next (h : outcome (step s) place = .ok (.ok (.inl s', next)))
    (hm : track.left next < track.left place) :
    outcome (loop track step s) place = outcome (loop track step s') next := by
  show loopFrom track step s place = loopFrom track step s' next
  rw [loopFrom, h]
  exact if_pos hm

end

theorem isValid_byteLength {text : String} {front behind : List Char}
    (h : text.toList = front ++ behind) : String.Pos.Raw.isValid text ⟨byteLength front⟩ := by
  refine String.Pos.Raw.isValid_eq_true_iff.mpr (String.Pos.Raw.isValid_iff_exists_append.mpr
    ⟨String.ofList front, String.ofList behind, ?_, ?_⟩)
  · rw [← String.ofList_append, ← h, String.ofList_toList]
  · have hsize := utf8ByteSize_eq_byteLength (String.ofList front)
    rw [String.toList_ofList] at hsize
    rw [← hsize]
    rfl

theorem outcome_sliceOf {text : String} {front inside behind : List Char} {start stop : Nat}
    (h : text.toList = front ++ (inside ++ behind)) (hstart : start = byteLength front)
    (hstop : stop = start + byteLength inside) (place : κ) :
    outcome (sliceOf text start stop : Checked κ (List Char)) place
      = .ok (.ok (inside, place)) := by
  have hfront := isValid_byteLength h
  rw [← List.append_assoc] at h
  have hinside := isValid_byteLength h
  rw [byteLength_append] at hinside
  subst hstart hstop
  rw [sliceOf, if_pos ⟨hfront, hinside, Nat.le_add_right _ _⟩, h, slice_append]
  rfl

theorem outcome_literal (text : String) (place : κ) :
    outcome (literal text : Checked κ (Option Int)) place
      = .ok (.ok (Number.literal? text, place)) := by
  unfold literal Number.literal?
  cases htext : text.toList with
  | nil => rfl
  | cons c rest =>
      cases rest with
      | nil => simp [Number.readLiteral]
      | cons d digits =>
          by_cases hc : c = '0'
          · subst hc
            by_cases hx : d = 'x'
            · simp [Number.readLiteral, hx]
            · by_cases hX : d = 'X'
              · simp [Number.readLiteral, hX]
              · have hone : '0'.utf8Size = 1 := by decide
                have hparts : text.toList = ['0'] ++ ((d :: digits) ++ []) := by simpa using htext
                have hslice : outcome (sliceOf text 1 text.utf8ByteSize) place
                    = .ok (.ok (d :: digits, place)) := by
                  refine outcome_sliceOf hparts ?_ ?_ place
                  · rw [byteLength_cons, hone, byteLength_nil]
                  · rw [utf8ByteSize_eq_byteLength, htext, byteLength_cons, hone]
                simp [Number.readLiteral, outcome_bind_of_ok hslice, -bind_pure_comp]
          · simp [Number.readLiteral, hc]

end Codebook.Proto.Guarded
