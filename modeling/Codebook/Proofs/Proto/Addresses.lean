import Codebook.Proto.File
import Mathlib.Data.List.Lex

namespace Codebook.Proto

-- Messages by their addresses. An address counts, from the outside in, the siblings in front of
-- each message on the way, so a message comes before those in it and those behind it where
-- addresses are compared number by number.

-- A message of some messages or inside of one of them, with its address and the names on the way
inductive StandsAt : List Message → List Nat → List String → Message → Prop
  | here {messages : List Message} {i : Nat} {message : Message}
      (h : messages[i]? = some message) : StandsAt messages [i] [message.name] message
  | inside {messages : List Message} {i : Nat} {message nested : Message} {address : List Nat}
      {path : List String} (h : messages[i]? = some message)
      (hn : StandsAt message.messages address path nested) :
      StandsAt messages (i :: address) (message.name :: path) nested

-- The same for a message in one of some files. The first number is that of the file.
inductive StandsAmong (files : List File) : List Nat → List String → Message → Prop
  | intro {i : Nat} {file : File} {address : List Nat} {path : List String} {message : Message}
      (h : files[i]? = some file) (hm : StandsAt file.messages address path message) :
      StandsAmong files (i :: address) path message

-- A message as it is met, with its address and its path as seen from a block around it
structure Visit where
  address : List Nat
  path : List String
  message : Message

-- The same as seen from a block further out, in which the inner block has a number
def Visit.behind (i : Nat) (visit : Visit) : Visit := { visit with address := i :: visit.address }

def Visit.below (name : String) (visit : Visit) : Visit := { visit with path := name :: visit.path }

-- What is met in some blocks one after the other, of which the first has a number
def numbered {α : Type} (visits : α → List Visit) (i : Nat) : List α → List Visit
  | [] => []
  | block :: rest => (visits block).map (Visit.behind i) ++ numbered visits (i + 1) rest

section

variable {α : Type} {visits : α → List Visit}

theorem mem_numbered {i : Nat} {blocks : List α} {visit : Visit} :
    visit ∈ numbered visits i blocks ↔
      ∃ j block, blocks[j]? = some block ∧ ∃ inner ∈ visits block,
        inner.behind (i + j) = visit := by
  induction blocks generalizing i with
  | nil => simp [numbered]
  | cons first rest ih =>
      rw [numbered, List.mem_append, List.mem_map, ih]
      constructor
      · rintro (⟨inner, hi, rfl⟩ | ⟨j, block, hj, inner, hi, rfl⟩)
        · exact ⟨0, first, rfl, inner, hi, rfl⟩
        · exact ⟨j + 1, block, hj, inner, hi, by rw [Nat.add_right_comm, Nat.add_assoc]⟩
      · rintro ⟨j, block, hj, inner, hi, rfl⟩
        cases j with
        | zero =>
            obtain rfl := Option.some.inj hj
            exact .inl ⟨inner, hi, rfl⟩
        | succ j => exact .inr ⟨j, block, hj, inner, hi, by rw [Nat.add_right_comm, Nat.add_assoc]⟩

-- One visit comes before another.
def Visit.Before (one other : Visit) : Prop := one.address < other.address

theorem pairwise_numbered {blocks : List α}
    (h : ∀ block ∈ blocks, (visits block).Pairwise Visit.Before) (i : Nat) :
    (numbered visits i blocks).Pairwise Visit.Before := by
  induction blocks generalizing i with
  | nil => exact List.Pairwise.nil
  | cons first rest ih =>
      obtain ⟨hfirst, hrest⟩ := List.forall_mem_cons.mp h
      refine List.pairwise_append.mpr ⟨?_, ih hrest (i + 1), ?_⟩
      · refine List.pairwise_map.mpr (hfirst.imp fun {one other} hlt => ?_)
        exact List.cons_lt_cons_iff.mpr (.inr ⟨rfl, hlt⟩)
      · intro one ho other hother
        obtain ⟨inner, -, rfl⟩ := List.mem_map.mp ho
        obtain ⟨j, block, -, outer, -, rfl⟩ := mem_numbered.mp hother
        exact List.cons_lt_cons_iff.mpr (.inl (by omega))

end

-- What is met in a message, the message itself first

mutual

def Message.visits : Message → List Visit
  | ⟨name, doc, messages, enums, span⟩ =>
    ⟨[], [name], ⟨name, doc, messages, enums, span⟩⟩
      :: (visitsFrom 0 messages).map (Visit.below name)

def visitsFrom (i : Nat) : List Message → List Visit
  | [] => []
  | message :: rest => message.visits.map (Visit.behind i) ++ visitsFrom (i + 1) rest

end

theorem visitsFrom_eq (i : Nat) (messages : List Message) :
    visitsFrom i messages = numbered Message.visits i messages := by
  induction messages generalizing i with
  | nil => rfl
  | cons message rest ih => rw [visitsFrom, numbered, ih]

theorem Message.visits_eq (message : Message) :
    message.visits = ⟨[], [message.name], message⟩
      :: (numbered Message.visits 0 message.messages).map (Visit.below message.name) := by
  rw [← visitsFrom_eq]
  cases message
  rw [Message.visits]

-- It is the order in which messages are listed by name.

mutual

theorem Message.nested_eq_visits (above : List String) : (message : Message) →
    message.nested above = message.visits.map fun visit => (above ++ visit.path, visit.message)
  | ⟨name, _, messages, _, _⟩ => by
    rw [Message.nested, Message.visits, nestedIn_eq_visits (above ++ [name]) 0 messages]
    simp [Visit.below, Function.comp_def]

theorem nestedIn_eq_visits (above : List String) (i : Nat) : (messages : List Message) →
    nestedIn above messages
      = (visitsFrom i messages).map fun visit => (above ++ visit.path, visit.message)
  | [] => rfl
  | message :: rest => by
    rw [nestedIn, visitsFrom, message.nested_eq_visits above,
      nestedIn_eq_visits above (i + 1) rest]
    simp [Visit.behind, Function.comp_def]

end

theorem Message.induction {P : Message → Prop}
    (node : ∀ message, (∀ nested ∈ message.messages, P nested) → P message) (message : Message) :
    P message :=
  node message fun nested _ => Message.induction node nested
termination_by message
decreasing_by
  rename_i hn
  have := List.sizeOf_lt_of_mem hn
  cases message
  simp only [Message.mk.sizeOf_spec] at this ⊢
  omega

theorem Message.pairwise_visits (message : Message) :
    message.visits.Pairwise Visit.Before := by
  induction message using Message.induction with
  | node message ih =>
      rw [Message.visits_eq]
      have hinner := pairwise_numbered ih 0
      refine List.pairwise_cons.mpr ⟨fun visit hv => ?_, List.pairwise_map.mpr (hinner.imp id)⟩
      obtain ⟨outer, ho, rfl⟩ := List.mem_map.mp hv
      obtain ⟨j, block, -, inner, -, rfl⟩ := mem_numbered.mp ho
      exact List.nil_lt_cons _ _

-- Each message that stands somewhere is met there.
theorem mem_visits_of_standsAt {messages : List Message} {address : List Nat} {path : List String}
    {message : Message} (h : StandsAt messages address path message) :
    ⟨address, path, message⟩ ∈ visitsFrom 0 messages := by
  induction h with
  | @here messages i message h =>
      rw [visitsFrom_eq]
      refine mem_numbered.mpr ⟨i, message, h, ⟨[], [message.name], message⟩, ?_, ?_⟩
      · rw [Message.visits_eq]
        exact List.mem_cons_self
      · simp [Visit.behind]
  | @inside messages i message nested address path h hn ih =>
      rw [visitsFrom_eq] at ih ⊢
      refine mem_numbered.mpr ⟨i, message, h, ⟨address, message.name :: path, nested⟩, ?_, ?_⟩
      · rw [Message.visits_eq]
        exact List.mem_cons_of_mem _ (List.mem_map.mpr ⟨_, ih, rfl⟩)
      · simp [Visit.behind]

theorem Message.standsAt_of_mem_visits (message : Message) :
    ∀ visit ∈ message.visits, ∀ (messages : List Message) (i : Nat),
      messages[i]? = some message →
        StandsAt messages (i :: visit.address) visit.path visit.message := by
  induction message using Message.induction with
  | node message ih =>
      intro visit hv messages i hi
      rw [Message.visits_eq] at hv
      rcases List.mem_cons.mp hv with rfl | hv
      · exact .here hi
      · obtain ⟨outer, ho, rfl⟩ := List.mem_map.mp hv
        obtain ⟨j, block, hj, inner, hinner, rfl⟩ := mem_numbered.mp ho
        rw [Nat.zero_add]
        exact .inside hi (ih block (List.mem_of_getElem? hj) inner hinner message.messages j hj)

-- What is met in some files, the first of which has the number zero
def visitsOf (files : List File) : List Visit :=
  numbered (fun file => visitsFrom 0 file.messages) 0 files

theorem mem_visitsOf {files : List File} {visit : Visit} :
    visit ∈ visitsOf files ↔ StandsAmong files visit.address visit.path visit.message := by
  constructor
  · intro h
    obtain ⟨i, file, hi, inner, hinner, rfl⟩ := mem_numbered.mp h
    rw [visitsFrom_eq] at hinner
    obtain ⟨j, message, hj, last, hlast, rfl⟩ := mem_numbered.mp hinner
    rw [Nat.zero_add, Nat.zero_add]
    exact .intro hi (message.standsAt_of_mem_visits last hlast file.messages j hj)
  · obtain ⟨address, path, message⟩ := visit
    rintro ⟨hi, hm⟩
    refine mem_numbered.mpr ⟨_, _, hi, _, mem_visits_of_standsAt hm, ?_⟩
    simp [Visit.behind]

theorem pairwise_visitsOf (files : List File) : (visitsOf files).Pairwise Visit.Before := by
  refine pairwise_numbered (fun file _ => ?_) 0
  rw [visitsFrom_eq]
  exact pairwise_numbered (fun message _ => message.pairwise_visits) 0

end Codebook.Proto
