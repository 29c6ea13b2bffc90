import Codebook.Failure
import Codebook.Log

namespace Codebook

-- The outcome of a run and what was reported until then. A failure keeps the reports in front
-- of it.
structure Report (α : Type) where
  records : List Log.Record
  result : Except Failure α
deriving Inhabited

namespace Report

variable {α β : Type}

def pure (value : α) : Report α := ⟨[], .ok value⟩

def bind (report : Report α) (next : α → Report β) : Report β :=
  match report.result with
  | .ok value => ⟨report.records ++ (next value).records, (next value).result⟩
  | .error failure => ⟨report.records, .error failure⟩

instance : Monad Report where
  pure := pure
  bind := bind

def say (records : List Log.Record) : Report Unit := ⟨records, .ok ()⟩
def fail (failure : Failure) : Report α := ⟨[], .error failure⟩
def ofExcept (result : Except Failure α) : Report α := ⟨[], result⟩

@[simp] theorem result_pure (value : α) : (Pure.pure value : Report α).result = .ok value := rfl

@[simp] theorem result_bind (report : Report α) (next : α → Report β) :
    (report >>= next).result = report.result >>= fun value => (next value).result := by
  obtain ⟨records, result⟩ := report
  cases result <;> rfl

@[simp] theorem result_say (records : List Log.Record) : (say records).result = .ok () := rfl

@[simp] theorem result_fail (failure : Failure) :
    (fail failure : Report α).result = .error failure := rfl

@[simp] theorem result_ofExcept (result : Except Failure α) :
    (ofExcept result).result = result := rfl

end Report

end Codebook
