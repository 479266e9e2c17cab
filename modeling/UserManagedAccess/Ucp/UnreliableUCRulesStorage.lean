/-
UserManagedAccess.Ucp.UnreliableUCRulesStorage — a policy storage whose writes
may fail.

`faults` says which of the calls of `addRule` and `removeData` fail, and with
which error. A call that fails leaves the policies as they are; one that does
not writes what `memoryUCRulesStorage` writes.
-/
import UserManagedAccess.Ucp.UCRulesStorage

namespace UserManagedAccess.Ucp

open UserManagedAccess.Lib UserManagedAccess.Rdf UserManagedAccess.Util

/-- The policies, and how many writes have been tried. -/
structure StorageState where
  policies : Store
  calls : Nat

namespace StorageState

/-- After a call that failed. -/
def failed (s : StorageState) : StorageState := { s with calls := s.calls + 1 }

/-- After a call that wrote `policies`. -/
def written (policies : Store) (s : StorageState) : StorageState :=
  { policies, calls := s.calls + 1 }

@[simp] theorem policies_failed (s : StorageState) : s.failed.policies = s.policies := rfl

@[simp] theorem calls_failed (s : StorageState) : s.failed.calls = s.calls + 1 := rfl

@[simp] theorem policies_written (policies : Store) (s : StorageState) :
    (s.written policies).policies = policies := rfl

@[simp] theorem calls_written (policies : Store) (s : StorageState) :
    (s.written policies).calls = s.calls + 1 := rfl

end StorageState

/-- One call: it fails, or it changes the policies. -/
def attempt (faults : Nat → Option HttpError) (update : Store → Store) :
    Async StorageState HttpError Unit := do
  let s ← Async.get
  match faults s.calls with
  | some error =>
    Async.modify StorageState.failed
    throw error
  | none => Async.modify (fun s => s.written (update s.policies))

def unreliableUCRulesStorage (faults : Nat → Option HttpError) : UCRulesStorage StorageState where
  getStore := do
    Async.yield
    let s ← Async.get
    return s.policies
  addRule rule := attempt faults (fun policies => policies.addAll rule)
  removeData data := attempt faults (fun policies => policies.difference data)

section Running

variable {faults : Nat → Option HttpError} {update : Store → Store} {s : StorageState}

theorem run_attempt_failed {error : HttpError} (h : faults s.calls = some error) :
    (attempt faults update).run s = (.error error, s.failed) := by
  rw [attempt, Async.run_bind_of_ok (Async.run_get s), h]
  rfl

theorem run_attempt_written (h : faults s.calls = none) :
    (attempt faults update).run s = (.ok (), s.written (update s.policies)) := by
  rw [attempt, Async.run_bind_of_ok (Async.run_get s), h]
  rfl

end Running

end UserManagedAccess.Ucp
