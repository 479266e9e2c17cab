/-
UserManagedAccess.Ucp.UCRulesStorage — the storage of policies and access
requests.

`getStore` yields the store that is current when its result is used; the
controllers copy it before changing anything. A call of `addRule` or
`removeData` takes effect at once, whether or not it is awaited.
-/
import UserManagedAccess.Lib.Async
import UserManagedAccess.Rdf.Store
import UserManagedAccess.Lib.Dict
import UserManagedAccess.Util.Errors

namespace UserManagedAccess.Ucp

open UserManagedAccess.Lib UserManagedAccess.Rdf UserManagedAccess.Util

structure UCRulesStorage (σ : Type) where
  getStore : Async σ HttpError Store
  addRule : Store → Async σ HttpError Unit
  removeData : Store → Async σ HttpError Unit

/-- The state the controllers share: the policy store, and which resources a
user owns. -/
structure ControllerState where
  policies : Store
  ownershipStore : KeyValueStorage String (List String)

namespace ControllerState

def addRule (rule : Store) (s : ControllerState) : ControllerState :=
  { s with policies := s.policies.addAll rule }

def removeData (data : Store) (s : ControllerState) : ControllerState :=
  { s with policies := s.policies.difference data }

/-- What writing the difference to `filteredStore` back makes of the state. -/
def replace (filteredStore : Store) (s : ControllerState) : ControllerState :=
  (s.removeData (s.policies.difference filteredStore)).addRule
    (filteredStore.difference s.policies)

@[simp] theorem policies_addRule (rule : Store) (s : ControllerState) :
    (s.addRule rule).policies = s.policies.addAll rule := rfl

@[simp] theorem policies_removeData (data : Store) (s : ControllerState) :
    (s.removeData data).policies = s.policies.difference data := rfl

@[simp] theorem ownershipStore_addRule (rule : Store) (s : ControllerState) :
    (s.addRule rule).ownershipStore = s.ownershipStore := rfl

@[simp] theorem ownershipStore_removeData (data : Store) (s : ControllerState) :
    (s.removeData data).ownershipStore = s.ownershipStore := rfl

@[simp] theorem addRule_empty (s : ControllerState) : s.addRule Store.empty = s := rfl

@[simp] theorem removeData_empty (s : ControllerState) : s.removeData Store.empty = s := by
  simp [removeData]

@[simp] theorem mem_policies_replace {filteredStore : Store} {s : ControllerState} {q : Quad} :
    q ∈ (s.replace filteredStore).policies ↔ q ∈ filteredStore :=
  Store.mem_replaced

end ControllerState

/-- `MemoryUCRulesStorage.ts`. -/
def memoryUCRulesStorage : UCRulesStorage ControllerState where
  getStore := do
    Async.yield
    let s ← Async.get
    return s.policies
  addRule rule := Async.modify (ControllerState.addRule rule)
  removeData data := Async.modify (ControllerState.removeData data)

end UserManagedAccess.Ucp
