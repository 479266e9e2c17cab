/-
UserManagedAccess.Controller.PolicyWrites — POST, PUT and PATCH on a policy
storage whose writes may fail.

`NewState` is what an accepted request is to make of the store. A request is
`AllOrNothing` when a reported success means that state, and a failed call of
the storage means a reported failure and the old state.
-/
import UserManagedAccess.Controller.PolicyControllerTheorems
import UserManagedAccess.Ucp.UnreliableUCRulesStorage

namespace UserManagedAccess.Controller

open UserManagedAccess.Lib UserManagedAccess.Rdf UserManagedAccess.Util UserManagedAccess.Ucp

inductive PolicyWrite where
  | post (data clientID : String)
  | put (data policyID clientID : String)
  | patch (policyID update clientID : String)

namespace PolicyWrite

def perform (env : PolicyEnvironment) (storage : UCRulesStorage StorageState) :
    PolicyWrite → Async StorageState HttpError ControllerResponse
  | post data clientID => (policyController env storage).addEntity data clientID
  | put data policyID clientID => (policyController env storage).putEntity data policyID clientID
  | patch policyID update clientID =>
    (policyController env storage).patchEntity policyID update clientID true

/-- The request alone, on a storage that has not been written yet. -/
def outcome (env : PolicyEnvironment) (faults : Nat → Option HttpError) (store : Store)
    (write : PolicyWrite) : Except HttpError ControllerResponse × StorageState :=
  (write.perform env (unreliableUCRulesStorage faults)).run ⟨store, 0⟩

/-- The request is accepted, and `new` is the store with all of it. -/
inductive NewState (env : PolicyEnvironment) (store : Store) : PolicyWrite → Store → Prop where
  | post {data clientID : String} {quads : List Quad} (parsed : env.parse data = .ok quads)
      (accepted : Accepted env.toQueryEngine store (Store.ofQuads quads) clientID) :
      NewState env store (.post data clientID) (store.addAll (Store.ofQuads quads))
  | put {data policyID clientID : String} {isolated : Store} {quads : List Quad}
      (found : getPolicy env.toQueryEngine store policyID clientID = .ok isolated)
      (parsed : env.parse data = .ok quads)
      (valid : ValidUpload env.toQueryEngine (Store.ofQuads quads) clientID) :
      NewState env store (.put data policyID clientID)
        ((store.difference isolated).addAll (Store.ofQuads quads))
  | patch {policyID update clientID : String} {isolated updated again : Store}
      (found : getPolicy env.toQueryEngine store policyID clientID = .ok isolated)
      (patched : patchPolicy env.toQueryEngine isolated clientID update = .ok updated)
      (foundAgain : getPolicy env.toQueryEngine updated policyID clientID = .ok again) :
      NewState env store (.patch policyID update clientID)
        ((store.difference isolated).addAll again)

/-! ## What a request may do -/

/-- The answer is one with a status of success. -/
def ReportsSuccess (answer : Except HttpError ControllerResponse) : Prop :=
  ∃ r, answer = .ok r ∧ r.status < 300

/-- One of the calls made so far failed. -/
def CallFailed (faults : Nat → Option HttpError) (s : StorageState) : Prop :=
  ∃ k < s.calls, faults k ≠ none

structure AllOrNothing (env : PolicyEnvironment) (faults : Nat → Option HttpError) (store : Store)
    (write : PolicyWrite) : Prop where
  success : ReportsSuccess (write.outcome env faults store).1 →
    ∃ new, NewState env store write new ∧
      ∀ q, q ∈ (write.outcome env faults store).2.policies ↔ q ∈ new
  failure : CallFailed faults (write.outcome env faults store).2 →
    ¬ ReportsSuccess (write.outcome env faults store).1 ∧
      ∀ q, q ∈ (write.outcome env faults store).2.policies ↔ q ∈ store

/-- The failures an operation does not cope with: that of the only call of a
POST, which it does not wait for, and that of the second call of a PUT or a
PATCH, once the first has removed something. -/
inductive Interrupted (env : PolicyEnvironment) (faults : Nat → Option HttpError) (store : Store) :
    PolicyWrite → Prop where
  | post {data clientID : String} {quads : List Quad} (parsed : env.parse data = .ok quads)
      (accepted : Accepted env.toQueryEngine store (Store.ofQuads quads) clientID)
      (addFails : faults 0 ≠ none) :
      Interrupted env faults store (.post data clientID)
  | put {data policyID clientID : String} {isolated : Store} {quads : List Quad} {old : Quad}
      (found : getPolicy env.toQueryEngine store policyID clientID = .ok isolated)
      (parsed : env.parse data = .ok quads)
      (valid : ValidUpload env.toQueryEngine (Store.ofQuads quads) clientID)
      (isOld : old ∈ isolated) (removed : faults 0 = none) (addFails : faults 1 ≠ none) :
      Interrupted env faults store (.put data policyID clientID)
  | patch {policyID update clientID : String} {isolated updated again : Store} {old new : Quad}
      (found : getPolicy env.toQueryEngine store policyID clientID = .ok isolated)
      (patched : patchPolicy env.toQueryEngine isolated clientID update = .ok updated)
      (foundAgain : getPolicy env.toQueryEngine updated policyID clientID = .ok again)
      (isOld : old ∈ isolated) (oldGoes : old ∉ again) (isNew : new ∈ again) (newComes : new ∉ store)
      (removed : faults 0 = none) (addFails : faults 1 ≠ none) :
      Interrupted env faults store (.patch policyID update clientID)

end PolicyWrite

end UserManagedAccess.Controller
