/-
UserManagedAccess.Controller.ConcurrentRequests — requests to the endpoints
and other components, interleaved at the pauses on one policy store.

A request that changes or deletes an entity copies the store, and later writes
back the difference between what it made of the copy and the store as it is by
then. `Operation.writeBack` says for each of them in which of its steps the
copy is taken and written back.
-/
import UserManagedAccess.Controller.ControllerRuns
import UserManagedAccess.Controller.PolicyShape
import UserManagedAccess.Lib.Interleaving

namespace UserManagedAccess.Controller

open UserManagedAccess.Lib UserManagedAccess.Rdf UserManagedAccess.Util UserManagedAccess.Ucp

/-! ## Tasks -/

/-- What can run on the store. -/
inductive Task where
  | request (operation : Operation)
  /-- A component that adds rules to the storage. -/
  | addRule (rule : Store)

def Task.program : Task → Async ControllerState HttpError Unit
  | .request operation => do
    let _ ← operation.perform
    return ()
  | .addRule rule => memoryUCRulesStorage.addRule rule

/-! ## Entities -/

/-- What a request changes or deletes. -/
inductive Entity where
  | policy (engine : QueryEngine) (policyID clientID : String)
  | accessRequest (requestID : String)

/-- The nodes of a list and their constraints. -/
def withConstraints (store : Store) (nodes : List Term) : List Term :=
  nodes ++ nodes.flatMap fun node : Term => store.getObjects node ODRL.constraint none

/-- The nodes an entity consists of: a policy with its rules, or a request,
each with its constraints. -/
def Entity.nodes (store : Store) : Entity → List Term
  | .policy _ policyID _ =>
    let policies := .namedNode policyID :: store.getSubjects ODRL.uid (Term.namedNode policyID) none
    let rules := policies.flatMap fun policy : Term => ruleLinks.flatMap fun link : Term =>
      store.getObjects policy link none
    withConstraints store (policies ++ rules)
  | .accessRequest requestID => withConstraints store [.namedNode requestID]

/-- The part of the store a request takes for the entity's. -/
def Entity.isolated (store : Store) : Entity → List Quad
  | .policy engine policyID clientID =>
    match getPolicy engine store policyID clientID with
    | .ok isolated => isolated.quads
    | .error _ => []
  | .accessRequest requestID => store.getQuads (Term.namedNode requestID) none none none

/-! ## Writing back -/

/-- The steps of a request in which it reads its entity, copies the store, and
writes the copy back, counted from 0. -/
structure WriteBack where
  entity : Entity
  read : Nat
  copy : Nat
  write : Nat

def Operation.writeBack : Operation → Option WriteBack
  | .policy env (.deleteEntity policyID clientID) =>
    some { entity := .policy env.toQueryEngine policyID clientID, read := 1, copy := 1, write := 4 }
  | .policy env (.patchEntity policyID _ clientID) =>
    some { entity := .policy env.toQueryEngine policyID clientID, read := 1, copy := 4, write := 9 }
  | .policy env (.putEntity _ policyID clientID) =>
    some { entity := .policy env.toQueryEngine policyID clientID, read := 7, copy := 7, write := 10 }
  | .accessRequest _ (.patchEntity requestID _ _) =>
    some { entity := .accessRequest requestID, read := 1, copy := 1, write := 4 }
  | _ => none

def Task.writeBack : Task → Option WriteBack
  | .request operation => operation.writeBack
  | .addRule _ => none

/-! ## Runs -/

variable {ι : Type} [DecidableEq ι]

/-- The tasks after a schedule. -/
def poolAfter (tasks : ι → Task) (s : ControllerState) (schedule : List ι) :
    Pool ι ControllerState HttpError Unit :=
  (Pool.start (fun i => (tasks i).program) s).run schedule

def storeAfter (tasks : ι → Task) (s : ControllerState) (schedule : List ι) : Store :=
  (poolAfter tasks s schedule).state.policies

/-- The quad is about the entity the task addresses, in the store the task
read it from. -/
def Task.Addresses (task : Task) (seen : List ControllerState) (q : Quad) : Prop :=
  ∃ w read, task.writeBack = some w ∧ seen[w.read]? = some read ∧
    q.subject ∈ w.entity.nodes read.policies

/-- What is in the store stays there, unless a request removes it that
addresses its entity. -/
def NoLostUpdate (tasks : ι → Task) (s : ControllerState) (schedule : List ι) : Prop :=
  ∀ earlier later, schedule = earlier ++ later →
    ∀ q ∈ storeAfter tasks s earlier, q ∉ storeAfter tasks s schedule →
      ∃ before i rest, later = before ++ i :: rest ∧
        q ∈ storeAfter tasks s (earlier ++ before) ∧
        q ∉ storeAfter tasks s (earlier ++ before ++ [i]) ∧
        (tasks i).Addresses ((poolAfter tasks s (earlier ++ before)).seen i) q

/-- Before a copy is written back, nothing outside the entity has come into
the store since it was taken, and what was isolated is all the entity's. -/
def Task.SafeStep (task : Task) (seen : List ControllerState) (store : Store) : Prop :=
  ∀ w read copy, task.writeBack = some w → seen.length = w.write →
    seen[w.read]? = some read → seen[w.copy]? = some copy →
      (∀ q ∈ store, q ∉ copy.policies → q.subject ∈ w.entity.nodes read.policies) ∧
      (∀ q ∈ w.entity.isolated read.policies, q.subject ∈ w.entity.nodes read.policies)

def SafeRun (tasks : ι → Task) (s : ControllerState) (schedule : List ι) : Prop :=
  ∀ before i later, schedule = before ++ i :: later →
    (tasks i).SafeStep ((poolAfter tasks s before).seen i) (storeAfter tasks s before)

end UserManagedAccess.Controller
