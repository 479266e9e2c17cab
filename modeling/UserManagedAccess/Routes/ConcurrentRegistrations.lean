/-
UserManagedAccess.Routes.ConcurrentRegistrations — registration requests of
any owners, interleaved at the pauses on empty stores.

A request updates the registrations and the resources of its owner in
different steps, and what it reads before a step may be out of date in it. The
array with the resources is the one that is in the store, unless that was deleted
or put there meanwhile. `SafeStep` says when nothing is out of date.
-/
import UserManagedAccess.Lib.Interleaving
import UserManagedAccess.Routes.RegistrationRuns

namespace UserManagedAccess.Routes

open UserManagedAccess.Lib UserManagedAccess.Rdf UserManagedAccess.Util
open UserManagedAccess.Views UserManagedAccess.Ucp

/-- Something is registered under the id, with this owner. -/
def ServerState.RegisteredTo (s : ServerState) (id owner : String) : Prop :=
  ∃ registration, s.registrationStore.get id = some registration ∧ registration.owner = owner

instance (s : ServerState) (id owner : String) : Decidable (s.RegisteredTo id owner) :=
  decidable_of_iff ((s.registrationStore.get id).map Registration.owner = some owner)
    Option.map_eq_some_iff

/-- The resources of each owner are, once each, the ids registered with that
owner. -/
def OwnershipConsistent (s : ServerState) : Prop :=
  ∀ owner, (s.owned owner).Nodup ∧ ∀ id, id ∈ s.owned owner ↔ s.RegisteredTo id owner

namespace ResourceRegistrationRequestHandler

/-! ## Runs -/

variable {ι : Type} [DecidableEq ι]

/-- The requests after a schedule. -/
def poolAfter (env : RegistrationEnvironment) (numbers : ι → Nat)
    (tasks : ι → RegistrationRequest) (schedule : List ι) :
    Pool ι ServerState HttpError HttpHandlerResponse :=
  (Pool.start (fun i => respond env (numbers i) (tasks i).request (tasks i).owner)
    ServerState.empty).run schedule

/-- Every request was answered. -/
def Finished (pool : Pool ι ServerState HttpError HttpHandlerResponse) : Prop :=
  ∀ i, ∃ answer, pool.processes i = .done answer

/-! ## Steps that update what is stored -/

/-- What the step of a request relies on, where `p` is left of the request
and `seen` are the states of its steps so far. -/
structure SafeStep (r : RegistrationRequest) (p : Async ServerState HttpError HttpHandlerResponse)
    (seen : List ServerState) (s : ServerState) : Prop where
  /-- A POST registers an id that is still free. -/
  posts : r.request.method = "POST" → ∀ id registration,
    p.Begins (Async.modify (ServerState.setRegistration id registration)) →
      s.registrationStore.get id = none
  /-- A PUT updates what is still its owner's. -/
  puts : r.request.method = "PUT" → ∀ id registration,
    p.Begins (Async.modify (ServerState.setRegistration id registration)) →
      s.RegisteredTo id r.owner
  /-- A DELETE deletes nothing of somebody else. -/
  deletes : r.request.method = "DELETE" → ∀ id registration,
    p.Begins (Async.modify (ServerState.deleteRegistration id)) →
      s.registrationStore.get id = some registration → registration.owner = r.owner
  /-- In the array it has read, it finds the id if it deleted the registration two
  steps before, and only then. -/
  finds : r.request.method = "DELETE" → ∀ id array deleted,
    p.Begins (spliceOwnership id r.owner array) → seen.dropLast.getLast? = some deleted →
      (id ∈ s.resourcesIn r.owner array ↔ deleted.RegisteredTo id r.owner)
  /-- The array a POST changes and puts back has the resources of the one that is
  in the store, -/
  pushes : r.request.method = "POST" → ∀ owner array id,
    p.Begins (Async.modify (ServerState.pushOwnership owner array id)) →
      (s.owned owner).Perm (s.resourcesIn owner array)
  /-- and so has the array a DELETE takes the id out of. -/
  splices : r.request.method = "DELETE" → ∀ id array,
    p.Begins (spliceOwnership id r.owner array) → id ∈ s.resourcesIn r.owner array →
      (s.owned r.owner).Perm (s.resourcesIn r.owner array)

def SafeRun (env : RegistrationEnvironment) (numbers : ι → Nat)
    (tasks : ι → RegistrationRequest) (schedule : List ι) : Prop :=
  ∀ before i later, schedule = before ++ i :: later →
    SafeStep (tasks i) ((poolAfter env numbers tasks before).processes i)
      ((poolAfter env numbers tasks before).seen i)
      (poolAfter env numbers tasks before).state

theorem SafeRun.of_steps {env : RegistrationEnvironment} {numbers : ι → Nat}
    {tasks : ι → RegistrationRequest} {schedule : List ι}
    (h : ∀ n i, schedule[n]? = some i →
      SafeStep (tasks i) ((poolAfter env numbers tasks (schedule.take n)).processes i)
        ((poolAfter env numbers tasks (schedule.take n)).seen i)
        (poolAfter env numbers tasks (schedule.take n)).state) :
    SafeRun env numbers tasks schedule := by
  rintro before i later rfl
  have hstep := h before.length i (by simp)
  rwa [List.take_left] at hstep

end ResourceRegistrationRequestHandler

end UserManagedAccess.Routes
