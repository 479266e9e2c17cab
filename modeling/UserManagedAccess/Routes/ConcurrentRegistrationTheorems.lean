/-
UserManagedAccess.Routes.ConcurrentRegistrationTheorems — when interleaved
registration requests leave the resources of the owners consistent.

While a request is between its update of the registrations and its update of
the resources, the two differ by its id. `Phase` says by which, and `Stands`
what is left of the request then. The resources of the owners and the phases of
all requests together match the registrations at any time (`InStep`), and in
the end all phases are settled.

* `prepares_respond` — before the first of the two updates, nothing is stored;
* `Stands.step` — one step of a request, and how the surplus of ids changes;
* `inStep_run` — the invariant, along any safe run;
* `ownershipConsistent_of_safeRun` — the owners' resources at its end.

The arrays of the owners are shared: a request pushes into or splices the array
it has read, which may be one that is not stored any more, and `SafeStep` has
each of these updates find what it relies on. Requests, owners and schedule are
arbitrary, and the end is when all requests are answered.
-/
import Mathlib.Algebra.BigOperators.Group.Finset.Piecewise
import Mathlib.Algebra.BigOperators.Ring.Finset
import Mathlib.Data.Int.Cast.Lemmas
import Mathlib.Tactic.IntervalCases
import UserManagedAccess.Routes.ConcurrentRegistrations

namespace UserManagedAccess.Routes.ResourceRegistrationRequestHandler

open UserManagedAccess.Lib UserManagedAccess.Rdf UserManagedAccess.Util
open UserManagedAccess.Views UserManagedAccess.Ucp

/-! ## What is left of a request -/

/-- What a POST does after it has read the array of the owner. -/
def writeOwnership (id owner : String) (array : Option Nat) :
    Async ServerState HttpError HttpHandlerResponse := do
  Async.modify (ServerState.pushOwnership owner array id)
  Async.yield
  return { status := 201, body := registered id }

def appendOwnership (id owner : String) : Async ServerState HttpError HttpHandlerResponse := do
  let array ← ownedArray owner
  writeOwnership id owner array

/-- The last part of a DELETE. -/
def removeMemberships (id : String) : Async ServerState HttpError HttpHandlerResponse := do
  let store ← serverPolicies.getStore
  serverPolicies.removeData
    (Store.ofQuads (store.getQuads (Term.namedNode id) ODRL.partOf none none))
  Async.yield
  return { status := 204 }

/-- The update of the registrations, and what comes after it. -/
inductive Stores (r : RegistrationRequest) :
    Async ServerState HttpError HttpHandlerResponse → Prop
  | post (id : String) (description : ResourceDescription) (hpost : r.request.method = "POST") :
    Stores r (Async.modify (ServerState.setRegistration id { owner := r.owner, description }) >>=
      fun _ => Async.yield >>= fun _ => Async.yield >>= fun _ => appendOwnership id r.owner)
  | put (id : String) (description : ResourceDescription) (response : HttpHandlerResponse)
    (hput : r.request.method = "PUT") :
    Stores r (Async.modify (ServerState.setRegistration id { owner := r.owner, description }) >>=
      fun _ => Async.yield >>= fun _ => Async.yield >>= fun _ => pure response)
  | delete (id : String) (hdelete : r.request.method = "DELETE") :
    Stores r (Async.modify (ServerState.deleteRegistration id) >>=
      fun _ => Async.yield >>= fun _ => removeOwnership id r.owner >>=
        fun _ => removeMemberships id)

/-- The registrations and the resources of the owners. -/
def ledger (s : ServerState) :
    KeyValueStorage String Registration × KeyValueStorage String Nat × (String → OwnedArrays) :=
  (s.registrationStore, s.ownershipStore, s.arrays)

/-- Nothing is stored before the update of the registrations. -/
abbrev Prepares (r : RegistrationRequest) (starts : Bool)
    (p : Async ServerState HttpError HttpHandlerResponse) : Prop :=
  Async.LeadsTo ledger (Stores r) starts p

/-! ## Before the update of the registrations -/

section Preparing

variable {r : RegistrationRequest} {starts : Bool} {env : RegistrationEnvironment} {n : Nat}

theorem keeps_getRegistration (id : String) : Async.Keeps ledger (getRegistration id) :=
  .bind (.get fun _ => rfl) (fun _ => .bind .yield (fun _ => .pure _))

theorem keeps_ownedArray (owner : String) : Async.Keeps ledger (ownedArray owner) :=
  .bind (.get fun _ => rfl) (fun _ => .bind .yield (fun _ => .pure _))

theorem keeps_ownedResources (owner : String) : Async.Keeps ledger (ownedResources owner) :=
  .bind (keeps_ownedArray owner) (fun _ => .bind (.get fun _ => rfl) (fun _ => .pure _))

theorem keeps_getStore : Async.Keeps ledger serverPolicies.getStore :=
  .bind .yield (fun _ => .bind (.get fun _ => rfl) (fun _ => .pure _))

theorem keeps_newResource (description : ResourceDescription) :
    Async.Keeps ledger (newResource env n description) := by
  unfold newResource
  split
  · refine .bind (.get fun _ => rfl) (fun s => .bind .yield (fun _ => ?_))
    split
    · exact .throw _
    · exact .pure _
  · exact .pure _

theorem keeps_removeMemberships (id : String) : Async.Keeps ledger (removeMemberships id) :=
  .bind keeps_getStore (fun _ => .bind (.modify fun _ => rfl) (fun _ =>
    .bind .yield (fun _ => .pure _)))

theorem prepares_addQuads {f : Unit → Async ServerState HttpError HttpHandlerResponse}
    (quads : List Quad) (hf : Prepares r true (f ())) : Prepares r true (addQuads quads >>= f) := by
  unfold addQuads
  split
  · exact Or.inr (fun s => ⟨rfl, hf⟩)
  · exact hf

theorem prepares_removeQuads {f : Unit → Async ServerState HttpError HttpHandlerResponse}
    (quads : List Quad) (hf : Prepares r true (f ())) :
    Prepares r true (removeQuads quads >>= f) := by
  unfold removeQuads
  split
  · exact Or.inr (fun s => ⟨rfl, hf⟩)
  · exact hf

theorem prepares_storeDerivations {f : Unit → Async ServerState HttpError HttpHandlerResponse}
    (entries : List DerivedFrom) (hf : Prepares r true (f ())) :
    Prepares r true (storeDerivations entries >>= f) := by
  induction entries with
  | nil => exact hf
  | cons entry entries ih => exact Or.inr (fun s => ⟨rfl, ih⟩)

theorem prepares_deleteDerivations {f : Unit → Async ServerState HttpError HttpHandlerResponse}
    (ids : List String) (hf : Prepares r true (f ())) :
    Prepares r true (deleteDerivations ids >>= f) := by
  induction ids with
  | nil => exact hf
  | cons id ids ih => exact Or.inr (fun s => ⟨rfl, ih⟩)

theorem prepares_setResourceMetadata {id : String} {description : ResourceDescription}
    {owner : String} {previous : Option ResourceDescription}
    {f : Unit → Async ServerState HttpError HttpHandlerResponse}
    (hf : Stores r (Async.modify (ServerState.setRegistration id { owner, description }) >>=
      fun _ => Async.yield >>= f)) :
    Prepares r starts (setResourceMetadata env n id description owner previous >>= f) := by
  unfold setResourceMetadata
  simp only [Async.bind_assoc]
  refine .bind keeps_getStore (fun _ store => .lift (fun collectionQuads => ?_))
  refine .bind keeps_getStore (fun _ store => .lift (fun relationQuads => .yield ?_))
  refine prepares_addQuads _ (prepares_removeQuads _ ?_)
  refine prepares_storeDerivations _ (prepares_deleteDerivations _ ?_)
  exact .of_stop hf

theorem prepares_handlePost (hpost : r.request.method = "POST") :
    Prepares r starts (handlePost env n r.request r.owner) :=
  .lift fun _ => .bind (keeps_newResource _) fun _ resource =>
    prepares_setResourceMetadata (.post resource _ hpost)

theorem prepares_handlePut (hput : r.request.method = "PUT") :
    Prepares r starts (handlePut env n r.request r.owner) := by
  unfold handlePut
  split
  · trivial
  rename_i id _
  refine .bind (keeps_getRegistration id) (fun starts entry => ?_)
  split
  · trivial
  · split
    · trivial
    · exact .lift (fun _ => prepares_setResourceMetadata (.put id _ _ hput))

theorem prepares_handleDelete (hdelete : r.request.method = "DELETE") :
    Prepares r true (handleDelete r.request r.owner) := by
  unfold handleDelete
  split
  · trivial
  rename_i id _
  -- the registration is read in one step and deleted in the next
  refine Or.inr (fun s => ⟨rfl, ?_⟩)
  show Prepares r true (Async.bind (Async.done (.ok (s.registrationStore.get id))) _)
  rcases s.registrationStore.get id with _ | entry
  · trivial
  · show Prepares r true (if entry.owner ≠ r.owner then _ else _)
    split
    · trivial
    · exact .of_stop (.delete id hdelete)

theorem prepares_respond : Prepares r true (respond env n r.request r.owner) := by
  unfold respond
  split
  · refine .of_keeps ?_
    unfold handleGet
    split
    · refine .bind (keeps_getRegistration _) (fun entry => ?_)
      split
      · exact .throw _
      · split
        · exact .throw _
        · exact .pure _
    · exact .bind (keeps_ownedResources _) (fun _ => .pure _)
  split
  · rename_i hpost
    exact prepares_handlePost hpost
  split
  · rename_i hput
    exact prepares_handlePut hput
  split
  · rename_i hdelete
    exact prepares_handleDelete hdelete
  · trivial

end Preparing

/-! ## Phases -/

inductive Phase where
  | settled
  /-- Registered, but not yet among the resources. -/
  | adding (id : String)
  /-- No longer registered, but still among the resources. -/
  | removing (id : String)

/-- How many times the request will still add the id to the resources. -/
def Phase.due (id : String) : Phase → Int
  | settled => 0
  | adding id' => if id' = id then 1 else 0
  | removing id' => if id' = id then -1 else 0

/-- What is left of a request in a phase, where `seen` are the states of its
steps so far. -/
inductive Stands (r : RegistrationRequest) : Phase → List ServerState →
    Async ServerState HttpError HttpHandlerResponse → Prop
  | prepares {seen p} (h : Prepares r true p) : Stands r .settled seen p
  | added {seen} (id : String) (hpost : r.request.method = "POST") :
    Stands r (.adding id) seen (Async.yield >>= fun _ => appendOwnership id r.owner)
  | reads {seen} (id : String) (hpost : r.request.method = "POST") :
    Stands r (.adding id) seen (appendOwnership id r.owner)
  | appends {seen} (id : String) (array : Option Nat) (hpost : r.request.method = "POST") :
    Stands r (.adding id) seen (writeOwnership id r.owner array)
  | deleted {seen} (id : String) (last : ServerState) (hdelete : r.request.method = "DELETE")
    (hlast : seen.getLast? = some last) (hregistered : last.RegisteredTo id r.owner) :
    Stands r (.removing id) seen (removeOwnership id r.owner >>= fun _ => removeMemberships id)
  | redundant {seen} (id : String) (last : ServerState) (hdelete : r.request.method = "DELETE")
    (hlast : seen.getLast? = some last) (hunregistered : ¬ last.RegisteredTo id r.owner) :
    Stands r .settled seen (removeOwnership id r.owner >>= fun _ => removeMemberships id)
  | splices {seen} (id : String) (array : Option Nat) (deleted : ServerState)
    (hdelete : r.request.method = "DELETE") (hdeleted : seen.dropLast.getLast? = some deleted)
    (hregistered : deleted.RegisteredTo id r.owner) :
    Stands r (.removing id) seen
      (spliceOwnership id r.owner array >>= fun _ => removeMemberships id)
  | passes {seen} (id : String) (array : Option Nat) (deleted : ServerState)
    (hdelete : r.request.method = "DELETE") (hdeleted : seen.dropLast.getLast? = some deleted)
    (hunregistered : ¬ deleted.RegisteredTo id r.owner) :
    Stands r .settled seen (spliceOwnership id r.owner array >>= fun _ => removeMemberships id)

/-- How many times the id is among the resources of the owner, beyond its
registration. -/
def surplus (s : ServerState) (owner id : String) : Int :=
  ((s.owned owner).count id : Int) - if s.RegisteredTo id owner then 1 else 0

/-- The share of a request in the surplus, if it is in this phase. -/
def share (r : RegistrationRequest) (phase : Phase) (owner id : String) : Int :=
  if r.owner = owner then phase.due id else 0

section Surplus

variable {s t : ServerState} {owner other id id' : String}

theorem registeredTo_congr (h : ledger t = ledger s) :
    t.RegisteredTo id owner ↔ s.RegisteredTo id owner := by
  have hstore : t.registrationStore = s.registrationStore := congrArg Prod.fst h
  rw [ServerState.RegisteredTo, hstore]
  rfl

theorem surplus_congr (h : ledger t = ledger s) : surplus t owner id = surplus s owner id := by
  have hstore : t.ownershipStore = s.ownershipStore := congrArg (fun l => l.2.1) h
  have harrays : t.arrays = s.arrays := congrArg (fun l => l.2.2) h
  have howned : t.owned owner = s.owned owner := by
    rw [ServerState.owned, ServerState.resourcesIn, hstore, harrays]
    rfl
  rw [surplus, surplus, howned, if_congr (registeredTo_congr h) rfl rfl]

theorem registeredTo_setRegistration {registration : Registration} :
    (s.setRegistration id registration).RegisteredTo id' other ↔
      if id = id' then registration.owner = other else s.RegisteredTo id' other := by
  have hget : (s.setRegistration id registration).registrationStore.get id' =
      if id' = id then some registration else s.registrationStore.get id' :=
    KeyValueStorage.get_set _ _ _ _
  rw [ServerState.RegisteredTo, hget]
  by_cases hid : id = id'
  · rw [if_pos hid, if_pos hid.symm]
    constructor
    · rintro ⟨_, hsome, howner⟩
      cases hsome
      exact howner
    · exact fun howner => ⟨_, rfl, howner⟩
  · rw [if_neg hid, if_neg (Ne.symm hid)]
    rfl

theorem registeredTo_deleteRegistration :
    (s.deleteRegistration id).RegisteredTo id' other ↔ id ≠ id' ∧ s.RegisteredTo id' other := by
  have hget : (s.deleteRegistration id).registrationStore.get id' =
      if id' = id then none else s.registrationStore.get id' :=
    KeyValueStorage.get_delete _ _ _
  rw [ServerState.RegisteredTo, hget]
  by_cases hid : id = id'
  · rw [if_pos hid.symm]
    constructor
    · rintro ⟨_, hsome, -⟩
      cases hsome
    · exact fun h => absurd hid h.1
  · rw [if_neg (Ne.symm hid)]
    exact (and_iff_right hid).symm

/-- A new registration is not among the resources yet. -/
theorem surplus_setRegistration_new {description : ResourceDescription}
    (hnew : s.registrationStore.get id = none) :
    surplus (s.setRegistration id { owner, description }) other id' =
      surplus s other id' - if owner = other ∧ id = id' then 1 else 0 := by
  have howned : (s.setRegistration id { owner, description }).owned other = s.owned other := rfl
  rw [surplus, surplus, howned, if_congr registeredTo_setRegistration rfl rfl]
  by_cases hid : id = id'
  · have hunregistered : ¬ s.RegisteredTo id' other := by
      rintro ⟨_, hsome, -⟩
      rw [← hid, hnew] at hsome
      cases hsome
    simp [hid, hunregistered]
  · simp [hid]

theorem surplus_setRegistration_same {description : ResourceDescription}
    (hsame : s.RegisteredTo id owner) :
    surplus (s.setRegistration id { owner, description }) other id' = surplus s other id' := by
  have howned : (s.setRegistration id { owner, description }).owned other = s.owned other := rfl
  have hregistered : (s.setRegistration id { owner, description }).RegisteredTo id' other ↔
      s.RegisteredTo id' other := by
    rw [registeredTo_setRegistration]
    by_cases hid : id = id'
    · rw [if_pos hid]
      obtain ⟨registration, hsome, howner⟩ := hsame
      constructor
      · exact fun hother => ⟨registration, hid ▸ hsome, howner.trans hother⟩
      · rintro ⟨_, hsome', hother⟩
        rw [← hid, hsome] at hsome'
        cases hsome'
        exact howner.symm.trans hother
    · rw [if_neg hid]
  rw [surplus, surplus, howned, if_congr hregistered rfl rfl]

/-- A deleted registration is still among the resources. -/
theorem surplus_deleteRegistration (hsame : s.RegisteredTo id owner) :
    surplus (s.deleteRegistration id) other id' =
      surplus s other id' + if owner = other ∧ id = id' then 1 else 0 := by
  have howned : (s.deleteRegistration id).owned other = s.owned other := rfl
  rw [surplus, surplus, howned, if_congr registeredTo_deleteRegistration rfl rfl]
  by_cases hid : id = id'
  · have hregistered : s.RegisteredTo id' other ↔ owner = other := by
      obtain ⟨registration, hsome, howner⟩ := hsame
      constructor
      · rintro ⟨_, hsome', hother⟩
        rw [← hid, hsome] at hsome'
        cases hsome'
        exact howner.symm.trans hother
      · exact fun hother => ⟨registration, hid ▸ hsome, howner.trans hother⟩
    simp [hid, hregistered]
  · simp [hid]

theorem surplus_deleteRegistration_none (hnone : s.registrationStore.get id = none) :
    surplus (s.deleteRegistration id) other id' = surplus s other id' := by
  have howned : (s.deleteRegistration id).owned other = s.owned other := rfl
  have hregistered : (s.deleteRegistration id).RegisteredTo id' other ↔
      s.RegisteredTo id' other := by
    rw [registeredTo_deleteRegistration]
    refine and_iff_right_of_imp ?_
    rintro ⟨_, hsome, -⟩ rfl
    rw [hnone] at hsome
    cases hsome
  rw [surplus, surplus, howned, if_congr hregistered rfl rfl]

/-- New resources of an owner. -/
theorem surplus_of_owned {resources : List String}
    (hstore : t.registrationStore = s.registrationStore)
    (howned : t.owned other = if other = owner then resources else s.owned other) :
    surplus t other id = surplus s other id +
      if owner = other then (resources.count id : Int) - (s.owned owner).count id else 0 := by
  have hregistered : t.RegisteredTo id other ↔ s.RegisteredTo id other := by
    rw [ServerState.RegisteredTo, hstore]
    rfl
  rw [surplus, surplus, howned, if_congr hregistered rfl rfl]
  by_cases hother : other = owner
  · subst hother
    rw [if_pos rfl, if_pos rfl]
    omega
  · rw [if_neg hother, if_neg (Ne.symm hother)]
    omega

end Surplus

/-! ## One step -/

/-- What a step leaves of the request, and the surplus with its share. -/
structure StepsTo (r : RegistrationRequest) (phase : Phase) (seen : List ServerState)
    (s : ServerState) (after : Phase)
    (rest : Async ServerState HttpError HttpHandlerResponse × ServerState) : Prop where
  stands : Stands r after (seen ++ [s]) rest.1
  surplus_eq : ∀ owner id, surplus rest.2 owner id + share r after owner id =
    surplus s owner id + share r phase owner id

section Step

variable {r : RegistrationRequest} {seen : List ServerState} {s : ServerState}
  {p : Async ServerState HttpError HttpHandlerResponse} {phase : Phase}

/-- Without a change to what is stored, the share stays the same. -/
theorem StepsTo.of_ledger {rest : Async ServerState HttpError HttpHandlerResponse × ServerState}
    {after : Phase} (hstands : Stands r after (seen ++ [s]) rest.1)
    (hledger : ledger rest.2 = ledger s)
    (hdue : ∀ owner id, share r after owner id = share r phase owner id) :
    StepsTo r phase seen s after rest :=
  ⟨hstands, fun owner id => by rw [surplus_congr hledger, hdue]⟩

theorem stepsTo_of_stores (h : Stores r p) (hsafe : SafeStep r p seen s) :
    ∃ after, StepsTo r .settled seen s after (p.resume s) := by
  cases h with
  | post id description hpost =>
    have hnew := hsafe.posts hpost id _ ⟨_, rfl⟩
    refine ⟨.adding id, .added id hpost, fun owner id' => ?_⟩
    rw [show ((Async.modify _ >>= _ : Async _ _ _).resume s).2 =
      s.setRegistration id { owner := r.owner, description } from rfl,
      surplus_setRegistration_new hnew]
    by_cases howner : r.owner = owner <;> by_cases hid : id = id' <;>
      simp [share, Phase.due, howner, hid]
  | put id description response hput =>
    have hsame := hsafe.puts hput id _ ⟨_, rfl⟩
    refine ⟨.settled, .prepares trivial, fun owner id' => ?_⟩
    rw [show ((Async.modify _ >>= _ : Async _ _ _).resume s).2 =
      s.setRegistration id { owner := r.owner, description } from rfl,
      surplus_setRegistration_same hsame]
  | delete id hdelete =>
    have howner := fun registration => hsafe.deletes hdelete id registration ⟨_, rfl⟩
    have hlast : (seen ++ [s]).getLast? = some s := List.getLast?_concat
    rcases hentry : s.registrationStore.get id with _ | registration
    · -- another request has deleted it
      have hunregistered : ¬ s.RegisteredTo id r.owner := by
        rintro ⟨_, hsome, -⟩
        rw [hentry] at hsome
        cases hsome
      refine ⟨.settled, .redundant id s hdelete hlast hunregistered, fun owner id' => ?_⟩
      rw [show ((Async.modify _ >>= _ : Async _ _ _).resume s).2 = s.deleteRegistration id from rfl,
        surplus_deleteRegistration_none hentry]
    · have hregistered : s.RegisteredTo id r.owner := ⟨registration, hentry, howner _ hentry⟩
      refine ⟨.removing id, .deleted id s hdelete hlast hregistered, fun owner id' => ?_⟩
      rw [show ((Async.modify _ >>= _ : Async _ _ _).resume s).2 = s.deleteRegistration id from rfl,
        surplus_deleteRegistration hregistered]
      by_cases howner : r.owner = owner <;> by_cases hid : id = id' <;>
        simp [share, Phase.due, howner, hid]

/-- Pushing the id into an array with the resources the owner still has. -/
theorem stepsTo_of_appends {id : String} {array : Option Nat}
    (hperm : (s.owned r.owner).Perm (s.resourcesIn r.owner array)) :
    StepsTo r (.adding id) seen s .settled ((writeOwnership id r.owner array).resume s) := by
  refine ⟨.prepares trivial, fun owner id' => ?_⟩
  rw [show ((writeOwnership id r.owner array).resume s).2 =
    s.pushOwnership r.owner array id from rfl,
    surplus_of_owned (t := s.pushOwnership r.owner array id) (s := s) rfl
      (ServerState.owned_pushOwnership _ _ _ _ _), List.count_append,
    List.count_singleton, hperm.count_eq]
  by_cases howner : r.owner = owner <;> by_cases hid : id = id' <;>
    simp [share, Phase.due, howner, hid]

/-- Taking the id out of such an array. -/
theorem stepsTo_of_splices {id : String} {array : Option Nat}
    (hmem : id ∈ s.resourcesIn r.owner array)
    (hperm : (s.owned r.owner).Perm (s.resourcesIn r.owner array)) :
    StepsTo r (.removing id) seen s .settled
      ((spliceOwnership id r.owner array >>= fun _ => removeMemberships id).resume s) := by
  have hrest : Prepares r true (removeMemberships id) := .of_keeps (keeps_removeMemberships id)
  -- whether the array is emptied or changed, the resources are those without the id
  have hstep : ∀ (t : ServerState), t.registrationStore = s.registrationStore →
      (∀ owner, t.owned owner =
        if owner = r.owner then (s.resourcesIn r.owner array).erase id else s.owned owner) →
      StepsTo r (.removing id) seen s .settled (removeMemberships id, t) := by
    intro t hstore howned
    refine ⟨.prepares hrest, fun owner id' => ?_⟩
    rw [surplus_of_owned hstore (howned owner), hperm.count_eq, List.count_erase]
    have hpos : 1 ≤ (s.resourcesIn r.owner array).count id := List.count_pos_iff.mpr hmem
    by_cases howner : r.owner = owner <;> by_cases hid : id = id'
    · subst hid howner
      simp [share, Phase.due, Nat.cast_sub hpos]
    all_goals simp [share, Phase.due, howner, hid]
  unfold spliceOwnership
  rw [Async.bind_assoc, Async.resume_get_bind]
  dsimp only
  rw [if_pos (List.contains_iff_mem.mpr hmem)]
  by_cases hempty : ((s.resourcesIn r.owner array).erase id).length = 0
  · rw [if_pos hempty]
    refine hstep (s.deleteOwnership r.owner array) rfl fun owner => ?_
    rw [ServerState.owned_deleteOwnership, List.length_eq_zero_iff.mp hempty]
  · rw [if_neg hempty]
    exact hstep (s.setOwnership r.owner array _) rfl
      fun owner => ServerState.owned_setOwnership _ _ _ _ _

/-- Not finding the id. -/
theorem stepsTo_of_passes {id : String} {array : Option Nat}
    (hmem : id ∉ s.resourcesIn r.owner array) :
    StepsTo r .settled seen s .settled
      ((spliceOwnership id r.owner array >>= fun _ => removeMemberships id).resume s) := by
  unfold spliceOwnership
  rw [Async.bind_assoc, Async.resume_get_bind]
  dsimp only
  rw [if_neg fun hcontains => hmem (List.contains_iff_mem.mp hcontains)]
  have hrest : Prepares r false (removeMemberships id) := .of_keeps (keeps_removeMemberships id)
  obtain ⟨hledger, hleft⟩ := hrest.resume_of_not_start s
  exact .of_ledger (.prepares hleft) hledger fun _ _ => rfl

theorem Stands.step (h : Stands r phase seen p) (hsafe : SafeStep r p seen s) :
    ∃ after, StepsTo r phase seen s after (p.resume s) := by
  have hdeleted : ∀ last, seen.getLast? = some last →
      (seen ++ [s]).dropLast.getLast? = some last := fun last hlast => by
    rw [List.dropLast_concat]
    exact hlast
  cases h with
  | prepares hprepares =>
    rcases hprepares.resume with hstores | hkeeps
    · exact stepsTo_of_stores hstores hsafe
    · obtain ⟨hledger, hrest⟩ := hkeeps s
      exact ⟨.settled, .of_ledger (.prepares hrest) hledger (fun _ _ => rfl)⟩
  | added id hpost => exact ⟨.adding id, .of_ledger (.reads id hpost) rfl (fun _ _ => rfl)⟩
  | reads id hpost => exact ⟨.adding id, .of_ledger (.appends id _ hpost) rfl (fun _ _ => rfl)⟩
  | appends id array hpost =>
    exact ⟨.settled, stepsTo_of_appends (hsafe.pushes hpost r.owner array id ⟨_, rfl⟩)⟩
  | deleted id last hdelete hlast hregistered =>
    exact ⟨.removing id, .of_ledger
      (.splices id _ last hdelete (hdeleted last hlast) hregistered) rfl (fun _ _ => rfl)⟩
  | redundant id last hdelete hlast hunregistered =>
    exact ⟨.settled, .of_ledger
      (.passes id _ last hdelete (hdeleted last hlast) hunregistered) rfl (fun _ _ => rfl)⟩
  | splices id array deleted hdelete hread hregistered =>
    have hmem := (hsafe.finds hdelete id array deleted ⟨_, rfl⟩ hread).mpr hregistered
    exact ⟨.settled, stepsTo_of_splices hmem (hsafe.splices hdelete id array ⟨_, rfl⟩ hmem)⟩
  | passes id array deleted hdelete hread hunregistered =>
    have hmem : id ∉ s.resourcesIn r.owner array := fun hmem =>
      hunregistered ((hsafe.finds hdelete id array deleted ⟨_, rfl⟩ hread).mp hmem)
    exact ⟨.settled, stepsTo_of_passes hmem⟩

end Step

/-! ## All requests -/

section Runs

variable {ι : Type} [Fintype ι] [DecidableEq ι] {env : RegistrationEnvironment}
  {numbers : ι → Nat} {tasks : ι → RegistrationRequest}

/-- The requests stand in these phases, and what they are due is what the
resources lack. -/
structure InStep (tasks : ι → RegistrationRequest)
    (pool : Pool ι ServerState HttpError HttpHandlerResponse) (phases : ι → Phase) : Prop where
  stands : ∀ i, Stands (tasks i) (phases i) (pool.seen i) (pool.processes i)
  balanced : ∀ owner id,
    surplus pool.state owner id + ∑ i, share (tasks i) (phases i) owner id = 0

omit [DecidableEq ι] in
theorem inStep_start : InStep tasks
    (Pool.start (fun i => respond env (numbers i) (tasks i).request (tasks i).owner)
      ServerState.empty) (fun _ => .settled) where
  stands _ := .prepares prepares_respond
  balanced owner id := by
    have hdue : ∀ i, share (tasks i) .settled owner id = 0 := by
      intro i
      simp [share, Phase.due]
    have hempty : surplus ServerState.empty owner id = 0 := rfl
    simp only [Pool.start, hdue, hempty, Finset.sum_const_zero, add_zero]

theorem InStep.step {pool : Pool ι ServerState HttpError HttpHandlerResponse} {phases : ι → Phase}
    (h : InStep tasks pool phases) {i : ι}
    (hsafe : SafeStep (tasks i) (pool.processes i) (pool.seen i) pool.state) :
    ∃ phases', InStep tasks (pool.step i) phases' := by
  obtain ⟨after, hstands, hsurplus⟩ := (h.stands i).step hsafe
  refine ⟨Function.update phases i after, fun j => ?_, fun owner id => ?_⟩
  · by_cases hj : j = i
    · subst hj
      simp only [Pool.step, Function.update_self]
      exact hstands
    · simp only [Pool.step, Function.update_of_ne hj]
      exact h.stands j
  · -- only the share of this request changes
    have hrest : ∑ j ∈ Finset.univ.erase i,
        share (tasks j) (Function.update phases i after j) owner id =
        ∑ j ∈ Finset.univ.erase i, share (tasks j) (phases j) owner id := by
      refine Finset.sum_congr rfl (fun j hj => ?_)
      rw [Function.update_of_ne (Finset.ne_of_mem_erase hj)]
    have hbefore := h.balanced owner id
    rw [← Finset.add_sum_erase _ _ (Finset.mem_univ i)] at hbefore ⊢
    rw [hrest, Function.update_self]
    have hstep := hsurplus owner id
    show surplus ((pool.processes i).resume pool.state).2 owner id + _ = 0
    omega

theorem inStep_run {schedule : List ι} (h : SafeRun env numbers tasks schedule) :
    ∃ phases, InStep tasks (poolAfter env numbers tasks schedule) phases := by
  refine Pool.run_invariant (fun pool => ∃ phases, InStep tasks pool phases) ⟨_, inStep_start⟩ ?_
  rintro before i later hsplit ⟨phases, hphases⟩
  exact hphases.step (h before i later hsplit)

/-- A request that was answered is settled. -/
theorem Stands.settled {r : RegistrationRequest} {phase : Phase} {seen : List ServerState}
    {answer : Except HttpError HttpHandlerResponse} (h : Stands r phase seen (.done answer)) :
    phase = .settled := by
  generalize hp : (Async.done answer : Async ServerState HttpError HttpHandlerResponse) = p at h
  cases h with
  | prepares _ => rfl
  | added id hpost => cases hp
  | reads id hpost => cases hp
  | appends id array hpost => cases hp
  | deleted id last hdelete hread hregistered => cases hp
  | redundant id last hdelete hread hunregistered => rfl
  | splices id array deleted hdelete hread hregistered => cases hp
  | passes id array deleted hdelete hread hunregistered => rfl

/-- Without a surplus, the resources are the registered ids. -/
theorem consistent_of_surplus {s : ServerState} (h : ∀ owner id, surplus s owner id = 0) :
    OwnershipConsistent s := by
  have hcount : ∀ owner id,
      (s.owned owner).count id = if s.RegisteredTo id owner then 1 else 0 := by
    intro owner id
    have hzero := h owner id
    unfold surplus at hzero
    split at hzero <;> rename_i hregistered
    · rw [if_pos hregistered]
      omega
    · rw [if_neg hregistered]
      omega
  refine fun owner => ⟨List.nodup_iff_count_le_one.mpr (fun id => ?_), fun id => ?_⟩
  · rw [hcount]
    split <;> omega
  · rw [← List.count_pos_iff, hcount]
    split <;> simp_all

/-- When the steps of all requests find what they rely on, the resources are
the registrations in the end. -/
theorem ownershipConsistent_of_safeRun (env : RegistrationEnvironment) (numbers : ι → Nat)
    (tasks : ι → RegistrationRequest) (schedule : List ι)
    (hsafe : SafeRun env numbers tasks schedule)
    (hfinished : Finished (poolAfter env numbers tasks schedule)) :
    OwnershipConsistent (poolAfter env numbers tasks schedule).state := by
  obtain ⟨phases, hstands, hbalanced⟩ := inStep_run hsafe
  refine consistent_of_surplus (fun owner id => ?_)
  have hdue : ∀ i, share (tasks i) (phases i) owner id = 0 := by
    intro i
    obtain ⟨answer, hanswer⟩ := hfinished i
    have hi := hstands i
    rw [hanswer] at hi
    simp [share, hi.settled, Phase.due]
  have hsum := hbalanced owner id
  simp only [hdue, Finset.sum_const_zero, add_zero] at hsum
  exact hsum

end Runs

/-! ## Two requests of one owner -/

section Example

variable {r : RegistrationRequest} {p next : Async ServerState HttpError HttpHandlerResponse}
  {seen : List ServerState} {s : ServerState}

/-- Resuming a request that awaits something. -/
theorem SafeStep.of_pause (h : p = .pause next) : SafeStep r p seen s := by
  subst h
  refine ⟨?_, ?_, ?_, ?_, ?_, ?_⟩
  · rintro - id registration ⟨next', heq⟩
    cases heq
  · rintro - id registration ⟨next', heq⟩
    cases heq
  · rintro - id registration ⟨next', heq⟩
    cases heq
  · rintro - id array deleted ⟨next', heq⟩
    cases heq
  · rintro - owner array id ⟨next', heq⟩
    cases heq
  · rintro - id array ⟨next', heq⟩
    cases heq

/-- A step of a POST relies on its first update. -/
theorem SafeStep.of_act {update : ServerState → ServerState}
    {next : ServerState → Async ServerState HttpError HttpHandlerResponse}
    (h : p = .act update next) (hpost : r.request.method = "POST")
    (hstores : ∀ id registration, update = ServerState.setRegistration id registration →
      s.registrationStore.get id = none)
    (hpushes : ∀ owner array id, update = ServerState.pushOwnership owner array id →
      (s.owned owner).Perm (s.resourcesIn owner array)) :
    SafeStep r p seen s := by
  subst h
  have hmethod : ∀ method, method ≠ "POST" → r.request.method ≠ method := by
    rintro method hother rfl
    exact hother hpost
  refine ⟨?_, ?_, ?_, ?_, ?_, ?_⟩
  · rintro - id registration ⟨next', heq⟩
    injection heq with hupdate
    exact hstores id registration hupdate
  · exact fun hput => absurd hput (hmethod _ (by decide))
  · exact fun hdelete => absurd hdelete (hmethod _ (by decide))
  · exact fun hdelete => absurd hdelete (hmethod _ (by decide))
  · rintro - owner array id ⟨next', heq⟩
    injection heq with hupdate
    exact hpushes owner array id hupdate
  · exact fun hdelete => absurd hdelete (hmethod _ (by decide))

/-- A state in which so many arrays were made. -/
def withMade (made : Nat) : ServerState :=
  { ServerState.empty with arrays := fun _ => { made, content := fun _ => [] } }

theorem owner_of_pushOwnership {update : ServerState → ServerState} {owner id : String}
    {array : Option Nat} (h : update = ServerState.pushOwnership owner array id) (made : Nat) :
    (update (withMade made)).ownershipStore.get owner = some (array.getD made) := by
  rw [h]
  exact (KeyValueStorage.get_set _ _ _ _).trans (if_pos rfl)

/-- The update shows which array is pushed into. -/
theorem pushOwnership_injective {owner owner' id id' : String} {array array' : Option Nat}
    (h : ServerState.pushOwnership owner array id = ServerState.pushOwnership owner' array' id') :
    owner' = owner ∧ array' = array := by
  have hsame : ∀ made, (ServerState.pushOwnership owner array id (withMade made)).ownershipStore.get
      owner' = some (array'.getD made) := owner_of_pushOwnership h
  have howner : owner' = owner := by
    by_contra hother
    have hnone : (ServerState.pushOwnership owner array id (withMade 0)).ownershipStore.get owner' =
        none := (KeyValueStorage.get_set _ _ _ _).trans (if_neg hother)
    rw [hsame] at hnone
    cases hnone
  subst howner
  have hgetD : ∀ made, array.getD made = array'.getD made := fun made =>
    Option.some_inj.mp ((owner_of_pushOwnership rfl made).symm.trans (hsame made))
  refine ⟨rfl, ?_⟩
  cases array with
  | none =>
    cases array' with
    | none => rfl
    | some m => exact absurd (hgetD (m + 1)) (Nat.succ_ne_self m)
  | some m =>
    cases array' with
    | none => exact absurd (hgetD (m + 1)) (Nat.succ_ne_self m).symm
    | some m' => rw [show m = m' from hgetD 0]

theorem SafeStep.of_get {next : ServerState → Async ServerState HttpError HttpHandlerResponse}
    (h : p = .act id next) (hpost : r.request.method = "POST") : SafeStep r p seen s := by
  refine .of_act h hpost (fun id registration hupdate => ?_) (fun owner array id hupdate => ?_)
  · have hget := congrArg (fun update => (update ServerState.empty).registrationStore.get id) hupdate
    have hset : (ServerState.setRegistration id registration ServerState.empty).registrationStore.get
        id = some registration := (KeyValueStorage.get_set _ _ _ _).trans (if_pos rfl)
    rw [hset] at hget
    cases hget
  · have hget := owner_of_pushOwnership hupdate 0
    cases hget

/-- Alice registers a photo and a song. -/
def twoResources (photo : Bool) : RegistrationRequest where
  owner := alice
  request :=
    { method := "POST"
      body := .object [("resource_scopes", .array []),
        ("name", .string (if photo then "photo" else "song"))] }

theorem SafeStep.of_setRegistration {id : String} {registration : Registration}
    {next : ServerState → Async ServerState HttpError HttpHandlerResponse}
    (h : p = .act (ServerState.setRegistration id registration) next)
    (hpost : r.request.method = "POST") (hfree : s.registrationStore.get id = none) :
    SafeStep r p seen s := by
  refine .of_act h hpost (fun id' registration' hupdate => ?_) (fun owner array id' hupdate => ?_)
  · by_cases hid : id' = id
    · rw [hid]
      exact hfree
    · have hget := congrArg (fun update => (update ServerState.empty).registrationStore.get id')
        hupdate
      have hset : (ServerState.setRegistration id' registration'
          ServerState.empty).registrationStore.get id' = some registration' :=
        (KeyValueStorage.get_set _ _ _ _).trans (if_pos rfl)
      have hnone : (ServerState.setRegistration id registration
          ServerState.empty).registrationStore.get id' = none :=
        (KeyValueStorage.get_set _ _ _ _).trans (if_neg hid)
      rw [hset, hnone] at hget
      cases hget
  · have hget := owner_of_pushOwnership hupdate 0
    cases hget

theorem SafeStep.of_pushOwnership {owner id : String} {array : Option Nat}
    {next : ServerState → Async ServerState HttpError HttpHandlerResponse}
    (h : p = .act (ServerState.pushOwnership owner array id) next)
    (hpost : r.request.method = "POST") (hsame : s.resourcesIn owner array = s.owned owner) :
    SafeStep r p seen s := by
  refine .of_act h hpost (fun id' registration hupdate => ?_) (fun owner' array' id' hupdate => ?_)
  · have hget := congrArg (fun update => (update ServerState.empty).registrationStore.get id')
      hupdate
    have hset : (ServerState.setRegistration id' registration
        ServerState.empty).registrationStore.get id' = some registration :=
      (KeyValueStorage.get_set _ _ _ _).trans (if_pos rfl)
    rw [hset] at hget
    cases hget
  · obtain ⟨rfl, rfl⟩ := pushOwnership_injective hupdate
    rw [hsame]

/-- One after the other. -/
theorem ownershipConsistent_of_safeRun_sequential :
    OwnershipConsistent (poolAfter countedBlankNodes (fun _ => 0) twoResources
      (List.replicate 8 true ++ List.replicate 8 false)).state := by
  refine ownershipConsistent_of_safeRun _ _ _ _ (SafeRun.of_steps ?_) ?_
  · intro n i hi
    have hn : n < 16 := by
      by_contra hlong
      rw [List.getElem?_eq_none (by simpa using hlong)] at hi
      cases hi
    interval_cases n <;> cases hi
    -- the photo
    · exact .of_get rfl rfl
    · exact .of_pause rfl
    · exact .of_get rfl rfl
    · exact .of_get rfl rfl
    · exact .of_setRegistration rfl rfl (by decide +kernel)
    · exact .of_pause rfl
    · exact .of_get rfl rfl
    · exact .of_pushOwnership rfl rfl (by decide +kernel)
    -- the song
    · exact .of_get rfl rfl
    · exact .of_pause rfl
    · exact .of_get rfl rfl
    · exact .of_get rfl rfl
    · exact .of_setRegistration rfl rfl rfl
    · exact .of_pause rfl
    · exact .of_get rfl rfl
    · exact .of_pushOwnership rfl rfl (by decide +kernel)
  · rintro (_ | _)
    · exact Async.exists_of_isDone (by decide +kernel)
    · exact Async.exists_of_isDone (by decide +kernel)

/-- Both read the resources before one of them writes, and the photo is lost. -/
theorem ownership_entry_lost :
    ¬ ∀ (ι : Type) [Fintype ι] [DecidableEq ι] (env : RegistrationEnvironment)
      (numbers : ι → Nat) (tasks : ι → RegistrationRequest) (schedule : List ι),
      Finished (poolAfter env numbers tasks schedule) →
        OwnershipConsistent (poolAfter env numbers tasks schedule).state := by
  intro hclaim
  have hconsistent := hclaim Bool countedBlankNodes (fun _ => 0) twoResources
    (List.replicate 8 [true, false]).flatten (by
      rintro (_ | _)
      · exact Async.exists_of_isDone (by decide +kernel)
      · exact Async.exists_of_isDone (by decide +kernel))
  have hlost := ((hconsistent alice).2 "photo").mpr ⟨_, rfl, rfl⟩
  exact absurd hlost (by decide +kernel)

end Example

end UserManagedAccess.Routes.ResourceRegistrationRequestHandler
