/-
UserManagedAccess.Routes.ResourceRegistrationTheorems — what a registration
request does to the four stores, when nothing else runs meanwhile.

A request is refused and changes nothing, or has one of four effects
(`Effect`). What is proved about runs is proved about effects, and none of it
looks at the procedures again.

* `run_setResourceMetadata` — the metadata is updated as a whole or not at all:
  whatever can be refused is computed before the first write;
* `run_handlePost`, `run_handlePut`, `answered_handleDelete` — the methods;
* `answered_respond` — every request is refused, or accepted with an effect;
* `refused_unchanged` — what is refused changes nothing, in any state and for any
  body, validator and owner.

The stores themselves do not fail here.
-/
import UserManagedAccess.Routes.ResourceRegistration

namespace UserManagedAccess.Routes

open UserManagedAccess.Lib UserManagedAccess.Rdf UserManagedAccess.Util
open UserManagedAccess.Views UserManagedAccess.Ucp

namespace ResourceRegistrationRequestHandler

variable {env : RegistrationEnvironment} {n : Nat} {request : HttpHandlerRequest}
  {id owner : String} {description : ResourceDescription} {previous : Option ResourceDescription}
  {s : ServerState}

/-! ## Updating the metadata of a resource -/

/-- The quads an update of a resource adds and removes. -/
def metadataChange (env : RegistrationEnvironment) (n : Nat) (policies : Store) (id owner : String)
    (description : ResourceDescription) (previous : Option ResourceDescription) :
    Except HttpError QuadChange := do
  let collectionQuads ← updateCollections env n policies id owner description previous
  let relationQuads ← updateRelations env policies id description previous
  return { add := collectionQuads.add ++ relationQuads.add
           remove := collectionQuads.remove ++ relationQuads.remove }

def storeIssuers (entries : List DerivedFrom) (store : KeyValueStorage String String) :
    KeyValueStorage String String :=
  entries.foldl (fun store entry => store.set entry.derivationResourceId entry.issuer) store

def deleteIssuers (ids : List String) (store : KeyValueStorage String String) :
    KeyValueStorage String String :=
  ids.foldl (fun store id => store.delete id) store

def updateDerivations (description : ResourceDescription) (previous : Option ResourceDescription)
    (store : KeyValueStorage String String) : KeyValueStorage String String :=
  deleteIssuers (removedDerivedIds description previous)
    (storeIssuers (derivedEntries description) store)

def updatePolicies (change : QuadChange) (policies : Store) : Store :=
  (policies.addAll (Store.ofQuads change.add)).difference (Store.ofQuads change.remove)

/-- The state after an update. -/
def withMetadata (id owner : String) (description : ResourceDescription)
    (previous : Option ResourceDescription) (change : QuadChange) (s : ServerState) :
    ServerState :=
  { derivationStore := updateDerivations description previous s.derivationStore
    registrationStore := s.registrationStore.set id { owner, description }
    ownershipStore := s.ownershipStore
    arrays := s.arrays
    policies := updatePolicies change s.policies }

theorem run_storeDerivations (entries : List DerivedFrom) (s : ServerState) :
    (storeDerivations entries).run s =
      (.ok (), { s with derivationStore := storeIssuers entries s.derivationStore }) := by
  induction entries generalizing s with
  | nil => rfl
  | cons entry entries ih => exact ih (s.setDerivation entry.derivationResourceId entry.issuer)

theorem run_deleteDerivations (ids : List String) (s : ServerState) :
    (deleteDerivations ids).run s =
      (.ok (), { s with derivationStore := deleteIssuers ids s.derivationStore }) := by
  induction ids generalizing s with
  | nil => rfl
  | cons id ids ih => exact ih (s.deleteDerivation id)

theorem run_getStore (s : ServerState) : (serverPolicies.getStore).run s = (.ok s.policies, s) := rfl

theorem run_addQuads (quads : List Quad) (s : ServerState) :
    (addQuads quads).run s = (.ok (), s.addRule (Store.ofQuads quads)) := by
  cases quads with
  | nil => rfl
  | cons q quads => rfl

theorem run_removeQuads (quads : List Quad) (s : ServerState) :
    (removeQuads quads).run s = (.ok (), s.removeData (Store.ofQuads quads)) := by
  cases quads with
  | nil =>
    have hempty : s.removeData (Store.ofQuads []) = s := s.removeData_empty
    rw [hempty]
    rfl
  | cons q quads => rfl

/-- The metadata is updated as a whole, or not at all. -/
theorem run_setResourceMetadata (env : RegistrationEnvironment) (n : Nat) (id owner : String)
    (description : ResourceDescription) (previous : Option ResourceDescription)
    (s : ServerState) :
    (setResourceMetadata env n id description owner previous).run s =
      match metadataChange env n s.policies id owner description previous with
      | .error e => (.error e, s)
      | .ok change => (.ok (), withMetadata id owner description previous change s) := by
  unfold setResourceMetadata metadataChange
  rw [Async.run_bind_of_ok (run_getStore s)]
  rcases hcollections : updateCollections env n s.policies id owner description previous
    with e | collectionQuads
  · rfl
  rw [Async.run_bind_of_ok (Async.run_lift _ _), Async.run_bind_of_ok (run_getStore s)]
  rcases hrelations : updateRelations env s.policies id description previous
    with e | relationQuads
  · rfl
  rw [Async.run_bind_of_ok (Async.run_lift _ _), Async.run_bind_of_ok (Async.run_yield _),
    Async.run_bind_of_ok (run_addQuads _ _), Async.run_bind_of_ok (run_removeQuads _ _),
    Async.run_bind_of_ok (run_storeDerivations _ _),
    Async.run_bind_of_ok (run_deleteDerivations _ _)]
  rfl

/-! ## Removing a resource -/

def removeOwned (id owner : String) (s : ServerState) : ServerState :=
  if (s.owned owner).contains id then
    if ((s.owned owner).erase id).length = 0 then
      s.deleteOwnership owner (s.ownershipStore.get owner)
    else s.setOwnership owner (s.ownershipStore.get owner) ((s.owned owner).erase id)
  else s

/-- The state after a deletion. -/
def withoutResource (id owner : String) (s : ServerState) : ServerState :=
  { derivationStore := s.derivationStore
    registrationStore := s.registrationStore.delete id
    ownershipStore := (removeOwned id owner s).ownershipStore
    arrays := (removeOwned id owner s).arrays
    policies := s.policies.difference
      (Store.ofQuads (s.policies.getQuads (Term.namedNode id) ODRL.partOf none none)) }

theorem run_removeOwnership (s : ServerState) :
    (removeOwnership id owner).run s = (.ok (), removeOwned id owner s) := by
  have hread : (ownedArray owner).run s = (.ok (s.ownershipStore.get owner), s) := rfl
  have howned : s.resourcesIn owner (s.ownershipStore.get owner) = s.owned owner := rfl
  unfold removeOwnership spliceOwnership removeOwned
  rw [Async.run_bind_of_ok hread, Async.run_bind_of_ok (Async.run_get s)]
  dsimp only
  rw [howned]
  by_cases hmem : (s.owned owner).contains id = true
  · rw [if_pos hmem, if_pos hmem]
    by_cases hlast : ((s.owned owner).erase id).length = 0
    · simp only [hlast, if_true]
      rfl
    · simp only [hlast, if_false]
      rfl
  · rw [if_neg hmem, if_neg hmem]
    rfl

/-- The list of the owner loses the id, and no other list changes. -/
theorem owned_withoutResource (other : String) :
    (withoutResource id owner s).owned other =
      if other = owner then (s.owned owner).erase id else s.owned other := by
  have howned : (withoutResource id owner s).owned other = (removeOwned id owner s).owned other :=
    rfl
  rw [howned, removeOwned]
  by_cases hmem : (s.owned owner).contains id = true
  · rw [if_pos hmem]
    by_cases hlast : ((s.owned owner).erase id).length = 0
    · rw [if_pos hlast, ServerState.owned_deleteOwnership, List.length_eq_zero_iff.mp hlast]
    · rw [if_neg hlast, ServerState.owned_setOwnership]
  · rw [if_neg hmem]
    have hsame : (s.owned owner).erase id = s.owned owner :=
      List.erase_of_not_mem (fun h => hmem (List.contains_iff_mem.mpr h))
    by_cases ho : other = owner
    · rw [if_pos ho, hsame, ho]
    · rw [if_neg ho]

/-- Taking the id out of the list is all that happens between deleting the
registration and the memberships. -/
theorem removeData_removeOwned (id owner : String) (s : ServerState) (data : Store) :
    (removeOwned id owner (s.deleteRegistration id)).removeData data =
      { derivationStore := s.derivationStore
        registrationStore := s.registrationStore.delete id
        ownershipStore := (removeOwned id owner s).ownershipStore
        arrays := (removeOwned id owner s).arrays
        policies := s.policies.difference data } := by
  have howned : (s.deleteRegistration id).owned owner = s.owned owner := rfl
  unfold removeOwned
  rw [howned]
  by_cases hmem : (s.owned owner).contains id = true
  · rw [if_pos hmem, if_pos hmem]
    by_cases hlast : ((s.owned owner).erase id).length = 0
    · rw [if_pos hlast, if_pos hlast]
      rfl
    · rw [if_neg hlast, if_neg hlast]
      rfl
  · rw [if_neg hmem, if_neg hmem]
    rfl

theorem policies_removeOwned (id owner : String) (s : ServerState) :
    (removeOwned id owner s).policies = s.policies := by
  unfold removeOwned
  split
  · split <;> rfl
  · rfl

/-! ## The effect of a request -/

/-- A name nothing is registered under, or the random identifier of the
request. -/
def IsNewResource (env : RegistrationEnvironment) (n : Nat) (s : ServerState)
    (description : ResourceDescription) (id : String) : Prop :=
  (description.name = some id ∧ id ≠ "" ∧ s.registrationStore.get id = none) ∨
    (description.name.filter (· ≠ "") = none ∧ id = env.randomUUID n)

/-- The description in the body of a request. -/
def described (request : HttpHandlerRequest) : ResourceDescription :=
  ResourceDescription.ofJson request.body

/-- What an accepted request of an owner does to the state. -/
inductive Effect (env : RegistrationEnvironment) (n : Nat) (request : HttpHandlerRequest)
    (owner : String) (s : ServerState) : ServerState → Prop
  | read : Effect env n request owner s s
  | posted (id : String) (change : QuadChange) (hmethod : request.method = "POST")
      (hnew : IsNewResource env n s (described request) id)
      (hchange : metadataChange env n s.policies id owner (described request) none =
        .ok change) :
      Effect env n request owner s
        ((withMetadata id owner (described request) none change s).pushOwnership owner
          (s.ownershipStore.get owner) id)
  | updated (id : String) (previous : ResourceDescription) (change : QuadChange)
      (hmethod : request.method = "PUT") (hid : request.parameters.get "id" = some id)
      (hentry : s.registrationStore.get id = some { owner, description := previous })
      (hchange : metadataChange env n s.policies id owner (described request) (some previous) =
        .ok change) :
      Effect env n request owner s
        (withMetadata id owner (described request) (some previous) change s)
  | deleted (id : String) (previous : ResourceDescription)
      (hmethod : request.method = "DELETE") (hid : request.parameters.get "id" = some id)
      (hentry : s.registrationStore.get id = some { owner, description := previous }) :
      Effect env n request owner s (withoutResource id owner s)

/-- Refused without a change, or accepted with one of the effects. -/
def Answered (env : RegistrationEnvironment) (n : Nat) (request : HttpHandlerRequest)
    (owner : String) (s : ServerState)
    (outcome : Except HttpError HttpHandlerResponse × ServerState) : Prop :=
  (∃ e, outcome = (.error e, s)) ∨
    ∃ response s', outcome = (.ok response, s') ∧ Effect env n request owner s s'

theorem run_getRegistration (s : ServerState) :
    (getRegistration id).run s = (.ok (s.registrationStore.get id), s) := rfl

theorem answered_handleGet :
    Answered env n request owner s ((handleGet request owner).run s) := by
  unfold handleGet
  split
  · rename_i id _
    rw [Async.run_bind_of_ok (run_getRegistration s)]
    rcases hentry : s.registrationStore.get id with _ | registration
    · exact Or.inl ⟨_, rfl⟩
    · by_cases howner : registration.owner = owner
      · simp only [howner, ne_eq, not_true_eq_false, if_false]
        exact Or.inr ⟨_, _, rfl, .read⟩
      · simp only [howner, ne_eq, not_false_eq_true, if_true]
        exact Or.inl ⟨_, rfl⟩
  · exact Or.inr ⟨_, _, rfl, .read⟩

theorem run_newResource (env : RegistrationEnvironment) (n : Nat)
    (description : ResourceDescription) (s : ServerState) :
    (∃ e, (newResource env n description).run s = (.error e, s)) ∨
      ∃ id, (newResource env n description).run s = (.ok id, s) ∧
        IsNewResource env n s description id := by
  unfold newResource
  rcases hname : description.name.filter (· ≠ "") with _ | resource
  · exact Or.inr ⟨_, rfl, Or.inr ⟨hname, rfl⟩⟩
  · obtain ⟨hsome, hnonempty⟩ := Option.filter_eq_some_iff.mp hname
    by_cases hhas : s.registrationStore.has resource = true
    · refine Or.inl ⟨alreadyRegistered resource, ?_⟩
      show Async.run (if s.registrationStore.has resource = true then _ else _) s = _
      rw [if_pos hhas]
      rfl
    · refine Or.inr ⟨resource, ?_, Or.inl ⟨hsome, by simpa using hnonempty, ?_⟩⟩
      · show Async.run (if s.registrationStore.has resource = true then _ else _) s = _
        rw [if_neg hhas]
        rfl
      · rw [KeyValueStorage.has, Option.isSome_iff_ne_none, not_not] at hhas
        exact hhas

/-- A POST is refused, or registers a new resource. -/
theorem run_handlePost (env : RegistrationEnvironment) (n : Nat) (request : HttpHandlerRequest)
    (owner : String) (s : ServerState) :
    (∃ e, (handlePost env n request owner).run s = (.error e, s)) ∨
      ∃ id change, IsNewResource env n s (described request) id ∧
        metadataChange env n s.policies id owner (described request) none = .ok change ∧
        (handlePost env n request owner).run s =
          (.ok { status := 201, body := registered id },
            (withMetadata id owner (described request) none change s).pushOwnership owner
              (s.ownershipStore.get owner) id) := by
  unfold handlePost
  rcases hsyntax : (ResourceDescription.assertion request.body).mapError badSyntax with e | ⟨⟩
  · exact Or.inl ⟨e, Async.run_bind_of_error (Async.run_lift _ _) _⟩
  rw [Async.run_bind_of_ok (Async.run_lift _ _)]
  dsimp only
  rcases run_newResource env n (ResourceDescription.ofJson request.body) s with
    ⟨e, hnew⟩ | ⟨id, hnew, hfresh⟩
  · exact Or.inl ⟨e, Async.run_bind_of_error hnew _⟩
  rw [Async.run_bind_of_ok hnew]
  have hupdate := run_setResourceMetadata env n id owner
    (ResourceDescription.ofJson request.body) none s
  rcases hchange : metadataChange env n s.policies id owner
    (ResourceDescription.ofJson request.body) none with e | change
  · rw [hchange] at hupdate
    exact Or.inl ⟨e, Async.run_bind_of_error hupdate _⟩
  · rw [hchange] at hupdate
    rw [Async.run_bind_of_ok hupdate]
    exact Or.inr ⟨id, change, hfresh, hchange, rfl⟩

theorem answered_handlePost (hmethod : request.method = "POST") :
    Answered env n request owner s ((handlePost env n request owner).run s) := by
  rcases run_handlePost env n request owner s with
    ⟨e, hrefused⟩ | ⟨id, change, hnew, hchange, hrun⟩
  · exact Or.inl ⟨e, hrefused⟩
  · exact Or.inr ⟨_, _, hrun, .posted id change hmethod hnew hchange⟩

/-- A PUT of the owner is refused, or updates the resource. -/
theorem run_handlePut (env : RegistrationEnvironment) (n : Nat) (request : HttpHandlerRequest)
    (owner : String) (s : ServerState) :
    (∃ e, (handlePut env n request owner).run s = (.error e, s)) ∨
      ∃ id previous change, request.parameters.get "id" = some id ∧
        s.registrationStore.get id = some { owner, description := previous } ∧
        metadataChange env n s.policies id owner (described request) (some previous) =
          .ok change ∧
        (handlePut env n request owner).run s =
          (.ok { status := 200, body := registered id },
            withMetadata id owner (described request) (some previous) change s) := by
  unfold handlePut
  split
  · exact Or.inl ⟨_, rfl⟩
  rename_i id hid
  rw [Async.run_bind_of_ok (run_getRegistration s)]
  rcases hentry : s.registrationStore.get id with _ | ⟨entryOwner, previous⟩
  · exact Or.inl ⟨_, rfl⟩
  by_cases howner : entryOwner = owner
  · subst howner
    simp only [ne_eq, not_true_eq_false, if_false]
    rcases hsyntax : (ResourceDescription.assertion request.body).mapError badSyntax with e | ⟨⟩
    · exact Or.inl ⟨e, Async.run_bind_of_error (Async.run_lift _ _) _⟩
    rw [Async.run_bind_of_ok (Async.run_lift _ _)]
    have hupdate := run_setResourceMetadata env n id entryOwner
      (ResourceDescription.ofJson request.body) (some previous) s
    rcases hchange : metadataChange env n s.policies id entryOwner
      (ResourceDescription.ofJson request.body) (some previous) with e | change
    · rw [hchange] at hupdate
      exact Or.inl ⟨e, Async.run_bind_of_error hupdate _⟩
    · rw [hchange] at hupdate
      rw [Async.run_bind_of_ok hupdate]
      exact Or.inr ⟨id, previous, change, hid, hentry, hchange, rfl⟩
  · simp only [howner, ne_eq, not_false_eq_true, if_true]
    exact Or.inl ⟨_, rfl⟩

theorem answered_handlePut (hmethod : request.method = "PUT") :
    Answered env n request owner s ((handlePut env n request owner).run s) := by
  rcases run_handlePut env n request owner s with
    ⟨e, hrefused⟩ | ⟨id, previous, change, hid, hentry, hchange, hrun⟩
  · exact Or.inl ⟨e, hrefused⟩
  · exact Or.inr ⟨_, _, hrun, .updated id previous change hmethod hid hentry hchange⟩

theorem answered_handleDelete (hmethod : request.method = "DELETE") :
    Answered env n request owner s ((handleDelete request owner).run s) := by
  unfold handleDelete
  split
  · exact Or.inl ⟨_, rfl⟩
  rename_i id hid
  rw [Async.run_bind_of_ok (run_getRegistration s)]
  rcases hentry : s.registrationStore.get id with _ | ⟨entryOwner, previous⟩
  · exact Or.inl ⟨_, rfl⟩
  by_cases howner : entryOwner = owner
  · subst howner
    simp only [ne_eq, not_true_eq_false, if_false]
    rw [Async.run_bind_of_ok (Async.run_modify _ s), Async.run_bind_of_ok (Async.run_yield _),
      Async.run_bind_of_ok (run_removeOwnership _), Async.run_bind_of_ok (run_getStore _)]
    have hpolicies : (removeOwned id entryOwner (s.deleteRegistration id)).policies = s.policies :=
      policies_removeOwned id entryOwner _
    refine Or.inr ⟨_, withoutResource id entryOwner s, Prod.ext rfl ?_,
      .deleted id previous hmethod hid hentry⟩
    rw [hpolicies]
    exact removeData_removeOwned id entryOwner s _
  · simp only [howner, ne_eq, not_false_eq_true, if_true]
    exact Or.inl ⟨_, rfl⟩

theorem respond_post (h : request.method = "POST") :
    respond env n request owner = handlePost env n request owner := by
  unfold respond
  simp [h]

theorem respond_put (h : request.method = "PUT") :
    respond env n request owner = handlePut env n request owner := by
  unfold respond
  simp [h]

/-- Every request is refused, or accepted with one of the effects. -/
theorem answered_respond (env : RegistrationEnvironment) (n : Nat) (request : HttpHandlerRequest)
    (owner : String) (s : ServerState) :
    Answered env n request owner s ((respond env n request owner).run s) := by
  unfold respond
  by_cases hget : request.method = "GET"
  · rw [if_pos hget]
    exact answered_handleGet
  rw [if_neg hget]
  by_cases hpost : request.method = "POST"
  · rw [if_pos hpost]
    exact answered_handlePost hpost
  rw [if_neg hpost]
  by_cases hput : request.method = "PUT"
  · rw [if_pos hput]
    exact answered_handlePut hput
  rw [if_neg hput]
  by_cases hdelete : request.method = "DELETE"
  · rw [if_pos hdelete]
    exact answered_handleDelete hdelete
  · rw [if_neg hdelete]
    exact Or.inl ⟨_, rfl⟩

/-! ## Refused requests -/

/-- The checks of a request come before its writes. -/
theorem refused_unchanged (validator : RequestValidator) (env : RegistrationEnvironment) (n : Nat)
    (request : HttpHandlerRequest) (s s' : ServerState) (e : HttpError)
    (h : (handle validator env n request).run s = (.error e, s')) : s' = s := by
  unfold handle at h
  rcases howner : validator request with e' | owner
  · rw [howner] at h
    exact (congrArg Prod.snd h).symm
  · rw [howner, Async.run_bind_of_ok (Async.run_lift _ _)] at h
    rcases answered_respond env n request owner s with ⟨e', hrefused⟩ | ⟨response, s'', hok, -⟩
    · rw [hrefused] at h
      exact (congrArg Prod.snd h).symm
    · rw [hok] at h
      cases congrArg Prod.fst h

/-- A photo with a default for what it contains, and with these relations. -/
def photoRequest (method : String) (relations : Json) : HttpHandlerRequest where
  method
  parameters := [("id", "http://example.org/photo")]
  body := .object [("resource_scopes", .array [.string "urn:example:read"]),
    ("name", .string "http://example.org/photo"),
    ("resource_defaults",
      .object [("urn:example:contains", .array [.string "urn:example:read"])]),
    ("resource_relations", relations)]

def albumContents : CollectionMetadata where
  relation := "urn:example:contains"
  source := "http://example.org/album"
  reverse := false

/-- A PUT of a registered photo that is to be a part of an album, for which
there is no collection: the change of its own collections is computed by then. -/
theorem refused_unchanged_put :
    let validator : RequestValidator := fun _ => .ok "http://example.org/alice"
    let env : RegistrationEnvironment := ⟨fun _ => "uuid", fun _ _ => "b0", fun _ => ""⟩
    let request := photoRequest "PUT" (.object [("@reverse",
      .object [("urn:example:contains", .array [.string "http://example.org/album"])])])
    let s := ((handle validator env 0 (photoRequest "POST" (.object []))).run ServerState.empty).2
    s.registrationStore.has "http://example.org/photo" = true ∧ s.policies.size = 4 ∧
      ((handle validator env 1 request).run s).1 = .error (noMatchingCollection albumContents) ∧
      ((handle validator env 1 request).run s).2 = s := by
  intro validator env request s
  have hkind : (((handle validator env 1 request).run s).1.map fun _ => ()) =
      .error (noMatchingCollection albumContents) := by decide +kernel
  rcases hrun : (handle validator env 1 request).run s with ⟨e | response, s'⟩
  · rw [hrun] at hkind
    injection hkind with he
    subst he
    exact ⟨by decide +kernel, by decide +kernel, rfl,
      refused_unchanged validator env 1 request s s' _ hrun⟩
  · rw [hrun] at hkind
    cases hkind

end ResourceRegistrationRequestHandler

end UserManagedAccess.Routes
