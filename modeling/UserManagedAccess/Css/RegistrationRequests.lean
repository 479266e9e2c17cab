/-
UserManagedAccess.Css.RegistrationRequests — what a resource registration
server makes of the requests of the client.

The client describes a resource by its path, the modes, and its container. A
server on which only such resources are registered, and those of the container
first, accepts them, whatever other requests it handles meanwhile:

- `steps_post` : a POST of a path that is not registered is accepted.
- `steps_put`  : a PUT of a path that is registered is accepted.
-/
import UserManagedAccess.Css.UmaClient
import UserManagedAccess.Lib.Calls
import UserManagedAccess.Rdf.Links
import UserManagedAccess.Routes.ResourceRegistration

namespace UserManagedAccess.Css.UmaClient

open UserManagedAccess.Lib UserManagedAccess.Rdf UserManagedAccess.Util
open UserManagedAccess.Views UserManagedAccess.Ucp
open UserManagedAccess.Routes UserManagedAccess.Routes.ResourceRegistrationRequestHandler

/-! ## The collection of a container -/

/-- The collection of what a container contains. -/
def contained (id : String) : CollectionMetadata where
  relation := "http://www.w3.org/ns/ldp#contains"
  source := id
  reverse := false

/-- There is such a collection. -/
def Collects (policies : Store) (id : String) : Prop := findCollectionIds (contained id) policies ≠ []

theorem collects_iff {policies : Store} {id : String} : Collects policies id ↔
    ∃ c, policies.Linked c ODRL.source (.namedNode id) ∧
      quad c ODRL_P.relation (.namedNode (contained id).relation) ∈ policies := by
  have hfound : findCollectionIds (contained id) policies =
      (policies.getSubjects ODRL.source (Term.namedNode id) none).filter fun c =>
        policies.has (quad c ODRL_P.relation (.namedNode (contained id).relation)) := rfl
  rw [Collects, hfound, ne_eq, ← List.isEmpty_iff, Bool.not_eq_true,
    List.isEmpty_eq_false_iff_exists_mem]
  simp only [List.mem_filter, Store.mem_getSubjects_linked, Store.has_iff]

theorem Collects.mono {policies policies' : Store} {id : String} (h : Collects policies id)
    (hsub : ∀ q ∈ policies, q.predicate ≠ ODRL.partOf → q ∈ policies') : Collects policies' id := by
  obtain ⟨c, ⟨q, hq, hmatch⟩, hrelation⟩ := collects_iff.mp h
  refine collects_iff.mpr ⟨c, ⟨q, hsub q hq ?_, hmatch⟩, hsub _ hrelation ?_⟩
  · rw [hmatch.2.1]
    decide
  · exact (by decide : ODRL_P.relation ≠ ODRL.partOf)

/-! ## The metadata of a description -/

variable {env : RegistrationEnvironment} {n : Nat} {path parent owner : String}
  {relations relations' : Option Json}

/-- The record of at most one entry. -/
def listed (entry : Option CollectionMetadata) : Dict CollectionMetadata :=
  entry.toList.map fun e => (getRelationKey e, e)

/-- The collection a path is the source of. -/
def source? (path id : String) : Option CollectionMetadata :=
  if isContainerIdentifier path then some (contained id) else none

theorem getCollectionMetadata_defaults (id : String) :
    getCollectionMetadata env .resource_defaults (some (describe path relations)) id =
      .ok (listed (source? path id)) := by
  unfold getCollectionMetadata source?
  by_cases hcontainer : isContainerIdentifier path = true
  · have hfield : MetadataField.resource_defaults.of (describe path relations) =
        some (.object [("http://www.w3.org/ns/ldp#contains", .array (MODES.map .string))]) := by
      simp [MetadataField.of, describe, hcontainer]
    rw [Option.bind_some, hfield, if_pos hcontainer]
    rfl
  · simp [describe, hcontainer, MetadataField.of, listed, Dict.empty]

theorem filterRelationEntries_listed {e : CollectionMetadata} (new old : Option CollectionMetadata)
    (hnew : new = none ∨ new = some e) (hold : old = none ∨ old = some e) :
    filterRelationEntries (listed new) (listed old) =
      (listed (if old.isSome then none else new), listed (if new.isSome then none else old)) := by
  rcases hnew with rfl | rfl <;> rcases hold with rfl | rfl <;>
    simp [filterRelationEntries, listed, Dict.get]

/-! ## The change of a request -/

theorem source?_eq (path id : String) :
    source? path id = none ∨ source? path id = some (contained id) := by
  unfold source?
  split
  · exact .inr rfl
  · exact .inl rfl

/-- No collection, or that of a container that has one. -/
def Joinable (policies : Store) (parent : String) (entry : Option CollectionMetadata) : Prop :=
  entry = none ∨ entry = some (contained parent) ∧ Collects policies parent

theorem Joinable.filter {policies : Store} {entry : Option CollectionMetadata} (b : Bool)
    (h : Joinable policies parent entry) :
    Joinable policies parent (if b = true then none else entry) := by
  split
  · exact .inl rfl
  · exact h

theorem generatePartOfTriples_listed {policies : Store} {entry : Option CollectionMetadata}
    (part : Term) (h : Joinable policies parent entry) :
    ∃ quads, generatePartOfTriples part policies ((listed entry).map Prod.snd) = .ok quads ∧
      ∀ q ∈ quads, q.predicate = ODRL.partOf := by
  rcases h with rfl | ⟨rfl, hcollects⟩
  · exact ⟨[], rfl, fun q hq => nomatch hq⟩
  · have hlength : ¬ (findCollectionIds (contained parent) policies).length = 0 := by
      simpa [Collects] using hcollects
    refine ⟨(findCollectionIds (contained parent) policies).map fun c => quad part ODRL.partOf c,
      ?_, fun q hq => ?_⟩
    · simp only [listed, Option.toList_some, List.map_cons, List.map_nil, generatePartOfTriples,
        if_neg hlength]
      exact congrArg Except.ok (List.append_nil _)
    · obtain ⟨c, -, rfl⟩ := List.mem_map.mp hq
      rfl

/-- The relations of a resource with a container that has a collection. -/
def Relates (policies : Store) (parent : String) (relations : Option Json) : Prop :=
  relations = none ∨ relations = some (containedIn parent) ∧ Collects policies parent

theorem Relates.mono {policies policies' : Store} (h : Relates policies parent relations)
    (hcollects : Collects policies parent → Collects policies' parent) :
    Relates policies' parent relations := h.imp_right fun h => ⟨h.1, hcollects h.2⟩

theorem Relates.getCollectionMetadata {policies : Store} (h : Relates policies parent relations)
    (env : RegistrationEnvironment) (path id : String) : ∃ entry, Joinable policies parent entry ∧
      ResourceRegistrationRequestHandler.getCollectionMetadata env .resource_relations
        (some (describe path relations)) id = .ok (listed entry) := by
  rcases h with rfl | ⟨rfl, hcollects⟩
  · exact ⟨none, .inl rfl, rfl⟩
  · exact ⟨some (contained parent), .inr ⟨rfl, hcollects⟩, rfl⟩

/-- What is registered of a resource, if anything is. -/
def Describes (policies : Store) (path parent : String) (previous : Option ResourceDescription) :
    Prop :=
  ∀ description, previous = some description →
    ∃ relations, description = describe path relations ∧ Relates policies parent relations

theorem Describes.mono {policies policies' : Store} {previous : Option ResourceDescription}
    (h : Describes policies path parent previous)
    (hcollects : Collects policies parent → Collects policies' parent) :
    Describes policies' path parent previous := by
  intro description heq
  obtain ⟨relations, hdescription, hrelates⟩ := h description heq
  exact ⟨relations, hdescription, hrelates.mono hcollects⟩

/-- A request adds the collection of a container that is new. -/
theorem updateCollections_describe {policies : Store} {previous : Option ResourceDescription}
    (hprevious : Describes policies path parent previous) :
    updateCollections env n policies path owner (describe path relations) previous =
      .ok { add := createCollections policies owner (fun k => .blankNode (env.blankNode n k)) 0
              (if previous.isSome then [] else (source? path path).toList)
            remove := [] } := by
  have hold : ∃ old, getCollectionMetadata env .resource_defaults previous path = .ok (listed old) ∧
      old = if previous.isSome then source? path path else none := by
    cases previous with
    | none => exact ⟨none, rfl, rfl⟩
    | some description =>
      obtain ⟨relations', rfl, -⟩ := hprevious description rfl
      exact ⟨_, getCollectionMetadata_defaults path, rfl⟩
  obtain ⟨old, hold, rfl⟩ := hold
  unfold updateCollections
  rw [getCollectionMetadata_defaults, hold]
  have hfilter := filterRelationEntries_listed (source? path path)
    (if previous.isSome then source? path path else none) (source?_eq path path) ?_
  · dsimp only [bind, Except.bind]
    rw [hfilter]
    cases previous with
    | none => rcases source?_eq path path with hsource | hsource <;> rw [hsource] <;> rfl
    | some description => rcases source?_eq path path with hsource | hsource <;> rw [hsource] <;> rfl
  · split
    · exact source?_eq path path
    · exact .inl rfl

/-- A request only changes memberships in the collection of the container. -/
theorem updateRelations_describe {policies : Store} {previous : Option ResourceDescription}
    (env : RegistrationEnvironment) (id : String) (hrelations : Relates policies parent relations)
    (hprevious : Describes policies path parent previous) :
    ∃ change, updateRelations env policies id (describe path relations) previous = .ok change ∧
      ∀ q ∈ change.remove, q.predicate = ODRL.partOf := by
  have hold : ∃ old, Joinable policies parent old ∧
      getCollectionMetadata env .resource_relations previous id = .ok (listed old) := by
    cases previous with
    | none => exact ⟨none, .inl rfl, rfl⟩
    | some description =>
      obtain ⟨relations', rfl, hrelations'⟩ := hprevious description rfl
      exact hrelations'.getCollectionMetadata env path id
  obtain ⟨old, hold, hread⟩ := hold
  obtain ⟨new, hnew, hread'⟩ := hrelations.getCollectionMetadata env path id
  obtain ⟨added, hadded, -⟩ := generatePartOfTriples_listed (.namedNode id) (hnew.filter old.isSome)
  obtain ⟨removed, hremoved, hremove⟩ :=
    generatePartOfTriples_listed (.namedNode id) (hold.filter new.isSome)
  unfold updateRelations
  rw [hread', hread]
  dsimp only [bind, Except.bind]
  rw [filterRelationEntries_listed new old (hnew.imp_right And.left) (hold.imp_right And.left)]
  dsimp only
  rw [hadded, hremoved]
  exact ⟨_, rfl, hremove⟩

/-! ## What the client sends -/

theorem assertion_describe (h : relations = none ∨ relations = some (containedIn parent)) :
    ResourceDescription.assertion (describe path relations).toJson = .ok () := by
  cases hcontainer : isContainerIdentifier path <;> rcases h with rfl | rfl <;>
    simp only [describe, hcontainer] <;> rfl

theorem ofJson_describe (h : relations = none ∨ relations = some (containedIn parent)) :
    ResourceDescription.ofJson (describe path relations).toJson = describe path relations := by
  cases hcontainer : isContainerIdentifier path <;> rcases h with rfl | rfl <;>
    simp only [describe, hcontainer] <;> rfl

/-! ## Requests among others -/

/-- What is registered under a path is what the client has sent. -/
structure Rightly (parent owner path : String) (registration : Registration) (s : ServerState) :
    Prop where
  owner : registration.owner = owner
  describes : Describes s.policies path parent (some registration.description)
  collects : isContainerIdentifier path = true → Collects s.policies path

/-- Requests for other paths leave a path as it is. -/
structure Spares (path : String) (s t : ServerState) : Prop where
  registration : t.registrationStore.get path = s.registrationStore.get path
  collects : ∀ id, Collects s.policies id → Collects t.policies id

/-- An update by a request for a path. -/
structure Serves (parent owner path : String) (update : ServerState → ServerState)
    (s : ServerState) : Prop where
  spares : ∀ other, other ≠ path → Spares other s (update s)
  collects : ∀ id, Collects s.policies id → Collects (update s).policies id
  own : (update s).registrationStore.get path = s.registrationStore.get path ∨
    ∃ registration, (update s).registrationStore.get path = some registration ∧
      Rightly parent owner path registration (update s)

/-- The request is accepted, and its path is registered. -/
def Accepts (path : String) (status : Nat) (_ : Bool)
    (r : Except HttpError HttpHandlerResponse) (s : ServerState) : Prop :=
  r = .ok { status, body := registered path } ∧ s.registrationStore.get path ≠ none

theorem Spares.refl (path : String) (s : ServerState) : Spares path s s := ⟨rfl, fun _ => id⟩

theorem Spares.trans {s t u : ServerState} (h : Spares path s t) (h' : Spares path t u) :
    Spares path s u :=
  ⟨h'.registration.trans h.registration, fun id hid => h'.collects id (h.collects id hid)⟩

/-- An update that registers nothing, and drops no collection. -/
theorem Serves.of_policies {update : ServerState → ServerState} {s : ServerState}
    (hstore : (update s).registrationStore = s.registrationStore)
    (hcollects : ∀ id, Collects s.policies id → Collects (update s).policies id) :
    Serves parent owner path update s where
  spares other _ := ⟨congrArg (KeyValueStorage.get · other) hstore, hcollects⟩
  collects := hcollects
  own := .inl (congrArg (KeyValueStorage.get · path) hstore)

theorem Serves.id (s : ServerState) : Serves parent owner path id s :=
  .of_policies rfl fun _ h => h

theorem Rightly.mono {registration : Registration} {s t : ServerState}
    (h : Rightly parent owner path registration s)
    (hcollects : ∀ id, Collects s.policies id → Collects t.policies id) :
    Rightly parent owner path registration t where
  owner := h.owner
  describes := h.describes.mono (hcollects parent)
  collects hcontainer := hcollects path (h.collects hcontainer)

theorem Rightly.name {registration : Registration} {s : ServerState}
    (h : Rightly parent owner path registration s) : registration.description.name = some path := by
  obtain ⟨relations, hdescription, -⟩ := h.describes _ rfl
  rw [hdescription]
  rfl

section Steps

/-- The steps of a request for the path. -/
abbrev PathSteps (parent owner path : String) (status : Nat) (ready : Bool)
    (p : Async ServerState HttpError HttpHandlerResponse) (s : ServerState) : Prop :=
  Async.Steps (Spares path) (Serves parent owner path) (Accepts path status) ready p s

variable {status : Nat} {s : ServerState}

theorem steps_getRegistration {id : String}
    {f : Option Registration → Async ServerState HttpError HttpHandlerResponse}
    (hf : ∀ t, Spares path s t →
      PathSteps parent owner path status true (f (s.registrationStore.get id)) t) :
    PathSteps parent owner path status true (getRegistration id >>= f) s :=
  ⟨rfl, .id s, hf⟩

theorem steps_addQuads {f : Unit → Async ServerState HttpError HttpHandlerResponse}
    (quads : List Quad) (hf : ∀ t, (∀ id, Collects s.policies id → Collects t.policies id) →
      (∀ id, Collects (s.policies.addAll (Store.ofQuads quads)) id → Collects t.policies id) →
      t.registrationStore.get path = s.registrationStore.get path →
      PathSteps parent owner path status true (f ()) t) :
    PathSteps parent owner path status true (addQuads quads >>= f) s := by
  unfold addQuads
  split
  case isTrue hquads =>
    have hcollects : ∀ id, Collects s.policies id →
        Collects (s.addRule (Store.ofQuads quads)).policies id :=
      fun id h => h.mono fun q hq _ => Store.mem_addAll.mpr (.inl hq)
    refine ⟨rfl, .of_policies rfl hcollects, fun t ht => hf t ?_ ht.collects ht.registration⟩
    exact fun id h => ht.collects id (hcollects id h)
  case isFalse hquads =>
    obtain rfl : quads = [] := by simpa using hquads
    exact hf s (fun _ h => h) (fun _ h => h) rfl

theorem steps_removeQuads {f : Unit → Async ServerState HttpError HttpHandlerResponse}
    {quads : List Quad} (hquads : ∀ q ∈ quads, q.predicate = ODRL.partOf)
    (hf : ∀ t, Spares path s t → PathSteps parent owner path status true (f ()) t) :
    PathSteps parent owner path status true (removeQuads quads >>= f) s := by
  unfold removeQuads
  split
  case isTrue =>
    have hcollects : ∀ id, Collects s.policies id →
        Collects (s.removeData (Store.ofQuads quads)).policies id := by
      refine fun id h => h.mono fun q hq hpredicate => Store.mem_difference.mpr ⟨hq, fun hmem => ?_⟩
      exact hpredicate (hquads q (Store.mem_ofQuads.mp hmem))
    refine ⟨rfl, .of_policies rfl hcollects, fun t ht => hf t ⟨ht.registration, fun id h => ?_⟩⟩
    exact ht.collects id (hcollects id h)
  case isFalse => exact hf s (.refl path s)

theorem steps_getStore {f : Store → Async ServerState HttpError HttpHandlerResponse} {ready : Bool}
    (hf : ∀ t, Spares path s t → PathSteps parent owner path status false (f t.policies) t) :
    PathSteps parent owner path status ready (serverPolicies.getStore >>= f) s :=
  fun t ht => ⟨rfl, .id t, hf t ht⟩

/-- The container has a collection before, or it is created. -/
theorem collects_created {policies policies' : Store} {blankNode : Nat → Term} {k : Nat}
    {more : List Quad} (hsub : Collects policies path → Collects policies' path) :
    Collects (policies'.addAll (Store.ofQuads
      (createCollections policies owner blankNode k (some (contained path)).toList ++ more)))
        path := by
  by_cases hfound : Collects policies path
  · exact (hsub hfound).mono fun q hq _ => Store.mem_addAll.mpr (.inl hq)
  · have hlength : ¬ (findCollectionIds (contained path) policies).length > 0 := by
      simpa [Collects] using hfound
    have hcreated : ∀ q ∈ generateCollectionTriples (contained path) owner (collectionId (contained path))
        (blankNode k), q ∈ policies'.addAll (Store.ofQuads (createCollections policies owner blankNode k
          (some (contained path)).toList ++ more)) := by
      intro q hq
      refine Store.mem_addAll.mpr (.inr (Store.mem_ofQuads.mpr (List.mem_append_left _ ?_)))
      rw [Option.toList_some, createCollections, if_neg hlength]
      exact List.mem_append_left _ hq
    refine collects_iff.mpr ⟨collectionId (contained path),
      Store.linked_of_mem (hcreated _ ?_), hcreated _ ?_⟩
    · simp [generateCollectionTriples, contained]
    · simp [generateCollectionTriples, contained]

theorem steps_lift {α : Type} {a : α} {f : α → Async ServerState HttpError HttpHandlerResponse}
    {ready : Bool} (hf : PathSteps parent owner path status ready (f a) s) :
    PathSteps parent owner path status ready
      ((liftM (.ok a : Except HttpError α) : Async ServerState HttpError α) >>= f) s := hf

theorem steps_setResourceMetadata {f : Unit → Async ServerState HttpError HttpHandlerResponse}
    {previous : Option ResourceDescription} (hrelations : Relates s.policies parent relations)
    (hprevious : Describes s.policies path parent previous)
    (hself : previous.isSome → isContainerIdentifier path = true → Collects s.policies path)
    (hf : ∀ t, t.registrationStore.get path ≠ none →
      PathSteps parent owner path status true (f ()) t) :
    PathSteps parent owner path status true
      (setResourceMetadata env n path (describe path relations) owner previous >>= f) s := by
  unfold setResourceMetadata
  simp only [Async.bind_assoc]
  refine steps_getStore fun t₁ h₁ => ?_
  rw [updateCollections_describe (hprevious.mono (h₁.collects parent))]
  refine steps_lift ?_
  refine steps_getStore fun t₂ h₂ => ?_
  have h₀ := h₁.trans h₂
  obtain ⟨change, hchange, hremove⟩ := updateRelations_describe env path
    (hrelations.mono (h₀.collects parent)) (hprevious.mono (h₀.collects parent))
  rw [hchange]
  refine steps_lift (Async.Steps.yield fun t₃ h₃ => ?_)
  refine steps_addQuads _ fun t₄ hold hnew hget => ?_
  refine steps_removeQuads hremove fun t₅ h₅ => ?_
  have hderived : removedDerivedIds (describe path relations) previous = [] := by
    cases previous with
    | none => rfl
    | some description =>
      obtain ⟨relations', rfl, -⟩ := hprevious description rfl
      rfl
  rw [hderived]
  have hcollects : ∀ id, Collects s.policies id → Collects t₅.policies id :=
    fun id h => h₅.collects id (hold id (h₃.collects id (h₀.collects id h)))
  refine Async.Steps.modify ⟨fun other hother => ⟨?_, fun _ h => h⟩, fun _ h => h, .inr ?_⟩
    fun t₆ h₆ => hf t₆ ?_
  · exact (KeyValueStorage.get_set ..).trans (if_neg hother)
  · refine ⟨_, (KeyValueStorage.get_set ..).trans (if_pos rfl), rfl, ?_, fun hcontainer => ?_⟩
    · rintro description ⟨⟩
      exact ⟨relations, rfl, hrelations.mono (hcollects parent)⟩
    · show Collects t₅.policies path
      cases previous with
      | some description => exact hcollects path (hself rfl hcontainer)
      | none =>
        refine h₅.collects path (hnew path ?_)
        have hsource : source? path path = some (contained path) := if_pos hcontainer
        rw [hsource]
        exact collects_created ((h₂.trans h₃).collects path)
  · rw [h₆.registration]
    exact ne_of_eq_of_ne ((KeyValueStorage.get_set ..).trans (if_pos rfl)) (Option.some_ne_none _)

/-- What is left of a POST that has registered the path. -/
theorem steps_ownership (hregistered : s.registrationStore.get path ≠ none) :
    PathSteps parent owner path 201 true (do
      Async.yield
      let array ← ownedArray owner
      Async.modify (ServerState.pushOwnership owner array path)
      Async.yield
      return { status := 201, body := registered path }) s := by
  refine fun t₁ h₁ => ⟨rfl, .id t₁, fun t₂ h₂ => ?_⟩
  refine ⟨rfl, .of_policies rfl fun _ h => h, fun t₃ h₃ => ⟨rfl, ?_⟩⟩
  rw [h₃.registration]
  have hget : t₂.registrationStore.get path = s.registrationStore.get path :=
    h₂.registration.trans h₁.registration
  exact ne_of_eq_of_ne hget hregistered

theorem steps_newResource {f : String → Async ServerState HttpError HttpHandlerResponse}
    (hpath : path ≠ "") (hnew : s.registrationStore.get path = none)
    (hf : ∀ t, Spares path s t → PathSteps parent owner path status true (f path) t) :
    PathSteps parent owner path status true
      (newResource env n (describe path relations) >>= f) s := by
  have hname : (describe path relations).name.filter (· ≠ "") = some path := by
    simp [describe, hpath]
  unfold newResource
  rw [hname]
  refine ⟨rfl, .id s, fun t ht => ?_⟩
  have hfree : ¬ s.registrationStore.has path = true := by
    have hhas : s.registrationStore.has path = (s.registrationStore.get path).isSome := rfl
    simp [hhas, hnew]
  show PathSteps parent owner path status true
    ((if s.registrationStore.has path = true then _ else _) >>= f) t
  rw [if_neg hfree]
  exact hf t ht

end Steps

/-! ## The requests of the client -/

/-- The request as it arrives. -/
def httpRequest (request : ResourceRequest) : HttpHandlerRequest where
  method := if request.update then "PUT" else "POST"
  parameters := request.knownUmaId.toList.map fun id => ("id", id)
  body := request.description.toJson

theorem steps_post {request : ResourceRequest} {s : ServerState}
    (hupdate : request.update = false) (hpath : path ≠ "")
    (hdescription : request.description = describe path relations)
    (hnew : s.registrationStore.get path = none) (hrelations : Relates s.policies parent relations) :
    PathSteps parent owner path 201 true (respond env n (httpRequest request) owner) s := by
  have hrespond : respond env n (httpRequest request) owner =
      handlePost env n (httpRequest request) owner := by
    simp [respond, httpRequest, hupdate]
  have hbody : (httpRequest request).body = (describe path relations).toJson :=
    congrArg ResourceDescription.toJson hdescription
  have hknown := hrelations.imp_right And.left
  rw [hrespond]
  unfold handlePost
  rw [hbody, assertion_describe hknown, ofJson_describe hknown]
  refine steps_newResource hpath hnew fun t₁ h₁ => ?_
  exact steps_setResourceMetadata (hrelations.mono (h₁.collects parent)) nofun nofun
    fun t₂ h₂ => steps_ownership h₂

theorem steps_put {request : ResourceRequest} {registration : Registration} {s : ServerState}
    (hknown : request.knownUmaId = some path)
    (hdescription : request.description = describe path relations)
    (hregistered : s.registrationStore.get path = some registration)
    (hrightly : Rightly parent owner path registration s)
    (hrelations : Relates s.policies parent relations) :
    PathSteps parent owner path 200 true (respond env n (httpRequest request) owner) s := by
  have hrespond : respond env n (httpRequest request) owner =
      handlePut env n (httpRequest request) owner := by
    simp [respond, httpRequest, ResourceRequest.update, hknown]
  have hbody : (httpRequest request).body = (describe path relations).toJson :=
    congrArg ResourceDescription.toJson hdescription
  have hid : (httpRequest request).parameters.get "id" = some path := by
    simp [httpRequest, hknown, Dict.get]
  have hrelates := hrelations.imp_right And.left
  rw [hrespond]
  unfold handlePut
  rw [hid, hbody, assertion_describe hrelates, ofJson_describe hrelates]
  refine steps_getRegistration fun t₁ h₁ => ?_
  obtain ⟨howner, hdescribes, hcollects⟩ := hrightly
  obtain ⟨owner', previous⟩ := registration
  cases howner
  rw [hregistered]
  dsimp only
  rw [if_neg (not_not_intro rfl)]
  exact steps_setResourceMetadata (hrelations.mono (h₁.collects parent))
    (hdescribes.mono (h₁.collects parent))
    (fun _ hcontainer => h₁.collects path (hcollects hcontainer))
    fun t₂ h₂ t₃ h₃ => ⟨rfl, h₃.registration ▸ h₂⟩

end UserManagedAccess.Css.UmaClient
