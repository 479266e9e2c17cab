/-
UserManagedAccess.Routes.CollectionCreatorTheorems — the creators of relation
collections and the owners of their sources.

A collection gets the owner of the request that creates it as its creator, and
stays when its source is deleted. The next one to register that resource finds
it and leaves it as it is. `CreatorsKept` is the condition under which an
update leaves every collection with the owner of its source.

* `createdBy_update` — the creators of a collection after an update;
* `creatorsOwn_step` — over one effect of a request, of whichever method;
* `creatorsOwn_of_kept` — in every run whose requests keep it;
* `creator_of_deleted_container` — a collection that outlives its owner's
  registration.

Runs start with empty stores. Nothing is assumed of blank nodes and identifiers.
-/
import UserManagedAccess.Routes.CollectionUpdates
import UserManagedAccess.Routes.RegistrationRuns

namespace UserManagedAccess.Routes

open UserManagedAccess.Lib UserManagedAccess.Rdf UserManagedAccess.Util
open UserManagedAccess.Views UserManagedAccess.Ucp

namespace ResourceRegistrationRequestHandler

/-! ## The property -/

/-- The owner is the one creator of the collection. -/
def CreatedBy (s : Store) (c : Term) (owner : String) : Prop :=
  ∀ x, s.Linked c DC.creator x ↔ x = .namedNode owner

/-- A collection with a registered source was created by the owner of it. -/
def CreatorsOwn (s : ServerState) : Prop :=
  ∀ r registration c, s.registrationStore.get r = some registration →
    s.policies.Linked c ODRL.source (.namedNode r) → CreatedBy s.policies c registration.owner

/-! ## Requests that keep it -/

/-- The collections a new resource is already the source of are its owner's,
no other creator has the identifier of a new collection, and no collection
that is dropped has another registered source. -/
structure CreatorsKept (env : RegistrationEnvironment) (s : ServerState) (id owner : String)
    (description : ResourceDescription) (previous : Option ResourceDescription) : Prop where
  sourced : previous = none → ∀ c, s.policies.Linked c ODRL.source (.namedNode id) →
    CreatedBy s.policies c owner
  created : ∀ e ∈ defaults env (some description) id, e ∉ defaults env previous id →
    findCollectionIds e s.policies = [] →
      ∀ x, s.policies.Linked (collectionId e) DC.creator x → x = .namedNode owner
  dropped : ∀ e ∈ defaults env previous id, e ∉ defaults env (some description) id →
    ∀ c ∈ findCollectionIds e s.policies, (∀ a, ¬ s.policies.Linked a ODRL.partOf c) →
      ∀ r registration, r ≠ id → s.registrationStore.get r = some registration →
        ¬ s.policies.Linked c ODRL.source (.namedNode r)

def KeepsCreators (env : RegistrationEnvironment) (n : Nat) (r : RegistrationRequest)
    (s : ServerState) : Prop :=
  UpdateMeets env n r s fun id previous =>
    CreatorsKept env s id r.owner (described r.request) previous

/-! ## Steps -/

section Update

variable {env : RegistrationEnvironment} {n : Nat} {s : ServerState} {id owner : String}
  {description : ResourceDescription} {previous : Option ResourceDescription}
  {entries : ChangedEntries} {change : QuadChange} {c : Term}

/-- The creators of a collection that is not dropped, after an update. -/
theorem createdBy_update (hchange : Change env n s.policies id owner entries change)
    (hplain : s.policies.Plain)
    (hkept : ∀ e ∈ entries.dropped, c ∉ findCollectionIds e s.policies)
    (hcreator : CreatedBy s.policies c owner ∨
      ((∀ x, s.policies.Linked c DC.creator x → x = .namedNode owner) ∧
        ∃ k e, entries.Creates s.policies k e ∧ c = collectionId e)) :
    CreatedBy (updatePolicies change s.policies) c owner := by
  intro x
  have hnot : ¬ ∃ e ∈ entries.dropped, c ∈ findCollectionIds e s.policies ∧
      x = .namedNode owner := by
    rintro ⟨e, he, hc, -⟩
    exact hkept e he hc
  rw [hchange.linked_creator hplain, and_iff_left hnot]
  rcases hcreator with hold | ⟨hsame, k, e, hcreates, hc⟩
  · rw [hold x]
    refine or_iff_left_of_imp ?_
    rintro ⟨k, e, -, -, hx⟩
    exact hx
  · constructor
    · rintro (hx | ⟨k', e', -, -, hx⟩)
      · exact hsame x hx
      · exact hx
    · exact fun hx => Or.inr ⟨k, e, hcreates, hc, hx⟩

theorem creatorsOwn_withMetadata (hplain : s.policies.Plain) (hown : CreatorsOwn s)
    (hsourced : ∀ c, s.policies.Linked c ODRL.source (.namedNode id) →
      CreatedBy s.policies c owner)
    (hchange : metadataChange env n s.policies id owner description previous = .ok change)
    (hkept : CreatorsKept env s id owner description previous) :
    CreatorsOwn (withMetadata id owner description previous change s) := by
  obtain ⟨entries, hcompares, hchange⟩ := metadataChange_ok hchange
  have hsource : ∀ {e}, e ∈ entries.added ∨ e ∈ entries.dropped → e.source = id := by
    rintro e (he | he)
    · exact source_of_defaults e ((hcompares.added e).mp he).1
    · exact source_of_defaults e ((hcompares.dropped e).mp he).1
  have hcreated : ∀ {k e}, entries.Creates s.policies k e →
      ∀ x, s.policies.Linked (collectionId e) DC.creator x → x = .namedNode owner := by
    intro k e hcreates
    obtain ⟨hnew, hold⟩ := (hcompares.added e).mp (List.mem_of_getElem? hcreates.1)
    exact hkept.created e hnew hold hcreates.2
  intro r registration c hget hlinked
  rw [registrationStore_withMetadata] at hget
  obtain ⟨hadded, hnotDropped⟩ := (hchange.linked_source hplain).mp hlinked
  by_cases hr : r = id
  · subst hr
    rw [if_pos rfl] at hget
    injection hget with hget
    subst hget
    refine createdBy_update hchange hplain (fun e he hc => ?_) ?_
    · exact hnotDropped ⟨e, he, hc, by rw [hsource (Or.inr he)]⟩
    · rcases hadded with hold | ⟨k, e, hcreates, rfl, -⟩
      · exact Or.inl (hsourced c hold)
      · exact Or.inr ⟨hcreated hcreates, k, e, hcreates, rfl⟩
  · rw [if_neg hr] at hget
    have hold : s.policies.Linked c ODRL.source (.namedNode r) := by
      rcases hadded with hold | ⟨k, e, hcreates, -, hx⟩
      · exact hold
      · injection hx with hx
        exact absurd (hx.trans (hsource (Or.inl (List.mem_of_getElem? hcreates.1)))) hr
    have hnone : ∀ e ∈ entries.dropped, c ∉ findCollectionIds e s.policies := by
      intro e he hc
      obtain ⟨hdefault, hgone⟩ := (hcompares.dropped e).mp he
      exact hkept.dropped e hdefault hgone c hc (hchange.removable e he c hc) r registration hr
        hget hold
    have hbefore := hown r registration c hget hold
    by_cases hexists : ∃ k e, entries.Creates s.policies k e ∧ c = collectionId e
    · -- the owner is the only creator there was, so the two owners are one
      obtain ⟨k, e, hcreates, rfl⟩ := hexists
      have howner : Term.namedNode registration.owner = .namedNode owner :=
        hcreated hcreates _ ((hbefore _).mpr rfl)
      injection howner with howner
      rw [howner] at hbefore ⊢
      exact createdBy_update hchange hplain hnone (Or.inl hbefore)
    · intro x
      have hunchanged : (updatePolicies change s.policies).Linked c DC.creator x ↔
          s.policies.Linked c DC.creator x := by
        rw [hchange.linked_creator hplain]
        constructor
        · rintro ⟨hx | ⟨k, e, hcreates, hc, -⟩, -⟩
          · exact hx
          · exact absurd ⟨k, e, hcreates, hc⟩ hexists
        · refine fun hx => ⟨Or.inl hx, ?_⟩
          rintro ⟨e, he, hc, -⟩
          exact hnone e he hc
      exact hunchanged.trans (hbefore x)

end Update

theorem creatorsOwn_withoutResource {s : ServerState} (id owner : String)
    (hown : CreatorsOwn s) : CreatorsOwn (withoutResource id owner s) := by
  intro r registration c hget hsource
  rw [registrationStore_withoutResource] at hget
  by_cases hr : r = id
  · rw [if_pos hr] at hget
    cases hget
  · rw [if_neg hr] at hget
    have hbefore := hown r registration c hget (linked_withoutResource.mp hsource).1
    intro x
    rw [linked_withoutResource, hbefore x]
    exact and_iff_left (fun h => absurd h.2 (by decide))

theorem creatorsOwn_step {env : RegistrationEnvironment} {n : Nat} {r : RegistrationRequest}
    {s : ServerState} (hinv : s.policies.Plain ∧ CreatorsOwn s) (hkeeps : KeepsCreators env n r s) :
    (step env n r s).policies.Plain ∧ CreatorsOwn (step env n r s) := by
  obtain ⟨hplain, hown⟩ := hinv
  have heffect := step_effect env n r s
  generalize step env n r s = s' at heffect ⊢
  cases heffect with
  | read => exact ⟨hplain, hown⟩
  | posted id change hmethod hnew hchange =>
    have hkept := hkeeps.posted hmethod id hnew
    obtain ⟨entries, -, hupdate⟩ := metadataChange_ok hchange
    exact ⟨hupdate.plain hplain,
      creatorsOwn_withMetadata hplain hown (hkept.sourced rfl) hchange hkept⟩
  | updated id previous change hmethod hid hentry hchange =>
    have hkept := hkeeps.updated hmethod id previous hid hentry
    obtain ⟨entries, -, hupdate⟩ := metadataChange_ok hchange
    exact ⟨hupdate.plain hplain, creatorsOwn_withMetadata hplain hown
      (fun c hsource => hown id _ c hentry hsource) hchange hkept⟩
  | deleted id previous hmethod hid hentry =>
    exact ⟨fun q hq => hplain q (mem_withoutResource.mp hq).1,
      creatorsOwn_withoutResource id r.owner hown⟩

/-- In a run whose requests keep it, collections belong to the owners of their
sources. -/
theorem creatorsOwn_of_kept (env : RegistrationEnvironment) (requests : List RegistrationRequest)
    (hkeeps : Throughout (step env) (KeepsCreators env) 0 requests ServerState.empty) :
    CreatorsOwn (runAll env requests) := by
  have hempty : ServerState.empty.policies.Plain ∧ CreatorsOwn ServerState.empty := by
    refine ⟨fun q hq => absurd hq (Store.not_mem_empty q), ?_⟩
    intro r registration c hget
    cases hget
  exact (runFrom_invariant (fun _ s => s.policies.Plain ∧ CreatorsOwn s)
    (fun n r s hinv hcond => creatorsOwn_step hinv hcond) hempty hkeeps).2

/-! ## Examples -/

/-- Registering a container in empty stores. -/
theorem keepsCreators_container : KeepsCreators countedBlankNodes 0
    (containerRequest alice "POST") ServerState.empty := by
  refine ⟨fun _ id _ => ⟨?_, ?_, ?_⟩, fun h => absurd h (by decide)⟩
  · rintro _ c ⟨q, hq, -⟩
    cases hq
  · rintro e _ _ _ x ⟨q, hq, -⟩
    cases hq
  · intro e he
    cases he

/-- Registering a resource in it, too. -/
theorem creatorsOwn_of_kept_container : CreatorsOwn (runAll countedBlankNodes
    [containerRequest alice "POST", containedRequest "POST" "http://example.org/child"]) := by
  refine creatorsOwn_of_kept countedBlankNodes _ ⟨keepsCreators_container, ?_, trivial⟩
  refine ⟨fun _ id hnew => ⟨?_, ?_, ?_⟩, fun h => absurd h (by decide)⟩
  · have hid : id = "http://example.org/child" := by
      rcases hnew with ⟨hname, -, -⟩ | ⟨hname, -⟩
      · injection hname with hname
        exact hname.symm
      · cases hname
    subst hid
    rintro _ c ⟨q, hq, -, hp, ho⟩
    have hother : ∀ q ∈ (step countedBlankNodes 0 (containerRequest alice "POST")
        ServerState.empty).policies.quads, q.predicate = ODRL.source →
          q.object ≠ .namedNode "http://example.org/child" := by
      decide +kernel
    exact absurd ho (hother q hq hp)
  · intro e he
    cases he
  · intro e he
    cases he

/-- A container that is registered by somebody else after it was deleted. -/
theorem creator_of_deleted_container : ¬ ∀ env requests,
    Throughout (step env) (FreshIdentifier env) 0 requests ServerState.empty →
      CreatorsOwn (runAll env requests) := by
  intro hclaim
  let requests := [containerRequest alice "POST", containerRequest alice "DELETE",
    containerRequest bob "POST"]
  have hown : CreatorsOwn (runAll countedBlankNodes requests) :=
    hclaim countedBlankNodes requests ⟨rfl, rfl, rfl, trivial⟩
  have hsource : (runAll countedBlankNodes requests).policies.Linked (collectionId containment)
      ODRL.source (.namedNode "http://example.org/") := by
    decide +kernel
  have hcreator : (runAll countedBlankNodes requests).policies.Linked (collectionId containment)
      DC.creator (.namedNode alice) := by
    decide +kernel
  have howner := (hown "http://example.org/" _ _ rfl hsource (.namedNode alice)).mp hcreator
  exact absurd howner (by decide)

end ResourceRegistrationRequestHandler

end UserManagedAccess.Routes
