/-
UserManagedAccess.Routes.CustomCollectionTheorems — asset collections of users
and the resources their creators own.

The parts of an asset collection are checked when it is written, and not
again. What keeps them in order is the other endpoint: a resource that leaves
the list of its owner leaves every collection, and no update of a resource
touches a collection without a relation (`custom_before_update`).

* `membersOwned_update`, `membersOwned_withoutResource` — the registration
  endpoint;
* `customOwned_rewritten` — the collection endpoint: a POST, a PUT and a DELETE
  all rewrite what is said about one collection;
* `customCollectionsOwned_run` — runs that mix both, in any order.

The URL of a new collection is taken to be new (`FreshUrl`), as it has a random
UUID. Requests are handled one after the other.
-/
import UserManagedAccess.Routes.CollectionTheorems
import UserManagedAccess.Routes.CollectionUpdates
import UserManagedAccess.Routes.RegistrationRuns

namespace UserManagedAccess.Routes

open UserManagedAccess.Lib UserManagedAccess.Rdf UserManagedAccess.Util
open UserManagedAccess.Views UserManagedAccess.Ucp

/-! ## Runs of both endpoints -/

structure CollectionRequest where
  userId : String
  request : HttpHandlerRequest

inductive ServerRequest where
  | registration (r : RegistrationRequest)
  | collection (r : CollectionRequest)

structure ServerEnvironment where
  registration : RegistrationEnvironment
  collection : CollectionEnvironment

namespace CollectionRequestHandler

open ResourceRegistrationRequestHandler (QuadChange ChangedEntries Change Related metadataChange_ok
  updatePolicies withMetadata withoutResource blank collectionId relationObject findCollectionIds
  mem_findCollectionIds relation_generated linked_withoutResource mem_withoutResource
  owned_withoutResource)

/-- The state after a request, whatever it was answered. -/
def serverStep (env : ServerEnvironment) (n : Nat) (r : ServerRequest) (s : ServerState) :
    ServerState :=
  match r with
  | .registration r => ResourceRegistrationRequestHandler.step env.registration n r s
  | .collection r => ((respond env.collection n r.request r.userId).run s).2

/-- The URL a new collection gets is not in the store yet. -/
def FreshUrl (env : ServerEnvironment) (n : Nat) (r : ServerRequest) (s : ServerState) : Prop :=
  match r with
  | .registration _ => True
  | .collection r => r.request.method = "POST" →
    s.policies.Unmentioned (.namedNode (newUrl env.collection n r.request))

/-! ## The property -/

/-- An asset collection that is no relation collection. -/
structure Custom (store : Store) (c : Term) : Prop where
  typed : store.Linked c RDF.type ODRL.AssetCollection
  custom : ∀ x, ¬ store.Linked c ODRL_P.relation x

/-- The collection has one creator, who owns its members. -/
def MembersOwned (s : ServerState) (c : Term) : Prop :=
  ∃ creator, (∀ x, s.policies.Linked c DC.creator x ↔ x = .namedNode creator) ∧
    ∀ a, s.policies.Linked a ODRL.partOf c → ∃ r ∈ s.owned creator, a = .namedNode r

def CustomCollectionsOwned (s : ServerState) : Prop :=
  ∀ c, Custom s.policies c → MembersOwned s c

/-- A collection with the same creators, no new members, and no fewer owned
resources among them. -/
theorem MembersOwned.mono {s t : ServerState} {c : Term} (h : MembersOwned s c)
    (hcreator : ∀ x, t.policies.Linked c DC.creator x ↔ s.policies.Linked c DC.creator x)
    (hmembers : ∀ a, t.policies.Linked a ODRL.partOf c → s.policies.Linked a ODRL.partOf c)
    (howned : ∀ creator r, t.policies.Linked (.namedNode r) ODRL.partOf c → r ∈ s.owned creator →
      r ∈ t.owned creator) : MembersOwned t c := by
  obtain ⟨creator, honly, hall⟩ := h
  refine ⟨creator, fun x => (hcreator x).trans (honly x), fun a ha => ?_⟩
  obtain ⟨r, hr, rfl⟩ := hall a (hmembers a ha)
  exact ⟨r, howned creator r ha hr, rfl⟩

/-! ## Registration requests -/

section Registration

variable {env : RegistrationEnvironment} {n : Nat} {s : ServerState} {id owner : String}
  {entries : ChangedEntries} {change : QuadChange} {c : Term}

/-- A custom collection was one before an update of a resource, and the update
creates, drops and joins other collections. -/
theorem custom_before_update (hchange : Change env n s.policies id owner entries change)
    (hplain : s.policies.Plain) (hcustom : Custom (updatePolicies change s.policies) c) :
    Custom s.policies c ∧ (∀ e, c ∉ findCollectionIds e s.policies) ∧
      ∀ k e, entries.Creates s.policies k e → c ≠ collectionId e := by
  obtain ⟨hadded, hkept⟩ := (hchange.linked_type hplain).mp hcustom.typed
  have hnotDropped : ∀ e ∈ entries.dropped, c ∉ findCollectionIds e s.policies :=
    fun e he hc => hkept ⟨e, he, hc, rfl⟩
  -- the type goes with the relation, so that a relation that is gone was not there
  have hstays : ∀ x, quad c ODRL_P.relation x ∉ change.remove := by
    intro x hx
    rcases hchange.mem_remove _ hx with ⟨e, he, c', hc', k, -, hq⟩ | ⟨e, -, c', -, hq⟩
    · obtain ⟨rfl, -⟩ := relation_generated.mp hq
      exact hnotDropped e he hc'
    · exact absurd (quad_inj.mp hq).2.1 (by decide)
  have hnotCreated : ∀ k e, entries.Creates s.policies k e → c ≠ collectionId e := by
    rintro k e hcreates rfl
    refine hcustom.custom (relationObject e (blank env n k))
      ((hchange.linked_iff hplain).mpr ⟨Or.inr ?_, hstays _⟩)
    exact (hchange.added_iff (by decide)).mpr ⟨k, e, hcreates, relation_generated.mpr ⟨rfl, rfl⟩⟩
  have hnoRelation : ∀ x, ¬ s.policies.Linked c ODRL_P.relation x := fun x hx =>
    hcustom.custom x ((hchange.linked_iff hplain).mpr ⟨Or.inl hx, hstays x⟩)
  refine ⟨⟨?_, hnoRelation⟩, fun e hc => ?_, hnotCreated⟩
  · rcases hadded with hold | ⟨k, e, hcreates, hc, -⟩
    · exact hold
    · exact absurd hc (hnotCreated k e hcreates)
  · have hrelated := ((mem_findCollectionIds hplain).mp hc).2
    unfold Related at hrelated
    by_cases hreverse : e.reverse = true
    · rw [if_pos hreverse] at hrelated
      obtain ⟨b, hb, -⟩ := hrelated
      exact hnoRelation b hb
    · rw [if_neg hreverse] at hrelated
      exact hnoRelation _ hrelated

theorem membersOwned_update (hchange : Change env n s.policies id owner entries change)
    (hplain : s.policies.Plain) (howned : CustomCollectionsOwned s) {t : ServerState}
    (hpolicies : t.policies = updatePolicies change s.policies)
    (hlists : ∀ creator r, r ∈ s.owned creator → r ∈ t.owned creator)
    (hcustom : Custom t.policies c) : MembersOwned t c := by
  rw [hpolicies] at hcustom
  obtain ⟨hbefore, hnotFound, hnotCreated⟩ := custom_before_update hchange hplain hcustom
  refine (howned c hbefore).mono ?_ ?_ (fun creator r _ hr => hlists creator r hr)
  · intro x
    rw [hpolicies, hchange.linked_creator hplain]
    constructor
    · rintro ⟨hold | ⟨k, e, hcreates, hc, -⟩, -⟩
      · exact hold
      · exact absurd hc (hnotCreated k e hcreates)
    · refine fun hold => ⟨Or.inl hold, ?_⟩
      rintro ⟨e, -, hc, -⟩
      exact hnotFound e hc
  · intro a ha
    rw [hpolicies] at ha
    rcases ((hchange.linked_partOf hplain).mp ha).1 with hold | ⟨-, e, -, hc⟩
    · exact hold
    · exact absurd hc (hnotFound e)

theorem membersOwned_withoutResource (howned : CustomCollectionsOwned s)
    (hcustom : Custom (withoutResource id owner s).policies c) :
    MembersOwned (withoutResource id owner s) c := by
  have hbefore : Custom s.policies c := by
    refine ⟨(linked_withoutResource.mp hcustom.typed).1, fun x hx => ?_⟩
    exact hcustom.custom x (linked_withoutResource.mpr ⟨hx, fun h => absurd h.2 (by decide)⟩)
  refine (howned c hbefore).mono ?_ ?_ ?_
  · intro x
    rw [linked_withoutResource]
    exact and_iff_left (fun h => absurd h.2 (by decide))
  · exact fun a ha => (linked_withoutResource.mp ha).1
  · intro creator r hmember hr
    -- the resource that leaves the list is no member any more
    have hother : r ≠ id := fun h =>
      (linked_withoutResource.mp hmember).2 ⟨congrArg Term.namedNode h, rfl⟩
    rw [owned_withoutResource]
    by_cases hcreator : creator = owner
    · rw [if_pos hcreator, List.mem_erase_of_ne hother, ← hcreator]
      exact hr
    · rw [if_neg hcreator]
      exact hr

end Registration

/-! ## Collection requests -/

section Collection

variable {userId : String} {subject c : Term} {description : CollectionDescription} {a x : Term}

theorem type_toQuads : quad a RDF.type x ∈ description.toQuads userId subject ↔
    a = subject ∧ x = description.type := by
  rw [CollectionDescription.mem_toQuads]
  constructor
  · rintro (hq | htext | ⟨owner, -, hq⟩ | ⟨part, -, hq⟩)
    · obtain ⟨ha, -, hx⟩ := quad_inj.mp hq
      exact ⟨ha, hx⟩
    · obtain ⟨y, hq⟩ := CollectionDescription.mem_textQuads htext
      exact absurd (quad_inj.mp hq).2.1 (by decide)
    · exact absurd (quad_inj.mp hq).2.1 (by decide)
    · exact absurd (quad_inj.mp hq).2.1 (by decide)
  · rintro ⟨rfl, rfl⟩
    exact Or.inl rfl

theorem creator_toQuads : quad a DC.creator x ∈ description.toQuads userId subject ↔
    a = subject ∧ ∃ owner ∈ description.creators userId, x = .namedNode owner := by
  rw [CollectionDescription.mem_toQuads]
  constructor
  · rintro (hq | htext | ⟨owner, howner, hq⟩ | ⟨part, -, hq⟩)
    · exact absurd (quad_inj.mp hq).2.1 (by decide)
    · obtain ⟨y, hq⟩ := CollectionDescription.mem_textQuads htext
      exact absurd (quad_inj.mp hq).2.1 (by decide)
    · obtain ⟨ha, -, hx⟩ := quad_inj.mp hq
      exact ⟨ha, owner, howner, hx⟩
    · exact absurd (quad_inj.mp hq).2.1 (by decide)
  · rintro ⟨rfl, owner, howner, rfl⟩
    exact Or.inr (Or.inr (Or.inl ⟨owner, howner, rfl⟩))

theorem partOf_toQuads : quad a ODRL.partOf x ∈ description.toQuads userId subject ↔
    x = subject ∧ ∃ part ∈ description.parts, a = .namedNode part := by
  rw [CollectionDescription.mem_toQuads]
  constructor
  · rintro (hq | htext | ⟨owner, -, hq⟩ | ⟨part, hpart, hq⟩)
    · exact absurd (quad_inj.mp hq).2.1 (by decide)
    · obtain ⟨y, hq⟩ := CollectionDescription.mem_textQuads htext
      exact absurd (quad_inj.mp hq).2.1 (by decide)
    · exact absurd (quad_inj.mp hq).2.1 (by decide)
    · obtain ⟨ha, -, hx⟩ := quad_inj.mp hq
      exact ⟨hx, part, hpart, ha⟩
  · rintro ⟨rfl, part, hpart, rfl⟩
    exact Or.inr (Or.inr (Or.inr ⟨part, hpart, rfl⟩))

/-- The quads about the collection are the given ones, and all others are as
they were. -/
structure Rewritten (subject : Term) (quads : List Quad) (s t : ServerState) : Prop where
  plain : t.policies.Plain
  owned : t.owned = s.owned
  described : ∀ q, About subject q → (q ∈ t.policies ↔ q ∈ quads)
  others : ∀ q, ¬ About subject q → (q ∈ t.policies ↔ q ∈ s.policies)

variable {s t : ServerState} {quads : List Quad}

/-- The collection that was described. -/
theorem membersOwned_described
    (h : Rewritten subject (description.toQuads userId subject) s t)
    (hmay : MayDescribe s userId description) (hcustom : Custom t.policies subject) :
    MembersOwned t subject := by
  have htyped := h.plain.linked_iff.mp hcustom.typed
  have htype := (type_toQuads.mp ((h.described _ (Or.inl rfl)).mp htyped)).2
  cases description with
  | party text owners parts =>
    have hparty : ODRL.AssetCollection = ODRL.PartyCollection := htype
    exact absurd hparty (by decide)
  | asset text parts =>
    refine ⟨userId, fun x => ?_, fun a ha => ?_⟩
    · rw [h.plain.linked_iff, h.described _ (Or.inl rfl), creator_toQuads]
      simp [CollectionDescription.creators]
    · have hmember := (h.described _ (Or.inr ⟨rfl, rfl⟩)).mp (h.plain.linked_iff.mp ha)
      obtain ⟨-, part, hpart, rfl⟩ := partOf_toQuads.mp hmember
      rw [h.owned]
      exact ⟨part, hmay part hpart, rfl⟩

/-- Another collection keeps what is said about it, but for the member that is
the described collection. -/
theorem membersOwned_other (h : Rewritten subject quads s t) (hplain : s.policies.Plain)
    (hown : ∀ q ∈ quads, Own subject q) (howned : CustomCollectionsOwned s) (hne : c ≠ subject)
    (hcustom : Custom t.policies c) : MembersOwned t c := by
  have hsame : ∀ p x, p ≠ ODRL.partOf → (t.policies.Linked c p x ↔ s.policies.Linked c p x) := by
    intro p x hp
    rw [h.plain.linked_iff, hplain.linked_iff]
    refine h.others _ ?_
    rintro (hc | ⟨hpartOf, -⟩)
    · exact hne hc
    · exact hp hpartOf
  have hbefore : Custom s.policies c :=
    ⟨(hsame _ _ (by decide)).mp hcustom.typed,
      fun x hx => hcustom.custom x ((hsame _ x (by decide)).mpr hx)⟩
  refine (howned c hbefore).mono (fun x => hsame _ x (by decide)) (fun a ha => ?_)
    (fun creator r _ hr => by rw [h.owned]; exact hr)
  have ha := h.plain.linked_iff.mp ha
  by_cases habout : About subject (quad a ODRL.partOf c)
  · rcases hown _ ((h.described _ habout).mp ha) with ⟨-, hpartOf⟩ | ⟨-, hc⟩
    · exact absurd rfl hpartOf
    · exact absurd hc hne
  · exact Store.linked_of_mem ((h.others _ habout).mp ha)

theorem customOwned_rewritten (h : Rewritten subject quads s t) (hplain : s.policies.Plain)
    (hown : ∀ q ∈ quads, Own subject q) (howned : CustomCollectionsOwned s)
    (hsubject : Custom t.policies subject → MembersOwned t subject) :
    CustomCollectionsOwned t := by
  intro c hcustom
  by_cases hc : c = subject
  · rw [hc] at hcustom ⊢
    exact hsubject hcustom
  · exact membersOwned_other h hplain hown howned hc hcustom

/-- A new collection, of which the store says nothing yet. -/
theorem rewritten_posted (userId : String) (description : CollectionDescription)
    (hplain : s.policies.Plain) (hfresh : s.policies.Unmentioned subject) :
    Rewritten subject (description.toQuads userId subject) s
      (s.addRule (Store.ofQuads (description.toQuads userId subject))) := by
  have hmem : ∀ q, q ∈ (s.addRule (Store.ofQuads (description.toQuads userId subject))).policies ↔
      q ∈ s.policies ∨ q ∈ description.toQuads userId subject := by
    intro q
    rw [ServerState.addRule, Store.mem_addAll, Store.mem_ofQuads]
  refine ⟨fun q hq => ?_, rfl, fun q habout => ?_, fun q habout => ?_⟩
  · rcases (hmem q).mp hq with hold | hnew
    · exact hplain q hold
    · exact CollectionDescription.graph_toQuads hnew
  · rw [hmem]
    refine or_iff_right (fun hold => ?_)
    rcases habout with hsubject | ⟨-, hobject⟩
    · exact (hfresh q hold).1 hsubject
    · exact (hfresh q hold).2 hobject
  · rw [hmem]
    exact or_iff_left (fun hnew => habout (about_toQuads hnew))

theorem rewritten_updated (userId : String) (subject : Term) (description : CollectionDescription)
    (hplain : s.policies.Plain) :
    Rewritten subject (description.toQuads userId subject) s { s with
      policies := replaceCollection subject (description.toQuads userId subject) s.policies } := by
  have hmem : ∀ q, q ∈ replaceCollection subject (description.toQuads userId subject) s.policies ↔
      q ∈ description.toQuads userId subject ∨ (q ∈ s.policies ∧ ¬ About subject q) :=
    fun q => mem_replaceCollection (fun r hr => about_toQuads hr)
  refine ⟨fun q hq => ?_, rfl, fun q habout => ?_, fun q habout => ?_⟩
  · rcases (hmem q).mp hq with hnew | ⟨hold, -⟩
    · exact CollectionDescription.graph_toQuads hnew
    · exact hplain q hold
  · exact (hmem q).trans (or_iff_left (fun h => h.2 habout))
  · refine (hmem q).trans ?_
    rw [and_iff_left habout]
    exact or_iff_right (fun hnew => habout (about_toQuads hnew))

theorem rewritten_deleted (subject : Term) (hplain : s.policies.Plain) :
    Rewritten subject [] s { s with
    policies := withoutCollection subject s.policies } := by
  refine ⟨fun q hq => ?_, rfl, fun q habout => ?_, fun q habout => ?_⟩
  · exact hplain q (mem_withoutCollection.mp hq).1
  · refine mem_withoutCollection.trans ?_
    simp [habout]
  · exact mem_withoutCollection.trans (and_iff_left habout)

end Collection

/-! ## Runs -/

/-- A step changes nothing, or has an effect. -/
theorem step_effect (env : CollectionEnvironment) (n : Nat) (request : HttpHandlerRequest)
    (userId : String) (s : ServerState) :
    Effect env n request userId s ((respond env n request userId).run s).2 := by
  rcases answered_respond env n request userId s with ⟨e, hrefused⟩ | ⟨response, s', hok, heffect⟩
  · rw [hrefused]
    exact .read
  · rw [hok]
    exact heffect

theorem owned_collection {env : CollectionEnvironment} {n : Nat} {r : CollectionRequest}
    {s s' : ServerState} (hplain : s.policies.Plain) (howned : CustomCollectionsOwned s)
    (hfresh : r.request.method = "POST" →
      s.policies.Unmentioned (.namedNode (newUrl env n r.request)))
    (heffect : Effect env n r.request r.userId s s') :
    s'.policies.Plain ∧ CustomCollectionsOwned s' := by
  cases heffect with
  | read => exact ⟨hplain, howned⟩
  | posted hmethod hmay =>
    have hwritten := rewritten_posted r.userId (describedCollection r.request) hplain
      (hfresh hmethod)
    exact ⟨hwritten.plain, customOwned_rewritten hwritten hplain
      (fun q hq => own_of_toQuads hq) howned (membersOwned_described hwritten hmay)⟩
  | updated hmethod hmodifiable hmay =>
    have hwritten := rewritten_updated r.userId (.namedNode r.request.url)
      (describedCollection r.request) hplain
    exact ⟨hwritten.plain, customOwned_rewritten hwritten hplain
      (fun q hq => own_of_toQuads hq) howned (membersOwned_described hwritten hmay)⟩
  | deleted hmethod hmodifiable =>
    have hwritten := rewritten_deleted (.namedNode r.request.url) hplain
    refine ⟨hwritten.plain, customOwned_rewritten hwritten hplain
      (fun q hq => absurd hq List.not_mem_nil) howned (fun hcustom => ?_)⟩
    have htyped := hwritten.plain.linked_iff.mp hcustom.typed
    exact absurd ((hwritten.described _ (Or.inl rfl)).mp htyped) List.not_mem_nil

theorem owned_registration {env : RegistrationEnvironment} {n : Nat} {r : RegistrationRequest}
    {s s' : ServerState} (hplain : s.policies.Plain) (howned : CustomCollectionsOwned s)
    (heffect : ResourceRegistrationRequestHandler.Effect env n r.request r.owner s s') :
    s'.policies.Plain ∧ CustomCollectionsOwned s' := by
  cases heffect with
  | read => exact ⟨hplain, howned⟩
  | posted id change hmethod hnew hchange =>
    obtain ⟨entries, -, hupdate⟩ := metadataChange_ok hchange
    refine ⟨hupdate.plain hplain, fun c hcustom =>
      membersOwned_update hupdate hplain howned rfl (fun creator resource hr => ?_) hcustom⟩
    rw [ServerState.owned_pushOwnership]
    by_cases hcreator : creator = r.owner
    · rw [if_pos hcreator, ← hcreator]
      exact List.mem_append_left _ hr
    · rw [if_neg hcreator]
      exact hr
  | updated id previous change hmethod hid hentry hchange =>
    obtain ⟨entries, -, hupdate⟩ := metadataChange_ok hchange
    exact ⟨hupdate.plain hplain, fun c hcustom =>
      membersOwned_update hupdate hplain howned rfl (fun creator resource hr => hr) hcustom⟩
  | deleted id previous hmethod hid hentry =>
    exact ⟨fun q hq => hplain q (mem_withoutResource.mp hq).1,
      fun c hcustom => membersOwned_withoutResource howned hcustom⟩

end CollectionRequestHandler

end UserManagedAccess.Routes
