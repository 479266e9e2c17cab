/-
UserManagedAccess.Routes.MembershipTheorems — the members of relation
collections and the relations of registered descriptions.

An update looks collections up in the store as it was before it. A relation
that is added while its collection is dropped as a default therefore joins a
collection that is gone afterwards. Where no update does this, and no two
entries share a key or an identifier (`SeparateRelations`), the memberships in
the store are the relations of the stored descriptions.

* `member_update` — the memberships of a resource after an update;
* `mirrored_step` — the invariant `Mirrored`, over one effect of a request;
* `membershipMirrors_of_separate` — so in every run whose requests keep it.

Runs start with empty stores. What a request is refused for does not matter,
since it changes nothing then (`answered_respond`); blank nodes and random
identifiers are taken to be new ones, and no two requests run at the same time.
-/
import UserManagedAccess.Routes.DedicatedCollections
import UserManagedAccess.Routes.RegistrationRuns

namespace UserManagedAccess.Routes

open UserManagedAccess.Lib UserManagedAccess.Rdf UserManagedAccess.Util
open UserManagedAccess.Views UserManagedAccess.Ucp

namespace ResourceRegistrationRequestHandler

/-! ## The property -/

/-- A relation of the stored description of the resource designates the
collection. -/
def Designates (env : RegistrationEnvironment) (s : ServerState) (r : String) (c : Term) : Prop :=
  ∃ registration, s.registrationStore.get r = some registration ∧
    ∃ e ∈ relations env (some registration.description), c ∈ findCollectionIds e s.policies

/-- The memberships are those the descriptions designate, and they are
memberships in collections. -/
structure MembershipMirrors (env : RegistrationEnvironment) (s : ServerState) : Prop where
  members : ∀ r c, quad (.namedNode r) ODRL.partOf c ∈ s.policies ↔ Designates env s r c
  described : ∀ a c, s.policies.Linked a ODRL.partOf c →
    s.policies.Linked c RDF.type ODRL.AssetCollection ∧
      (∃ x, s.policies.Linked c ODRL.source x) ∧ (∃ x, s.policies.Linked c DC.creator x) ∧
        ∃ x, s.policies.Linked c ODRL_P.relation x

/-! ## Requests that keep it -/

/-- No two relations of the descriptions share a key, and the collections the
update creates have identifiers of their own. -/
structure Unambiguous (env : RegistrationEnvironment) (s : Store) (id : String)
    (description : ResourceDescription) (previous : Option ResourceDescription) : Prop where
  keys : DistinctKeys (relations env (some description) ++ relations env previous)
  only : ∀ e ∈ defaults env (some description) id, e ∉ defaults env previous id →
    findCollectionIds e s = [] → OnlyFor s (collectionId e) e
  distinct : ∀ e ∈ defaults env (some description) id, ∀ e' ∈ defaults env (some description) id,
    collectionId e = collectionId e' → e = e'

/-- Also, the update joins no collection that it drops and that has no
members. -/
structure SeparateRelations (env : RegistrationEnvironment) (s : Store) (id : String)
    (description : ResourceDescription) (previous : Option ResourceDescription) : Prop
    extends Unambiguous env s id description previous where
  stays : ∀ e ∈ relations env (some description), e ∉ relations env previous →
    e ∈ defaults env previous id → e ∉ defaults env (some description) id →
      ∀ c ∈ findCollectionIds e s, ∃ a, s.Linked a ODRL.partOf c

def KeepsMembership (env : RegistrationEnvironment) (n : Nat) (r : RegistrationRequest)
    (s : ServerState) : Prop :=
  UpdateMeets env n r s fun id previous =>
    SeparateRelations env s.policies id (described r.request) previous

/-! ## The invariant -/

/-- What holds after the first n requests. -/
structure Mirrored (env : RegistrationEnvironment) (n : Nat) (s : ServerState) : Prop where
  tidy : Tidy env n s.policies
  dedicated : DedicatedCollections s.policies
  named : ∀ a c, s.policies.Linked a ODRL.partOf c → ∃ r, a = .namedNode r
  members : ∀ r c, s.policies.Linked (.namedNode r) ODRL.partOf c ↔ Designates env s r c
  live : ∀ r registration, s.registrationStore.get r = some registration →
    ∀ e ∈ relations env (some registration.description), findCollectionIds e s.policies ≠ []

theorem Mirrored.membershipMirrors {env : RegistrationEnvironment} {n : Nat} {s : ServerState}
    (h : Mirrored env n s) : MembershipMirrors env s := by
  refine ⟨fun r c => ?_, fun a c hmember => ?_⟩
  · rw [← h.tidy.plain.linked_iff]
    exact h.members r c
  · obtain ⟨r, rfl⟩ := h.named a c hmember
    obtain ⟨registration, -, e, -, hfound⟩ := (h.members r c).mp hmember
    have hcollection := h.dedicated.of_found h.tidy hfound
    obtain ⟨hsource, hrelated⟩ := (mem_findCollectionIds h.tidy.plain).mp hfound
    refine ⟨hcollection.typed, ⟨_, hsource⟩, hcollection.created, ?_⟩
    unfold Related at hrelated
    by_cases hreverse : e.reverse = true
    · rw [if_pos hreverse] at hrelated
      obtain ⟨b, hrelation, -⟩ := hrelated
      exact ⟨b, hrelation⟩
    · rw [if_neg hreverse] at hrelated
      exact ⟨_, hrelated⟩

theorem mirrored_empty (env : RegistrationEnvironment) : Mirrored env 0 ServerState.empty := by
  have hnone : ∀ a p x, ¬ ServerState.empty.policies.Linked a p x := by
    rintro a p x ⟨q, hq, -⟩
    exact Store.not_mem_empty q hq
  refine ⟨⟨?_, ?_, ?_⟩, ?_, ?_, ?_, ?_⟩
  · exact fun q hq => absurd hq (Store.not_mem_empty q)
  · exact fun q hq => absurd hq (Store.not_mem_empty q)
  · exact fun a x h => absurd h (hnone a _ x)
  · exact fun c x h => absurd h (hnone c _ x)
  · exact fun a c h => absurd h (hnone a _ c)
  · refine fun r c => ⟨fun h => absurd h (hnone _ _ c), ?_⟩
    rintro ⟨registration, hget, -⟩
    cases hget
  · intro r registration hget
    cases hget

/-! ## An update -/

section Update

variable {env : RegistrationEnvironment} {n : Nat} {s : ServerState} {id owner : String}
  {description : ResourceDescription} {previous : Option ResourceDescription}
  {entries : ChangedEntries} {change : QuadChange}

theorem Unambiguous.createsApart {policies : Store}
    (h : Unambiguous env policies id description previous)
    (hcompares : Compares env id description previous entries) :
    CreatesApart policies entries := by
  have hadded : ∀ {k e}, entries.Creates policies k e →
      e ∈ defaults env (some description) id ∧ e ∉ defaults env previous id :=
    fun hcreates => (hcompares.added _).mp (List.mem_of_getElem? hcreates.1)
  refine ⟨fun k e hcreates => ?_, fun k e k' e' hcreates hcreates' hid => ?_⟩
  · obtain ⟨hnew, hold⟩ := hadded hcreates
    exact h.only e hnew hold hcreates.2
  · exact h.distinct e (hadded hcreates).1 e' (hadded hcreates').1 hid

/-- The relations of registered resources keep their collections. -/
theorem found_kept (hmirrored : Mirrored env n s)
    (hchange : Change env n s.policies id owner entries change)
    (hfresh : FreshBlankNodes env) (hcreates : CreatesApart s.policies entries) {r : String}
    {registration : Registration} (hget : s.registrationStore.get r = some registration)
    {e : CollectionMetadata} (he : e ∈ relations env (some registration.description)) {c : Term} :
    c ∈ findCollectionIds e (updatePolicies change s.policies) ↔
      c ∈ findCollectionIds e s.policies := by
  rw [found_update_iff hchange hfresh hmirrored.tidy hmirrored.dedicated hcreates]
  constructor
  · rintro (⟨hfound, -⟩ | ⟨k, hcreated, -⟩)
    · exact hfound
    · exact absurd hcreated.2 (hmirrored.live r registration hget e he)
  · intro hfound
    refine Or.inl ⟨hfound, fun hdropped => ?_⟩
    have hmember := (hmirrored.members r c).mpr ⟨registration, hget, e, he, hfound⟩
    exact hchange.removable e hdropped c hfound _ hmember

/-- So do those of the new description, which exist already. -/
theorem found_described (hmirrored : Mirrored env n s)
    (hprevious : (s.registrationStore.get id).map Registration.description = previous)
    (hcompares : Compares env id description previous entries)
    (hchange : Change env n s.policies id owner entries change)
    (hfresh : FreshBlankNodes env)
    (hseparate : SeparateRelations env s.policies id description previous)
    {e : CollectionMetadata} (he : e ∈ relations env (some description)) {c : Term} :
    c ∈ findCollectionIds e (updatePolicies change s.policies) ↔
      c ∈ findCollectionIds e s.policies := by
  have hcreates := hseparate.createsApart hcompares
  by_cases hold : e ∈ relations env previous
  · rcases hget : s.registrationStore.get id with _ | registration
    · rw [hget] at hprevious
      subst hprevious
      cases hold
    · rw [hget] at hprevious
      subst hprevious
      exact found_kept hmirrored hchange hfresh hcreates hget hold
  · have hjoined : e ∈ entries.joined := (hcompares.joined hseparate.keys e).mpr ⟨he, hold⟩
    rw [found_update_iff hchange hfresh hmirrored.tidy hmirrored.dedicated hcreates]
    constructor
    · rintro (⟨hfound, -⟩ | ⟨k, hcreated, -⟩)
      · exact hfound
      · exact absurd hcreated.2 (hchange.joinable e hjoined)
    · intro hfound
      refine Or.inl ⟨hfound, fun hdropped => ?_⟩
      obtain ⟨hdefault, hnew⟩ := (hcompares.dropped e).mp hdropped
      obtain ⟨a, hmember⟩ := hseparate.stays e he hold hdefault hnew c hfound
      exact hchange.removable e hdropped c hfound a hmember

/-- A relation of the new description has a collection. -/
theorem live_described (hmirrored : Mirrored env n s)
    (hprevious : (s.registrationStore.get id).map Registration.description = previous)
    (hcompares : Compares env id description previous entries)
    (hchange : Change env n s.policies id owner entries change)
    (hseparate : SeparateRelations env s.policies id description previous)
    {e : CollectionMetadata} (he : e ∈ relations env (some description)) :
    findCollectionIds e s.policies ≠ [] := by
  by_cases hold : e ∈ relations env previous
  · rcases hget : s.registrationStore.get id with _ | registration
    · rw [hget] at hprevious
      subst hprevious
      cases hold
    · rw [hget] at hprevious
      subst hprevious
      exact hmirrored.live id registration hget e hold
  · exact hchange.joinable e ((hcompares.joined hseparate.keys e).mpr ⟨he, hold⟩)

/-- The memberships of the resource before an update. -/
theorem member_iff_previous (hmirrored : Mirrored env n s)
    (hprevious : (s.registrationStore.get id).map Registration.description = previous) {c : Term} :
    s.policies.Linked (.namedNode id) ODRL.partOf c ↔
      ∃ e ∈ relations env previous, c ∈ findCollectionIds e s.policies := by
  rw [hmirrored.members, Designates]
  rcases hget : s.registrationStore.get id with _ | registration
  · rw [hget] at hprevious
    subst hprevious
    constructor
    · rintro ⟨registration, hnone, -⟩
      cases hnone
    · rintro ⟨e, he, -⟩
      cases he
  · rw [hget] at hprevious
    subst hprevious
    constructor
    · rintro ⟨registration', hsome, h⟩
      injection hsome with hsome
      rw [hsome]
      exact h
    · exact fun h => ⟨registration, rfl, h⟩

/-- The memberships of the resource after it. -/
theorem member_update (hmirrored : Mirrored env n s)
    (hprevious : (s.registrationStore.get id).map Registration.description = previous)
    (hcompares : Compares env id description previous entries)
    (hchange : Change env n s.policies id owner entries change)
    (hfresh : FreshBlankNodes env)
    (hseparate : SeparateRelations env s.policies id description previous) {c : Term} :
    (updatePolicies change s.policies).Linked (.namedNode id) ODRL.partOf c ↔
      ∃ e ∈ relations env (some description),
        c ∈ findCollectionIds e (updatePolicies change s.policies) := by
  rw [hchange.linked_partOf hmirrored.tidy.plain, member_iff_previous hmirrored hprevious]
  have hjoined := hcompares.joined hseparate.keys
  have hleft := hcompares.left hseparate.keys
  have hkept : ∀ e ∈ relations env (some description),
      (c ∈ findCollectionIds e (updatePolicies change s.policies) ↔
        c ∈ findCollectionIds e s.policies) :=
    fun e he => found_described hmirrored hprevious hcompares hchange hfresh hseparate he
  have hunique : ∀ e e', c ∈ findCollectionIds e s.policies →
      c ∈ findCollectionIds e' s.policies → e' = e := fun e e' hfound hfound' =>
    (hmirrored.dedicated.of_found hmirrored.tidy hfound).only.unique hmirrored.tidy hfound'
  constructor
  · rintro ⟨⟨e, he, hfound⟩ | ⟨-, e, he, hfound⟩, hnotLeft⟩
    · have hstays : e ∈ relations env (some description) := by
        by_contra hgone
        exact hnotLeft ⟨rfl, e, (hleft e).mpr ⟨he, hgone⟩, hfound⟩
      exact ⟨e, hstays, (hkept e hstays).mpr hfound⟩
    · have hnew := ((hjoined e).mp he).1
      exact ⟨e, hnew, (hkept e hnew).mpr hfound⟩
  · rintro ⟨e, he, hfound⟩
    have hfound := (hkept e he).mp hfound
    refine ⟨?_, ?_⟩
    · by_cases hold : e ∈ relations env previous
      · exact Or.inl ⟨e, hold, hfound⟩
      · exact Or.inr ⟨rfl, e, (hjoined e).mpr ⟨he, hold⟩, hfound⟩
    · rintro ⟨-, e', he', hfound'⟩
      rw [hunique e e' hfound hfound'] at he'
      exact ((hleft e).mp he').2 he

theorem mirrored_withMetadata (hmirrored : Mirrored env n s)
    (hprevious : (s.registrationStore.get id).map Registration.description = previous)
    (hfresh : FreshBlankNodes env)
    (hchange : metadataChange env n s.policies id owner description previous = .ok change)
    (hseparate : SeparateRelations env s.policies id description previous) :
    Mirrored env (n + 1) (withMetadata id owner description previous change s) := by
  obtain ⟨entries, hcompares, hchange⟩ := metadataChange_ok hchange
  have hcreates := hseparate.createsApart hcompares
  have hpolicies : (withMetadata id owner description previous change s).policies =
      updatePolicies change s.policies := rfl
  have hothers : ∀ {r : String}, r ≠ id → ∀ c,
      ((updatePolicies change s.policies).Linked (.namedNode r) ODRL.partOf c ↔
        s.policies.Linked (.namedNode r) ODRL.partOf c) := by
    intro r hr c
    have hne : (Term.namedNode r) ≠ .namedNode id := fun h => hr (by injection h)
    rw [hchange.linked_partOf hmirrored.tidy.plain]
    simp [hne]
  refine ⟨tidy_update hchange hfresh hmirrored.tidy,
    dedicated_update hchange hfresh hmirrored.tidy hmirrored.dedicated hcreates, ?_, ?_, ?_⟩
  · intro a c hmember
    rcases ((hchange.linked_partOf hmirrored.tidy.plain).mp hmember).1 with hold | ⟨ha, -⟩
    · exact hmirrored.named a c hold
    · exact ⟨id, ha⟩
  · intro r c
    rw [hpolicies, Designates]
    simp only [registrationStore_withMetadata, hpolicies]
    by_cases hr : r = id
    · subst hr
      simp only [if_true, Option.some.injEq, exists_eq_left']
      exact member_update hmirrored hprevious hcompares hchange hfresh hseparate
    · simp only [hr, if_false]
      rw [hothers hr, hmirrored.members]
      refine exists_congr (fun registration => and_congr_right (fun hget => ?_))
      refine exists_congr (fun e => and_congr_right (fun he => ?_))
      exact (found_kept hmirrored hchange hfresh hcreates hget he).symm
  · intro r registration hget e he
    rw [registrationStore_withMetadata] at hget
    rw [hpolicies]
    by_cases hr : r = id
    · rw [if_pos hr] at hget
      injection hget with hget
      subst hget
      obtain ⟨c, hc⟩ := List.exists_mem_of_ne_nil _
        (live_described hmirrored hprevious hcompares hchange hseparate he)
      exact List.ne_nil_of_mem ((found_described hmirrored hprevious hcompares hchange hfresh
        hseparate he).mpr hc)
    · rw [if_neg hr] at hget
      obtain ⟨c, hc⟩ := List.exists_mem_of_ne_nil _ (hmirrored.live r registration hget e he)
      exact List.ne_nil_of_mem ((found_kept hmirrored hchange hfresh hcreates hget he).mpr hc)

end Update

/-! ## Runs -/

theorem mirrored_withoutResource {env : RegistrationEnvironment} {n : Nat} {s : ServerState}
    (id owner : String) (hmirrored : Mirrored env n s) :
    Mirrored env (n + 1) (withoutResource id owner s) := by
  have hsame : ∀ a p x, p ≠ ODRL.partOf → ((withoutResource id owner s).policies.Linked a p x ↔
      s.policies.Linked a p x) := fun a p x hp => linked_withoutResource_of_ne hp
  have hsub : ∀ q ∈ (withoutResource id owner s).policies, q ∈ s.policies :=
    fun q hq => (mem_withoutResource.mp hq).1
  have hplain : (withoutResource id owner s).policies.Plain :=
    fun q hq => hmirrored.tidy.plain q (hsub q hq)
  have hfound : ∀ {e c}, c ∈ findCollectionIds e (withoutResource id owner s).policies ↔
      c ∈ findCollectionIds e s.policies :=
    fun {e c} => found_congr hmirrored.tidy.plain hplain hsame
  refine ⟨⟨hplain, ?_, ?_⟩, ?_, ?_, ?_, ?_⟩
  · exact fun q hq => hmirrored.tidy.aged.mono (Nat.le_succ n) q (hsub q hq)
  · exact fun a x h => hmirrored.tidy.inverses a x (linked_withoutResource.mp h).1
  · intro c x hsource
    obtain ⟨e, hcollection⟩ := hmirrored.dedicated c x (linked_withoutResource.mp hsource).1
    exact ⟨e, isCollection_congr hmirrored.tidy.plain hplain hsame hcollection⟩
  · exact fun a c h => hmirrored.named a c (linked_withoutResource.mp h).1
  · intro r c
    rw [linked_withoutResource, hmirrored.members, Designates, Designates]
    simp only [registrationStore_withoutResource, hfound]
    by_cases hr : r = id
    · simp [hr]
    · simp [hr]
  · intro r registration hget e he
    rw [registrationStore_withoutResource] at hget
    by_cases hr : r = id
    · rw [if_pos hr] at hget
      cases hget
    · rw [if_neg hr] at hget
      obtain ⟨c, hc⟩ := List.exists_mem_of_ne_nil _ (hmirrored.live r registration hget e he)
      exact List.ne_nil_of_mem (hfound.mpr hc)

theorem mirrored_step {env : RegistrationEnvironment} {n : Nat} {r : RegistrationRequest}
    {s : ServerState} (hblank : FreshBlankNodes env) (hmirrored : Mirrored env n s)
    (hfresh : FreshIdentifier env n r s) (hkeeps : KeepsMembership env n r s) :
    Mirrored env (n + 1) (step env n r s) := by
  have heffect := step_effect env n r s
  generalize step env n r s = s' at heffect ⊢
  cases heffect with
  | read =>
    exact { hmirrored with
      tidy := ⟨hmirrored.tidy.plain, hmirrored.tidy.aged.mono (Nat.le_succ n),
        hmirrored.tidy.inverses⟩ }
  | posted id change hmethod hnew hchange =>
    have hnone := hnew.unregistered hfresh
    have hupdated := mirrored_withMetadata hmirrored (by rw [hnone]; rfl) hblank hchange
      (hkeeps.posted hmethod id hnew)
    exact ⟨hupdated.tidy, hupdated.dedicated, hupdated.named, hupdated.members, hupdated.live⟩
  | updated id previous change hmethod hid hentry hchange =>
    exact mirrored_withMetadata hmirrored (by rw [hentry]; rfl) hblank hchange
      (hkeeps.updated hmethod id previous hid hentry)
  | deleted id previous hmethod hid hentry =>
    exact mirrored_withoutResource id r.owner hmirrored

theorem countedBlankNodes_fresh : FreshBlankNodes countedBlankNodes := by
  intro n k n' k' h
  have hlist := congrArg String.toList h
  simp only [countedBlankNodes, String.toList_ofList] at hlist
  have hn := congrArg (List.count 'n') hlist
  have hk := congrArg (List.count 'k') hlist
  simp only [List.count_append, List.count_replicate] at hn hk
  simp at hn hk
  exact ⟨hn, hk⟩

/-- Registering a container in empty stores. -/
theorem keepsMembership_container : KeepsMembership countedBlankNodes 0
    (containerRequest alice "POST") ServerState.empty := by
  refine ⟨fun _ id hnew => ?_, fun h => absurd h (by decide)⟩
  have hid : id = "http://example.org/" := by
    rcases hnew with ⟨hname, -, -⟩ | ⟨hname, -⟩
    · injection hname with hname
      exact hname.symm
    · cases hname
  subst hid
  refine ⟨⟨?_, ?_, ?_⟩, ?_⟩
  · intro e he
    cases he
  · intro e _ _ _
    refine ⟨?_, ?_⟩
    · rintro x ⟨q, hq, -⟩
      cases hq
    · rintro x ⟨q, hq, -⟩
      cases hq
  · intro e he e' he' _
    rw [List.mem_singleton.mp he, List.mem_singleton.mp he']
  · intro e he
    cases he

end ResourceRegistrationRequestHandler

end UserManagedAccess.Routes
