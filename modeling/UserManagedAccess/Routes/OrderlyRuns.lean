/-
UserManagedAccess.Routes.OrderlyRuns — runs that keep memberships and creators
in order, and what else they keep.

In such a run the defaults of a registered resource have their collections
(`DefaultsLive`), and no quads are left of a collection but the reverse
relations of those that were dropped (`Rooted`).
-/
import UserManagedAccess.Routes.CollectionCreatorTheorems
import UserManagedAccess.Routes.MembershipTheorems

namespace UserManagedAccess.Routes

open UserManagedAccess.Lib UserManagedAccess.Rdf UserManagedAccess.Util
open UserManagedAccess.Views UserManagedAccess.Ucp

namespace ResourceRegistrationRequestHandler

/-! ## The invariant -/

/-- A node that is described as a collection has a source. -/
def Rooted (s : Store) : Prop :=
  ∀ c, (s.Linked c RDF.type ODRL.AssetCollection ∨ (∃ x, s.Linked c DC.creator x) ∨
    ∃ r, s.Linked c ODRL_P.relation (.namedNode r)) → ∃ x, s.Linked c ODRL.source x

/-- The defaults of registered resources have their collections. -/
def DefaultsLive (env : RegistrationEnvironment) (s : ServerState) : Prop :=
  ∀ r registration, s.registrationStore.get r = some registration →
    ∀ e ∈ defaults env (some registration.description) r, findCollectionIds e s.policies ≠ []

/-- What the requests before the n-th leave, where they keep memberships and
creators in order. -/
structure Orderly (env : RegistrationEnvironment) (n : Nat) (s : ServerState) : Prop
    extends Mirrored env n s where
  creators : CreatorsOwn s
  defaultsLive : DefaultsLive env s
  rooted : Rooted s.policies

/-! ## Steps -/

section Steps

variable {env : RegistrationEnvironment} {n : Nat} {s : ServerState} {id owner : String}
  {description : ResourceDescription} {previous : Option ResourceDescription}
  {entries : ChangedEntries} {change : QuadChange}

theorem rooted_update (hmirrored : Mirrored env n s) (hfresh : FreshBlankNodes env)
    (hrooted : Rooted s.policies)
    (hsourced : ∀ c, s.policies.Linked c ODRL.source (.namedNode id) →
      CreatedBy s.policies c owner)
    (hcompares : Compares env id description previous entries)
    (hchange : Change env n s.policies id owner entries change)
    (hcreates : CreatesApart s.policies entries) :
    Rooted (updatePolicies change s.policies) := by
  have hplain := hmirrored.tidy.plain
  -- a source stays unless the collection is dropped, and then nothing stays
  have hkeeps : ∀ c, (∃ x, s.policies.Linked c ODRL.source x) →
      (∀ e ∈ entries.dropped, c ∉ findCollectionIds e s.policies) →
        ∃ x, (updatePolicies change s.policies).Linked c ODRL.source x := by
    rintro c ⟨x, hx⟩ hkept
    refine ⟨x, (hchange.linked_source hplain).mpr ⟨Or.inl hx, ?_⟩⟩
    rintro ⟨e, he, hc, -⟩
    exact hkept e he hc
  have hcreated : ∀ k e, entries.Creates s.policies k e →
      ∃ x, (updatePolicies change s.policies).Linked (collectionId e) ODRL.source x := by
    intro k e hnew
    have hcollection := isCollection_created hchange hfresh hmirrored.tidy hmirrored.dedicated
      hcreates hnew
    exact ⟨_, ((mem_findCollectionIds (hchange.plain hplain)).mp hcollection.found).1⟩
  rintro c (htype | ⟨x, hcreator⟩ | ⟨r, hrelation⟩)
  · obtain ⟨hadded, hkept⟩ := (hchange.linked_type hplain).mp htype
    have hnot : ∀ e ∈ entries.dropped, c ∉ findCollectionIds e s.policies :=
      fun e he hc => hkept ⟨e, he, hc, rfl⟩
    rcases hadded with hold | ⟨k, e, hnew, rfl, -⟩
    · exact hkeeps c (hrooted c (Or.inl hold)) hnot
    · exact hcreated k e hnew
  · obtain ⟨hadded, hkept⟩ := (hchange.linked_creator hplain).mp hcreator
    have hnot : ∀ e ∈ entries.dropped, c ∉ findCollectionIds e s.policies := by
      intro e he hc
      refine hkept ⟨e, he, hc, ?_⟩
      rcases hadded with hold | ⟨k, e', -, -, hx⟩
      · have hsource := ((mem_findCollectionIds hplain).mp hc).1
        rw [source_of_defaults e ((hcompares.dropped e).mp he).1] at hsource
        exact (hsourced c hsource x).mp hold
      · exact hx
    rcases hadded with hold | ⟨k, e, hnew, rfl, -⟩
    · exact hkeeps c (hrooted c (Or.inr (Or.inl ⟨x, hold⟩))) hnot
    · exact hcreated k e hnew
  · obtain ⟨hadded, hkept⟩ :=
      (hchange.linked_relation hplain hfresh hmirrored.tidy.aged).mp hrelation
    rcases hadded with hold | ⟨k, e, hnew, rfl, -⟩
    · refine hkeeps c (hrooted c (Or.inr (Or.inr ⟨r, hold⟩))) (fun e he hc => ?_)
      have hstands := (hmirrored.dedicated.of_found hmirrored.tidy hc).only.relation _ hold
      unfold StandsFor at hstands
      by_cases hreverse : e.reverse = true
      · rw [if_pos hreverse] at hstands
        obtain ⟨⟨b, hb⟩, -⟩ := hstands
        cases hb
      · rw [if_neg hreverse] at hstands
        exact hkept ⟨e, he, hc, by simpa using hreverse, hstands⟩
    · exact hcreated k e hnew

theorem defaultsLive_update (hmirrored : Mirrored env n s) (hfresh : FreshBlankNodes env)
    (hlive : DefaultsLive env s)
    (hcompares : Compares env id description previous entries)
    (hprevious : (s.registrationStore.get id).map Registration.description = previous)
    (hchange : Change env n s.policies id owner entries change)
    (hcreates : CreatesApart s.policies entries)
    {r : String} {registration : Registration}
    (hget : (withMetadata id owner description previous change s).registrationStore.get r =
      some registration)
    {e : CollectionMetadata} (he : e ∈ defaults env (some registration.description) r) :
    findCollectionIds e (updatePolicies change s.policies) ≠ [] := by
  rw [registrationStore_withMetadata] at hget
  have hkeeps : findCollectionIds e s.policies ≠ [] → e ∉ entries.dropped →
      findCollectionIds e (updatePolicies change s.policies) ≠ [] := by
    intro hfound hkept
    obtain ⟨c, hc⟩ := List.exists_mem_of_ne_nil _ hfound
    exact List.ne_nil_of_mem ((found_update_iff hchange hfresh hmirrored.tidy
      hmirrored.dedicated hcreates).mpr (Or.inl ⟨hc, hkept⟩))
  by_cases hr : r = id
  · subst hr
    rw [if_pos rfl] at hget
    injection hget with hget
    subst hget
    have hkept : e ∉ entries.dropped := fun hdropped => ((hcompares.dropped e).mp hdropped).2 he
    by_cases hnew : findCollectionIds e s.policies = []
    · have hold : e ∉ defaults env previous r := by
        intro hold
        rcases hentry : s.registrationStore.get r with _ | before
        · rw [hentry] at hprevious
          subst hprevious
          cases hold
        · rw [hentry] at hprevious
          subst hprevious
          exact hlive r before hentry e hold hnew
      obtain ⟨k, hk⟩ := List.mem_iff_getElem?.mp ((hcompares.added e).mpr ⟨he, hold⟩)
      exact List.ne_nil_of_mem ((found_update_iff hchange hfresh hmirrored.tidy
        hmirrored.dedicated hcreates).mpr (Or.inr ⟨k, ⟨hk, hnew⟩, rfl⟩))
    · exact hkeeps hnew hkept
  · rw [if_neg hr] at hget
    refine hkeeps (hlive r registration hget e he) (fun hdropped => hr ?_)
    rw [← source_of_defaults e he, source_of_defaults e ((hcompares.dropped e).mp hdropped).1]

theorem orderly_withMetadata (horderly : Orderly env n s) (hfresh : FreshBlankNodes env)
    (hprevious : (s.registrationStore.get id).map Registration.description = previous)
    (hsourced : ∀ c, s.policies.Linked c ODRL.source (.namedNode id) →
      CreatedBy s.policies c owner)
    (hchange : metadataChange env n s.policies id owner description previous = .ok change)
    (hseparate : SeparateRelations env s.policies id description previous)
    (hkept : CreatorsKept env s id owner description previous) :
    Orderly env (n + 1) (withMetadata id owner description previous change s) := by
  obtain ⟨entries, hcompares, hupdate⟩ := metadataChange_ok hchange
  have hcreates := hseparate.createsApart hcompares
  refine ⟨mirrored_withMetadata horderly.toMirrored hprevious hfresh hchange hseparate,
    creatorsOwn_withMetadata horderly.tidy.plain horderly.creators hsourced hchange hkept, ?_, ?_⟩
  · intro r registration hget e he
    exact defaultsLive_update horderly.toMirrored hfresh horderly.defaultsLive hcompares
      hprevious hupdate hcreates hget he
  · exact rooted_update horderly.toMirrored hfresh horderly.rooted hsourced hcompares hupdate
      hcreates

theorem orderly_withoutResource (horderly : Orderly env n s) :
    Orderly env (n + 1) (withoutResource id owner s) := by
  have hsame : ∀ a p x, p ≠ ODRL.partOf → ((withoutResource id owner s).policies.Linked a p x ↔
      s.policies.Linked a p x) := by
    intro a p x hp
    rw [linked_withoutResource]
    exact and_iff_left (fun h => hp h.2)
  have hmirrored := mirrored_withoutResource id owner horderly.toMirrored
  refine ⟨hmirrored, creatorsOwn_withoutResource id owner horderly.creators, ?_, ?_⟩
  · intro r registration hget e he
    rw [registrationStore_withoutResource] at hget
    by_cases hr : r = id
    · rw [if_pos hr] at hget
      cases hget
    · rw [if_neg hr] at hget
      obtain ⟨c, hc⟩ := List.exists_mem_of_ne_nil _
        (horderly.defaultsLive r registration hget e he)
      exact List.ne_nil_of_mem
        ((found_congr horderly.tidy.plain hmirrored.tidy.plain hsame).mpr hc)
  · intro c hdescribed
    rw [hsame _ RDF.type _ (by decide)] at hdescribed
    simp only [hsame _ DC.creator _ (by decide), hsame _ ODRL_P.relation _ (by decide)]
      at hdescribed
    obtain ⟨x, hx⟩ := horderly.rooted c hdescribed
    exact ⟨x, (hsame _ _ _ (by decide)).mpr hx⟩

end Steps

/-! ## Runs -/

theorem orderly_empty (env : RegistrationEnvironment) : Orderly env 0 ServerState.empty := by
  refine ⟨mirrored_empty env, ?_, ?_, ?_⟩
  · intro r registration c hget
    cases hget
  · intro r registration hget
    cases hget
  · rintro c (⟨q, hq, -⟩ | ⟨x, q, hq, -⟩ | ⟨r, q, hq, -⟩)
    · exact absurd hq (Store.not_mem_empty q)
    · exact absurd hq (Store.not_mem_empty q)
    · exact absurd hq (Store.not_mem_empty q)

theorem orderly_step {env : RegistrationEnvironment} {n : Nat} {r : RegistrationRequest}
    {s : ServerState} (hblank : FreshBlankNodes env) (horderly : Orderly env n s)
    (hfresh : FreshIdentifier env n r s) (hmembership : KeepsMembership env n r s)
    (hcreators : KeepsCreators env n r s) : Orderly env (n + 1) (step env n r s) := by
  have hmirrored := mirrored_step hblank horderly.toMirrored hfresh hmembership
  have heffect := step_effect env n r s
  generalize step env n r s = s' at heffect hmirrored ⊢
  cases heffect with
  | read => exact ⟨hmirrored, horderly.creators, horderly.defaultsLive, horderly.rooted⟩
  | posted id change hmethod hnew hchange =>
    have hnone := hnew.unregistered hfresh
    have hkept := hcreators.posted hmethod id hnew
    have hupdated := orderly_withMetadata horderly hblank (by rw [hnone]; rfl)
      (hkept.sourced rfl) hchange (hmembership.posted hmethod id hnew) hkept
    exact ⟨hmirrored, hupdated.creators, hupdated.defaultsLive, hupdated.rooted⟩
  | updated id previous change hmethod hid hentry hchange =>
    exact orderly_withMetadata horderly hblank (by rw [hentry]; rfl)
      (fun c hsource => horderly.creators id _ c hentry hsource) hchange
      (hmembership.updated hmethod id previous hid hentry)
      (hcreators.updated hmethod id previous hid hentry)
  | deleted id previous hmethod hid hentry => exact orderly_withoutResource horderly

theorem orderly_run {env : RegistrationEnvironment} (hblank : FreshBlankNodes env)
    {requests : List RegistrationRequest}
    (hfresh : Throughout (step env) (FreshIdentifier env) 0 requests ServerState.empty)
    (hmembership : Throughout (step env) (KeepsMembership env) 0 requests ServerState.empty)
    (hcreators : Throughout (step env) (KeepsCreators env) 0 requests ServerState.empty) :
    Orderly env requests.length (runAll env requests) := by
  have hrun := runFrom_invariant (Orderly env)
    (fun n r s horderly hconditions => orderly_step hblank horderly hconditions.1.1
      hconditions.1.2 hconditions.2)
    (orderly_empty env) ((hfresh.and hmembership).and hcreators)
  rw [Nat.zero_add] at hrun
  exact hrun

end ResourceRegistrationRequestHandler

end UserManagedAccess.Routes
