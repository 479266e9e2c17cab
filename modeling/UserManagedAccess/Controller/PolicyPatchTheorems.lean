/-
UserManagedAccess.Controller.PolicyPatchTheorems — what a PATCH of a policy
leaves alone.

The update runs on the isolated part of the policy, and what the retrieval
query finds in the result replaces that part. The query follows whatever links
the update made, so that an update can put quads on the rules of others by
making them look like rules of the client. `Oversteps` lists what an update
can do in that way, and what it can take away. `patched_iff` goes through how
a quad about a protected node comes into the new part or is left out of it;
the rest is the spec lemma of `patchEntity`.

* `patched_iff` — the replacement leaves the protected nodes alone exactly when
  the update does not overstep the policy;
* `patchIsolated_iff` — so does a PATCH, which may also be refused;
* `patch_claims_foreignRule` — an update that links the rule of somebody else.

What the update makes of the isolated part is arbitrary, and so are the query
engine and the texts that are put into its queries.
-/
import UserManagedAccess.Controller.PolicyControllerTheorems
import UserManagedAccess.Controller.PolicyShape

namespace UserManagedAccess.Controller

open UserManagedAccess.Lib UserManagedAccess.Rdf UserManagedAccess.Util UserManagedAccess.Ucp

/-! ## The rest of the store -/

/-- The policy a request with this identifier is about. -/
def IsNamed (store : Store) (policyID : String) (policy : Term) : Prop :=
  policy = .namedNode policyID ∨ store.Linked policy ODRL.uid (.namedNode policyID)

/-- The nodes a PATCH has to leave alone. -/
inductive Protected (store : Store) (policyID clientID : String) (node : Term) : Prop
  | rule (hforeign : ForeignRule store clientID node)
  | constraint (rule : Term) (hlinked : store.Linked rule ODRL.constraint node)
      (honly : ∀ rule, store.Linked rule ODRL.constraint node → ForeignRule store clientID rule)
  | policy (hpolicy : IsPolicy store node) (hother : ¬ IsNamed store policyID node)
      (hshares : ∀ policy rule, IsNamed store policyID policy → LinksRule store policy rule →
        ¬ LinksRule store node rule)

/-- No quad about a protected node is added or removed. -/
def PatchIsolated (env : PolicyEnvironment) (policyID update clientID : String)
    (s : ControllerState) : Prop :=
  ∀ r s', ((policyController env memoryUCRulesStorage).patchEntity policyID update clientID
      true).run s = (.ok r, s') →
    ∀ q, Protected s.policies policyID clientID q.subject → (q ∈ s'.policies ↔ q ∈ s.policies)

/-! ## The updates that overstep the policy -/

/-- The ways in which an update oversteps the policy it was sent for: `updated`
is what it makes of `isolated`, the part of the store it runs on. -/
inductive Oversteps (engine : QueryEngine) (store isolated updated : Store)
    (policyID clientID : String) : Prop
  -- it takes a quad away from a protected node that came along
  | removes (q : Quad) (hprotected : Protected store policyID clientID q.subject)
      (hq : q ∈ isolated) (hremoved : q ∉ updated)
  -- or all the links through which such a node came along
  | unlinks (q : Quad) (hprotected : Protected store policyID clientID q.subject)
      (hq : q ∈ isolated) (hunlinked : ∀ node, Selected engine updated policyID clientID node →
        q.subject ≠ node ∧ ¬ updated.Linked q.subject ODRL.permission node ∧
          ¬ updated.Linked node ODRL.constraint q.subject)
  -- it puts a quad on a protected node and makes it a policy with the identifier
  | claimsPolicy (q : Quad) (permission : Term)
      (hprotected : Protected store policyID clientID q.subject) (hq : q ∈ updated)
      (hnew : q ∉ store) (hselects : Selects engine updated policyID clientID q.subject permission)
  -- or a rule of one, assigned by the client
  | claimsRule (q : Quad) (policy : Term)
      (hprotected : Protected store policyID clientID q.subject) (hq : q ∈ updated)
      (hnew : q ∉ store) (hselects : Selects engine updated policyID clientID policy q.subject)
  -- or a constraint of these
  | claimsConstraint (q : Quad) (node : Term)
      (hprotected : Protected store policyID clientID q.subject) (hq : q ∈ updated)
      (hnew : q ∉ store) (hselected : Selected engine updated policyID clientID node)
      (hlink : updated.Linked node ODRL.constraint q.subject)
  -- or has it share one of these as a permission
  | claimsLink (q : Quad) (node : Term)
      (hprotected : Protected store policyID clientID q.subject) (hq : q ∈ updated)
      (hnew : q ∉ store) (hselected : Selected engine updated policyID clientID node)
      (hlink : updated.Linked q.subject ODRL.permission node)

section Updates

variable {engine : QueryEngine} {store isolated updated again : Store} {policyID clientID : String}

/-- Linking a rule of others, with the client as its assigner, is overstepping. -/
theorem Oversteps.of_foreignRule {policy : Term} {rule : String} (hpolicyID : isQueryIri policyID = true)
    (hclientID : isQueryIri clientID = true)
    (hmatch : Matches updated policyID clientID policy (.namedNode rule))
    (hforeign : ForeignRule store clientID (.namedNode rule)) :
    Oversteps engine store isolated updated policyID clientID :=
  .claimsRule (quad (.namedNode rule) ODRL.assigner (.namedNode clientID))
    (engine.toSolution policy) (.rule hforeign) hmatch.assigner
    (fun hold => hforeign.2 (Store.linked_of_mem hold))
    (.pattern policy (.namedNode rule) hpolicyID hclientID hmatch)

theorem Oversteps.of_reached {q : Quad} (hprotected : Protected store policyID clientID q.subject)
    (hq : q ∈ updated) (hnew : q ∉ store)
    (hreached : Reached engine updated policyID clientID q.subject) :
    Oversteps engine store isolated updated policyID clientID := by
  obtain ⟨node, hselected, hreads⟩ := hreached
  rcases hreads with heq | hlink | hlink
  · obtain ⟨policy, permission, hselects, rfl | rfl⟩ := hselected
    · exact .claimsPolicy q permission hprotected hq hnew (heq ▸ hselects)
    · exact .claimsRule q policy hprotected hq hnew (heq ▸ hselects)
  · exact .claimsLink q node hprotected hq hnew hselected hlink
  · exact .claimsConstraint q node hprotected hq hnew hselected hlink

/-- Putting what is found again in the place of the isolated part leaves the
protected nodes alone exactly when the update does not overstep the policy. -/
theorem patched_iff (hisolated : getPolicy engine store policyID clientID = .ok isolated)
    (hagain : getPolicy engine updated policyID clientID = .ok again) :
    (∀ q, Protected store policyID clientID q.subject →
      (q ∈ (store.difference isolated).addAll again ↔ q ∈ store)) ↔
        ¬ Oversteps engine store isolated updated policyID clientID := by
  have hmem : ∀ q, q ∈ (store.difference isolated).addAll again ↔
      (q ∈ store ∧ q ∉ isolated) ∨
        (q ∈ updated ∧ Reached engine updated policyID clientID q.subject) := by
    intro q
    rw [Store.mem_addAll, Store.mem_difference, mem_getPolicy hagain]
  simp only [hmem]
  constructor
  · intro hframe hoversteps
    -- a protected quad of the isolated part is found again
    have hfound : ∀ q ∈ isolated, Protected store policyID clientID q.subject →
        q ∈ updated ∧ Reached engine updated policyID clientID q.subject := by
      intro q hq hprotected
      have hstored := ((mem_getPolicy hisolated).mp hq).1
      rcases (hframe q hprotected).mpr hstored with ⟨-, hnot⟩ | hfound
      · exact absurd hq hnot
      · exact hfound
    have hold : ∀ q ∈ updated, Protected store policyID clientID q.subject → ∀ node,
        Selected engine updated policyID clientID node → Reads updated node q.subject →
          q ∈ store := fun q hq hprotected node hselected hreads =>
      (hframe q hprotected).mp (Or.inr ⟨hq, node, hselected, hreads⟩)
    cases hoversteps with
    | removes q hprotected hq hremoved => exact hremoved (hfound q hq hprotected).1
    | unlinks q hprotected hq hunlinked =>
      obtain ⟨node, hselected, hreads⟩ := (hfound q hq hprotected).2
      obtain ⟨hne, hpermission, hconstraint⟩ := hunlinked node hselected
      rcases hreads with heq | hlink | hlink
      · exact hne heq
      · exact hpermission hlink
      · exact hconstraint hlink
    | claimsPolicy q permission hprotected hq hnew hselects =>
      exact hnew (hold q hq hprotected _ ⟨_, _, hselects, Or.inl rfl⟩ (Or.inl rfl))
    | claimsRule q policy hprotected hq hnew hselects =>
      exact hnew (hold q hq hprotected _ ⟨_, _, hselects, Or.inr rfl⟩ (Or.inl rfl))
    | claimsConstraint q node hprotected hq hnew hselected hlink =>
      exact hnew (hold q hq hprotected node hselected (Or.inr (Or.inr hlink)))
    | claimsLink q node hprotected hq hnew hselected hlink =>
      exact hnew (hold q hq hprotected node hselected (Or.inr (Or.inl hlink)))
  · intro hkeeps q hprotected
    constructor
    · rintro (⟨hstored, -⟩ | ⟨hq, hreached⟩)
      · exact hstored
      · by_contra hnew
        exact hkeeps (.of_reached hprotected hq hnew hreached)
    · intro hstored
      by_cases hq : q ∈ isolated
      · have hkept : q ∈ updated := by
          by_contra hremoved
          exact hkeeps (.removes q hprotected hq hremoved)
        refine Or.inr ⟨hkept, ?_⟩
        by_contra hlost
        exact hkeeps (.unlinks q hprotected hq fun node hselected =>
          ⟨fun heq => hlost ⟨node, hselected, Or.inl heq⟩,
            fun hlink => hlost ⟨node, hselected, Or.inr (Or.inl hlink)⟩,
            fun hlink => hlost ⟨node, hselected, Or.inr (Or.inr hlink)⟩⟩)
      · exact Or.inl ⟨hstored, hq⟩

theorem patchPolicy_ok {update : String} :
    patchPolicy engine isolated clientID update = .ok updated ↔
      isAssigner isolated clientID = true ∧ engine.queryVoid update isolated = .ok updated := by
  rw [patchPolicy]
  cases isAssigner isolated clientID <;> simp

end Updates

/-- A PATCH is isolated exactly when it is refused, or its update does not
overstep the policy. -/
theorem patchIsolated_iff (env : PolicyEnvironment) (policyID update clientID : String)
    (s : ControllerState) :
    PatchIsolated env policyID update clientID s ↔
      ∀ isolated updated,
        getPolicy env.toQueryEngine s.policies policyID clientID = .ok isolated →
        isAssigner isolated clientID = true → env.queryVoid update isolated = .ok updated →
        Answers env.toQueryEngine policyID clientID updated →
          ¬ Oversteps env.toQueryEngine s.policies isolated updated policyID clientID := by
  constructor
  · intro hpatch isolated updated hisolated hassigner hupdated hanswers
    obtain ⟨again, hagain⟩ := exists_getPolicy_ok.mpr hanswers
    have hframe := hpatch _ _ (PolicyController.patchEntity_ok.mpr ⟨isolated, updated, again,
      hisolated, patchPolicy_ok.mpr ⟨hassigner, hupdated⟩, hagain, rfl, rfl⟩)
    simp only [ControllerState.mem_policies_replace] at hframe
    exact (patched_iff hisolated hagain).mp hframe
  · intro hkeeps r s' hrun
    obtain ⟨isolated, updated, again, hisolated, hpatch, hagain, -, rfl⟩ :=
      PolicyController.patchEntity_ok.mp hrun
    obtain ⟨hassigner, hupdated⟩ := patchPolicy_ok.mp hpatch
    simp only [ControllerState.mem_policies_replace]
    exact (patched_iff hisolated hagain).mpr (hkeeps isolated updated hisolated hassigner hupdated
      (exists_getPolicy_ok.mp ⟨again, hagain⟩))

/-- A policy of Alice with one permission. -/
def quadsOfAlice : List Quad :=
  let policy := Term.namedNode "http://example.org/policy"
  let permission := Term.namedNode "http://example.org/permission"
  [quad policy RDF.type ODRL.Set, quad policy ODRL.uid policy,
    quad policy ODRL.permission permission,
    quad permission ODRL.target (.namedNode "http://example.org/resource"),
    quad permission ODRL.assigner (.namedNode "http://example.org/alice")]

/-- The policy of Alice, and a permission only Bob assigns. -/
def storeOfAliceAndBob : Store :=
  let other := Term.namedNode "http://example.org/bobs-permission"
  Store.ofQuads (quadsOfAlice ++ [quad other ODRL.action ODRL.read,
    quad other ODRL.assigner (.namedNode "http://example.org/bob")])

/-- `INSERT DATA`: Alice links Bob's permission, names herself as its assigner
and gives it a target. -/
def claimForeignRule (store : Store) : Store :=
  let other := Term.namedNode "http://example.org/bobs-permission"
  store.addQuads [quad (.namedNode "http://example.org/policy") ODRL.permission other,
    quad other ODRL.assigner (.namedNode "http://example.org/alice"),
    quad other ODRL.target (.namedNode "http://example.org/bobs-resource")]

/-- Alice rewrites Bob's permission with a PATCH of her own policy. -/
theorem patch_claims_foreignRule :
    ¬ ∀ env policyID update clientID s, PatchIsolated env policyID update clientID s := by
  intro hclaim
  let env := fixedEnvironment [] claimForeignRule
  let alice := "http://example.org/alice"
  let isolated := Store.ofQuads quadsOfAlice
  have hisolated : getPolicy env.toQueryEngine storeOfAliceAndBob "http://example.org/policy"
      alice = .ok isolated := by decide
  have hupdated : patchPolicy env.toQueryEngine isolated alice "" =
      .ok (claimForeignRule isolated) := patchPolicy_ok.mpr ⟨by decide, rfl⟩
  obtain ⟨again, hagain⟩ : ∃ again, getPolicy env.toQueryEngine (claimForeignRule isolated)
      "http://example.org/policy" alice = .ok again :=
    exists_getPolicy_ok.mpr (Or.inl ⟨by decide, by decide⟩)
  have hframe := hclaim env "http://example.org/policy" "" alice
    ⟨storeOfAliceAndBob, fun _ => none⟩ _ _ (PolicyController.patchEntity_ok.mpr
      ⟨isolated, claimForeignRule isolated, again, hisolated, hupdated, hagain, rfl, rfl⟩)
  simp only [ControllerState.mem_policies_replace] at hframe
  have hmatch : Matches (claimForeignRule isolated) "http://example.org/policy" alice
      (.namedNode "http://example.org/policy") (.namedNode "http://example.org/bobs-permission") :=
    ⟨by decide, by decide, by decide, ⟨.namedNode "http://example.org/bobs-resource", by decide⟩,
      by decide⟩
  have hforeign : ForeignRule storeOfAliceAndBob alice
      (.namedNode "http://example.org/bobs-permission") :=
    ⟨⟨.namedNode "http://example.org/bob", by decide⟩, by
      show ¬ storeOfAliceAndBob.Linked _ _ _
      decide⟩
  exact (patched_iff hisolated hagain).mp hframe
    (.of_foreignRule (by decide) (by decide) hmatch hforeign)

end UserManagedAccess.Controller
