/-
UserManagedAccess.Controller.PolicyPostTheorems — which rules a POST or a PUT
of a policy can bring into the store.

The documentation has every uploaded rule belong to the client. The check
looks at one rule of the upload and then keeps all of the upload, so that
this holds exactly for the uploads without a `Misassigned` rule. A PUT makes
the same check and adds what it accepts to the store as it is.

* `postedRulesBelong_iff` — the rules a POST adds have the client as their one
  and only assigner, unless one is `Misassigned` by the upload or by the store;
* `addsInScope_iff`, `putInScope_iff` — the same of a PUT, where a policy or a
  rule of others can be the subject of new quads.

The uploads are those the check accepts, of documents that can be parsed;
store, user and upload are arbitrary otherwise. The identifiers of the retrieval
queries can be any text (`QueryEngine`).
-/
import UserManagedAccess.Controller.PolicyControllerTheorems
import UserManagedAccess.Controller.PolicyShape

namespace UserManagedAccess.Controller

open UserManagedAccess.Lib UserManagedAccess.Rdf UserManagedAccess.Util UserManagedAccess.Ucp

/-! ## POST -/

/-- The rules a POST adds have the client as their one and only assigner. -/
def PostedRulesBelong (env : PolicyEnvironment) (data clientID : String) (s : ControllerState) :
    Prop :=
  ∀ r s', ((policyController env memoryUCRulesStorage).addEntity data clientID).run s =
      (.ok r, s') →
    ∀ rule, IsRule (s'.policies.difference s.policies) rule →
      SoleAssigner s'.policies clientID rule

/-- The ways a rule of an upload can have another assigner than the client. -/
inductive Misassigned (store upload : Store) (clientID : String) (rule : Term) : Prop
  | unassigned (hdescribed : upload.Described rule) (hnone : ¬ Assigns upload clientID rule)
  | second (assigner : Term) (hassigner : upload.Linked rule ODRL.assigner assigner)
      (hother : assigner ≠ .namedNode clientID)
  -- the upload links the rule, but does not describe it
  | stored (hlinked : ¬ upload.Described rule) (hstored : ¬ SoleAssigner store clientID rule)

/-- An upload with fresh subjects is added whole. -/
theorem mem_added_of_fresh {store upload : Store}
    (hfresh : ∀ node, upload.Described node → ¬ store.Described node) {q : Quad} :
    q ∈ (store.addAll upload).difference store ↔ q ∈ upload := by
  rw [Store.mem_difference, Store.mem_addAll]
  constructor
  · rintro ⟨hq | hq, hnew⟩
    · exact absurd hq hnew
    · exact hq
  · intro hq
    exact ⟨Or.inr hq, fun hold => hfresh q.subject ⟨q, hq, rfl⟩ ⟨q, hold, rfl⟩⟩

theorem soleAssigner_iff_not_misassigned {store upload : Store} {clientID : String} {rule : Term}
    (hfresh : ∀ node, upload.Described node → ¬ store.Described node) :
    SoleAssigner (store.addAll upload) clientID rule ↔
      ¬ Misassigned store upload clientID rule := by
  by_cases hdescribed : upload.Described rule
  · -- nothing in the store is about the rule
    have hlinked : ∀ a, (store.addAll upload).Linked rule ODRL.assigner a ↔
        upload.Linked rule ODRL.assigner a := by
      intro a
      rw [Store.linked_addAll]
      exact or_iff_right (fun h => hfresh rule hdescribed h.described)
    constructor
    · intro hsole hbad
      cases hbad with
      | unassigned _ hnone => exact hnone ((hlinked _).mp ((hsole _).mpr rfl))
      | second a ha hother => exact hother ((hsole a).mp ((hlinked a).mpr ha))
      | stored hnot _ => exact hnot hdescribed
    · intro hgood a
      rw [hlinked]
      constructor
      · intro ha
        by_contra hother
        exact hgood (.second a ha hother)
      · rintro rfl
        by_contra hnone
        exact hgood (.unassigned hdescribed hnone)
  · have hlinked : ∀ a, (store.addAll upload).Linked rule ODRL.assigner a ↔
        store.Linked rule ODRL.assigner a := by
      intro a
      rw [Store.linked_addAll]
      exact or_iff_left (fun h => hdescribed h.described)
    constructor
    · intro hsole hbad
      cases hbad with
      | unassigned h _ => exact hdescribed h
      | second a ha _ => exact hdescribed ha.described
      | stored _ hstored => exact hstored (fun a => (hlinked a).symm.trans (hsole a))
    · intro hgood a
      rw [hlinked]
      by_contra hne
      exact hgood (.stored hdescribed (fun hsole => hne (hsole a)))

/-- The rules of an accepted upload belong to the client exactly when none of
them is misassigned: the check itself only asks for one rule that is not. -/
theorem postedRulesBelong_iff (env : PolicyEnvironment) (data clientID : String)
    (s : ControllerState) :
    PostedRulesBelong env data clientID s ↔
      ∀ quads, env.parse data = .ok quads →
        Accepted env.toQueryEngine s.policies (Store.ofQuads quads) clientID →
        ∀ rule, IsRule (Store.ofQuads quads) rule →
          ¬ Misassigned s.policies (Store.ofQuads quads) clientID rule := by
  have hrule : ∀ {upload : Store}, Accepted env.toQueryEngine s.policies upload clientID → ∀ rule,
      IsRule ((s.addRule upload).policies.difference s.policies) rule ↔ IsRule upload rule := by
    intro upload haccepted rule
    simp only [IsRule, LinksRule, Store.Linked, ControllerState.policies_addRule,
      mem_added_of_fresh haccepted.fresh]
  constructor
  · intro hbelong quads hparse haccepted rule hisRule
    have hrun := hbelong _ _ (PolicyController.addEntity_ok.mpr
      ⟨quads, hparse, haccepted, rfl, rfl⟩)
    exact (soleAssigner_iff_not_misassigned haccepted.fresh).mp
      (hrun rule ((hrule haccepted rule).mpr hisRule))
  · intro hgood r s' hrun rule hisRule
    obtain ⟨quads, hparse, haccepted, -, rfl⟩ := PolicyController.addEntity_ok.mp hrun
    exact (soleAssigner_iff_not_misassigned haccepted.fresh).mpr
      (hgood quads hparse haccepted rule ((hrule haccepted rule).mp hisRule))

/-- A policy of Alice with one permission, and next to it a permission Bob assigns. -/
def uploadWithForeignRule : List Quad :=
  let policy := Term.namedNode "http://example.org/policy"
  let permission := Term.namedNode "http://example.org/permission"
  let other := Term.namedNode "http://example.org/other"
  [quad policy RDF.type ODRL.Set, quad policy ODRL.uid policy,
    quad policy ODRL.permission permission,
    quad permission RDF.type ODRL.Permission, quad permission ODRL.action ODRL.read,
    quad permission ODRL.target (.namedNode "http://example.org/resource"),
    quad permission ODRL.assigner (.namedNode "http://example.org/alice"),
    quad other RDF.type ODRL.Permission, quad other ODRL.action ODRL.read,
    quad other ODRL.target (.namedNode "http://example.org/bobs-resource"),
    quad other ODRL.assigner (.namedNode "http://example.org/bob")]

theorem accepted_uploadWithForeignRule (engine : QueryEngine) :
    Accepted engine Store.empty (Store.ofQuads uploadWithForeignRule)
      "http://example.org/alice" where
  assigner := by decide
  matched := creationBindings_of_pattern (by decide) (by decide)
  fresh _ _ := by
    rintro ⟨q, hq, -⟩
    exact Store.not_mem_empty q hq

/-- Alice's upload is accepted with Bob's permission in it. -/
theorem postedRules_foreign :
    ¬ ∀ env data clientID s, PostedRulesBelong env data clientID s := by
  intro hclaim
  let env := fixedEnvironment uploadWithForeignRule id
  have hbelong := hclaim env "" "http://example.org/alice" ⟨Store.empty, fun _ => none⟩ _ _
    (PolicyController.addEntity_ok.mpr
      ⟨uploadWithForeignRule, rfl, accepted_uploadWithForeignRule _, rfl, rfl⟩)
  let other := Term.namedNode "http://example.org/other"
  have hrule : IsRule ((Store.empty.addAll (Store.ofQuads uploadWithForeignRule)).difference
      Store.empty) other :=
    Or.inr ⟨ODRL.Permission, by decide, by decide⟩
  have hbob : (Store.empty.addAll (Store.ofQuads uploadWithForeignRule)).Linked other
      ODRL.assigner (.namedNode "http://example.org/bob") := by decide
  have heq := (hbelong other hrule _).mp hbob
  exact absurd heq (by decide)

/-! ## PUT -/

/-- What is new in `after` stays within the scope of the client: nothing about
rules and policies of others, and no rule with another assigner. -/
structure AddsInScope (before after : Store) (clientID : String) : Prop where
  rules : ∀ q ∈ after.difference before, ¬ ForeignRule before clientID q.subject
  policies : ∀ q ∈ after.difference before, ¬ ForeignPolicy before clientID q.subject
  assigners : ∀ rule, IsRule (after.difference before) rule →
    ∀ assigner, after.Linked rule ODRL.assigner assigner → assigner = .namedNode clientID

def PutInScope (env : PolicyEnvironment) (data policyID clientID : String) (s : ControllerState) :
    Prop :=
  ∀ r s', ((policyController env memoryUCRulesStorage).putEntity data policyID clientID).run s =
    (.ok r, s') → AddsInScope s.policies s'.policies clientID

/-- The checks on the body of a PUT the documentation lists and the code does
not make. `kept` is the store without the isolated part of the old policy. -/
structure BodyInScope (store kept body : Store) (clientID : String) : Prop where
  noForeignRules : ∀ q ∈ body, q ∉ store → ¬ ForeignRule store clientID q.subject
  noForeignPolicies : ∀ q ∈ body, q ∉ store → ¬ ForeignPolicy store clientID q.subject
  ownRules : ∀ rule, IsRule (body.difference store) rule → ∀ assigner,
    kept.Linked rule ODRL.assigner assigner ∨ body.Linked rule ODRL.assigner assigner →
      assigner = .namedNode clientID

/-- A PUT adds the body to what is left of the store, whatever is in it. -/
theorem addsInScope_iff {store kept body : Store} {clientID : String}
    (hkept : ∀ q ∈ kept, q ∈ store) :
    AddsInScope store (kept.addAll body) clientID ↔ BodyInScope store kept body clientID := by
  have hadded : ∀ q, q ∈ (kept.addAll body).difference store ↔ q ∈ body.difference store := by
    intro q
    simp only [Store.mem_difference, Store.mem_addAll]
    constructor
    · rintro ⟨hq | hq, hnew⟩
      · exact absurd (hkept q hq) hnew
      · exact ⟨hq, hnew⟩
    · rintro ⟨hq, hnew⟩
      exact ⟨Or.inr hq, hnew⟩
  have hrule : ∀ rule, IsRule ((kept.addAll body).difference store) rule ↔
      IsRule (body.difference store) rule := by
    intro rule
    simp only [IsRule, LinksRule, Store.Linked, hadded]
  constructor
  · rintro ⟨hrules, hpolicies, hassigners⟩
    refine ⟨?_, ?_, ?_⟩
    · intro q hq hnew
      exact hrules q ((hadded q).mpr (Store.mem_difference.mpr ⟨hq, hnew⟩))
    · intro q hq hnew
      exact hpolicies q ((hadded q).mpr (Store.mem_difference.mpr ⟨hq, hnew⟩))
    · intro rule hisRule assigner hassigner
      exact hassigners rule ((hrule rule).mpr hisRule) assigner
        (Store.linked_addAll.mpr hassigner)
  · rintro ⟨hrules, hpolicies, hassigners⟩
    refine ⟨?_, ?_, ?_⟩
    · intro q hq
      obtain ⟨hq, hnew⟩ := Store.mem_difference.mp ((hadded q).mp hq)
      exact hrules q hq hnew
    · intro q hq
      obtain ⟨hq, hnew⟩ := Store.mem_difference.mp ((hadded q).mp hq)
      exact hpolicies q hq hnew
    · intro rule hisRule assigner hassigner
      exact hassigners rule ((hrule rule).mp hisRule) assigner
        (Store.linked_addAll.mp hassigner)

/-- A PUT stays in the scope of the client exactly for the bodies that would
pass the checks it leaves out. -/
theorem putInScope_iff (env : PolicyEnvironment) (data policyID clientID : String)
    (s : ControllerState) :
    PutInScope env data policyID clientID s ↔
      ∀ isolated quads, getPolicy env.toQueryEngine s.policies policyID clientID = .ok isolated →
        env.parse data = .ok quads →
        ValidUpload env.toQueryEngine (Store.ofQuads quads) clientID →
        BodyInScope s.policies (s.policies.difference isolated) (Store.ofQuads quads)
          clientID := by
  have hkept : ∀ isolated, ∀ q ∈ s.policies.difference isolated, q ∈ s.policies :=
    fun _ q hq => (Store.mem_difference.mp hq).1
  constructor
  · intro hscope isolated quads hisolated hparse hvalid
    rw [← addsInScope_iff (hkept isolated)]
    have hadds := hscope _ _ (PolicyController.putEntity_ok.mpr
      ⟨isolated, quads, hisolated, hparse, hvalid, rfl, rfl⟩)
    rwa [ControllerState.policies_addRule, PolicyController.policies_deleteEntity hisolated]
      at hadds
  · intro hbody r s' hrun
    obtain ⟨isolated, quads, hisolated, hparse, hvalid, -, rfl⟩ :=
      PolicyController.putEntity_ok.mp hrun
    rw [ControllerState.policies_addRule, PolicyController.policies_deleteEntity hisolated,
      addsInScope_iff (hkept isolated)]
    exact hbody isolated quads hisolated hparse hvalid

/-- A store with a permission only Bob assigns. -/
def storeOfBob : Store :=
  let permission := Term.namedNode "http://example.org/bobs-permission"
  Store.ofQuads [quad permission RDF.type ODRL.Permission,
    quad permission ODRL.action ODRL.read,
    quad permission ODRL.target (.namedNode "http://example.org/bobs-resource"),
    quad permission ODRL.assigner (.namedNode "http://example.org/bob")]

/-- A policy of Alice, and the removal of the limits on Bob's permission. -/
def bodyOnForeignRule : List Quad :=
  let policy := Term.namedNode "http://example.org/policy"
  let permission := Term.namedNode "http://example.org/permission"
  [quad policy RDF.type ODRL.Set, quad policy ODRL.uid policy,
    quad policy ODRL.permission permission,
    quad permission RDF.type ODRL.Permission, quad permission ODRL.action ODRL.read,
    quad permission ODRL.target (.namedNode "http://example.org/resource"),
    quad permission ODRL.assigner (.namedNode "http://example.org/alice"),
    quad (.namedNode "http://example.org/bobs-permission") ODRL.action ODRL.modify]

/-- Alice extends a permission of Bob with a PUT. -/
theorem put_extends_foreignRule :
    ¬ ∀ env data policyID clientID s, PutInScope env data policyID clientID s := by
  intro hclaim
  let env := fixedEnvironment bodyOnForeignRule id
  let bobs := Term.namedNode "http://example.org/bobs-permission"
  have hvalid : ValidUpload env.toQueryEngine (Store.ofQuads bodyOnForeignRule)
      "http://example.org/alice" :=
    ⟨by decide, creationBindings_of_pattern (by decide) (by decide)⟩
  have hisolated : getPolicy env.toQueryEngine storeOfBob "http://example.org/policy"
      "http://example.org/alice" = .ok Store.empty := by decide
  have hadds := hclaim env "" "http://example.org/policy" "http://example.org/alice"
    ⟨storeOfBob, fun _ => none⟩ _ _ (PolicyController.putEntity_ok.mpr
      ⟨Store.empty, bodyOnForeignRule, hisolated, rfl, hvalid, rfl, rfl⟩)
  have hadded : quad bobs ODRL.action ODRL.modify ∈
      ((storeOfBob.difference Store.empty).addAll (Store.ofQuads bodyOnForeignRule)).difference
        storeOfBob := by decide
  rw [ControllerState.policies_addRule, PolicyController.policies_deleteEntity hisolated] at hadds
  have hforeign : ForeignRule storeOfBob "http://example.org/alice" bobs :=
    ⟨⟨.namedNode "http://example.org/bob", by decide⟩,
      (by decide : ¬ storeOfBob.Linked bobs ODRL.assigner (.namedNode "http://example.org/alice"))⟩
  exact hadds.rules _ hadded hforeign

end UserManagedAccess.Controller
