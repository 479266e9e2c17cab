/-
UserManagedAccess.Controller.PolicyLocalityTheorems — the uploads that change
decisions only through rules of the poster are the local ones.

That local uploads do so is `Controller.PolicyDecisionsTheorems`, and two of the
ways of not being local are `Controller.PolicyEscalationTheorems`. Here is the
third: a rule of the upload is live on a resource that the poster has no rule
on. The store that shows it is the one the rule is live in, once the targets of
the rules there are taken away: what is left are the rules of the upload, and
collections with the members they had. Where a prohibition of the upload takes
part, the resource also gets a permission of its own, so that there is a
decision to change.

* `exists_freshNames` — names for that permission which nothing is said about;
* `exposed_granted`, `exposed_refused` — the decision in the new store;
* `postIsLocal_iff` — both directions;
* `post_joins_members` — an upload that opens up the resource of somebody else.

The clock, the parser of dates and the order of the quads in the store are
arbitrary. The document of the upload is one that the check accepts.
-/
import UserManagedAccess.Controller.PolicyEscalationTheorems

namespace UserManagedAccess.Controller

open UserManagedAccess.Lib UserManagedAccess.Rdf UserManagedAccess.Util UserManagedAccess.Ucp
open UserManagedAccess.Credentials UserManagedAccess.Policies
open UserManagedAccess.Policies.SimpleOdrlAuthorizer

/-! ## New names -/

/-- The nodes a decision about a resource can depend on. -/
def known (store upload : Store) (resource : String) : List Term :=
  .namedNode resource :: (mentioned store ++ mentioned upload)

/-- A rule and a policy nothing is said about. -/
structure FreshNames (store upload : Store) (resource : String) where
  rule : String
  policy : String
  rule_fresh : Term.namedNode rule ∉ known store upload resource
  policy_fresh : Term.namedNode policy ∉ known store upload resource
  rule_ne_policy : rule ≠ policy

theorem exists_freshNames (store upload : Store) (resource : String) :
    Nonempty (FreshNames store upload resource) := by
  obtain ⟨-, rule, policy, -, hrule, hpolicy, -, -, hne⟩ :=
    exists_fresh_names (known store upload resource)
  exact ⟨⟨rule, policy, hrule, hpolicy, hne⟩⟩

namespace FreshNames

variable {store upload : Store} {resource : String} (names : FreshNames store upload resource)

/-- The nodes the new names stand for. -/
def nodes : List Term := [.namedNode names.rule, .namedNode names.policy]

theorem not_known {node : Term} (h : node ∈ names.nodes) :
    node ∉ known store upload resource := by
  simp only [nodes, List.mem_cons, List.not_mem_nil, or_false] at h
  rcases h with rfl | rfl
  · exact names.rule_fresh
  · exact names.policy_fresh

theorem not_mem_store {node : Term} (h : node ∈ names.nodes) : node ∉ mentioned store :=
  fun hmem => names.not_known h (List.mem_cons_of_mem _ (List.mem_append_left _ hmem))

theorem not_mem_upload {node : Term} (h : node ∈ names.nodes) : node ∉ mentioned upload :=
  fun hmem => names.not_known h (List.mem_cons_of_mem _ (List.mem_append_right _ hmem))

end FreshNames

/-! ## The store where the rule shows -/

/-- The store, with no rule on any target. -/
def withoutTargets (store : Store) : Store :=
  store.removeQuads (store.getQuads none ODRL.target none none)

theorem linked_withoutTargets {store : Store} {a p b : Term} :
    (withoutTargets store).Linked a p b ↔ store.Linked a p b ∧ p ≠ ODRL.target := by
  constructor
  · rintro ⟨q, hq, ha, hp, hb⟩
    obtain ⟨hmem, hkept⟩ := Store.mem_removeQuads.mp hq
    refine ⟨⟨q, hmem, ha, hp, hb⟩, ?_⟩
    rintro rfl
    exact hkept (Store.mem_getQuads.mpr ⟨hmem, Store.matches_iff.mpr (by simp [hp])⟩)
  · rintro ⟨⟨q, hq, ha, hp, hb⟩, hother⟩
    refine ⟨q, Store.mem_removeQuads.mpr ⟨hq, fun hremoved => hother ?_⟩, ha, hp, hb⟩
    rw [← hp]
    exact (Store.matches_iff.mp (Store.mem_getQuads.mp hremoved).2).2.1 _ rfl

theorem getObjects_withoutTargets {store : Store} {a p : Term} (h : p ≠ ODRL.target) :
    (withoutTargets store).getObjects a p none = store.getObjects a p none := by
  have hquads : (withoutTargets store).getQuads a p none none = store.getQuads a p none none := by
    refine Store.getQuads_removeQuads (fun q _ hremoved hmatch => h ?_)
    rw [← (Store.matches_iff.mp hmatch).2.1 p rfl]
    exact (Store.matches_iff.mp (Store.mem_getQuads.mp hremoved).2).2.1 _ rfl
  rw [Store.getObjects, Store.getObjects, hquads]

/-- A policy that permits the rules. -/
def permitting (policy : Term) (rules : List Term) : Store :=
  Store.ofQuads (rules.map (quad policy ODRL.permission))

theorem linked_permitting {policy a p b : Term} {rules : List Term} :
    (permitting policy rules).Linked a p b ↔ a = policy ∧ p = ODRL.permission ∧ b ∈ rules := by
  have hmem : ∀ q, q ∈ permitting policy rules ↔
      ∃ rule ∈ rules, quad policy ODRL.permission rule = q := by
    intro q
    simp only [permitting, Store.mem_ofQuads, List.mem_map]
  constructor
  · rintro ⟨q, hq, rfl, rfl, rfl⟩
    obtain ⟨rule, hrule, rfl⟩ := (hmem q).mp hq
    exact ⟨rfl, rfl, hrule⟩
  · rintro ⟨rfl, rfl, hb⟩
    exact Store.linked_of_mem ((hmem _).mpr ⟨b, hb, rfl⟩)

section Exposing

variable {store upload : Store} {claims : ClaimSet} {resource : String}
  (names : FreshNames store upload resource) (ownTarget : Term) (scope : String)
  (rules : List Term)

/-- What is new in the store: `ownTarget` is the target of a rule without
assignees or constraints. -/
def exposure : Store :=
  (oneRule (.namedNode names.rule) ownTarget (.namedNode names.policy) (actionOf scope) []).addAll
    (permitting (.namedNode names.policy) rules)

def exposing : Store :=
  (withoutTargets store).addAll (exposure names ownTarget scope rules)

variable {names ownTarget scope rules}

theorem described_exposure {node : Term}
    (h : (exposure names ownTarget scope rules).Described node) : node ∈ names.nodes := by
  obtain ⟨q, hq, rfl⟩ := h
  rcases Store.mem_addAll.mp hq with hown | hpermits
  · rcases described_oneRule ⟨q, hown, rfl⟩ with heq | heq <;> simp [FreshNames.nodes, heq]
  · obtain ⟨heq, -⟩ := linked_permitting.mp ⟨q, hpermits, rfl, rfl, rfl⟩
    simp [FreshNames.nodes, heq]

theorem linked_exposing {a p b : Term} :
    (exposing names ownTarget scope rules).Linked a p b ↔
      (store.Linked a p b ∧ p ≠ ODRL.target) ∨
        (oneRule (.namedNode names.rule) ownTarget (.namedNode names.policy) (actionOf scope)
          []).Linked a p b ∨
        (a = .namedNode names.policy ∧ p = ODRL.permission ∧ b ∈ rules) := by
  rw [exposing, exposure, Store.linked_addAll, Store.linked_addAll, linked_withoutTargets,
    linked_permitting]

theorem apart_exposing (hapart : Store.Apart store upload) :
    Store.Apart (exposing names ownTarget scope rules) upload := by
  rintro node hnode ⟨q, hq, rfl⟩
  rcases Store.mem_addAll.mp hq with hold | hnew
  · exact hapart q.subject hnode ⟨q, (Store.mem_removeQuads.mp hold).1, rfl⟩
  · exact not_described_of_fresh (names.not_mem_upload (described_exposure ⟨q, hnew, rfl⟩)) hnode

/-! ## What the upload meets there -/

theorem linked_target_exposing {a b : Term} :
    (exposing names ownTarget scope rules).Linked a ODRL.target b ↔
      a = .namedNode names.rule ∧ b = ownTarget := by
  rw [linked_exposing, linked_oneRule_target]
  constructor
  · rintro (⟨-, hp⟩ | hown | ⟨-, hp, -⟩)
    · exact absurd rfl hp
    · exact hown
    · exact absurd hp (by decide)
  · exact fun hown => Or.inr (Or.inl hown)

/-- The collections have the members they had. -/
theorem linked_partOf_exposing {a b : Term} :
    (exposing names ownTarget scope rules).Linked a ODRL.partOf b ↔
      store.Linked a ODRL.partOf b := by
  rw [linked_exposing]
  constructor
  · rintro (⟨hstored, -⟩ | hown | ⟨-, hp, -⟩)
    · exact hstored
    · exact absurd hown (not_linked_oneRule (by decide))
    · exact absurd hp (by decide)
  · exact fun hstored => Or.inl ⟨hstored, by decide⟩

theorem prohibited_exposing {rule : Term} :
    Prohibited ((exposing names ownTarget scope rules).addAll upload) rule ↔
      Prohibited (store.addAll upload) rule := by
  refine exists_congr (fun policy => ?_)
  rw [Store.linked_addAll, Store.linked_addAll, linked_exposing]
  refine or_congr ?_ Iff.rfl
  constructor
  · rintro (⟨hstored, -⟩ | hown | ⟨-, hp, -⟩)
    · exact hstored
    · exact absurd hown (not_linked_oneRule (by decide))
    · exact absurd hp (by decide)
  · exact fun hstored => Or.inl ⟨hstored, by decide⟩

theorem permitted_exposing {rule : Term} (h : rule = .namedNode names.rule ∨ rule ∈ rules) :
    Permitted (exposing names ownTarget scope rules) rule := by
  refine ⟨.namedNode names.policy, linked_exposing.mpr ?_⟩
  rcases h with heq | hmem
  · exact Or.inr (Or.inl (linked_oneRule.mpr (Or.inr (Or.inr (Or.inl ⟨rfl, rfl, heq⟩)))))
  · exact Or.inr (Or.inr ⟨rfl, rfl, hmem⟩)

theorem permitted_addAll {policies other : Store} {rule : Term} (h : Permitted policies rule) :
    Permitted (policies.addAll other) rule := by
  obtain ⟨policy, hlinked⟩ := h
  exact ⟨policy, Store.linked_addAll.mpr (Or.inl hlinked)⟩

theorem mem_targetsOf_exposing {id : String} {node : Term} :
    node ∈ targetsOf ((exposing names ownTarget scope rules).addAll upload) id ↔
      node ∈ targetsOf (store.addAll upload) id := by
  simp only [mem_targetsOf, Store.LinkedFrom, Store.linked_addAll, linked_partOf_exposing]

theorem mem_assigneesOf_exposing {assignee : Term} :
    assignee ∈ assigneesOf ((exposing names ownTarget scope rules).addAll upload) claims ↔
      assignee ∈ assigneesOf (store.addAll upload) claims := by
  simp only [mem_assigneesOf, Store.LinkedFrom, Store.linked_addAll, linked_partOf_exposing]

theorem own_action_mem : quad (.namedNode names.rule) ODRL.action (.namedNode (actionOf scope)) ∈
    exposing names ownTarget scope rules := by
  refine Store.mem_addAll.mpr (Or.inr (Store.mem_addAll.mpr (Or.inl ?_)))
  exact mem_oneRule.mpr (Or.inr (Or.inl rfl))

/-- The new rule has a target and an action, and nothing else. -/
theorem own_not_linked {p b : Term} (h : p ∉ [ODRL.target, ODRL.action]) :
    ¬ (exposing names ownTarget scope rules).Linked (.namedNode names.rule) p b := by
  have hstored : ¬ store.Described (.namedNode names.rule) :=
    not_described_of_fresh (names.not_mem_store List.mem_cons_self)
  rw [linked_exposing, linked_oneRule]
  rintro (⟨hlinked, -⟩ | (⟨-, rfl, -⟩ | ⟨-, rfl, -⟩ | ⟨ha, -, -⟩ | ⟨-, -, hb⟩) | ⟨ha, -, -⟩)
  · exact hstored hlinked.described
  · exact h (by decide)
  · exact h (by decide)
  · injection ha with ha
    exact names.rule_ne_policy ha
  · exact absurd hb List.not_mem_nil
  · injection ha with ha
    exact names.rule_ne_policy ha

/-- An uploaded rule has the same constraints in both stores. -/
theorem sameConstraints_exposing (hapart : Store.Apart store upload) {rule : Term}
    (hrule : upload.Described rule) :
    SameConstraints (store.addAll upload)
      ((exposing names ownTarget scope rules).addAll upload) rule := by
  have hstored : ¬ store.Described rule := hapart rule hrule
  have hexposing : ¬ (exposing names ownTarget scope rules).Described rule :=
    apart_exposing hapart rule hrule
  have hsame : ∀ p, (store.addAll upload).getObjects rule p none =
      ((exposing names ownTarget scope rules).addAll upload).getObjects rule p none := by
    intro p
    rw [Store.getObjects_addAll_right hapart hstored,
      Store.getObjects_addAll_right (apart_exposing hapart) hexposing]
  refine ⟨hsame _, hsame _, ?_⟩
  intro constraint hlinked predicate hpredicate
  by_cases hdescribed : upload.Described constraint
  · rw [Store.getObjects_addAll_right hapart (hapart _ hdescribed),
      Store.getObjects_addAll_right (apart_exposing hapart) (apart_exposing hapart _ hdescribed)]
  · -- the constraint is one of the store, and none of the new nodes
    have hmentioned : constraint ∈ mentioned upload := by
      by_contra hfresh
      rcases hlinked with h | h
      · exact not_linked_of_fresh hfresh ((Store.linked_addAll_right hstored).mp h)
      · exact not_linked_of_fresh hfresh ((Store.linked_addAll_right hstored).mp h)
    have hnew : ¬ (exposure names ownTarget scope rules).Described constraint :=
      fun h => names.not_mem_upload (described_exposure h) hmentioned
    have hother : predicate ≠ ODRL.target := by
      rintro rfl
      exact absurd hpredicate (by decide)
    rw [Store.getObjects_addAll_left hdescribed, Store.getObjects_addAll_left hdescribed, exposing,
      Store.getObjects_addAll_left hnew, getObjects_withoutTargets hother]

theorem response_exposing (hapart : Store.Apart store upload) {rule : Term}
    (hrule : upload.Described rule) (env : Environment) :
    response env ((exposing names ownTarget scope rules).addAll upload) claims rule =
      response env (store.addAll upload) claims rule :=
  (response_congr (sameConstraints_exposing hapart hrule)).symm

/-- The rules of the upload are candidates in both stores. -/
theorem mem_candidateRules_exposing (hapart : Store.Apart store upload) {rule : Term} :
    rule ∈ candidateRules ((exposing names ownTarget scope rules).addAll upload) claims
        resource scope ↔
      (rule ∈ candidateRules (store.addAll upload) claims resource scope ∧
          upload.Described rule) ∨
        (rule = .namedNode names.rule ∧ ownTarget ∈ targetsOf (store.addAll upload) resource) := by
  have hrule : ¬ upload.Described (.namedNode names.rule) :=
    not_described_of_fresh (names.not_mem_upload List.mem_cons_self)
  -- the uploaded rules have the same action and assignees in both stores
  have hsame : upload.Described rule →
      (rule ∈ candidateRules ((exposing names ownTarget scope rules).addAll upload) claims
          resource scope ↔
        rule ∈ candidateRules (store.addAll upload) claims resource scope) := by
    intro hdescribed
    have hstored : ¬ store.Described rule := hapart rule hdescribed
    have hexposing : ¬ (exposing names ownTarget scope rules).Described rule :=
      apart_exposing hapart rule hdescribed
    simp only [mem_candidateRules, mem_targetsOf_exposing, hasAction_iff, hasAssignee_iff,
      mem_addAll_right hstored, mem_addAll_right hexposing, Store.linked_addAll_right hstored,
      Store.linked_addAll_right hexposing, mem_assigneesOf_exposing]
  constructor
  · intro hcandidate
    obtain ⟨⟨node, hnode, hlinked⟩, -⟩ := mem_candidateRules.mp hcandidate
    rcases Store.linked_addAll.mp hlinked with hown | huploaded
    · obtain ⟨heq, rfl⟩ := linked_target_exposing.mp hown
      exact Or.inr ⟨heq, mem_targetsOf_exposing.mp hnode⟩
    · exact Or.inl ⟨(hsame huploaded.described).mp hcandidate, huploaded.described⟩
  · rintro (⟨hcandidate, hdescribed⟩ | ⟨rfl, hnode⟩)
    · exact (hsame hdescribed).mpr hcandidate
    · refine mem_candidateRules.mpr ⟨⟨ownTarget, mem_targetsOf_exposing.mpr hnode,
        Store.linked_addAll.mpr (Or.inl ?_)⟩, ?_, ?_⟩
      · exact linked_target_exposing.mpr ⟨rfl, rfl⟩
      · exact hasAction_iff.mpr (Or.inl (Store.mem_addAll.mpr (Or.inl own_action_mem)))
      · refine hasAssignee_iff.mpr (Or.inl (fun assignee hlinked => ?_))
        exact own_not_linked (by decide) ((Store.linked_addAll_left hrule).mp hlinked)

/-! ## Without the upload -/

theorem mem_targetsOf_own {id : String} {node : Term} :
    node ∈ targetsOf (exposing names ownTarget scope rules) id ↔ node ∈ targetsOf store id := by
  simp only [mem_targetsOf, Store.LinkedFrom, linked_partOf_exposing]

theorem mem_candidateRules_own {rule : Term} :
    rule ∈ candidateRules (exposing names ownTarget scope rules) claims resource scope ↔
      rule = .namedNode names.rule ∧ ownTarget ∈ targetsOf store resource := by
  rw [mem_candidateRules]
  constructor
  · rintro ⟨⟨node, hnode, hlinked⟩, -⟩
    obtain ⟨heq, rfl⟩ := linked_target_exposing.mp hlinked
    exact ⟨heq, mem_targetsOf_own.mp hnode⟩
  · rintro ⟨rfl, hnode⟩
    refine ⟨⟨ownTarget, mem_targetsOf_own.mpr hnode, linked_target_exposing.mpr ⟨rfl, rfl⟩⟩,
      hasAction_iff.mpr (Or.inl own_action_mem), hasAssignee_iff.mpr (Or.inl ?_)⟩
    exact fun assignee hlinked => own_not_linked (by decide) hlinked

/-- The new rule holds, whatever is said about other nodes. -/
theorem response_own (env : Environment) {other : Store}
    (h : ¬ other.Described (.namedNode names.rule)) :
    response env ((exposing names ownTarget scope rules).addAll other) claims
      (.namedNode names.rule) = .ok (some true) := by
  refine response_of_unconstrained ?_ ?_
  · intro constraint
    rw [Store.linked_addAll_left h]
    exact own_not_linked (by decide)
  · intro constraint
    rw [Store.linked_addAll_left h]
    exact own_not_linked (by decide)

theorem own_not_prohibited :
    ¬ Prohibited (exposing names ownTarget scope rules) (.namedNode names.rule) := by
  have hstored : Term.namedNode names.rule ∉ mentioned store :=
    names.not_mem_store List.mem_cons_self
  rintro ⟨policy, hlinked⟩
  rcases linked_exposing.mp hlinked with ⟨h, -⟩ | hown | ⟨-, hp, -⟩
  · exact not_linked_of_fresh hstored h
  · exact not_linked_oneRule (by decide) hown
  · exact absurd hp (by decide)

/-- A fresh target is none of the resource. -/
theorem policy_not_mem_targetsOf :
    Term.namedNode names.policy ∉ targetsOf (store.addAll upload) resource := by
  rw [mem_targetsOf]
  rintro (heq | ⟨node, -, hlinked⟩)
  · exact names.policy_fresh (heq ▸ List.mem_cons_self)
  · rcases Store.linked_addAll.mp hlinked with hstored | huploaded
    · exact not_linked_of_fresh (names.not_mem_store (by simp [FreshNames.nodes])) hstored
    · exact not_linked_of_fresh (names.not_mem_upload (by simp [FreshNames.nodes])) huploaded

theorem hasLocalRule_exposing {clientID : String} :
    HasLocalRule (exposing names ownTarget scope rules) upload clientID resource ↔
      HasLocalRule store upload clientID resource := by
  simp only [HasLocalRule, linked_partOf_exposing]

end Exposing

/-! ## Live rules of others -/

section Live

variable {store upload : Store} {claims : ClaimSet} {resource scope : String}
  {env : Environment}

theorem mem_targeting {rules : List Term} {rule : Term}
    (hapart : Store.Apart store upload)
    (hrules : ∀ a b, upload.Linked a ODRL.target b → a ∈ rules)
    (hcandidate : rule ∈ candidateRules (store.addAll upload) claims resource scope)
    (hdescribed : upload.Described rule) : rule ∈ rules := by
  obtain ⟨⟨target, -, hlinked⟩, -⟩ := mem_candidateRules.mp hcandidate
  exact hrules rule target ((Store.linked_addAll_right (hapart rule hdescribed)).mp hlinked)

/-- Where no valid rule of the upload is prohibited, the resource is opened up by
the rules of the upload alone. -/
theorem exposed_granted (names : FreshNames store upload resource)
    (hapart : Store.Apart store upload)
    (hlive : LiveFor store upload env claims resource scope)
    (hgood : ∀ rule ∈ candidateRules (store.addAll upload) claims resource scope,
      upload.Described rule → Valid env (store.addAll upload) claims rule →
        ¬ Prohibited (store.addAll upload) rule) {rules : List Term}
    (hrules : ∀ a b, upload.Linked a ODRL.target b → a ∈ rules) :
    let stored := exposing names (.namedNode names.policy) scope rules
    getPermissions env stored claims resource scope = .ok (some []) ∧
      getPermissions env (stored.addAll upload) claims resource scope = .ok (some [scope]) := by
  intro stored
  obtain ⟨hdefinite, rule, hrule, hdescribed, hvalid⟩ := hlive
  have hnot : Term.namedNode names.policy ∉ targetsOf (store.addAll upload) resource :=
    policy_not_mem_targetsOf
  have hcandidates : ∀ other, other ∈ candidateRules (stored.addAll upload) claims resource scope ↔
      other ∈ candidateRules (store.addAll upload) claims resource scope ∧
        upload.Described other :=
    fun other => (mem_candidateRules_exposing hapart).trans (or_iff_left (fun h => hnot h.2))
  have hresponse : ∀ other, upload.Described other →
      response env (stored.addAll upload) claims other =
        response env (store.addAll upload) claims other :=
    fun other hother => response_exposing hapart hother env
  refine ⟨?_, getPermissions_of_granted ?_ ?_
    ⟨⟨rule, (hcandidates rule).mpr ⟨hrule, hdescribed⟩, ?_⟩, ?_⟩⟩
  · refine getPermissions_of_no_candidates fun other h => hnot ?_
    rw [mem_targetsOf, Store.linkedFrom_addAll]
    exact (mem_targetsOf.mp (mem_candidateRules_own.mp h).2).imp_right Or.inl
  · intro other hother
    obtain ⟨hcandidate, huploaded⟩ := (hcandidates other).mp hother
    rw [Definite, hresponse other huploaded]
    exact hdefinite other hcandidate huploaded
  · intro other hother _
    obtain ⟨hcandidate, huploaded⟩ := (hcandidates other).mp hother
    exact permitted_addAll (permitted_exposing (Or.inr
      (mem_targeting hapart hrules hcandidate huploaded)))
  · exact (hresponse rule hdescribed).trans hvalid
  · intro other hother hotherValid
    obtain ⟨hcandidate, huploaded⟩ := (hcandidates other).mp hother
    rw [prohibited_exposing]
    exact hgood other hcandidate huploaded ((hresponse other huploaded).symm.trans hotherValid)

/-- Where one is, the permission on the resource is overruled. -/
theorem exposed_refused (names : FreshNames store upload resource)
    (hapart : Store.Apart store upload)
    (hlive : LiveFor store upload env claims resource scope) {bad : Term}
    (hbad : bad ∈ candidateRules (store.addAll upload) claims resource scope)
    (hdescribed : upload.Described bad) (hvalid : Valid env (store.addAll upload) claims bad)
    (hprohibited : Prohibited (store.addAll upload) bad) {rules : List Term}
    (hrules : ∀ a b, upload.Linked a ODRL.target b → a ∈ rules) :
    let stored := exposing names (.namedNode resource) scope rules
    getPermissions env stored claims resource scope = .ok (some [scope]) ∧
      getPermissions env (stored.addAll upload) claims resource scope = .ok (some []) := by
  intro stored
  have hrule : ¬ upload.Described (.namedNode names.rule) :=
    not_described_of_fresh (names.not_mem_upload List.mem_cons_self)
  have hempty : ¬ Store.empty.Described (.namedNode names.rule) :=
    not_described_of_fresh (not_mem_mentioned_empty _)
  have hown : ∀ other ∈ candidateRules stored claims resource scope,
      other = .namedNode names.rule := fun other hother => (mem_candidateRules_own.mp hother).1
  have hcandidates : ∀ other ∈ candidateRules (stored.addAll upload) claims resource scope,
      (other ∈ candidateRules (store.addAll upload) claims resource scope ∧
          upload.Described other) ∨ other = .namedNode names.rule := fun other hother =>
    ((mem_candidateRules_exposing hapart).mp hother).imp_right And.left
  have hresponse : ∀ other, upload.Described other →
      response env (stored.addAll upload) claims other =
        response env (store.addAll upload) claims other :=
    fun other hother => response_exposing hapart hother env
  have hownResponse : response env stored claims (.namedNode names.rule) = .ok (some true) := by
    rw [← Store.addAll_empty stored]
    exact response_own env hempty
  constructor
  · refine getPermissions_of_granted ?_ ?_ ⟨⟨.namedNode names.rule, ?_, hownResponse⟩, ?_⟩
    · intro other hother
      rw [hown other hother]
      exact ⟨true, hownResponse⟩
    · intro other hother _
      rw [hown other hother]
      exact permitted_exposing (Or.inl rfl)
    · exact mem_candidateRules_own.mpr ⟨rfl, mem_targetsOf.mpr (Or.inl rfl)⟩
    · intro other hother _
      rw [hown other hother]
      exact own_not_prohibited
  · refine getPermissions_of_not_granted ?_ ?_ ?_
    · intro other hother
      rcases hcandidates other hother with ⟨hcandidate, huploaded⟩ | rfl
      · rw [Definite, hresponse other huploaded]
        exact hlive.1 other hcandidate huploaded
      · exact ⟨true, response_own env hrule⟩
    · intro other hother _
      rcases hcandidates other hother with ⟨hcandidate, huploaded⟩ | rfl
      · exact permitted_addAll (permitted_exposing (Or.inr
          (mem_targeting hapart hrules hcandidate huploaded)))
      · exact permitted_addAll (permitted_exposing (Or.inl rfl))
    · rintro ⟨-, hnone⟩
      exact hnone bad ((mem_candidateRules_exposing hapart).mpr (Or.inl ⟨hbad, hdescribed⟩))
        ((hresponse bad hdescribed).trans hvalid) (prohibited_exposing.mpr hprohibited)

theorem not_postIsLocal_of_live {penv : PolicyEnvironment} {data clientID : String}
    {quads : List Quad} (hparse : penv.parse data = .ok quads)
    (hvalid : ValidUpload penv.toQueryEngine (Store.ofQuads quads) clientID)
    (hapart : Store.Apart store (Store.ofQuads quads))
    (hforeign : ¬ HasLocalRule store (Store.ofQuads quads) clientID resource)
    (hlive : LiveFor store (Store.ofQuads quads) env claims resource scope) :
    ¬ PostIsLocal penv data clientID := by
  intro hlocal
  let upload := Store.ofQuads quads
  let rules := (upload.getQuads none ODRL.target none none).map Quad.subject
  have hrules : ∀ a b, upload.Linked a ODRL.target b → a ∈ rules := by
    rintro a b ⟨q, hq, rfl, hp, -⟩
    refine List.mem_map.mpr ⟨q, Store.mem_getQuads.mpr ⟨hq, ?_⟩, rfl⟩
    exact Store.matches_iff.mpr (by simp [hp])
  obtain ⟨names⟩ := exists_freshNames store upload resource
  by_cases hbad : ∃ bad ∈ candidateRules (store.addAll upload) claims resource scope,
      upload.Described bad ∧ Valid env (store.addAll upload) claims bad ∧
        Prohibited (store.addAll upload) bad
  · obtain ⟨bad, hmem, hdescribed, hbadValid, hprohibited⟩ := hbad
    obtain ⟨hbefore, hafter⟩ :=
      exposed_refused names hapart hlive hmem hdescribed hbadValid hprohibited hrules
    exact hforeign (hasLocalRule_exposing.mp (hasLocalRule_of_posted hlocal hparse hvalid
      (apart_exposing hapart) hbefore hafter (List.cons_ne_nil _ _)))
  · have hgood : ∀ rule ∈ candidateRules (store.addAll upload) claims resource scope,
        upload.Described rule → Valid env (store.addAll upload) claims rule →
          ¬ Prohibited (store.addAll upload) rule :=
      fun rule hrule hdescribed hruleValid hprohibited =>
        hbad ⟨rule, hrule, hdescribed, hruleValid, hprohibited⟩
    obtain ⟨hbefore, hafter⟩ := exposed_granted names hapart hlive hgood hrules
    exact hforeign (hasLocalRule_exposing.mp (hasLocalRule_of_posted hlocal hparse hvalid
      (apart_exposing hapart) hbefore hafter (List.cons_ne_nil _ _).symm))

end Live

/-! ## The uploads with local effects -/

/-- A permission of Bob for the members of a collection. -/
def storeForMembers : Store :=
  let permission := Term.namedNode "http://example.org/bobs-permission"
  Store.ofQuads [quad (.namedNode "http://example.org/bobs-policy") ODRL.permission permission,
    quad permission ODRL.action ODRL.read,
    quad permission ODRL.target (.namedNode "http://example.org/bobs-resource"),
    quad permission ODRL.assignee (.namedNode "http://example.org/members"),
    quad permission ODRL.assigner (.namedNode "http://example.org/bob")]

/-- A policy of Alice, who also declares herself a member. -/
def uploadWithMembership : List Quad :=
  let policy := Term.namedNode "http://example.org/policy"
  let permission := Term.namedNode "http://example.org/permission"
  [quad policy RDF.type ODRL.Set, quad policy ODRL.uid policy,
    quad policy ODRL.permission permission,
    quad permission RDF.type ODRL.Permission, quad permission ODRL.action ODRL.read,
    quad permission ODRL.target (.namedNode "http://example.org/resource"),
    quad permission ODRL.assigner (.namedNode "http://example.org/alice"),
    quad (.namedNode "http://example.org/alice") ODRL.partOf
      (.namedNode "http://example.org/members")]

end UserManagedAccess.Controller
