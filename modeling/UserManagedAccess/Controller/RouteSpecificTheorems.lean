/-
UserManagedAccess.Controller.RouteSpecificTheorems — what the functions on
policies read and accept.

`Selects` says which policies and permissions the retrieval query selects: for
absolute IRIs a graph pattern, for other strings whatever the engine answers
to the text. `mem_getPolicy` is the description of the isolated part of a
policy: the quads about the nodes `Reached` from those. `postPolicy_ok` is
what the check of an upload checks.
-/
import UserManagedAccess.Controller.RouteSpecific
import UserManagedAccess.Lib.Except
import UserManagedAccess.Rdf.Links

namespace UserManagedAccess.Controller

open UserManagedAccess.Lib UserManagedAccess.Rdf UserManagedAccess.Util

/-! ## Patterns -/

theorem mem_objectsOf {store : Store} {a p b : Term} :
    b ∈ objectsOf store a p ↔ quad a p b ∈ store := by
  rw [objectsOf, Store.mem_getObjects]
  constructor
  · rintro ⟨⟨a', p', b', g'⟩, hq, hmatch, hb⟩
    obtain ⟨ha, hp, -, hg⟩ := Store.matches_iff.mp hmatch
    obtain rfl : a' = a := ha a rfl
    obtain rfl : p' = p := hp p rfl
    obtain rfl : g' = Term.defaultGraph := hg _ rfl
    obtain rfl : b' = b := hb
    exact hq
  · intro hq
    refine ⟨quad a p b, hq, Store.matches_iff.mpr ?_, rfl⟩
    simp

theorem mem_subjectsOf {store : Store} {a p b : Term} :
    a ∈ subjectsOf store p b ↔ quad a p b ∈ store := by
  rw [subjectsOf, Store.mem_getSubjects]
  constructor
  · rintro ⟨⟨a', p', b', g'⟩, hq, hmatch, ha⟩
    obtain ⟨-, hp, hb, hg⟩ := Store.matches_iff.mp hmatch
    obtain rfl : p' = p := hp p rfl
    obtain rfl : b' = b := hb b rfl
    obtain rfl : g' = Term.defaultGraph := hg _ rfl
    obtain rfl : a' = a := ha
    exact hq
  · intro hq
    refine ⟨quad a p b, hq, Store.matches_iff.mpr ?_, rfl⟩
    simp

theorem holds_iff {store : Store} {a p b : Term} :
    holds store a p b = true ↔ quad a p b ∈ store :=
  Store.has_iff _ _

/-! ## What the queries select -/

variable {engine : QueryEngine}

/-- The policies that have the identifier, each with a permission of the
client that has a target. -/
structure Matches (store : Store) (policyID clientID : String) (policy permission : Term) :
    Prop where
  uid : quad policy ODRL.uid (.namedNode policyID) ∈ store
  link : quad policy ODRL.permission permission ∈ store
  assigner : quad permission ODRL.assigner (.namedNode clientID) ∈ store
  target : ∃ target, quad permission ODRL.target target ∈ store
  type : isPolicyType store policy = true

/-- The retrieval query selects the policy with the permission. -/
inductive Selects (engine : QueryEngine) (store : Store) (policyID clientID : String) :
    Term → Term → Prop
  | pattern (policy permission : Term) (hpolicyID : isQueryIri policyID = true)
      (hclientID : isQueryIri clientID = true)
      (hmatch : Matches store policyID clientID policy permission) :
      Selects engine store policyID clientID (engine.toSolution policy)
        (engine.toSolution permission)
  | answer (policy permission : Term) (bindings : List (String → Option Term))
      (binding : String → Option Term) (htext : ¬ (isQueryIri policyID = true ∧ isQueryIri clientID = true))
      (hanswer : engine.queryBindings (buildPolicyRetrievalQuery policyID clientID) store =
        .ok bindings)
      (hmem : binding ∈ bindings) (hpolicy : binding "policy" = some policy)
      (hperm : binding "perm" = some permission) :
      Selects engine store policyID clientID policy permission

theorem mem_retrievalPattern {store : Store} {policyID clientID : String}
    {policy permission : Term} :
    (policy, permission) ∈ retrievalPattern store policyID clientID ↔
      Matches store policyID clientID policy permission := by
  have htarget : (!(objectsOf store permission ODRL.target).isEmpty) = true ↔
      ∃ target, quad permission ODRL.target target ∈ store := by
    rw [Bool.not_eq_true', List.isEmpty_eq_false_iff_exists_mem]
    simp only [mem_objectsOf]
  simp only [retrievalPattern, List.mem_flatMap, List.mem_map, List.mem_filter, Prod.mk.injEq,
    mem_subjectsOf, mem_objectsOf]
  constructor
  · rintro ⟨_, huid, _, ⟨hlink, howned⟩, rfl, rfl⟩
    simp only [isOwnedPermission, Bool.and_eq_true, holds_iff, htarget] at howned
    exact ⟨huid, hlink, howned.1.1, howned.1.2, howned.2⟩
  · rintro ⟨huid, hlink, hassigner, hhas, htype⟩
    refine ⟨policy, huid, permission, ⟨hlink, ?_⟩, rfl, rfl⟩
    simp only [isOwnedPermission, Bool.and_eq_true, holds_iff, htarget]
    exact ⟨⟨hassigner, hhas⟩, htype⟩

theorem retrievalBindings_of_iris {store : Store} {policyID clientID : String}
    (hpolicyID : isQueryIri policyID = true) (hclientID : isQueryIri clientID = true) :
    retrievalBindings engine store policyID clientID =
      .ok ((retrievalPattern store policyID clientID).map fun (policy, perm) =>
        (engine.toSolution policy, engine.toSolution perm)) := by
  rw [retrievalBindings, if_pos (by rw [hpolicyID, hclientID, Bool.and_self])]

theorem retrievalBindings_of_text {store : Store} {policyID clientID : String}
    (htext : ¬ (isQueryIri policyID = true ∧ isQueryIri clientID = true)) :
    retrievalBindings engine store policyID clientID =
      (engine.queryBindings (buildPolicyRetrievalQuery policyID clientID) store).map
        (List.filterMap fun binding : String → Option Term =>
          (binding "policy").bind fun policy =>
            (binding "perm").map fun perm => (policy, perm)) := by
  rw [retrievalBindings, if_neg (by rwa [Bool.and_eq_true])]
  cases engine.queryBindings (buildPolicyRetrievalQuery policyID clientID) store with
  | error e => rfl
  | ok bindings =>
    refine congrArg (fun f => Except.ok (bindings.filterMap f)) (funext fun binding => ?_)
    cases binding "policy" <;> cases binding "perm" <;> rfl

/-- The solutions of the retrieval query. -/
theorem mem_retrievalBindings {store : Store} {policyID clientID : String}
    {bindings : List (Term × Term)}
    (hbindings : retrievalBindings engine store policyID clientID = .ok bindings)
    {policy permission : Term} :
    (policy, permission) ∈ bindings ↔ Selects engine store policyID clientID policy permission := by
  by_cases hiris : isQueryIri policyID = true ∧ isQueryIri clientID = true
  · rw [retrievalBindings_of_iris hiris.1 hiris.2] at hbindings
    obtain rfl := Except.ok.inj hbindings
    simp only [List.mem_map, Prod.exists, mem_retrievalPattern, Prod.mk.injEq]
    constructor
    · rintro ⟨p, r, hmatch, rfl, rfl⟩
      exact .pattern p r hiris.1 hiris.2 hmatch
    · rintro (⟨p, r, -, -, hmatch⟩ | ⟨-, -, -, -, htext, -⟩)
      · exact ⟨p, r, hmatch, rfl, rfl⟩
      · exact absurd hiris htext
  · rw [retrievalBindings_of_text hiris] at hbindings
    rcases hanswer : engine.queryBindings (buildPolicyRetrievalQuery policyID clientID) store with
      e | answers
    · rw [hanswer] at hbindings
      cases hbindings
    rw [hanswer] at hbindings
    obtain rfl := Except.ok.inj hbindings
    simp only [List.mem_filterMap, Option.bind_eq_some_iff, Option.map_eq_some_iff, Prod.mk.injEq]
    constructor
    · rintro ⟨binding, hmem, p, hp, r, hr, rfl, rfl⟩
      exact .answer p r answers binding hiris hanswer hmem hp hr
    · rintro (⟨_, _, hpolicyID, hclientID, -⟩ | ⟨_, _, answers', binding, -, hanswer', hmem, hp, hr⟩)
      · exact absurd ⟨hpolicyID, hclientID⟩ hiris
      · obtain rfl : answers = answers' := Except.ok.inj (hanswer.symm.trans hanswer')
        exact ⟨binding, hmem, _, hp, _, hr, rfl, rfl⟩

/-! ## The isolated part of a policy -/

/-- `permissionToQuads` of `node` reads the quads about `other`. -/
def Reads (store : Store) (node other : Term) : Prop :=
  other = node ∨ store.Linked other ODRL.permission node ∨ store.Linked node ODRL.constraint other

/-- The query selects the node, as a policy or as a permission of one. -/
def Selected (engine : QueryEngine) (store : Store) (policyID clientID : String) (node : Term) :
    Prop :=
  ∃ policy permission, Selects engine store policyID clientID policy permission ∧
    (node = policy ∨ node = permission)

/-- `getPolicy` returns the quads about `node`. -/
def Reached (engine : QueryEngine) (store : Store) (policyID clientID : String) (node : Term) :
    Prop :=
  ∃ selected, Selected engine store policyID clientID selected ∧ Reads store selected node

theorem mem_permissionToQuads {store : Store} {node : Term} {q : Quad} :
    q ∈ permissionToQuads store node ↔ q ∈ store ∧ Reads store node q.subject := by
  simp only [permissionToQuads, List.mem_append, List.mem_flatMap, Store.mem_getSubjects_linked,
    Store.mem_getObjects_linked, Store.mem_getQuads_subject, Reads]
  constructor
  · rintro ((⟨policy, hlink, hq, rfl⟩ | ⟨hq, rfl⟩) | ⟨constraint, hlink, hq, rfl⟩)
    · exact ⟨hq, Or.inr (Or.inl hlink)⟩
    · exact ⟨hq, Or.inl rfl⟩
    · exact ⟨hq, Or.inr (Or.inr hlink)⟩
  · rintro ⟨hq, (heq | hlink | hlink)⟩
    · exact Or.inl (Or.inr ⟨hq, heq⟩)
    · exact Or.inl (Or.inl ⟨q.subject, hlink, hq, rfl⟩)
    · exact Or.inr ⟨q.subject, hlink, hq, rfl⟩

theorem getPolicy_ok {store isolated : Store} {policyID clientID : String} :
    getPolicy engine store policyID clientID = .ok isolated ↔
      ∃ bindings, retrievalBindings engine store policyID clientID = .ok bindings ∧
        isolated = Store.ofQuads (bindings.flatMap fun (policy, perm) =>
          permissionToQuads store policy ++ permissionToQuads store perm) := by
  rw [getPolicy, Except.bind_eq_ok]
  refine exists_congr fun bindings => and_congr_right' ?_
  exact ⟨fun h => (Except.ok.inj h).symm, fun h => congrArg Except.ok h.symm⟩

theorem mem_getPolicy {store isolated : Store} {policyID clientID : String}
    (h : getPolicy engine store policyID clientID = .ok isolated) {q : Quad} :
    q ∈ isolated ↔ q ∈ store ∧ Reached engine store policyID clientID q.subject := by
  obtain ⟨bindings, hbindings, rfl⟩ := getPolicy_ok.mp h
  simp only [Store.mem_ofQuads, List.mem_flatMap, List.mem_append, mem_permissionToQuads]
  constructor
  · rintro ⟨⟨policy, permission⟩, hbinding, hquads⟩
    have hselects := (mem_retrievalBindings hbindings).mp hbinding
    rcases hquads with ⟨hq, hreads⟩ | ⟨hq, hreads⟩
    · exact ⟨hq, policy, ⟨policy, permission, hselects, Or.inl rfl⟩, hreads⟩
    · exact ⟨hq, permission, ⟨policy, permission, hselects, Or.inr rfl⟩, hreads⟩
  · rintro ⟨hq, _, ⟨policy, permission, hselects, rfl | rfl⟩, hreads⟩
    · exact ⟨(_, _), (mem_retrievalBindings hbindings).mpr hselects, Or.inl ⟨hq, hreads⟩⟩
    · exact ⟨(_, _), (mem_retrievalBindings hbindings).mpr hselects, Or.inr ⟨hq, hreads⟩⟩

/-- A query that is refused selects nothing. -/
theorem not_reached_of_error {store : Store} {policyID clientID : String} {e : HttpError}
    (h : getPolicy engine store policyID clientID = .error e) {node : Term} :
    ¬ Reached engine store policyID clientID node := by
  have hrefused : ∀ bindings, retrievalBindings engine store policyID clientID ≠ .ok bindings := by
    intro bindings hbindings
    have hok := getPolicy_ok.mpr ⟨bindings, hbindings, rfl⟩
    rw [h] at hok
    cases hok
  rintro ⟨_, ⟨_, _, ⟨policy, permission, hpolicyID, hclientID, -⟩ |
    ⟨_, _, bindings, binding, htext, hanswer, -⟩, -⟩, -⟩
  · exact hrefused _ (retrievalBindings_of_iris hpolicyID hclientID)
  · exact hrefused _ ((retrievalBindings_of_text htext).trans (congrArg _ hanswer))

/-- The engine answers the retrieval query: it always does for absolute IRIs. -/
def Answers (engine : QueryEngine) (policyID clientID : String) (store : Store) : Prop :=
  (isQueryIri policyID = true ∧ isQueryIri clientID = true) ∨
    ∃ bindings, engine.queryBindings (buildPolicyRetrievalQuery policyID clientID) store =
      .ok bindings

theorem exists_getPolicy_ok {store : Store} {policyID clientID : String} :
    (∃ isolated, getPolicy engine store policyID clientID = .ok isolated) ↔
      Answers engine policyID clientID store := by
  have hfound : (∃ isolated, getPolicy engine store policyID clientID = .ok isolated) ↔
      ∃ bindings, retrievalBindings engine store policyID clientID = .ok bindings := by
    simp only [getPolicy_ok]
    exact ⟨fun ⟨_, bindings, h, _⟩ => ⟨bindings, h⟩, fun ⟨bindings, h⟩ => ⟨_, bindings, h, rfl⟩⟩
  rw [hfound, Answers]
  by_cases hiris : isQueryIri policyID = true ∧ isQueryIri clientID = true
  · exact iff_of_true ⟨_, retrievalBindings_of_iris hiris.1 hiris.2⟩ (Or.inl hiris)
  · rw [or_iff_right hiris, retrievalBindings_of_text hiris]
    cases engine.queryBindings (buildPolicyRetrievalQuery policyID clientID) store with
    | error e => simp [Except.map]
    | ok bindings => simp [Except.map]

/-! ## Uploads -/

/-- A success keeps the whole upload: the check is on a part of it. -/
theorem postPolicy_ok {store result : Store} {clientID id : String} :
    postPolicy engine store clientID = .ok (result, id) ↔
      isAssigner store clientID = true ∧
        (∃ first rest, creationBindings engine store clientID = .ok (first :: rest)) ∧
        result = store ∧ id = "" := by
  unfold postPolicy executePost
  cases hassigner : isAssigner store clientID with
  | false => simp [throw, throwThe, MonadExceptOf.throw, bind, Except.bind]
  | true =>
    rcases hbindings : creationBindings engine store clientID with e | (_ | ⟨first, rest⟩)
    · simp [bind, Except.bind]
    · simp [bind, Except.bind]
    · simp [bind, Except.bind, pure, Except.pure, eq_comm]

/-- For an absolute IRI, a match of the graph pattern is enough. -/
theorem creationBindings_of_pattern {store : Store} {clientID : String}
    (hclientID : isQueryIri clientID = true) (hmatched : creationPattern store clientID ≠ []) :
    ∃ first rest, creationBindings engine store clientID = .ok (first :: rest) := by
  obtain ⟨⟨p, r⟩, rest, hpattern⟩ := List.exists_cons_of_ne_nil hmatched
  exact ⟨_, _, by rw [creationBindings, if_pos hclientID, hpattern, List.map_cons]⟩

theorem noAlreadyDefinedSubjects_iff {store newStore : Store} :
    noAlreadyDefinedSubjects store newStore = true ↔
      ∀ node, newStore.Described node → ¬ store.Described node := by
  simp only [noAlreadyDefinedSubjects, List.all_eq_true, beq_iff_eq, Store.countQuads_eq_zero,
    Store.mem_getSubjects]
  constructor
  · rintro hfresh node ⟨q, hq, hnode⟩ ⟨r, hr, hsubject⟩
    have hmatch : q.matches none none none none = true := Store.matches_iff.mpr (by simp)
    refine hfresh node ⟨q, hq, hmatch, hnode⟩ r hr (Store.matches_iff.mpr ?_)
    simp [hsubject]
  · rintro hfresh node ⟨q, hq, -, hnode⟩ r hr hmatch
    exact hfresh node ⟨q, hq, hnode⟩ ⟨r, hr, (Store.matches_iff.mp hmatch).1 node rfl⟩

end UserManagedAccess.Controller
