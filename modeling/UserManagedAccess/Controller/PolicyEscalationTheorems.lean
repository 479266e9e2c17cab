/-
UserManagedAccess.Controller.PolicyEscalationTheorems — every upload that is
not local changes some decision without a rule of the poster.

For each way of not being local there is a store with one rule on nodes that
the upload does not mention, or with links to the rules of the upload, where
the answer to some request changes. Together with the other direction this
gives `postIsLocal_iff`.
-/
import Mathlib.Data.Fintype.EquivFin
import UserManagedAccess.Controller.PolicyDecisionsTheorems

namespace UserManagedAccess.Controller

open UserManagedAccess.Lib UserManagedAccess.Rdf UserManagedAccess.Util UserManagedAccess.Ucp
open UserManagedAccess.Credentials UserManagedAccess.Policies
open UserManagedAccess.Policies.SimpleOdrlAuthorizer

/-! ## Nodes an upload does not mention -/

/-- The nodes in the quads of a store. -/
def mentioned (store : Store) : List Term :=
  store.quads.flatMap fun q => [q.subject, q.object]

theorem not_described_of_fresh {store : Store} {node : Term} (h : node ∉ mentioned store) :
    ¬ store.Described node := by
  rintro ⟨q, hq, rfl⟩
  exact h (List.mem_flatMap.mpr ⟨q, hq, List.mem_cons_self⟩)

theorem not_linked_of_fresh {store : Store} {node subject predicate : Term}
    (h : node ∉ mentioned store) : ¬ store.Linked subject predicate node := by
  rintro ⟨q, hq, -, -, rfl⟩
  exact h (List.mem_flatMap.mpr ⟨q, hq, List.mem_cons_of_mem _ List.mem_cons_self⟩)

theorem not_mem_mentioned_empty (node : Term) : node ∉ mentioned Store.empty :=
  List.not_mem_nil

theorem exists_fresh (nodes : List Term) : ∃ name, Term.namedNode name ∉ nodes := by
  obtain ⟨name, hname⟩ := Infinite.exists_notMem_finset (nodes.map Term.value).toFinset
  refine ⟨name, fun hmem => hname ?_⟩
  rw [List.mem_toFinset]
  exact List.mem_map.mpr ⟨_, hmem, rfl⟩

/-- A scope for which no rule of the upload has the action. -/
theorem exists_fresh_scope (upload : Store) : ∃ scope,
    actionOf scope = scope ∧ superAction scope = none ∧
      Term.namedNode scope ∉ mentioned upload := by
  obtain ⟨scope, hscope⟩ := exists_fresh (mentioned upload ++
    ODRL.append :: ODRL.write :: scopeCssToOdrl.map fun entry => .namedNode entry.1)
  rw [List.mem_append, not_or] at hscope
  obtain ⟨hupload, hother⟩ := hscope
  refine ⟨scope, actionOf_self ?_, ?_, hupload⟩
  · rintro entry hentry rfl
    exact hother (List.mem_cons_of_mem _ (List.mem_cons_of_mem _ (List.mem_map.mpr
      ⟨entry, hentry, rfl⟩)))
  · unfold superAction
    rw [if_neg]
    rintro (rfl | rfl)
    · exact hother List.mem_cons_self
    · exact hother (List.mem_cons_of_mem _ List.mem_cons_self)

/-! ## A store with one permission -/

def oneRule (rule target policy : Term) (action : String) (assignees : List Term) : Store :=
  Store.ofQuads ([quad rule ODRL.target target, quad rule ODRL.action (.namedNode action),
    quad policy ODRL.permission rule] ++
    assignees.map fun assignee => quad rule ODRL.assignee assignee)

section OneRule

variable {rule target policy : Term} {action : String} {assignees : List Term}

theorem mem_oneRule {q : Quad} :
    q ∈ oneRule rule target policy action assignees ↔
      q = quad rule ODRL.target target ∨ q = quad rule ODRL.action (.namedNode action) ∨
        q = quad policy ODRL.permission rule ∨
          ∃ assignee ∈ assignees, q = quad rule ODRL.assignee assignee := by
  simp only [oneRule, Store.mem_ofQuads, List.mem_append, List.mem_cons, List.not_mem_nil,
    or_false, List.mem_map, eq_comm, or_assoc]

theorem linked_oneRule {a p b : Term} :
    (oneRule rule target policy action assignees).Linked a p b ↔
      (a = rule ∧ p = ODRL.target ∧ b = target) ∨
        (a = rule ∧ p = ODRL.action ∧ b = .namedNode action) ∨
          (a = policy ∧ p = ODRL.permission ∧ b = rule) ∨
            (a = rule ∧ p = ODRL.assignee ∧ b ∈ assignees) := by
  constructor
  · rintro ⟨q, hq, rfl, rfl, rfl⟩
    rcases mem_oneRule.mp hq with rfl | rfl | rfl | ⟨assignee, hassignee, rfl⟩
    · exact Or.inl ⟨rfl, rfl, rfl⟩
    · exact Or.inr (Or.inl ⟨rfl, rfl, rfl⟩)
    · exact Or.inr (Or.inr (Or.inl ⟨rfl, rfl, rfl⟩))
    · exact Or.inr (Or.inr (Or.inr ⟨rfl, rfl, hassignee⟩))
  · rintro (⟨rfl, rfl, rfl⟩ | ⟨rfl, rfl, rfl⟩ | ⟨rfl, rfl, rfl⟩ | ⟨rfl, rfl, hb⟩)
    · exact Store.linked_of_mem (mem_oneRule.mpr (Or.inl rfl))
    · exact Store.linked_of_mem (mem_oneRule.mpr (Or.inr (Or.inl rfl)))
    · exact Store.linked_of_mem (mem_oneRule.mpr (Or.inr (Or.inr (Or.inl rfl))))
    · exact Store.linked_of_mem (mem_oneRule.mpr (Or.inr (Or.inr (Or.inr ⟨b, hb, rfl⟩))))

/-- The store has no links but those of its rule. -/
theorem not_linked_oneRule {a p b : Term}
    (h : p ∉ [ODRL.target, ODRL.action, ODRL.permission, ODRL.assignee]) :
    ¬ (oneRule rule target policy action assignees).Linked a p b := by
  intro hlinked
  rcases linked_oneRule.mp hlinked with ⟨-, rfl, -⟩ | ⟨-, rfl, -⟩ | ⟨-, rfl, -⟩ | ⟨-, rfl, -⟩
  · exact h (by decide)
  · exact h (by decide)
  · exact h (by decide)
  · exact h (by decide)

theorem linked_oneRule_target {a b : Term} :
    (oneRule rule target policy action assignees).Linked a ODRL.target b ↔
      a = rule ∧ b = target := by
  rw [linked_oneRule]
  constructor
  · rintro (⟨ha, -, hb⟩ | ⟨-, hp, -⟩ | ⟨-, hp, -⟩ | ⟨-, hp, -⟩)
    · exact ⟨ha, hb⟩
    · exact absurd hp (by decide)
    · exact absurd hp (by decide)
    · exact absurd hp (by decide)
  · rintro ⟨ha, hb⟩
    exact Or.inl ⟨ha, rfl, hb⟩

theorem linked_oneRule_assignee {a b : Term} :
    (oneRule rule target policy action assignees).Linked a ODRL.assignee b ↔
      a = rule ∧ b ∈ assignees := by
  rw [linked_oneRule]
  constructor
  · rintro (⟨-, hp, -⟩ | ⟨-, hp, -⟩ | ⟨-, hp, -⟩ | ⟨ha, -, hb⟩)
    · exact absurd hp (by decide)
    · exact absurd hp (by decide)
    · exact absurd hp (by decide)
    · exact ⟨ha, hb⟩
  · rintro ⟨ha, hb⟩
    exact Or.inr (Or.inr (Or.inr ⟨ha, rfl, hb⟩))

theorem described_oneRule {node : Term}
    (h : (oneRule rule target policy action assignees).Described node) :
    node = rule ∨ node = policy := by
  obtain ⟨q, hq, rfl⟩ := h
  rcases mem_oneRule.mp hq with rfl | rfl | rfl | ⟨_, _, rfl⟩
  · exact Or.inl rfl
  · exact Or.inl rfl
  · exact Or.inr rfl
  · exact Or.inl rfl

end OneRule

/-! ## What being local says about one store -/

section Post

variable {penv : PolicyEnvironment} {data clientID : String} {quads : List Quad}

/-- A store can be posted to when it and the upload describe different nodes. -/
theorem hasLocalRule_of_posted (hlocal : PostIsLocal penv data clientID)
    (hparse : penv.parse data = .ok quads)
    (hvalid : ValidUpload penv.toQueryEngine (Store.ofQuads quads) clientID)
    {store : Store} (hapart : Store.Apart store (Store.ofQuads quads)) {env : Environment}
    {claims : ClaimSet} {resource scope : String} {before after : List String}
    (hbefore : getPermissions env store claims resource scope = .ok (some before))
    (hafter : getPermissions env (store.addAll (Store.ofQuads quads)) claims resource scope =
      .ok (some after))
    (hchanged : before ≠ after) :
    HasLocalRule store (Store.ofQuads quads) clientID resource := by
  let s : ControllerState := ⟨store, fun _ => none⟩
  have hrun := PolicyController.addEntity_ok.mpr
    ⟨quads, hparse, (⟨hvalid, hapart⟩ : Accepted penv.toQueryEngine s.policies _ _), rfl, rfl⟩
  obtain ⟨rule, target, hassigns, htarget, hresource⟩ :=
    hlocal s _ _ hrun env claims resource scope before after hbefore hafter hchanged
  have hadded : ∀ q, q ∈ (store.addAll (Store.ofQuads quads)).difference store →
      q ∈ Store.ofQuads quads := fun q => (mem_added_of_fresh hapart).mp
  exact ⟨rule, target, hassigns.mono hadded, htarget.mono hadded, hresource⟩

end Post

/-! ## One rule and an upload -/

section OneRuleAdded

variable {upload : Store} {rule target policy : Term} {scope : String} {assignees : List Term}

theorem apart_oneRule (hrule : rule ∉ mentioned upload) (hpolicy : policy ∉ mentioned upload) :
    Store.Apart (oneRule rule target policy scope assignees) upload := by
  intro node hnode hdescribed
  rcases described_oneRule hdescribed with rfl | rfl
  · exact not_described_of_fresh hrule hnode
  · exact not_described_of_fresh hpolicy hnode

/-- The rule has no constraints, also with the upload. -/
theorem response_oneRule {env : Environment} {claims : ClaimSet}
    (hrule : ¬ upload.Described rule) :
    response env ((oneRule rule target policy scope assignees).addAll upload) claims rule =
      .ok (some true) := by
  refine response_of_unconstrained ?_ ?_
  · intro constraint
    rw [Store.linked_addAll_left hrule]
    exact not_linked_oneRule (by decide)
  · intro constraint
    rw [Store.linked_addAll_left hrule]
    exact not_linked_oneRule (by decide)

/-- No other rule has the action of the scope. -/
theorem eq_of_mem_candidateRules {claims : ClaimSet} {resource : String} {other : Term}
    (hself : actionOf scope = scope) (hsuper : superAction scope = none)
    (hscope : Term.namedNode scope ∉ mentioned upload)
    (h : other ∈ candidateRules ((oneRule rule target policy scope assignees).addAll upload)
      claims resource scope) : other = rule := by
  obtain ⟨-, haction, -⟩ := mem_candidateRules.mp h
  rw [hself, hasAction_iff, hsuper] at haction
  rcases haction with hmem | ⟨super, hnone, -⟩
  · rcases Store.linked_addAll.mp (Store.linked_of_mem hmem) with hstored | huploaded
    · rcases linked_oneRule.mp hstored with ⟨-, hp, -⟩ | ⟨ha, -, -⟩ | ⟨-, hp, -⟩ | ⟨-, hp, -⟩
      · exact absurd hp (by decide)
      · exact ha
      · exact absurd hp (by decide)
      · exact absurd hp (by decide)
    · exact absurd huploaded (not_linked_of_fresh hscope)
  · cases hnone

/-- When the rule is a candidate, and when it is. -/
theorem mem_candidateRules_oneRule {claims : ClaimSet} {resource : String}
    (hself : actionOf scope = scope) (hrule : ¬ upload.Described rule) :
    rule ∈ candidateRules ((oneRule rule target policy scope assignees).addAll upload)
        claims resource scope ↔
      target ∈ targetsOf ((oneRule rule target policy scope assignees).addAll upload) resource ∧
        (assignees = [] ∨ ∃ assignee ∈ assignees, assignee ∈
          assigneesOf ((oneRule rule target policy scope assignees).addAll upload) claims) := by
  have haction : hasAction ((oneRule rule target policy scope assignees).addAll upload)
      (actionOf scope) rule = true := by
    rw [hself, hasAction_iff, Store.mem_addAll]
    exact Or.inl (Or.inl (mem_oneRule.mpr (Or.inr (Or.inl rfl))))
  rw [mem_candidateRules, hasAssignee_iff]
  simp only [haction, true_and, Store.linked_addAll_left hrule, linked_oneRule_target,
    linked_oneRule_assignee, exists_eq_right, List.eq_nil_iff_forall_not_mem]
  exact and_congr Iff.rfl (or_congr Iff.rfl (exists_congr fun assignee => and_comm))

theorem permitted_oneRule :
    Permitted ((oneRule rule target policy scope assignees).addAll upload) rule :=
  ⟨policy, Store.linked_addAll.mpr (Or.inl (Store.linked_of_mem
    (mem_oneRule.mpr (Or.inr (Or.inr (Or.inl rfl))))))⟩

theorem prohibited_oneRule :
    Prohibited ((oneRule rule target policy scope assignees).addAll upload) rule ↔
      Prohibited upload rule := by
  refine exists_congr (fun other => ?_)
  rw [Store.linked_addAll]
  exact or_iff_right (not_linked_oneRule (by decide))

section Answers

variable {env : Environment} {claims : ClaimSet} {resource : String}

/-- The one candidate there can be settles the answer. -/
theorem getPermissions_oneRule (hself : actionOf scope = scope)
    (hsuper : superAction scope = none) (hscope : Term.namedNode scope ∉ mentioned upload)
    (hrule : ¬ upload.Described rule) (hprohibited : ¬ Prohibited upload rule)
    (hcandidate : rule ∈ candidateRules
      ((oneRule rule target policy scope assignees).addAll upload) claims resource scope) :
    getPermissions env ((oneRule rule target policy scope assignees).addAll upload)
      claims resource scope = .ok (some [scope]) := by
  have heq : ∀ other ∈ candidateRules ((oneRule rule target policy scope assignees).addAll upload)
      claims resource scope, other = rule := fun other =>
    eq_of_mem_candidateRules hself hsuper hscope
  refine getPermissions_of_granted ?_ ?_ ⟨⟨rule, hcandidate, response_oneRule hrule⟩, ?_⟩
  · intro other hother
    rw [heq other hother]
    exact ⟨true, response_oneRule hrule⟩
  · intro other hother _
    rw [heq other hother]
    exact permitted_oneRule
  · intro other hother _
    rw [heq other hother, prohibited_oneRule]
    exact hprohibited

theorem getPermissions_oneRule_refused (hself : actionOf scope = scope)
    (hsuper : superAction scope = none) (hscope : Term.namedNode scope ∉ mentioned upload)
    (hrule : ¬ upload.Described rule)
    (h : Prohibited upload rule ∨ rule ∉ candidateRules
      ((oneRule rule target policy scope assignees).addAll upload) claims resource scope) :
    getPermissions env ((oneRule rule target policy scope assignees).addAll upload)
      claims resource scope = .ok (some []) := by
  have heq : ∀ other ∈ candidateRules ((oneRule rule target policy scope assignees).addAll upload)
      claims resource scope, other = rule := fun other =>
    eq_of_mem_candidateRules hself hsuper hscope
  refine getPermissions_of_not_granted ?_ ?_ ?_
  · intro other hother
    rw [heq other hother]
    exact ⟨true, response_oneRule hrule⟩
  · intro other hother _
    rw [heq other hother]
    exact permitted_oneRule
  · rintro ⟨⟨other, hother, hvalid⟩, hnone⟩
    have hself := heq other hother
    subst hself
    rcases h with hprohibited | hnot
    · exact hnone other hother hvalid (prohibited_oneRule.mpr hprohibited)
    · exact hnot hother

end Answers

end OneRuleAdded

/-! ## New members and new prohibitions -/

section Links

variable {penv : PolicyEnvironment} {data clientID : String} {quads : List Quad}

/-- Three nodes the upload does not mention, the last two as a rule and a policy. -/
theorem exists_fresh_names (nodes : List Term) : ∃ resource rule policy,
    Term.namedNode resource ∉ nodes ∧ Term.namedNode rule ∉ nodes ∧
      Term.namedNode policy ∉ nodes ∧ resource ≠ rule ∧ resource ≠ policy ∧ rule ≠ policy := by
  obtain ⟨resource, hresource⟩ := exists_fresh nodes
  obtain ⟨rule, hrule⟩ := exists_fresh (.namedNode resource :: nodes)
  obtain ⟨policy, hpolicy⟩ := exists_fresh (.namedNode rule :: .namedNode resource :: nodes)
  simp only [List.mem_cons, Term.namedNode.injEq, not_or] at hrule hpolicy
  exact ⟨resource, rule, policy, hresource, hrule.2, hpolicy.2.2, fun h => hrule.1 h.symm,
    fun h => hpolicy.2.1 h.symm, fun h => hpolicy.1 h.symm⟩

/-- A resource that has become part of everyone is one of the client's. -/
theorem targeted_of_anonymous (hlocal : PostIsLocal penv data clientID)
    (hparse : penv.parse data = .ok quads)
    (hvalid : ValidUpload penv.toQueryEngine (Store.ofQuads quads) clientID)
    {name : String} (hlinked : (Store.ofQuads quads).LinkedFrom name ODRL.partOf ANONYMOUS)
    (hname : ANONYMOUS ≠ .namedNode name) :
    TargetedByClient (Store.ofQuads quads) clientID (.namedNode name) := by
  obtain ⟨-, rule, policy, -, hrule, hpolicy, -⟩ :=
    exists_fresh_names (mentioned (Store.ofQuads quads))
  obtain ⟨scope, hself, hsuper, hscope⟩ := exists_fresh_scope (Store.ofQuads quads)
  -- everyone is the target of the one rule there is
  let store := oneRule (.namedNode rule) ANONYMOUS (.namedNode policy) scope []
  let env : Environment := ⟨0, fun _ => none, fun _ _ => .ok []⟩
  have hbefore : getPermissions env store [] name scope = .ok (some []) := by
    refine getPermissions_of_no_candidates (fun other hother => ?_)
    obtain ⟨⟨target, htarget, hrule⟩, -⟩ := mem_candidateRules.mp hother
    rcases mem_targetsOf.mp htarget with heq | ⟨node, -, hpartOf⟩
    · exact hname ((linked_oneRule_target.mp hrule).2.symm.trans heq)
    · exact not_linked_oneRule (by decide) hpartOf
  have hafter : getPermissions env (store.addAll (Store.ofQuads quads)) [] name scope =
      .ok (some [scope]) := by
    refine getPermissions_oneRule hself hsuper hscope (not_described_of_fresh hrule) ?_ ?_
    · rintro ⟨other, hprohibited⟩
      exact not_linked_of_fresh hrule hprohibited
    · rw [mem_candidateRules_oneRule hself (not_described_of_fresh hrule), mem_targetsOf]
      exact ⟨Or.inr (Store.linkedFrom_addAll.mpr (Or.inr hlinked)), Or.inl rfl⟩
  obtain ⟨own, target, hassigns, hown, htarget⟩ := hasLocalRule_of_posted hlocal hparse hvalid
    (apart_oneRule hrule hpolicy) hbefore hafter (List.cons_ne_nil _ _).symm
  rcases htarget with rfl | ⟨node, -, hpartOf⟩
  · exact ⟨own, hassigns, hown⟩
  · exact absurd hpartOf (not_linked_oneRule (by decide))

/-- No rule of the client is about a resource it does not mention. -/
theorem not_hasLocalRule_of_fresh {upload : Store} {rule target policy : Term}
    {scope resource : String} {assignees : List Term}
    (hresource : Term.namedNode resource ∉ mentioned upload) :
    ¬ HasLocalRule (oneRule rule target policy scope assignees) upload clientID resource := by
  rintro ⟨own, other, -, hown, rfl | ⟨node, -, hpartOf⟩⟩
  · exact not_linked_of_fresh hresource hown
  · exact not_linked_oneRule (by decide) hpartOf

/-- A user that becomes part of a collection has what its members have. -/
theorem not_postIsLocal_of_partOf (hparse : penv.parse data = .ok quads)
    (hvalid : ValidUpload penv.toQueryEngine (Store.ofQuads quads) clientID) {name : String}
    {group : Term}
    (hlinked : (Store.ofQuads quads).LinkedFrom name ODRL.partOf group)
    (hself : group ≠ .namedNode name) (hanonymous : group ≠ ANONYMOUS) :
    ¬ PostIsLocal penv data clientID := by
  intro hlocal
  obtain ⟨resource, rule, policy, hresource, hrule, hpolicy, -⟩ :=
    exists_fresh_names (mentioned (Store.ofQuads quads))
  obtain ⟨scope, hscopeSelf, hsuper, hscope⟩ := exists_fresh_scope (Store.ofQuads quads)
  -- the collection is the assignee of the one rule there is
  let store := oneRule (.namedNode rule) (.namedNode resource) (.namedNode policy) scope [group]
  let env : Environment := ⟨0, fun _ => none, fun _ _ => .ok []⟩
  let claims : ClaimSet := [(WEBID, [.string name])]
  have hbefore : getPermissions env store claims resource scope = .ok (some []) := by
    rw [← Store.addAll_empty store]
    refine getPermissions_oneRule_refused hscopeSelf hsuper (not_mem_mentioned_empty _)
      (not_described_of_fresh (not_mem_mentioned_empty _)) (Or.inr ?_)
    · rw [Store.addAll_empty, mem_candidateRules]
      rintro ⟨-, -, hassignee⟩
      rcases hasAssignee_iff.mp hassignee with hnone | ⟨assignee, hassignee, hgroup⟩
      · exact hnone group (linked_oneRule_assignee.mpr ⟨rfl, List.mem_cons_self⟩)
      · rcases mem_assigneesOf.mp hassignee with rfl | ⟨user, other, huser, hname, hassignee⟩
        · exact hanonymous (List.mem_singleton.mp (linked_oneRule_assignee.mp hgroup).2).symm
        · have huser : user = .string name := List.mem_singleton.mp huser
          subst huser
          injection hname with hname
          subst hname
          rcases hassignee with rfl | ⟨node, -, hpartOf⟩
          · exact hself (List.mem_singleton.mp (linked_oneRule_assignee.mp hgroup).2).symm
          · exact not_linked_oneRule (by decide) hpartOf
  have hafter : getPermissions env (store.addAll (Store.ofQuads quads)) claims resource scope =
      .ok (some [scope]) := by
    refine getPermissions_oneRule hscopeSelf hsuper hscope (not_described_of_fresh hrule) ?_ ?_
    · rintro ⟨other, hprohibited⟩
      exact not_linked_of_fresh hrule hprohibited
    · rw [mem_candidateRules_oneRule hscopeSelf (not_described_of_fresh hrule)]
      refine ⟨mem_targetsOf.mpr (Or.inl rfl), Or.inr ⟨group, List.mem_cons_self, ?_⟩⟩
      exact mem_assigneesOf.mpr (Or.inr ⟨.string name, name, List.mem_cons_self, rfl,
        Or.inr (Store.linkedFrom_addAll.mpr (Or.inr hlinked))⟩)
  exact not_hasLocalRule_of_fresh hresource (hasLocalRule_of_posted hlocal hparse hvalid
    (apart_oneRule hrule hpolicy) hbefore hafter (List.cons_ne_nil _ _).symm)

/-- A stored rule that is linked as a prohibition refuses what it allowed. -/
theorem not_postIsLocal_of_prohibition (hparse : penv.parse data = .ok quads)
    (hvalid : ValidUpload penv.toQueryEngine (Store.ofQuads quads) clientID) {other rule : Term}
    (hlinked : (Store.ofQuads quads).Linked other ODRL.prohibition rule)
    (hrule : ¬ (Store.ofQuads quads).Described rule) :
    ¬ PostIsLocal penv data clientID := by
  intro hlocal
  obtain ⟨resource, -, policy, hresource, -, hpolicy, -⟩ :=
    exists_fresh_names (mentioned (Store.ofQuads quads))
  obtain ⟨scope, hself, hsuper, hscope⟩ := exists_fresh_scope (Store.ofQuads quads)
  let store := oneRule rule (.namedNode resource) (.namedNode policy) scope []
  let env : Environment := ⟨0, fun _ => none, fun _ _ => .ok []⟩
  have hapart : Store.Apart store (Store.ofQuads quads) := by
    intro node hnode hdescribed
    rcases described_oneRule hdescribed with rfl | rfl
    · exact hrule hnode
    · exact not_described_of_fresh hpolicy hnode
  have hempty : ∀ node, ¬ Store.empty.Described node := fun node =>
    not_described_of_fresh (not_mem_mentioned_empty node)
  have hbefore : getPermissions env store [] resource scope = .ok (some [scope]) := by
    rw [← Store.addAll_empty store]
    refine getPermissions_oneRule hself hsuper (not_mem_mentioned_empty _) (hempty rule) ?_ ?_
    · rintro ⟨policy, hprohibited⟩
      exact hempty policy hprohibited.described
    · rw [mem_candidateRules_oneRule hself (hempty rule)]
      exact ⟨mem_targetsOf.mpr (Or.inl rfl), Or.inl rfl⟩
  have hafter : getPermissions env (store.addAll (Store.ofQuads quads)) [] resource scope =
      .ok (some []) :=
    getPermissions_oneRule_refused hself hsuper hscope hrule (Or.inl ⟨other, hlinked⟩)
  exact not_hasLocalRule_of_fresh hresource
    (hasLocalRule_of_posted hlocal hparse hvalid hapart hbefore hafter (List.cons_ne_nil _ _))

end Links

end UserManagedAccess.Controller
