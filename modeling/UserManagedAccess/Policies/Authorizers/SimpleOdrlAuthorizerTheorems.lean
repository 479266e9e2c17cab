/-
UserManagedAccess.Policies.Authorizers.SimpleOdrlAuthorizerTheorems — the
decision of the simple ODRL authorizer, as a property of the rules that apply.

The code walks over lists of rules and stops at the first one that settles
the matter. When it answers itself, the answer depends only on which rules are
candidates, which of those are valid, and which are linked as prohibitions:
the scope is granted exactly when the request is `Granted`.
-/
import UserManagedAccess.Lib.Except
import UserManagedAccess.Policies.Authorizers.SimpleOdrlAuthorizer
import UserManagedAccess.Rdf.Links

namespace UserManagedAccess.Policies

open UserManagedAccess.Lib UserManagedAccess.Rdf UserManagedAccess.Util
open UserManagedAccess.Credentials

namespace SimpleOdrlAuthorizer

variable {env : Environment} {policies : Store} {claims : ClaimSet} {resource scope : String}

/-! ## The constraints of one rule -/

/-- The constraints and the credential constraints together: true, false, or
`none` where one of them is not supported. -/
def response (env : Environment) (policies : Store) (claims : ClaimSet) (rule : Term) :
    Except HttpError (Option Bool) :=
  match validateConstraints env policies claims rule,
    validateOvcConstraints env policies claims rule with
  | .error e, _ => .error e
  | .ok _, .error e => .error e
  | .ok (some true), .ok (some true) => .ok (some true)
  | .ok none, .ok _ => .ok none
  | .ok _, .ok none => .ok none
  | .ok _, .ok _ => .ok (some false)

/-- The constraints of the rule can be judged. -/
def Definite (env : Environment) (policies : Store) (claims : ClaimSet) (rule : Term) : Prop :=
  ∃ b, response env policies claims rule = .ok (some b)

/-- The constraints of the rule hold. -/
def Valid (env : Environment) (policies : Store) (claims : ClaimSet) (rule : Term) : Prop :=
  response env policies claims rule = .ok (some true)

def isValid (env : Environment) (policies : Store) (claims : ClaimSet) (rule : Term) : Bool :=
  match response env policies claims rule with
  | .ok (some true) => true
  | _ => false

theorem isValid_iff {rule : Term} :
    isValid env policies claims rule = true ↔ Valid env policies claims rule := by
  unfold isValid Valid
  rcases response env policies claims rule with e | _ | _ | _ <;> simp

/-! ## What the constraints of a rule depend on -/

def operandPredicates : List Term :=
  [ODRL.leftOperand, ODRL.operator, ODRL.rightOperand, OVC.leftOperand, OVC.credentialSubjectType]

/-- Two stores have the same constraints for a rule. -/
structure SameConstraints (policies other : Store) (rule : Term) : Prop where
  constraints : policies.getObjects rule ODRL.constraint none =
    other.getObjects rule ODRL.constraint none
  credentials : policies.getObjects rule OVC.constraint none =
    other.getObjects rule OVC.constraint none
  operands : ∀ constraint, policies.Linked rule ODRL.constraint constraint ∨
      policies.Linked rule OVC.constraint constraint →
    ∀ predicate ∈ operandPredicates,
      policies.getObjects constraint predicate none = other.getObjects constraint predicate none

theorem parseConstraint_congr {other : Store} {leftOperand constraint : Term}
    (hleft : leftOperand ∈ operandPredicates)
    (h : ∀ predicate ∈ operandPredicates,
      policies.getObjects constraint predicate none = other.getObjects constraint predicate none) :
    parseConstraint policies leftOperand constraint =
      parseConstraint other leftOperand constraint := by
  unfold parseConstraint
  rw [h leftOperand hleft, h ODRL.operator (by decide), h ODRL.rightOperand (by decide)]

theorem response_congr {other : Store} {rule : Term} (h : SameConstraints policies other rule) :
    response env policies claims rule = response env other claims rule := by
  have hconstraints : validateConstraints env policies claims rule =
      validateConstraints env other claims rule := by
    unfold validateConstraints
    rw [← h.constraints]
    dsimp only
    congr 1
    refine mapM_congr (fun constraint hmem => ?_)
    exact parseConstraint_congr (by decide)
      (h.operands constraint (Or.inl (Store.mem_getObjects_linked.mp hmem)))
  have hcredentials : validateOvcConstraints env policies claims rule =
      validateOvcConstraints env other claims rule := by
    unfold validateOvcConstraints
    rw [← h.credentials]
    dsimp only
    congr 1
    refine mapM_congr (fun constraint hmem => ?_)
    have hoperands := h.operands constraint (Or.inr (Store.mem_getObjects_linked.mp hmem))
    rw [parseConstraint_congr (by decide) hoperands, hoperands OVC.credentialSubjectType (by decide)]
  unfold response
  rw [hconstraints, hcredentials]

/-- A rule without constraints holds. -/
theorem response_of_unconstrained {rule : Term}
    (hconstraints : ∀ constraint, ¬ policies.Linked rule ODRL.constraint constraint)
    (hcredentials : ∀ constraint, ¬ policies.Linked rule OVC.constraint constraint) :
    response env policies claims rule = .ok (some true) := by
  unfold response validateOvcConstraints validateConstraints
  rw [Store.getObjects_eq_nil.mpr hconstraints, Store.getObjects_eq_nil.mpr hcredentials]
  rfl

theorem parseConstraint_described {leftOperand constraint : Term} {parsed : ParsedConstraint}
    (h : parseConstraint policies leftOperand constraint = some parsed) :
    policies.Described constraint := by
  unfold parseConstraint at h
  rcases hleft : (policies.getObjects constraint leftOperand none)[0]? with _ | left
  · rw [hleft] at h
    cases h
  · exact (Store.mem_getObjects_linked.mp (List.mem_of_getElem? hleft)).described

/-- The constraints of a rule that can be judged are described. -/
theorem Definite.described {rule constraint : Term} (h : Definite env policies claims rule)
    (hlinked : policies.Linked rule ODRL.constraint constraint ∨
      policies.Linked rule OVC.constraint constraint) : policies.Described constraint := by
  obtain ⟨b, hresponse⟩ := h
  unfold response at hresponse
  rcases hlinked with hlinked | hlinked
  · rcases hparse : (policies.getObjects rule ODRL.constraint none).mapM
      (parseConstraint policies ODRL.leftOperand) with _ | parsed
    · have hnone : validateConstraints env policies claims rule = .ok none := by
        unfold validateConstraints
        rw [hparse]
      rw [hnone] at hresponse
      rcases hcredentials : validateOvcConstraints env policies claims rule with _ | _ | _ | _ <;>
        rw [hcredentials] at hresponse <;> cases hresponse
    · obtain ⟨_, hconstraint⟩ := mapM_some_forall hparse constraint
        (Store.mem_getObjects_linked.mpr hlinked)
      exact parseConstraint_described hconstraint
  · unfold validateOvcConstraints at hresponse
    dsimp only at hresponse
    rcases hparse : ((policies.getObjects rule OVC.constraint none).mapM fun constraint : Term => do
        let operands ← parseConstraint policies OVC.leftOperand constraint
        return (operands, (policies.getObjects constraint OVC.credentialSubjectType none)[0]?)) with
      _ | parsed
    · rw [hparse] at hresponse
      rcases hother : validateConstraints env policies claims rule with _ | _ | _ | _ <;>
        rw [hother] at hresponse <;> cases hresponse
    · obtain ⟨_, hconstraint⟩ := mapM_some_forall hparse constraint
        (Store.mem_getObjects_linked.mpr hlinked)
      rcases hoperands : parseConstraint policies OVC.leftOperand constraint with _ | operands
      · rw [hoperands] at hconstraint
        cases hconstraint
      · exact parseConstraint_described hoperands

/-! ## The rules that hold -/

theorem validRules_cons (rule : Term) (rules : List Term) :
    validRules env policies claims (rule :: rules) =
      match response env policies claims rule with
      | .error e => .error e
      | .ok (some true) =>
        (validRules env policies claims rules).map (Option.map (rule :: ·))
      | .ok (some false) => validRules env policies claims rules
      | .ok none => .ok none := by
  rw [validRules]
  unfold response
  rcases validateConstraints env policies claims rule with e | _ | _ | _
  · rfl
  · rcases validateOvcConstraints env policies claims rule with _ | _ | _ | _ <;> rfl
  · rcases validateOvcConstraints env policies claims rule with _ | _ | _ | _ <;> rfl
  · rcases validateOvcConstraints env policies claims rule with _ | _ | _ | _
    · rfl
    · rfl
    · rfl
    · rcases validRules env policies claims rules with e | _ | valid <;> rfl

/-- The rules are judged when each of them is, and the valid ones are kept. -/
theorem validRules_eq_some {rules valid : List Term} :
    validRules env policies claims rules = .ok (some valid) ↔
      (∀ rule ∈ rules, Definite env policies claims rule) ∧
        valid = rules.filter (isValid env policies claims) := by
  induction rules generalizing valid with
  | nil => simp [validRules, eq_comm]
  | cons rule rules ih =>
    rw [validRules_cons, List.forall_mem_cons]
    rcases hresponse : response env policies claims rule with e | _ | _ | _
    · simp [Definite, hresponse]
    · simp [Definite, hresponse]
    · have hinvalid : isValid env policies claims rule = false := by simp [isValid, hresponse]
      have hdefinite : Definite env policies claims rule := ⟨false, hresponse⟩
      simp only [hdefinite, true_and, List.filter_cons, hinvalid, Bool.false_eq_true, if_false]
      exact ih
    · have hvalid : isValid env policies claims rule = true := by simp [isValid, hresponse]
      have hdefinite : Definite env policies claims rule := ⟨true, hresponse⟩
      simp only [hdefinite, true_and, List.filter_cons, hvalid, if_true]
      constructor
      · intro h
        rcases hrest : validRules env policies claims rules with e | _ | rest
        · rw [hrest] at h; cases h
        · rw [hrest] at h; cases h
        · rw [hrest] at h
          obtain ⟨hall, rfl⟩ := ih.mp hrest
          injection h with h
          injection h with h
          exact ⟨hall, h.symm⟩
      · rintro ⟨hall, rfl⟩
        rw [ih.mpr ⟨hall, rfl⟩]
        rfl

/-! ## The verdict -/

def Permitted (policies : Store) (rule : Term) : Prop :=
  ∃ policy, policies.Linked policy ODRL.permission rule

def Prohibited (policies : Store) (rule : Term) : Prop :=
  ∃ policy, policies.Linked policy ODRL.prohibition rule

theorem mem_getPredicates_object {rule predicate : Term} :
    predicate ∈ policies.getPredicates none rule none ↔
      ∃ policy, policies.Linked policy predicate rule := by
  rw [Store.mem_getPredicates]
  constructor
  · rintro ⟨q, hq, hmatch, hpredicate⟩
    exact ⟨q.subject, q, hq, rfl, hpredicate, (Store.matches_iff.mp hmatch).2.2.1 rule rfl⟩
  · rintro ⟨policy, q, hq, -, hpredicate, hrule⟩
    exact ⟨q, hq, Store.matches_iff.mpr (by simp [hrule]), hpredicate⟩

theorem judge_cons (rule : Term) (rules : List Term) :
    judge policies scope (rule :: rules) =
      if (policies.getPredicates none rule none).isEmpty then none
      else if (policies.getPredicates none rule none).contains ODRL.prohibition then some []
      else if !(policies.getPredicates none rule none).contains ODRL.permission then none
      else judge policies scope rules := rfl

/-- A verdict is given by the first prohibition, or by permissions alone. -/
theorem judge_some {rules : List Term} {result : List String}
    (h : judge policies scope rules = some result) :
    (result = [] ∧ ∃ rule ∈ rules, Prohibited policies rule) ∨
      (result = [scope] ∧ ∀ rule ∈ rules, ¬ Prohibited policies rule) := by
  induction rules with
  | nil =>
    injection h with h
    exact Or.inr ⟨h.symm, fun _ hmem => absurd hmem List.not_mem_nil⟩
  | cons rule rules ih =>
    rw [judge_cons] at h
    by_cases hempty : (policies.getPredicates none rule none).isEmpty = true
    · rw [if_pos hempty] at h
      cases h
    rw [if_neg hempty] at h
    by_cases hprohibited :
        (policies.getPredicates none rule none).contains ODRL.prohibition = true
    · rw [if_pos hprohibited] at h
      injection h with h
      rw [List.contains_iff_mem, mem_getPredicates_object] at hprohibited
      exact Or.inl ⟨h.symm, rule, List.mem_cons_self, hprohibited⟩
    rw [if_neg hprohibited] at h
    split at h
    · cases h
    rw [List.contains_iff_mem, mem_getPredicates_object] at hprohibited
    rcases ih h with ⟨hresult, other, hmem, hother⟩ | ⟨hresult, hnone⟩
    · exact Or.inl ⟨hresult, other, List.mem_cons_of_mem _ hmem, hother⟩
    · exact Or.inr ⟨hresult, List.forall_mem_cons.mpr ⟨hprohibited, hnone⟩⟩

/-- There is a verdict over rules that are all linked as permissions. -/
theorem judge_isSome {rules : List Term} (h : ∀ rule ∈ rules, Permitted policies rule) :
    ∃ result, judge policies scope rules = some result := by
  induction rules with
  | nil => exact ⟨_, rfl⟩
  | cons rule rules ih =>
    obtain ⟨hpermitted, hrest⟩ := List.forall_mem_cons.mp h
    have hmem : ODRL.permission ∈ policies.getPredicates none rule none :=
      mem_getPredicates_object.mpr hpermitted
    have hempty : ¬ (policies.getPredicates none rule none).isEmpty = true := by
      rw [List.isEmpty_iff]
      exact List.ne_nil_of_mem hmem
    rw [judge_cons, if_neg hempty]
    split
    · exact ⟨_, rfl⟩
    · rw [if_neg (by simpa using hmem)]
      exact ih hrest

/-! ## The answer -/

theorem mem_targetsOf {target : Term} :
    target ∈ targetsOf policies resource ↔
      target = .namedNode resource ∨ policies.LinkedFrom resource ODRL.partOf target := by
  rw [targetsOf, List.mem_cons, Store.mem_getObjectsOf_linked]

theorem mem_rulesOnTarget {rule : Term} :
    rule ∈ rulesOnTarget policies resource ↔
      ∃ target ∈ targetsOf policies resource, policies.Linked rule ODRL.target target := by
  simp only [rulesOnTarget, List.mem_flatMap, Store.mem_getSubjects_linked]

theorem hasAction_iff {action : String} {rule : Term} :
    hasAction policies action rule = true ↔
      quad rule ODRL.action (.namedNode action) ∈ policies ∨
        ∃ super, superAction action = some super ∧ quad rule ODRL.action super ∈ policies := by
  unfold hasAction
  rcases superAction action with _ | super
  · simp
  · simp

theorem mem_assigneesOf {assignee : Term} :
    assignee ∈ assigneesOf policies claims ↔
      assignee = ANONYMOUS ∨ ∃ user name, user ∈ claims.values WEBID ∧
        user.asString? = some name ∧
        (assignee = .namedNode name ∨ policies.LinkedFrom name ODRL.partOf assignee) := by
  simp only [assigneesOf, List.mem_cons, List.mem_flatMap]
  refine or_congr Iff.rfl ?_
  constructor
  · rintro ⟨user, huser, hmem⟩
    rcases hname : user.asString? with _ | name
    · rw [hname] at hmem
      exact absurd hmem List.not_mem_nil
    · rw [hname] at hmem
      refine ⟨user, name, huser, hname, ?_⟩
      rcases List.mem_cons.mp hmem with heq | hgroup
      · exact Or.inl heq
      · exact Or.inr (Store.mem_getObjectsOf_linked.mp hgroup)
  · rintro ⟨user, name, huser, hname, hassignee⟩
    refine ⟨user, huser, ?_⟩
    rw [hname]
    rcases hassignee with rfl | hgroup
    · exact List.mem_cons_self
    · exact List.mem_cons_of_mem _ (Store.mem_getObjectsOf_linked.mpr hgroup)

theorem hasAssignee_iff {assignees : List Term} {rule : Term} :
    hasAssignee policies assignees rule = true ↔
      (∀ assignee, ¬ policies.Linked rule ODRL.assignee assignee) ∨
        ∃ assignee ∈ assignees, policies.Linked rule ODRL.assignee assignee := by
  have hany : (policies.getObjects rule ODRL.assignee none).any
      (fun ruleAssignee => assignees.contains ruleAssignee) = true ↔
      ∃ assignee ∈ assignees, policies.Linked rule ODRL.assignee assignee := by
    simp only [List.any_eq_true, Store.mem_getObjects_linked, List.contains_iff_mem]
    exact exists_congr (fun assignee => and_comm)
  simp only [hasAssignee, Bool.or_eq_true, List.isEmpty_iff, Store.getObjects_eq_nil, hany]

theorem mem_candidateRules {rule : Term} :
    rule ∈ candidateRules policies claims resource scope ↔
      (∃ target ∈ targetsOf policies resource, policies.Linked rule ODRL.target target) ∧
        hasAction policies (actionOf scope) rule = true ∧
        hasAssignee policies (assigneesOf policies claims) rule = true := by
  simp only [candidateRules, List.mem_filter, mem_rulesOnTarget, and_assoc]

/-- The shortcuts for no rules at all change nothing. -/
theorem getPermissions_eq :
    getPermissions env policies claims resource scope =
      match validRules env policies claims (candidateRules policies claims resource scope) with
      | .error e => .error e
      | .ok none => .ok none
      | .ok (some []) => .ok (some [])
      | .ok (some valid) => .ok (judge policies scope valid) := by
  unfold getPermissions candidateRules
  dsimp only
  split
  · rename_i hrules
    rw [List.isEmpty_iff.mp hrules]
    rfl
  split
  · rename_i hrules
    rw [List.isEmpty_iff.mp hrules]
    rfl
  split
  · rename_i hrules
    rw [List.isEmpty_iff.mp hrules]
    rfl
  rcases validRules env policies claims _ with e | _ | _ | _ <;> rfl

/-- Some valid candidate, and no prohibition among them. -/
def Granted (env : Environment) (policies : Store) (claims : ClaimSet)
    (resource scope : String) : Prop :=
  (∃ rule ∈ candidateRules policies claims resource scope, Valid env policies claims rule) ∧
    ∀ rule ∈ candidateRules policies claims resource scope, Valid env policies claims rule →
      ¬ Prohibited policies rule

/-- An answer is the scope when it is granted, and nothing otherwise. -/
theorem getPermissions_answer {result : List String}
    (h : getPermissions env policies claims resource scope = .ok (some result)) :
    (∀ rule ∈ candidateRules policies claims resource scope,
        Definite env policies claims rule) ∧
      (result = [scope] ∧ Granted env policies claims resource scope ∨
        result = [] ∧ ¬ Granted env policies claims resource scope) := by
  rw [getPermissions_eq] at h
  rcases hvalid : validRules env policies claims (candidateRules policies claims resource scope)
    with e | _ | valid
  · rw [hvalid] at h; cases h
  · rw [hvalid] at h; cases h
  obtain ⟨hdefinite, hfilter⟩ := validRules_eq_some.mp hvalid
  have hmem : ∀ rule, rule ∈ valid ↔ rule ∈ candidateRules policies claims resource scope ∧
      Valid env policies claims rule := by
    intro rule
    rw [hfilter, List.mem_filter, isValid_iff]
  refine ⟨hdefinite, ?_⟩
  rw [hvalid] at h
  rcases valid with _ | ⟨first, valid⟩
  · injection h with h
    injection h with h
    refine Or.inr ⟨h.symm, ?_⟩
    rintro ⟨⟨rule, hcandidate, hrule⟩, -⟩
    exact absurd ((hmem rule).mpr ⟨hcandidate, hrule⟩) List.not_mem_nil
  · injection h with h
    rcases judge_some h with ⟨hresult, rule, hrule, hprohibited⟩ | ⟨hresult, hnone⟩
    · refine Or.inr ⟨hresult, fun hgranted => ?_⟩
      obtain ⟨hcandidate, hruleValid⟩ := (hmem rule).mp hrule
      exact hgranted.2 rule hcandidate hruleValid hprohibited
    · refine Or.inl ⟨hresult, ⟨first, ?_⟩, ?_⟩
      · exact (hmem first).mp List.mem_cons_self
      · intro rule hcandidate hruleValid
        exact hnone rule ((hmem rule).mpr ⟨hcandidate, hruleValid⟩)

/-- Where all candidates can be judged and the valid ones are permissions,
there is an answer. -/
theorem getPermissions_isSome
    (hdefinite : ∀ rule ∈ candidateRules policies claims resource scope,
      Definite env policies claims rule)
    (hpermitted : ∀ rule ∈ candidateRules policies claims resource scope,
      Valid env policies claims rule → Permitted policies rule) :
    ∃ result, getPermissions env policies claims resource scope = .ok (some result) := by
  rw [getPermissions_eq, validRules_eq_some.mpr ⟨hdefinite, rfl⟩]
  have hall : ∀ rule ∈ (candidateRules policies claims resource scope).filter
      (isValid env policies claims), Permitted policies rule := by
    intro rule hrule
    obtain ⟨hcandidate, hvalid⟩ := List.mem_filter.mp hrule
    exact hpermitted rule hcandidate (isValid_iff.mp hvalid)
  rcases hvalid : (candidateRules policies claims resource scope).filter
    (isValid env policies claims) with _ | ⟨first, valid⟩
  · exact ⟨_, rfl⟩
  · rw [hvalid] at hall
    have hverdict : ∃ result, judge policies scope (first :: valid) = some result :=
      judge_isSome hall
    obtain ⟨result, hresult⟩ := hverdict
    exact ⟨result, congrArg Except.ok hresult⟩

/-- The answer is settled where every candidate has a verdict and a permission. -/
theorem getPermissions_settled
    (hdefinite : ∀ rule ∈ candidateRules policies claims resource scope,
      Definite env policies claims rule)
    (hpermitted : ∀ rule ∈ candidateRules policies claims resource scope,
      Valid env policies claims rule → Permitted policies rule) :
    getPermissions env policies claims resource scope = .ok (some [scope]) ∧
        Granted env policies claims resource scope ∨
      getPermissions env policies claims resource scope = .ok (some []) ∧
        ¬ Granted env policies claims resource scope := by
  obtain ⟨result, hresult⟩ := getPermissions_isSome hdefinite hpermitted
  rcases (getPermissions_answer hresult).2 with ⟨rfl, hgranted⟩ | ⟨rfl, hnot⟩
  · exact Or.inl ⟨hresult, hgranted⟩
  · exact Or.inr ⟨hresult, hnot⟩

theorem getPermissions_of_granted
    (hdefinite : ∀ rule ∈ candidateRules policies claims resource scope,
      Definite env policies claims rule)
    (hpermitted : ∀ rule ∈ candidateRules policies claims resource scope,
      Valid env policies claims rule → Permitted policies rule)
    (hgranted : Granted env policies claims resource scope) :
    getPermissions env policies claims resource scope = .ok (some [scope]) :=
  ((getPermissions_settled hdefinite hpermitted).resolve_right fun h => h.2 hgranted).1

theorem getPermissions_of_not_granted
    (hdefinite : ∀ rule ∈ candidateRules policies claims resource scope,
      Definite env policies claims rule)
    (hpermitted : ∀ rule ∈ candidateRules policies claims resource scope,
      Valid env policies claims rule → Permitted policies rule)
    (hrefused : ¬ Granted env policies claims resource scope) :
    getPermissions env policies claims resource scope = .ok (some []) :=
  ((getPermissions_settled hdefinite hpermitted).resolve_left fun h => hrefused h.2).1

theorem getPermissions_of_no_candidates
    (hnone : ∀ rule, rule ∉ candidateRules policies claims resource scope) :
    getPermissions env policies claims resource scope = .ok (some []) := by
  refine getPermissions_of_not_granted (fun rule hrule => absurd hrule (hnone rule))
    (fun rule hrule => absurd hrule (hnone rule)) ?_
  rintro ⟨⟨rule, hrule, -⟩, -⟩
  exact hnone rule hrule

/-- A scope outside the table, and without a super action, is its own action. -/
theorem actionOf_self (h : ∀ entry ∈ scopeCssToOdrl, scope ≠ entry.1) : actionOf scope = scope := by
  have hnone : scopeCssToOdrl.get scope = none := by
    rcases hget : scopeCssToOdrl.get scope with _ | action
    · rfl
    · exact absurd rfl (h _ (Dict.mem_of_get hget))
  unfold actionOf
  rw [hnone]
  split <;> rfl

end SimpleOdrlAuthorizer

end UserManagedAccess.Policies
