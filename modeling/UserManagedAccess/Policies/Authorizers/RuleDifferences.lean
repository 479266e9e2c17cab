/-
UserManagedAccess.Policies.Authorizers.RuleDifferences — the rules that only
one of the two ODRL authorizers applies to a request.

The simple authorizer applies a rule that is valid for the scope (`ValidFor`),
the full one a rule that is active (`ActiveFor`). The two readings of a rule
differ in few ways, and `Overrated` and `Overlooked` list them.

* A rule is overrated for its target or its assignee where a lookup by a plain
  string finds collections of other nodes, or where the rule is for the
  anonymous user and the request is not; for its action where it permits
  `odrl:modify` and the hierarchy does not place that above the scope; for a
  constraint that is taken for satisfied and is not.
* A rule is overlooked for an action that includes the requested one, or that
  stands in a named graph; for a collection of the anonymous user; for a
  constraint that is satisfied and not taken for it; for its credentials.

`overrated_iff` and `overlooked_iff` say that these are all.

## How the proofs go

Both readings ask four things of a rule, one after the other: a target, an
action, an assignee, and the constraints. A rule that passes one reading and
fails the other fails it at one of the four, and each list has one case for
each of them.
-/
import UserManagedAccess.Policies.Authorizers.ConstraintTheorems
import UserManagedAccess.Policies.Authorizers.OdrlRequestTheorems

namespace UserManagedAccess.Policies

open UserManagedAccess.Lib UserManagedAccess.Rdf UserManagedAccess.Util
open UserManagedAccess.Views UserManagedAccess.Credentials
open SimpleOdrlAuthorizer (ANONYMOUS ParsedConstraint Taken parseConstraint superAction)
open OdrlAuthorizer (askedFor odrlAction subjectsOf ActiveFor)

variable {env : SimpleOdrlAuthorizer.Environment} {reading : OdrlReading} {policies : Store}
  {claims : ClaimSet} {resource scope : String} {rule : Term}

/-! ## What is active -/

/-- The two tables are one, and only the modes of CSS are in it. -/
theorem actionOf_eq_odrlAction (scope : String) :
    SimpleOdrlAuthorizer.actionOf scope = odrlAction scope := by
  unfold SimpleOdrlAuthorizer.actionOf odrlAction
  split
  · rfl
  · rename_i hmode
    cases hget : scopeCssToOdrl.get scope with
    | none => rfl
    | some action =>
      have hall : ∀ entry ∈ scopeCssToOdrl,
          String.startsWith entry.1 "urn:example:css:modes:" = true := by decide +kernel
      exact absurd (hall _ (Dict.mem_of_get hget)) hmode

/-- The resource, or a collection it is part of. -/
def IsTarget (policies : Store) (resource : String) (target : Term) : Prop :=
  target = .namedNode resource ∨ policies.Linked (.namedNode resource) ODRL.partOf target

/-- The action of the scope, or one that includes it. -/
def IsAction (reading : OdrlReading) (scope : String) (action : Term) : Prop :=
  action = .namedNode (odrlAction scope) ∨
    reading.includes action (.namedNode (odrlAction scope)) = true

/-- A party of the request, or a collection of one. -/
def IsParty (policies : Store) (claims : ClaimSet) (assignee : Term) : Prop :=
  ∃ party ∈ subjectsOf claims,
    assignee = .namedNode party ∨ policies.Linked (.namedNode party) ODRL.partOf assignee

theorem onTarget_iff {now : Int} :
    onTarget policies (askedFor now claims (odrlAction scope) resource) rule = true ↔
      ∃ target, policies.Linked rule ODRL.target target ∧ IsTarget policies resource target := by
  simp only [onTarget, askedFor, withCollections, List.any_cons, List.any_nil, Bool.or_false,
    List.any_eq_true, List.contains_iff_mem, Store.mem_getObjects_linked, Bool.or_eq_true, IsTarget,
    and_or_left, exists_or, exists_eq_right, and_comm]

theorem onAction_iff {now : Int} :
    onAction reading policies (askedFor now claims (odrlAction scope) resource) rule = true ↔
      ∃ action, policies.Linked rule ODRL.action action ∧ IsAction reading scope action := by
  simp [onAction, askedFor, Store.mem_getObjects_linked, IsAction]

theorem onAssignee_iff {now : Int} {action : String} :
    onAssignee policies (askedFor now claims action resource) rule = true ↔
      (∀ assignee, ¬ policies.Linked rule ODRL.assignee assignee) ∨
        ∃ assignee, policies.Linked rule ODRL.assignee assignee ∧
          IsParty policies claims assignee := by
  simp only [onAssignee, Bool.or_eq_true, List.isEmpty_iff, Store.getObjects_eq_nil, askedFor,
    List.any_map, Function.comp_def, List.any_eq_true, withCollections, List.contains_iff_mem,
    List.mem_cons, Store.mem_getObjects_linked]
  refine or_congr_right ?_
  constructor
  · rintro ⟨party, hparty, assignee, hassignee, hlinked⟩
    exact ⟨assignee, hlinked, party, hparty, hassignee⟩
  · rintro ⟨assignee, hlinked, party, hparty, hassignee⟩
    exact ⟨party, hparty, assignee, hassignee, hlinked⟩

/-- The parties of a request are the claimed WebIDs, or the anonymous user. -/
theorem mem_subjectsOf {party : String} :
    party ∈ subjectsOf claims ↔
      party ∈ (claims.values WEBID).filterMap Json.asString? ∨
        (claims.values WEBID).filterMap Json.asString? = [] ∧
          party = "urn:solidlab:uma:id:anonymous" := by
  unfold subjectsOf
  split
  · rename_i hnone
    simp [hnone]
  · rename_i hsome
    rw [or_iff_left fun h => hsome h.1]

/-- The constraint is satisfied by some of the operands it has. -/
def IsSatisfied (reading : OdrlReading) (now : Int) (policies : Store) (claims : ClaimSet)
    (resource scope : String) (node : Term) : Prop :=
  ∃ left operator right, policies.Linked node ODRL.leftOperand left ∧
    policies.Linked node ODRL.operator operator ∧ policies.Linked node ODRL.rightOperand right ∧
    satisfies reading (askedFor now claims (odrlAction scope) resource) left operator right = true

theorem isSatisfied_iff {now : Int} {node : Term} :
    isSatisfied reading policies (askedFor now claims (odrlAction scope) resource) node = true ↔
      IsSatisfied reading now policies claims resource scope node := by
  simp only [isSatisfied, List.any_eq_true, Store.mem_getObjects_linked, IsSatisfied,
    ← exists_and_left]

/-- A rule is active by its target, its action, its assignee and its constraints. -/
theorem activeFor_iff {now : Int} :
    ActiveFor reading now policies claims resource scope rule ↔
      (∃ target, policies.Linked rule ODRL.target target ∧ IsTarget policies resource target) ∧
      (∃ action, policies.Linked rule ODRL.action action ∧ IsAction reading scope action) ∧
      ((∀ assignee, ¬ policies.Linked rule ODRL.assignee assignee) ∨
        ∃ assignee, policies.Linked rule ODRL.assignee assignee ∧
          IsParty policies claims assignee) ∧
      ∀ node, policies.Linked rule ODRL.constraint node →
        IsSatisfied reading now policies claims resource scope node := by
  unfold ActiveFor isActive
  rw [Bool.and_eq_true, Bool.and_eq_true, Bool.and_eq_true, onTarget_iff, onAction_iff,
    onAssignee_iff, List.all_eq_true, and_assoc, and_assoc]
  simp only [Store.mem_getObjects_linked, isSatisfied_iff]

/-! ## What is valid -/

/-- The rule is one the simple authorizer finds valid for the scope. -/
def SimpleOdrlAuthorizer.ValidFor (env : Environment) (policies : Store) (claims : ClaimSet)
    (resource scope : String) (rule : Term) : Prop :=
  rule ∈ candidateRules policies claims resource scope ∧ Valid env policies claims rule

open SimpleOdrlAuthorizer (ValidFor validateConstraints validateOvcConstraints)

theorem valid_iff :
    SimpleOdrlAuthorizer.Valid env policies claims rule ↔
      validateConstraints env policies claims rule = .ok (some true) ∧
        validateOvcConstraints env policies claims rule = .ok (some true) := by
  unfold SimpleOdrlAuthorizer.Valid SimpleOdrlAuthorizer.response
  rcases validateConstraints env policies claims rule with e | _ | _ | _ <;>
    rcases validateOvcConstraints env policies claims rule with e | _ | _ | _ <;> simp

/-- The first operands of the constraint are taken for satisfied. -/
def TakenAt (env : SimpleOdrlAuthorizer.Environment) (policies : Store) (claims : ClaimSet)
    (node : Term) : Prop :=
  ∃ constraint, parseConstraint policies ODRL.leftOperand node = some constraint ∧
    Taken env claims constraint

/-- The action of the scope, or `odrl:modify` above it, in the default graph. -/
def IsPlainAction (policies : Store) (scope : String) (rule : Term) : Prop :=
  quad rule ODRL.action (.namedNode (odrlAction scope)) ∈ policies ∨
    ∃ super, superAction (odrlAction scope) = some super ∧
      quad rule ODRL.action super ∈ policies

theorem validFor_iff :
    ValidFor env policies claims resource scope rule ↔
      (∃ target ∈ SimpleOdrlAuthorizer.targetsOf policies resource,
        policies.Linked rule ODRL.target target) ∧
      IsPlainAction policies scope rule ∧
      ((∀ assignee, ¬ policies.Linked rule ODRL.assignee assignee) ∨
        ∃ assignee ∈ SimpleOdrlAuthorizer.assigneesOf policies claims,
          policies.Linked rule ODRL.assignee assignee) ∧
      (∀ node, policies.Linked rule ODRL.constraint node → TakenAt env policies claims node) ∧
      validateOvcConstraints env policies claims rule = .ok (some true) := by
  unfold ValidFor
  rw [SimpleOdrlAuthorizer.mem_candidateRules, SimpleOdrlAuthorizer.hasAction_iff,
    SimpleOdrlAuthorizer.hasAssignee_iff, valid_iff,
    SimpleOdrlAuthorizer.validateConstraints_eq_true, actionOf_eq_odrlAction]
  simp only [SimpleOdrlAuthorizer.validateConstraint_true_iff, and_assoc, IsPlainAction, TakenAt]

/-! ## The differences -/

/-- A valid rule that is not active. -/
inductive Overrated (env : SimpleOdrlAuthorizer.Environment) (reading : OdrlReading)
    (policies : Store) (claims : ClaimSet) (resource scope : String) (rule : Term) : Prop where
  /-- Its targets are collections of nodes that the id of the resource also
  stands for in a lookup. -/
  | target {node group : Term} (valid : ValidFor env policies claims resource scope rule)
      (named : node.named resource = true) (other : node ≠ .namedNode resource)
      (member : policies.Linked node ODRL.partOf group)
      (linked : policies.Linked rule ODRL.target group)
      (none : ∀ target, policies.Linked rule ODRL.target target →
        ¬ IsTarget policies resource target)
  /-- Its action is `odrl:modify`, which the hierarchy does not place above the
  scope. -/
  | action (valid : ValidFor env policies claims resource scope rule)
      (super : superAction (odrlAction scope) = some ODRL.modify)
      (linked : quad rule ODRL.action ODRL.modify ∈ policies)
      (none : ∀ action, policies.Linked rule ODRL.action action → ¬ IsAction reading scope action)
  /-- It is for the anonymous user, who is no party of the request, or for a
  collection of nodes that the WebID of a party also stands for in a lookup. -/
  | assignee {assignee : Term} (valid : ValidFor env policies claims resource scope rule)
      (linked : policies.Linked rule ODRL.assignee assignee)
      (anonymous : assignee = ANONYMOUS ∨ ∃ party ∈ subjectsOf claims, ∃ node : Term,
        node.named party = true ∧ node ≠ .namedNode party ∧
          policies.Linked node ODRL.partOf assignee)
      (none : ∀ assignee, policies.Linked rule ODRL.assignee assignee →
        ¬ IsParty policies claims assignee)
  /-- One of its constraints is taken for satisfied, and is not. -/
  | constraint {node : Term} (valid : ValidFor env policies claims resource scope rule)
      (linked : policies.Linked rule ODRL.constraint node) (taken : TakenAt env policies claims node)
      (none : ¬ IsSatisfied reading env.now policies claims resource scope node)

/-- An active rule that is not valid. -/
inductive Overlooked (env : SimpleOdrlAuthorizer.Environment) (reading : OdrlReading)
    (policies : Store) (claims : ClaimSet) (resource scope : String) (rule : Term) : Prop where
  /-- Its action is one that includes that of the scope, or is in a named graph. -/
  | action {action : Term} (active : ActiveFor reading env.now policies claims resource scope rule)
      (linked : policies.Linked rule ODRL.action action) (includes : IsAction reading scope action)
      (none : ¬ IsPlainAction policies scope rule)
  /-- It is for a collection the anonymous user is part of, and nobody else asks. -/
  | assignee {group : Term} (active : ActiveFor reading env.now policies claims resource scope rule)
      (linked : policies.Linked rule ODRL.assignee group)
      (anonymous : (claims.values WEBID).filterMap Json.asString? = [])
      (member : policies.Linked ANONYMOUS ODRL.partOf group)
      (none : ¬ policies.Linked rule ODRL.assignee ANONYMOUS)
  /-- One of its constraints is satisfied, and not taken for it. -/
  | constraint {node : Term}
      (active : ActiveFor reading env.now policies claims resource scope rule)
      (linked : policies.Linked rule ODRL.constraint node)
      (none : ¬ TakenAt env policies claims node)
  /-- Its constraints on credentials do not hold, or are not supported. -/
  | credentials (active : ActiveFor reading env.now policies claims resource scope rule)
      (none : validateOvcConstraints env policies claims rule ≠ .ok (some true))

theorem superAction_eq_some {action : String} {super : Term}
    (h : superAction action = some super) : super = ODRL.modify := by
  unfold superAction at h
  split at h
  · exact (Option.some.inj h).symm
  · cases h

/-- What a lookup by a plain string finds, it finds for the node itself or for another
node. -/
theorem linkedFrom_cases {id : String} {p b : Term} (h : policies.LinkedFrom id p b) :
    policies.Linked (.namedNode id) p b ∨
      ∃ node : Term, node.named id = true ∧ node ≠ .namedNode id ∧ policies.Linked node p b := by
  obtain ⟨node, hnamed, hlinked⟩ := h
  by_cases hnode : node = .namedNode id
  · exact .inl (hnode ▸ hlinked)
  · exact .inr ⟨node, hnamed, hnode, hlinked⟩

theorem overrated_iff :
    Overrated env reading policies claims resource scope rule ↔
      ValidFor env policies claims resource scope rule ∧
        ¬ ActiveFor reading env.now policies claims resource scope rule := by
  constructor
  · intro h
    rw [activeFor_iff]
    cases h with
    | target valid _ _ _ _ none =>
      exact ⟨valid, fun ⟨⟨target, hlinked, htarget⟩, _⟩ => none target hlinked htarget⟩
    | action valid _ _ none =>
      exact ⟨valid, fun ⟨_, ⟨action, hlinked, haction⟩, _⟩ => none action hlinked haction⟩
    | assignee valid linked _ none =>
      refine ⟨valid, fun ⟨_, _, hassignee, _⟩ => ?_⟩
      rcases hassignee with hpublic | ⟨assignee, hlinked, hparty⟩
      · exact hpublic _ linked
      · exact none assignee hlinked hparty
    | constraint valid linked _ none =>
      exact ⟨valid, fun ⟨_, _, _, hall⟩ => none (hall _ linked)⟩
  · rintro ⟨hvalid, hactive⟩
    have hparts := validFor_iff.mp hvalid
    obtain ⟨⟨target, htarget, hrule⟩, haction, hassignee, hconstraints, -⟩ := hparts
    rw [activeFor_iff] at hactive
    by_cases honTarget : ∃ target, policies.Linked rule ODRL.target target ∧
        IsTarget policies resource target
    · by_cases honAction : ∃ action, policies.Linked rule ODRL.action action ∧
          IsAction reading scope action
      · by_cases honAssignee : (∀ assignee, ¬ policies.Linked rule ODRL.assignee assignee) ∨
            ∃ assignee, policies.Linked rule ODRL.assignee assignee ∧
              IsParty policies claims assignee
        · -- a constraint is left
          have hsome : ¬ ∀ node, policies.Linked rule ODRL.constraint node →
              IsSatisfied reading env.now policies claims resource scope node :=
            fun hall => hactive ⟨honTarget, honAction, honAssignee, hall⟩
          push Not at hsome
          obtain ⟨node, hlinked, hnot⟩ := hsome
          exact .constraint hvalid hlinked (hconstraints node hlinked) hnot
        · rcases hassignee with hpublic | ⟨assignee, hmem, hlinked⟩
          · exact absurd (.inl hpublic) honAssignee
          have hnone : ∀ assignee, policies.Linked rule ODRL.assignee assignee →
              ¬ IsParty policies claims assignee :=
            fun other hother hparty => honAssignee (.inr ⟨other, hother, hparty⟩)
          refine .assignee hvalid hlinked ?_ hnone
          rcases SimpleOdrlAuthorizer.mem_assigneesOf.mp hmem with
            rfl | ⟨user, name, huser, hname, hfound⟩
          · exact .inl rfl
          have hparty : name ∈ subjectsOf claims :=
            mem_subjectsOf.mpr (.inl (List.mem_filterMap.mpr ⟨user, huser, hname⟩))
          rcases hfound with heq | hfrom
          · exact absurd ⟨name, hparty, .inl heq⟩ (hnone assignee hlinked)
          rcases linkedFrom_cases hfrom with hmember | hother
          · exact absurd ⟨name, hparty, .inr hmember⟩ (hnone assignee hlinked)
          · exact .inr ⟨name, hparty, hother⟩
      · have hnone : ∀ action, policies.Linked rule ODRL.action action →
            ¬ IsAction reading scope action :=
          fun action hlinked haction => honAction ⟨action, hlinked, haction⟩
        rcases haction with hplain | ⟨super, hsuper, hquad⟩
        · exact absurd (.inl rfl) (hnone _ (Store.linked_of_mem hplain))
        · obtain rfl := superAction_eq_some hsuper
          exact .action hvalid hsuper hquad hnone
    · have hnone : ∀ target, policies.Linked rule ODRL.target target →
          ¬ IsTarget policies resource target :=
        fun target hlinked htarget => honTarget ⟨target, hlinked, htarget⟩
      rcases SimpleOdrlAuthorizer.mem_targetsOf.mp htarget with heq | hfrom
      · exact absurd (.inl heq) (hnone target hrule)
      rcases linkedFrom_cases hfrom with hmember | ⟨node, hnamed, hother, hmember⟩
      · exact absurd (.inr hmember) (hnone target hrule)
      · exact .target hvalid hnamed hother hmember hrule hnone

theorem overlooked_iff :
    Overlooked env reading policies claims resource scope rule ↔
      ActiveFor reading env.now policies claims resource scope rule ∧
        ¬ ValidFor env policies claims resource scope rule := by
  constructor
  · intro h
    rw [validFor_iff]
    cases h with
    | action active _ _ none => exact ⟨active, fun ⟨_, haction, _⟩ => none haction⟩
    | assignee active linked anonymous _ none =>
      refine ⟨active, fun ⟨_, _, hassignee, _⟩ => ?_⟩
      rcases hassignee with hpublic | ⟨assignee, hmem, hlinked⟩
      · exact hpublic _ linked
      rcases SimpleOdrlAuthorizer.mem_assigneesOf.mp hmem with
        rfl | ⟨user, name, huser, hname, -⟩
      · exact none hlinked
      · have hclaimed : name ∈ (claims.values WEBID).filterMap Json.asString? :=
          List.mem_filterMap.mpr ⟨user, huser, hname⟩
        rw [anonymous] at hclaimed
        exact absurd hclaimed List.not_mem_nil
    | constraint active linked none =>
      exact ⟨active, fun ⟨_, _, _, hall, _⟩ => none (hall _ linked)⟩
    | credentials active none => exact ⟨active, fun ⟨_, _, _, _, hvalid⟩ => none hvalid⟩
  · rintro ⟨hactive, hvalid⟩
    obtain ⟨⟨target, hrule, htarget⟩, ⟨action, haction, hincludes⟩, hassignee, -⟩ :=
      activeFor_iff.mp hactive
    rw [validFor_iff] at hvalid
    have honTarget : ∃ target ∈ SimpleOdrlAuthorizer.targetsOf policies resource,
        policies.Linked rule ODRL.target target := by
      refine ⟨target, SimpleOdrlAuthorizer.mem_targetsOf.mpr ?_, hrule⟩
      exact htarget.imp_right Store.Linked.linkedFrom
    by_cases hplain : IsPlainAction policies scope rule
    · by_cases honAssignee : (∀ assignee, ¬ policies.Linked rule ODRL.assignee assignee) ∨
          ∃ assignee ∈ SimpleOdrlAuthorizer.assigneesOf policies claims,
            policies.Linked rule ODRL.assignee assignee
      · by_cases hcredentials : validateOvcConstraints env policies claims rule = .ok (some true)
        · have hsome : ¬ ∀ node, policies.Linked rule ODRL.constraint node →
              TakenAt env policies claims node :=
            fun hall => hvalid ⟨honTarget, hplain, honAssignee, hall, hcredentials⟩
          push Not at hsome
          obtain ⟨node, hlinked, hnot⟩ := hsome
          exact .constraint hactive hlinked hnot
        · exact .credentials hactive hcredentials
      · rcases hassignee with hpublic | ⟨assignee, hlinked, party, hparty, hassignee⟩
        · exact absurd (.inl hpublic) honAssignee
        have hnone : ∀ other ∈ SimpleOdrlAuthorizer.assigneesOf policies claims,
            ¬ policies.Linked rule ODRL.assignee other :=
          fun other hmem hother => honAssignee (.inr ⟨other, hmem, hother⟩)
        have hanonymous : ¬ policies.Linked rule ODRL.assignee ANONYMOUS :=
          hnone _ (SimpleOdrlAuthorizer.mem_assigneesOf.mpr (.inl rfl))
        rcases mem_subjectsOf.mp hparty with hclaimed | ⟨hnobody, rfl⟩
        · -- the assignees of a claimed WebID are all looked at
          obtain ⟨user, huser, hname⟩ := List.mem_filterMap.mp hclaimed
          refine absurd hlinked (hnone assignee (SimpleOdrlAuthorizer.mem_assigneesOf.mpr ?_))
          exact .inr ⟨user, party, huser, hname, hassignee.imp_right Store.Linked.linkedFrom⟩
        · rcases hassignee with rfl | hmember
          · exact absurd hlinked hanonymous
          · exact .assignee hactive hlinked hnobody hmember hanonymous
    · exact .action hactive haction hincludes hplain

end UserManagedAccess.Policies
