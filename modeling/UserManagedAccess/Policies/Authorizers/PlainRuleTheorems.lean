/-
UserManagedAccess.Policies.Authorizers.PlainRuleTheorems — the policies on
which the simple ODRL authorizer and the full one agree.

A plain rule names the requested action itself, or a broader one both
authorizers know; it has nothing to do with the anonymous user; it has no
constraints on credentials, and its other constraints compare the time with a
date, or ask for a claim value. A plain id stands for one node of the store only.
The two authorizers judge a plain rule alike.

* `isPlainAction_iff`, `assigneesOf_iff_isParty` — the action and the assignee of
  a plain rule;
* `PlainOperands.alike` — one constraint;
* `validFor_iff_activeFor` — a plain rule;
* `pathsAgree_of_plain` — the authorizers agree on plain policies.
-/
import UserManagedAccess.Policies.Authorizers.OdrlAgreementTheorems

namespace UserManagedAccess.Policies

open UserManagedAccess.Lib UserManagedAccess.Rdf UserManagedAccess.Util
open UserManagedAccess.Views UserManagedAccess.Credentials
open SimpleOdrlAuthorizer (ANONYMOUS Taken ValidFor)
open OdrlAuthorizer (ActiveFor askedFor odrlAction subjectsOf contextClaims claimContext)

variable {env : SimpleOdrlAuthorizer.Environment} {reading : OdrlReading} {policies : Store}
  {claims : ClaimSet} {resource scope : String} {rule : Term}

/-! ## Actions -/

/-- An action of the default graph: the requested one, or one that both take
for a broader one or neither does. -/
def PlainAction (reading : OdrlReading) (policies : Store) (scope : String) (rule : Term) :
    Prop :=
  ∀ action, policies.Linked rule ODRL.action action → quad rule ODRL.action action ∈ policies ∧
    (reading.includes action (.namedNode (odrlAction scope)) = true ↔
      SimpleOdrlAuthorizer.superAction (odrlAction scope) = some action)

theorem isPlainAction_iff (h : PlainAction reading policies scope rule) :
    IsPlainAction policies scope rule ↔
      ∃ action, policies.Linked rule ODRL.action action ∧ IsAction reading scope action := by
  constructor
  · rintro (haction | ⟨super, hsuper, haction⟩)
    · exact ⟨_, Store.linked_of_mem haction, Or.inl rfl⟩
    · have hlinked := Store.linked_of_mem haction
      exact ⟨super, hlinked, Or.inr ((h super hlinked).2.mpr hsuper)⟩
  · rintro ⟨action, hlinked, rfl | hincludes⟩
    · exact Or.inl (h _ hlinked).1
    · exact Or.inr ⟨action, (h action hlinked).2.mp hincludes, (h action hlinked).1⟩

/-! ## Targets and assignees -/

/-- The id stands for no other node of the store that is part of something. -/
def PlainId (policies : Store) (id : String) : Prop :=
  ∀ node group : Term, node.named id = true → policies.Linked node ODRL.partOf group →
    node = .namedNode id

theorem PlainId.linkedFrom {id : String} (h : PlainId policies id) {group : Term} :
    policies.LinkedFrom id ODRL.partOf group ↔
      policies.Linked (.namedNode id) ODRL.partOf group := by
  constructor
  · rintro ⟨node, hnamed, hlinked⟩
    exact h node group hnamed hlinked ▸ hlinked
  · exact Store.Linked.linkedFrom

/-- No assignee is the anonymous user or a collection that user is part of. -/
def PlainAssignee (policies : Store) (rule : Term) : Prop :=
  ∀ assignee, policies.Linked rule ODRL.assignee assignee →
    assignee ≠ ANONYMOUS ∧ ¬ policies.Linked ANONYMOUS ODRL.partOf assignee

theorem assigneesOf_iff_isParty (h : PlainAssignee policies rule)
    (hids : ∀ party ∈ subjectsOf claims, PlainId policies party) {assignee : Term}
    (hlinked : policies.Linked rule ODRL.assignee assignee) :
    assignee ∈ SimpleOdrlAuthorizer.assigneesOf policies claims ↔
      IsParty policies claims assignee := by
  constructor
  · intro hassignee
    rcases SimpleOdrlAuthorizer.mem_assigneesOf.mp hassignee with rfl | ⟨user, name, huser, hname,
      hparty⟩
    · exact absurd rfl (h _ hlinked).1
    · have hsubject : name ∈ subjectsOf claims :=
        mem_subjectsOf.mpr (Or.inl (List.mem_filterMap.mpr ⟨user, huser, hname⟩))
      exact ⟨name, hsubject, hparty.imp_right (hids name hsubject).linkedFrom.mp⟩
  · rintro ⟨party, hparty, hassignee⟩
    rcases mem_subjectsOf.mp hparty with hclaimed | ⟨-, rfl⟩
    · obtain ⟨user, huser, hname⟩ := List.mem_filterMap.mp hclaimed
      exact SimpleOdrlAuthorizer.mem_assigneesOf.mpr
        (Or.inr ⟨user, party, huser, hname, hassignee.imp_right Store.Linked.linkedFrom⟩)
    · rcases hassignee with heq | hgroup
      · exact absurd heq (h assignee hlinked).1
      · exact absurd hgroup (h assignee hlinked).2

/-! ## Constraints -/

/-- The operand the full authorizer gives a claim. -/
def operandOf (key : String) : String := (OdrlAuthorizer.claimOperandMap.get key).getD key

theorem mem_contextClaims (hnodup : claims.keys.Nodup) {left value : String} :
    (left, value) ∈ contextClaims claims ↔ ∃ key values, claims.get key = some values ∧
      left = operandOf key ∧ isIri left = true ∧
      values.any (Json.isString value) = true := by
  unfold contextClaims
  rw [List.mem_flatMap]
  constructor
  · rintro ⟨⟨key, values⟩, hentry, hmem⟩
    dsimp only at hmem
    split at hmem
    · rename_i hiri
      obtain ⟨claim, hclaim, hvalue⟩ := List.mem_filterMap.mp hmem
      obtain ⟨name, hname, hpair⟩ := Option.map_eq_some_iff.mp hvalue
      injection hpair with hleft hright
      subst hleft hright
      refine ⟨key, values, Dict.get_of_mem hnodup hentry, rfl, hiri, ?_⟩
      exact List.any_eq_true.mpr ⟨claim, hclaim, by simp [Json.isString, hname]⟩
    · exact absurd hmem List.not_mem_nil
  · rintro ⟨key, values, hget, rfl, hiri, hvalue⟩
    obtain ⟨claim, hclaim, hname⟩ := List.any_eq_true.mp hvalue
    refine ⟨(key, values), Dict.mem_of_get hget, ?_⟩
    dsimp only
    rw [if_pos (show isIri ((OdrlAuthorizer.claimOperandMap.get key).getD key) = true from hiri)]
    refine List.mem_filterMap.mpr ⟨claim, hclaim, ?_⟩
    have hsome : claim.asString? = some value := by simpa [Json.isString] using hname
    rw [hsome, Option.map_some]
    rfl

/-- The client is the one claim that changes its name. -/
theorem operandOf_eq (key : String) :
    operandOf key = if key = CLIENTID then ODRL.deliveryChannel.value else key := by
  unfold operandOf OdrlAuthorizer.claimOperandMap
  rw [Dict.get_cons]
  split
  · rfl
  · rw [Dict.get_cons]
    split
    · rename_i hpurpose
      rw [hpurpose]
      rfl
    · rfl

/-- The operands of a constraint both authorizers understand: an order between
the time and a date both read, or a claim and one of its values. -/
inductive PlainOperands (env : SimpleOdrlAuthorizer.Environment) (reading : OdrlReading)
    (claims : ClaimSet) : SimpleOdrlAuthorizer.ParsedConstraint → Prop where
  | date {operator right : Term}
      (horder : operator ∈ [ODRL.lt, ODRL.lteq, ODRL.gt, ODRL.gteq])
      (hread : reading.instant right = env.parseDate right.value) :
      PlainOperands env reading claims ⟨ODRL.dateTime, operator, right⟩
  | client {value : String} (hother : claims.get ODRL.deliveryChannel.value = none) :
      PlainOperands env reading claims ⟨ODRL.deliveryChannel, ODRL.eq, .namedNode value⟩
  | claim {key value : String} {values : List Json} (hget : claims.get key = some values)
      (hstrings : values.all (fun claim => claim.asString?.isSome) = true)
      (hiri : isIri key = true) (hdate : key ≠ ODRL.dateTime.value)
      (hchannel : key ≠ ODRL.deliveryChannel.value) (hclientid : key ≠ CLIENTID)
      (hown : key ∉ inheritedProperties) :
      PlainOperands env reading claims ⟨.namedNode key, ODRL.eq, .namedNode value⟩

/-- An equality with a claim, against the context. -/
theorem satisfies_claim {now : Int} {action key value : String}
    (hdate : key ≠ ODRL.dateTime.value) :
    satisfies reading (askedFor now claims action resource) (.namedNode key) ODRL.eq
        (.namedNode value) = true ↔ (key, value) ∈ contextClaims claims := by
  have hleft : Term.namedNode key ≠ ODRL.dateTime := fun h => hdate (congrArg Term.value h)
  rw [satisfies, if_neg hleft]
  simp only [askedFor, claimContext, List.any_map, List.any_eq_true, Function.comp_def,
    compares, if_pos, Bool.and_eq_true, decide_eq_true_eq, Term.namedNode.injEq, Prod.exists]
  constructor
  · rintro ⟨left, right, hmem, rfl, rfl⟩
    exact hmem
  · intro hmem
    exact ⟨key, value, hmem, rfl, rfl⟩

theorem dateRelation_compares {operator : Term}
    (horder : operator ∈ [ODRL.lt, ODRL.lteq, ODRL.gt, ODRL.gteq]) :
    SimpleOdrlAuthorizer.dateRelation operator.value =
      some fun now date => compares operator (now = date) (now < date) (date < now) := by
  simp only [List.mem_cons, List.not_mem_nil, or_false] at horder
  unfold SimpleOdrlAuthorizer.dateRelation compares
  rcases horder with rfl | rfl | rfl | rfl
  · rfl
  · refine congrArg some (funext fun now => funext fun date => ?_)
    simp [ODRL.lteq, ODRL.lt, ODRL.eq, ODRL.neq, Int.le_iff_lt_or_eq]
  · rfl
  · refine congrArg some (funext fun now => funext fun date => ?_)
    simp [ODRL.gteq, ODRL.gt, ODRL.lteq, ODRL.lt, ODRL.eq, ODRL.neq, Int.le_iff_lt_or_eq,
      eq_comm]

theorem deliveryChannel_ne_dateTime : ODRL.deliveryChannel ≠ ODRL.dateTime := by decide

theorem claimOperandMap_get {key : String} (h : key ≠ ODRL.deliveryChannel.value) :
    SimpleOdrlAuthorizer.claimOperandMap.get key = none := by
  unfold SimpleOdrlAuthorizer.claimOperandMap
  rw [Dict.get_cons, if_neg h]
  rfl

theorem PlainOperands.rightly {constraint : SimpleOdrlAuthorizer.ParsedConstraint}
    (h : PlainOperands env reading claims constraint) :
    SimpleOdrlAuthorizer.judgement env claims constraint = .rightly := by
  unfold SimpleOdrlAuthorizer.judgement
  cases h with
  | @date operator right horder hread =>
    have hcomparator : ∃ comparator,
        SimpleOdrlAuthorizer.dateComparators.get operator.value = some comparator := by
      rw [← Option.ne_none_iff_exists', ne_eq, SimpleOdrlAuthorizer.dateComparators_get_eq_none,
        dateRelation_compares horder]
      exact Option.some_ne_none _
    obtain ⟨comparator, hget⟩ := hcomparator
    have hdistinct : ∀ operator ∈ [ODRL.lt, ODRL.lteq, ODRL.gt, ODRL.gteq],
        operator.value ≠ ODRL.eq.value := by decide
    rw [if_pos rfl, Dict.property_of_get hget]
    exact if_neg fun h => hdistinct operator horder h.1
  | client hother =>
    rw [if_neg deliveryChannel_ne_dateTime]
    rfl
  | @claim key value values hget hstrings hiri hdate hchannel hclientid hown =>
    have hleft : Term.namedNode key ≠ ODRL.dateTime := fun h => hdate (congrArg Term.value h)
    rw [if_neg hleft]
    dsimp only [Term.value]
    rw [Dict.property_missing (claimOperandMap_get hchannel) hown]

/-- One plain constraint. -/
theorem PlainOperands.alike (hnodup : claims.keys.Nodup) {action : String}
    {constraint : SimpleOdrlAuthorizer.ParsedConstraint}
    (h : PlainOperands env reading claims constraint) :
    SimpleOdrlAuthorizer.meaning env claims constraint = some true ↔
      satisfies reading (askedFor env.now claims action resource) constraint.leftOperand
        constraint.operator constraint.rightOperand = true := by
  cases h with
  | date horder hread =>
    unfold SimpleOdrlAuthorizer.meaning
    rw [if_pos rfl, dateRelation_compares horder, satisfies, if_pos rfl, hread, Option.map_some,
      Option.some_inj]
    cases env.parseDate _ with
    | none => rfl
    | some date => simp [askedFor]
  | client hother =>
    rename_i value
    have hmeaning : SimpleOdrlAuthorizer.meaning env claims
        ⟨ODRL.deliveryChannel, ODRL.eq, .namedNode value⟩ =
          some ((claims.values CLIENTID).any (Json.isString value)) := by
      unfold SimpleOdrlAuthorizer.meaning
      rw [if_neg deliveryChannel_ne_dateTime]
      rfl
    have hsatisfies : satisfies reading (askedFor env.now claims action resource)
        ODRL.deliveryChannel ODRL.eq (.namedNode value) = true ↔
          (ODRL.deliveryChannel.value, value) ∈ contextClaims claims :=
      satisfies_claim (by decide)
    rw [hmeaning, hsatisfies, mem_contextClaims hnodup, Option.some_inj]
    constructor
    · intro hvalue
      cases hget : claims.get CLIENTID with
      | none =>
        rw [ClaimSet.values, hget] at hvalue
        cases hvalue
      | some values =>
        rw [ClaimSet.values, hget] at hvalue
        exact ⟨CLIENTID, values, hget, rfl, by decide +kernel, hvalue⟩
    · rintro ⟨key, values, hget, hkey, -, hvalue⟩
      rw [operandOf_eq] at hkey
      split at hkey
      · rename_i hclient
        subst hclient
        rw [ClaimSet.values, hget]
        exact hvalue
      · rw [← hkey, hother] at hget
        cases hget
  | @claim key value values hget hstrings hiri hdate hchannel hclientid =>
    have hleft : Term.namedNode key ≠ ODRL.dateTime := fun h => hdate (congrArg Term.value h)
    have hoperand := claimOperandMap_get hchannel
    unfold SimpleOdrlAuthorizer.meaning
    rw [if_neg hleft, satisfies_claim hdate, mem_contextClaims hnodup]
    simp only [Term.value, hoperand, hget, hstrings, SimpleOdrlAuthorizer.claimed, if_pos,
      Option.some_inj, ClaimSet.values, Option.getD_some]
    constructor
    · intro hvalue
      refine ⟨key, values, hget, ?_, hiri, hvalue⟩
      rw [operandOf_eq, if_neg hclientid]
    · rintro ⟨other, others, hother, hkey, -, hvalue⟩
      rw [operandOf_eq] at hkey
      split at hkey
      · exact absurd hkey hchannel
      · subst hkey
        rw [hget] at hother
        cases hother
        exact hvalue

/-! ## Rules -/

/-- A node with one value for each operand, and plain ones. -/
structure PlainConstraint (env : SimpleOdrlAuthorizer.Environment) (reading : OdrlReading)
    (policies : Store) (claims : ClaimSet) (node : Term)
    (constraint : SimpleOdrlAuthorizer.ParsedConstraint) : Prop where
  left : ∀ x, policies.Linked node ODRL.leftOperand x ↔ x = constraint.leftOperand
  operator : ∀ x, policies.Linked node ODRL.operator x ↔ x = constraint.operator
  right : ∀ x, policies.Linked node ODRL.rightOperand x ↔ x = constraint.rightOperand
  operands : PlainOperands env reading claims constraint

theorem PlainConstraint.alike (hnodup : claims.keys.Nodup) {action : String} {node : Term}
    {constraint : SimpleOdrlAuthorizer.ParsedConstraint}
    (h : PlainConstraint env reading policies claims node constraint) :
    TakenAt env policies claims node ↔
      isSatisfied reading policies (askedFor env.now claims action resource) node = true := by
  have hleft := Store.getObjects_eq_singleton.mpr h.left
  have hoperator := Store.getObjects_eq_singleton.mpr h.operator
  have hright := Store.getObjects_eq_singleton.mpr h.right
  have hparse : SimpleOdrlAuthorizer.parseConstraint policies ODRL.leftOperand node =
      some constraint := by
    unfold SimpleOdrlAuthorizer.parseConstraint
    rw [hleft, hoperator, hright]
    rfl
  have hsatisfied : isSatisfied reading policies (askedFor env.now claims action resource) node =
      satisfies reading (askedFor env.now claims action resource) constraint.leftOperand
        constraint.operator constraint.rightOperand := by
    simp [isSatisfied, hleft, hoperator, hright]
  have htaken : TakenAt env policies claims node ↔
      SimpleOdrlAuthorizer.meaning env claims constraint = some true := by
    simp [TakenAt, hparse, Taken, h.operands.rightly]
  rw [htaken, hsatisfied]
  exact h.operands.alike hnodup

structure PlainRule (env : SimpleOdrlAuthorizer.Environment) (reading : OdrlReading)
    (policies : Store) (claims : ClaimSet) (scope : String) (rule : Term) : Prop where
  action : PlainAction reading policies scope rule
  assignee : PlainAssignee policies rule
  credentials : ∀ node, ¬ policies.Linked rule OVC.constraint node
  constraints : ∀ node, policies.Linked rule ODRL.constraint node →
    ∃ constraint, PlainConstraint env reading policies claims node constraint

theorem validateOvcConstraints_of_none
    (h : ∀ node, ¬ policies.Linked rule OVC.constraint node) :
    SimpleOdrlAuthorizer.validateOvcConstraints env policies claims rule = .ok (some true) := by
  unfold SimpleOdrlAuthorizer.validateOvcConstraints
  rw [Store.getObjects_eq_nil.mpr h]
  rfl

/-- The two authorizers judge a plain rule alike. -/
theorem validFor_iff_activeFor (hnodup : claims.keys.Nodup) (hresource : PlainId policies resource)
    (hparties : ∀ party ∈ subjectsOf claims, PlainId policies party)
    (h : PlainRule env reading policies claims scope rule) :
    ValidFor env policies claims resource scope rule ↔
      ActiveFor reading env.now policies claims resource scope rule := by
  have htarget : (∃ target ∈ SimpleOdrlAuthorizer.targetsOf policies resource,
      policies.Linked rule ODRL.target target) ↔
      ∃ target, policies.Linked rule ODRL.target target ∧ IsTarget policies resource target := by
    refine exists_congr fun target => ?_
    rw [SimpleOdrlAuthorizer.mem_targetsOf, hresource.linkedFrom, and_comm, IsTarget]
  have hassignee : (∃ assignee ∈ SimpleOdrlAuthorizer.assigneesOf policies claims,
      policies.Linked rule ODRL.assignee assignee) ↔
      ∃ assignee, policies.Linked rule ODRL.assignee assignee ∧
        IsParty policies claims assignee := by
    refine exists_congr fun assignee => ?_
    rw [and_comm]
    exact and_congr_right fun hlinked => assigneesOf_iff_isParty h.assignee hparties hlinked
  have hconstraints : (∀ node, policies.Linked rule ODRL.constraint node →
      TakenAt env policies claims node) ↔
      ∀ node, policies.Linked rule ODRL.constraint node →
        IsSatisfied reading env.now policies claims resource scope node := by
    refine forall_congr' fun node => imp_congr_right fun hlinked => ?_
    obtain ⟨constraint, hplain⟩ := h.constraints node hlinked
    rw [← isSatisfied_iff]
    exact hplain.alike hnodup
  rw [validFor_iff, activeFor_iff, htarget, isPlainAction_iff h.action, hassignee, hconstraints,
    and_iff_left (validateOvcConstraints_of_none h.credentials)]

/-! ## Queries -/

/-- In a query with distinct resources, an entry is the last for its own. -/
theorem lastEntry_of_mem {query : List Permission}
    (hids : (query.map Permission.resourceId).Nodup) {permission : Permission}
    (h : permission ∈ query) (n : Nat) :
    ∃ m, OdrlAuthorizer.lastEntry n query permission.resourceId = some (m, permission) := by
  induction query generalizing n with
  | nil => cases h
  | cons first query ih =>
    obtain ⟨hfirst, hrest⟩ := List.nodup_cons.mp hids
    rw [OdrlAuthorizer.lastEntry_cons]
    rcases List.mem_cons.mp h with rfl | hmem
    · cases hlast : OdrlAuthorizer.lastEntry (n + permission.resourceScopes.length) query
        permission.resourceId with
      | none => exact ⟨n, by simp⟩
      | some entry =>
        obtain ⟨hentry, hid⟩ := OdrlAuthorizer.lastEntry_some hlast
        have hmem := List.mem_map_of_mem (f := Permission.resourceId)
          (OdrlAuthorizer.mem_numbered hentry)
        exact absurd (hid ▸ hmem) hfirst
    · obtain ⟨m, hlast⟩ := ih hrest hmem (n + first.resourceScopes.length)
      exact ⟨m, by rw [hlast, Option.some_or]⟩

/-- On plain policies, and for a query with distinct resources, the two
authorizers agree. -/
theorem pathsAgree_of_plain (hnodup : claims.keys.Nodup) {query : List Permission}
    (hids : (query.map Permission.resourceId).Nodup)
    (hproto : ∀ permission ∈ query, permission.resourceId ≠ "__proto__")
    (hresources : ∀ permission ∈ query, PlainId policies permission.resourceId)
    (hparties : ∀ party ∈ subjectsOf claims, PlainId policies party)
    (hplain : ∀ permission ∈ query, ∀ scope ∈ permission.resourceScopes, ∀ rule,
      SimpleOdrlAuthorizer.Permitted policies rule ∨
        SimpleOdrlAuthorizer.Prohibited policies rule →
      PlainRule env reading policies claims scope rule) :
    PathsAgree env reading policies claims query := by
  rintro resource scope ⟨permission, hmem, rfl, hscope⟩
  have hlast : OdrlAuthorizer.RequestedLast query permission.resourceId scope := by
    obtain ⟨m, hentry⟩ := lastEntry_of_mem hids hmem 0
    exact ⟨hproto permission hmem, _, hentry, hscope⟩
  have hsame : ∀ rule, SimpleOdrlAuthorizer.Permitted policies rule ∨
      SimpleOdrlAuthorizer.Prohibited policies rule →
      (ValidFor env policies claims permission.resourceId scope rule ↔
        ActiveFor reading env.now policies claims permission.resourceId scope rule) :=
    fun rule hrule => validFor_iff_activeFor hnodup (hresources permission hmem) hparties
      (hplain permission hmem scope hscope rule hrule)
  refine ⟨fun _ => ⟨.of_none fun rule hrule hover => ?_, .of_none fun rule hrule hover => ?_⟩,
    fun hdropped => absurd hlast hdropped⟩
  · obtain ⟨hvalid, hinactive⟩ := overrated_iff.mp hover
    exact hinactive ((hsame rule hrule).mp hvalid)
  · obtain ⟨hactive, hinvalid⟩ := overlooked_iff.mp hover
    exact hinvalid ((hsame rule hrule).mpr hactive)

end UserManagedAccess.Policies
