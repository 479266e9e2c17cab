/-
UserManagedAccess.Policies.Authorizers.ConstraintTheorems — the constraints of
a rule, against what they mean.

A constraint is satisfied, not satisfied, or not supported: `meaning` says
which, and `ThreeValued` is what `validateConstraints` is to make of the
meanings of a rule's constraints.

* `validateConstraint_judged` — one constraint, and whether the code judges it
  rightly, refuses it, passes it or throws (`judgement`);
* `allValid_exact` — the loop over the constraints;
* `validateConstraints_exact` — when a rule is judged by its meanings.

## What the code misjudges

`judgement` reads it off the operands of a constraint and the claims:

* it refuses the time or the delivery channel with an operator that is not in
  the table, and an equality with the current time;
* a comparison of the time by `constructor` or `toString` passes, and one by
  another name that every object inherits throws;
* such a name as the operand is asked of the claims under the text of what is
  inherited, whatever the claims of that name are.

## How the proof goes

The loop stops at the first constraint the code does not take for satisfied
(`allValid_cases`). What it returns is then what that constraint is judged to
be, and `WellJudged` says that this is no wrong refusal and no exception, or,
where the loop does not stop, that none of the constraints has passed wrongly.
-/
import UserManagedAccess.Policies.Authorizers.SimpleOdrlAuthorizerTheorems

namespace UserManagedAccess.Policies

open UserManagedAccess.Lib UserManagedAccess.Rdf UserManagedAccess.Util
open UserManagedAccess.Credentials

namespace SimpleOdrlAuthorizer

variable {env : Environment} {policies : Store} {claims : ClaimSet}

/-! ## Meanings -/

/-- The supported comparisons of the current time with a date. -/
def dateRelation (operator : String) : Option (Int → Int → Bool) :=
  if operator = ODRL.lt.value then some fun now date => now < date
  else if operator = ODRL.lteq.value then some fun now date => now ≤ date
  else if operator = ODRL.eq.value then some fun now date => now = date
  else if operator = ODRL.gt.value then some fun now date => now > date
  else if operator = ODRL.gteq.value then some fun now date => now ≥ date
  else none

/-- The claims of a key have the right operand among them, where `eq` asks. -/
def claimed (claims : ClaimSet) (claimKey : String) (constraint : ParsedConstraint) :
    Option Bool :=
  if constraint.operator = ODRL.eq then
    some ((claims.values claimKey).any (Json.isString constraint.rightOperand.value))
  else none

/-- Satisfied, not satisfied, or `none` for a constraint that is not supported. -/
def meaning (env : Environment) (claims : ClaimSet) (constraint : ParsedConstraint) :
    Option Bool :=
  if constraint.leftOperand = ODRL.dateTime then
    (dateRelation constraint.operator.value).map fun relation =>
      (env.parseDate constraint.rightOperand.value).any (relation env.now)
  else
    match claimOperandMap.get constraint.leftOperand.value with
    | some claimKey => claimed claims claimKey constraint
    | none =>
      match claims.get constraint.leftOperand.value with
      | some values =>
        if values.all (fun claim => claim.asString?.isSome) then
          claimed claims constraint.leftOperand.value constraint
        else none
      | none => none

/-- What a node says as a constraint. -/
def nodeMeaning (env : Environment) (policies : Store) (claims : ClaimSet)
    (constraint : Term) : Option Bool :=
  (parseConstraint policies ODRL.leftOperand constraint).bind (meaning env claims)

/-- There is a verdict: true says that every constraint of the rule is
satisfied, and false that some constraint is not. -/
structure ThreeValued (env : Environment) (policies : Store) (claims : ClaimSet)
    (rule : Term) : Prop where
  returns : ∃ verdict, validateConstraints env policies claims rule = .ok verdict
  satisfied : validateConstraints env policies claims rule = .ok (some true) ↔
    ∀ constraint, policies.Linked rule ODRL.constraint constraint →
      nodeMeaning env policies claims constraint = some true
  violated : validateConstraints env policies claims rule = .ok (some false) →
    ∃ constraint, policies.Linked rule ODRL.constraint constraint ∧
      nodeMeaning env policies claims constraint = some false

/-! ## One constraint -/

/-- How the code judges a constraint. -/
inductive Judgement where
  | rightly
  /-- It is taken for not satisfied, which it is not. -/
  | refused
  /-- It is taken for satisfied, which it is not. -/
  | passed
  | thrown
  deriving DecidableEq

def judgement (env : Environment) (claims : ClaimSet) (constraint : ParsedConstraint) :
    Judgement :=
  if constraint.leftOperand = ODRL.dateTime then
    match dateComparators.property constraint.operator.value with
    | .own _ =>
      if constraint.operator.value = ODRL.eq.value ∧
          env.parseDate constraint.rightOperand.value = some env.now then .refused
      else .rightly
    | .inherited =>
      if constraint.operator.value = "constructor" ∨ constraint.operator.value = "toString" then
        .passed
      else .thrown
    | .missing => .refused
  else
    match claimOperandMap.property constraint.leftOperand.value with
    | .own _ => if constraint.operator = ODRL.eq then .rightly else .refused
    | .inherited =>
      let taken := validateClaims claims (inheritedKey constraint.leftOperand.value) constraint
      if meaning env claims constraint = some taken then .rightly
      else if taken then .passed
      else .refused
    | .missing => .rightly

/-- A verdict on a constraint that is judged so, and means so much. -/
def Judgement.Judges (verdict : Except HttpError (Option Bool)) (meant : Option Bool) :
    Judgement → Prop
  | .rightly => verdict = .ok meant
  | .refused => verdict = .ok (some false) ∧ meant ≠ some false
  | .passed => verdict = .ok (some true) ∧ meant ≠ some true
  | .thrown => ∃ e, verdict = .error e

theorem dateComparators_get_eq_none {operator : String} :
    dateComparators.get operator = none ↔ dateRelation operator = none := by
  unfold dateComparators dateRelation
  simp only [Dict.get_cons]
  repeat' split
  all_goals simp [Dict.get]

theorem dateRelation_of_inherited {operator : String} (h : operator ∈ inheritedProperties) :
    dateRelation operator = none := by
  simp only [inheritedProperties, List.mem_cons, List.not_mem_nil, or_false] at h
  rcases h with rfl | rfl | rfl | rfl | rfl | rfl | rfl | rfl | rfl | rfl | rfl | rfl <;>
    decide +kernel

/-- Away from an equality that holds, the comparators are the relations. -/
theorem dateComparators_some {operator : String} {comparator : Int → Option Int → Bool}
    (hsome : dateComparators.get operator = some comparator) (now : Int) (date : Option Int)
    (hother : ¬ (operator = ODRL.eq.value ∧ date = some now)) :
    (dateRelation operator).map (fun relation => date.any (relation now)) =
      some (comparator now date) := by
  unfold dateComparators at hsome
  simp only [Dict.get_cons] at hsome
  unfold dateRelation
  split_ifs at hsome ⊢ with h₁ h₂ h₃ h₄ h₅
  · cases hsome; rfl
  · cases hsome; rfl
  · cases hsome
    cases date with
    | none => rfl
    | some date =>
      have hne : now ≠ date := fun h => hother ⟨h₃, by rw [h]⟩
      simp [hne]
  · cases hsome; rfl
  · cases hsome; rfl
  · cases hsome

theorem dateComparators_eq {comparator : Int → Option Int → Bool}
    (hsome : dateComparators.get ODRL.eq.value = some comparator) (now : Int)
    (date : Option Int) : comparator now date = false := by
  have heq : dateComparators.get ODRL.eq.value = some fun _ _ => false := by
    unfold dateComparators
    rw [Dict.get_cons, if_neg (by decide), Dict.get_cons, if_neg (by decide), Dict.get_cons,
      if_pos rfl]
  rw [heq] at hsome
  cases hsome
  rfl

theorem dateRelation_eq : dateRelation ODRL.eq.value =
    some fun now date : Int => decide (now = date) := by
  unfold dateRelation
  rw [if_neg (by decide), if_neg (by decide), if_pos rfl]

/-- The constraints on the time. -/
theorem validateDate_judged {constraint : ParsedConstraint}
    (hdate : constraint.leftOperand = ODRL.dateTime) :
    (judgement env claims constraint).Judges ((validateDate env constraint).map some)
      ((dateRelation constraint.operator.value).map fun relation =>
        (env.parseDate constraint.rightOperand.value).any (relation env.now)) := by
  unfold judgement validateDate
  rw [if_pos hdate]
  cases hget : dateComparators.get constraint.operator.value with
  | some comparator =>
    rw [Dict.property_of_get hget]
    dsimp only
    split
    case isTrue hnow =>
      rw [hnow.1] at hget
      refine ⟨congrArg (fun b => Except.ok (some b)) (dateComparators_eq hget _ _), ?_⟩
      simp [hnow.1, hnow.2, dateRelation_eq]
    case isFalse hother =>
      exact congrArg Except.ok (dateComparators_some hget env.now _ hother).symm
  | none =>
    by_cases hinherited : constraint.operator.value ∈ inheritedProperties
    · rw [Dict.property_inherited hget hinherited, dateRelation_of_inherited hinherited]
      dsimp only
      split
      case isTrue hpasses => exact ⟨by rw [inheritedComparator, if_pos hpasses]; rfl, nofun⟩
      case isFalse hthrows =>
        rw [inheritedComparator, if_neg hthrows]
        split <;> exact ⟨_, rfl⟩
    · rw [Dict.property_missing hget hinherited, dateComparators_get_eq_none.mp hget]
      exact ⟨rfl, nofun⟩

theorem claimed_eq_validateClaims {claimKey : String} {constraint : ParsedConstraint}
    (h : constraint.operator = ODRL.eq) :
    claimed claims claimKey constraint = some (validateClaims claims claimKey constraint) := by
  simp [claimed, validateClaims, h]

theorem validateConstraint_judged (env : Environment) (claims : ClaimSet)
    (constraint : ParsedConstraint) :
    (judgement env claims constraint).Judges (validateConstraint env claims constraint)
      (meaning env claims constraint) := by
  by_cases hdate : constraint.leftOperand = ODRL.dateTime
  · unfold validateConstraint meaning
    rw [if_pos hdate, if_pos hdate]
    exact validateDate_judged hdate
  · have hmeaning : meaning env claims constraint =
        match claimOperandMap.get constraint.leftOperand.value with
        | some claimKey => claimed claims claimKey constraint
        | none =>
          match claims.get constraint.leftOperand.value with
          | some values =>
            if values.all (fun claim => claim.asString?.isSome) then
              claimed claims constraint.leftOperand.value constraint
            else none
          | none => none := if_neg hdate
    unfold validateConstraint judgement
    rw [if_neg hdate, if_neg hdate]
    cases hget : claimOperandMap.get constraint.leftOperand.value with
    | some claimKey =>
      rw [hget] at hmeaning
      rw [Dict.property_of_get hget, hmeaning]
      dsimp only
      split
      case isTrue hoperator =>
        exact congrArg Except.ok (claimed_eq_validateClaims hoperator).symm
      case isFalse hoperator =>
        refine ⟨?_, by simp [claimed, hoperator]⟩
        simp [validateClaims, hoperator]
    | none =>
      by_cases hinherited : constraint.leftOperand.value ∈ inheritedProperties
      · rw [Dict.property_inherited hget hinherited]
        dsimp only
        split
        case isTrue hmeant => exact congrArg Except.ok hmeant.symm
        case isFalse hmeant =>
          split
          case isTrue htaken =>
            rw [htaken] at hmeant ⊢
            exact ⟨rfl, hmeant⟩
          case isFalse hnot =>
            rw [Bool.not_eq_true] at hnot
            rw [hnot] at hmeant ⊢
            exact ⟨rfl, hmeant⟩
      · rw [Dict.property_missing hget hinherited, hmeaning, hget]
        dsimp only
        cases hvalues : claims.get constraint.leftOperand.value with
        | none => rfl
        | some values =>
          by_cases hstrings : (values.all fun claim => claim.asString?.isSome) = true
          · by_cases hoperator : constraint.operator = ODRL.eq
            · simp [Judgement.Judges, hstrings, hoperator, claimed, ClaimSet.values, hvalues]
            · simp [Judgement.Judges, hoperator, claimed]
          · simp [Judgement.Judges, hstrings]

/-- The code takes the constraint for satisfied. -/
def Taken (env : Environment) (claims : ClaimSet) (constraint : ParsedConstraint) : Prop :=
  judgement env claims constraint = .passed ∨
    judgement env claims constraint = .rightly ∧ meaning env claims constraint = some true

theorem validateConstraint_true_iff {constraint : ParsedConstraint} :
    validateConstraint env claims constraint = .ok (some true) ↔ Taken env claims constraint := by
  have hjudged := validateConstraint_judged env claims constraint
  unfold Taken
  cases hjudgement : judgement env claims constraint with
  | rightly =>
    rw [hjudgement] at hjudged
    rw [show validateConstraint env claims constraint = _ from hjudged]
    simp
  | refused =>
    rw [hjudgement] at hjudged
    simp [hjudged.1]
  | passed =>
    rw [hjudgement] at hjudged
    simp [hjudged.1]
  | thrown =>
    rw [hjudgement] at hjudged
    obtain ⟨e, he⟩ := hjudged
    simp [he]

/-! ## The loop -/

/-- The first element that fails is one only. -/
theorem first_failing {α : Type} {p : α → Prop} {before before' after after' : List α} {x y : α}
    (hsplit : before ++ x :: after = before' ++ y :: after')
    (hbefore : ∀ b ∈ before, p b) (hx : ¬ p x)
    (hbefore' : ∀ b ∈ before', p b) (hy : ¬ p y) : x = y := by
  induction before generalizing before' with
  | nil =>
    cases before' with
    | nil => exact (List.cons.inj hsplit).1
    | cons b before' =>
      obtain ⟨rfl, -⟩ := List.cons.inj hsplit
      exact absurd (hbefore' x List.mem_cons_self) hx
  | cons b before ih =>
    cases before' with
    | nil =>
      obtain ⟨rfl, -⟩ := List.cons.inj hsplit
      exact absurd (hbefore b List.mem_cons_self) hy
    | cons b' before' =>
      obtain ⟨-, hsplit⟩ := List.cons.inj hsplit
      exact ih hsplit (fun b hb => hbefore b (List.mem_cons_of_mem _ hb))
        (fun b hb => hbefore' b (List.mem_cons_of_mem _ hb))

/-- The loop takes all constraints, or stops at one. -/
theorem allValid_cases (env : Environment) (claims : ClaimSet)
    (constraints : List ParsedConstraint) :
    (allValid env claims constraints = .ok (some true) ∧
        ∀ constraint ∈ constraints, Taken env claims constraint) ∨
      ∃ before constraint after, constraints = before ++ constraint :: after ∧
        (∀ b ∈ before, Taken env claims b) ∧ ¬ Taken env claims constraint ∧
        allValid env claims constraints = validateConstraint env claims constraint := by
  induction constraints with
  | nil => exact .inl ⟨rfl, fun constraint hmem => absurd hmem List.not_mem_nil⟩
  | cons constraint constraints ih =>
    by_cases htaken : Taken env claims constraint
    · have hloop : allValid env claims (constraint :: constraints) =
          allValid env claims constraints := by
        rw [allValid, validateConstraint_true_iff.mpr htaken]
        rfl
      rw [hloop]
      rcases ih with ⟨htrue, hall⟩ | ⟨before, c, after, rfl, hbefore, hstops, hverdict⟩
      · exact .inl ⟨htrue, List.forall_mem_cons.mpr ⟨htaken, hall⟩⟩
      · exact .inr ⟨constraint :: before, c, after, rfl,
          List.forall_mem_cons.mpr ⟨htaken, hbefore⟩, hstops, hverdict⟩
    · refine .inr ⟨[], constraint, constraints, rfl, fun b hb => absurd hb List.not_mem_nil,
        htaken, ?_⟩
      rw [← validateConstraint_true_iff] at htaken
      rw [allValid]
      rcases hverdict : validateConstraint env claims constraint with e | _ | _ | _
      · rfl
      · rfl
      · rfl
      · exact absurd hverdict htaken

theorem allValid_eq_true {constraints : List ParsedConstraint} :
    allValid env claims constraints = .ok (some true) ↔
      ∀ constraint ∈ constraints, validateConstraint env claims constraint = .ok (some true) := by
  simp only [validateConstraint_true_iff]
  rcases allValid_cases env claims constraints with
    ⟨htrue, hall⟩ | ⟨before, c, after, rfl, -, hstops, hverdict⟩
  · exact iff_of_true htrue hall
  · rw [hverdict, validateConstraint_true_iff]
    exact iff_of_false hstops fun hall => hstops (hall c (by simp))

/-- The loop has a verdict where each constraint has one. -/
theorem allValid_isSome {constraints : List ParsedConstraint}
    (h : ∀ constraint ∈ constraints, ∃ b,
      validateConstraint env claims constraint = .ok (some b)) :
    ∃ b, allValid env claims constraints = .ok (some b) := by
  rcases allValid_cases env claims constraints with
    ⟨htrue, -⟩ | ⟨before, c, after, rfl, -, -, hverdict⟩
  · exact ⟨true, htrue⟩
  · obtain ⟨b, hb⟩ := h c (by simp)
    exact ⟨b, hverdict.trans hb⟩

/-- The first constraint that is not taken for satisfied is not refused while all
that are supported are satisfied, and does not throw; where all of them are taken,
none has passed wrongly. -/
structure WellJudged (env : Environment) (claims : ClaimSet)
    (constraints : List ParsedConstraint) : Prop where
  stops : ∀ before constraint after, constraints = before ++ constraint :: after →
    (∀ b ∈ before, Taken env claims b) →
    judgement env claims constraint ≠ .thrown ∧
      (judgement env claims constraint = .refused →
        ∃ other ∈ constraints, meaning env claims other = some false)
  passes : (∀ constraint ∈ constraints, Taken env claims constraint) →
    ∀ constraint ∈ constraints, judgement env claims constraint ≠ .passed

theorem allValid_exact (constraints : List ParsedConstraint) :
    ((∃ verdict, allValid env claims constraints = .ok verdict) ∧
        (allValid env claims constraints = .ok (some true) ↔
          ∀ constraint ∈ constraints, meaning env claims constraint = some true) ∧
        (allValid env claims constraints = .ok (some false) →
          ∃ constraint ∈ constraints, meaning env claims constraint = some false)) ↔
      WellJudged env claims constraints := by
  constructor
  · rintro ⟨⟨verdict, hreturns⟩, hsatisfied, hviolated⟩
    constructor
    · intro before constraint after hsplit hbefore
      have hjudged := validateConstraint_judged env claims constraint
      -- the loop stops here, unless it takes this one, too
      have hstops : ¬ Taken env claims constraint →
          allValid env claims constraints = validateConstraint env claims constraint := by
        intro hnot
        rcases allValid_cases env claims constraints with
          ⟨-, hall⟩ | ⟨before', c, after', hsplit', hbefore', hnot', hverdict⟩
        · exact absurd (hall constraint (by simp [hsplit])) hnot
        · obtain rfl := first_failing (hsplit.symm.trans hsplit') hbefore hnot hbefore' hnot'
          exact hverdict
      have hnotTaken : judgement env claims constraint ≠ .rightly →
          judgement env claims constraint ≠ .passed → ¬ Taken env claims constraint := by
        rintro hright hpassed (h | ⟨h, -⟩)
        · exact hpassed h
        · exact hright h
      constructor
      · intro hthrown
        rw [hthrown] at hjudged
        obtain ⟨e, he⟩ := hjudged
        rw [hstops (hnotTaken (by simp [hthrown]) (by simp [hthrown])), he] at hreturns
        cases hreturns
      · intro hrefused
        rw [hrefused] at hjudged
        refine hviolated ?_
        rw [hstops (hnotTaken (by simp [hrefused]) (by simp [hrefused])), hjudged.1]
    · intro hall constraint hmem hpassed
      have hjudged := validateConstraint_judged env claims constraint
      rw [hpassed] at hjudged
      refine hjudged.2 (hsatisfied.mp (allValid_eq_true.mpr fun c hc => ?_) constraint hmem)
      exact validateConstraint_true_iff.mpr (hall c hc)
  · rintro ⟨hstops, hpasses⟩
    rcases allValid_cases env claims constraints with
      ⟨htrue, hall⟩ | ⟨before, c, after, hsplit, hbefore, hnot, hverdict⟩
    · have hmeaning : ∀ constraint ∈ constraints, meaning env claims constraint = some true := by
        intro constraint hmem
        rcases hall constraint hmem with hpassed | ⟨-, hmeant⟩
        · exact absurd hpassed (hpasses hall constraint hmem)
        · exact hmeant
      refine ⟨⟨_, htrue⟩, iff_of_true htrue hmeaning, fun hfalse => ?_⟩
      rw [htrue] at hfalse
      cases hfalse
    · have hmem : c ∈ constraints := by simp [hsplit]
      obtain ⟨hreturns, hrefuses⟩ := hstops before c after hsplit hbefore
      have hjudged := validateConstraint_judged env claims c
      rw [hverdict]
      cases hjudgement : judgement env claims c with
      | rightly =>
        rw [hjudgement] at hjudged
        have hunsatisfied : meaning env claims c ≠ some true :=
          fun hmeant => hnot (.inr ⟨hjudgement, hmeant⟩)
        rw [show validateConstraint env claims c = _ from hjudged]
        exact ⟨⟨_, rfl⟩, iff_of_false (fun htrue => hunsatisfied (Except.ok.inj htrue))
          fun hall => hunsatisfied (hall c hmem), fun hfalse => ⟨c, hmem, Except.ok.inj hfalse⟩⟩
      | refused =>
        obtain ⟨other, hother, hfalse⟩ := hrefuses hjudgement
        rw [hjudgement] at hjudged
        rw [hjudged.1]
        refine ⟨⟨_, rfl⟩, iff_of_false nofun fun hall => ?_, fun _ => ⟨other, hother, hfalse⟩⟩
        rw [hall other hother] at hfalse
        cases hfalse
      | passed => exact absurd (.inl hjudgement) hnot
      | thrown => exact absurd hjudgement hreturns

/-! ## A rule -/

/-- The constraints of a rule, where each of them is complete. -/
def constraintsOf (policies : Store) (rule : Term) : Option (List ParsedConstraint) :=
  (policies.getObjects rule ODRL.constraint none).mapM (parseConstraint policies ODRL.leftOperand)

theorem validateConstraints_incomplete {rule : Term} (h : constraintsOf policies rule = none) :
    validateConstraints env policies claims rule = .ok none := by
  unfold validateConstraints
  rw [show List.mapM _ _ = constraintsOf policies rule from rfl, h]

theorem validateConstraints_complete {rule : Term} {constraints : List ParsedConstraint}
    (h : constraintsOf policies rule = some constraints) :
    validateConstraints env policies claims rule = allValid env claims constraints := by
  unfold validateConstraints
  rw [show List.mapM _ _ = constraintsOf policies rule from rfl, h]

/-- Where a constraint lacks an operand, the rule is not judged. -/
theorem threeValued_of_incomplete {rule : Term} (h : constraintsOf policies rule = none) :
    ThreeValued env policies claims rule := by
  have hnone : validateConstraints env policies claims rule = .ok none :=
    validateConstraints_incomplete h
  obtain ⟨constraint, hmem, hparse⟩ := mapM_eq_none h
  refine ⟨⟨_, hnone⟩, ?_, ?_⟩
  · rw [hnone]
    refine ⟨nofun, fun hall => ?_⟩
    have hmeaning := hall constraint (Store.mem_getObjects_linked.mp hmem)
    rw [nodeMeaning, hparse] at hmeaning
    cases hmeaning
  · rw [hnone]
    exact nofun

/-- The constraints of a rule are those its nodes parse to. -/
theorem mem_constraintsOf {rule : Term} {constraints : List ParsedConstraint}
    (h : constraintsOf policies rule = some constraints) {constraint : ParsedConstraint} :
    constraint ∈ constraints ↔ ∃ node, policies.Linked rule ODRL.constraint node ∧
      parseConstraint policies ODRL.leftOperand node = some constraint := by
  have hmap := mapM_eq_some_iff.mp h
  have hsome : constraint ∈ constraints ↔ some constraint ∈ constraints.map some := by simp
  rw [hsome, ← hmap, List.mem_map]
  simp only [Store.mem_getObjects_linked]

/-- Each node of a rule with complete constraints parses to one of them. -/
theorem parse_of_complete {rule : Term} {constraints : List ParsedConstraint}
    (h : constraintsOf policies rule = some constraints) {node : Term}
    (hlinked : policies.Linked rule ODRL.constraint node) :
    ∃ constraint ∈ constraints,
      parseConstraint policies ODRL.leftOperand node = some constraint := by
  have hmap := mapM_eq_some_iff.mp h
  have hparse : parseConstraint policies ODRL.leftOperand node ∈ constraints.map some := by
    rw [← hmap]
    exact List.mem_map_of_mem (Store.mem_getObjects_linked.mpr hlinked)
  obtain ⟨constraint, hmem, hparse⟩ := List.mem_map.mp hparse
  exact ⟨constraint, hmem, hparse.symm⟩

/-- A reading of complete constraints is one of their nodes. -/
theorem forall_constraintsOf {rule : Term} {constraints : List ParsedConstraint}
    (h : constraintsOf policies rule = some constraints) (p : ParsedConstraint → Prop) :
    (∀ node, policies.Linked rule ODRL.constraint node →
        ∃ constraint, parseConstraint policies ODRL.leftOperand node = some constraint ∧
          p constraint) ↔
      ∀ constraint ∈ constraints, p constraint := by
  constructor
  · intro hnodes constraint hmem
    obtain ⟨node, hlinked, hparse⟩ := (mem_constraintsOf h).mp hmem
    obtain ⟨constraint', hparse', hp⟩ := hnodes node hlinked
    rw [hparse] at hparse'
    cases hparse'
    exact hp
  · intro hconstraints node hlinked
    obtain ⟨constraint, hmem, hparse⟩ := parse_of_complete h hlinked
    exact ⟨constraint, hparse, hconstraints constraint hmem⟩

theorem exists_constraintsOf {rule : Term} {constraints : List ParsedConstraint}
    (h : constraintsOf policies rule = some constraints) (p : ParsedConstraint → Prop) :
    (∃ node, policies.Linked rule ODRL.constraint node ∧
        ∃ constraint, parseConstraint policies ODRL.leftOperand node = some constraint ∧
          p constraint) ↔
      ∃ constraint ∈ constraints, p constraint := by
  constructor
  · rintro ⟨node, hlinked, constraint, hparse, hp⟩
    exact ⟨constraint, (mem_constraintsOf h).mpr ⟨node, hlinked, hparse⟩, hp⟩
  · rintro ⟨constraint, hmem, hp⟩
    obtain ⟨node, hlinked, hparse⟩ := (mem_constraintsOf h).mp hmem
    exact ⟨node, hlinked, constraint, hparse, hp⟩

/-- What a node says as a constraint. -/
theorem nodeMeaning_eq_some {node : Term} {verdict : Bool} :
    nodeMeaning env policies claims node = some verdict ↔
      ∃ constraint, parseConstraint policies ODRL.leftOperand node = some constraint ∧
        meaning env claims constraint = some verdict :=
  Option.bind_eq_some_iff

/-- A rule is valid when each of its constraints is. -/
theorem validateConstraints_eq_true {rule : Term} :
    validateConstraints env policies claims rule = .ok (some true) ↔
      ∀ node, policies.Linked rule ODRL.constraint node →
        ∃ constraint, parseConstraint policies ODRL.leftOperand node = some constraint ∧
          validateConstraint env claims constraint = .ok (some true) := by
  cases hparse : constraintsOf policies rule with
  | none =>
    rw [validateConstraints_incomplete hparse]
    refine iff_of_false nofun fun hall => ?_
    obtain ⟨node, hmem, hnone⟩ := mapM_eq_none hparse
    obtain ⟨constraint, hsome, -⟩ := hall node (Store.mem_getObjects_linked.mp hmem)
    rw [hnone] at hsome
    cases hsome
  | some constraints =>
    rw [validateConstraints_complete hparse, allValid_eq_true, forall_constraintsOf hparse]

theorem validateConstraints_isSome {rule : Term}
    (h : ∀ node, policies.Linked rule ODRL.constraint node →
      ∃ constraint, parseConstraint policies ODRL.leftOperand node = some constraint ∧
        ∃ verdict, validateConstraint env claims constraint = .ok (some verdict)) :
    ∃ verdict, validateConstraints env policies claims rule = .ok (some verdict) := by
  cases hparse : constraintsOf policies rule with
  | none =>
    obtain ⟨node, hmem, hnone⟩ := mapM_eq_none hparse
    obtain ⟨constraint, hsome, -⟩ := h node (Store.mem_getObjects_linked.mp hmem)
    rw [hnone] at hsome
    cases hsome
  | some constraints =>
    rw [validateConstraints_complete hparse]
    exact allValid_isSome ((forall_constraintsOf hparse fun constraint =>
      ∃ verdict, validateConstraint env claims constraint = .ok (some verdict)).mp h)

/-- Without credential constraints, a rule is judged by its constraints. -/
theorem response_of_no_credentials {rule : Term}
    (h : ∀ node, ¬ policies.Linked rule OVC.constraint node) :
    response env policies claims rule = validateConstraints env policies claims rule := by
  unfold response validateOvcConstraints
  rw [Store.getObjects_eq_nil.mpr h]
  rcases validateConstraints env policies claims rule with _ | _ | _ | _ <;> rfl

/-- A rule is judged by the meanings of its constraints unless one that is
misjudged decides it. -/
theorem validateConstraints_exact (env : Environment) (policies : Store) (claims : ClaimSet)
    (rule : Term) :
    ThreeValued env policies claims rule ↔
      ∀ constraints, constraintsOf policies rule = some constraints →
        WellJudged env claims constraints := by
  cases hparse : constraintsOf policies rule with
  | none => exact ⟨fun _ => nofun, fun _ => threeValued_of_incomplete hparse⟩
  | some constraints =>
    have hvalidate : validateConstraints env policies claims rule =
        allValid env claims constraints := validateConstraints_complete hparse
    have hsatisfied := forall_constraintsOf hparse (meaning env claims · = some true)
    have hviolated := exists_constraintsOf hparse (meaning env claims · = some false)
    simp only [← nodeMeaning_eq_some] at hsatisfied hviolated
    constructor
    · intro h constraints' hsome
      cases hsome
      refine (allValid_exact constraints).mp ?_
      rw [← hvalidate, ← hsatisfied, ← hviolated]
      exact ⟨h.returns, h.satisfied, h.violated⟩
    · intro h
      have hexact := (allValid_exact constraints).mpr (h constraints rfl)
      rw [← hvalidate, ← hsatisfied, ← hviolated] at hexact
      exact ⟨hexact.1, hexact.2.1, hexact.2.2⟩

/-! ## A prohibition that is dropped -/

/-- A policy that permits reading, and prohibits it away from one channel. -/
def channelPolicy : Store :=
  let policy := Term.namedNode "urn:policy"
  let permission := Term.namedNode "urn:permission"
  let prohibition := Term.namedNode "urn:prohibition"
  let constraint := Term.namedNode "urn:constraint"
  .ofQuads [quad policy ODRL.permission permission, quad policy ODRL.prohibition prohibition,
    quad permission ODRL.target (.namedNode "urn:resource"),
    quad permission ODRL.action ODRL.read,
    quad prohibition ODRL.target (.namedNode "urn:resource"),
    quad prohibition ODRL.action ODRL.read,
    quad prohibition ODRL.constraint constraint,
    quad constraint ODRL.leftOperand ODRL.deliveryChannel,
    quad constraint ODRL.operator ODRL.neq,
    quad constraint ODRL.rightOperand (.namedNode "urn:channel")]

/-- The operator of the prohibition is not supported, and the permission wins. -/
theorem neq_prohibition_dropped :
    (¬ ∀ env policies claims rule, ThreeValued env policies claims rule) ∧
      getPermissions ⟨0, fun _ => none, fun _ _ => .ok []⟩ channelPolicy Dict.empty
        "urn:resource" ODRL.read.value = .ok (some [ODRL.read.value]) := by
  constructor
  · intro hall
    have hjudged := (hall ⟨0, fun _ => none, fun _ _ => .ok []⟩ channelPolicy Dict.empty
      (.namedNode "urn:prohibition")).violated (by decide +kernel)
    obtain ⟨constraint, hlinked, hmeaning⟩ := hjudged
    have hconstraint : constraint = .namedNode "urn:constraint" := by
      rw [← Store.mem_getObjects_linked] at hlinked
      have hobjects : channelPolicy.getObjects (some (.namedNode "urn:prohibition"))
          ODRL.constraint none = [.namedNode "urn:constraint"] := by decide +kernel
      rw [hobjects] at hlinked
      exact List.mem_singleton.mp hlinked
    subst hconstraint
    revert hmeaning
    decide +kernel
  · decide +kernel

end SimpleOdrlAuthorizer

end UserManagedAccess.Policies
