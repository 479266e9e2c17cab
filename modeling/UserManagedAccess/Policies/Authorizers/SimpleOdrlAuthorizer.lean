/-
UserManagedAccess.Policies.Authorizers.SimpleOdrlAuthorizer — the authorizer
that decides simple ODRL policies itself and leaves the rest to another one.

`getPermissions` answers one request for one scope: the scope, nothing, or
`none` where the source returns `undefined` ("too difficult to handle").
What the code takes from outside is an `Environment`: the current time, the
parsing of dates (`none` for an invalid one), and JSONPath queries.

The two tables of a constraint are plain objects, so an operator or an operand
with the name of a property of `Object.prototype` is found in them, too. The
collections of a resource and of a user are looked up by a plain string, for
which the empty one is a wildcard.
-/
import UserManagedAccess.Policies.Authorizers.Authorizer
import UserManagedAccess.Rdf.Store
import UserManagedAccess.Util.Vocabularies

namespace UserManagedAccess.Policies

open UserManagedAccess.Lib UserManagedAccess.Rdf UserManagedAccess.Util
open UserManagedAccess.Views UserManagedAccess.Credentials

/-- `scopeCssToOdrl`, the same table in both ODRL authorizers. -/
def scopeCssToOdrl : Dict String :=
  [("urn:example:css:modes:read", "http://www.w3.org/ns/odrl/2/read"),
    ("urn:example:css:modes:append", "http://www.w3.org/ns/odrl/2/append"),
    ("urn:example:css:modes:create", "http://www.w3.org/ns/odrl/2/create"),
    ("urn:example:css:modes:delete", "http://www.w3.org/ns/odrl/2/delete"),
    ("urn:example:css:modes:write", "http://www.w3.org/ns/odrl/2/write")]

namespace SimpleOdrlAuthorizer

def ANONYMOUS : Term := .namedNode "urn:solidlab:uma:id:anonymous"

structure Environment where
  now : Int
  parseDate : String → Option Int
  jsonPath : Json → String → Except HttpError (List Json)

/-! ## Constraints -/

structure ParsedConstraint where
  leftOperand : Term
  operator : Term
  rightOperand : Term

/-- A comparison with an invalid date is false, and so is `eq`, which compares
two `Date` objects. -/
def dateComparators : Dict (Int → Option Int → Bool) :=
  [(ODRL.lt.value, fun a b => b.any (fun b => a < b)),
    (ODRL.lteq.value, fun a b => b.any (fun b => a ≤ b)),
    (ODRL.eq.value, fun _ _ => false),
    (ODRL.gt.value, fun a b => b.any (fun b => a > b)),
    (ODRL.gteq.value, fun a b => b.any (fun b => a ≥ b))]

/-- An inherited property in place of a comparator, which is called without an
object: `Object` gives an object and `toString` a text, which are truthy, and all
others throw. -/
def inheritedComparator (property : String) : Except HttpError Bool :=
  if property = "constructor" ∨ property = "toString" then .ok true
  else if property = "__proto__" then .error (.error "comparator is not a function")
  else .error (.error "Cannot convert undefined or null to object")

def claimOperandMap : Dict String := [(ODRL.deliveryChannel.value, CLIENTID)]

/-- An inherited property as a key: its text. -/
def inheritedKey (property : String) : String :=
  if property = "__proto__" then "[object Object]"
  else if property = "constructor" then "function Object() \x7b [native code] \x7d"
  else "function " ++ property ++ "() \x7b [native code] \x7d"

/-- The operands of a constraint: the first value of each property. -/
def parseConstraint (policies : Store) (leftOperand : Term) (constraint : Term) :
    Option ParsedConstraint := do
  let left ← (policies.getObjects constraint leftOperand none)[0]?
  let operator ← (policies.getObjects constraint ODRL.operator none)[0]?
  let right ← (policies.getObjects constraint ODRL.rightOperand none)[0]?
  return { leftOperand := left, operator, rightOperand := right }

def validateDate (env : Environment) (constraint : ParsedConstraint) : Except HttpError Bool :=
  match dateComparators.property constraint.operator.value with
  | .own comparator => .ok (comparator env.now (env.parseDate constraint.rightOperand.value))
  | .inherited => inheritedComparator constraint.operator.value
  | .missing => .ok false

/-- A constraint on the claims of a key, which only supports `odrl:eq`. -/
def validateClaims (claims : ClaimSet) (claimKey : String) (constraint : ParsedConstraint) : Bool :=
  constraint.operator = ODRL.eq &&
    (claims.values claimKey).any (Json.isString constraint.rightOperand.value)

/-- One constraint: true, false, or `none` where it is not supported. -/
def validateConstraint (env : Environment) (claims : ClaimSet) (constraint : ParsedConstraint) :
    Except HttpError (Option Bool) :=
  if constraint.leftOperand = ODRL.dateTime then
    (validateDate env constraint).map some
  else
    match claimOperandMap.property constraint.leftOperand.value with
    | .own claimKey => .ok (some (validateClaims claims claimKey constraint))
    | .inherited =>
      .ok (some (validateClaims claims (inheritedKey constraint.leftOperand.value) constraint))
    | .missing =>
      match claims.get constraint.leftOperand.value with
      | some claimValues =>
        if claimValues.all (fun claim => claim.asString?.isSome) ∧ constraint.operator = ODRL.eq then
          .ok (some (claimValues.any (Json.isString constraint.rightOperand.value)))
        else .ok none
      | none => .ok none

/-- The loop over the constraints: the first that is not true decides. -/
def allValid (env : Environment) (claims : ClaimSet) :
    List ParsedConstraint → Except HttpError (Option Bool)
  | [] => .ok (some true)
  | constraint :: constraints => do
    match ← validateConstraint env claims constraint with
    | some true => allValid env claims constraints
    | other => return other

def validateConstraints (env : Environment) (policies : Store) (claims : ClaimSet)
    (rule : Term) : Except HttpError (Option Bool) :=
  let parsed := (policies.getObjects rule ODRL.constraint none).mapM
    (parseConstraint policies ODRL.leftOperand)
  match parsed with
  | none => .ok none
  | some constraints => allValid env claims constraints

/-! ## Constraints on verifiable credentials -/

/-- `results.flat()`. -/
def flat (results : List Json) : List Json :=
  results.flatMap fun result =>
    match result with
    | .array es => es
    | other => [other]

def matchesVc (env : Environment) (constraint : ParsedConstraint)
    (credentialSubjectType : Option Term) (vc : Json) : Except HttpError Bool := do
  let results ← env.jsonPath vc constraint.leftOperand.value
  if !(flat results).any (Json.isString constraint.rightOperand.value) then return false
  match credentialSubjectType with
  | none => return true
  | some type =>
    let types ← env.jsonPath vc "$.type"
    return (flat types).any (Json.isString type.value)

def allMatchVc (env : Environment) (vcs : List Json) :
    List (ParsedConstraint × Option Term) → Except HttpError (Option Bool)
  | [] => .ok (some true)
  | (constraint, type) :: constraints => do
    -- only odrl:eq is supported
    if constraint.operator ≠ ODRL.eq then return none
    let foundMatchedVc ← vcs.anyM (matchesVc env constraint type)
    if !foundMatchedVc then return some false
    allMatchVc env vcs constraints

def validateOvcConstraints (env : Environment) (policies : Store) (claims : ClaimSet)
    (rule : Term) : Except HttpError (Option Bool) :=
  let parsed := (policies.getObjects rule OVC.constraint none).mapM fun constraint => do
    let operands ← parseConstraint policies OVC.leftOperand constraint
    return (operands, (policies.getObjects constraint OVC.credentialSubjectType none)[0]?)
  match parsed with
  | none => .ok none
  | some [] => .ok (some true)
  | some constraints =>
    match claims.values VC with
    | [] => .ok (some false)
    | vcs => allMatchVc env vcs constraints

/-! ## Rules -/

/-- The resource and the collections it is part of. -/
def targetsOf (policies : Store) (resource : String) : List Term :=
  .namedNode resource :: policies.getObjectsOf resource ODRL.partOf

def rulesOnTarget (policies : Store) (resource : String) : List Term :=
  (targetsOf policies resource).flatMap fun target : Term =>
    policies.getSubjects ODRL.target target none

/-- The ODRL action a scope stands for. -/
def actionOf (scope : String) : String :=
  if scope.startsWith "urn:example:css:modes:" then (scopeCssToOdrl.get scope).getD scope
  else scope

/-- This only catches this specific super action. -/
def superAction (action : String) : Option Term :=
  if action = ODRL.append.value ∨ action = ODRL.write.value then some ODRL.modify else none

def hasAction (policies : Store) (action : String) (rule : Term) : Bool :=
  policies.has (quad rule ODRL.action (.namedNode action)) ||
    match superAction action with
    | some super => policies.has (quad rule ODRL.action super)
    | none => false

/-- The anonymous user, the claimed WebIDs, and the party collections those
are part of. -/
def assigneesOf (policies : Store) (claims : ClaimSet) : List Term :=
  ANONYMOUS :: (claims.values WEBID).flatMap fun user =>
    match user.asString? with
    | some user => .namedNode user :: policies.getObjectsOf user ODRL.partOf
    | none => []

def hasAssignee (policies : Store) (assignees : List Term) (rule : Term) : Bool :=
  let ruleAssignees := policies.getObjects rule ODRL.assignee none
  -- no assignee is public access
  ruleAssignees.isEmpty || ruleAssignees.any (fun ruleAssignee => assignees.contains ruleAssignee)

/-- The rules whose constraints hold; `none` when some rule cannot be judged. -/
def validRules (env : Environment) (policies : Store) (claims : ClaimSet) :
    List Term → Except HttpError (Option (List Term))
  | [] => .ok (some [])
  | rule :: rules => do
    let constraintResponse ← validateConstraints env policies claims rule
    let vcConstraintResponse ← validateOvcConstraints env policies claims rule
    if constraintResponse = some true ∧ vcConstraintResponse = some true then
      let rest ← validRules env policies claims rules
      return rest.map (rule :: ·)
    else if constraintResponse = none ∨ vcConstraintResponse = none then
      return none
    else validRules env policies claims rules

/-- The verdict over the valid rules: a prohibition refuses, a rule of
another kind cannot be judged. -/
def judge (policies : Store) (scope : String) : List Term → Option (List String)
  | [] => some [scope]
  | rule :: rules =>
    let predicates := policies.getPredicates none rule none
    if predicates.isEmpty then none
    else if predicates.contains ODRL.prohibition then some []
    else if !predicates.contains ODRL.permission then none
    else judge policies scope rules

/-- The rules about a request, before their constraints are looked at. -/
def candidateRules (policies : Store) (claims : ClaimSet) (resource scope : String) :
    List Term :=
  ((rulesOnTarget policies resource).filter (hasAction policies (actionOf scope))).filter
    (hasAssignee policies (assigneesOf policies claims))

def getPermissions (env : Environment) (policies : Store) (claims : ClaimSet)
    (resource scope : String) : Except HttpError (Option (List String)) := do
  let rules := rulesOnTarget policies resource
  if rules.isEmpty then return some []
  let rules := rules.filter (hasAction policies (actionOf scope))
  if rules.isEmpty then return some []
  let rules := rules.filter (hasAssignee policies (assigneesOf policies claims))
  if rules.isEmpty then return some []
  match ← validRules env policies claims rules with
  | none => return none
  | some [] => return some []
  | some valid => return judge policies scope valid

/-! ## Queries -/

def allowedScopes (env : Environment) (policies : Store) (claims : ClaimSet)
    (resource : String) : List String → Except HttpError (Option (List String))
  | [] => .ok (some [])
  | scope :: scopes => do
    match ← getPermissions env policies claims resource scope with
    | none => return none
    | some result =>
      let rest ← allowedScopes env policies claims resource scopes
      return rest.map (result ++ ·)

/-- The loop over the query; `none` when the complete authorizer is needed.
The source declares full permissions as the type of its query. -/
def grantedBySelf (env : Environment) (policies : Store) (claims : ClaimSet) :
    List PartialPermission → Except HttpError (Option (List Permission))
  | [] => .ok (some [])
  | permission :: query =>
    match permission.resourceId, permission.resourceScopes with
    | some resourceId, some resourceScopes => do
      match ← allowedScopes env policies claims resourceId resourceScopes with
      | none => return none
      | some allowed =>
        let rest ← grantedBySelf env policies claims query
        if allowed.length > 0 then
          return rest.map ({ resourceId, resourceScopes := allowed } :: ·)
        else return rest
    | _, _ => .error (.error "resource_scopes is not iterable")

end SimpleOdrlAuthorizer

/-- `new SimpleOdrlAuthorizer(policies, authorizer)`. -/
def simpleOdrlAuthorizer (env : SimpleOdrlAuthorizer.Environment) (policies : Store)
    (authorizer : Authorizer) : Authorizer := fun claims query =>
  match query with
  | none => authorizer claims none
  | some permissions => do
    match ← SimpleOdrlAuthorizer.grantedBySelf env policies claims permissions with
    | none => authorizer claims query
    | some granted => return granted

end UserManagedAccess.Policies
