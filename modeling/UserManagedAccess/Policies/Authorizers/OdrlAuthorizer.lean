/-
UserManagedAccess.Policies.Authorizers.OdrlAuthorizer — the authorizer that
hands every request to an ODRL evaluator.

The evaluator, the reading of its compliance reports and the conflict
resolver are libraries: an `OdrlEngine` is what the code calls of them, with
the three terms of their vocabularies it mentions.
-/
import UserManagedAccess.Policies.Authorizers.SimpleOdrlAuthorizer
import UserManagedAccess.Util.ConvertUtil

namespace UserManagedAccess.Policies

open UserManagedAccess.Lib UserManagedAccess.Rdf UserManagedAccess.Util
open UserManagedAccess.Views UserManagedAccess.Credentials

structure OdrlEngine where
  evaluate : (policies request stateOfTheWorld : List Quad) → Except HttpError (List Quad)
  /-- The request a policy report is about, and the report serialized again. -/
  parseComplianceReport : (policyReport : Term) → (reports : Store) →
    Except HttpError (Term × List Quad)
  /-- From pairs of a report and the policies to an identified report. -/
  resolve : List (List Quad × List Quad) → Except HttpError (Term × List Quad)
  policyReport : Term
  conclusion : Term
  allow : String

/-! ## Conflict resolution -/

namespace PrioritizeProhibitionStrategy

/-- The reports about one request. -/
def reportsOn (engine : OdrlEngine) (identifier : Term) (reportStore : Store) :
    List Term → Except HttpError (List (List Quad))
  | [] => .ok []
  | node :: nodes => do
    let (request, report) ← engine.parseComplianceReport node reportStore
    let rest ← reportsOn engine identifier reportStore nodes
    -- other reports pertain to another request
    if request.value ≠ identifier.value then return rest
    return report :: rest

def handle (engine : OdrlEngine) (identifier : Term) (policies reports : List Quad) :
    Except HttpError Bool := do
  let reportStore := Store.ofQuads reports
  let nodes := reportStore.getSubjects RDF.type engine.policyReport none
  let selected ← reportsOn engine identifier reportStore nodes
  let (result, report) ← engine.resolve (selected.map fun report => (report, policies))
  match (Store.ofQuads report).getObjects result engine.conclusion none with
  | [] => return false
  | status :: _ => return status.value == engine.allow

end PrioritizeProhibitionStrategy

/-! ## Requests -/

/-- `basicPolicy` on the policy with one rule that a request is. -/
def basicRequest (policyIRI ruleIRI action resource : String) (requestingParty : List String) :
    List Quad :=
  quad (.namedNode policyIRI) RDF.type ODRL.Request ::
    quad (.namedNode ruleIRI) ODRL.action (.namedNode action) ::
    quad (.namedNode ruleIRI) ODRL.target (.namedNode resource) ::
    (requestingParty.map fun party =>
      quad (.namedNode ruleIRI) ODRL.assignee (.namedNode party)) ++
    [quad (.namedNode ruleIRI) RDF.type ODRL.Permission,
      quad (.namedNode policyIRI) ODRL.permission (.namedNode ruleIRI)]

namespace OdrlAuthorizer

def claimOperandMap : Dict String :=
  [(CLIENTID, ODRL.deliveryChannel.value), (PURPOSE, ODRL.purpose.value)]

/-- What the code takes from outside: the time, its notation, and fresh
identifiers and blank nodes (the n-th of each). -/
structure Environment where
  now : Int
  toISOString : Int → String
  randomUUID : Nat → String
  blankNode : Nat → String

def currentTime (env : Environment) : List Quad :=
  [quad (.namedNode "http://example.com/request/currentTime")
    (.namedNode "http://purl.org/dc/terms/issued")
    (.literal (env.toISOString env.now) ""
      "http://www.w3.org/2001/XMLSchema#dateTime")]

/-- The claimed WebIDs, or the anonymous user. -/
def subjectsOf (claims : ClaimSet) : List String :=
  match (claims.values WEBID).filterMap Json.asString? with
  | [] => ["urn:solidlab:uma:id:anonymous"]
  | subjects => subjects

/-- The operand and the value of every claim that can be expressed. -/
def contextClaims (claims : ClaimSet) : List (String × String) :=
  claims.flatMap fun (key, values) =>
    let leftOperand := (claimOperandMap.get key).getD key
    if isIri leftOperand then
      values.filterMap fun value => value.asString?.map (fun s => (leftOperand, s))
    else []

/-- The context of a request: one constraint for each claim. -/
def contextQuads (env : Environment) (ruleIRI : String) (claims : ClaimSet) : List Quad :=
  (contextClaims claims).zipIdx.flatMap fun ((leftOperand, value), i) =>
    let subject := Term.blankNode (env.blankNode i)
    [quad (.namedNode ruleIRI) SOTW.context subject,
      quad subject RDF.type ODRL.Constraint,
      quad subject ODRL.leftOperand (.namedNode leftOperand),
      quad subject ODRL.operator ODRL.eq,
      quad subject ODRL.rightOperand (.namedNode value)]

/-- The n-th request of a call. -/
def requestStore (env : Environment) (claims : ClaimSet) (n : Nat) (action resource : String) :
    Store :=
  let policyIRI := "urn:ucp:policy:" ++ env.randomUUID (2 * n)
  let ruleIRI := "urn:ucp:rule:" ++ env.randomUUID (2 * n + 1)
  (Store.ofQuads (basicRequest policyIRI ruleIRI action resource (subjectsOf claims))).addQuads
    (contextQuads env ruleIRI claims)

/-- Whether the strategy allows the n-th request. -/
def allowed (engine : OdrlEngine) (env : Environment) (policies : Store) (claims : ClaimSet)
    (n : Nat) (resource scope : String) : Except HttpError Bool := do
  let action := (scopeCssToOdrl.get scope).getD scope
  let request := requestStore env claims n action resource
  let reports ← engine.evaluate policies.quads request.quads (currentTime env)
  PrioritizeProhibitionStrategy.handle engine
    (.namedNode ("urn:ucp:policy:" ++ env.randomUUID (2 * n))) policies.quads reports

/-- `grantedPermissions[resource_id] = …`. The name `__proto__` is not a key:
writing to it replaces the prototype of the object, which has no part in the
result. -/
def assign (granted : Dict (List String)) (resource : String) (scopes : List String) :
    Dict (List String) :=
  if resource = "__proto__" then granted else granted.set resource scopes

/-- The loop over the scopes of an entry, with the number of requests made. -/
def grantScopes (engine : OdrlEngine) (env : Environment) (policies : Store)
    (claims : ClaimSet) (resource : String) :
    List String → Nat × Dict (List String) → Except HttpError (Nat × Dict (List String))
  | [], state => .ok state
  | scope :: scopes, (n, granted) => do
    let granted :=
      if ← allowed engine env policies claims n resource scope then
        assign granted resource ((granted.get resource).getD [] ++ [scope])
      else granted
    grantScopes engine env policies claims resource scopes (n + 1, granted)

/-- The loop over the query. An entry starts its resource with no scopes. -/
def grantAll (engine : OdrlEngine) (env : Environment) (policies : Store) (claims : ClaimSet) :
    List PartialPermission → Nat × Dict (List String) →
      Except HttpError (Nat × Dict (List String))
  | [], state => .ok state
  | permission :: query, (n, granted) =>
    match permission.resourceId, permission.resourceScopes with
    | some resourceId, some resourceScopes => do
      let state ← grantScopes engine env policies claims resourceId resourceScopes
        (n, assign granted resourceId [])
      grantAll engine env policies claims query state
    | _, _ => .error (.error "resource_scopes is not iterable")

end OdrlAuthorizer

/-- `new OdrlAuthorizer(policies)`. -/
def odrlAuthorizer (engine : OdrlEngine) (env : OdrlAuthorizer.Environment) (policies : Store) :
    Authorizer := fun claims query =>
  match query with
  | none => .ok []
  | some permissions => do
    let (_, granted) ← OdrlAuthorizer.grantAll engine env policies claims permissions
      (0, Dict.empty)
    return granted.map fun (resourceId, resourceScopes) => { resourceId, resourceScopes }

end UserManagedAccess.Policies
