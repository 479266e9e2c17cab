/-
UserManagedAccess.Controller.AccessRequestController — the controller of the
access request endpoint.

Requests are kept in the policy store, and accepting one adds a policy for it
there. `AccessRequestEnvironment` is what comes from outside: JSON parsing,
the reading of a term from a string, and the UUID of a call.
-/
import UserManagedAccess.Controller.BaseController
import UserManagedAccess.Util.ReType

namespace UserManagedAccess.Controller

open UserManagedAccess.Lib UserManagedAccess.Rdf UserManagedAccess.Util UserManagedAccess.Ucp

structure AccessRequestEnvironment where
  /-- `JSON.parse`, with the message of the error it throws. -/
  parseJson : String → Except String Json
  stringToTerm : String → Except HttpError Term
  randomUUID : String

namespace AccessRequestController

/-! ## Creating requests -/

/-- The check `reType(json, AccessRequest)`. -/
def AccessRequest : Assertion :=
  ReType.fields [("resource_id", ReType.string),
    ("resource_scopes", ReType.array ReType.string),
    ("constraints", ReType.optional (ReType.array
      (ReType.tuple [ReType.string, ReType.string, ReType.string])))]

/-- The strings of an array of strings. -/
def strings (value : Json) : List String :=
  (value.asArray?.getD []).filterMap Json.asString?

def requestQuads (subject : Term) (resourceId clientID : String) (scopes : List String) :
    List Quad :=
  [quad subject RDF.type SOTW.EvaluationRequest,
    quad subject SOTW.requestedTarget (.namedNode resourceId),
    quad subject SOTW.requestingParty (.namedNode clientID),
    quad subject SOTW.requestStatus SOTW.requested] ++
  scopes.map fun scope => quad subject SOTW.requestedAction (.namedNode scope)

/-- The quads of the constraint with the given number. -/
def constraintQuads (subject : Term) (index : Nat) (left operator right : Term) : List Quad :=
  let constraintSubject := Term.namedNode (subject.value ++ "-constraint-" ++ toString index)
  [quad subject ODRL.constraint constraintSubject,
    quad constraintSubject RDF.type ODRL.Constraint,
    quad constraintSubject ODRL.leftOperand left,
    quad constraintSubject ODRL.operator operator,
    quad constraintSubject ODRL.rightOperand right]

/-- The loop over the constraints of a request, numbered from `index`. -/
def allConstraintQuads (env : AccessRequestEnvironment) (subject : Term) :
    Nat → List Json → Except HttpError (List Quad)
  | _, [] => .ok []
  | index, constraint :: constraints => do
    let terms ← (strings constraint).mapM env.stringToTerm
    let rest ← allConstraintQuads env subject (index + 1) constraints
    match terms with
    | [left, operator, right] =>
      return constraintQuads subject index left operator right ++ rest
    | _ => return rest

/-- The node of a new request. -/
def requestNode (env : AccessRequestEnvironment) : Term :=
  .namedNode ("http://example.org/" ++ env.randomUUID)

/-- The store of a new request. -/
def newRequest (env : AccessRequestEnvironment) (json : Json) (clientID : String) :
    Except HttpError Store := do
  let scopes := strings (json.field "resource_scopes")
  if scopes.length = 0 then throw (.badRequest "Missing scopes")
  let constraints ← allConstraintQuads env (requestNode env) 1
    ((json.field "constraints").asArray?.getD [])
  return Store.ofQuads (requestQuads (requestNode env)
    (((json.field "resource_id").asString?).getD "") clientID scopes ++ constraints)

def addEntity (env : AccessRequestEnvironment) (store : UCRulesStorage ControllerState)
    (data clientID : String) : Async ControllerState HttpError ControllerResponse := do
  let badSyntax := fun message => HttpError.badRequest ("Request has bad syntax: " ++ message)
  let json ← (env.parseJson data).mapError badSyntax
  let _ ← (AccessRequest json).mapError badSyntax
  let request ← newRequest env json clientID
  store.addRule request
  Async.yield
  return { status := 201, id := (requestNode env).value }

/-! ## Reading requests -/

/-- All the quads of a request, those of its constraints included. -/
def getRequestQuads (store : Store) (subject : Term) : List Quad :=
  store.getQuads subject none none none ++
    (store.getObjects subject ODRL.constraint none).flatMap
      fun constraint : Term => store.getQuads constraint none none none

def ownedResources (clientID : String) : Async ControllerState HttpError (List String) := do
  let s ← Async.get
  Async.yield
  return (s.ownershipStore.get clientID).getD []

/-- Requests by the client, and requests over its resources. -/
def getAccessRequests (store : Store) (clientID : String) :
    Async ControllerState HttpError Store := do
  Async.yield
  let requested := subjectsOf store SOTW.requestingParty (.namedNode clientID)
  let resources ← ownedResources clientID
  let owned := resources.flatMap fun resource =>
    subjectsOf store SOTW.requestedTarget (.namedNode resource)
  return Store.ofQuads ((requested ++ owned).flatMap (getRequestQuads store))

def getAccessRequest (store : Store) (requestID clientID : String) :
    Async ControllerState HttpError Store := do
  let node := Term.namedNode requestID
  let requesters := store.getObjects node SOTW.requestingParty none
  if requesters.length = 0 then throw .notFound
  if requesters.any (fun requester => requester.value == clientID) then
    return Store.ofQuads (getRequestQuads store node)
  else
    -- maybe the client is the owner instead of the requester
    match store.getObjects node SOTW.requestedTarget none with
    | [target] =>
      let resources ← ownedResources clientID
      if resources.contains target.value then
        return Store.ofQuads (getRequestQuads store node)
      else throw (.forbidden "")
    | targets => throw (.internalServer
        ("Unexpected amount of targets, expected 1 but got " ++ toString targets.length))

/-! ## Resolving requests -/

/-- The policy an accepted request turns into. -/
def acceptedPolicy (env : AccessRequestEnvironment) (store : Store) (request : Term)
    (clientID : String) (target party : Term) (actions : List Term) : List Quad :=
  let policyNode := Term.namedNode ("http://example.org/" ++ env.randomUUID)
  let permissionNode := Term.namedNode ("http://example.org/" ++ env.randomUUID ++ "-permission")
  [quad policyNode RDF.type ODRL.Agreement,
    quad policyNode ODRL.uid policyNode,
    quad policyNode ODRL.permission permissionNode,
    quad permissionNode RDF.type ODRL.Permission] ++
  actions.map (fun action => quad permissionNode ODRL.action action) ++
  [quad permissionNode ODRL.target target,
    quad permissionNode ODRL.assignee party,
    quad permissionNode ODRL.assigner (.namedNode clientID)] ++
  -- the permission refers to the constraints of the request itself
  (store.getObjects request ODRL.constraint none).flatMap fun constraint : Term =>
    quad permissionNode ODRL.constraint constraint ::
      store.getQuads constraint none none none

/-- The status a request gets. -/
def statusTerm (patchInformation : String) : Term :=
  if patchInformation = "accepted" then SOTW.accepted else SOTW.denied

/-- The changes of a patch, once the client is known to own the target. -/
def resolveRequest (env : AccessRequestEnvironment) (store : Store) (requestID clientID : String)
    (patchInformation : String) (target : Term) : Except HttpError Store := do
  let request := Term.namedNode requestID
  match store.getObjects request SOTW.requestStatus none with
  | [status] =>
    if status ≠ SOTW.requested then throw (.conflict "Request was already resolved")
    let actions := store.getObjects request SOTW.requestedAction none
    match store.getObjects request SOTW.requestingParty none with
    | [party] =>
      if actions.length = 0 then throw (.internalServer "Invalid actions")
      let resolved := (store.removeQuads
          [quad request SOTW.requestStatus SOTW.requested]).addQuad
        (quad request SOTW.requestStatus (statusTerm patchInformation))
      if patchInformation = "accepted" then
        return resolved.addQuads
          (acceptedPolicy env resolved request clientID target party actions)
      else return resolved
    | _ => throw (.internalServer "Invalid parties")
  | statuses => throw (.internalServer ("Expected 1 status for " ++ requestID ++
      " but found " ++ toString statuses.length))

def patchAccessRequest (env : AccessRequestEnvironment) (store : Store)
    (requestID clientID patchInformation : String) :
    Async ControllerState HttpError Store := do
  match store.getObjects (Term.namedNode requestID) SOTW.requestedTarget none with
  | [] => throw .notFound
  | target :: _ =>
    if patchInformation ≠ "accepted" ∧ patchInformation ≠ "denied" then
      throw (.badRequest "Status needs to be \"accepted\" or \"denied\"")
    let resources ← ownedResources clientID
    if !resources.contains target.value then throw (.forbidden "")
    resolveRequest env store requestID clientID patchInformation target

end AccessRequestController

/-- `new AccessRequestController(store, ownershipStore)`, for the operations
it inherits. -/
def accessRequestController (env : AccessRequestEnvironment)
    (store : UCRulesStorage ControllerState) : BaseController ControllerState where
  store
  parse _ := .error (.error "sanitizePost is not a function")
  sanitizePost _ _ := throw (.error "sanitizePost is not a function")
  sanitizeDelete _ _ _ := throw (.forbidden "")
  sanitizeGets data clientID := AccessRequestController.getAccessRequests data clientID
  sanitizeGet data requestID clientID :=
    AccessRequestController.getAccessRequest data requestID clientID
  sanitizePatch data requestID clientID patchInformation :=
    AccessRequestController.patchAccessRequest env data requestID clientID patchInformation

namespace AccessRequestController

/-- Not defined who should be allowed to delete requests. -/
def deleteEntity : Async ControllerState HttpError ControllerResponse :=
  throw (.forbidden "")

/-- Changing requests is not allowed. -/
def putEntity : Async ControllerState HttpError ControllerResponse :=
  throw (.forbidden "")

end AccessRequestController

end UserManagedAccess.Controller
