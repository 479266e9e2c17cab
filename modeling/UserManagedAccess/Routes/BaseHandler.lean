/-
UserManagedAccess.Routes.BaseHandler — the HTTP handler of the policy endpoint
and of the access request endpoint.

The text of a body is a `Json.string`; a request without a body has
`Json.undefined`. A message is the store it serializes, and the identifier in
an answer to a POST request is the one of its location header.
-/
import UserManagedAccess.Controller.ControllerRuns
import UserManagedAccess.Routes.ClientRegistration
import UserManagedAccess.Util.Forms

namespace UserManagedAccess.Routes

open UserManagedAccess.Lib UserManagedAccess.Util UserManagedAccess.Ucp
open UserManagedAccess.Credentials UserManagedAccess.Dialog UserManagedAccess.Controller

/-! ## The controller of a handler -/

/-- What a handler calls of its controller. -/
structure EntityController (σ : Type) where
  getEntities : (clientID : String) → Async σ HttpError ControllerResponse
  getEntity : (entityID clientID : String) → Async σ HttpError ControllerResponse
  addEntity : (data clientID : String) → Async σ HttpError ControllerResponse
  deleteEntity : (entityID clientID : String) → Async σ HttpError ControllerResponse
  patchEntity : (entityID patchInformation clientID : String) → (isolate : Bool) →
    Async σ HttpError ControllerResponse
  putEntity : (data entityID clientID : String) → Async σ HttpError ControllerResponse

def policyEntities (env : PolicyEnvironment) : EntityController ControllerState where
  getEntities := (policyController env memoryUCRulesStorage).getEntities
  getEntity := (policyController env memoryUCRulesStorage).getEntity
  addEntity := (policyController env memoryUCRulesStorage).addEntity
  deleteEntity := (policyController env memoryUCRulesStorage).deleteEntity
  patchEntity := (policyController env memoryUCRulesStorage).patchEntity
  putEntity := (policyController env memoryUCRulesStorage).putEntity

def accessRequestEntities (env : AccessRequestEnvironment) : EntityController ControllerState where
  getEntities := (accessRequestController env memoryUCRulesStorage).getEntities
  getEntity := (accessRequestController env memoryUCRulesStorage).getEntity
  addEntity := AccessRequestController.addEntity env memoryUCRulesStorage
  deleteEntity _ _ := AccessRequestController.deleteEntity
  patchEntity := (accessRequestController env memoryUCRulesStorage).patchEntity
  putEntity _ _ _ := AccessRequestController.putEntity

/-! ## BaseHandler -/

/-- Who a request is from, as an endpoint finds it out. -/
structure Authentication where
  credentialParser : HttpHandlerRequest → Except HttpError Credential
  verifier : Credential → Except HttpError ClaimSet

structure BaseHandler (σ : Type) extends Authentication where
  controller : EntityController σ
  patchContentType : String
  /-- `JSON.parse`, with the message of the error it throws. -/
  parseJson : String → Except String Json

namespace BaseHandler

variable {σ : Type}

/-- The text of a body. -/
def bodyText (request : HttpHandlerRequest) : Except HttpError String :=
  match request.body with
  | .string text => .ok text
  | _ => .error (.badRequest "")

/-- The status in a body. One that is no string is not a status of a request. -/
def statusText : Json → String
  | .string status => status
  | _ => ""

/-- The status a JSON patch asks for. -/
def readStatus (body : Json) : Except HttpError String :=
  match body with
  | .null => .error (.error "Cannot read properties of null (reading 'status')")
  | body =>
    if (body.field "status").isTruthy then .ok (statusText (body.field "status"))
    else .error (.badRequest "")

/-- What a PATCH request hands to the controller. -/
def patchText (handler : BaseHandler σ) (request : HttpHandlerRequest) :
    Except HttpError String := do
  let text ← bodyText request
  if handler.patchContentType = "application/json" then
    let body ← (handler.parseJson text).mapError HttpError.error
    readStatus body
  else return text

def handleSingleGet (handler : BaseHandler σ) (entityID clientID : String) :
    Async σ HttpError ControllerResponse := do
  let response ← handler.controller.getEntity entityID clientID
  Async.yield
  return { status := response.status, message := response.message }

/-- A JSON patch sets the status of an entity, without isolating it. -/
def handlePatch (handler : BaseHandler σ) (request : HttpHandlerRequest)
    (entityID clientID : String) : Async σ HttpError ControllerResponse := do
  let patchInformation ← handler.patchText request
  let isolate := decide (handler.patchContentType ≠ "application/json")
  let response ← handler.controller.patchEntity entityID patchInformation clientID isolate
  Async.yield
  return response

def handlePut (handler : BaseHandler σ) (request : HttpHandlerRequest)
    (entityID clientID : String) : Async σ HttpError ControllerResponse := do
  let body ← bodyText request
  let response ← handler.controller.putEntity body entityID clientID
  Async.yield
  return { status := response.status }

def handleDelete (handler : BaseHandler σ) (entityID clientID : String) :
    Async σ HttpError ControllerResponse := do
  let response ← handler.controller.deleteEntity entityID clientID
  Async.yield
  return { status := response.status }

def handleGet (handler : BaseHandler σ) (clientID : String) :
    Async σ HttpError ControllerResponse := do
  let response ← handler.controller.getEntities clientID
  Async.yield
  return { status := response.status, message := response.message }

def handlePost (handler : BaseHandler σ) (request : HttpHandlerRequest) (clientID : String) :
    Async σ HttpError ControllerResponse := do
  let body ← bodyText request
  let response ← handler.controller.addEntity body clientID
  Async.yield
  return response

/-- The end of `handle`, for a user who is known. -/
def dispatch (handler : BaseHandler σ) (request : HttpHandlerRequest) (userId : String) :
    Async σ HttpError ControllerResponse :=
  match DialogInput.truthy (request.parameters.get "id") with
  | some id =>
    match request.method with
    | "GET" => handler.handleSingleGet id userId
    | "PATCH" => handler.handlePatch request id userId
    | "PUT" => handler.handlePut request id userId
    | "DELETE" => handler.handleDelete id userId
    | _ => throw .methodNotAllowed
  | none =>
    match request.method with
    | "GET" => handler.handleGet userId
    | "POST" => handler.handlePost request userId
    | _ => throw .methodNotAllowed

def handle (handler : BaseHandler σ) (request : HttpHandlerRequest) :
    Async σ HttpError ControllerResponse :=
  if request.method = "OPTIONS" then return { status := 204 }
  else do
    let credential ← handler.credentialParser request
    Async.yield
    let claims ← handler.verifier credential
    Async.yield
    match ClientRegistrationRequestHandler.userIds claims with
    | [] => throw .unauthorized
    | userId :: _ => handler.dispatch request userId

end BaseHandler

/-! ## The two endpoints -/

/-- `config/routes/policies.json`. -/
def policyHandler (authentication : Authentication) (parseJson : String → Except String Json)
    (env : PolicyEnvironment) : BaseHandler ControllerState where
  toAuthentication := authentication
  controller := policyEntities env
  patchContentType := "application/sparql-update"
  parseJson

/-- `config/routes/accessrequests.json`. -/
def accessRequestHandler (authentication : Authentication) (env : AccessRequestEnvironment) :
    BaseHandler ControllerState where
  toAuthentication := authentication
  controller := accessRequestEntities env
  patchContentType := "application/json"
  parseJson := env.parseJson

end UserManagedAccess.Routes
