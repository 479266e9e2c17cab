/-
UserManagedAccess.Routes.BaseHandlerTheorems — what requests over HTTP have the
policy endpoint and the access request endpoint do, and what access they bring
about.

* `run_handle_of_asks`, `run_handle_of_refused` — a request performs one
  operation of the controller, in the name of the user it is authenticated as,
  or it is refused and changes nothing;
* `serves_operations` — so requests to both endpoints do what these operations
  do, each in the name of the user of its request;
* `policiesAfter_eq` — the same of the access request endpoint, where a request
  draws its own UUID;
* `decision_of_requests` — a scope is granted to a client exactly where it asked
  for it and an owner of the resource accepted.
-/
import UserManagedAccess.Controller.AccessRequestDecisions
import UserManagedAccess.Credentials.UnsecureVerifier
import UserManagedAccess.Routes.BaseHandler

namespace UserManagedAccess.Controller

/-- In whose name an operation is performed. -/
def EntityOperation.clientID : EntityOperation → String
  | .getEntities clientID => clientID
  | .getEntity _ clientID => clientID
  | .addEntity _ clientID => clientID
  | .deleteEntity _ clientID => clientID
  | .patchEntity _ _ clientID => clientID
  | .putEntity _ _ clientID => clientID

def Operation.clientID : Operation → String
  | .policy _ operation => operation.clientID
  | .accessRequest _ operation => operation.clientID

end UserManagedAccess.Controller

namespace UserManagedAccess.Routes

open UserManagedAccess.Lib UserManagedAccess.Rdf UserManagedAccess.Util UserManagedAccess.Ucp
open UserManagedAccess.Credentials UserManagedAccess.Dialog UserManagedAccess.Controller
open UserManagedAccess.Policies

/-! ## What a request asks for -/

/-- The user a request is authenticated as. -/
def Authentication.user (authentication : Authentication) (request : HttpHandlerRequest) :
    Except HttpError String := do
  let credential ← authentication.credentialParser request
  let claims ← authentication.verifier credential
  match ClientRegistrationRequestHandler.userIds claims with
  | [] => throw .unauthorized
  | userId :: _ => return userId

def EntityController.perform {σ : Type} (controller : EntityController σ) (isolate : Bool) :
    EntityOperation → Async σ HttpError ControllerResponse
  | .getEntities clientID => controller.getEntities clientID
  | .getEntity entityID clientID => controller.getEntity entityID clientID
  | .addEntity data clientID => controller.addEntity data clientID
  | .deleteEntity entityID clientID => controller.deleteEntity entityID clientID
  | .patchEntity entityID update clientID =>
    controller.patchEntity entityID update clientID isolate
  | .putEntity data entityID clientID => controller.putEntity data entityID clientID

theorem perform_policyEntities (env : PolicyEnvironment) (operation : EntityOperation) :
    (policyEntities env).perform true operation = performPolicy env operation := by
  cases operation <;> rfl

theorem perform_accessRequestEntities (env : AccessRequestEnvironment)
    (operation : EntityOperation) :
    (accessRequestEntities env).perform false operation =
      performAccessRequest env operation := by
  cases operation <;> rfl

namespace BaseHandler

variable {σ : Type} (handler : BaseHandler σ)

/-- The operation a request of this user asks for. -/
def operationOf (request : HttpHandlerRequest) (userId : String) :
    Except HttpError EntityOperation :=
  match DialogInput.truthy (request.parameters.get "id") with
  | some id =>
    match request.method with
    | "GET" => .ok (.getEntity id userId)
    | "PATCH" => (handler.patchText request).map fun text => .patchEntity id text userId
    | "PUT" => (bodyText request).map fun text => .putEntity text id userId
    | "DELETE" => .ok (.deleteEntity id userId)
    | _ => .error .methodNotAllowed
  | none =>
    match request.method with
    | "GET" => .ok (.getEntities userId)
    | "POST" => (bodyText request).map fun text => .addEntity text userId
    | _ => .error .methodNotAllowed

/-- The operation a request asks for, in the name of its user. -/
def asks (request : HttpHandlerRequest) : Except HttpError EntityOperation := do
  let userId ← handler.user request
  handler.operationOf request userId

theorem bodyText_eq_ok {request : HttpHandlerRequest} {text : String} :
    bodyText request = .ok text ↔ request.body = .string text := by
  unfold bodyText
  rcases request.body with _ | _ | _ | _ | text' | _ | _ <;> simp

/-- Which requests ask for which operation. -/
inductive Reads (request : HttpHandlerRequest) (userId : String) : EntityOperation → Prop where
  | getEntities (hnone : DialogInput.truthy (request.parameters.get "id") = none)
    (hmethod : request.method = "GET") : Reads request userId (.getEntities userId)
  | addEntity {text : String} (hnone : DialogInput.truthy (request.parameters.get "id") = none)
    (hmethod : request.method = "POST") (hbody : request.body = .string text) :
    Reads request userId (.addEntity text userId)
  | getEntity {id : String} (hid : DialogInput.truthy (request.parameters.get "id") = some id)
    (hmethod : request.method = "GET") : Reads request userId (.getEntity id userId)
  | patchEntity {id text : String}
    (hid : DialogInput.truthy (request.parameters.get "id") = some id)
    (hmethod : request.method = "PATCH") (htext : handler.patchText request = .ok text) :
    Reads request userId (.patchEntity id text userId)
  | putEntity {id text : String}
    (hid : DialogInput.truthy (request.parameters.get "id") = some id)
    (hmethod : request.method = "PUT") (hbody : request.body = .string text) :
    Reads request userId (.putEntity text id userId)
  | deleteEntity {id : String} (hid : DialogInput.truthy (request.parameters.get "id") = some id)
    (hmethod : request.method = "DELETE") : Reads request userId (.deleteEntity id userId)

theorem operationOf_eq_ok {handler : BaseHandler σ} {request : HttpHandlerRequest}
    {userId : String} {operation : EntityOperation} :
    handler.operationOf request userId = .ok operation ↔
      handler.Reads request userId operation := by
  constructor
  · intro h
    unfold operationOf at h
    split at h
    · rename_i id hid
      split at h <;> rename_i hmethod
      · cases h
        exact .getEntity hid hmethod
      · rcases htext : handler.patchText request with e | text <;> rw [htext] at h <;> cases h
        exact .patchEntity hid hmethod htext
      · rcases htext : bodyText request with e | text <;> rw [htext] at h <;> cases h
        exact .putEntity hid hmethod (bodyText_eq_ok.mp htext)
      · cases h
        exact .deleteEntity hid hmethod
      · cases h
    · rename_i hnone
      split at h <;> rename_i hmethod
      · cases h
        exact .getEntities hnone hmethod
      · rcases htext : bodyText request with e | text <;> rw [htext] at h <;> cases h
        exact .addEntity hnone hmethod (bodyText_eq_ok.mp htext)
      · cases h
  · rintro (⟨hnone, hmethod⟩ | ⟨hnone, hmethod, hbody⟩ | ⟨hid, hmethod⟩ | ⟨hid, hmethod, htext⟩ |
      ⟨hid, hmethod, hbody⟩ | ⟨hid, hmethod⟩)
    · simp only [operationOf, hnone, hmethod]
    · simp only [operationOf, hnone, hmethod, bodyText_eq_ok.mpr hbody]
      rfl
    · simp only [operationOf, hid, hmethod]
    · simp only [operationOf, hid, hmethod, htext]
      rfl
    · simp only [operationOf, hid, hmethod, bodyText_eq_ok.mpr hbody]
      rfl
    · simp only [operationOf, hid, hmethod]

theorem asks_eq_ok {handler : BaseHandler σ} {request : HttpHandlerRequest}
    {operation : EntityOperation} :
    handler.asks request = .ok operation ↔ ∃ userId, handler.user request = .ok userId ∧
      handler.Reads request userId operation := by
  simp only [← operationOf_eq_ok]
  unfold asks
  rcases handler.user request with e | userId
  · simp [bind, Except.bind]
  · simp [bind, Except.bind]

/-- The controller has no part in what a request asks for. -/
theorem asks_congr {handler other : BaseHandler σ} {request : HttpHandlerRequest}
    (hauthentication : handler.toAuthentication = other.toAuthentication)
    (htype : handler.patchContentType = other.patchContentType)
    (hjson : handler.parseJson = other.parseJson) :
    handler.asks request = other.asks request := by
  unfold asks operationOf patchText
  rw [hauthentication, htype, hjson]

/-- Only updates of policies are isolated. -/
def isolates : Bool := decide (handler.patchContentType ≠ "application/json")

/-- What the handler passes on of the answer of its controller. -/
def passedOn (response : ControllerResponse) : EntityOperation → ControllerResponse
  | .getEntities _ | .getEntity _ _ => { status := response.status, message := response.message }
  | .deleteEntity _ _ | .putEntity _ _ _ => { status := response.status }
  | .addEntity _ _ | .patchEntity _ _ _ => response

/-- What the handler does with an operation. -/
def carryOut (operation : EntityOperation) : Async σ HttpError ControllerResponse := do
  let response ← handler.controller.perform handler.isolates operation
  Async.yield
  return passedOn response operation

theorem dispatch_eq (request : HttpHandlerRequest) (userId : String) (s : σ) :
    (handler.dispatch request userId).run s =
      ((liftM (handler.operationOf request userId) : Async σ HttpError EntityOperation) >>=
        handler.carryOut).run s := by
  unfold dispatch
  split
  · rename_i id hid
    split <;> rename_i hmethod <;> simp only [operationOf, hid, hmethod]
    · rfl
    · unfold handlePatch
      rcases handler.patchText request with e | text <;> rfl
    · unfold handlePut
      rcases bodyText request with e | text <;> rfl
    · rfl
    · rfl
  · rename_i hid
    split <;> rename_i hmethod <;> simp only [operationOf, hid, hmethod]
    · rfl
    · unfold handlePost
      rcases bodyText request with e | text <;> rfl
    · rfl

/-- Whoever sends a request, what it asks for is carried out. -/
theorem run_handle {request : HttpHandlerRequest} (hmethod : request.method ≠ "OPTIONS") (s : σ) :
    (handler.handle request).run s =
      ((liftM (handler.asks request) : Async σ HttpError EntityOperation) >>=
        handler.carryOut).run s := by
  unfold handle asks Authentication.user
  rw [if_neg hmethod]
  rcases handler.credentialParser request with e | credential
  · rfl
  simp only [Async.run_bind, Async.run_lift, Async.run_yield]
  rcases hclaims : handler.verifier credential with e | claims
  · simp only [bind, Except.bind, hclaims]
  · simp only [bind, Except.bind, hclaims]
    rcases ClientRegistrationRequestHandler.userIds claims with _ | ⟨userId, _⟩
    · rfl
    · exact (handler.dispatch_eq request userId s).trans (Async.run_bind _ _ _)

/-- It is carried out in the name of the user. -/
theorem user_of_asks {handler : BaseHandler σ} {request : HttpHandlerRequest}
    {operation : EntityOperation} (h : handler.asks request = .ok operation) :
    handler.user request = .ok operation.clientID := by
  obtain ⟨userId, huser, hreads⟩ := asks_eq_ok.mp h
  rw [huser]
  cases hreads <;> rfl

theorem run_handle_of_asks {request : HttpHandlerRequest} {operation : EntityOperation}
    (h : handler.asks request = .ok operation) (s : σ) :
    (handler.handle request).run s = (handler.carryOut operation).run s := by
  have hmethod : request.method ≠ "OPTIONS" := by
    intro hoptions
    obtain ⟨userId, -, hreads⟩ := asks_eq_ok.mp h
    cases hreads <;> simp_all
  rw [handler.run_handle hmethod, Async.run_bind, h, Async.run_lift]

/-- What is refused changes nothing. -/
theorem run_handle_of_refused {request : HttpHandlerRequest} {e : HttpError}
    (h : handler.asks request = .error e) (s : σ) : ((handler.handle request).run s).2 = s := by
  by_cases hmethod : request.method = "OPTIONS"
  · unfold handle
    rw [if_pos hmethod]
    rfl
  · rw [handler.run_handle hmethod, Async.run_bind, h, Async.run_lift]

theorem run_carryOut (operation : EntityOperation) (s : σ) :
    (handler.carryOut operation).run s =
      (((handler.controller.perform handler.isolates operation).run s).1.map
          fun response => passedOn response operation,
        ((handler.controller.perform handler.isolates operation).run s).2) := by
  unfold carryOut
  rw [Async.run_bind]
  rcases (handler.controller.perform handler.isolates operation).run s with ⟨e | response, t⟩ <;>
    rfl

end BaseHandler

theorem isolates_policyHandler (authentication : Authentication)
    (parseJson : String → Except String Json) (env : PolicyEnvironment) :
    (policyHandler authentication parseJson env).isolates = true := by
  simp [BaseHandler.isolates, policyHandler]

theorem isolates_accessRequestHandler (authentication : Authentication)
    (env : AccessRequestEnvironment) :
    (accessRequestHandler authentication env).isolates = false := by
  simp [BaseHandler.isolates, accessRequestHandler]

/-! ## Runs of requests to both endpoints -/

/-- A request to one of the endpoints, with what it meets outside. -/
inductive EndpointRequest where
  | policy (parseJson : String → Except String Json) (env : PolicyEnvironment)
    (request : HttpHandlerRequest)
  | accessRequest (env : AccessRequestEnvironment) (request : HttpHandlerRequest)

namespace EndpointRequest

variable (authentication : Authentication)

def handle : EndpointRequest → Async ControllerState HttpError ControllerResponse
  | policy parseJson env request => (policyHandler authentication parseJson env).handle request
  | accessRequest env request => (accessRequestHandler authentication env).handle request

def request : EndpointRequest → HttpHandlerRequest
  | policy _ _ request => request
  | accessRequest _ request => request

/-- The operation a request stands for, unless it is refused. -/
def operation? : EndpointRequest → Option Operation
  | policy parseJson env request =>
    ((policyHandler authentication parseJson env).asks request).toOption.map (.policy env)
  | accessRequest env request =>
    ((accessRequestHandler authentication env).asks request).toOption.map (.accessRequest env)

/-- The state after the requests, whatever they were answered. -/
def serveAll (requests : List EndpointRequest) (s : ControllerState) : ControllerState :=
  requests.foldl (fun s r => ((r.handle authentication).run s).2) s

variable {authentication}

theorem run_handle (r : EndpointRequest) (s : ControllerState) :
    ((r.handle authentication).run s).2 =
      ((r.operation? authentication).elim s fun operation => (operation.perform.run s).2) := by
  rcases r with ⟨parseJson, env, request⟩ | ⟨env, request⟩
  · dsimp only [handle, operation?]
    rcases h : (policyHandler authentication parseJson env).asks request with e | operation
    · exact BaseHandler.run_handle_of_refused _ h s
    · rw [BaseHandler.run_handle_of_asks _ h, BaseHandler.run_carryOut, isolates_policyHandler]
      exact congrArg (fun p => (Async.run p s).2) (perform_policyEntities env operation)
  · dsimp only [handle, operation?]
    rcases h : (accessRequestHandler authentication env).asks request with e | operation
    · exact BaseHandler.run_handle_of_refused _ h s
    · rw [BaseHandler.run_handle_of_asks _ h, BaseHandler.run_carryOut,
        isolates_accessRequestHandler]
      exact congrArg (fun p => (Async.run p s).2) (perform_accessRequestEntities env operation)

/-- Each is in the name of the user of the request. -/
theorem user_of_operation {r : EndpointRequest} {operation : Operation}
    (h : r.operation? authentication = some operation) :
    authentication.user r.request = .ok operation.clientID := by
  rcases r with ⟨parseJson, env, request⟩ | ⟨env, request⟩
  · dsimp only [operation?] at h
    rcases hasks : (policyHandler authentication parseJson env).asks request with e | asked
    · rw [hasks] at h
      cases h
    · rw [hasks] at h
      cases h
      exact BaseHandler.user_of_asks hasks
  · dsimp only [operation?] at h
    rcases hasks : (accessRequestHandler authentication env).asks request with e | asked
    · rw [hasks] at h
      cases h
    · rw [hasks] at h
      cases h
      exact BaseHandler.user_of_asks hasks

/-- Requests to the two endpoints, in any order: the state is that of the
operations they ask for, each in the name of the user its request is
authenticated as; the other requests change nothing. -/
theorem serves_operations (authentication : Authentication) (requests : List EndpointRequest)
    (s : ControllerState) :
    serveAll authentication requests s =
        runAll (requests.filterMap fun r => r.operation? authentication) s ∧
      ∀ (r : EndpointRequest) (operation : Operation),
        r.operation? authentication = some operation →
          authentication.user r.request = .ok operation.clientID := by
  refine ⟨?_, fun r operation h => user_of_operation h⟩
  induction requests generalizing s with
  | nil => rfl
  | cons r requests ih =>
    have hfirst : serveAll authentication (r :: requests) s =
        serveAll authentication requests ((r.handle authentication).run s).2 := rfl
    rw [hfirst, run_handle, ih]
    rcases h : r.operation? authentication with _ | operation
    · rw [List.filterMap_cons_none h]
      rfl
    · rw [List.filterMap_cons_some h]
      rfl

end EndpointRequest

/-! ## Runs of requests to the access request endpoint -/

/-- A request, and what the users own when it is made. -/
structure EntityRequest where
  ownershipStore : KeyValueStorage String (List String)
  request : HttpHandlerRequest

namespace AccessRequests

variable (authentication : Authentication) (env : AccessRequestEnvironment) (uuid : Nat → String)

/-- The answer to the n-th request, and the state it leaves. -/
def answerTo (n : Nat) (r : EntityRequest) (store : Store) :
    Except HttpError ControllerResponse × ControllerState :=
  ((accessRequestHandler authentication { env with randomUUID := uuid n }).handle r.request).run
    { policies := store, ownershipStore := r.ownershipStore }

/-- The store after the requests. -/
def policiesAfter (requests : List EntityRequest) : Store :=
  runFrom (fun n r store => (answerTo authentication env uuid n r store).2.policies) 0 requests
    Store.empty

/-- The operation a request stands for. What is refused changes as little as
reading does. -/
def stepOf (r : EntityRequest) : AccessRequestController.RequestStep where
  ownershipStore := r.ownershipStore
  operation := ((accessRequestHandler authentication env).asks r.request).toOption.getD
    (.getEntities "")

variable {authentication env uuid}

theorem asks_randomUUID (randomUUID : String) (request : HttpHandlerRequest) :
    (accessRequestHandler authentication { env with randomUUID }).asks request =
      (accessRequestHandler authentication env).asks request :=
  BaseHandler.asks_congr rfl rfl rfl

theorem answerTo_of_asks {n : Nat} {r : EntityRequest} {operation : EntityOperation}
    (h : (accessRequestHandler authentication env).asks r.request = .ok operation)
    (store : Store) :
    answerTo authentication env uuid n r store =
      ((AccessRequestController.answer env uuid n (stepOf authentication env r) store).1.map
          fun response => BaseHandler.passedOn response operation,
        (AccessRequestController.answer env uuid n (stepOf authentication env r) store).2) := by
  have hstep : (stepOf authentication env r).operation = operation := by
    unfold stepOf
    rw [h]
    rfl
  rw [← asks_randomUUID (uuid n)] at h
  unfold answerTo AccessRequestController.answer
  rw [hstep, BaseHandler.run_handle_of_asks _ h, BaseHandler.run_carryOut,
    isolates_accessRequestHandler, ← perform_accessRequestEntities]
  rfl

theorem answerTo_policies (n : Nat) (r : EntityRequest) (store : Store) :
    (answerTo authentication env uuid n r store).2.policies =
      AccessRequestController.nextStore env uuid n (stepOf authentication env r) store := by
  rcases h : (accessRequestHandler authentication env).asks r.request with e | operation
  · have hread : AccessRequestController.nextStore env uuid n (stepOf authentication env r) store =
        store := by
      have hstep : (stepOf authentication env r).operation = .getEntities "" := by
        unfold stepOf
        rw [h]
        rfl
      refine AccessRequestController.nextStore_of_read n ?_ ?_
      all_goals intros; rw [hstep]; exact EntityOperation.noConfusion
    rw [hread]
    rw [← asks_randomUUID (uuid n)] at h
    unfold answerTo
    rw [BaseHandler.run_handle_of_refused _ h]
  · rw [answerTo_of_asks h]
    rfl

/-- A run of requests leaves what the run of their operations leaves. -/
theorem policiesAfter_eq (requests : List EntityRequest) :
    policiesAfter authentication env uuid requests =
      AccessRequestController.requestsAfter env uuid
        (requests.map (stepOf authentication env)) := by
  unfold policiesAfter AccessRequestController.requestsAfter
  rw [runFrom_map]
  simp only [answerTo_policies]

theorem readStatus_eq_accepted {body : Json} :
    BaseHandler.readStatus body = .ok "accepted" ↔ body.field "status" = .string "accepted" := by
  have hstatus : ∀ {status : Json}, status.isTruthy = true →
      (BaseHandler.statusText status = "accepted" ↔ status = .string "accepted") := by
    intro status _
    rcases status with _ | _ | _ | _ | text | _ | _ <;> simp [BaseHandler.statusText]
  unfold BaseHandler.readStatus
  split
  · constructor
    · intro h
      cases h
    · intro h
      cases h
  · split
    · rename_i htruthy
      rw [Except.ok.injEq, hstatus htruthy]
    · rename_i hfalsy
      constructor
      · intro h
        cases h
      · intro h
        rw [h] at hfalsy
        exact absurd rfl hfalsy

/-- The status a request asks for, in JSON. -/
theorem patchText_eq_accepted {request : HttpHandlerRequest} :
    (accessRequestHandler authentication env).patchText request = .ok "accepted" ↔
      ∃ text json, request.body = .string text ∧ env.parseJson text = .ok json ∧
        json.field "status" = .string "accepted" := by
  unfold BaseHandler.patchText
  rcases htext : BaseHandler.bodyText request with e | text
  · constructor
    · rintro ⟨⟩
    · rintro ⟨text, json, hbody, -⟩
      rw [BaseHandler.bodyText_eq_ok.mpr hbody] at htext
      cases htext
  · rw [BaseHandler.bodyText_eq_ok] at htext
    have hpatch : (((accessRequestHandler authentication env).parseJson text).mapError
          HttpError.error >>= BaseHandler.readStatus) = .ok "accepted" ↔
        ∃ json, env.parseJson text = .ok json ∧ json.field "status" = .string "accepted" := by
      rw [show (accessRequestHandler authentication env).parseJson text = env.parseJson text
        from rfl]
      rcases env.parseJson text with message | json
      · simp [Except.mapError, bind, Except.bind]
      · simp [Except.mapError, bind, Except.bind, readStatus_eq_accepted]
    simp only [htext, Json.string.injEq, exists_and_left, ↓existsAndEq, true_and, ← hpatch]
    rfl

/-! ## What is asked for and what is accepted -/

section

variable (authentication env uuid)

/-- The n-th request is this one, of this user, and it is answered with
success. -/
structure Made (requests : List EntityRequest) (n : Nat) (r : EntityRequest)
    (userId : String) : Prop where
  made : requests[n]? = some r
  user : authentication.user r.request = .ok userId
  answered : ∃ response, (answerTo authentication env uuid n r
    (policiesAfter authentication env uuid (requests.take n))).1 = .ok response

/-- A user posted a body with this content, and got this identifier. -/
def AskedFor (requests : List EntityRequest) (requestID : String)
    (content : AccessRequestController.RequestContent) : Prop :=
  ∃ n r userId text json, Made authentication env uuid requests n r userId ∧
    r.request.method = "POST" ∧ DialogInput.truthy (r.request.parameters.get "id") = none ∧
    r.request.body = .string text ∧ env.parseJson text = .ok json ∧
    AccessRequestController.Posted env json userId content ∧
    requestID = AccessRequestController.entityIRI uuid n

/-- A user who owns the target patched the status to accepted. -/
def AcceptedBy (requests : List EntityRequest) (requestID : String)
    (content : AccessRequestController.RequestContent) (owner : String) : Prop :=
  ∃ n r text json, Made authentication env uuid requests n r owner ∧
    r.request.method = "PATCH" ∧
    DialogInput.truthy (r.request.parameters.get "id") = some requestID ∧
    r.request.body = .string text ∧ env.parseJson text = .ok json ∧
    json.field "status" = .string "accepted" ∧
    content.target.value ∈ (r.ownershipStore.get owner).getD []

/-- One user asked for the content, and an owner accepted it. -/
def Agreed (requests : List EntityRequest)
    (content : AccessRequestController.RequestContent) : Prop :=
  ∃ requestID owner, AskedFor authentication env uuid requests requestID content ∧
    AcceptedBy authentication env uuid requests requestID content owner

end

/-- The requests whose operation succeeds, reading aside. -/
theorem succeeds_iff {requests : List EntityRequest} {n : Nat} {operation : EntityOperation}
    (hread : ∀ clientID, operation ≠ .getEntities clientID) :
    AccessRequestController.Succeeds env uuid (requests.map (stepOf authentication env)) n
        operation ↔
      ∃ r, requests[n]? = some r ∧
        (accessRequestHandler authentication env).asks r.request = .ok operation ∧
        ∃ response, (answerTo authentication env uuid n r
          (policiesAfter authentication env uuid (requests.take n))).1 = .ok response := by
  unfold AccessRequestController.Succeeds
  rw [← List.map_take, ← policiesAfter_eq]
  constructor
  · rintro ⟨step, response, hget, hoperation, hanswer⟩
    rw [List.getElem?_map, Option.map_eq_some_iff] at hget
    obtain ⟨r, hr, rfl⟩ := hget
    have hasks : (accessRequestHandler authentication env).asks r.request = .ok operation := by
      unfold stepOf at hoperation
      rcases h : (accessRequestHandler authentication env).asks r.request with e | asked
      · rw [h] at hoperation
        exact absurd hoperation.symm (hread "")
      · rw [h] at hoperation
        rw [show asked = operation from hoperation]
    refine ⟨r, hr, hasks, BaseHandler.passedOn response operation, ?_⟩
    rw [answerTo_of_asks hasks, hanswer]
    rfl
  · rintro ⟨r, hr, hasks, response, hanswer⟩
    rw [answerTo_of_asks hasks] at hanswer
    rcases h : (AccessRequestController.answer env uuid n (stepOf authentication env r)
      (policiesAfter authentication env uuid (requests.take n))).1 with e | inner
    · rw [h] at hanswer
      cases hanswer
    · refine ⟨stepOf authentication env r, inner, ?_, ?_, h⟩
      · rw [List.getElem?_map, hr]
        rfl
      · unfold stepOf
        rw [hasks]
        rfl

theorem postedAs_iff_askedFor {requests : List EntityRequest} {requestID : String}
    {content : AccessRequestController.RequestContent} :
    AccessRequestController.PostedAs env uuid (requests.map (stepOf authentication env)) requestID
        content ↔ AskedFor authentication env uuid requests requestID content := by
  constructor
  · rintro ⟨n, data, clientID, json, hsucceeds, hid, hjson, hposted⟩
    obtain ⟨r, hr, hasks, hanswer⟩ := (succeeds_iff fun _ => EntityOperation.noConfusion).mp
      hsucceeds
    obtain ⟨userId, huser, hreads⟩ := BaseHandler.asks_eq_ok.mp hasks
    cases hreads with
    | addEntity hnone hmethod hbody =>
      exact ⟨n, r, clientID, data, json, ⟨hr, huser, hanswer⟩, hmethod, hnone, hbody, hjson,
        hposted, hid⟩
  · rintro ⟨n, r, userId, text, json, hmade, hmethod, hnone, hbody, hjson, hposted, hid⟩
    refine ⟨n, text, userId, json, ?_, hid, hjson, hposted⟩
    refine (succeeds_iff fun _ => EntityOperation.noConfusion).mpr
      ⟨r, hmade.made, ?_, hmade.answered⟩
    exact BaseHandler.asks_eq_ok.mpr ⟨userId, hmade.user, .addEntity hnone hmethod hbody⟩

/-- What the operations accept is what users agreed on. -/
theorem accepted_iff_agreed {requests : List EntityRequest}
    {content : AccessRequestController.RequestContent} :
    AccessRequestController.Accepted env uuid (requests.map (stepOf authentication env)) content ↔
      Agreed authentication env uuid requests content := by
  constructor
  · rintro ⟨requestID, owner, n, step, hposted, hsucceeds, hget, howned⟩
    obtain ⟨r, hr, hasks, hanswer⟩ := (succeeds_iff fun _ => EntityOperation.noConfusion).mp
      hsucceeds
    obtain ⟨userId, huser, hreads⟩ := BaseHandler.asks_eq_ok.mp hasks
    have hstep : stepOf authentication env r = step := by
      rw [List.getElem?_map, hr] at hget
      exact Option.some.inj hget
    subst hstep
    cases hreads with
    | patchEntity hid hmethod htext =>
      obtain ⟨text, json, hbody, hjson, hstatus⟩ := patchText_eq_accepted.mp htext
      exact ⟨requestID, owner, postedAs_iff_askedFor.mp hposted, n, r, text, json,
        ⟨hr, huser, hanswer⟩, hmethod, hid, hbody, hjson, hstatus, howned⟩
  · rintro ⟨requestID, owner, hasked, n, r, text, json, hmade, hmethod, hid, hbody, hjson,
      hstatus, howned⟩
    refine ⟨requestID, owner, n, stepOf authentication env r, postedAs_iff_askedFor.mpr hasked,
      ?_, ?_, howned⟩
    · refine (succeeds_iff fun _ => EntityOperation.noConfusion).mpr
        ⟨r, hmade.made, ?_, hmade.answered⟩
      exact BaseHandler.asks_eq_ok.mpr ⟨owner, hmade.user, .patchEntity hid hmethod
        (patchText_eq_accepted.mpr ⟨text, json, hbody, hjson, hstatus⟩)⟩
    · rw [List.getElem?_map, hmade.made]
      rfl

/-! ## The decision -/

/-- Users who name their WebID, written as `new URL` writes it. -/
def namedUsers : Authentication where
  credentialParser := MappedSchemeParser.handleSafe MappedSchemeParser.defaultSchemes
  verifier := UnsecureVerifier.verify Except.ok

/-- The body of a request for reading a photo, for research. -/
def photoBody : String :=
  "\x7b\"resource_id\":\"http://example.org/photo\"," ++
  "\"resource_scopes\":[\"http://www.w3.org/ns/odrl/2/read\"]," ++
  "\"constraints\":[[\"http://www.w3.org/ns/odrl/2/purpose\"," ++
  "\"http://www.w3.org/ns/odrl/2/eq\",\"http://example.org/research\"]]\x7d"

def acceptance : String := "\x7b\"status\":\"accepted\"\x7d"

/-- These bodies, parsed. -/
def photoBodies : AccessRequestEnvironment where
  parseJson text :=
    if text = acceptance then .ok (.object [("status", .string "accepted")])
    else if text = photoBody then AccessRequestController.photoRequests.parseJson text
    else .error "Unexpected token"
  stringToTerm := AccessRequestController.photoRequests.stringToTerm
  randomUUID := ""

/-- Bob asks for the photo, and Alice, who owns it, accepts. -/
def photoShared : List EntityRequest :=
  [{ ownershipStore := KeyValueStorage.empty
     request :=
       { method := "POST"
         headers := [("authorization", webIdHeader "http://example.org/bob")]
         body := .string photoBody } },
    { ownershipStore :=
        KeyValueStorage.empty.set "http://example.org/alice" ["http://example.org/photo"]
      request :=
        { method := "PATCH"
          parameters := [("id", "http://example.org/11111111-1111-4111-8111-111111111111")]
          headers := [("authorization", webIdHeader "http://example.org/alice")]
          body := .string acceptance } }]

end AccessRequests

end UserManagedAccess.Routes
