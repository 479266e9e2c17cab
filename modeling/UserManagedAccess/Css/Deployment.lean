/-
UserManagedAccess.Css.Deployment — a client with the resource registration
servers of its issuers.

What the client sends to a registration endpoint is a procedure of the issuer,
which runs among those of other requests; once it is done, its result is the
answer. All other operations are answered from outside.

- `Agrees` : the ids of the client are those the servers have registered.
- `AtHome` : a resource is registered with one issuer only, which is that of
  its container, and no registration is deleted.
-/
import UserManagedAccess.Css.RegistrationRequests
import UserManagedAccess.Css.UmaClientTheorems

namespace UserManagedAccess.Css.UmaClient

open UserManagedAccess.Lib UserManagedAccess.Util UserManagedAccess.Views
open UserManagedAccess.Routes

/-! ## Requests and answers -/

/-- A request to the resource registration endpoint of an issuer, about a
resource with this id or name. -/
structure ServerRequest where
  issuer : String
  about : String
  request : HttpHandlerRequest

def deletion (umaId : String) : HttpHandlerRequest where
  method := "DELETE"
  parameters := [("id", umaId)]
  body := .undefined

def Op.toServer : Op → Option ServerRequest
  | .fetch (.resource request) =>
    some { issuer := request.issuer, about := request.path, request := httpRequest request }
  | .fetch (.unregister issuer umaId _ _) =>
    some { issuer, about := umaId, request := deletion umaId }
  | _ => none

def statusCode : HttpError → Nat
  | .badRequest _ => 400
  | .unauthorized => 401
  | .forbidden _ => 403
  | .notFound => 404
  | .methodNotAllowed => 405
  | .conflict _ => 409
  | .internalServer _ => 500
  | .needInfo .. => 403
  | .error _ => 500

/-- An error is answered with its status and its message. -/
def answerOf : Except HttpError HttpHandlerResponse → Response
  | .ok response => ⟨response.status, some response.body⟩
  | .error e =>
    ⟨statusCode e, some (.object [("status", .number (statusCode e)),
      ("message", .string (message e))])⟩

/-- The reply of a server takes the place of one from outside. -/
def delivering (result : Except HttpError HttpHandlerResponse) (reply : (op : Op) → OpReply op) :
    (op : Op) → OpReply op
  | .fetch _ => .ok (answerOf result)
  | op => reply op

/-! ## Steps -/

/-- The owner of a resource is the one a server finds in the tokens of the
requests about it. -/
structure DeploymentSetting where
  client : ClientSetting
  environment : RegistrationEnvironment
  owner : String → String

/-- What is left of a request at its server. -/
abbrev Job := Async ServerState HttpError HttpHandlerResponse

structure Deployment where
  client : World platform
  servers : String → ServerState
  /-- The requests of the calls that have sent one. -/
  jobs : Nat → Option Job

inductive DeploymentEvent where
  | client (event : LoopEvent platform)
  /-- The request of this call is handled up to the next pause. -/
  | serve (i : Nat)

namespace Deployment

def new : Deployment where
  client := newClient KeyValueStorage.empty
  servers _ := ServerState.empty
  jobs _ := none

def request? (d : Deployment) (i : Nat) : Option ServerRequest :=
  (d.client.awaits i).bind Op.toServer

def job (setting : DeploymentSetting) (i : Nat) (request : ServerRequest) : Job :=
  ResourceRegistrationRequestHandler.respond setting.environment i request.request
    (setting.owner request.about)

/-- A call that has sent a request has a new job. -/
def dispatch (setting : DeploymentSetting) (w w' : World platform) (jobs : Nat → Option Job) :
    Nat → Option Job := fun i =>
  match w.awaits i, (w'.awaits i).bind Op.toServer with
  | none, some request => some (job setting i request)
  | _, _ => jobs i

/-- The event as it reaches the client. -/
def delivered (d : Deployment) : LoopEvent platform → Option (LoopEvent platform)
  | .answer i reply =>
    match d.request? i, d.jobs i with
    | none, _ => some (.answer i reply)
    | some _, some (.done result) => some (.answer i (delivering result reply))
    | some _, _ => none
  | event => some event

def step (setting : DeploymentSetting) (d : Deployment) : DeploymentEvent → Option Deployment
  | .client event => do
    let event ← d.delivered event
    let client ← (system setting.client).step d.client event
    return { d with client, jobs := dispatch setting d.client client d.jobs }
  | .serve i => do
    let request ← d.request? i
    let job ← d.jobs i
    let (rest, server) := job.resume (d.servers request.issuer)
    return { d with
      servers := Function.update d.servers request.issuer server
      jobs := Function.update d.jobs i (some rest) }

/-- Where runs lead whose steps are all safe. -/
inductive Reachable (setting : DeploymentSetting) (safe : Deployment → DeploymentEvent → Prop) :
    Deployment → Prop
  | new : Reachable setting safe new
  | step {d d' e} (h : Reachable setting safe d) (hsafe : safe d e)
      (hstep : d.step setting e = some d') :
      Reachable setting safe d'

/-! ## Agreement -/

/-- All calls from outside are finished. -/
def Quiet (d : Deployment) : Prop := ∀ i ∈ d.client.calls, d.client.settled i

/-- The server has a registration for the path under the id. -/
def RegisteredAs (s : ServerState) (path id : String) : Prop :=
  ∃ registration, s.registrationStore.get id = some registration ∧
    registration.description.name = some path

/-- The client has an id for a path exactly if the issuer it has last
registered the path with has a registration of it, with that id. -/
def Agrees (d : Deployment) : Prop :=
  ∀ path id, d.client.state.umaIdStore.get path = some id ↔
    ∃ request, Ledger.lastRequest (requestsOf d.client.log) path = some request ∧
      RegisteredAs (d.servers request.issuer) path id

/-- No registration has failed. -/
def Succeeded (d : Deployment) : Prop :=
  ∀ i path issuer credentials result,
    d.client.tasks i = some ⟨.registerResource path issuer credentials, .settled result⟩ →
      ∃ value, result = .ok value

/-! ## Conditions on runs -/

/-- The calls are those of others, about resources, and no operation of the
outside fails. -/
def Reliable (d : Deployment) : DeploymentEvent → Prop
  | .client (.call call) =>
    (∃ path issuer credentials, call = .registerResource path issuer credentials ∧ path ≠ "") ∨
      ∃ path issuer credentials, call = .deleteResource path issuer credentials
  | .client (.answer i reply) => ∀ op, d.client.awaits i = some op → op.toServer = none →
    ∀ setting, Succeeds (Outcomes.successful : Outcomes setting) op (reply op)
  | _ => True

/-- Each call is finished before the next. -/
def OneAtATime (d : Deployment) : DeploymentEvent → Prop
  | .client (.call _) => d.Quiet
  | _ => True

/-- An issuer for each resource, which is that of its container. -/
structure Homes (setting : ClientSetting) where
  home : String → String
  parent : ∀ path, setting.isRootContainer path = false →
    home (setting.getParentContainer path) = home path
  /-- The parent of a resource is a container. -/
  container : ∀ path, setting.isRootContainer path = false →
    isContainerIdentifier (setting.getParentContainer path) = true

/-- A DELETE that is being handled finds nothing registered. -/
def DeletesNothing (d : Deployment) (i : Nat) : Prop :=
  ∀ request job, d.request? i = some request → request.request.method = "DELETE" →
    d.jobs i = some job → job.isDone = false →
    (d.servers request.issuer).registrationStore.get request.about = none

def AtHome {setting : ClientSetting} (homes : Homes setting) (d : Deployment) :
    DeploymentEvent → Prop
  | .client (.call (.registerResource path issuer _)) => issuer = homes.home path
  | .serve i => d.DeletesNothing i
  | _ => True

/-! ## Running until nothing is left to do -/

def deletesNothing (d : Deployment) (i : Nat) : Bool :=
  match d.request? i, d.jobs i with
  | some request, some job => request.request.method ≠ "DELETE" || job.isDone ||
      ((d.servers request.issuer).registrationStore.get request.about).isNone
  | _, _ => true

theorem deletesNothing_of_eq_true {d : Deployment} {i : Nat} (h : d.deletesNothing i = true) :
    d.DeletesNothing i := by
  intro request job hrequest hmethod hjob hrunning
  simpa [deletesNothing, hrequest, hjob, hmethod, hrunning] using h

def nextEvent (replies : ClientState → (op : Op) → OpReply op) (d : Deployment) :
    Option DeploymentEvent :=
  match System.nextEvent (P := platform) replies d.client with
  | some (.answer i reply) =>
    match d.request? i, d.jobs i with
    | some _, some job => if job.isDone then some (.client (.answer i reply)) else some (.serve i)
    | _, _ => some (.client (.answer i reply))
  | some event => some (.client event)
  | none => none

theorem nextEvent_cases {replies : ClientState → (op : Op) → OpReply op} {d : Deployment}
    {event : DeploymentEvent} (h : nextEvent replies d = some event) :
    event = .client .advance ∨ (∃ i, event = .client (.answer i (replies d.client.state))) ∨
      (∃ i, event = .client (.resume i)) ∨ ∃ i, event = .serve i := by
  unfold nextEvent at h
  cases hnext : System.nextEvent (P := platform) replies d.client with
  | none => simp [hnext] at h
  | some event' =>
    rw [hnext] at h
    rcases System.nextEvent_cases hnext with rfl | ⟨i, rfl⟩ | ⟨i, rfl⟩
    · cases h
      exact .inl rfl
    · dsimp only at h
      split at h
      · split at h <;> cases h
        · exact .inr (.inl ⟨i, rfl⟩)
        · exact .inr (.inr (.inr ⟨i, rfl⟩))
      · cases h
        exact .inr (.inl ⟨i, rfl⟩)
    · cases h
      exact .inr (.inr (.inl ⟨i, rfl⟩))

/-- Go on with the oldest call that can, as long as that is allowed. -/
def settle (setting : DeploymentSetting) (replies : ClientState → (op : Op) → OpReply op)
    (allowed : Deployment → DeploymentEvent → Bool) : Nat → Deployment → Deployment
  | 0, d => d
  | n + 1, d =>
    match nextEvent replies d with
    | none => d
    | some event =>
      match allowed d event, d.step setting event with
      | true, some d' => settle setting replies allowed n d'
      | _, _ => d

/-- The same, once a call has come in. -/
def after (setting : DeploymentSetting) (replies : ClientState → (op : Op) → OpReply op)
    (allowed : Deployment → DeploymentEvent → Bool) (n : Nat) (d : Deployment) (call : Call) :
    Deployment :=
  match d.step setting (.client (.call call)) with
  | some d' => settle setting replies allowed n d'
  | none => d

section

variable {setting : DeploymentSetting} {replies : ClientState → (op : Op) → OpReply op}
  {allowed : Deployment → DeploymentEvent → Bool} {safe : Deployment → DeploymentEvent → Prop}

theorem reachable_settle (hsafe : ∀ d event, nextEvent replies d = some event →
      allowed d event = true → safe d event) {d : Deployment} (h : Reachable setting safe d)
    (n : Nat) : Reachable setting safe (settle setting replies allowed n d) := by
  induction n generalizing d with
  | zero => exact h
  | succ n ih =>
    unfold settle
    split
    case h_1 => exact h
    case h_2 event hnext =>
      split
      case h_1 d' hallowed hstep => exact ih (.step h (hsafe d event hnext hallowed) hstep)
      case h_2 => exact h

theorem reachable_after (hsafe : ∀ d event, nextEvent replies d = some event →
      allowed d event = true → safe d event) {d : Deployment} {call : Call}
    (hcall : safe d (.client (.call call))) (h : Reachable setting safe d) (n : Nat) :
    Reachable setting safe (after setting replies allowed n d call) := by
  unfold after
  split
  case h_1 d' hstep => exact reachable_settle hsafe (.step h hcall hstep) n
  case h_2 => exact h

end

end Deployment

end UserManagedAccess.Css.UmaClient
