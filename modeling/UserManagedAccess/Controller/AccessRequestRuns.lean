/-
UserManagedAccess.Controller.AccessRequestRuns — sequences of requests to the
access request endpoint from an empty store, each answered before the next one
starts, and what becomes of an access request in them.

The n-th request draws the n-th UUID, if it draws one. What the users own may
be different at each request.
-/
import UserManagedAccess.Controller.ControllerRuns
import UserManagedAccess.Lib.Runs
import UserManagedAccess.Rdf.Links

namespace UserManagedAccess.Controller.AccessRequestController

open UserManagedAccess.Lib UserManagedAccess.Rdf UserManagedAccess.Util UserManagedAccess.Ucp

/-! ## Runs -/

structure RequestStep where
  /-- What the users own when the request is made. -/
  ownershipStore : KeyValueStorage String (List String)
  operation : EntityOperation

/-- What the client owns when the request is made. -/
def RequestStep.owned (step : RequestStep) (clientID : String) : List String :=
  (step.ownershipStore.get clientID).getD []

section

variable (env : AccessRequestEnvironment) (uuid : Nat → String)

/-- The answer to the n-th request, and the state it leaves. -/
def answer (n : Nat) (step : RequestStep) (store : Store) :
    Except HttpError ControllerResponse × ControllerState :=
  (performAccessRequest { env with randomUUID := uuid n } step.operation).run
    { policies := store, ownershipStore := step.ownershipStore }

def nextStore (n : Nat) (step : RequestStep) (store : Store) : Store :=
  (answer env uuid n step store).2.policies

/-- The store after the requests. -/
def requestsAfter (steps : List RequestStep) : Store :=
  runFrom (nextStore env uuid) 0 steps Store.empty

/-- The n-th request of the run asks for this, and is answered with success. -/
def Succeeds (steps : List RequestStep) (n : Nat) (operation : EntityOperation) : Prop :=
  ∃ step response, steps[n]? = some step ∧ step.operation = operation ∧
    (answer env uuid n step (requestsAfter env uuid (steps.take n))).1 = .ok response

end

/-- The first UUIDs are different ones. -/
structure FreshUUIDs (uuid : Nat → String) (count : Nat) : Prop where
  length : ∀ n < count, (uuid n).length = 36
  distinct : ∀ m < count, ∀ n < count, uuid m = uuid n → m = n

/-! ## Requests and policies in a store -/

def entityIRI (uuid : Nat → String) (n : Nat) : String := "http://example.org/" ++ uuid n

def IsRequest (store : Store) (requestID : String) : Prop :=
  store.Linked (.namedNode requestID) RDF.type SOTW.EvaluationRequest

def IsPolicy (store : Store) (policyID : String) : Prop :=
  store.Linked (.namedNode policyID) RDF.type ODRL.Agreement

def statuses (store : Store) (requestID : String) : List Term :=
  store.getObjects (Term.namedNode requestID) SOTW.requestStatus none

/-- What a client requests. A constraint is its three operands. -/
structure RequestContent where
  target : Term
  party : Term
  actions : List Term
  constraints : List (Term × Term × Term)

/-- The content of the body of a request. -/
structure Posted (env : AccessRequestEnvironment) (json : Json) (clientID : String)
    (content : RequestContent) : Prop where
  target : ∃ resourceId, json.field "resource_id" = .string resourceId ∧
    content.target = .namedNode resourceId
  party : content.party = .namedNode clientID
  actions : ∃ scopes : List String, json.field "resource_scopes" = .array (scopes.map .string) ∧
    content.actions = scopes.map .namedNode
  constraints : List.Forall₂ (fun constraint (terms : Term × Term × Term) =>
      ∃ left operator right,
        constraint = Json.array [.string left, .string operator, .string right] ∧
        env.stringToTerm left = .ok terms.1 ∧ env.stringToTerm operator = .ok terms.2.1 ∧
        env.stringToTerm right = .ok terms.2.2)
    ((json.field "constraints").asArray?.getD []) content.constraints

/-- The constraints of a node are these, with these operands. -/
def HasConstraints (store : Store) (node : Term) (constraints : List (Term × Term × Term)) :
    Prop :=
  ∃ nodes : List Term, nodes.Nodup ∧ (∀ c, store.Linked node ODRL.constraint c ↔ c ∈ nodes) ∧
    List.Forall₂ (fun (c : Term) (terms : Term × Term × Term) =>
      store.getObjects c ODRL.leftOperand none = [terms.1] ∧
      store.getObjects c ODRL.operator none = [terms.2.1] ∧
      store.getObjects c ODRL.rightOperand none = [terms.2.2]) nodes constraints

/-- The store has a request with this content. -/
structure Requests (store : Store) (request : Term) (content : RequestContent) : Prop where
  target : store.getObjects request SOTW.requestedTarget none = [content.target]
  party : store.getObjects request SOTW.requestingParty none = [content.party]
  actions : ∀ action, store.Linked request SOTW.requestedAction action ↔ action ∈ content.actions
  constraints : HasConstraints store request content.constraints

/-- The store has a permission of the assigner for what is requested. -/
structure Permits (store : Store) (permission : Term) (assigner : String)
    (content : RequestContent) : Prop where
  target : store.getObjects permission ODRL.target none = [content.target]
  assignee : store.getObjects permission ODRL.assignee none = [content.party]
  assigner : store.getObjects permission ODRL.assigner none = [.namedNode assigner]
  actions : ∀ action, store.Linked permission ODRL.action action ↔ action ∈ content.actions
  constraints : HasConstraints store permission content.constraints

/-! ## The life cycle of an access request -/

section

variable (env : AccessRequestEnvironment) (uuid : Nat → String) (steps : List RequestStep)

/-- The request was posted with this content. -/
def PostedAs (requestID : String) (content : RequestContent) : Prop :=
  ∃ n data clientID json, Succeeds env uuid steps n (.addEntity data clientID) ∧
    requestID = entityIRI uuid n ∧ env.parseJson data = .ok json ∧
    Posted env json clientID content

/-- The policy stems from this client accepting the request. -/
def PolicyFor (requestID clientID policyID : String) : Prop :=
  ∃ n, Succeeds env uuid steps n (.patchEntity requestID "accepted" clientID) ∧
    policyID = entityIRI uuid n

structure LifeCycle : Prop where
  /-- What is stored was posted, and has one status. -/
  posted : ∀ r, IsRequest (requestsAfter env uuid steps) r → ∃ content,
    PostedAs env uuid steps r content ∧ Requests (requestsAfter env uuid steps) (.namedNode r) content
  status : ∀ r, IsRequest (requestsAfter env uuid steps) r → ∃ status,
    statuses (requestsAfter env uuid steps) r = [status]
  /-- Only a client that owns the target resolves a request, -/
  leaves : ∀ earlier step later, steps = earlier ++ step :: later →
    ∀ r, IsRequest (requestsAfter env uuid earlier) r →
      statuses (requestsAfter env uuid earlier) r = [SOTW.requested] →
      statuses (requestsAfter env uuid (earlier ++ [step])) r ≠ [SOTW.requested] →
        ∃ status clientID target, step.operation = .patchEntity r status clientID ∧
          (requestsAfter env uuid earlier).getObjects (Term.namedNode r) SOTW.requestedTarget
            none = [target] ∧ target.value ∈ step.owned clientID
  /-- and only once. -/
  once : ∀ earlier later, steps = earlier ++ later →
    ∀ r, IsRequest (requestsAfter env uuid earlier) r →
      statuses (requestsAfter env uuid earlier) r ≠ [SOTW.requested] →
        statuses (requestsAfter env uuid steps) r = statuses (requestsAfter env uuid earlier) r
  /-- The policies are those of the accepted requests, one for each. -/
  policies : ∀ p, IsPolicy (requestsAfter env uuid steps) p ↔ ∃ r clientID,
    IsRequest (requestsAfter env uuid steps) r ∧ PolicyFor env uuid steps r clientID p
  accepted : ∀ r, IsRequest (requestsAfter env uuid steps) r →
    statuses (requestsAfter env uuid steps) r = [SOTW.accepted] →
      ∃ clientID p, ∀ clientID' p',
        PolicyFor env uuid steps r clientID' p' ↔ clientID' = clientID ∧ p' = p
  unaccepted : ∀ r, statuses (requestsAfter env uuid steps) r ≠ [SOTW.accepted] →
    ∀ clientID p, ¬ PolicyFor env uuid steps r clientID p
  /-- A policy permits what was requested. -/
  permits : ∀ r clientID p content, PolicyFor env uuid steps r clientID p →
    PostedAs env uuid steps r content → ∃ permission,
      (requestsAfter env uuid steps).getObjects (Term.namedNode p) ODRL.permission none =
        [permission] ∧ Permits (requestsAfter env uuid steps) permission clientID content

end

end UserManagedAccess.Controller.AccessRequestController
