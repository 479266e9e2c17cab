/-
UserManagedAccess.Routes.RegistrationRuns — sequences of registration requests
of any owners, each answered before the next one starts.

The random identifier of a request is taken to be new: nothing is registered
under it when the request is made.
-/
import UserManagedAccess.Lib.Runs
import UserManagedAccess.Routes.ResourceRegistrationTheorems

namespace UserManagedAccess.Routes

open UserManagedAccess.Lib UserManagedAccess.Rdf UserManagedAccess.Util
open UserManagedAccess.Views UserManagedAccess.Ucp

structure RegistrationRequest where
  owner : String
  request : HttpHandlerRequest

namespace ResourceRegistrationRequestHandler

/-- The state after a request, whatever it was answered. -/
def step (env : RegistrationEnvironment) (n : Nat) (r : RegistrationRequest) (s : ServerState) :
    ServerState :=
  ((respond env n r.request r.owner).run s).2

/-- The state after the requests, from empty stores. -/
def runAll (env : RegistrationEnvironment) (requests : List RegistrationRequest) : ServerState :=
  runFrom (step env) 0 requests ServerState.empty

/-- The random identifier of the request is new. -/
def FreshIdentifier (env : RegistrationEnvironment) (n : Nat) (_ : RegistrationRequest)
    (s : ServerState) : Prop :=
  s.registrationStore.get (env.randomUUID n) = none

/-- A step changes nothing, or has an effect. -/
theorem step_effect (env : RegistrationEnvironment) (n : Nat) (r : RegistrationRequest)
    (s : ServerState) : Effect env n r.request r.owner s (step env n r s) := by
  have hanswered := answered_respond env n r.request r.owner s
  rcases hanswered with ⟨e, hrefused⟩ | ⟨response, s', hok, heffect⟩
  · rw [step, hrefused]
    exact .read
  · rw [step, hok]
    exact heffect

/-- The request is answered with success. -/
def Accepted (env : RegistrationEnvironment) (n : Nat) (r : RegistrationRequest)
    (s : ServerState) : Prop :=
  ∃ response, ((respond env n r.request r.owner).run s).1 = .ok response

/-- The request is a PUT of the resource. -/
def IsUpdateOf (r : RegistrationRequest) (id : String) : Prop :=
  r.request.method = "PUT" ∧ r.request.parameters.get "id" = some id

/-- An accepted PUT updates the resource of its owner. -/
theorem step_of_accepted_put {env : RegistrationEnvironment} {n : Nat} {r : RegistrationRequest}
    {s : ServerState} {id : String} (hput : IsUpdateOf r id) (haccepted : Accepted env n r s) :
    ∃ previous change,
      s.registrationStore.get id = some { owner := r.owner, description := previous } ∧
      metadataChange env n s.policies id r.owner (described r.request) (some previous) =
        .ok change ∧
      step env n r s =
        withMetadata id r.owner (described r.request) (some previous) change s := by
  obtain ⟨hmethod, hid⟩ := hput
  obtain ⟨response, hok⟩ := haccepted
  rw [respond_put hmethod] at hok
  rcases run_handlePut env n r.request r.owner s with
    ⟨e, hrefused⟩ | ⟨id', previous, change, hid', hentry, hchange, hrun⟩
  · rw [hrefused] at hok
    cases hok
  · rw [hid] at hid'
    injection hid' with hid'
    subst hid'
    refine ⟨previous, change, hentry, hchange, ?_⟩
    rw [step, respond_put hmethod, hrun]

/-- What an accepted POST or PUT answers with is registered then, with the
description of the request. -/
theorem step_registers {env : RegistrationEnvironment} {n : Nat} {r : RegistrationRequest}
    {s : ServerState} (hmethod : r.request.method = "POST" ∨ r.request.method = "PUT")
    {response : HttpHandlerResponse} {id : String}
    (hok : ((respond env n r.request r.owner).run s).1 = .ok response)
    (hbody : response.body = registered id) :
    (step env n r s).registrationStore =
      s.registrationStore.set id { owner := r.owner, description := described r.request } := by
  have hsame : ∀ {id' : String} {status : Nat},
      (.ok { status, body := registered id' } : Except HttpError HttpHandlerResponse) =
        .ok response → id' = id := by
    intro id' status heq
    injection heq with heq
    have hregistered : registered id' = registered id := by rw [← hbody, ← heq]
    simpa [registered] using hregistered
  unfold step
  rcases hmethod with hpost | hput
  · rw [respond_post hpost] at hok ⊢
    rcases run_handlePost env n r.request r.owner s with
      ⟨e, hrefused⟩ | ⟨id', change, -, -, hrun⟩
    · rw [hrefused] at hok
      cases hok
    · rw [hrun] at hok ⊢
      rw [← hsame hok]
      rfl
  · rw [respond_put hput] at hok ⊢
    rcases run_handlePut env n r.request r.owner s with
      ⟨e, hrefused⟩ | ⟨id', previous, change, -, -, -, hrun⟩
    · rw [hrefused] at hok
      cases hok
    · rw [hrun] at hok ⊢
      rw [← hsame hok]
      rfl

/-- With a new identifier, a new resource is not registered yet. -/
theorem IsNewResource.unregistered {env : RegistrationEnvironment} {n : Nat}
    {r : RegistrationRequest} {s : ServerState} {description : ResourceDescription} {id : String}
    (h : IsNewResource env n s description id) (hfresh : FreshIdentifier env n r s) :
    s.registrationStore.get id = none := by
  rcases h with ⟨-, -, hnone⟩ | ⟨-, rfl⟩
  · exact hnone
  · exact hfresh

/-- The condition holds for the resource of the request and its previous
description, if the request passes the checks that come before an update. -/
structure UpdateMeets (env : RegistrationEnvironment) (n : Nat) (r : RegistrationRequest)
    (s : ServerState) (condition : String → Option ResourceDescription → Prop) : Prop where
  posted : r.request.method = "POST" → ∀ id, IsNewResource env n s (described r.request) id →
    condition id none
  updated : r.request.method = "PUT" → ∀ id previous, r.request.parameters.get "id" = some id →
    s.registrationStore.get id = some { owner := r.owner, description := previous } →
      condition id (some previous)

/-! ## What is registered after an effect -/

section Registered

variable {id owner other : String} {description : ResourceDescription}
  {previous : Option ResourceDescription} {change : QuadChange} {s : ServerState}

@[simp] theorem registrationStore_withMetadata :
    (withMetadata id owner description previous change s).registrationStore.get other =
      if other = id then some { owner, description } else s.registrationStore.get other :=
  KeyValueStorage.get_set _ _ _ _

@[simp] theorem registrationStore_withoutResource :
    (withoutResource id owner s).registrationStore.get other =
      if other = id then none else s.registrationStore.get other :=
  KeyValueStorage.get_delete _ _ _

end Registered

/-! ## Sample requests -/

/-- Blank nodes that tell their two numbers apart. -/
def countedBlankNodes : RegistrationEnvironment where
  randomUUID _ := "uuid"
  blankNode n k := String.ofList (List.replicate n 'n' ++ List.replicate k 'k')
  toString _ := ""

def alice : String := "http://example.org/alice"

def bob : String := "http://example.org/bob"

/-- A request for a resource with the given relation metadata. -/
def relationRequest (owner method id : String) (field : String × Json) : RegistrationRequest where
  owner
  request :=
    { method, parameters := [("id", id)]
      body := .object [("resource_scopes", .array []), ("name", .string id), field] }

/-- A container with a default for what it contains. -/
def containerRequest (owner method : String) : RegistrationRequest :=
  relationRequest owner method "http://example.org/" ("resource_defaults",
    .object [("http://www.w3.org/ns/ldp#contains", .array [.string "read"])])

/-- A resource the container contains. -/
def containedRequest (method id : String) : RegistrationRequest :=
  relationRequest alice method id ("resource_relations", .object [("@reverse",
    .object [("http://www.w3.org/ns/ldp#contains", .array [.string "http://example.org/"])])])

/-- The collection of what the container contains. -/
def containment : CollectionMetadata where
  relation := "http://www.w3.org/ns/ldp#contains"
  source := "http://example.org/"
  reverse := false

end ResourceRegistrationRequestHandler

end UserManagedAccess.Routes
