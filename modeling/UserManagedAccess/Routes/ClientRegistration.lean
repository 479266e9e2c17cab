/-
UserManagedAccess.Routes.ClientRegistration — the registration of clients, and
the storage it shares with the PAT endpoint.

The storage has two types of objects. A PAT refers to a client registration:
it can only be created for one that is there, and it is deleted with it. The
storage numbers the objects it creates.
-/
import UserManagedAccess.Credentials.Claims
import UserManagedAccess.Dialog.BaseNegotiator
import UserManagedAccess.Lib.Calls
import UserManagedAccess.Lib.Table
import UserManagedAccess.Util.Http

namespace UserManagedAccess.Routes

open UserManagedAccess.Lib UserManagedAccess.Util UserManagedAccess.Credentials
open UserManagedAccess.Dialog

/-! ## The storage -/

structure ClientRegistration where
  clientName : Option String
  clientUri : String
  clientId : String
  clientSecret : String
  userId : String
  deriving DecidableEq

structure Pat where
  pat : String
  expiration : Nat
  refreshToken : String
  /-- The identifier of the client registration. -/
  registration : Nat
  deriving DecidableEq

structure CredentialState where
  clientRegistrations : Table ClientRegistration
  pats : Table Pat
  /-- How many objects were created: the identifier of the next one. -/
  created : Nat

namespace CredentialState

def empty : CredentialState where
  clientRegistrations := []
  pats := []
  created := 0

/-- A call on the storage: its result, and the storage after it. -/
abbrev Call (α : Type) := CredentialState → Except HttpError α × CredentialState

def findClientRegistrations (query : ClientRegistration → Bool) :
    Call (List (Stored ClientRegistration)) := fun s =>
  (.ok (s.clientRegistrations.find query), s)

def findClientRegistrationIds (query : ClientRegistration → Bool) : Call (List Nat) := fun s =>
  (.ok (s.clientRegistrations.findIds query), s)

def createClientRegistration (value : ClientRegistration) : Call Unit := fun s =>
  (.ok (), { s with
    clientRegistrations := s.clientRegistrations.create s.created value
    created := s.created + 1 })

/-- The objects that refer to a deleted one are deleted too. -/
def deleteClientRegistration (id : Nat) : Call Unit := fun s =>
  (.ok (), { s with
    clientRegistrations := s.clientRegistrations.delete id
    pats := s.pats.deleteAll fun pat => pat.registration = id })

def findPats (query : Pat → Bool) : Call (List (Stored Pat)) := fun s =>
  (.ok (s.pats.find query), s)

def findPatIds (query : Pat → Bool) : Call (List Nat) := fun s =>
  (.ok (s.pats.findIds query), s)

def createPat (value : Pat) : Call Unit := fun s =>
  if s.clientRegistrations.has value.registration then
    (.ok (), { s with pats := s.pats.create s.created value, created := s.created + 1 })
  else (.error .notFound, s)

def setPat (id : Nat) (value : Pat) : Call Unit := fun s =>
  if s.pats.has id then (.ok (), { s with pats := s.pats.set id value })
  else (.error .notFound, s)

end CredentialState

/-- What a request draws: random identifiers in order, a random secret and the
time. -/
structure Draws where
  randomUUID : Nat → String
  randomBytes : String
  now : Nat

/-! ## ClientRegistrationRequestHandler -/

structure ClientRegistrationRequestHandler where
  credentialParser : HttpHandlerRequest → Except HttpError Credential
  verifier : Credential → Except HttpError ClaimSet

namespace ClientRegistrationRequestHandler

def ClientRegistrationInput : Assertion :=
  ReType.fields [("client_name", ReType.optional ReType.string), ("client_uri", ReType.string)]

def getClients (userId : String) : Async CredentialState HttpError HttpHandlerResponse := do
  let results ← Async.call (CredentialState.findClientRegistrations fun registration =>
    registration.userId = userId)
  let body := results.map fun result => Json.object
    [("name", (result.value.clientName.map Json.string).getD .undefined),
      ("uri", .string result.value.clientUri), ("id", .string result.value.clientId)]
  return { status := 200, body := .array body }

/-- The response to a registration. -/
def registered (registration : ClientRegistration) : HttpHandlerResponse where
  status := 201
  body := .object [("client_uri", .string registration.clientUri),
    ("client_name", (registration.clientName.map Json.string).getD .undefined),
    ("client_id", .string registration.clientId),
    ("client_secret", .string registration.clientSecret),
    ("client_secret_expires_at", .string "0"),
    ("grant_types", .array [.string "client_credentials", .string "refresh_token"]),
    ("token_endpoint_auth_method", .string "client_secret_basic")]

def registerClient (draws : Draws) (request : HttpHandlerRequest) (userId : String) :
    Async CredentialState HttpError HttpHandlerResponse :=
  match ClientRegistrationInput request.body with
  | .error message => throw (.badRequest ("Request has bad syntax: " ++ message))
  | .ok () => do
    let clientUri := ((request.body.field "client_uri").asString?).getD ""
    let matched ← Async.call (CredentialState.findClientRegistrationIds fun registration =>
      registration.userId = userId ∧ registration.clientUri = clientUri)
    if matched.length > 0 then
      throw (.conflict (clientUri ++ " is already registered for " ++ userId))
    else do
      let registration : ClientRegistration :=
        { clientName := (request.body.field "client_name").asString?
          clientUri
          clientId := draws.randomUUID 0
          clientSecret := draws.randomBytes
          userId }
      Async.call (CredentialState.createClientRegistration registration)
      return registered registration

def deleteClient (request : HttpHandlerRequest) (userId : String) :
    Async CredentialState HttpError HttpHandlerResponse :=
  match request.parameters.get "id" with
  | none => throw (.internalServer "URI for DELETE operation should include an id.")
  | some id => do
    let matched ← Async.call (CredentialState.findClientRegistrations fun registration =>
      registration.clientId = id)
    match matched with
    | [] => throw .notFound
    | first :: _ =>
      if first.value.userId ≠ userId then throw (.forbidden "")
      else do
        Async.call (CredentialState.deleteClientRegistration first.id)
        return { status := 204 }

/-- The WebIDs of the claims. -/
def userIds (claims : ClaimSet) : List String := (claims.values WEBID).filterMap Json.asString?

def handle (handler : ClientRegistrationRequestHandler) (draws : Draws)
    (request : HttpHandlerRequest) : Async CredentialState HttpError HttpHandlerResponse := do
  let credential ← handler.credentialParser request
  Async.yield
  let claims ← handler.verifier credential
  Async.yield
  match userIds claims with
  | [] => throw .unauthorized
  | userId :: _ =>
    match request.method with
    | "GET" => getClients userId
    | "POST" => registerClient draws request userId
    | "DELETE" => deleteClient request userId
    | _ => throw .methodNotAllowed

end ClientRegistrationRequestHandler

end UserManagedAccess.Routes
