/-
UserManagedAccess.Routes.PatRequestValidator — the validation of the PAT a
resource server sends, next to the requests that register clients and give
out PATs.

`Registered` and `Minted` say where a client registration and a PAT come from:
the requests that made them.
-/
import UserManagedAccess.Routes.ConcurrentCredentials
import UserManagedAccess.Util.ConvertUtil

namespace UserManagedAccess.Routes

open UserManagedAccess.Lib UserManagedAccess.Util UserManagedAccess.Dialog

def CredentialState.getClientRegistration (id : Nat) :
    CredentialState.Call (Option (Stored ClientRegistration)) := fun s =>
  (.ok ((s.clientRegistrations : List _).find? fun entry => entry.id = id), s)

namespace PatRequestValidator

/-- `/^Bearer /ui`. -/
def isBearer (authorization : String) : Bool :=
  (authorization.toList.take 7).map Char.toLower == "bearer ".toList

/-- Only the capitalized scheme is taken off. -/
def readToken (authorization : String) : String :=
  let header := authorization.toList
  let rest := if "Bearer".toList.isPrefixOf header then header.drop 6 else header
  String.ofList (rest.dropWhile isWhitespace)

def resolveOwner (now : Nat) (patEntries : List (Stored Pat)) :
    Async CredentialState HttpError String :=
  match patEntries with
  | [] => throw (.forbidden "Unknown PAT.")
  | first :: _ =>
    if first.value.expiration < now then throw (.forbidden "Expired PAT.")
    else do
      let registration ←
        Async.call (CredentialState.getClientRegistration first.value.registration)
      match registration with
      | none => throw (.internalServer "Unable to find matching client for PAT.")
      | some registration => return registration.value.userId

def handle (now : Nat) (request : HttpHandlerRequest) : Async CredentialState HttpError String :=
  match DialogInput.truthy (request.headers.get "authorization") with
  | none => throw .unauthorized
  | some authorization =>
    if !isBearer authorization then throw .unauthorized
    else do
      let patEntries ← Async.call (CredentialState.findPats fun pat =>
        pat.pat = readToken authorization)
      resolveOwner now patEntries

end PatRequestValidator

/-! ## Runs -/

inductive ProtectionRequest where
  | credentials (request : CredentialRequest)
  /-- A request to a protected endpoint, up to the answer of its validator. -/
  | validate (request : HttpHandlerRequest)

inductive ProtectionAnswer where
  | response (response : HttpHandlerResponse)
  | owner (userId : String)

namespace CredentialServer

def protect (server : CredentialServer) (draws : Draws) :
    ProtectionRequest → Async CredentialState HttpError ProtectionAnswer
  | .credentials request => do
    let response ← server.respond draws request
    return .response response
  | .validate request => do
    let userId ← PatRequestValidator.handle draws.now request
    return .owner userId

/-- The requests after a schedule. -/
def protectionAfter {ι : Type} [DecidableEq ι] (server : CredentialServer) (draws : ι → Draws)
    (requests : ι → ProtectionRequest) (schedule : List ι) :
    Pool ι CredentialState HttpError ProtectionAnswer :=
  (Pool.start (fun i => server.protect (draws i) (requests i)) CredentialState.empty).run schedule

/-! ## Where credentials come from -/

section

variable {ι : Type} (server : CredentialServer) (draws : ι → Draws) (requests : ι → ProtectionRequest)

/-- A user registered this client. -/
def Registered (client : ClientRegistration) : Prop :=
  ∃ k request credential claims, requests k = .credentials (.client request) ∧
    request.method = "POST" ∧
    server.clientRegistration.credentialParser request = .ok credential ∧
    server.clientRegistration.verifier credential = .ok claims ∧
    (ClientRegistrationRequestHandler.userIds claims).head? = some client.userId ∧
    client.clientId = (draws k).randomUUID 0 ∧ client.clientSecret = (draws k).randomBytes

/-- This request, which had the credentials of the client, signed the PAT. -/
def Minted (j : ι) (client : ClientRegistration) (pat : Pat) : Prop :=
  ∃ request key jwk, requests j = .credentials (.pat request) ∧
    server.umaProtection.readCredentials (request.headers.get "authorization") =
      .ok (client.clientId, client.clientSecret) ∧
    server.umaProtection.getPrivateKey = .ok key ∧
    server.umaProtection.importJWK key = .ok jwk ∧
    server.umaProtection.sign jwk (server.umaProtection.payload (draws j) client) = .ok pat.pat ∧
    pat.expiration = (draws j).now + server.umaProtection.tokenExpiration * 1000

end

end CredentialServer

end UserManagedAccess.Routes
