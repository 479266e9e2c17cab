/-
UserManagedAccess.Routes.UmaProtection — the PAT endpoint: a client gets a
token for the UMA protection API with its credentials, or renews it.
-/
import UserManagedAccess.Dialog.Input
import UserManagedAccess.Routes.ClientRegistration
import UserManagedAccess.Util.Forms

namespace UserManagedAccess.Routes

open UserManagedAccess.Lib UserManagedAccess.Util UserManagedAccess.Dialog

def UMA_PROTECTION_SCOPE : String := "uma_protection"

/-- The claims of a PAT. -/
structure PatPayload where
  scope : String
  azp : String
  client_id : String
  subject : String
  issuer : String
  audience : String
  issuedAt : Nat
  expirationTime : Nat
  jti : String

/-- The key of the server, with its algorithm and its identifier. -/
structure PrivateKey where
  alg : String
  kid : String
  secret : String

structure UmaProtection where
  /-- In seconds. -/
  tokenExpiration : Nat
  baseUrl : String
  getPrivateKey : Except HttpError PrivateKey
  importJWK : PrivateKey → Except HttpError PrivateKey
  sign : PrivateKey → PatPayload → Except HttpError String
  /-- `matchesAuthorizationScheme('Basic', authorization)`. -/
  isBasic : String → Bool
  /-- `Buffer.from(text, 'base64').toString('utf8')`. -/
  fromBase64 : String → String
  decodeURIComponent : String → Except HttpError String

namespace UmaProtection

/-- The identifier and the secret in an `Authorization` header. -/
def readCredentials (server : UmaProtection) (authorization : Option String) :
    Except HttpError (String × String) :=
  match authorization with
  | none => .error .unauthorized
  | some authorization =>
    if !server.isBasic authorization then .error (.badRequest "Expected scheme 'Basic'")
    else
      match (split ' ' authorization)[1]? with
      | none => .error (.error "The first argument must be of type string. Received undefined")
      | some encoded => do
        let parts := split ':' (server.fromBase64 encoded)
        let id ← server.decodeURIComponent (parts[0]?.getD "")
        let secret ← server.decodeURIComponent (parts[1]?.getD "")
        return (id, secret)

def findRegistration (server : UmaProtection) (authorization : Option String) :
    Async CredentialState HttpError (Stored ClientRegistration) := do
  let credentials ← server.readCredentials authorization
  let matched ← Async.call (CredentialState.findClientRegistrations fun registration =>
    registration.clientId = credentials.1 ∧ registration.clientSecret = credentials.2)
  match matched with
  | [] => throw (.forbidden "")
  | first :: _ => return first

def payload (server : UmaProtection) (draws : Draws) (registration : ClientRegistration) :
    PatPayload where
  scope := UMA_PROTECTION_SCOPE
  azp := registration.clientId
  client_id := registration.clientId
  subject := registration.userId
  issuer := server.baseUrl
  audience := server.baseUrl
  issuedAt := draws.now / 1000
  expirationTime := (draws.now + server.tokenExpiration * 1000) / 1000
  jti := draws.randomUUID 1

/-- The response with a new token. `id` is the entry it replaces. -/
def generateToken (server : UmaProtection) (draws : Draws)
    (registration : Stored ClientRegistration) (id : Option Nat) :
    Async CredentialState HttpError Json := do
  let refreshToken := draws.randomUUID 0
  let expiration := draws.now + server.tokenExpiration * 1000
  let key ← server.getPrivateKey
  Async.yield
  let jwk ← server.importJWK key
  Async.yield
  let pat ← server.sign jwk (server.payload draws registration.value)
  Async.yield
  let body : Pat := { pat, expiration, refreshToken, registration := registration.id }
  match id with
  | some id => Async.call (CredentialState.setPat id body)
  | none => Async.call (CredentialState.createPat body)
  return .object [("access_token", .string pat), ("refresh_token", .string refreshToken),
    ("token_type", .string "Bearer"), ("expires_in", .number server.tokenExpiration)]

def handleClientCredentials (server : UmaProtection) (draws : Draws)
    (authorization : Option String) : Async CredentialState HttpError HttpHandlerResponse := do
  let registration ← server.findRegistration authorization
  let matched ← Async.call (CredentialState.findPatIds fun pat =>
    pat.registration = registration.id)
  let body ← server.generateToken draws registration matched.head?
  return { status := 201, body }

def handleRefreshToken (server : UmaProtection) (draws : Draws) (refreshToken : Option String)
    (authorization : Option String) : Async CredentialState HttpError HttpHandlerResponse :=
  match DialogInput.truthy refreshToken with
  | none => throw (.badRequest "Missing refresh_token parameter")
  | some refreshToken => do
    let pats ← Async.call (CredentialState.findPats fun pat => pat.refreshToken = refreshToken)
    match pats with
    | [] => throw (.forbidden ("Unknown refresh token " ++ refreshToken))
    | first :: _ =>
      let registration ← server.findRegistration authorization
      if registration.id ≠ first.value.registration then
        throw (.forbidden ("Wrong credentials for refresh token " ++ refreshToken))
      else do
        let body ← server.generateToken draws registration (some first.id)
        return { status := 201, body }

def handle (server : UmaProtection) (draws : Draws) (request : HttpHandlerRequest) :
    Async CredentialState HttpError HttpHandlerResponse :=
  let params := request.body
  match DialogInput.assertion params with
  | .error message => throw (.badRequest ("Invalid token request body: " ++ message))
  | .ok () =>
    if !(params.field "scope").isString UMA_PROTECTION_SCOPE then
      throw (.badRequest ("Expected scope '" ++ UMA_PROTECTION_SCOPE ++ "'"))
    else
      let authorization := request.headers.get "authorization"
      match (params.field "grant_type").asString? with
      | some "client_credentials" => server.handleClientCredentials draws authorization
      | some "refresh_token" =>
        server.handleRefreshToken draws (params.field "refresh_token").asString? authorization
      | other => throw (.badRequest ("Unsupported grant_type " ++ other.getD "undefined"))

end UmaProtection

end UserManagedAccess.Routes
