/-
UserManagedAccess.Css.UmaTokenExtractor — the access token of a request, from
its header to the modes it gives.

`verifyJwtToken` of `UmaClient.ts`, the credentials extractor that calls it,
and the permission reader that gets the claims. The authorization server is
seen through the tokens it has signed: `Trusts` is what the resource server
relies on `jose` for.
-/
import UserManagedAccess.Css.OwnerUtil
import UserManagedAccess.Css.TokenVerification
import UserManagedAccess.Css.UmaPermissionReader
import UserManagedAccess.Routes.PatRequestValidator

namespace UserManagedAccess.Css

open UserManagedAccess.Lib UserManagedAccess.Util UserManagedAccess.Views
open UserManagedAccess.Tokens UserManagedAccess.Routes

/-! ## Verifying a token -/

/-- The message of an error; of those without one none is thrown here. -/
def createErrorMessage : HttpError → String
  | .badRequest message | .forbidden message | .conflict message => message
  | .internalServer message | .needInfo message _ _ | .error message => message
  | .unauthorized | .notFound | .methodNotAllowed => ""

structure TokenClient extends VerificationServices where
  /-- `decodeJwt` of `jose`: the claims of a token, not verified. -/
  decodeJwt : String → Except HttpError Json

namespace TokenClient

variable (client : TokenClient)

def notOfIssuers : HttpError :=
  .error "The JWT wasn't issued by one of the target owners' issuers."

/-- The configuration of the issuer that a token names. -/
def issuerConfig (token : String) (validIssuers : List String) : Except HttpError UmaConfig := do
  let payload ← client.decodeJwt token
  if !(payload.field "iss").isTruthy then
    throw (.error "The JWT does not contain an \"iss\" parameter.")
  else
    match payload.field "iss" with
    | .string issuer =>
      if validIssuers.contains issuer then client.fetchUmaConfig issuer else throw notOfIssuers
    | _ => throw notOfIssuers

def verifyJwtToken (token : String) (validIssuers : List String) : Except HttpError Json :=
  match client.issuerConfig token validIssuers with
  | .error e => .error (.error ("Error verifying UMA access token: " ++ createErrorMessage e))
  | .ok config => client.verifyTokenData (.string token) config.issuer config.jwksUri

end TokenClient

/-! ## Extracting it from a request -/

structure HttpRequest where
  headers : Dict String
  url : String

structure UmaTokenExtractor where
  client : TokenClient
  targetExtractor : HttpRequest → Except HttpError String
  ownerUtil : OwnerUtil
  introspect : Bool

namespace UmaTokenExtractor

variable (extractor : UmaTokenExtractor)

/-- The issuers of the owners. -/
def validIssuers (target : String) : Except HttpError (List String) := do
  let owners ← extractor.ownerUtil.findOwners target
  let issuers ← owners.mapM fun owner => do
    let settings ← extractor.ownerUtil.findUmaSettings owner
    return settings.issuer
  return issuers.filterMap id

/-- The first issuer that introspects the token. -/
def introspectToken (token : String) (validIssuers : List String) : Except HttpError Json :=
  let results := validIssuers.map (extractor.client.verifyOpaqueToken token)
  match results.findSome? Except.toOption with
  | some claims => .ok claims
  | none => .error (.badRequest ("Introspection failed: " ++ ",".intercalate
      (results.filterMap fun
        | .ok _ => none
        | .error e => some (createErrorMessage e))))

def verify (request : HttpRequest) (token : String) : Except HttpError Json := do
  let target ← extractor.targetExtractor request
  let issuers ← extractor.validIssuers target
  if extractor.introspect then extractor.introspectToken token issuers
  else extractor.client.verifyJwtToken token issuers

/-- The claims of the token: `uma.rpt` of the credentials. Other than
`canHandle`, it does not look for `Bearer` again. -/
def handle (request : HttpRequest) : Except HttpError Json :=
  match truthy ((request.headers.get "authorization").map PatRequestValidator.readToken) with
  | none => .error (.badRequest "Found empty Bearer token.")
  | some token =>
    match extractor.verify request token with
    | .ok claims => .ok claims
    | .error e => .error (.badRequest
        ("Error verifying WebID via Bearer access token: " ++ createErrorMessage e))

end UmaTokenExtractor

/-! ## Claims as the reader gets them -/

def toTime : Json → Option (Option Rat)
  | .undefined => some none
  | .number seconds => some (some seconds)
  | _ => none

def Times.ofJson (value : Json) : Option Times := do
  let iat ← toTime (value.field "iat")
  let exp ← toTime (value.field "exp")
  let nbf ← toTime (value.field "nbf")
  return { iat, exp, nbf }

def UmaPermission.ofJson (value : Json) : Option UmaPermission := do
  let resourceId ← (value.field "resource_id").asString?
  let scopes ← (value.field "resource_scopes").asArray?
  let resourceScopes ← scopes.mapM Json.asString?
  let times ← Times.ofJson value
  return { resourceId, resourceScopes, times }

/-- The payload as the type that is declared for it, where it is of that type. -/
def UmaClaims.ofJson (payload : Json) : Option UmaClaims := do
  let times ← Times.ofJson payload
  match payload.field "permissions" with
  | .undefined | .null => return { times }
  | .array values =>
    let permissions ← values.mapM UmaPermission.ofJson
    return { permissions := some permissions, times }
  | _ => none

/-- The token of the request permits the mode. -/
def UmaTokenExtractor.Permits (extractor : UmaTokenExtractor) (now : Moment)
    (request : HttpRequest) (resourceId : String) (mode : PERMISSIONS) : Prop :=
  ∃ payload claims, extractor.handle request = .ok payload ∧
    UmaClaims.ofJson payload = some claims ∧
    UmaPermissionReader.Allows (UmaPermissionReader.handle now (some claims)) resourceId mode

/-! ## The authorization server -/

def isDefined : Json → Bool
  | .undefined => false
  | _ => true

/-- The claims of a JWT; those that are undefined are not written. -/
def claimsOf (payload : JwtPayload) : Json :=
  .object ([("permissions", payload.permissions), ("iss", .string payload.issuer),
    ("aud", .string payload.audience), ("iat", .number payload.issuedAt),
    ("exp", .number payload.expirationTime), ("jti", .string payload.jti)] ++
    [("contract", payload.contract), ("sub", payload.subject)].filter fun field =>
      isDefined field.2)

/-- A token that was signed. -/
structure Issued where
  draws : MintDraws
  token : AccessToken
  jwt : String

structure AuthorizationServer where
  factory : JwtTokenFactory
  issued : List Issued

namespace AuthorizationServer

variable (server : AuthorizationServer)

def claims (minted : Issued) : Json := claimsOf (server.factory.payload minted.draws minted.token)

/-- The token is signed and not too old. -/
structure Current (minted : Issued) (now : Moment) : Prop where
  started : (minted.draws.now : Rat) < now.seconds
  unexpired : now.seconds < (minted.draws.now + server.factory.expirationTime : Nat)

end AuthorizationServer

/-- What the client finds at the server, and what `jose` says of its tokens:
those it has signed are verified until they expire, and what is verified is one
of them. This takes there to be one authorization server: `genuine` speaks of
every issuer that the client can get a configuration of, so no other server
signs anything that the client would verify. -/
structure Trusts (client : TokenClient) (server : AuthorizationServer) (now : Moment) : Prop where
  audience : server.factory.audience = "solid"
  lifetime : 0 < server.factory.expirationTime
  issuer : server.factory.issuer ≠ ""
  config : ∃ config, client.fetchUmaConfig server.factory.issuer = .ok config ∧
    config.issuer = server.factory.issuer ∧
    ∀ minted ∈ server.issued, server.Current minted now →
      client.jwtVerify (.string minted.jwt) config.jwksUri config.issuer "solid" =
        .ok (server.claims minted)
  decodes : ∀ minted ∈ server.issued, client.decodeJwt minted.jwt = .ok (server.claims minted)
  genuine : ∀ issuer config jwt payload, client.fetchUmaConfig issuer = .ok config →
    client.jwtVerify (.string jwt) config.jwksUri config.issuer "solid" = .ok payload →
      ∃ minted ∈ server.issued, minted.jwt = jwt ∧ payload = server.claims minted

end UserManagedAccess.Css
