/-
UserManagedAccess.Css.TokenVerification — how the resource server verifies an
access token: `verifyTokenData` and `verifyOpaqueToken` of `UmaClient.ts`, and
the introspection endpoint as it is seen from there.
-/
import UserManagedAccess.Css.UmaClient
import UserManagedAccess.Routes.Introspection

namespace UserManagedAccess.Css

open UserManagedAccess.Util UserManagedAccess.Routes UserManagedAccess.Tokens

/-! ## The client -/

/-- What the verification uses: the configuration of an issuer, a POST with an
urlencoded body, and `jwtVerify` with a key set, an issuer and an audience. -/
structure VerificationServices where
  fetchUmaConfig : String → Except HttpError UmaConfig
  fetch : String → String → Except HttpError Response
  jwtVerify : Json → String → String → String → Except HttpError Json

namespace VerificationServices

variable (services : VerificationServices)

def isObject : Json → Bool
  | .object _ | .array _ => true
  | _ => false

/-- A permission of a payload has an id and scopes. -/
def checkPermission (permission : Json) : Except HttpError Unit :=
  if !isObject permission then
    .error (.error "Cannot use 'in' operator to search for 'resource_id'")
  else
    match permission.field "resource_id", permission.field "resource_scopes" with
    | .string _, .array scopes =>
      if scopes.all fun scope => scope.asString?.isSome then .ok ()
      else .error (.error "Invalid RPT: 'permissions' array invalid.")
    | _, _ => .error (.error "Invalid RPT: 'permissions' array invalid.")

def verifyTokenData (token : Json) (issuer jwks : String) : Except HttpError Json := do
  let payload ← services.jwtVerify token jwks issuer "solid"
  match payload.field "permissions" with
  | .array permissions =>
    permissions.forM checkPermission
    return payload
  | _ => return payload

def notActive : HttpError := .error "The provided UMA RPT is not active."

def verifyOpaqueToken (token issuer : String) : Except HttpError Json := do
  let config ← services.fetchUmaConfig issuer
  let res ← services.fetch config.introspectionEndpoint
    ("token_type_hint=access_token&token=" ++ token)
  if res.status ≥ 400 then
    throw (.error ("Unable to introspect UMA RPT for Authorization Server '" ++ config.issuer ++
      "'"))
  match res.body with
  | none => throw (.error "Unexpected end of JSON input")
  | some jwt =>
    match jwt with
    | .undefined | .null => throw (.error "Cannot read properties of null (reading 'active')")
    | _ =>
      if !(jwt.field "active").isString "true" then throw notActive
      services.verifyTokenData jwt config.issuer config.jwksUri

end VerificationServices

/-! ## The endpoint -/

/-- `JsonHttpErrorHandler.ts`. -/
def errorStatus : HttpError → Nat
  | .badRequest _ => 400
  | .unauthorized => 401
  | .forbidden _ => 403
  | .notFound => 404
  | .methodNotAllowed => 405
  | .conflict _ => 409
  | .internalServer _ => 500
  | .needInfo _ _ _ => 403
  | .error _ => 500

/-- The request as the handler gets it. -/
def introspectionRequest (decoder : FormDecoder) (form : String) : HttpHandlerRequest where
  method := "POST"
  headers := [("content-type", "application/x-www-form-urlencoded"),
    ("accept", "application/json")]
  body := decoder.formToJson form

/-- The response to an urlencoded body. -/
def introspect (handler : IntrospectionHandler) (now : Nat) (tokenStore : AccessTokenStore)
    (form : String) : Response :=
  match handler.handle now tokenStore (introspectionRequest handler.decoder form) with
  | .ok response => { status := response.status, body := some response.body }
  | .error e =>
    { status := errorStatus e, body := some (.object [("status", .number (errorStatus e))]) }

end UserManagedAccess.Css
