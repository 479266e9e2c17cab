/-
UserManagedAccess.Routes.Introspection — the introspection endpoint.
-/
import UserManagedAccess.Tokens.TokenFactories
import UserManagedAccess.Util.Http

namespace UserManagedAccess.Routes

open UserManagedAccess.Util UserManagedAccess.Tokens

structure IntrospectionHandler where
  tokenFactory : TokenFactory
  validator : RequestValidator
  decoder : FormDecoder

namespace IntrospectionHandler

/-- `{ ...unsignedToken, active: true }`. -/
def activeToken (unsignedToken : AccessToken) : Json :=
  .object (unsignedToken.toFields ++ [("active", .boolean true)])

/-- Whatever goes wrong with the token, the error is the same. -/
def handle (handler : IntrospectionHandler) (now : Nat) (tokenStore : AccessTokenStore)
    (request : HttpHandlerRequest) : Except HttpError HttpHandlerResponse := do
  let _ ← handler.validator request
  if !request.body.isTruthy then throw (.badRequest "Missing request body.")
  match (handler.decoder.searchParam "token" request.body).filter (· ≠ "") with
  | none => throw (.badRequest "Invalid request body.")
  | some token =>
    match handler.tokenFactory.deserialize now token tokenStore with
    | .error _ => throw (.badRequest "Invalid request body.")
    | .ok unsignedToken => return { status := 200, body := activeToken unsignedToken }

end IntrospectionHandler

end UserManagedAccess.Routes
