/-
UserManagedAccess.Routes.RefreshToken — the refresh grant of the token
endpoint, and the negotiator it runs as configured.

A refresh is a negotiation for the permissions of the refresh token, with that
token as its claim; the token is deleted once the negotiation has succeeded.
-/
import UserManagedAccess.Credentials.Verifiers

namespace UserManagedAccess.Routes

open UserManagedAccess.Lib UserManagedAccess.Util UserManagedAccess.Views
open UserManagedAccess.Credentials UserManagedAccess.Dialog UserManagedAccess.Tokens
open UserManagedAccess.Ticketing

namespace RefreshTokenHandler

/-- The input of the negotiation a refresh comes down to. -/
def refreshDialog (token : String) (permissions : List Permission) : Json :=
  .object [("permissions", .array (permissions.map Permission.toJson)),
    ("claim_token", .string token),
    ("claim_token_format", .string REFRESH_TOKEN)]

/-- A call on the token store that is not awaited. -/
def onTokensNow {α : Type} (p : Async TokenState HttpError α) :
    Async (NegotiatorState TokenState) HttpError α :=
  p.zoom NegotiatorState.tokens NegotiatorState.setTokens

/-- The refresh token of a request the handler goes on with. -/
def readRefreshToken (params : Json) : Except HttpError String :=
  match DialogInput.assertion params with
  | .error message => .error (.badRequest ("Invalid token request body: " ++ message))
  | .ok () =>
    match (params.field "grant_type").asString? with
    | some "refresh_token" =>
      match DialogInput.truthy (params.field "refresh_token").asString? with
      | none => .error (.badRequest "Missing refresh_token parameter")
      | some token => .ok token
    | other => .error (.badRequest ("Unsupported grant_type " ++ other.getD "undefined"))

/-- `handle`, answered with the body of the 200 response. -/
def handle (services : TokenServices)
    (negotiate : Json → Async (NegotiatorState TokenState) HttpError DialogOutput)
    (params : Json) : Async (NegotiatorState TokenState) HttpError DialogOutput := do
  let token ← readRefreshToken params
  let information ← BaseNegotiator.onTokens (services.get token)
  match information with
  | none => throw (.badRequest ("Refresh token " ++ token ++ " not recognized."))
  | some record => do
    let expired ← onTokensNow (services.isExpired record)
    if expired then do
      BaseNegotiator.onTokens (TokenServices.delete token)
      throw (.forbidden ("Expired refresh token " ++ token))
    else do
      let tokenResponse ← negotiate (refreshDialog token record.permissions)
      Async.yield
      BaseNegotiator.onTokens (TokenServices.delete token)
      return tokenResponse

end RefreshTokenHandler

/-! ## As configured -/

/-- The verifiers by format. The others do not touch the token store. -/
def formatVerifier (services : TokenServices)
    (others : String → Option (Credential → Except HttpError (Option ClaimSet))) :
    Verify TokenState :=
  TypedVerifier.verify fun format =>
    if format = REFRESH_TOKEN then some (RefreshTokenVerifier.verify services)
    else (others format).map fun verify credential => liftM (verify credential)

def configuredVerifier (services : TokenServices) (base : IriBase)
    (others : String → Option (Credential → Except HttpError (Option ClaimSet))) :
    Credential → Async TokenState HttpError ClaimSet :=
  IriVerifier.verify base (formatVerifier services others)

/-- `BaseNegotiator` with `JwtTokenFactory` and `StoredRefreshTokenIssuer` on
the token store. -/
def configuredNegotiator (services : TokenServices) (base : IriBase)
    (others : String → Option (Credential → Except HttpError (Option ClaimSet)))
    (ticketingStrategy : TicketingStrategy) : BaseNegotiator TokenState where
  verifier := configuredVerifier services base others
  ticketingStrategy
  tokenFactory := services.serialize
  refreshTokenIssuer := some services.issue

end UserManagedAccess.Routes
