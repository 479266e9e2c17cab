/-
UserManagedAccess.Dialog.BaseNegotiator — the negotiation at the token
endpoint.

A negotiation takes a ticket (or starts one), adds the pushed claims to it,
and ends with a token, a refusal, or a request for more claims under a new
ticket. The state it shares with other requests is the ticket store and the
state of the token services.

The claims provided so far are one object that every version of a ticket
refers to, so the ticket a denied negotiation stores again carries the claims
of that negotiation.

A store in memory hands out that object itself. Two negotiations that take one
ticket at the same time push their claims into the same object; here each of them
has its own. Results about negotiations at the same time are about identifiers
only, or count a claim for everyone who gets hold of its ticket.
-/
import UserManagedAccess.Dialog.Input
import UserManagedAccess.Ticketing.Ticket
import UserManagedAccess.Tokens.AccessToken

namespace UserManagedAccess.Dialog

open UserManagedAccess.Lib UserManagedAccess.Util UserManagedAccess.Views
open UserManagedAccess.Credentials UserManagedAccess.Ticketing UserManagedAccess.Tokens

/-- `Credential.ts`. -/
structure Credential where
  token : String
  format : String

structure NegotiatorState (τ : Type) where
  ticketStore : KeyValueStorage String Ticket
  tokens : τ

def NegotiatorState.setTokens {τ : Type} (tokens : τ) (s : NegotiatorState τ) :
    NegotiatorState τ :=
  { s with tokens }

structure BaseNegotiator (τ : Type) where
  verifier : Credential → Async τ HttpError ClaimSet
  ticketingStrategy : TicketingStrategy
  tokenFactory : Serialize τ
  refreshTokenIssuer : Option (IssueRefreshToken τ)

namespace BaseNegotiator

variable {τ : Type}

/-- A call to a service that works on the token state. -/
def onTokens {α : Type} (p : Async τ HttpError α) : Async (NegotiatorState τ) HttpError α := do
  let result ← p.zoom NegotiatorState.tokens NegotiatorState.setTokens
  Async.yield
  return result

/-- `ticketStore.get` and `ticketStore.delete`, each atomic and awaited. -/
def takeTicket (id : String) : Async (NegotiatorState τ) HttpError Ticket := do
  let s ← Async.get
  Async.yield
  match s.ticketStore.get id with
  | none => throw (.badRequest "The provided ticket is not valid.")
  | some stored =>
    Async.modify fun s => { s with ticketStore := s.ticketStore.delete id }
    Async.yield
    return stored

def getTicket (negotiator : BaseNegotiator τ) (input : DialogInput) :
    Async (NegotiatorState τ) HttpError Ticket :=
  match input.ticket with
  | some ticket => takeTicket ticket
  | none =>
    match input.permissions with
    | none => throw (.badRequest
        "A token request without existing ticket should include requested permissions.")
    | some permissions => do
      let ticket ← negotiator.ticketingStrategy.initializeTicket permissions
      Async.yield
      return ticket

/-- The claims are verified and added to the ticket one by one. -/
def processCredentials (negotiator : BaseNegotiator τ) :
    List ClaimToken → Ticket → Async (NegotiatorState τ) HttpError Ticket
  | [], ticket => return ticket
  | claim :: claims, ticket =>
    match DialogInput.truthy claim.claimToken, DialogInput.truthy claim.claimTokenFormat with
    | some token, some format => do
      let verified ← onTokens (negotiator.verifier { token, format })
      let ticket ← negotiator.ticketingStrategy.validateClaims ticket verified
      Async.yield
      negotiator.processCredentials claims ticket
    | _, _ => throw (.badRequest
        ("Every claim requires both a token and format, received \x7b claim_token: " ++
          claim.claimToken.getD "undefined" ++ ", claim_token_format: " ++
          claim.claimTokenFormat.getD "undefined" ++ " \x7d"))

/-- Whether some requested entry has no granted entry with the same scopes. -/
def isPartialResult (requested granted : List Permission) : Bool :=
  requested.length != granted.length ||
    requested.any fun request =>
      !granted.any fun grant =>
        grant.resourceId == request.resourceId &&
          grant.resourceScopes.length == request.resourceScopes.length &&
          request.resourceScopes.all (fun scope => grant.resourceScopes.contains scope)

/-- The subject of the token: the first original WebID, else the first WebID,
where that is a string. -/
def tokenSub (provided : ClaimSet) : Option String :=
  match provided.get ORIGINAL_WEBID with
  | some subs => (subs[0]?).bind Json.asString?
  | none => ((provided.values WEBID)[0]?).bind Json.asString?

/-- The token a success is turned into. -/
def mintedToken (ticket : Ticket) (granted : List Permission) : AccessToken :=
  { permissions := granted, sub := tokenSub ticket.provided }

/-- A refresh token, where an issuer is configured. -/
def issueRefreshToken (negotiator : BaseNegotiator τ) (provided : ClaimSet)
    (granted : List Permission) : Async (NegotiatorState τ) HttpError (Option String) :=
  match negotiator.refreshTokenIssuer with
  | none => return none
  | some issue => do
    let refreshToken ← onTokens (issue provided granted)
    return some refreshToken

def grant (negotiator : BaseNegotiator τ) (ticket : Ticket) (granted : List Permission) :
    Async (NegotiatorState τ) HttpError DialogOutput := do
  let serialized ← onTokens (negotiator.tokenFactory (mintedToken ticket granted))
  let refreshToken ← negotiator.issueRefreshToken ticket.provided granted
  return {
    accessToken := serialized.token
    tokenType := serialized.tokenType
    refreshToken
    isPartial := isPartialResult ticket.permissions granted }

/-- Deny if there are no solvable requirements, and ask for more information
under a new ticket otherwise. -/
def denyRequest (randomUUID : String) (ticket : Ticket) (requirements : List RequiredClaim) :
    Async (NegotiatorState τ) HttpError DialogOutput :=
  if requirements.length = 0 then throw (.forbidden "Request denied")
  else do
    Async.modify fun s => { s with ticketStore := s.ticketStore.set randomUUID ticket }
    throw (.needInfo "Need more info to authorize request ..." randomUUID requirements)

def negotiate (negotiator : BaseNegotiator τ) (randomUUID : String) (input : Json) :
    Async (NegotiatorState τ) HttpError DialogOutput :=
  match DialogInput.assertion input with
  | .error message => throw (.error message)
  | .ok () => do
    let dialogInput := DialogInput.ofJson input
    let ticket ← negotiator.getTicket dialogInput
    let updatedTicket ← negotiator.processCredentials dialogInput.claimTokens ticket
    let resolved ← negotiator.ticketingStrategy.resolveTicket updatedTicket
    Async.yield
    match resolved with
    | .success granted => negotiator.grant updatedTicket granted
    | .failure requirements =>
      denyRequest randomUUID { ticket with provided := updatedTicket.provided } requirements

end BaseNegotiator

end UserManagedAccess.Dialog
