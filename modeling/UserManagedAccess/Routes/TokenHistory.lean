/-
UserManagedAccess.Routes.TokenHistory — sequences of requests at the token
endpoint.

What may change from request to request (the policies, what other verifiers
say, the clock) comes with the request. Between two requests the rest of the
server may hand out and take tickets as it likes.
-/
import UserManagedAccess.Routes.RefreshToken

namespace UserManagedAccess.Routes

open UserManagedAccess.Lib UserManagedAccess.Util UserManagedAccess.Views
open UserManagedAccess.Credentials UserManagedAccess.Dialog UserManagedAccess.Tokens
open UserManagedAccess.Ticketing

/-- The two grants that end in a negotiation. -/
inductive TokenGrant where
  | negotiate (input : Json)
  | refresh (params : Json)

structure TokenRequest where
  grant : TokenGrant
  randomUUID : String
  others : String → Option (Credential → Except HttpError (Option ClaimSet))
  strategy : TicketingStrategy

/-- What the token endpoint does for a request. -/
def TokenRequest.handle (services : TokenServices) (base : IriBase) (request : TokenRequest) :
    Async (NegotiatorState TokenState) HttpError DialogOutput :=
  let negotiator := configuredNegotiator services base request.others request.strategy
  match request.grant with
  | .negotiate input => negotiator.negotiate request.randomUUID input
  | .refresh params =>
    RefreshTokenHandler.handle services (negotiator.negotiate request.randomUUID) params

/-- A request that was answered. -/
structure Exchange where
  request : TokenRequest
  before : NegotiatorState TokenState
  answer : Except HttpError DialogOutput
  after : NegotiatorState TokenState

def exchange (services : TokenServices) (base : IriBase) (request : TokenRequest)
    (s : NegotiatorState TokenState) : Exchange where
  request
  before := s
  answer := ((request.handle services base).run s).1
  after := ((request.handle services base).run s).2

/-- The requests answered so far, and the state they led to, from an empty
token store. -/
inductive History (services : TokenServices) (base : IriBase) :
    List Exchange → NegotiatorState TokenState → Prop
  | start {s} (hempty : s.tokens.store = KeyValueStorage.empty) : History services base [] s
  | serve {exchanges s} (request : TokenRequest) : History services base exchanges s →
      History services base (exchanges ++ [exchange services base request s])
        (exchange services base request s).after
  | elsewhere {exchanges s} (ticketStore : KeyValueStorage String Ticket) :
      History services base exchanges s →
      History services base exchanges { s with ticketStore }

/-- The permissions an access token reads back with. -/
def permissionsOf (services : TokenServices) (output : DialogOutput) : List Permission :=
  ((services.deserialize output.accessToken).map AccessToken.permissions).getD []

/-- The second exchange is a refresh with the refresh token of the first. -/
def Refreshes (exchanges : List Exchange) (first second : Exchange) : Prop :=
  first ∈ exchanges ∧ second ∈ exchanges ∧ ∃ output output' params token,
    first.answer = .ok output ∧ output.refreshToken = some token ∧
    second.request.grant = .refresh params ∧
    RefreshTokenHandler.readRefreshToken params = .ok token ∧ second.answer = .ok output'

end UserManagedAccess.Routes
