/-
UserManagedAccess.Routes.ConcurrentRefreshes — requests at the token endpoint
that run at the same time, and the refresh tokens they use.

A request uses a refresh token it presents itself, for the refresh grant or as
a pushed claim. The ticket store hands out the stored object, and claims are
pushed into it: the claims of a token also count for every other request that gets
hold of the same ticket, at the same time or when it continues the dialog. What
such a request makes of claims it did not push is left to its strategy, which may
be any function.
-/
import UserManagedAccess.Lib.Rely
import UserManagedAccess.Routes.RefreshTokenTheorems
import UserManagedAccess.Routes.TokenHistory

namespace UserManagedAccess.Routes

open UserManagedAccess.Lib UserManagedAccess.Util UserManagedAccess.Views
open UserManagedAccess.Credentials UserManagedAccess.Dialog UserManagedAccess.Tokens
open UserManagedAccess.Ticketing

namespace TokenRequest

/-- The request is a refresh grant of this token. -/
def Refreshes (request : TokenRequest) (token : String) : Prop :=
  ∃ params, request.grant = .refresh params ∧
    RefreshTokenHandler.readRefreshToken params = .ok token

/-- The request pushes this token as a claim. -/
def Pushes (request : TokenRequest) (token : String) : Prop :=
  ∃ input, request.grant = .negotiate input ∧ ∃ claim ∈ (DialogInput.ofJson input).claimTokens,
    DialogInput.truthy claim.claimToken = some token ∧
    DialogInput.truthy claim.claimTokenFormat = some REFRESH_TOKEN

/-- The request has a ticket with this identifier. -/
def HasTicket (request : TokenRequest) (id : String) : Prop :=
  ∃ input, request.grant = .negotiate input ∧ (DialogInput.ofJson input).ticket = some id

/-- The request has the ticket that the other one hands out when it asks for
more claims. -/
def Continues (request other : TokenRequest) : Prop := request.HasTicket other.randomUUID

/-- The two requests get hold of one ticket. -/
def SharesTicket (request other : TokenRequest) : Prop :=
  request.Continues other ∨ other.Continues request ∨
    ∃ id, request.HasTicket id ∧ other.HasTicket id

end TokenRequest

variable {ι : Type}

/-- The claims of the refresh token count for the request. -/
inductive Uses (requests : ι → TokenRequest) (token : String) : ι → Prop
  | refreshes {i} (h : (requests i).Refreshes token) : Uses requests token i
  | pushes {i} (h : (requests i).Pushes token) : Uses requests token i
  | shares {i j} (h : (requests i).SharesTicket (requests j)) (hj : Uses requests token j) :
      Uses requests token i

abbrev TokenPool (ι : Type) := Pool ι (NegotiatorState TokenState) HttpError DialogOutput

namespace TokenPool

def start (services : TokenServices) (base : IriBase) (requests : ι → TokenRequest)
    (s : NegotiatorState TokenState) : TokenPool ι :=
  Pool.start (fun i => (requests i).handle services base) s

variable (pool : TokenPool ι)

def Succeeded (i : ι) : Prop := ∃ output, pool.processes i = .done (.ok output)

def Failed (i : ι) : Prop := ∃ e, pool.processes i = .done (.error e)

def Started (i : ι) : Prop := pool.seen i ≠ []

/-- No refresh token counts for two requests that succeed. -/
def SingleUse (services : TokenServices) (requests : ι → TokenRequest) : Prop :=
  ∀ n i j, i ≠ j → Uses requests (services.randomUUID n) i →
    Uses requests (services.randomUUID n) j → ¬ (pool.Succeeded i ∧ pool.Succeeded j)

/-- A request that uses a refresh token starts when no other one is at it: the
others have not started, have failed, or, if the new request presents the
token itself, are refresh grants that are done. -/
def SafeStep (services : TokenServices) (requests : ι → TokenRequest) (i : ι) : Prop :=
  ¬ pool.Started i → ∀ n j, j ≠ i → Uses requests (services.randomUUID n) i →
    Uses requests (services.randomUUID n) j → pool.Started j →
      pool.Failed j ∨ (pool.Succeeded j ∧ (requests j).Refreshes (services.randomUUID n) ∧
        ((requests i).Refreshes (services.randomUUID n) ∨
          (requests i).Pushes (services.randomUUID n)))

end TokenPool

/-- Every step of the schedule is safe. -/
def SafeRefreshes [DecidableEq ι] (services : TokenServices) (base : IriBase)
    (requests : ι → TokenRequest) (s : NegotiatorState TokenState) (schedule : List ι) : Prop :=
  ∀ before i later, schedule = before ++ i :: later →
    TokenPool.SafeStep (Pool.run (TokenPool.start services base requests s) before) services
      requests i

end UserManagedAccess.Routes
