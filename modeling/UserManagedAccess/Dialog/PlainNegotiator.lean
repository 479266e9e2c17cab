/-
UserManagedAccess.Dialog.PlainNegotiator — negotiations whose verifier and
token factory have no state of their own.

Such a negotiation is a function of the ticket store and the request:
`run_takeTicket`, `run_processCredentials` and `run_negotiate` say which.
-/
import UserManagedAccess.Dialog.BaseNegotiator

namespace UserManagedAccess.Dialog

open UserManagedAccess.Lib UserManagedAccess.Util UserManagedAccess.Views
open UserManagedAccess.Credentials UserManagedAccess.Ticketing UserManagedAccess.Tokens

/-- A `BaseNegotiator` with a pure verifier and token factory, and no refresh
tokens. -/
def plainNegotiator (verify : Credential → Except HttpError ClaimSet) (codec : TokenCodec)
    (ticketingStrategy : TicketingStrategy) : BaseNegotiator Unit where
  verifier credential := liftM (verify credential)
  ticketingStrategy
  tokenFactory token := pure (codec.serialize token)
  refreshTokenIssuer := none

namespace PlainNegotiator

/-- What one pushed claim is verified to. -/
def verifyClaim (verify : Credential → Except HttpError ClaimSet) (claim : ClaimToken) :
    Except HttpError ClaimSet :=
  match DialogInput.truthy claim.claimToken, DialogInput.truthy claim.claimTokenFormat with
  | some token, some format => verify { token, format }
  | _, _ => .error (.badRequest
      ("Every claim requires both a token and format, received \x7b claim_token: " ++
        claim.claimToken.getD "undefined" ++ ", claim_token_format: " ++
        claim.claimTokenFormat.getD "undefined" ++ " \x7d"))

def pushClaim (verify : Credential → Except HttpError ClaimSet) (strategy : TicketingStrategy)
    (ticket : Ticket) (claim : ClaimToken) : Except HttpError Ticket := do
  let verified ← verifyClaim verify claim
  strategy.validateClaims ticket verified

variable {verify : Credential → Except HttpError ClaimSet} {codec : TokenCodec}
  {strategy : TicketingStrategy} {s : NegotiatorState Unit}

theorem run_onTokens {α : Type} (r : Except HttpError α) :
    (BaseNegotiator.onTokens (liftM r : Async Unit HttpError α)).run s = (r, s) := by
  cases r <;> rfl

theorem run_processCredentials_cons (claim : ClaimToken) (claims : List ClaimToken)
    (ticket : Ticket) :
    ((plainNegotiator verify codec strategy).processCredentials (claim :: claims) ticket).run s =
      match pushClaim verify strategy ticket claim with
      | .error e => (.error e, s)
      | .ok ticket' =>
        ((plainNegotiator verify codec strategy).processCredentials claims ticket').run s := by
  rw [BaseNegotiator.processCredentials]
  unfold pushClaim verifyClaim
  rcases DialogInput.truthy claim.claimToken with _ | token
  · rfl
  rcases DialogInput.truthy claim.claimTokenFormat with _ | format
  · rfl
  show Async.run (BaseNegotiator.onTokens (liftM (verify { token, format })) >>= _) s = _
  rcases hverify : verify { token, format } with e | verified
  · rw [Async.run_bind_of_error (run_onTokens _)]
    simp [hverify, bind, Except.bind]
  rw [Async.run_bind_of_ok (run_onTokens _)]
  show Async.run (liftM (strategy.validateClaims ticket verified) >>= _) s = _
  rcases hvalid : strategy.validateClaims ticket verified with e | ticket'
  · rw [Async.run_bind_of_error (Async.run_lift _ _)]
    simp [hverify, hvalid, bind, Except.bind]
  · rw [Async.run_bind_of_ok (Async.run_lift _ _), Async.run_bind_of_ok (Async.run_yield _)]
    simp [hverify, hvalid, bind, Except.bind]

theorem run_processCredentials (claims : List ClaimToken) (ticket : Ticket) :
    ((plainNegotiator verify codec strategy).processCredentials claims ticket).run s =
      (claims.foldlM (pushClaim verify strategy) ticket, s) := by
  induction claims generalizing ticket with
  | nil => rfl
  | cons claim claims ih =>
    rw [run_processCredentials_cons, List.foldlM_cons]
    cases pushClaim verify strategy ticket claim with
    | error e => rfl
    | ok ticket' => exact ih ticket'

/-- The state once the ticket is taken out of the store. -/
def taken (s : NegotiatorState Unit) (id : String) : NegotiatorState Unit :=
  { s with ticketStore := s.ticketStore.delete id }

/-- The output for a minted token. -/
def output (codec : TokenCodec) (updated : Ticket) (granted : List Permission) : DialogOutput where
  accessToken := (codec.serialize (BaseNegotiator.mintedToken updated granted)).token
  tokenType := (codec.serialize (BaseNegotiator.mintedToken updated granted)).tokenType
  isPartial := BaseNegotiator.isPartialResult updated.permissions granted

/-- How a negotiation on `ticket` ends, once the claims made it `updated`. -/
def ending (codec : TokenCodec) (randomUUID : String) (ticket updated : Ticket)
    (s : NegotiatorState Unit) :
    Result (List Permission) (List RequiredClaim) →
      Except HttpError DialogOutput × NegotiatorState Unit
  | .success granted => (.ok (output codec updated granted), s)
  | .failure requirements =>
    if requirements.length = 0 then (.error (.forbidden "Request denied"), s)
    else (.error (.needInfo "Need more info to authorize request ..." randomUUID requirements),
      { s with ticketStore :=
          s.ticketStore.set randomUUID { ticket with provided := updated.provided } })

theorem run_takeTicket {id : String} {ticket : Ticket} (h : s.ticketStore.get id = some ticket) :
    (BaseNegotiator.takeTicket id).run s = (.ok ticket, taken s id) := by
  unfold BaseNegotiator.takeTicket
  rw [Async.run_bind_of_ok (Async.run_get s), Async.run_bind_of_ok (Async.run_yield s), h]
  rfl

/-- What follows once the ticket is there. -/
theorem run_resolve (randomUUID : String) (ticket updated : Ticket) :
    Async.run (do
      let resolved ← strategy.resolveTicket updated
      Async.yield
      match resolved with
      | .success granted => (plainNegotiator verify codec strategy).grant updated granted
      | .failure requirements =>
        BaseNegotiator.denyRequest randomUUID { ticket with provided := updated.provided }
          requirements : Async (NegotiatorState Unit) HttpError DialogOutput) s =
      match strategy.resolveTicket updated with
      | .error e => (.error e, s)
      | .ok result => ending codec randomUUID ticket updated s result := by
  rcases strategy.resolveTicket updated with e | result
  · rfl
  cases result with
  | success granted => rfl
  | failure requirements =>
    show Async.run (BaseNegotiator.denyRequest _ _ _) s = ending _ _ _ _ _ (.failure requirements)
    unfold BaseNegotiator.denyRequest ending
    by_cases hnone : requirements.length = 0
    · simp only [hnone, if_true]
      rfl
    · simp only [hnone, if_false]
      rfl

/-- A request with a known ticket. -/
theorem run_negotiate {input : Json} {randomUUID id : String} {ticket : Ticket}
    (haccepted : DialogInput.assertion input = .ok ())
    (hid : (DialogInput.ofJson input).ticket = some id)
    (hstored : s.ticketStore.get id = some ticket) :
    ((plainNegotiator verify codec strategy).negotiate randomUUID input).run s =
      match (DialogInput.ofJson input).claimTokens.foldlM (pushClaim verify strategy) ticket with
      | .error e => (.error e, taken s id)
      | .ok updated =>
        match strategy.resolveTicket updated with
        | .error e => (.error e, taken s id)
        | .ok result => ending codec randomUUID ticket updated (taken s id) result := by
  have hget : ((plainNegotiator verify codec strategy).getTicket
      (DialogInput.ofJson input)).run s = (.ok ticket, taken s id) := by
    unfold BaseNegotiator.getTicket
    rw [hid]
    exact run_takeTicket hstored
  unfold BaseNegotiator.negotiate
  rw [haccepted]
  show Async.run (BaseNegotiator.getTicket _ _ >>= _) s = _
  rw [Async.run_bind_of_ok hget]
  rcases hpush : (DialogInput.ofJson input).claimTokens.foldlM (pushClaim verify strategy) ticket
    with e | updated
  · rw [Async.run_bind_of_error ((run_processCredentials _ _).trans (by rw [hpush]))]
  · rw [Async.run_bind_of_ok ((run_processCredentials _ _).trans (by rw [hpush]))]
    exact run_resolve randomUUID ticket updated

end PlainNegotiator

end UserManagedAccess.Dialog
