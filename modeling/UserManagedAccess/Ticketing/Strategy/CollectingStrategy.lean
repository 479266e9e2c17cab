/-
UserManagedAccess.Ticketing.Strategy.CollectingStrategy — what the strategies
of the server agree on: a fresh ticket has no claims, and pushed claims are
added to those already provided.
-/
import UserManagedAccess.Lib.Except
import UserManagedAccess.Ticketing.Strategy.AggregatorStrategyTheorems

namespace UserManagedAccess.Ticketing

open UserManagedAccess.Lib UserManagedAccess.Util UserManagedAccess.Views
open UserManagedAccess.Credentials UserManagedAccess.Policies

structure CollectingStrategy extends TicketingStrategy where
  provided_initializeTicket : ∀ {permissions ticket},
    initializeTicket permissions = .ok ticket → ticket.provided = Dict.empty
  provided_validateClaims : ∀ {ticket claims ticket'}, validateClaims ticket claims = .ok ticket' →
    ticket'.provided = ImmediateAuthorizerStrategy.provide ticket.provided claims

namespace CollectingStrategy

def immediate (authorizer : Authorizer) (allowPartialSuccess : Bool) : CollectingStrategy where
  toTicketingStrategy := immediateAuthorizerStrategy authorizer allowPartialSuccess
  provided_initializeTicket h := by
    injection h with h
    rw [← h]
  provided_validateClaims h := by
    injection h with h
    rw [← h]

def aggregator (ids : AggregatorIds) (strategy : CollectingStrategy)
    (registrationStore : KeyValueStorage String Registration)
    (derivationStore : KeyValueStorage String String) : CollectingStrategy where
  toTicketingStrategy := aggregatorStrategy ids strategy.toTicketingStrategy
    registrationStore derivationStore
  provided_initializeTicket {permissions ticket} h := by
    obtain ⟨required, -, h⟩ := Except.bind_eq_ok.mp h
    obtain ⟨source, hsource, h⟩ := Except.bind_eq_ok.mp h
    injection h with h
    have hprovided := strategy.provided_initializeTicket hsource
    rw [← h]
    exact hprovided
  provided_validateClaims {ticket claims ticket'} h := by
    obtain ⟨readIds, -, h⟩ := Except.bind_eq_ok.mp h
    obtain ⟨source, hsource, h⟩ := Except.bind_eq_ok.mp h
    injection h with h
    have hprovided := strategy.provided_validateClaims hsource
    rw [← h, AggregatorStrategy.provided_encodeIds]
    exact hprovided

end CollectingStrategy

end UserManagedAccess.Ticketing
