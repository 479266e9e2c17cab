/-
UserManagedAccess.Dialog.AggregatorNegotiator — the negotiation that hands out
derivation identifiers.

A request with the scope `derivation-creation` gets that scope added to its
stored ticket before the wrapped negotiation runs, and the aggregate
identifier of the ticket's resource added to the answer. The scope is read
off the request before its check: the token endpoint has checked it already.
-/
import UserManagedAccess.Dialog.BaseNegotiator
import UserManagedAccess.Util.Vocabularies

namespace UserManagedAccess.Dialog

open UserManagedAccess.Lib UserManagedAccess.Util UserManagedAccess.Views
open UserManagedAccess.Ticketing

/-- `input.scope?.split(' ') ?? []`. -/
def requestedScopes (input : Json) : List String :=
  match input.field "scope" with
  | .string scope => (scope.toList.splitOn ' ').map String.ofList
  | _ => []

/-- The ticket with the scope added to its only permission. -/
def withDerivationCreation (ticket : Ticket) (permission : Permission) : Ticket :=
  { ticket with
    permissions := [{ permission with
      resourceScopes := permission.resourceScopes ++ [UmaScopes.derivationCreation] }] }

structure AggregatorNegotiator (τ : Type) where
  negotiator : Json → Async (NegotiatorState τ) HttpError DialogOutput
  encodeAggregateId : String → String

namespace AggregatorNegotiator

variable {τ : Type}

/-- The identifier in the request, and the ticket stored under it. -/
def getTicket (input : Json) : Async (NegotiatorState τ) HttpError (String × Ticket) :=
  match (DialogInput.ofJson input).ticket with
  | none => throw (.badRequest "Aggregators are only supported when using tickets.")
  | some id => do
    let s ← Async.get
    Async.yield
    match s.ticketStore.get id with
    | none => throw (.badRequest "Unknown ticket ID")
    | some ticket => return (id, ticket)

def negotiateDerivationCreation (aggregator : AggregatorNegotiator τ) (input : Json) :
    Async (NegotiatorState τ) HttpError DialogOutput := do
  -- before the wrapped negotiation, which may delete the stored ticket
  let (id, ticket) ← getTicket input
  match ticket.permissions with
  | [permission] =>
    Async.modify fun s =>
      { s with ticketStore := s.ticketStore.set id (withDerivationCreation ticket permission) }
    Async.yield
    let result ← aggregator.negotiator input
    Async.yield
    return { result with
      derivationResourceId := some (aggregator.encodeAggregateId permission.resourceId) }
  | _ => throw (.badRequest
      "Aggregate token requests require exactly 1 target resource identifier")

def negotiate (aggregator : AggregatorNegotiator τ) (input : Json) :
    Async (NegotiatorState τ) HttpError DialogOutput :=
  if (requestedScopes input).contains UmaScopes.derivationCreation then
    aggregator.negotiateDerivationCreation input
  else aggregator.negotiator input

end AggregatorNegotiator

end UserManagedAccess.Dialog
