/-
UserManagedAccess.Dialog.ConcurrentNegotiations — negotiations that run at the
same time on one ticket store.

Taking a ticket is a `get` and a `delete` with a pause in between, and the
negotiation for a derivation writes the ticket it has read back before the
wrapped one takes it.
-/
import UserManagedAccess.Dialog.AggregatorNegotiator
import UserManagedAccess.Lib.Interleaving

namespace UserManagedAccess.Dialog

open UserManagedAccess.Lib UserManagedAccess.Util UserManagedAccess.Ticketing

variable {τ : Type}

namespace NegotiatorState

def setTicket (id : String) (ticket : Ticket) (s : NegotiatorState τ) : NegotiatorState τ :=
  { s with ticketStore := s.ticketStore.set id ticket }

def deleteTicket (id : String) (s : NegotiatorState τ) : NegotiatorState τ :=
  { s with ticketStore := s.ticketStore.delete id }

end NegotiatorState

/-- A call to `AggregatorNegotiator.negotiate` over a `BaseNegotiator`. -/
structure NegotiateCall (τ : Type) where
  negotiator : BaseNegotiator τ
  encodeAggregateId : String → String
  randomUUID : String
  input : Json

namespace NegotiateCall

def ticket (call : NegotiateCall τ) : Option String := (DialogInput.ofJson call.input).ticket

def negotiate (call : NegotiateCall τ) : Async (NegotiatorState τ) HttpError DialogOutput :=
  AggregatorNegotiator.negotiate
    { negotiator := call.negotiator.negotiate call.randomUUID
      encodeAggregateId := call.encodeAggregateId } call.input

end NegotiateCall

/-! ## What the next step of a negotiation does -/

/-- It accepts the ticket with this id: it has found the ticket, and deletes it. -/
def Consumes (p : Async (NegotiatorState τ) HttpError DialogOutput) (id : String) : Prop :=
  p.Begins (Async.modify (NegotiatorState.deleteTicket id))

def Writes (p : Async (NegotiatorState τ) HttpError DialogOutput) (id : String) : Prop :=
  ∃ ticket, p.Begins (Async.modify (NegotiatorState.setTicket id ticket))

/-- The ticket a step deletes or writes back is still in the store. -/
structure SafeTicketStep (call : NegotiateCall τ)
    (p : Async (NegotiatorState τ) HttpError DialogOutput) (s : NegotiatorState τ) : Prop where
  deletes : ∀ id, Consumes p id → (s.ticketStore.get id).isSome
  writesBack : ∀ id, call.ticket = some id → Writes p id → (s.ticketStore.get id).isSome

/-! ## Runs -/

variable {ι : Type} [DecidableEq ι]

/-- The negotiations after a schedule. -/
def negotiationsAfter (calls : ι → NegotiateCall τ) (s : NegotiatorState τ) (schedule : List ι) :
    Pool ι (NegotiatorState τ) HttpError DialogOutput :=
  (Pool.start (fun i => (calls i).negotiate) s).run schedule

/-- Once a negotiation has accepted a ticket id, the id is not in the store
again, and no negotiation accepts it. -/
def TicketsSingleUse (calls : ι → NegotiateCall τ) (s : NegotiatorState τ) (schedule : List ι) :
    Prop :=
  ∀ before i between later id, schedule = before ++ i :: (between ++ later) →
    Consumes ((negotiationsAfter calls s before).processes i) id →
      (negotiationsAfter calls s (before ++ i :: between)).state.ticketStore.get id = none ∧
      ∀ j, later.head? = some j →
        ¬ Consumes ((negotiationsAfter calls s (before ++ i :: between)).processes j) id

def SafeTicketRun (calls : ι → NegotiateCall τ) (s : NegotiatorState τ) (schedule : List ι) :
    Prop :=
  ∀ before i later, schedule = before ++ i :: later →
    SafeTicketStep (calls i) ((negotiationsAfter calls s before).processes i)
      (negotiationsAfter calls s before).state

end UserManagedAccess.Dialog
