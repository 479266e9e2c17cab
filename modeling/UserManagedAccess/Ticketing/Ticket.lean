/-
UserManagedAccess.Ticketing.Ticket — tickets and the interface of a ticketing
strategy.
-/
import UserManagedAccess.Credentials.Claims
import UserManagedAccess.Util.Errors
import UserManagedAccess.Views.Permission

namespace UserManagedAccess.Ticketing

open UserManagedAccess.Lib UserManagedAccess.Util UserManagedAccess.Views
open UserManagedAccess.Credentials

structure Ticket where
  /-- Identifiers that were not part of the request but got included because
  other identifiers require them. -/
  derivedIds : Option (List String) := none
  permissions : List Permission
  provided : ClaimSet

/-- `ticket.derivedIds?.includes(id)`. -/
def Ticket.isDerived (ticket : Ticket) (id : String) : Bool :=
  match ticket.derivedIds with
  | some derivedIds => derivedIds.contains id
  | none => false

@[simp] theorem Ticket.isDerived_some {ids : List String} {ps : List Permission}
    {provided : ClaimSet} {id : String} :
    (Ticket.mk (some ids) ps provided).isDerived id = true ↔ id ∈ ids := by
  simp [Ticket.isDerived]

/-- `TicketingStrategy.ts`. -/
structure TicketingStrategy where
  initializeTicket : List Permission → Except HttpError Ticket
  validateClaims : Ticket → ClaimSet → Except HttpError Ticket
  resolveTicket : Ticket → Except HttpError (Result (List Permission) (List RequiredClaim))

end UserManagedAccess.Ticketing
