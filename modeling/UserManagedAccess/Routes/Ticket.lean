/-
UserManagedAccess.Routes.Ticket — the permission registration endpoint, where
a resource server asks for a ticket.
-/
import UserManagedAccess.Lib.Async
import UserManagedAccess.Ticketing.Ticket
import UserManagedAccess.Util.Http

namespace UserManagedAccess.Routes

open UserManagedAccess.Lib UserManagedAccess.Util UserManagedAccess.Views
open UserManagedAccess.Ticketing

structure TicketRequestHandler where
  ticketingStrategy : TicketingStrategy
  registrationStore : KeyValueStorage String Registration
  validator : RequestValidator

namespace TicketRequestHandler

def unknownResource (resourceId : String) : HttpHandlerResponse where
  status := 400
  body := .object [("error", .string "invalid_resource_id"),
    ("error_description", .string ("Unknown UMA ID " ++ resourceId))]

/-- The handler, on the ticket store as shared state. `randomUUID` is the
identifier a new ticket would get. -/
def handle (handler : TicketRequestHandler) (randomUUID : String)
    (request : HttpHandlerRequest) :
    Async (KeyValueStorage String Ticket) HttpError HttpHandlerResponse := do
  let _ ← handler.validator request
  match ReType.array Permission.assertion request.body with
  | .error message => throw (.badRequest ("Request has bad syntax: " ++ message))
  | .ok () =>
    let body := permissionsOfJson request.body
    match body.find? (fun permission => !handler.registrationStore.has permission.resourceId) with
    | some permission => return unknownResource permission.resourceId
    | none =>
      let ticket ← handler.ticketingStrategy.initializeTicket body
      let resolved ← handler.ticketingStrategy.resolveTicket ticket
      match resolved with
      | .success _ => return { status := 200 }
      | .failure _ =>
        Async.modify (fun ticketStore => ticketStore.set randomUUID ticket)
        return { status := 201, body := .object [("ticket", .string randomUUID)] }

end TicketRequestHandler

end UserManagedAccess.Routes
