/-
UserManagedAccess.Ticketing.Strategy.ImmediateAuthorizerStrategy — the
strategy that collects claims and asks an authorizer on resolution.
-/
import UserManagedAccess.Policies.Authorizers.Authorizer
import UserManagedAccess.Ticketing.Ticket

namespace UserManagedAccess.Ticketing

open UserManagedAccess.Lib UserManagedAccess.Util UserManagedAccess.Views
open UserManagedAccess.Credentials UserManagedAccess.Policies

namespace ImmediateAuthorizerStrategy

def initializeTicket (permissions : List Permission) : Except HttpError Ticket :=
  .ok { permissions, provided := Dict.empty }

/-- The loop over `Object.keys(claims)`: the values of each claim type are
appended to those already provided. -/
def provide (provided claims : ClaimSet) : ClaimSet :=
  claims.keys.foldl
    (fun provided key => provided.set key (provided.values key ++ claims.values key)) provided

def validateClaims (ticket : Ticket) (claims : ClaimSet) : Except HttpError Ticket :=
  .ok { ticket with provided := provide ticket.provided claims }

def calculatePermissions (authorizer : Authorizer) (ticket : Ticket) :
    Except HttpError (List Permission) := do
  let permissions ← authorizer ticket.provided (fullQuery ticket.permissions)
  return permissions.filter (fun permission => permission.resourceScopes.length > 0)

/-- The scopes of `required`, each with whether some result grants it. -/
def scopeMatch (required : Permission) (results : List Permission) : Dict Bool :=
  results.foldl
    (fun matched result =>
      if required.resourceId ≠ result.resourceId then matched
      else result.resourceScopes.foldl (fun matched scope => matched.set scope true) matched)
    (Dict.fromEntries (required.resourceScopes.map (fun scope => (scope, false))))

def unmatchedScopes (required : Permission) (results : List Permission) : List String :=
  (scopeMatch required results).keys.filter
    (fun scope => (scopeMatch required results).get scope ≠ some true)

def unmatchedPermissions (ticket : Ticket) (results : List Permission) : List Permission :=
  ticket.permissions.filterMap fun required =>
    let scopes := unmatchedScopes required results
    if scopes.length > 0 then
      some { resourceId := required.resourceId, resourceScopes := scopes }
    else none

def resolveTicket (authorizer : Authorizer) (allowPartialSuccess : Bool) (ticket : Ticket) :
    Except HttpError (Result (List Permission) (List RequiredClaim)) := do
  let permissions ← calculatePermissions authorizer ticket
  -- always fail if there are no results at all, even with allowPartialSuccess
  if permissions.length = 0 then return .failure []
  if allowPartialSuccess then return .success permissions
  let unmatched := unmatchedPermissions ticket permissions
  if unmatched.length > 0 then
    return .failure (unmatched.map fun p => { resourceScopes := some p.resourceScopes })
  return .success permissions

end ImmediateAuthorizerStrategy

/-- `new ImmediateAuthorizerStrategy(authorizer, allowPartialSuccess)`. -/
def immediateAuthorizerStrategy (authorizer : Authorizer)
    (allowPartialSuccess : Bool) : TicketingStrategy where
  initializeTicket := ImmediateAuthorizerStrategy.initializeTicket
  validateClaims := ImmediateAuthorizerStrategy.validateClaims
  resolveTicket := ImmediateAuthorizerStrategy.resolveTicket authorizer allowPartialSuccess

end UserManagedAccess.Ticketing
