/-
UserManagedAccess.Policies.Authorizers.Authorizer — what an authorizer is.

An authorizer answers a claim set and a query with the permissions it grants,
or throws. It may read stores; an `Authorizer` is what it does for one state
of those.
-/
import UserManagedAccess.Credentials.Claims
import UserManagedAccess.Util.Errors
import UserManagedAccess.Views.Permission

namespace UserManagedAccess.Policies

open UserManagedAccess.Util UserManagedAccess.Views UserManagedAccess.Credentials

def ANY_RESOURCE : String := "urn:solidlab:uma:resources:any"
def ANY_SCOPE : String := "urn:solidlab:uma:scopes:any"

abbrev Authorizer :=
  ClaimSet → Option (List PartialPermission) → Except HttpError (List Permission)

/-- A query that names an id and scopes in every entry. -/
def fullQuery (permissions : List Permission) : Option (List PartialPermission) :=
  some (permissions.map Permission.toPartial)

end UserManagedAccess.Policies
