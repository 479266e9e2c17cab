/-
UserManagedAccess.Policies.Authorizers.BasicAuthorizers — the authorizers
that decide without policies.
-/
import UserManagedAccess.Policies.Authorizers.Authorizer

namespace UserManagedAccess.Policies

open UserManagedAccess.Util UserManagedAccess.Views UserManagedAccess.Credentials

/-- The permission an entry of a query is granted as. -/
def grantAsked (permission : PartialPermission) : Permission where
  resourceId := permission.resourceId.getD ANY_RESOURCE
  resourceScopes := permission.resourceScopes.getD [ANY_SCOPE]

/-- `AllAuthorizer.ts`. -/
def allAuthorizer : Authorizer := fun _ query =>
  match query with
  | some query => .ok (query.map grantAsked)
  | none => .ok [{ resourceId := ANY_RESOURCE, resourceScopes := [ANY_SCOPE] }]

/-- `NoneAuthorizer.ts`. -/
def noneAuthorizer : Authorizer := fun _ _ => .ok []

/-- `WebIdAuthorizer.ts`. -/
def webIdAuthorizer (webids : List String) : Authorizer := fun claims query =>
  if (claims.values WEBID).any (fun webId => webids.any (fun known => webId.isString known)) then
    .ok ((query.getD []).map grantAsked)
  else .ok []

/-! ## Full queries -/

theorem map_grantAsked (permissions : List Permission) :
    (permissions.map Permission.toPartial).map grantAsked = permissions := by
  rw [List.map_map]
  exact List.map_id _

theorem allAuthorizer_fullQuery (claims : ClaimSet) (permissions : List Permission) :
    allAuthorizer claims (fullQuery permissions) = .ok permissions := by
  simp only [allAuthorizer, fullQuery, map_grantAsked]

end UserManagedAccess.Policies
