/-
UserManagedAccess.Policies.Authorizers.AuthorizerTree — the authorizers a
server can be configured with, as a tree.

The objects a namespaced authorizer delegates to form a family indexed by
their handles. The stores in a tree are what the objects read at the time of
one call.
-/
import UserManagedAccess.Policies.Authorizers.BasicAuthorizers
import UserManagedAccess.Policies.Authorizers.NamespacedAuthorizer
import UserManagedAccess.Policies.Authorizers.OdrlAuthorizer

namespace UserManagedAccess.Policies

open UserManagedAccess.Rdf

inductive AuthorizerTree where
  | all
  | none
  | webId (webids : List String)
  | simpleOdrl (env : SimpleOdrlAuthorizer.Environment) (policies : Store)
      (authorizer : AuthorizerTree)
  | odrl (engine : OdrlEngine) (env : OdrlAuthorizer.Environment) (policies : Store)
  | namespaced (settings : NamespacedAuthorizer.Settings) (objects : Nat → AuthorizerTree)

namespace AuthorizerTree

def permissions : AuthorizerTree → Authorizer
  | all => allAuthorizer
  | none => noneAuthorizer
  | webId webids => webIdAuthorizer webids
  | simpleOdrl env policies authorizer =>
    simpleOdrlAuthorizer env policies authorizer.permissions
  | odrl engine env policies => odrlAuthorizer engine env policies
  | namespaced settings objects =>
    namespacedAuthorizer settings (fun handle => (objects handle).permissions)

end AuthorizerTree

end UserManagedAccess.Policies
