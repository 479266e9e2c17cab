/-
UserManagedAccess.Controller.PolicyShape — the policies, rules and assigners
of a store, as the documentation of the policy endpoint speaks of them.

A rule is what a policy links as a permission, a prohibition or an
obligation, or what is typed as one. Nothing here looks at how the endpoint
finds or checks them.
-/
import UserManagedAccess.Controller.RouteSpecific
import UserManagedAccess.Rdf.Links

namespace UserManagedAccess.Controller

open UserManagedAccess.Rdf UserManagedAccess.Util

/-! ## Rules -/

def ruleLinks : List Term := [ODRL.permission, ODRL.prohibition, ODRL.obligation]

def ruleTypes : List Term := [ODRL.Permission, ODRL.Prohibition, ODRL.Duty]

def LinksRule (store : Store) (policy rule : Term) : Prop :=
  ∃ link ∈ ruleLinks, store.Linked policy link rule

def IsRule (store : Store) (rule : Term) : Prop :=
  (∃ policy, LinksRule store policy rule) ∨
    ∃ type ∈ ruleTypes, store.Linked rule RDF.type type

/-! ## Assigners -/

def Assigns (store : Store) (clientID : String) (rule : Term) : Prop :=
  store.Linked rule ODRL.assigner (.namedNode clientID)

/-- The client is the one and only assigner of the rule. -/
def SoleAssigner (store : Store) (clientID : String) (rule : Term) : Prop :=
  ∀ assigner, store.Linked rule ODRL.assigner assigner ↔ assigner = .namedNode clientID

/-- The rule has an assigner, but it is not the client. -/
def ForeignRule (store : Store) (clientID : String) (rule : Term) : Prop :=
  (∃ assigner, store.Linked rule ODRL.assigner assigner) ∧ ¬ Assigns store clientID rule

/-! ## Policies -/

def IsPolicy (store : Store) (policy : Term) : Prop :=
  isPolicyType store policy = true ∨ ∃ rule, LinksRule store policy rule

/-- None of the rules of the policy is assigned by the client. -/
def ForeignPolicy (store : Store) (clientID : String) (policy : Term) : Prop :=
  IsPolicy store policy ∧ ∀ rule, LinksRule store policy rule → ¬ Assigns store clientID rule

end UserManagedAccess.Controller
