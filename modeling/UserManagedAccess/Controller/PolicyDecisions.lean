/-
UserManagedAccess.Controller.PolicyDecisions — how a POST of a policy can
change the decisions of the simple ODRL authorizer.

Decisions are meant to be changed by the rules of the poster only, and on the
targets these name. `LocalUpload` describes the uploads that keep to this. The
empty name is one a request can have, too: in the lookup of collections it
stands for every node.
-/
import UserManagedAccess.Controller.PolicyControllerTheorems
import UserManagedAccess.Controller.PolicyShape
import UserManagedAccess.Policies.Authorizers.SimpleOdrlAuthorizerTheorems

namespace UserManagedAccess.Controller

open UserManagedAccess.Lib UserManagedAccess.Rdf UserManagedAccess.Util UserManagedAccess.Ucp
open UserManagedAccess.Credentials UserManagedAccess.Policies

/-! ## The property -/

/-- Some uploaded rule of the client is about the resource, or about a
collection the node with this id was part of. -/
def HasLocalRule (store upload : Store) (clientID resource : String) : Prop :=
  ∃ rule target, Assigns upload clientID rule ∧ upload.Linked rule ODRL.target target ∧
    (target = .namedNode resource ∨
      ∃ node : Term, node.id = resource ∧ store.Linked node ODRL.partOf target)

/-- Where an answer of the authorizer changes with the POST, a rule of the
client among the added quads accounts for it. -/
def PostIsLocal (penv : PolicyEnvironment) (data clientID : String) : Prop :=
  ∀ s s' r, ((policyController penv memoryUCRulesStorage).addEntity data clientID).run s =
      (.ok r, s') →
    ∀ env claims resource scope before after,
      SimpleOdrlAuthorizer.getPermissions env s.policies claims resource scope =
        .ok (some before) →
      SimpleOdrlAuthorizer.getPermissions env s'.policies claims resource scope =
        .ok (some after) →
      before ≠ after →
        HasLocalRule s.policies (s'.policies.difference s.policies) clientID resource

/-! ## The uploads that are local -/

/-- For some request to the store posted to, the rules of the upload about it
can all be judged and one of them holds. -/
def LiveFor (store upload : Store) (env : SimpleOdrlAuthorizer.Environment) (claims : ClaimSet)
    (resource scope : String) : Prop :=
  let policies := store.addAll upload
  (∀ rule ∈ SimpleOdrlAuthorizer.candidateRules policies claims resource scope,
      upload.Described rule → SimpleOdrlAuthorizer.Definite env policies claims rule) ∧
    ∃ rule ∈ SimpleOdrlAuthorizer.candidateRules policies claims resource scope,
      upload.Described rule ∧ SimpleOdrlAuthorizer.Valid env policies claims rule

def TargetedByClient (upload : Store) (clientID : String) (target : Term) : Prop :=
  ∃ rule, Assigns upload clientID rule ∧ upload.Linked rule ODRL.target target

structure LocalUpload (upload : Store) (clientID : String) : Prop where
  /-- No name that stands for a node in a lookup becomes part of a collection,
  unless everyone is part of it and the client has a rule on what is named. -/
  partOf : ∀ node group, upload.Linked node ODRL.partOf group → ∀ name, node.named name = true →
    group = .namedNode name ∨ (group = SimpleOdrlAuthorizer.ANONYMOUS ∧
      TargetedByClient upload clientID (.namedNode name))
  /-- No rule of the store is linked as a prohibition. -/
  prohibition : ∀ policy rule, upload.Linked policy ODRL.prohibition rule → upload.Described rule
  /-- Rules never hold for a resource the client has no rule on. -/
  foreignRules : ∀ store, Store.Apart store upload → ∀ resource,
    ¬ HasLocalRule store upload clientID resource → ∀ env claims scope,
      ¬ LiveFor store upload env claims resource scope

end UserManagedAccess.Controller
