/-
UserManagedAccess.Controller.PolicyController — the controller of the policy
endpoint (`PolicyRequestController.ts`).
-/
import UserManagedAccess.Controller.BaseController

namespace UserManagedAccess.Controller

open UserManagedAccess.Lib UserManagedAccess.Rdf UserManagedAccess.Util UserManagedAccess.Ucp

/-- The parser and the query engine. -/
structure PolicyEnvironment extends QueryEngine where
  parse : String → Except HttpError (List Quad)

/-- `new PolicyController(store)`. Evaluating a query is awaited. -/
def policyController {σ : Type} (env : PolicyEnvironment) (store : UCRulesStorage σ) :
    BaseController σ where
  store
  parse := env.parse
  sanitizePost data resourceOwner := do
    let posted ← postPolicy env.toQueryEngine data resourceOwner
    Async.yield
    return posted
  sanitizeDelete data policyID resourceOwner := do
    Async.yield
    let policy ← getPolicy env.toQueryEngine data policyID resourceOwner
    return data.difference policy
  sanitizeGets data resourceOwner := do
    Async.yield
    getPolicies env.toQueryEngine data resourceOwner
  sanitizeGet data policyID resourceOwner := do
    Async.yield
    getPolicy env.toQueryEngine data policyID resourceOwner
  sanitizePatch data _ resourceOwner query := do
    let patched ← patchPolicy env.toQueryEngine data resourceOwner query
    Async.yield
    return patched

/-- Every body is this document and every update has this effect. A query that
is no graph pattern is refused, and the blank nodes of solutions have a prefix. -/
def fixedEnvironment (document : List Quad) (update : Store → Store) : PolicyEnvironment where
  parse _ := .ok document
  queryBindings _ _ := .error (.error "Parse error")
  queryVoid _ store := .ok (update store)
  scopedLabel label := "bc_0_" ++ label

end UserManagedAccess.Controller
