/-
UserManagedAccess.Controller.BaseController — the operations of the policy
and access request endpoints.

A controller is given by its `sanitize…` functions. Each `await` is the call
and then a pause. A message is the store it serializes.

Where the source changes a copy of the store in place, the function that
changes it returns the changed copy.
-/
import UserManagedAccess.Controller.RouteSpecific
import UserManagedAccess.Ucp.UCRulesStorage

namespace UserManagedAccess.Controller

open UserManagedAccess.Lib UserManagedAccess.Rdf UserManagedAccess.Util UserManagedAccess.Ucp

structure BaseController (σ : Type) where
  store : UCRulesStorage σ
  /-- `new Parser().parse`. -/
  parse : String → Except HttpError (List Quad)
  sanitizePost : Store → (clientID : String) → Async σ HttpError (Store × String)
  sanitizeDelete : Store → (entityID clientID : String) → Async σ HttpError Store
  sanitizeGets : Store → (clientID : String) → Async σ HttpError Store
  sanitizeGet : Store → (entityID clientID : String) → Async σ HttpError Store
  sanitizePatch : Store → (entityID clientID patchInformation : String) →
    Async σ HttpError Store

structure ControllerResponse where
  status : Nat
  message : Store := Store.empty
  id : String := ""

namespace BaseController

variable {σ : Type}

def getEntities (controller : BaseController σ) (clientID : String) :
    Async σ HttpError ControllerResponse := do
  let live ← controller.store.getStore
  let message ← controller.sanitizeGets live clientID
  Async.yield
  return { status := 200, message }

def getEntity (controller : BaseController σ) (entityID clientID : String) :
    Async σ HttpError ControllerResponse := do
  let live ← controller.store.getStore
  let message ← controller.sanitizeGet live entityID clientID
  Async.yield
  return { status := 200, message }

def addEntity (controller : BaseController σ) (data clientID : String) :
    Async σ HttpError ControllerResponse := do
  let quads ← controller.parse data
  let (result, id) ← controller.sanitizePost (Store.ofQuads quads) clientID
  Async.yield
  let live ← controller.store.getStore
  if noAlreadyDefinedSubjects live result then
    -- the only call of the storage that is not awaited
    Async.forget (controller.store.addRule result)
    return { status := 201, id }
  else throw (.conflict "")

def deleteEntity (controller : BaseController σ) (entityID clientID : String) :
    Async σ HttpError ControllerResponse := do
  let live ← controller.store.getStore
  let filteredStore ← controller.sanitizeDelete live entityID clientID
  Async.yield
  let live ← controller.store.getStore
  controller.store.removeData (live.difference filteredStore)
  Async.yield
  return { status := 204 }

/-- The end of `patchEntity`: write the difference to the current store back. -/
def writeBack (controller : BaseController σ) (filteredStore : Store) :
    Async σ HttpError ControllerResponse := do
  let originalStore ← controller.store.getStore
  let remove := originalStore.difference filteredStore
  let add := filteredStore.difference originalStore
  if remove.size > 0 then
    controller.store.removeData remove
    Async.yield
  if add.size > 0 then
    controller.store.addRule add
    Async.yield
  return { status := 204 }

def patchEntity (controller : BaseController σ) (entityID patchInformation clientID : String)
    (isolate : Bool) : Async σ HttpError ControllerResponse := do
  let live ← controller.store.getStore
  if isolate then
    let isolated ← controller.sanitizeGet live entityID clientID
    Async.yield
    let live ← controller.store.getStore
    let omitStore := live.difference isolated
    let patched ← controller.sanitizePatch isolated entityID clientID patchInformation
    Async.yield
    -- isolate again, because the update could have inserted other information
    let filteredStore ← controller.sanitizeGet patched entityID clientID
    Async.yield
    controller.writeBack (omitStore.addAll filteredStore)
  else
    let filteredStore ← controller.sanitizePatch live entityID clientID patchInformation
    Async.yield
    controller.writeBack filteredStore

def putEntity (controller : BaseController σ) (data entityID clientID : String) :
    Async σ HttpError ControllerResponse := do
  let getResult ← controller.getEntity entityID clientID
  Async.yield
  if getResult.status ≠ 200 then return { status := 404 }
  let quads ← controller.parse data
  let (result, _) ← controller.sanitizePost (Store.ofQuads quads) clientID
  Async.yield
  let _ ← controller.deleteEntity entityID clientID
  Async.yield
  controller.store.addRule result
  Async.yield
  return { status := 204 }

end BaseController

end UserManagedAccess.Controller
