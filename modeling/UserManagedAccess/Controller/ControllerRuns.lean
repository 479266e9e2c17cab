/-
UserManagedAccess.Controller.ControllerRuns — sequences of requests to the
policy endpoint and the access request endpoint, each answered before the
next one starts.
-/
import UserManagedAccess.Controller.AccessRequestController
import UserManagedAccess.Controller.PolicyController

namespace UserManagedAccess.Controller

open UserManagedAccess.Lib UserManagedAccess.Rdf UserManagedAccess.Util UserManagedAccess.Ucp

/-! ## Operations -/

/-- What a client can ask of an endpoint. -/
inductive EntityOperation where
  | getEntities (clientID : String)
  | getEntity (entityID clientID : String)
  | addEntity (data clientID : String)
  | deleteEntity (entityID clientID : String)
  | patchEntity (entityID patchInformation clientID : String)
  | putEntity (data entityID clientID : String)

/-- A request to one of the endpoints, with what it meets outside. -/
inductive Operation where
  | policy (env : PolicyEnvironment) (operation : EntityOperation)
  | accessRequest (env : AccessRequestEnvironment) (operation : EntityOperation)

def performPolicy (env : PolicyEnvironment) :
    EntityOperation → Async ControllerState HttpError ControllerResponse
  | .getEntities clientID => (policyController env memoryUCRulesStorage).getEntities clientID
  | .getEntity id clientID => (policyController env memoryUCRulesStorage).getEntity id clientID
  | .addEntity data clientID => (policyController env memoryUCRulesStorage).addEntity data clientID
  | .deleteEntity id clientID =>
    (policyController env memoryUCRulesStorage).deleteEntity id clientID
  | .patchEntity id update clientID =>
    (policyController env memoryUCRulesStorage).patchEntity id update clientID true
  | .putEntity data id clientID =>
    (policyController env memoryUCRulesStorage).putEntity data id clientID

def performAccessRequest (env : AccessRequestEnvironment) :
    EntityOperation → Async ControllerState HttpError ControllerResponse
  | .getEntities clientID =>
    (accessRequestController env memoryUCRulesStorage).getEntities clientID
  | .getEntity id clientID =>
    (accessRequestController env memoryUCRulesStorage).getEntity id clientID
  | .addEntity data clientID =>
    AccessRequestController.addEntity env memoryUCRulesStorage data clientID
  | .deleteEntity _ _ => AccessRequestController.deleteEntity
  -- the status of a request is patched without isolating it
  | .patchEntity id status clientID =>
    (accessRequestController env memoryUCRulesStorage).patchEntity id status clientID false
  | .putEntity _ _ _ => AccessRequestController.putEntity

def Operation.perform : Operation → Async ControllerState HttpError ControllerResponse
  | .policy env operation => performPolicy env operation
  | .accessRequest env operation => performAccessRequest env operation

/-! ## Runs -/

/-- The state after the operations, whatever they answered. -/
def runAll (operations : List Operation) (s : ControllerState) : ControllerState :=
  operations.foldl (fun s operation => (operation.perform.run s).2) s

/-- No policies and no requests yet. -/
def start (ownershipStore : KeyValueStorage String (List String)) : ControllerState :=
  { policies := Store.empty, ownershipStore }

end UserManagedAccess.Controller
