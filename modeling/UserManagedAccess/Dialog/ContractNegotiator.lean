/-
UserManagedAccess.Dialog.ContractNegotiator — the negotiation that makes
contracts: `ContractNegotiator.ts`, with the contract manager and the translation
of scopes it uses.

A contract is kept as the JSON value that is written into the token. Only
targets with a name are modelled: with any other the source goes on, as with a
text.
-/
import UserManagedAccess.Dialog.BaseNegotiator
import UserManagedAccess.Util.Forms

namespace UserManagedAccess.Dialog

open UserManagedAccess.Lib UserManagedAccess.Util UserManagedAccess.Views
open UserManagedAccess.Credentials UserManagedAccess.Ticketing UserManagedAccess.Tokens

/-! ## Scopes -/

namespace RequestProcessing

def cssNamespace : String := "urn:example:css:modes:"

def oacNamespace : String := "https://w3id.org/oac#"

/-- `text.replace(old, new)`, for a text that starts with `old`. -/
def replaceStart (text old new : String) : String :=
  String.ofList (new.toList ++ text.toList.drop old.length)

def switchODRLandCSSPermission (permission : String) : Except HttpError String :=
  if cssNamespace.toList <+: permission.toList then
    .ok (replaceStart permission cssNamespace oacNamespace)
  else if oacNamespace.toList <+: permission.toList then
    .ok (replaceStart permission oacNamespace cssNamespace)
  else .error (.error ("Permission " ++ permission ++ " not recognized"))

/-- `convertStringOrJsonLdIdentifierToString`: an empty identifier is not seen. -/
def convertIdentifier (x : Json) : Json :=
  if (x.field "@id").isTruthy then x.field "@id" else x

def switchValue (action : Json) : Except HttpError String :=
  match convertIdentifier action with
  | .string permission => switchODRLandCSSPermission permission
  | _ => .error (.error "permission.startsWith is not a function")

def targetName (target : Json) : Except HttpError String :=
  match convertIdentifier target with
  | .string name => .ok name
  | _ => .error (.error "no name")

def processRequestPermission (permission : Json) : Except HttpError Permission := do
  let resourceId ← targetName (permission.field "target")
  let scope ← switchValue (permission.field "action")
  return { resourceId, resourceScopes := [scope] }

end RequestProcessing

open RequestProcessing

/-! ## Contracts -/

/-- `===` of a value with one from somewhere else: no object is the same. -/
def strictEquals : Json → Json → Bool
  | .undefined, .undefined | .null, .null => true
  | .boolean a, .boolean b => a == b
  | .number a, .number b => a == b
  | .string a, .string b => a == b
  | _, _ => false

/-- The contracts that were stored; nothing stores any. -/
structure ContractManager where
  storage : List Json := []

namespace ContractManager

/-- The loop of `matchContract`. -/
def matchContract (permission : Permission) (assignee : Json) :
    List Json → Except HttpError (Option Json)
  | [] => .ok none
  | contract :: storage =>
    match contract.field "permission" with
    | .array (first :: _) =>
      if !strictEquals (.string permission.resourceId) (first.field "target") then
        matchContract permission assignee storage
      else if !strictEquals assignee (first.field "assignee") then
        matchContract permission assignee storage
      else .ok (some contract)
    | _ => .error (.error "Cannot read properties of undefined (reading 'target')")

def findContract (manager : ContractManager) (ticket : Ticket) : Except HttpError (Option Json) :=
  match ticket.provided.get WEBID with
  | none => .ok none
  | some identifier =>
    match ticket.permissions with
    | [permission] => matchContract permission (.array identifier) manager.storage
    | _ => .ok none

/-- The actions of a contract, each with its target. -/
def permissionPairs (permissions : List Permission) : List (String × String) :=
  permissions.flatMap fun permission =>
    permission.resourceScopes.map fun scope => (scope, permission.resourceId)

def contractPermission (action target : String) : Json :=
  .object [("@type", .string "Permission"),
    ("action", .string action),
    ("target", .string target),
    ("assigner", .string "http://localhost:3000/ruben/profile/card#me"),
    ("assignee", .string "http://localhost:3000/alice/profile/card#me"),
    ("constraint", .array [.object [("@type", .string "Constraint"),
      ("leftOperand", .string "purpose"),
      ("operator", .string "eq"),
      ("rightOperand", .object [("@id", .string "http://example.org/bariatric-care")])]])]

def contractOf (randomUUID : String) (permissions : List Json) : Json :=
  .object [("@context", .string "http://www.w3.org/ns/odrl.jsonld"),
    ("@type", .string "Agreement"),
    ("uid", .string ("urn:uma:pacsoi:agreement:" ++ randomUUID)),
    ("http://purl.org/dc/terms/description",
      .string "Agreement for HCP X to read Alice's health data for bariatric care."),
    ("https://w3id.org/dpv#hasLegalBasis",
      .object [("@id", .string "https://w3id.org/dpv/legal/eu/gdpr#eu-gdpr:A9-2-a")]),
    ("permission", .array permissions)]

def createContract (randomUUID : String) (permissions : List Permission) :
    Except HttpError Json := do
  let permissions ← (permissionPairs permissions).mapM fun pair => do
    let action ← switchODRLandCSSPermission pair.1
    return contractPermission action pair.2
  return contractOf randomUUID permissions

end ContractManager

/-! ## The negotiator -/

structure ContractNegotiator (τ : Type) where
  verifier : Credential → Async τ HttpError ClaimSet
  ticketingStrategy : TicketingStrategy
  tokenFactory : Serialize τ
  contractManager : ContractManager := {}

namespace ContractNegotiator

variable {τ : Type} (negotiator : ContractNegotiator τ)

/-- What it extends: `super(verifier, ticketStore, ticketingStrategy, tokenFactory)`. -/
def base : BaseNegotiator τ where
  verifier := negotiator.verifier
  ticketingStrategy := negotiator.ticketingStrategy
  tokenFactory := negotiator.tokenFactory
  refreshTokenIssuer := none

/-- The input, where ODRL permissions stand in for missing permissions. -/
def readInput (input : Json) : Except HttpError DialogInput :=
  match input.field "permissions", input.field "permission" with
  | .undefined, .array (permission :: permissions) => do
    let processed ← (permission :: permissions).mapM processRequestPermission
    return { DialogInput.ofJson input with permissions := some processed }
  | _, _ => .ok (DialogInput.ofJson input)

/-- Errors of the search are logged. -/
def existingContract (ticket : Ticket) : Option Json :=
  match negotiator.contractManager.findContract ticket with
  | .ok contract => contract
  | .error _ => none

def toContract (randomUUID : String) (ticket : Ticket) :
    Async (NegotiatorState τ) HttpError (Result Json (List RequiredClaim)) :=
  match negotiator.existingContract ticket with
  | some contract => return .success contract
  | none => do
    let resolved ← negotiator.ticketingStrategy.resolveTicket ticket
    Async.yield
    match resolved with
    | .success granted => do
      let contract ← ContractManager.createContract randomUUID granted
      return .success contract
    | .failure requirements => return .failure requirements

/-- A scope is translated where there is a place for it. A name that every object
inherits has none: what `permissionMap[id]` finds there has no scopes. -/
def addScope (permissionMap : Dict Permission) (id : String) (scope : Except HttpError String) :
    Except HttpError (Dict Permission) :=
  match permissionMap.property id with
  | .missing => do
    let scope ← scope
    return permissionMap.set id { resourceId := id, resourceScopes := [scope] }
  | .own known => do
    let scope ← scope
    return permissionMap.set id { known with resourceScopes := known.resourceScopes ++ [scope] }
  | .inherited => .error (.error "Cannot read properties of undefined (reading 'push')")

/-- A permission of a contract has one action. -/
def addPermission (permissionMap : Dict Permission) (permission : Json) :
    Except HttpError (Dict Permission) := do
  let id ← targetName (permission.field "target")
  addScope permissionMap id (switchValue (permission.field "action"))

def contractPermissions (contract : Json) : Except HttpError (List Permission) := do
  let permissionMap ←
    (((contract.field "permission").asArray?).getD []).foldlM addPermission Dict.empty
  return permissionMap.map Prod.snd

/-- The contract is posted to a container, too; how that goes is only logged. -/
def toResponse (contract : Json) (ticket : Ticket) :
    Async (NegotiatorState τ) HttpError DialogOutput := do
  let permissions ← contractPermissions contract
  let serialized ← BaseNegotiator.onTokens (negotiator.tokenFactory
    { permissions, contract := some contract, sub := BaseNegotiator.tokenSub ticket.provided })
  Async.yield
  return { accessToken := serialized.token, tokenType := serialized.tokenType }

def negotiate (ticketId randomUUID : String) (input : Json) :
    Async (NegotiatorState τ) HttpError DialogOutput :=
  match DialogInput.assertion input with
  | .error message => throw (.error message)
  | .ok () => do
    let dialogInput ← readInput input
    let ticket ← negotiator.base.getTicket dialogInput
    let updatedTicket ← negotiator.base.processCredentials dialogInput.claimTokens ticket
    let result ← negotiator.toContract randomUUID updatedTicket
    Async.yield
    match result with
    | .success contract => negotiator.toResponse contract updatedTicket
    | .failure requirements =>
      BaseNegotiator.denyRequest ticketId { ticket with provided := updatedTicket.provided }
        requirements

end ContractNegotiator

end UserManagedAccess.Dialog
