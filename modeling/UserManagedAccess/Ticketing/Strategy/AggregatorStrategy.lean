/-
UserManagedAccess.Ticketing.Strategy.AggregatorStrategy — the strategy that
adds derivation requirements and hides internal resource identifiers.

On the side of an aggregator, a requested resource that is derived from
others adds one `derivation-read` permission per source to the ticket; such
an entry is removed once the claims show it was granted. On the side of a
source, an identifier requested with `derivation-read` is an aggregate
identifier, replaced by the internal one while the wrapped strategy runs.

The way back is kept in a plain object. A lookup in it also finds what every
object inherits, so that an entry whose identifier is `constructor`, say, gets a
function for an identifier when identifiers are encoded.
-/
import UserManagedAccess.Ticketing.Ticket
import UserManagedAccess.Util.AggregatorUtil
import UserManagedAccess.Util.Vocabularies
import Mathlib.Data.List.Infix

namespace UserManagedAccess.Ticketing

open UserManagedAccess.Lib UserManagedAccess.Util UserManagedAccess.Views
open UserManagedAccess.Credentials

/-- Whether the scopes of a permission include `derivation-read`. -/
def hasDerivationRead (scopes : List String) : Bool :=
  scopes.contains UmaScopes.derivationRead

/-- The decryption of aggregate identifiers under the key of the process, `none`
where it throws, and what stands for an inherited property in the place of an
identifier. -/
structure AggregatorIds where
  decodeAggregateId : String → Option String
  /-- A payload without colons lacks a part. -/
  decode_plain : ∀ {payload : String}, ':' ∉ payload.toList → decodeAggregateId payload = none
  inheritedId : (property : String) → String
  /-- An inherited property is no text. -/
  decode_inheritedId : ∀ property, decodeAggregateId (inheritedId property) = none

def AggregatorIds.marked : AggregatorIds where
  decodeAggregateId := AggregateIdCodec.decodeMarked
  decode_plain := AggregateIdCodec.decodeMarked_plain
  inheritedId property := String.ofList ('[' :: property.toList)
  decode_inheritedId property := by simp [AggregateIdCodec.decodeMarked]

theorem AggregatorIds.inheritedId_marked_ne {id : String} (h : id.toList.head? ≠ some '[')
    (property : String) : marked.inheritedId property ≠ id := by
  rintro rfl
  exact h (by simp [marked])

namespace AggregatorStrategy

/-! ## Initialising a ticket -/

/-- The sources the registration of a resource names. -/
def derivedFrom (registrationStore : KeyValueStorage String Registration) (id : String) :
    List DerivedFrom :=
  match registrationStore.get id with
  | some registration => registration.description.derivedFrom.getD []
  | none => []

/-- The only scopes a derived resource can be requested with. -/
def onlyReads (scopes : List String) : Bool :=
  !(decide (scopes.length > 1) || scopes[0]? != some ODRL.read.value)

/-- The loop of `initializeTicket`: the additional permissions and the
derived identifiers. -/
def derivationRequirements (registrationStore : KeyValueStorage String Registration) :
    List Permission → Except HttpError (List Permission × List String)
  | [] => .ok ([], [])
  | permission :: permissions => do
    let sources := derivedFrom registrationStore permission.resourceId
    if sources.length > 0 ∧ ¬ onlyReads permission.resourceScopes then
      throw (.badRequest ("Derived resources are only supported with " ++
        "http://www.w3.org/ns/odrl/2/read permissions, received " ++
        ",".intercalate permission.resourceScopes))
    let (additionalPermissions, derivedIds) ←
      derivationRequirements registrationStore permissions
    return (sources.map (fun derived =>
        { resourceId := derived.derivationResourceId
          resourceScopes := [UmaScopes.derivationRead] }) ++ additionalPermissions,
      sources.map DerivedFrom.derivationResourceId ++ derivedIds)

def initializeTicket (strategy : TicketingStrategy)
    (registrationStore : KeyValueStorage String Registration)
    (permissions : List Permission) : Except HttpError Ticket := do
  let (additionalPermissions, derivedIds) ← derivationRequirements registrationStore permissions
  let ticket ← strategy.initializeTicket (permissions ++ additionalPermissions)
  return { ticket with derivedIds := some (derivedIds ++ ticket.derivedIds.getD []) }

/-! ## Aggregate identifiers -/

section

variable (ids : AggregatorIds)

/-- The internal identifier a permission is replaced with, if it is. -/
def decodedId (ticket : Ticket) (permission : Permission) : Option String :=
  -- derived identifiers are left alone: the client does not ask for those itself
  if ¬ ticket.isDerived permission.resourceId ∧ hasDerivationRead permission.resourceScopes then
    ids.decodeAggregateId permission.resourceId
  else none

def decodePermission (ticket : Ticket) (permission : Permission) : Permission :=
  match decodedId ids ticket permission with
  | some id => { permission with resourceId := id }
  | none => permission

/-- `decodedIds[id] = encoded`, which `__proto__` ignores: a text is no prototype. -/
def remember (decodedIds : Dict String) (id encoded : String) : Dict String :=
  if id = "__proto__" then decodedIds else decodedIds.set id encoded

/-- The ticket with internal identifiers, and the identifier each of those
replaced (the last one, where several did). -/
def decodeIds (ticket : Ticket) : Ticket × Dict String :=
  ({ ticket with permissions := ticket.permissions.map (decodePermission ids ticket) },
    ticket.permissions.foldl
      (fun decodedIds permission =>
        match decodedId ids ticket permission with
        | some id => remember decodedIds id permission.resourceId
        | none => decodedIds)
      Dict.empty)

def encodePermission (decodedIds : Dict String) (permission : Permission) : Permission :=
  match decodedIds.property permission.resourceId with
  | .own encoded => { permission with resourceId := encoded }
  | .inherited => { permission with resourceId := ids.inheritedId permission.resourceId }
  | .missing => permission

def encodeIds (ticket : Ticket) (decodedIds : Dict String) : Ticket :=
  if decodedIds.keys.length = 0 then ticket
  else { ticket with permissions := ticket.permissions.map (encodePermission ids decodedIds) }

/-! ## Claims -/

/-- `scopes.includes(scope)` on a value of a claim: an array or a string. -/
def includes (scopes : Json) (scope : String) : Except HttpError Bool :=
  match scopes with
  | .array es => .ok (es.any (Json.isString scope))
  | .string s => .ok (decide (scope.toList <:+: s.toList))
  | _ => .error (.error "scopes.includes is not a function")

/-- The identifiers of the access claims with `derivation-read`. -/
def derivedReadIds : List Json → Except HttpError (List String)
  | [] => .ok []
  | access :: accesses => do
    let included ← includes (access.field "resource_scopes") UmaScopes.derivationRead
    let ids ← derivedReadIds accesses
    match included, access.field "resource_id" with
    | true, .string id => return id :: ids
    | _, _ => return ids

/-- What is left of an entry of a ticket when the identifiers in `readIds`
are granted. -/
def removeDerivationRead (ticket : Ticket) (readIds : List String) (permission : Permission) :
    Option Permission :=
  if ticket.isDerived permission.resourceId ∧ permission.resourceId ∈ readIds ∧
      hasDerivationRead permission.resourceScopes then
    let remainingScopes :=
      permission.resourceScopes.filter (fun scope => scope ≠ UmaScopes.derivationRead)
    if remainingScopes.length > 0 then
      some { permission with resourceScopes := remainingScopes }
    else none
  else some permission

def validateClaims (strategy : TicketingStrategy) (ticket : Ticket) (claims : ClaimSet) :
    Except HttpError Ticket := do
  let readIds ← derivedReadIds (claims.values ACCESS)
  let updatedPermissions := ticket.permissions.filterMap (removeDerivationRead ticket readIds)
  let (newTicket, decodedIds) := decodeIds ids { ticket with permissions := updatedPermissions }
  let sourceTicket ← strategy.validateClaims newTicket claims
  return encodeIds ids sourceTicket decodedIds

/-! ## Resolving -/

/-- The derivation requirements still in a ticket. -/
def requiredClaims (derivationStore : KeyValueStorage String String) (ticket : Ticket) :
    List Permission → Except HttpError (List RequiredClaim)
  | [] => .ok []
  | permission :: permissions => do
    let id := permission.resourceId
    if ticket.isDerived id ∧ hasDerivationRead permission.resourceScopes then
      match (derivationStore.get id).filter (· ≠ "") with
      | none =>
        throw (.internalServer ("Missing issuer for derivation identifier " ++ id))
      | some issuer =>
        let claims ← requiredClaims derivationStore ticket permissions
        return { claimTokenFormat := some "urn:ietf:params:oauth:token-type:access_token"
                 issuer := some issuer
                 derivationResourceId := some id
                 resourceScopes := some [UmaScopes.derivationRead] } :: claims
    else requiredClaims derivationStore ticket permissions

/-- Success values are encoded again, to not leak internal identifiers. -/
def encodeGranted (decodedIds : Dict String) (permission : Permission) : Permission :=
  match decodedIds.property permission.resourceId with
  | .own "" => permission
  | .own encoded => { permission with resourceId := encoded }
  | .inherited => { permission with resourceId := ids.inheritedId permission.resourceId }
  | .missing => permission

def resolveTicket (strategy : TicketingStrategy)
    (derivationStore : KeyValueStorage String String) (ticket : Ticket) :
    Except HttpError (Result (List Permission) (List RequiredClaim)) := do
  let required ← requiredClaims derivationStore ticket ticket.permissions
  let (decodedTicket, decodedIds) := decodeIds ids ticket
  let result ← strategy.resolveTicket decodedTicket
  match result with
  | .success value =>
    if required.length > 0 then return .failure required
    return .success (value.map (encodeGranted ids decodedIds))
  | .failure value => return .failure (value ++ required)

end

end AggregatorStrategy

/-- `new AggregatorStrategy(strategy, registrationStore, derivationStore)`. -/
def aggregatorStrategy (ids : AggregatorIds) (strategy : TicketingStrategy)
    (registrationStore : KeyValueStorage String Registration)
    (derivationStore : KeyValueStorage String String) : TicketingStrategy where
  initializeTicket := AggregatorStrategy.initializeTicket strategy registrationStore
  validateClaims := AggregatorStrategy.validateClaims ids strategy
  resolveTicket := AggregatorStrategy.resolveTicket ids strategy derivationStore

end UserManagedAccess.Ticketing
