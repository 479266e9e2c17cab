/-
UserManagedAccess.Css.UmaClient — the client of the resource server at the
authorization server.

`getPat`, `fetchTicket`, `registerResource` and `deleteResource` are bodies of
calls that may run at the same time on one client: they share its stores, the
set `inProgress` and the events of its emitter. The callbacks that
`registerResource` hands to a promise are calls of their own
(`registerAfterParent`, `sendRegistration`).

A resource is its path. A path is a URL, so the path of no resource is the
event `PAT_EVENT`, and a `Signal` is one or the other.
-/
import Mathlib.Data.Finset.Erase
import Mathlib.Data.Finset.Insert
import UserManagedAccess.Credentials.Verifiers
import UserManagedAccess.Lib.Tasks
import UserManagedAccess.Views.Permission

namespace UserManagedAccess.Css

open UserManagedAccess.Lib UserManagedAccess.Util UserManagedAccess.Views

/-! ## What the client stores and asks for -/

/-- The members of `inProgress`, and the events of the emitter. -/
inductive Signal where
  | PAT_EVENT
  | resource (path : String)
  deriving DecidableEq

structure UmaConfig where
  jwksUri : String
  issuer : String
  permissionEndpoint : String
  introspectionEndpoint : String
  resourceRegistrationEndpoint : String
  tokenEndpoint : String

/-- What surrounds the client. -/
structure ClientSetting where
  clock : Nat → Nat
  joinUrl : String → String → String
  isRootContainer : String → Bool
  getParentContainer : String → String
  /-- The scopes of the modes of the policy engine. -/
  toUmaScope : String → Except HttpError String

structure ClientState where
  inProgress : Finset Signal := ∅
  umaIdStore : KeyValueStorage String String := KeyValueStorage.empty
  /-- A PAT and its expiration, which is none where that is not a number. -/
  patStorage : KeyValueStorage String (String × Option Rat) := KeyValueStorage.empty
  configCache : KeyValueStorage String (UmaConfig × Nat) := KeyValueStorage.empty
  readings : Nat := 0

/-- `if (value)` for a string. -/
def truthy (value : Option String) : Option String := value.filter (· ≠ "")

/-- A request that registers a resource, or updates its registration. The
endpoint is one of the issuer, or what that has made of the known id. -/
structure ResourceRequest where
  issuer : String
  knownUmaId : Option String
  endpoint : String
  pat : String
  description : ResourceDescription

/-- A `PUT`. -/
def ResourceRequest.update (request : ResourceRequest) : Bool := request.knownUmaId.isSome

/-- The resource the request is about. -/
def ResourceRequest.path (request : ResourceRequest) : String :=
  request.description.name.getD ""

structure TicketEntry where
  resourceId : String
  resourceScopes : List String

inductive Request where
  | config (url : String)
  | token (endpoint credentials : String)
  | resource (request : ResourceRequest)
  /-- The `url` is what the issuer has made of the id. -/
  | unregister (issuer umaId url pat : String)
  | permission (endpoint pat : String) (body : List TicketEntry)

/-- A body that cannot be parsed is none. -/
structure Response where
  status : Nat
  body : Option Json

namespace UmaClient

inductive Action where
  | cachedPat (credentials : String)
  | storePat (credentials pat : String) (expiresIn : Option Rat)
  | cachedConfig (issuer : String)
  | cacheConfig (issuer : String) (config : UmaConfig)
  /-- `inProgress.has`, and `inProgress.add` where it is not there. -/
  | enter (signal : Signal)
  | isInProgress (signal : Signal)
  | leave (signal : Signal)

abbrev ActionReply : Action → Type
  | .cachedPat _ => Option String
  | .storePat .. => Unit
  | .cachedConfig _ => Option UmaConfig
  | .cacheConfig .. => Unit
  | .enter _ => Bool
  | .isInProgress _ => Bool
  | .leave _ => Unit

inductive Op where
  | fetch (request : Request)
  | json (response : Response)
  | text (response : Response)
  | getId (path : String)
  | setId (path id : String)
  | hasResource (path : String)
  /-- An `await` of what is already there. -/
  | tick

abbrev OpReply : Op → Type
  | .fetch _ => Except HttpError Response
  -- whether the body could be read
  | .json _ => Except HttpError Unit
  | .text _ => Except HttpError String
  | .getId _ => Except HttpError (Option String)
  -- a write that failed may have had its effect
  | .setId .. => Except (HttpError × Bool) Unit
  | .hasResource _ => Except HttpError Bool
  | .tick => Unit

inductive Call where
  | getPat (issuer credentials : String)
  | fetchTicket (permissions : List (String × List String)) (issuer credentials : String)
  | registerResource (path issuer credentials : String)
  | registerAfterParent (parent path issuer credentials : String)
  | sendRegistration (request : ResourceRequest)
  | deleteResource (path issuer credentials : String)

/-- Results are strings, or `undefined`. -/
abbrev platform : Platform where
  State := ClientState
  Event := Signal
  Action := Action
  ActionReply := ActionReply
  Op := Op
  OpReply := OpReply
  Call := Call
  Value := Option String
  undefined := none
  Error := HttpError

instance : DecidableEq platform.Event := inferInstanceAs (DecidableEq Signal)

abbrev Method (α : Type) := Body platform α

/-! ## The actions and the operations -/

namespace Action

variable (setting : ClientSetting)

def run : (action : Action) → ClientState → ActionReply action × ClientState
  | cachedPat credentials, s =>
    match s.patStorage.get credentials with
    | some (pat, some expiration) =>
      (if expiration > setting.clock s.readings then some pat else none,
        { s with readings := s.readings + 1 })
    | some (_, none) => (none, { s with readings := s.readings + 1 })
    | none => (none, s)
  | storePat credentials pat expiresIn, s =>
    ((), { s with
      patStorage := s.patStorage.set credentials
        (pat, expiresIn.map fun seconds => setting.clock s.readings + seconds * 1000)
      readings := s.readings + 1 })
  | cachedConfig issuer, s =>
    match s.configCache.get issuer with
    | some (config, expiration) =>
      (if expiration > setting.clock s.readings then some config else none,
        { s with readings := s.readings + 1 })
    | none => (none, s)
  | cacheConfig issuer config, s =>
    ((), { s with
      configCache := s.configCache.set issuer (config, setting.clock s.readings + 5 * 60 * 1000)
      readings := s.readings + 1 })
  | enter signal, s =>
    (decide (signal ∈ s.inProgress), { s with inProgress := insert signal s.inProgress })
  | isInProgress signal, s => (decide (signal ∈ s.inProgress), s)
  | leave signal, s => ((), { s with inProgress := s.inProgress.erase signal })

end Action

namespace Op

/-- Reads return what there is, or fail. -/
def permits : (op : Op) → ClientState → OpReply op → Bool
  | getId path, s, .ok id => id = s.umaIdStore.get path
  | _, _, _ => true

def effect : (op : Op) → OpReply op → ClientState → ClientState
  | setId path id, .ok (), s => { s with umaIdStore := s.umaIdStore.set path id }
  | setId path id, .error (_, true), s => { s with umaIdStore := s.umaIdStore.set path id }
  | _, _, s => s

end Op

/-! ## The calls -/

section

def fetch (request : Request) : Method Response :=
  Body.perform (.fetch request) fun reply => .done reply

/-- `await response.json()`. -/
def json (response : Response) : Method Json :=
  Body.perform (.json response) fun reply =>
    match reply, response.body with
    | .ok (), some body => pure body
    | .ok (), none => throw (.error "The body of the response is not valid JSON.")
    | .error e, _ => throw e

def text (response : Response) : Method String :=
  Body.perform (.text response) fun reply => .done reply

def getId (path : String) : Method (Option String) :=
  Body.perform (.getId path) fun reply => .done reply

def setId (path id : String) : Method Unit :=
  Body.perform (.setId path id) fun reply => .done (reply.mapError Prod.fst)

def hasResource (path : String) : Method Bool :=
  Body.perform (.hasResource path) fun reply => .done reply

def tick : Method Unit := Body.perform .tick fun _ => .done (.ok ())

def cachedPat (credentials : String) : Method (Option String) :=
  Body.act (.cachedPat credentials) fun reply => .done (.ok reply)

def storePat (credentials pat : String) (expiresIn : Option Rat) : Method Unit :=
  Body.act (.storePat credentials pat expiresIn) fun _ => .done (.ok ())

def cachedConfig (issuer : String) : Method (Option UmaConfig) :=
  Body.act (.cachedConfig issuer) fun reply => .done (.ok reply)

def cacheConfig (issuer : String) (config : UmaConfig) : Method Unit :=
  Body.act (.cacheConfig issuer config) fun _ => .done (.ok ())

def enter (signal : Signal) : Method Bool := Body.act (.enter signal) fun reply => .done (.ok reply)

def isInProgress (signal : Signal) : Method Bool :=
  Body.act (.isInProgress signal) fun reply => .done (.ok reply)

/-- `inProgress.delete` and `emitter.emit`. -/
def leave (signal : Signal) : Method Unit :=
  Body.act (.leave signal) fun _ => Body.emit signal (.done (.ok ()))

def start (call : Call) : Method Nat := Body.start call fun id => .done (.ok id)

def once (signal : Signal) : Method Unit := Body.once signal none fun reply => .done reply

def onceOrTimeout (signal : Signal) (e : HttpError) : Method Unit :=
  Body.once signal (some e) fun reply => .done reply

def all (calls : List Nat) : Method Unit :=
  Body.all calls fun reply => .done (reply.map fun _ => ())

end

def UMA_DISCOVERY : String := "/.well-known/uma2-configuration"

def REQUIRED_METADATA : List String :=
  ["issuer", "jwks_uri", "permission_endpoint", "introspection_endpoint",
    "resource_registration_endpoint"]

/-- The configuration in a body with the required metadata. -/
def UmaConfig.ofJson (configuration : Json) : UmaConfig :=
  let read := fun key => (configuration.field key).asString?.getD "undefined"
  { jwksUri := read "jwks_uri"
    issuer := read "issuer"
    permissionEndpoint := read "permission_endpoint"
    introspectionEndpoint := read "introspection_endpoint"
    resourceRegistrationEndpoint := read "resource_registration_endpoint"
    tokenEndpoint := read "token_endpoint" }

def isUndefined : Json → Bool
  | .undefined => true
  | _ => false

def fetchUmaConfig (issuer : String) : Method UmaConfig := do
  match ← cachedConfig issuer with
  | some config => return config
  | none =>
    let configUrl := issuer ++ UMA_DISCOVERY
    let res ← fetch (.config configUrl)
    if res.status ≥ 400 then
      throw (.error ("Unable to retrieve UMA Configuration for Authorization Server '" ++ issuer ++
        "' from '" ++ configUrl ++ "'"))
    let configuration ← json res
    let missing := REQUIRED_METADATA.filter fun value => isUndefined (configuration.field value)
    if missing.length ≠ 0 then
      throw (.error ("The Authorization Server Metadata of '" ++ issuer ++
        "' is missing attributes " ++ ", ".intercalate missing))
    let noString := REQUIRED_METADATA.filter fun value =>
      (configuration.field value).asString?.isNone
    if noString.length ≠ 0 then
      throw (.error ("The Authorization Server Metadata of '" ++ issuer ++
        "' should have string attributes " ++ ", ".intercalate noString))
    cacheConfig issuer (UmaConfig.ofJson configuration)
    return UmaConfig.ofJson configuration

/-- The number that decimal digits write. -/
def natOf (digits : List Char) : Nat := digits.foldl (fun n c => 10 * n + (c.toNat - '0'.toNat)) 0

/-- The exponent of a decimal literal, with its letter. -/
def exponentOf : List Char → Option Int
  | [] => some 0
  | letter :: text =>
    if letter ≠ 'e' ∧ letter ≠ 'E' then none
    else
      let digits := if text.head? = some '+' ∨ text.head? = some '-' then text.tail else text
      if digits = [] ∨ ¬ digits.all Char.isDigit then none
      else some (if text.head? = some '-' then -(natOf digits : Int) else natOf digits)

def decimalOf (text : List Char) : Option Rat := do
  let whole := text.takeWhile Char.isDigit
  let rest := text.dropWhile Char.isDigit
  let fraction := if rest.head? = some '.' then rest.tail.takeWhile Char.isDigit else []
  let exponent ← exponentOf (if rest.head? = some '.' then rest.tail.dropWhile Char.isDigit else rest)
  if whole ++ fraction = [] then none
  let shift := exponent - fraction.length
  return if 0 ≤ shift then natOf (whole ++ fraction) * 10 ^ shift.toNat
    else natOf (whole ++ fraction) / 10 ^ (-shift).toNat

/-- `Number(text)`. The two other kinds of number a text can be, `Infinity` and
those with a prefix as `0x`, are none here. -/
def numberOf (text : String) : Option Rat :=
  let trimmed := ((text.toList.dropWhile isWhitespace).reverse.dropWhile isWhitespace).reverse
  if trimmed = [] then some 0
  else if trimmed.head? = some '-' then (decimalOf trimmed.tail).map (- ·)
  else if trimmed.head? = some '+' then decimalOf trimmed.tail
  else decimalOf trimmed

/-- What `expires_in * 1000` takes a value for. `none` is `NaN`. -/
def toNumber : Json → Option Rat
  | .number value => some value
  | .string text => numberOf text
  | .boolean value => some (if value then 1 else 0)
  | .null => some 0
  | .array [] => some 0
  | .array [.null] => some 0
  | .array [.undefined] => some 0
  | .array [.boolean _] => none
  | .array [element] => toNumber element
  | _ => none
example : numberOf " 18.5e2 " = some 1850 := by decide +kernel

/-- A field in a template string. -/
def display (value : Json) : String := value.asString?.getD "undefined"

def isNullish : Json → Bool
  | .undefined => true
  | .null => true
  | _ => false

/-- The fields of `value` are read, which throws where it has none at all. -/
def destructure (value : Json) : Method Unit :=
  if isNullish value then throw (.error "Cannot destructure a value that is null or undefined.")
  else return

def getPat (issuer credentials : String) : Method (Option String) := do
  match ← cachedPat credentials with
  | some pat => return some pat
  | none =>
    if ← enter .PAT_EVENT then
      once .PAT_EVENT
      Body.await (.getPat issuer credentials)
    else
      let config ← fetchUmaConfig issuer
      tick
      let response ← fetch (.token config.tokenEndpoint credentials)
      if response.status ≠ 201 then
        let message ← text response
        throw (.internalServer ("Unable to generate PAT: " ++ toString response.status ++ " - " ++
          message))
      let body ← json response
      destructure body
      let pat := display (body.field "token_type") ++ " " ++ display (body.field "access_token")
      storePat credentials pat (toNumber (body.field "expires_in"))
      leave .PAT_EVENT
      return some pat

/-- `await this.getPat(...)`. -/
def awaitPat (issuer credentials : String) : Method String := do
  let pat ← Body.await (.getPat issuer credentials)
  return pat.getD ""

/-! ### Registering resources -/

def MODES : List String :=
  ["urn:example:css:modes:read", "urn:example:css:modes:append", "urn:example:css:modes:create",
    "urn:example:css:modes:delete", "urn:example:css:modes:write"]

def isContainerIdentifier (path : String) : Bool := path.toList.getLast? = some '/'

/-- The relation with the container that has this id. -/
def containedIn (parentId : String) : Json :=
  .object [("@reverse", .object [("http://www.w3.org/ns/ldp#contains", .array [.string parentId])])]

/-- What is registered of a resource. -/
def describe (path : String) (relations : Option Json) : ResourceDescription where
  name := some path
  resourceScopes := MODES
  resourceDefaults :=
    if isContainerIdentifier path then
      some (.object [("http://www.w3.org/ns/ldp#contains", .array (MODES.map .string))])
    else none
  resourceRelations := relations

/-- `once(this.emitter, parent).then(() => this.registerResource(...))`. -/
def registerAfterParent (parent path issuer credentials : String) : Method (Option String) := do
  once (.resource parent)
  Body.await (.registerResource path issuer credentials)

/-- `fetch(endpoint, request).then(...)`. -/
def sendRegistration (request : ResourceRequest) : Method (Option String) := do
  let resp ← fetch (.resource request)
  if request.update then
    if resp.status ≠ 200 then
      let message ← text resp
      throw (.internalServer ("Resource update request failed. " ++ message))
  else
    if resp.status ≠ 201 then
      let message ← text resp
      throw (.internalServer ("Resource registration request failed. " ++ message))
    let body ← json resp
    destructure body
    match (body.field "_id").asString? with
    | none => throw (.internalServer "Unexpected response from UMA server; no UMA id received.")
    | some umaId => setId request.path umaId
  leave (.resource request.path)
  return none

/-- The relation with the parent if that has an id. If not, the calls that
take care of it later. -/
def relateToParent (setting : ClientSetting) (path issuer credentials : String) :
    Method (Option Json × List Nat) := do
  if setting.isRootContainer path then return (none, [])
  let parent := setting.getParentContainer path
  match truthy (← getId parent) with
  | some parentId => return (some (containedIn parentId), [])
  | none =>
    let update ← start (.registerAfterParent parent path issuer credentials)
    if ← isInProgress (.resource parent) then return (none, [update])
    let registration ← start (.registerResource parent issuer credentials)
    return (none, [update, registration])

def registerResource (setting : ClientSetting) (path issuer credentials : String) :
    Method (Option String) := do
  if ← enter (.resource path) then
    once (.resource path)
    Body.await (.registerResource path issuer credentials)
  else
    let config ← fetchUmaConfig issuer
    tick
    let knownUmaId := truthy (← getId path)
    let endpoint := match knownUmaId with
      | some umaId => setting.joinUrl config.resourceRegistrationEndpoint
          (Credentials.encodeURIComponent umaId)
      | none => config.resourceRegistrationEndpoint
    let pat ← awaitPat issuer credentials
    let (relations, promises) ← relateToParent setting path issuer credentials
    let request : ResourceRequest :=
      { issuer, knownUmaId, endpoint, pat, description := describe path relations }
    let fetchPromise ← start (.sendRegistration request)
    all (promises ++ [fetchPromise])
    return none

def deleteResource (setting : ClientSetting) (path issuer credentials : String) :
    Method (Option String) := do
  let config ← fetchUmaConfig issuer
  tick
  match truthy (← getId path) with
  | none => throw (.error ("Trying to remove UMA registration that is not known: " ++ path))
  | some umaId =>
    let url := setting.joinUrl config.resourceRegistrationEndpoint
      (Credentials.encodeURIComponent umaId)
    let pat ← awaitPat issuer credentials
    let _ ← fetch (.unregister issuer umaId url pat)
    return none

/-! ### Fetching tickets -/

def message : HttpError → String
  | .badRequest text => text
  | .unauthorized => ""
  | .forbidden text => text
  | .notFound => ""
  | .methodNotAllowed => ""
  | .conflict text => text
  | .internalServer text => text
  | .needInfo text _ _ => text
  | .error text => text

/-- The id of a target, which is registered if it is not yet. -/
def ticketId (target issuer credentials : String) : Method String := do
  let known := truthy (← getId target)
  let waits ← if known.isNone then isInProgress (.resource target) else pure false
  let known ←
    if waits then do
      onceOrTimeout (.resource target)
        (.internalServer ("Unable to finish registration for " ++ target ++ "."))
      truthy <$> getId target
    else pure known
  let known ←
    if known.isNone then do
      -- e.g. a resource that was copied, or a derived one
      if ← hasResource target then
        let _ ← Body.await (.registerResource target issuer credentials)
        truthy <$> getId target
      else throw .notFound
    else pure known
  match known with
  | none => throw (.internalServer
      ("Unable to request ticket: no UMA ID found for " ++ target))
  | some umaId => return umaId

def ticketEntries (setting : ClientSetting) (issuer credentials : String) :
    List (String × List String) → Method (List TicketEntry)
  | [] => return []
  | (target, modes) :: permissions => do
    let umaId ← ticketId target issuer credentials
    let scopes ← (modes.mapM setting.toUmaScope : Except HttpError (List String))
    let entries ← ticketEntries setting issuer credentials permissions
    return { resourceId := umaId, resourceScopes := scopes } :: entries

def fetchTicket (setting : ClientSetting) (permissions : List (String × List String))
    (issuer credentials : String) : Method (Option String) := do
  let endpoint ←
    try UmaConfig.permissionEndpoint <$> fetchUmaConfig issuer
    catch e => throw (.error ("Error while retrieving ticket: " ++ message e))
  tick
  let body ← ticketEntries setting issuer credentials permissions
  let pat ← awaitPat issuer credentials
  let response ← fetch (.permission endpoint pat body)
  if response.status = 200 then return none
  if response.status ≠ 201 then
    throw (.error ("Error while retrieving UMA Ticket: Received status " ++
      toString response.status ++ " from '" ++ endpoint ++ "'."))
  let answer ← json response
  destructure answer
  match truthy (answer.field "ticket").asString? with
  | none => throw (.error "Invalid response from UMA AS: missing or invalid 'ticket'.")
  | some ticket => return some ticket

/-! ## The client -/

def program (setting : ClientSetting) : Call → Method (Option String)
  | .getPat issuer credentials => getPat issuer credentials
  | .fetchTicket permissions issuer credentials =>
    fetchTicket setting permissions issuer credentials
  | .registerResource path issuer credentials =>
    registerResource setting path issuer credentials
  | .registerAfterParent parent path issuer credentials =>
    registerAfterParent parent path issuer credentials
  | .sendRegistration request => sendRegistration request
  | .deleteResource path issuer credentials => deleteResource setting path issuer credentials

def system (setting : ClientSetting) : System platform where
  program := program setting
  act := Action.run setting
  permits := Op.permits
  effect := Op.effect

end UmaClient

end UserManagedAccess.Css
