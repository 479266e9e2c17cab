/-
UserManagedAccess.Routes.Collection — the endpoint for collections made by
users.

A collection is described by the quads with its URL as subject, and by the
`odrl:partOf` quads with it as object. An asset collection belongs to the user
that wrote it and may contain what that user owns; a party collection names
its owners itself.
-/
import UserManagedAccess.Credentials.Claims
import UserManagedAccess.Routes.ResourceRegistration

namespace UserManagedAccess.Routes

open UserManagedAccess.Lib UserManagedAccess.Rdf UserManagedAccess.Util
open UserManagedAccess.Views UserManagedAccess.Ucp UserManagedAccess.Credentials

/-! ## Descriptions -/

inductive CollectionDescription where
  | asset (description : Option String) (parts : List String)
  | party (description : Option String) (owners parts : List String)

namespace CollectionDescription

/-- The check `reType(body, AssetCollectionDescription)`. -/
def assetAssertion : Assertion :=
  ReType.fields [("description", ReType.optional ReType.string),
    ("type", ReType.literal "asset"),
    ("parts", ReType.array ReType.string)]

def partyAssertion : Assertion :=
  ReType.fields [("description", ReType.optional ReType.string),
    ("type", ReType.literal "party"),
    ("owners", ReType.array ReType.string),
    ("parts", ReType.array ReType.string)]

def assertion : Assertion := ReType.union [assetAssertion, partyAssertion]

def stringsOf (key : String) (value : Json) : List String :=
  (((value.field key).asArray?).getD []).filterMap Json.asString?

/-- Reading the fields of a value the check has accepted. -/
def ofJson (value : Json) : CollectionDescription :=
  let description := (value.field "description").asString?
  if (value.field "type").isString "party" then
    party description (stringsOf "owners" value) (stringsOf "parts" value)
  else asset description (stringsOf "parts" value)

def description : CollectionDescription → Option String
  | asset description _ => description
  | party description _ _ => description

def parts : CollectionDescription → List String
  | asset _ parts => parts
  | party _ _ parts => parts

def type : CollectionDescription → Term
  | asset _ _ => ODRL.AssetCollection
  | party _ _ _ => ODRL.PartyCollection

/-- The creators of a collection that the user describes so. -/
def creators (userId : String) : CollectionDescription → List String
  | asset _ _ => [userId]
  | party _ owners _ => owners

/-- The text of the collection, if it has one. -/
def textQuads (subject : Term) (text : Option String) : List Quad :=
  match text.filter (· ≠ "") with
  | some text =>
    [quad subject DC.description (.literal text "" "http://www.w3.org/2001/XMLSchema#string")]
  | none => []

/-- The quads of the collection. -/
def toQuads (userId : String) (subject : Term) (description : CollectionDescription) :
    List Quad :=
  [quad subject RDF.type description.type] ++
  textQuads subject description.description ++
  (description.creators userId).map (fun owner => quad subject DC.creator (.namedNode owner)) ++
  description.parts.map (fun part => quad (.namedNode part) ODRL.partOf subject)

end CollectionDescription

/-! ## The handler -/

/-- What the code takes from outside: the identifier the n-th request would
get, and the joining of URLs. -/
structure CollectionEnvironment where
  randomUUID : Nat → String
  joinUrl : String → String → String

structure CollectionResponse where
  status : Nat
  location : Option String := none
  body : Option Store := none

namespace CollectionRequestHandler

open ResourceRegistrationRequestHandler (badSyntax ownedResources)

/-- Whether the user may modify the collection. -/
def verifyOwnership (subject : Term) (userId : String) (store : Store) : Except HttpError Unit :=
  let owners := store.getObjects subject DC.creator none
  if owners.length = 0 then .error .notFound
  else if ¬ owners.any (fun owner => owner == .namedNode userId) then
    .error (.forbidden (userId ++ " is not an owner of this collection"))
  else .ok ()

def notAnOwner : HttpError :=
  .badRequest "To prevent being locked out, the identity performing this request needs to be an owner"

/-- The requester owns a party collection, and the parts of an asset
collection. -/
def checkOwner (userId : String) : CollectionDescription → Async ServerState HttpError Unit
  | .party _ owners _ => if owners.contains userId then return () else throw notAnOwner
  | .asset _ parts => do
    let owned ← ownedResources userId
    match parts.find? (fun asset => !owned.contains asset) with
    | some asset =>
      throw (.forbidden ("Creating asset collection with unowned resource " ++ asset))
    | none => return ()

def descriptionToQuads (body : Json) (userId : String) (subject : Term) :
    Async ServerState HttpError (List Quad) := do
  let _ ← (CollectionDescription.assertion body).mapError badSyntax
  let description := CollectionDescription.ofJson body
  checkOwner userId description
  return description.toQuads userId subject

/-- The quads about the collection, with its members. -/
def collectionQuads (collection : Term) (store : Store) : List Quad :=
  store.getQuads collection none none none ++ store.getQuads none ODRL.partOf collection none

/-- What a user is shown of a collection. Inverse relations are not covered by
its own quads. -/
def showCollection (store : Store) (result : Store) (collection : Term) : Store :=
  let result := result.addQuads (collectionQuads collection store)
  (result.getObjects collection ODRL_P.relation none).foldl
    (fun result relation => result.addQuads (store.getQuads relation OWL.inverseOf none none))
    result

/-- The identifier in the URL of the request, if there is one. -/
def requestId (request : HttpHandlerRequest) : Option String :=
  (request.parameters.get "id").filter (· ≠ "")

def handleGet (request : HttpHandlerRequest) (userId : String) :
    Async ServerState HttpError CollectionResponse := do
  let store ← serverPolicies.getStore
  match requestId request with
  | some _ =>
    let subject := Term.namedNode request.url
    let _ ← verifyOwnership subject userId store
    Async.yield
    let s ← Async.get
    return { status := 200, body := some (showCollection s.policies Store.empty subject) }
  | none =>
    let collections := store.getSubjects DC.creator (Term.namedNode userId) none
    return { status := 200, body := some (collections.foldl (showCollection store) Store.empty) }

/-- The URL a new collection gets. -/
def newUrl (env : CollectionEnvironment) (n : Nat) (request : HttpHandlerRequest) : String :=
  env.joinUrl request.url (env.randomUUID n)

def handlePost (env : CollectionEnvironment) (n : Nat) (request : HttpHandlerRequest)
    (userId : String) : Async ServerState HttpError CollectionResponse := do
  let url := newUrl env n request
  let quads ← descriptionToQuads request.body userId (.namedNode url)
  Async.yield
  serverPolicies.addRule (Store.ofQuads quads)
  Async.yield
  return { status := 201, location := some url }

def relationCollection : HttpError := .forbidden "Relation collections can not be modified"

/-- The collection may be modified, and by this user. -/
def checkModifiable (subject : Term) (userId : String) (store : Store) : Except HttpError Unit := do
  if (store.getObjects subject ODRL_P.relation none).length > 0 then throw relationCollection
  verifyOwnership subject userId store

/-- Add what is new, if there is anything. -/
def addNew (add : Store) : Async ServerState HttpError Unit := do
  if add.size > 0 then
    serverPolicies.addRule add
    Async.yield

/-- Remove what is old, if there is anything. -/
def removeOld (remove : Store) : Async ServerState HttpError Unit := do
  if remove.size > 0 then
    serverPolicies.removeData remove
    Async.yield

def handlePut (request : HttpHandlerRequest) (userId : String) :
    Async ServerState HttpError CollectionResponse := do
  match requestId request with
  | none => throw .methodNotAllowed
  | some _ =>
    let subject := Term.namedNode request.url
    let policyStore ← serverPolicies.getStore
    let _ ← checkModifiable subject userId policyStore
    Async.yield
    let quads ← descriptionToQuads request.body userId subject
    -- the store is the same one, as it is after the pauses
    let policyStore ← serverPolicies.getStore
    let newStore := Store.ofQuads quads
    let oldStore := Store.ofQuads (collectionQuads subject policyStore)
    let add := newStore.difference oldStore
    let remove := oldStore.difference newStore
    addNew add
    removeOld remove
    return { status := 204 }

def handleDelete (request : HttpHandlerRequest) (userId : String) :
    Async ServerState HttpError CollectionResponse := do
  match requestId request with
  | none => throw .methodNotAllowed
  | some _ =>
    let subject := Term.namedNode request.url
    let policyStore ← serverPolicies.getStore
    let _ ← checkModifiable subject userId policyStore
    let policyStore ← serverPolicies.getStore
    serverPolicies.removeData (Store.ofQuads (collectionQuads subject policyStore))
    Async.yield
    return { status := 204 }

/-- The request, once the user is known. -/
def respond (env : CollectionEnvironment) (n : Nat) (request : HttpHandlerRequest)
    (userId : String) : Async ServerState HttpError CollectionResponse :=
  if request.method = "GET" then handleGet request userId
  else if request.method = "POST" then handlePost env n request userId
  else if request.method = "PUT" then handlePut request userId
  else if request.method = "DELETE" then handleDelete request userId
  else throw .methodNotAllowed

/-- `verify` stands for the credential parser and the verifier. -/
def handle (verify : HttpHandlerRequest → Except HttpError ClaimSet) (env : CollectionEnvironment)
    (n : Nat) (request : HttpHandlerRequest) : Async ServerState HttpError CollectionResponse := do
  let claims ← verify request
  match (claims.values WEBID).filterMap Json.asString? with
  | [] => throw .unauthorized
  | userId :: _ => respond env n request userId

end CollectionRequestHandler

end UserManagedAccess.Routes
