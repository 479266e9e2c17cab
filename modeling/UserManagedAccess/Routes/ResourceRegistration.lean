/-
UserManagedAccess.Routes.ResourceRegistration — the resource registration
endpoint, and the collections it keeps for the relations between resources.

A `CollectionMetadata` stands for the asset collection of all resources that
have a relation to its source. `resource_defaults` of a description name the
collections the resource is the source of, and `resource_relations` those it
is part of.
-/
import UserManagedAccess.Routes.ServerState
import UserManagedAccess.Util.Http
import UserManagedAccess.Util.Vocabularies

namespace UserManagedAccess.Routes

open UserManagedAccess.Lib UserManagedAccess.Rdf UserManagedAccess.Util
open UserManagedAccess.Views UserManagedAccess.Ucp

/-- `CollectionMetadata`, with the IRIs of its two named nodes. -/
structure CollectionMetadata where
  relation : String
  source : String
  reverse : Bool
  deriving DecidableEq, Repr

/-- What the code takes from outside: the identifier the n-th request would
get, the blank nodes it creates, and the string JavaScript makes of a value
that is not one. -/
structure RegistrationEnvironment where
  randomUUID : Nat → String
  blankNode : Nat → Nat → String
  toString : Json → String

namespace ResourceRegistrationRequestHandler

/-! ## Relation metadata of a description -/

/-- `Object.entries`. -/
def objectEntries : Json → List (String × Json)
  | .object fields => fields
  | .array es => es.zipIdx.map fun (e, i) => (toString i, e)
  | _ => []

/-- `!value || value.length === 0`. -/
def hasNoValues (value : Json) : Bool :=
  match value with
  | .undefined => true
  | .null => true
  | .boolean b => !b
  | .number r => r == 0
  | .string s => s == ""
  | .array es => es.isEmpty
  | .object _ =>
    match value.field "length" with
    | .number r => r == 0
    | _ => false

/-- The values a `for` loop goes over, as the IRIs of named nodes. -/
def iterate (env : RegistrationEnvironment) : Json → Except HttpError (List String)
  | .array es => .ok (es.map fun e => (e.asString?).getD (env.toString e))
  | .string s => .ok (s.toList.map fun c => String.ofList [c])
  | _ => .error (.error "value is not iterable")

def getRelationKey (entry : CollectionMetadata) : String :=
  entry.source ++ "-" ++ entry.relation ++ "-" ++ (if entry.reverse then "true" else "false")

/-- The metadata of one key of the object. -/
def relationMetadata (env : RegistrationEnvironment) (reverse : Bool) (id : Option String)
    (entry : String × Json) : Except HttpError (List CollectionMetadata) := do
  if hasNoValues entry.2 then return []
  let sources ←
    match id with
    | some id => pure [id]
    | none => iterate env entry.2
  return sources.map fun source => { relation := entry.1, source, reverse }

/-- All the metadata of an object, in order. -/
def entriesMetadata (env : RegistrationEnvironment) (entries : List (String × Json))
    (reverse : Bool) (id : Option String) : Except HttpError (List CollectionMetadata) := do
  let lists ← entries.mapM (relationMetadata env reverse id)
  return lists.flatten

/-- A record with the relation keys of the metadata. -/
def keyed (metadata : List CollectionMetadata) : Dict CollectionMetadata :=
  metadata.foldl (fun result entry => result.set (getRelationKey entry) entry) Dict.empty

def entriesToCollectionMetadata (env : RegistrationEnvironment) (entries : List (String × Json))
    (reverse : Bool) (id : Option String) : Except HttpError (Dict CollectionMetadata) := do
  let metadata ← entriesMetadata env entries reverse id
  return keyed metadata

/-- The two fields that can contain relation metadata. -/
inductive MetadataField where
  | resource_defaults
  | resource_relations
  deriving DecidableEq

def MetadataField.of (field : MetadataField) (description : ResourceDescription) : Option Json :=
  match field with
  | resource_defaults => description.resourceDefaults
  | resource_relations => description.resourceRelations

/-- `{ ...description[field] }` without its `@reverse` block. -/
def normalEntries (value : Json) : List (String × Json) :=
  (objectEntries value).filter fun entry => entry.1 ≠ "@reverse"

/-- The `@reverse` block. -/
def reverseEntries (value : Json) : List (String × Json) :=
  objectEntries (value.field "@reverse")

/-- For `resource_relations` the collections are those the resource is part
of: with relation `L` to `R`, the collection has source `R` and the reverse of
`L`. -/
def getCollectionMetadata (env : RegistrationEnvironment) (field : MetadataField)
    (description : Option ResourceDescription) (id : String) :
    Except HttpError (Dict CollectionMetadata) :=
  match description.bind field.of with
  | none => .ok Dict.empty
  | some value => do
    -- an identifier is never empty
    let sourceId := if field = .resource_defaults then some id else none
    let normal ← entriesToCollectionMetadata env (normalEntries value)
      (decide (field = .resource_relations)) sourceId
    let reversed ← entriesToCollectionMetadata env (reverseEntries value)
      (decide (field = .resource_defaults)) sourceId
    return reversed.foldl (fun result entry => result.set entry.1 entry.2) normal

/-- Both records without the keys that are in both. -/
def filterRelationEntries (record1 record2 : Dict CollectionMetadata) :
    Dict CollectionMetadata × Dict CollectionMetadata :=
  (record1.filter fun entry => (record2.get entry.1).isNone,
    record2.filter fun entry => (record1.get entry.1).isNone)

/-! ## Collections in the policy store -/

/-- The collections with the source and the relation of the metadata. -/
def findCollectionIds (entry : CollectionMetadata) (data : Store) : List Term :=
  let sourceMatches := data.getSubjects ODRL.source (Term.namedNode entry.source) none
  if entry.reverse then
    let blankQuads := sourceMatches.flatMap fun subject : Term =>
      data.getQuads subject ODRL_P.relation none none
    let matchedBlankQuads := blankQuads.filter fun q =>
      data.has (quad q.object OWL.inverseOf (.namedNode entry.relation))
    matchedBlankQuads.map Quad.subject
  else
    sourceMatches.filter fun subject : Term =>
      data.has (quad subject ODRL_P.relation (.namedNode entry.relation))

/-- The quads of a collection. `blank` is the blank node a reverse relation
creates. -/
def generateCollectionTriples (entry : CollectionMetadata) (owner : String) (id : Term)
    (blank : Term) : List Quad :=
  [quad id RDF.type ODRL.AssetCollection,
    quad id ODRL.source (.namedNode entry.source),
    quad id DC.creator (.namedNode owner)] ++
  (if entry.reverse then
    [quad id ODRL_P.relation blank,
      quad blank OWL.inverseOf (.namedNode entry.relation)]
  else [quad id ODRL_P.relation (.namedNode entry.relation)])

/-- The fixed identifier of a new collection. -/
def collectionId (entry : CollectionMetadata) : Term :=
  .namedNode ("collection:" ++
    (if entry.reverse then entry.relation ++ ":" ++ entry.source
    else entry.source ++ ":" ++ entry.relation))

def noMatchingCollection (entry : CollectionMetadata) : HttpError :=
  .badRequest ("Registering resource with relation " ++ entry.relation ++ " to " ++
    entry.source ++ " while there is no matching collection.")

/-- The memberships of `part` in the collections of the entries. -/
def generatePartOfTriples (part : Term) (policyStore : Store) :
    List CollectionMetadata → Except HttpError (List Quad)
  | [] => .ok []
  | entry :: entries => do
    let collectionIds := findCollectionIds entry policyStore
    if collectionIds.length = 0 then throw (noMatchingCollection entry)
    let rest ← generatePartOfTriples part policyStore entries
    return collectionIds.map (fun collectionId => quad part ODRL.partOf collectionId) ++ rest

/-! ## The change of an update -/

structure QuadChange where
  add : List Quad
  remove : List Quad

/-- The quads of the collections that do not exist yet. The blank nodes are
numbered from `n`. -/
def createCollections (policyStore : Store) (owner : String) (blankNode : Nat → Term) :
    Nat → List CollectionMetadata → List Quad
  | _, [] => []
  | n, entry :: entries =>
    (if (findCollectionIds entry policyStore).length > 0 then []
      else generateCollectionTriples entry owner (collectionId entry) (blankNode n)) ++
      createCollections policyStore owner blankNode (n + 1) entries

def notEmpty (collection : Term) : HttpError :=
  .conflict ("Unable to remove collection " ++ collection.value ++ " as it is not empty.")

/-- The inner loop over the collections of an entry that are removed. -/
def removeFound (policyStore : Store) (owner : String) (blankNode : Nat → Term)
    (entry : CollectionMetadata) : Nat → List Term → Except HttpError (List Quad)
  | _, [] => .ok []
  | n, collection :: collections => do
    if policyStore.countQuads none ODRL.partOf collection none > 0 then
      throw (notEmpty collection)
    let rest ← removeFound policyStore owner blankNode entry (n + 1) collections
    return generateCollectionTriples entry owner collection (blankNode n) ++ rest

def removeCollections (policyStore : Store) (owner : String) (blankNode : Nat → Term) :
    Nat → List CollectionMetadata → Except HttpError (List Quad)
  | _, [] => .ok []
  | n, entry :: entries => do
    let collections := findCollectionIds entry policyStore
    let quads ← removeFound policyStore owner blankNode entry n collections
    let rest ← removeCollections policyStore owner blankNode (n + collections.length) entries
    return quads ++ rest

def updateCollections (env : RegistrationEnvironment) (n : Nat) (policyStore : Store)
    (id owner : String) (description : ResourceDescription)
    (previous : Option ResourceDescription) : Except HttpError QuadChange := do
  let add ← getCollectionMetadata env .resource_defaults (some description) id
  let remove ← getCollectionMetadata env .resource_defaults previous id
  let (add, remove) := filterRelationEntries add remove
  let blankNode := fun k => Term.blankNode (env.blankNode n k)
  let addQuads := createCollections policyStore owner blankNode 0 (add.map Prod.snd)
  let removeQuads ← removeCollections policyStore owner blankNode add.length
    (remove.map Prod.snd)
  return { add := addQuads, remove := removeQuads }

def updateRelations (env : RegistrationEnvironment) (policyStore : Store) (id : String)
    (description : ResourceDescription) (previous : Option ResourceDescription) :
    Except HttpError QuadChange := do
  let add ← getCollectionMetadata env .resource_relations (some description) id
  let remove ← getCollectionMetadata env .resource_relations previous id
  let (add, remove) := filterRelationEntries add remove
  let addQuads ← generatePartOfTriples (.namedNode id) policyStore (add.map Prod.snd)
  let removeQuads ← generatePartOfTriples (.namedNode id) policyStore (remove.map Prod.snd)
  return { add := addQuads, remove := removeQuads }

/-! ## Derivations -/

def derivedEntries (description : ResourceDescription) : List DerivedFrom :=
  description.derivedFrom.getD []

/-- The derivation ids of the previous description that the new one lacks. -/
def removedDerivedIds (description : ResourceDescription)
    (previous : Option ResourceDescription) : List String :=
  (((previous.map derivedEntries).getD []).map DerivedFrom.derivationResourceId).eraseDups.filter
    fun id => !((derivedEntries description).map DerivedFrom.derivationResourceId).contains id

/-- The loop that stores the issuers. -/
def storeDerivations : List DerivedFrom → Async ServerState HttpError Unit
  | [] => return ()
  | entry :: entries => do
    Async.modify (ServerState.setDerivation entry.derivationResourceId entry.issuer)
    Async.yield
    storeDerivations entries

/-- The loop over the removed ids. -/
def deleteDerivations : List String → Async ServerState HttpError Unit
  | [] => return ()
  | id :: ids => do
    Async.modify (ServerState.deleteDerivation id)
    Async.yield
    deleteDerivations ids

/-! ## The handler -/

/-- Add the quads, if there are any. -/
def addQuads (quads : List Quad) : Async ServerState HttpError Unit := do
  if quads.length > 0 then
    serverPolicies.addRule (Store.ofQuads quads)
    Async.yield

/-- Remove the quads, if there are any. -/
def removeQuads (quads : List Quad) : Async ServerState HttpError Unit := do
  if quads.length > 0 then
    serverPolicies.removeData (Store.ofQuads quads)
    Async.yield

def setResourceMetadata (env : RegistrationEnvironment) (n : Nat) (id : String)
    (description : ResourceDescription) (owner : String)
    (previous : Option ResourceDescription) : Async ServerState HttpError Unit := do
  let policyStore ← serverPolicies.getStore
  let collectionQuads ← updateCollections env n policyStore id owner description previous
  -- the store is the same one, as it is after the pause
  let policyStore ← serverPolicies.getStore
  let relationQuads ← updateRelations env policyStore id description previous
  Async.yield
  addQuads (collectionQuads.add ++ relationQuads.add)
  removeQuads (collectionQuads.remove ++ relationQuads.remove)
  storeDerivations (derivedEntries description)
  deleteDerivations (removedDerivedIds description previous)
  Async.modify (ServerState.setRegistration id { owner, description })
  Async.yield

/-- `await registrationStore.get(id)`. -/
def getRegistration (id : String) : Async ServerState HttpError (Option Registration) := do
  let s ← Async.get
  Async.yield
  return s.registrationStore.get id

/-- `await ownershipStore.get(owner)`: the array itself. -/
def ownedArray (owner : String) : Async ServerState HttpError (Option Nat) := do
  let s ← Async.get
  Async.yield
  return s.ownershipStore.get owner

/-- `await ownershipStore.get(owner) ?? []`, to look at what is in the array. -/
def ownedResources (owner : String) : Async ServerState HttpError (List String) := do
  let array ← ownedArray owner
  let s ← Async.get
  return s.resourcesIn owner array

def handleGet (request : HttpHandlerRequest) (owner : String) :
    Async ServerState HttpError HttpHandlerResponse := do
  match (request.parameters.get "id").filter (· ≠ "") with
  | some id =>
    match ← getRegistration id with
    | none => throw .notFound
    | some registration =>
      if registration.owner ≠ owner then throw (.forbidden "")
      return { status := 200, body := registration.description.toJson }
  | none =>
    let identifiers ← ownedResources owner
    return { status := 200, body := .array (identifiers.map .string) }

def badSyntax (message : String) : HttpError :=
  .badRequest ("Request has bad syntax: " ++ message)

def alreadyRegistered (resource : String) : HttpError :=
  .conflict ("A resource with name " ++ resource ++
    " is already registered. Use PUT to update existing registrations.")

def registered (id : String) : Json :=
  .object [("_id", .string id),
    ("user_access_policy_uri", .string "TODO: implement policy UI")]

/-- The identifier of a new resource: its name, if nothing has that name yet,
or a random one. -/
def newResource (env : RegistrationEnvironment) (n : Nat) (description : ResourceDescription) :
    Async ServerState HttpError String := do
  match description.name.filter (· ≠ "") with
  | some resource =>
    let s ← Async.get
    Async.yield
    if s.registrationStore.has resource then throw (alreadyRegistered resource)
    return resource
  | none => return env.randomUUID n

def handlePost (env : RegistrationEnvironment) (n : Nat) (request : HttpHandlerRequest)
    (owner : String) : Async ServerState HttpError HttpHandlerResponse := do
  let _ ← (ResourceDescription.assertion request.body).mapError badSyntax
  let description := ResourceDescription.ofJson request.body
  let resource ← newResource env n description
  setResourceMetadata env n resource description owner none
  Async.yield
  let array ← ownedArray owner
  Async.modify (ServerState.pushOwnership owner array resource)
  Async.yield
  return { status := 201, body := registered resource }

def notTheOwner (owner : String) : HttpError :=
  .forbidden (owner ++ " is not the owner of this resource.")

def handlePut (env : RegistrationEnvironment) (n : Nat) (request : HttpHandlerRequest)
    (owner : String) : Async ServerState HttpError HttpHandlerResponse := do
  match request.parameters.get "id" with
  | none => throw (.internalServer "URI for PUT operation should include an id.")
  | some id =>
    match ← getRegistration id with
    | none => throw .notFound
    | some entry =>
      if entry.owner ≠ owner then throw (notTheOwner owner)
      let _ ← (ResourceDescription.assertion request.body).mapError badSyntax
      setResourceMetadata env n id (ResourceDescription.ofJson request.body) owner
        (some entry.description)
      Async.yield
      return { status := 200, body := registered id }

/-- Taking the id out of an array that was read. -/
def spliceOwnership (id owner : String) (array : Option Nat) :
    Async ServerState HttpError Unit := do
  let s ← Async.get
  let resources := s.resourcesIn owner array
  if resources.contains id then
    let remaining := resources.erase id
    if remaining.length = 0 then
      Async.modify (ServerState.deleteOwnership owner array)
      Async.yield
    else
      Async.modify (ServerState.setOwnership owner array remaining)
      Async.yield

/-- Taking the id out of the list of its owner. -/
def removeOwnership (id owner : String) : Async ServerState HttpError Unit := do
  let array ← ownedArray owner
  spliceOwnership id owner array

def handleDelete (request : HttpHandlerRequest) (owner : String) :
    Async ServerState HttpError HttpHandlerResponse := do
  match request.parameters.get "id" with
  | none => throw (.internalServer "URI for DELETE operation should include an id.")
  | some id =>
    match ← getRegistration id with
    | none => throw .notFound
    | some entry =>
      if entry.owner ≠ owner then throw (notTheOwner owner)
      Async.modify (ServerState.deleteRegistration id)
      Async.yield
      removeOwnership id owner
      let store ← serverPolicies.getStore
      serverPolicies.removeData
        (Store.ofQuads (store.getQuads (Term.namedNode id) ODRL.partOf none none))
      Async.yield
      return { status := 204 }

/-- The request, once the owner is known. -/
def respond (env : RegistrationEnvironment) (n : Nat) (request : HttpHandlerRequest)
    (owner : String) : Async ServerState HttpError HttpHandlerResponse :=
  if request.method = "GET" then handleGet request owner
  else if request.method = "POST" then handlePost env n request owner
  else if request.method = "PUT" then handlePut env n request owner
  else if request.method = "DELETE" then handleDelete request owner
  else throw .methodNotAllowed

def handle (validator : RequestValidator) (env : RegistrationEnvironment) (n : Nat)
    (request : HttpHandlerRequest) : Async ServerState HttpError HttpHandlerResponse := do
  let owner ← validator request
  respond env n request owner

end ResourceRegistrationRequestHandler

end UserManagedAccess.Routes
