/-
UserManagedAccess.Controller.RouteSpecific — reading, checking and updating
policies (`util/routeSpecific`).

The SPARQL queries of the source are texts with identifiers in them. With
absolute IRIs for these, a query is a basic graph pattern over the default
graph, and `retrievalPattern`, `policiesPattern` and `creationPattern` are its
solutions, as far as the code looks at them. Any other string makes it some
other query, or none at all: what comes of such a text is up to the engine.
-/
import UserManagedAccess.Rdf.Store
import UserManagedAccess.Util.Errors
import UserManagedAccess.Util.Vocabularies

namespace UserManagedAccess.Controller

open UserManagedAccess.Rdf UserManagedAccess.Util

/-! ## Patterns -/

/-- A triple pattern over the default graph. -/
def holds (store : Store) (subject predicate object : Term) : Bool :=
  store.has (quad subject predicate object)

/-- `subject predicate ?x`. -/
def objectsOf (store : Store) (subject predicate : Term) : List Term :=
  store.getObjects subject predicate Term.defaultGraph

/-- `?x predicate object`. -/
def subjectsOf (store : Store) (predicate object : Term) : List Term :=
  store.getSubjects predicate object Term.defaultGraph

/-- `{ policy a odrl:Agreement } UNION { policy a odrl:Set }`. -/
def isPolicyType (store : Store) (policy : Term) : Bool :=
  holds store policy RDF.type ODRL.Agreement || holds store policy RDF.type ODRL.Set

/-! ## Queries -/

/-- `QueryEngine` of Comunica. -/
structure QueryEngine where
  /-- The solutions of a query over a store, each as its `binding.get`. -/
  queryBindings : String → Store → Except HttpError (List (String → Option Term))
  /-- The effect of an update on a store. -/
  queryVoid : String → Store → Except HttpError Store
  /-- The label that a blank node of the store has in the solutions. -/
  scopedLabel : String → String

/-- A term of the store, as the solutions have it. -/
def QueryEngine.toSolution (engine : QueryEngine) : Term → Term
  | .blankNode label => .blankNode (engine.scopedLabel label)
  | term => term

def isSchemeCharacter (c : Char) : Bool := c.isAlphanum || c == '+' || c == '-' || c == '.'

/-- What may stand between `<` and `>` in a query. -/
def isQueryIriCharacter (c : Char) : Bool :=
  ' ' < c && !"<>\"\x7b\x7d|^`\\".toList.contains c

/-- Between `<` and `>`, the string is an absolute IRI of the query. -/
def isQueryIri (iri : String) : Bool :=
  match iri.toList with
  | [] => false
  | c :: rest =>
    c.isAlpha && (rest.dropWhile isSchemeCharacter).head? == some ':' &&
      (c :: rest).all isQueryIriCharacter

/-! ## GET -/

/-- The quads about a node the code reads for a binding: those of the
policies that have it as a permission, its own, and those of its constraints. -/
def permissionToQuads (store : Store) (permission : Term) : List Quad :=
  (store.getSubjects ODRL.permission permission none).flatMap
      (fun policy : Term => store.getQuads policy none none none) ++
    store.getQuads permission none none none ++
    (store.getObjects permission ODRL.constraint none).flatMap
      (fun constraint : Term => store.getQuads constraint none none none)

/-- The conditions of both retrieval queries on a policy and its permission. -/
def isOwnedPermission (store : Store) (resourceOwner : String) (policy permission : Term) : Bool :=
  holds store permission ODRL.assigner (.namedNode resourceOwner) &&
    !(objectsOf store permission ODRL.target).isEmpty && isPolicyType store policy

/-- How both retrieval queries go on after the permissions of a policy. -/
def ownedPermissionQuery (resourceOwner : String) : String :=
  "        ?perm odrl:assigner <" ++ resourceOwner ++ "> ;
              odrl:target ?target .

        \x7b
            ?policy a odrl:Agreement .
        \x7d UNION \x7b
            ?policy a odrl:Set .
        \x7d
    \x7d
"

def buildPolicyRetrievalQuery (policyID resourceOwner : String) : String :=
  "
    PREFIX odrl: <http://www.w3.org/ns/odrl/2/>

    SELECT DISTINCT ?policy ?perm ?target
    WHERE \x7b
        ?policy odrl:uid <" ++ policyID ++ "> ;
                odrl:permission ?perm .
" ++ ownedPermissionQuery resourceOwner

/-- The policies and permissions `buildPolicyRetrievalQuery` asks for. -/
def retrievalPattern (store : Store) (policyID resourceOwner : String) : List (Term × Term) :=
  (subjectsOf store ODRL.uid (.namedNode policyID)).flatMap fun policy =>
    ((objectsOf store policy ODRL.permission).filter
      (isOwnedPermission store resourceOwner policy)).map fun permission => (policy, permission)

/-- The solutions of `buildPolicyRetrievalQuery` for `?policy` and `?perm`,
where both are bound. -/
def retrievalBindings (engine : QueryEngine) (store : Store) (policyID resourceOwner : String) :
    Except HttpError (List (Term × Term)) :=
  if isQueryIri policyID && isQueryIri resourceOwner then
    .ok ((retrievalPattern store policyID resourceOwner).map fun (policy, perm) =>
      (engine.toSolution policy, engine.toSolution perm))
  else do
    let bindings ← engine.queryBindings (buildPolicyRetrievalQuery policyID resourceOwner) store
    return bindings.filterMap fun binding => do
      let policy ← binding "policy"
      let perm ← binding "perm"
      return (policy, perm)

def getPolicy (engine : QueryEngine) (store : Store) (policyID resourceOwner : String) :
    Except HttpError Store := do
  let bindings ← retrievalBindings engine store policyID resourceOwner
  return Store.ofQuads (bindings.flatMap fun (policy, perm) =>
    permissionToQuads store policy ++ permissionToQuads store perm)

def buildPoliciesRetrievalQuery (resourceOwner : String) : String :=
  "
    PREFIX odrl: <http://www.w3.org/ns/odrl/2/>

    SELECT DISTINCT ?policy ?perm ?target
    WHERE \x7b
        ?policy odrl:permission ?perm .
" ++ ownedPermissionQuery resourceOwner

/-- The permissions `buildPoliciesRetrievalQuery` asks for. -/
def policiesPattern (store : Store) (resourceOwner : String) : List Term :=
  (store.getQuads none ODRL.permission none Term.defaultGraph).filterMap fun q =>
    if isOwnedPermission store resourceOwner q.subject q.object then some q.object else none

/-- The solutions of `buildPoliciesRetrievalQuery` for `?perm`. -/
def policiesBindings (engine : QueryEngine) (store : Store) (resourceOwner : String) :
    Except HttpError (List Term) :=
  if isQueryIri resourceOwner then
    .ok ((policiesPattern store resourceOwner).map engine.toSolution)
  else do
    let bindings ← engine.queryBindings (buildPoliciesRetrievalQuery resourceOwner) store
    return bindings.filterMap fun binding => binding "perm"

def getPolicies (engine : QueryEngine) (store : Store) (resourceOwner : String) :
    Except HttpError Store := do
  let bindings ← policiesBindings engine store resourceOwner
  return Store.ofQuads (bindings.flatMap (permissionToQuads store))

/-! ## POST -/

/-- Whether some quad has the client as assigner: the identifier is looked up
as it is, so that an empty one finds any assigner. -/
def isAssigner (store : Store) (resourceOwner : String) : Bool :=
  store.countQuadsTo ODRL.assigner resourceOwner != 0

def buildPolicyCreationQuery (resourceOwner : String) : String :=
  "
    PREFIX odrl: <http://www.w3.org/ns/odrl/2/>

    SELECT DISTINCT ?p ?r ?target
    WHERE \x7b
        \x7b
            ?p a odrl:Agreement ;
               odrl:permission ?r ;
               odrl:uid ?p .
            ?r odrl:assignee ?assignee .
        \x7d UNION \x7b
            ?p a odrl:Set ;
               odrl:permission ?r ;
               odrl:uid ?p .
        \x7d

        ?r a odrl:Permission ;
           odrl:action ?action ;
           odrl:target ?target ;
           odrl:assigner <" ++ resourceOwner ++ "> .
    \x7d
"

/-- The policies and rules `buildPolicyCreationQuery` asks for. -/
def creationPattern (store : Store) (resourceOwner : String) : List (Term × Term) :=
  ((store.getQuads none ODRL.permission none Term.defaultGraph).filter fun q =>
      holds store q.subject ODRL.uid q.subject &&
        ((holds store q.subject RDF.type ODRL.Agreement &&
            !(objectsOf store q.object ODRL.assignee).isEmpty) ||
          holds store q.subject RDF.type ODRL.Set) &&
        holds store q.object RDF.type ODRL.Permission &&
        !(objectsOf store q.object ODRL.action).isEmpty &&
        !(objectsOf store q.object ODRL.target).isEmpty &&
        holds store q.object ODRL.assigner (.namedNode resourceOwner)).map
    fun q => (q.subject, q.object)

/-- The solutions of `buildPolicyCreationQuery` for `?p` and `?r`. -/
def creationBindings (engine : QueryEngine) (store : Store) (resourceOwner : String) :
    Except HttpError (List (Term × Term)) :=
  if isQueryIri resourceOwner then
    .ok ((creationPattern store resourceOwner).map fun (p, r) =>
      (engine.toSolution p, engine.toSolution r))
  else do
    let bindings ← engine.queryBindings (buildPolicyCreationQuery resourceOwner) store
    return bindings.filterMap fun binding => do
      let p ← binding "p"
      let r ← binding "r"
      return (p, r)

/-- With a match, the whole store is the result: the matched part is
collected and then not used. -/
def executePost (engine : QueryEngine) (store : Store) (resourceOwner : String) :
    Except HttpError Store := do
  let results ← creationBindings engine store resourceOwner
  if results.length = 0 then throw (.error "failed to create")
  return store

def postPolicy (engine : QueryEngine) (store : Store) (resourceOwner : String) :
    Except HttpError (Store × String) := do
  if !isAssigner store resourceOwner then throw (.forbidden "")
  let result ← executePost engine store resourceOwner
  -- several policies can be added at once, so there is no identifier to return
  return (result, "")

/-! ## PATCH -/

def patchPolicy (engine : QueryEngine) (store : Store) (resourceOwner query : String) :
    Except HttpError Store :=
  if !isAssigner store resourceOwner then
    .error (.forbidden "resource owner doesn't match")
  else engine.queryVoid query store

/-! ## Conflicts -/

def noAlreadyDefinedSubjects (store newStore : Store) : Bool :=
  (newStore.getSubjects none none none).all fun subject =>
    store.countQuads subject none none none == 0

end UserManagedAccess.Controller
