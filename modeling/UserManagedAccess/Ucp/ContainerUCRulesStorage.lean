/-
UserManagedAccess.Ucp.ContainerUCRulesStorage — the policy storage whose policies are
the Turtle documents of an LDP container.

The state is the container on its server. The server applies a patch to one document,
all of it or nothing, and it lists the documents there are. A request may fail all the
same: `Faults` says which ones do, and how. The blank nodes of a document keep their
names.
-/
import UserManagedAccess.Rdf.Links
import UserManagedAccess.Ucp.UCRulesStorage

namespace UserManagedAccess.Ucp

open UserManagedAccess.Lib UserManagedAccess.Rdf UserManagedAccess.Util

namespace ContainerUCRulesStorage

/-! ## The server -/

/-- The documents by their URL, none of which is that of the container itself. In
Turtle there is no graph but the default one. -/
structure Container (url : String) where
  documents : Dict Store
  distinct : documents.keys.Nodup
  proper : url ∉ documents.keys
  plain : ∀ entry ∈ documents, entry.2.Plain

/-- The body of an N3 patch. -/
inductive Patch where
  | inserts (quads : List Quad)
  | deletes (quads : List Quad)

namespace Patch

/-- A patch has neither blank nodes nor graphs, and deletes what is there. -/
def accepted (document : Store) : Patch → Bool
  | inserts quads => quads.all fun q => q.isGround && q.graph = .defaultGraph
  | deletes quads => quads.all fun q => q.isGround && document.has q

def applied (document : Store) : Patch → Store
  | inserts quads => document.addQuads quads
  | deletes quads => document.removeQuads quads

theorem plain_applied {document : Store} {patch : Patch} (h : document.Plain)
    (haccepted : patch.accepted document = true) : (patch.applied document).Plain := by
  intro q hq
  cases patch with
  | inserts quads =>
    rcases Store.mem_addQuads.mp hq with hq | hq
    · exact h q hq
    · have hground := List.all_eq_true.mp haccepted q hq
      exact of_decide_eq_true (Bool.and_eq_true_iff.mp hground).2
  | deletes quads => exact h q (Store.mem_removeQuads.mp hq).1

end Patch

namespace Container

variable {containerURL : String}

def document (c : Container containerURL) (url : String) : Store :=
  (c.documents.get url).getD Store.empty

theorem plain_document (c : Container containerURL) (url : String) :
    (c.document url).Plain := by
  intro q hq
  cases hget : c.documents.get url with
  | none =>
    rw [document, hget] at hq
    exact absurd hq (Store.not_mem_empty q)
  | some store =>
    rw [document, hget] at hq
    exact c.plain _ (Dict.mem_of_get hget) q hq

/-- A patch creates the document it is for. -/
def patched (c : Container containerURL) (url : String) (patch : Patch)
    (h : url ≠ containerURL ∧ patch.accepted (c.document url) = true) :
    Container containerURL where
  documents := c.documents.set url (patch.applied (c.document url))
  distinct := Dict.nodup_keys_set c.distinct url _
  proper := by
    rw [Dict.keys_set]
    split
    · exact c.proper
    · simpa using ⟨c.proper, h.1.symm⟩
  plain := by
    intro entry hentry
    rcases Dict.mem_set hentry with rfl | hentry
    · exact Patch.plain_applied (c.plain_document url) h.2
    · exact c.plain entry hentry

def apply (c : Container containerURL) (url : String) (patch : Patch) :
    Option (Container containerURL) :=
  if h : url ≠ containerURL ∧ patch.accepted (c.document url) = true then
    some (c.patched url patch h)
  else none

def LDP_CONTAINS : Term := .namedNode "http://www.w3.org/ns/ldp#contains"

/-- The description of the container. -/
def listing (c : Container containerURL) : Store :=
  Store.ofQuads (c.documents.keys.map fun childURL =>
    quad (.namedNode containerURL) LDP_CONTAINS (.namedNode childURL))

end Container

/-! ## Requests -/

structure Response where
  status : Nat
  contentType : Option String := none
  /-- The text of an error. That of a document only matters to the parser. -/
  text : String := ""
  /-- What the parser makes of the text. -/
  parsed : Except HttpError Store := .ok Store.empty

/-- A read that does not give the document. -/
structure Fault where
  response : Except HttpError Response
  fails : ∀ r store, response = .ok r → r.status = 200 → r.contentType = some "text/turtle" →
    r.parsed ≠ .ok store

/-- A patch that is answered with an error, or not at all. -/
structure Refusal where
  response : Except HttpError Response
  fails : ∀ r, response = .ok r → 400 ≤ r.status
  /-- The server may have applied it all the same. -/
  applied : Bool

/-- The requests of a call that fail, by the URL they are sent to. -/
structure Faults where
  reads : String → Option Fault := fun _ => none
  patches : String → Option Refusal := fun _ => none

variable {containerURL : String}

/-- A `GET` that succeeds. -/
def Container.respond (c : Container containerURL) (url : String) : Response :=
  let turtle := fun store =>
    { status := 200, contentType := some "text/turtle", parsed := .ok store : Response }
  if url = containerURL then turtle c.listing
  else
    match c.documents.get url with
    | some document => turtle document
    | none => { status := 404 }

def fetch (faults : Faults) (url : String) : Async (Container containerURL) HttpError Response :=
  do
  Async.yield
  let c ← Async.get
  match faults.reads url with
  | some fault => fault.response
  | none => return c.respond url

def fetchPatch (faults : Faults) (url : String) (patch : Patch) :
    Async (Container containerURL) HttpError Response := do
  Async.yield
  let c ← Async.get
  let after := (c.apply url patch).getD c
  match faults.patches url with
  | some refusal =>
    Async.modify fun _ => if refusal.applied then after else c
    refusal.response
  | none =>
    Async.modify fun _ => after
    return { status := if (c.apply url patch).isSome then 205 else 409 }

/-! ## The storage -/

def readLdpRDFResource (faults : Faults) (resourceURL : String) :
    Async (Container containerURL) HttpError Store := do
  let response ← fetch faults resourceURL
  let contentType := response.contentType.getD "null"
  if response.status = 404 then
    return Store.empty
  else if response.status ≠ 200 then
    throw (.error
      s!"Unable to access policy resource {resourceURL}: {response.status} - {response.text}")
  else if contentType ≠ "text/turtle" then
    throw (.error s!"Only turtle serialization is supported, received {contentType}")
  else response.parsed

/-- The loop of `getDocuments`: an error only leaves its document out. -/
def readChildren (faults : Faults) :
    List String → Dict Store → Async (Container containerURL) HttpError (Dict Store)
  | [], result => return result
  | childURL :: children, result => do
    let result' ← tryCatch
      (do
        let store ← readLdpRDFResource faults childURL
        return result.set childURL store)
      (fun _ => return result)
    readChildren faults children result'

def getDocuments (faults : Faults) : Async (Container containerURL) HttpError (Dict Store) := do
  let container ← readLdpRDFResource faults containerURL
  let children :=
    (container.getObjects (Term.namedNode containerURL) Container.LDP_CONTAINS none).map Term.value
  readChildren faults children []

def getStore (faults : Faults) : Async (Container containerURL) HttpError Store := do
  let documents ← getDocuments faults
  return documents.foldl (fun store entry => store.addAll entry.2) Store.empty

/-- `extraDataUrl` is a new URL in the container. -/
def addRule (faults : Faults) (uuid : String) (rule : Store) :
    Async (Container containerURL) HttpError Unit :=
  let extraDataUrl := containerURL ++ uuid
  if rule.size = 0 then return ()
  else do
    let response ← fetchPatch faults extraDataUrl (.inserts rule.quads)
    if response.status ≥ 400 then
      throw (.error s!"Could not add rule to the storage: {response.status} - {response.text}")

/-- The patch for one document. -/
def removeMatches (faults : Faults) (url : String) (quads : List Quad) :
    Async (Container containerURL) HttpError Unit :=
  if quads.length > 0 then do
    let response ← fetchPatch faults url (.deletes quads)
    if response.status ≥ 400 then
      throw (.error s!"Could not update rule resource {url}: {response.status} - {response.text}")
  else return ()

def removeFrom (faults : Faults) (data : Store) :
    Dict Store → Async (Container containerURL) HttpError Unit
  | [] => return ()
  | (url, store) :: documents => do
    removeMatches faults url (data.quads.filter store.has)
    removeFrom faults data documents

def removeData (faults : Faults) (data : Store) : Async (Container containerURL) HttpError Unit :=
  if data.size = 0 then return ()
  else do
    let documents ← getDocuments faults
    removeFrom faults data documents

end ContainerUCRulesStorage

/-- `ContainerUCRulesStorage.ts`. -/
def containerUCRulesStorage (containerURL uuid : String)
    (faults : ContainerUCRulesStorage.Faults) :
    UCRulesStorage (ContainerUCRulesStorage.Container containerURL) where
  getStore := ContainerUCRulesStorage.getStore faults
  addRule rule := ContainerUCRulesStorage.addRule faults uuid rule
  removeData data := ContainerUCRulesStorage.removeData faults data

end UserManagedAccess.Ucp
