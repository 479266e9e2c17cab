/-
UserManagedAccess.Ucp.ContainerTheorems — a container of documents as one set of
policies.

* `policies` — the set: what any of the documents holds;
* `Refines` — a call that resolves does to the set what its name says;
* `refines_iff` — which calls do, whatever the container and the requests that fail;
* `unread_document` — a prohibition that is dropped, and one that is not removed.

The calls are evaluated request by request, with a lemma for every way in which one
can end: `run_read_…` for the requests for documents, `run_removeMatches` for a patch.
The two loops are inductions on the children that are left, with what was read so far
as their invariant (`Gathered`). `Documents` then says what a call has got, and the
rest compares sets of quads.

The quads are ground (`GroundStore`): a patch cannot name a blank node of a document.
Requests fail or hide a document as `Fault` has it, each on its own; nobody else
writes to the container meanwhile.
-/
import Mathlib.Data.Set.Basic
import UserManagedAccess.Lib.Transitions
import UserManagedAccess.Ucp.ContainerUCRulesStorage

namespace UserManagedAccess.Ucp.ContainerUCRulesStorage

open UserManagedAccess.Lib UserManagedAccess.Rdf UserManagedAccess.Util

variable {containerURL : String} {c : Container containerURL} {faults : Faults} {url : String}

/-! ## The set of policies -/

/-- The document at the URL holds the quad. -/
def Container.Holds (c : Container containerURL) (url : String) (q : Quad) : Prop :=
  ∃ document, c.documents.get url = some document ∧ q ∈ document

def Container.policies (c : Container containerURL) : Set Quad := {q | ∃ url, c.Holds url q}

/-- The quads of a store. -/
def quadSet (store : Store) : Set Quad := {q | q ∈ store}

theorem holds_iff_document {q : Quad} : c.Holds url q ↔ q ∈ c.document url := by
  unfold Container.Holds Container.document
  cases c.documents.get url with
  | none => simp
  | some document => simp

/-! ## What a patch does -/

theorem apply_eq_some {patch : Patch} (hurl : url ≠ containerURL)
    (haccepted : patch.accepted (c.document url) = true) :
    c.apply url patch = some (c.patched url patch ⟨hurl, haccepted⟩) :=
  dif_pos ⟨hurl, haccepted⟩

/-- The other documents stay as they are. -/
theorem holds_apply {c' : Container containerURL} {patch : Patch}
    (h : c.apply url patch = some c') {other : String} {q : Quad} :
    c'.Holds other q ↔
      if other = url then q ∈ patch.applied (c.document url) else c.Holds other q := by
  unfold Container.apply at h
  split at h
  · injection h with h
    subst h
    unfold Container.Holds Container.patched
    simp only [Dict.get_set]
    split
    · simp
    · rfl
  · cases h

theorem run_fetchPatch_refused (c : Container containerURL) (patch : Patch)
    {refusal : Refusal} (h : faults.patches url = some refusal) :
    ∃ c', (fetchPatch faults url patch).run c = (refusal.response, c') := by
  refine ⟨if refusal.applied then (c.apply url patch).getD c else c, ?_⟩
  unfold fetchPatch
  rw [Async.run_bind_of_ok (Async.run_yield c), Async.run_bind_of_ok (Async.run_get c), h]
  rfl

theorem run_fetchPatch (patch : Patch) (h : faults.patches url = none) :
    (fetchPatch faults url patch).run c =
      (.ok { status := if (c.apply url patch).isSome then 205 else 409 },
        (c.apply url patch).getD c) := by
  unfold fetchPatch
  rw [Async.run_bind_of_ok (Async.run_yield c), Async.run_bind_of_ok (Async.run_get c), h]
  rfl

/-- The answer is no error: the server has made the change. -/
theorem apply_of_fetchPatch {patch : Patch} {r : Response} {c' : Container containerURL}
    (h : (fetchPatch faults url patch).run c = (.ok r, c')) (hstatus : ¬ r.status ≥ 400) :
    c.apply url patch = some c' := by
  cases hpatch : faults.patches url with
  | some refusal =>
    obtain ⟨c₁, hrun⟩ := run_fetchPatch_refused c patch hpatch
    have hresponse : refusal.response = .ok r := congrArg Prod.fst (hrun.symm.trans h)
    exact absurd (refusal.fails r hresponse) hstatus
  | none =>
    rw [run_fetchPatch patch hpatch] at h
    obtain ⟨hresponse, hafter⟩ := Prod.mk.inj h
    have hanswer := Except.ok.inj hresponse
    cases happly : c.apply url patch with
    | none =>
      rw [← hanswer, happly] at hstatus
      exact absurd (by simp) hstatus
    | some after =>
      rw [happly] at hafter
      exact congrArg some hafter

/-! ## What a read gives -/

/-- The answer hides what there is, instead of being an error. -/
def Fault.Hides (fault : Fault) : Prop := ∃ r, fault.response = .ok r ∧ r.status = 404

/-- The request for the document succeeds. -/
def Seen (faults : Faults) (c : Container containerURL) (url : String) (document : Store) : Prop :=
  faults.reads url = none ∧ c.documents.get url = some document

theorem ne_of_get {document : Store} (h : c.documents.get url = some document) :
    url ≠ containerURL := by
  rintro rfl
  exact c.proper (Dict.mem_keys_iff.mpr ⟨document, h⟩)

theorem run_fetch_none (h : faults.reads url = none) :
    (fetch faults url).run c = (.ok (c.respond url), c) := by
  rw [fetch, Async.run_bind_of_ok (Async.run_yield c), Async.run_bind_of_ok (Async.run_get c), h]
  rfl

theorem run_fetch_fault {fault : Fault} (h : faults.reads url = some fault) :
    (fetch faults url).run c = (fault.response, c) := by
  rw [fetch, Async.run_bind_of_ok (Async.run_yield c), Async.run_bind_of_ok (Async.run_get c), h]
  rfl

theorem run_read_none {store : Store} (h : faults.reads url = none)
    (hresponse : c.respond url =
      { status := 200, contentType := some "text/turtle", parsed := .ok store }) :
    (readLdpRDFResource faults url).run c = (.ok store, c) := by
  rw [readLdpRDFResource, Async.run_bind_of_ok (run_fetch_none h), hresponse]
  rfl

theorem run_read_listing (h : faults.reads containerURL = none) :
    (readLdpRDFResource faults containerURL).run c = (.ok c.listing, c) :=
  run_read_none h (by simp [Container.respond])

theorem run_read_seen {document : Store} (h : Seen faults c url document) :
    (readLdpRDFResource faults url).run c = (.ok document, c) := by
  exact run_read_none h.1 (by simp [Container.respond, ne_of_get h.2, h.2])

/-- There is nothing at the URL. -/
theorem run_read_missing (hurl : url ≠ containerURL) (h : faults.reads url = none)
    (hget : c.documents.get url = none) :
    (readLdpRDFResource faults url).run c = (.ok Store.empty, c) := by
  have hfetch : (fetch faults url).run c = (.ok { status := 404 }, c) := by
    rw [run_fetch_none h]
    simp [Container.respond, hurl, hget]
  rw [readLdpRDFResource, Async.run_bind_of_ok hfetch]
  rfl

theorem run_read_hidden {fault : Fault} (h : faults.reads url = some fault)
    (hhides : fault.Hides) :
    (readLdpRDFResource faults url).run c = (.ok Store.empty, c) := by
  obtain ⟨r, hresponse, hstatus⟩ := hhides
  have hfetch : (fetch faults url).run c = (.ok r, c) := by
    rw [run_fetch_fault h, hresponse]
  rw [readLdpRDFResource, Async.run_bind_of_ok hfetch]
  simp only [hstatus, if_true]
  rfl

theorem run_read_failed (c : Container containerURL) {fault : Fault}
    (h : faults.reads url = some fault) (hhides : ¬ fault.Hides) :
    ∃ e, (readLdpRDFResource faults url).run c = (.error e, c) := by
  cases hresponse : fault.response with
  | error e =>
    have hfetch : (fetch faults url).run c = (.error e, c) := by
      rw [run_fetch_fault h, hresponse]
    exact ⟨e, Async.run_bind_of_error hfetch _⟩
  | ok r =>
    have hfetch : (fetch faults url).run c = (.ok r, c) := by
      rw [run_fetch_fault h, hresponse]
    have hstatus : r.status ≠ 404 := fun hstatus => hhides ⟨r, hresponse, hstatus⟩
    rw [readLdpRDFResource, Async.run_bind_of_ok hfetch]
    simp only [if_neg hstatus]
    split
    · exact ⟨_, rfl⟩
    · rename_i hok
      split
      · exact ⟨_, rfl⟩
      · rename_i htype
        -- the text is what is wrong then
        have hturtle : r.contentType = some "text/turtle" := by
          cases hcontent : r.contentType with
          | none => simp [hcontent] at htype
          | some contentType => simpa [hcontent] using htype
        cases hparsed : r.parsed with
        | error e => exact ⟨e, rfl⟩
        | ok store =>
          exact absurd hparsed (fault.fails r store hresponse (by simpa using hok) hturtle)

/-- A child, whatever becomes of the request: its document, or nothing of it. -/
theorem run_read_child (faults : Faults) (c : Container containerURL)
    (hurl : url ≠ containerURL) :
    ∃ r, (readLdpRDFResource faults url).run c = (r, c) ∧
      (∀ store, r = .ok store → store = Store.empty ∨ Seen faults c url store) ∧
        ∀ document, Seen faults c url document → r = .ok document := by
  have hempty : (∀ document, ¬ Seen faults c url document) →
      ∀ r : Except HttpError Store, (∀ store, r = .ok store → store = Store.empty) →
        (∀ store, r = .ok store → store = Store.empty ∨ Seen faults c url store) ∧
          ∀ document, Seen faults c url document → r = .ok document :=
    fun hunseen r hr => ⟨fun store h => Or.inl (hr store h), fun d hd => absurd hd (hunseen d)⟩
  cases hfault : faults.reads url with
  | some fault =>
    have hunseen : ∀ document, ¬ Seen faults c url document := by
      intro document hseen
      rw [hseen.1] at hfault
      cases hfault
    by_cases hhides : fault.Hides
    · refine ⟨.ok Store.empty, run_read_hidden hfault hhides, hempty hunseen _ ?_⟩
      intro store h
      injection h with h
      exact h.symm
    · obtain ⟨e, he⟩ := run_read_failed c hfault hhides
      refine ⟨.error e, he, hempty hunseen _ ?_⟩
      intro store h
      cases h
  | none =>
    cases hget : c.documents.get url with
    | none =>
      refine ⟨.ok Store.empty, run_read_missing hurl hfault hget, hempty ?_ _ ?_⟩
      · intro document hseen
        rw [hseen.2] at hget
        cases hget
      · intro store h
        injection h with h
        exact h.symm
    | some document =>
      have hseen : Seen faults c url document := ⟨hfault, hget⟩
      refine ⟨.ok document, run_read_seen hseen, ?_, ?_⟩
      · intro store h
        injection h with h
        exact Or.inr (h ▸ hseen)
      · intro other hother
        have hsame : document = other := Option.some.inj (hget.symm.trans hother.2)
        rw [hsame]

/-! ## The documents of a call -/

/-- The call has got the documents that could be read, those of the children so far. -/
structure Gathered (faults : Faults) (c : Container containerURL) (children : List String)
    (result : Dict Store) : Prop where
  distinct : result.keys.Nodup
  seen : ∀ url store, result.get url = some store → store = Store.empty ∨ Seen faults c url store
  all : ∀ url ∈ children, ∀ document, Seen faults c url document →
    result.get url = some document

theorem gathered_skip {children : List String} {result : Dict Store} {childURL : String}
    (h : Gathered faults c children result)
    (hunseen : ∀ document, ¬ Seen faults c childURL document) :
    Gathered faults c (children ++ [childURL]) result := by
  refine ⟨h.distinct, h.seen, fun url hurl document hseen => ?_⟩
  rcases List.mem_append.mp hurl with hurl | hurl
  · exact h.all url hurl document hseen
  · exact absurd (List.mem_singleton.mp hurl ▸ hseen) (hunseen document)

theorem gathered_set {children : List String} {result : Dict Store} {childURL : String}
    {store : Store} (h : Gathered faults c children result)
    (hstore : store = Store.empty ∨ Seen faults c childURL store)
    (hsame : ∀ document, Seen faults c childURL document → store = document) :
    Gathered faults c (children ++ [childURL]) (result.set childURL store) := by
  refine ⟨Dict.nodup_keys_set h.distinct childURL store, ?_, fun url hurl document hseen => ?_⟩
  · intro url other hget
    rw [Dict.get_set] at hget
    split at hget
    · rename_i hurl
      injection hget with hget
      exact hget ▸ hurl ▸ hstore
    · exact h.seen url other hget
  · rw [Dict.get_set]
    split
    · rename_i heq
      rw [hsame document (heq ▸ hseen)]
    · rename_i hne
      rcases List.mem_append.mp hurl with hurl | hurl
      · exact h.all url hurl document hseen
      · exact absurd (List.mem_singleton.mp hurl) hne

/-- The loop: each child, whatever becomes of its request. -/
theorem run_readChildren {children seen : List String} {result : Dict Store}
    (hchildren : ∀ url ∈ children, url ≠ containerURL) (h : Gathered faults c seen result) :
    ∃ result', (readChildren faults children result).run c = (.ok result', c) ∧
      Gathered faults c (seen ++ children) result' := by
  induction children generalizing seen result with
  | nil => exact ⟨result, rfl, by simpa using h⟩
  | cons childURL children ih =>
    have hrest : ∀ url ∈ children, url ≠ containerURL :=
      fun url hurl => hchildren url (List.mem_cons_of_mem _ hurl)
    obtain ⟨r, hread, hstore, hseen⟩ :=
      run_read_child faults c (hchildren childURL List.mem_cons_self)
    cases r with
    | ok store =>
      have hnext : Gathered faults c (seen ++ [childURL]) (result.set childURL store) := by
        refine gathered_set h (hstore store rfl) fun document hdocument => ?_
        exact Except.ok.inj (hseen document hdocument)
      obtain ⟨result', hrun, hgathered⟩ := ih hrest hnext
      refine ⟨result', ?_, by simpa using hgathered⟩
      rw [readChildren, Async.run_bind_of_ok (Async.run_tryCatch_of_ok ?_ _)]
      · exact hrun
      · rw [Async.run_bind_of_ok hread]
        rfl
    | error e =>
      have hnext : Gathered faults c (seen ++ [childURL]) result := by
        refine gathered_skip h fun document hdocument => ?_
        cases hseen document hdocument
      obtain ⟨result', hrun, hgathered⟩ := ih hrest hnext
      refine ⟨result', ?_, by simpa using hgathered⟩
      have hcatch : (tryCatch (do
          let store ← readLdpRDFResource faults childURL
          return result.set childURL store)
          (fun _ => return result) : Async (Container containerURL) HttpError _).run c =
            (.ok result, c) := by
        rw [Async.run_tryCatch_of_error (Async.run_bind_of_error hread _)]
        rfl
      rw [readChildren, Async.run_bind_of_ok hcatch]
      exact hrun

/-- What the container lists. -/
theorem mem_children {childURL : String} :
    childURL ∈ (c.listing.getObjects (Term.namedNode containerURL) Container.LDP_CONTAINS
        none).map Term.value ↔ childURL ∈ c.documents.keys := by
  have hlinked : ∀ child, c.listing.Linked (Term.namedNode containerURL) Container.LDP_CONTAINS
      child ↔ ∃ key ∈ c.documents.keys, Term.namedNode key = child := by
    intro child
    simp [Store.Linked, Container.listing]
  simp only [List.mem_map, Store.mem_getObjects_linked, hlinked]
  constructor
  · intro ⟨child, ⟨key, hkey, hchild⟩, hvalue⟩
    rw [← hchild] at hvalue
    exact hvalue ▸ hkey
  · intro hkey
    exact ⟨_, ⟨childURL, hkey, rfl⟩, rfl⟩

/-- The container itself cannot be read, and the call notices. -/
def Rejected (faults : Faults) (containerURL : String) : Prop :=
  ∃ fault, faults.reads containerURL = some fault ∧ ¬ fault.Hides

/-- A call gets the document. -/
def Read (faults : Faults) (c : Container containerURL) (url : String) (document : Store) : Prop :=
  faults.reads containerURL = none ∧ Seen faults c url document

/-- What `getDocuments` returns: of each document everything, or nothing. -/
structure Documents (faults : Faults) (c : Container containerURL) (result : Dict Store) :
    Prop where
  distinct : result.keys.Nodup
  read : ∀ url store, result.get url = some store → store = Store.empty ∨ Read faults c url store
  all : ∀ url document, Read faults c url document → result.get url = some document

theorem run_getDocuments_rejected (c : Container containerURL)
    (h : Rejected faults containerURL) :
    ∃ e, (getDocuments faults).run c = (.error e, c) := by
  obtain ⟨fault, hfault, hhides⟩ := h
  obtain ⟨e, he⟩ := run_read_failed c hfault hhides
  exact ⟨e, Async.run_bind_of_error he _⟩

theorem run_getDocuments (c : Container containerURL) (h : ¬ Rejected faults containerURL) :
    ∃ result, (getDocuments faults).run c = (.ok result, c) ∧ Documents faults c result := by
  cases hfault : faults.reads containerURL with
  | some fault =>
    have hhides : fault.Hides := by
      by_contra hhides
      exact h ⟨fault, hfault, hhides⟩
    refine ⟨[], ?_, List.nodup_nil, ?_, ?_⟩
    · rw [getDocuments, Async.run_bind_of_ok (run_read_hidden hfault hhides)]
      rfl
    · intro url store hget
      cases hget
    · intro url document hread
      rw [hread.1] at hfault
      cases hfault
  | none =>
    have hempty : Gathered faults c [] [] := by
      refine ⟨List.nodup_nil, ?_, ?_⟩
      · intro url store hget
        cases hget
      · intro url hurl
        cases hurl
    have hchildren : ∀ url ∈ (c.listing.getObjects (Term.namedNode containerURL)
        Container.LDP_CONTAINS none).map Term.value, url ≠ containerURL := by
      intro url hurl heq
      exact c.proper (heq ▸ mem_children.mp hurl)
    obtain ⟨result, hrun, hgathered⟩ := run_readChildren hchildren hempty
    refine ⟨result, ?_, hgathered.distinct, ?_, ?_⟩
    · rw [getDocuments, Async.run_bind_of_ok (run_read_listing hfault)]
      exact hrun
    · exact fun url store hget => (hgathered.seen url store hget).imp_right fun hseen =>
        ⟨hfault, hseen⟩
    · intro url document hread
      refine hgathered.all url ?_ document hread.2
      exact mem_children.mpr (Dict.mem_keys_iff.mpr ⟨document, hread.2.2⟩)

theorem Documents.mem_iff {result : Dict Store} (h : Documents faults c result) {q : Quad} :
    (∃ store, (url, store) ∈ result ∧ q ∈ store) ↔
      ∃ document, Read faults c url document ∧ q ∈ document := by
  constructor
  · intro ⟨store, hstore, hq⟩
    rcases h.read url store (Dict.get_of_mem h.distinct hstore) with rfl | hread
    · exact absurd hq (Store.not_mem_empty q)
    · exact ⟨store, hread, hq⟩
  · intro ⟨document, hread, hq⟩
    exact ⟨document, Dict.mem_of_get (h.all url document hread), hq⟩

/-! ## `getStore` -/

/-- The store is what the call has read. -/
theorem run_getStore (c : Container containerURL) (h : ¬ Rejected faults containerURL) :
    ∃ store, (getStore faults).run c = (.ok store, c) ∧
      ∀ q, q ∈ store ↔ ∃ url document, Read faults c url document ∧ q ∈ document := by
  obtain ⟨result, hrun, hdocuments⟩ := run_getDocuments c h
  refine ⟨_, Async.run_bind_of_ok hrun _, fun q => ?_⟩
  rw [Store.mem_foldl_addAll]
  simp only [Store.not_mem_empty, false_or, Prod.exists, hdocuments.mem_iff]

theorem run_getStore_rejected (c : Container containerURL) (h : Rejected faults containerURL) :
    ∃ e, (getStore faults).run c = (.error e, c) := by
  obtain ⟨e, he⟩ := run_getDocuments_rejected c h
  exact ⟨e, Async.run_bind_of_error he _⟩

/-! ## `removeData` -/

/-- Some quad of the data is in the document. -/
def Matches (data document : Store) : Prop := ∃ q ∈ data.quads, q ∈ document

theorem filter_has_eq_nil {data document : Store} (h : ¬ Matches data document) :
    data.quads.filter document.has = [] := by
  refine List.filter_eq_nil_iff.mpr fun q hq hhas => h ⟨q, hq, ?_⟩
  exact (Store.has_iff document q).mp hhas

theorem length_filter_has {data document : Store} (h : Matches data document) :
    (data.quads.filter document.has).length > 0 := by
  obtain ⟨q, hq, hdocument⟩ := h
  refine List.length_pos_of_mem (a := q) (List.mem_filter.mpr ⟨hq, ?_⟩)
  exact (Store.has_iff document q).mpr hdocument

/-- The patch for a document that has matches, if the request fails. -/
theorem run_removeMatches_refused {quads : List Quad} (c : Container containerURL)
    (hquads : quads.length > 0) (h : faults.patches url ≠ none) :
    ∃ e c', (removeMatches faults url quads).run c = (.error e, c') := by
  obtain ⟨refusal, hrefusal⟩ := Option.ne_none_iff_exists'.mp h
  obtain ⟨c', hfetch⟩ := run_fetchPatch_refused c (.deletes quads) hrefusal
  rw [removeMatches, if_pos hquads]
  cases hresponse : refusal.response with
  | error e =>
    rw [hresponse] at hfetch
    exact ⟨e, c', Async.run_bind_of_error hfetch _⟩
  | ok r =>
    rw [hresponse] at hfetch
    have hstatus : r.status ≥ 400 := refusal.fails r hresponse
    rw [Async.run_bind_of_ok hfetch, if_pos hstatus]
    exact ⟨_, c', rfl⟩

/-- Quads without blank nodes. -/
def Ground (data : Store) : Prop := ∀ q ∈ data.quads, q.isGround = true

instance (data : Store) : Decidable (Ground data) :=
  inferInstanceAs (Decidable (∀ q ∈ data.quads, _))

/-- The patch, if its request succeeds: the matches of the document are gone, and the
other documents have not changed. -/
theorem run_removeMatches_matched {data document : Store} (hground : Ground data)
    (hget : c.documents.get url = some document) (hmatches : Matches data document)
    (h : faults.patches url = none) :
    ∃ c', (removeMatches faults url (data.quads.filter document.has)).run c = (.ok (), c') ∧
      (∀ other, other ≠ url → c'.documents.get other = c.documents.get other) ∧
        ∀ other q, c'.Holds other q ↔
          c.Holds other q ∧ ¬ (q ∈ data ∧ other = url ∧ q ∈ document) := by
  have hurl : url ≠ containerURL := ne_of_get hget
  have hdocument : c.document url = document := by rw [Container.document, hget]; rfl
  have haccepted : (Patch.deletes (data.quads.filter document.has)).accepted
      (c.document url) = true := by
    refine List.all_eq_true.mpr fun q hq => ?_
    obtain ⟨hq, hhas⟩ := List.mem_filter.mp hq
    rw [hdocument, hground q hq, hhas, Bool.and_self]
  have happly := apply_eq_some hurl haccepted
  refine ⟨c.patched url _ ⟨hurl, haccepted⟩, ?_, ?_, ?_⟩
  · rw [removeMatches, if_pos (length_filter_has hmatches),
      Async.run_bind_of_ok (run_fetchPatch _ h), happly]
    rfl
  · exact fun other hother => Dict.get_set_ne _ _ hother
  · intro other q
    rw [holds_apply happly, hdocument]
    split
    · rename_i heq
      rw [heq, holds_iff_document, hdocument, Patch.applied, Store.mem_removeQuads,
        List.mem_filter, Store.has_iff]
      simp only [Store.mem_def]
      grind
    · rename_i hne
      simp [hne]

/-- One document, whatever becomes of the request. -/
theorem run_removeMatches (faults : Faults) {data document : Store} (hground : Ground data)
    (hget : Matches data document → c.documents.get url = some document) :
    (∃ e c', (removeMatches faults url (data.quads.filter document.has)).run c =
      (.error e, c') ∧ Matches data document ∧ faults.patches url ≠ none) ∨
    ∃ c', (removeMatches faults url (data.quads.filter document.has)).run c = (.ok (), c') ∧
      ¬ (Matches data document ∧ faults.patches url ≠ none) ∧
        (∀ other, other ≠ url → c'.documents.get other = c.documents.get other) ∧
          ∀ other q, c'.Holds other q ↔
            c.Holds other q ∧ ¬ (q ∈ data ∧ other = url ∧ q ∈ document) := by
  by_cases hmatches : Matches data document
  · by_cases hpatch : faults.patches url = none
    · obtain ⟨c', hrun, hc'⟩ :=
        run_removeMatches_matched hground (hget hmatches) hmatches hpatch
      exact Or.inr ⟨c', hrun, fun h => h.2 hpatch, hc'⟩
    · obtain ⟨e, c', hrun⟩ := run_removeMatches_refused c (length_filter_has hmatches) hpatch
      exact Or.inl ⟨e, c', hrun, hmatches, hpatch⟩
  · refine Or.inr ⟨c, ?_, fun h => hmatches h.1, fun _ _ => rfl, fun other q => ?_⟩
    · rw [filter_has_eq_nil hmatches]
      rfl
    · refine (and_iff_left ?_).symm
      exact fun ⟨hdata, _, hdocument⟩ => hmatches ⟨q, hdata, hdocument⟩

/-- The request for the removal from some document fails. -/
def Refused (faults : Faults) (data : Store) (documents : Dict Store) : Prop :=
  ∃ url document, (url, document) ∈ documents ∧ Matches data document ∧
    faults.patches url ≠ none

/-- The loop: either it comes to a request that fails, or the matches are gone. -/
theorem run_removeFrom {data : Store} (hground : Ground data) {documents : Dict Store}
    (hdistinct : documents.keys.Nodup)
    (hget : ∀ url document, (url, document) ∈ documents → Matches data document →
      c.documents.get url = some document) :
    (∃ e c', (removeFrom faults data documents).run c = (.error e, c') ∧
      Refused faults data documents) ∨
    ∃ c', (removeFrom faults data documents).run c = (.ok (), c') ∧
      ¬ Refused faults data documents ∧
        ∀ url q, c'.Holds url q ↔
          c.Holds url q ∧ ¬ (q ∈ data ∧ ∃ store, (url, store) ∈ documents ∧ q ∈ store) := by
  induction documents generalizing c with
  | nil => exact Or.inr ⟨c, rfl, by simp [Refused], by simp⟩
  | cons entry documents ih =>
    obtain ⟨key, document⟩ := entry
    obtain ⟨hkey, hrest⟩ := List.nodup_cons.mp hdistinct
    have hfirst := hget key document List.mem_cons_self
    rcases run_removeMatches faults hground hfirst with
      ⟨e, c', hrun, hrefused⟩ | ⟨c', hrun, haccepted, hsame, hholds⟩
    · refine Or.inl ⟨e, c', Async.run_bind_of_error hrun _, ?_⟩
      exact ⟨key, document, List.mem_cons_self, hrefused⟩
    · have hnext : ∀ url document, (url, document) ∈ documents → Matches data document →
          c'.documents.get url = some document := by
        intro url store hentry hmatches
        rw [hsame url ?_]
        · exact hget url store (List.mem_cons_of_mem _ hentry) hmatches
        · rintro rfl
          exact hkey (List.mem_map.mpr ⟨_, hentry, rfl⟩)
      have hloop : (removeFrom faults data ((key, document) :: documents)).run c =
          (removeFrom faults data documents).run c' := Async.run_bind_of_ok hrun _
      rw [hloop]
      rcases ih hrest hnext with ⟨e, c'', hrun', url, store, hentry, hmatches⟩ |
        ⟨c'', hrun', hnone, hholds'⟩
      · refine Or.inl ⟨e, c'', hrun', url, store, List.mem_cons_of_mem _ hentry, hmatches⟩
      · refine Or.inr ⟨c'', hrun', ?_, ?_⟩
        · intro ⟨url, store, hentry, hmatches⟩
          rcases List.mem_cons.mp hentry with heq | hentry
          · cases heq
            exact haccepted hmatches
          · exact hnone ⟨url, store, hentry, hmatches⟩
        · intro url q
          rw [hholds', hholds]
          simp only [List.mem_cons, Prod.mk.injEq]
          grind

theorem run_removeData_rejected {data : Store} (c : Container containerURL)
    (hsize : data.size ≠ 0) (h : Rejected faults containerURL) :
    ∃ e, (removeData faults data).run c = (.error e, c) := by
  obtain ⟨e, he⟩ := run_getDocuments_rejected c h
  rw [removeData, if_neg hsize]
  exact ⟨e, Async.run_bind_of_error he _⟩

/-- Some document the call has read is to be changed, and that request fails. -/
def Interrupted (faults : Faults) (c : Container containerURL) (data : Store) : Prop :=
  ∃ url document, Read faults c url document ∧ Matches data document ∧ faults.patches url ≠ none

/-- Where a call resolves, the quads are gone from the documents it has read. -/
theorem run_removeData {data : Store} (hground : Ground data) (hsize : data.size ≠ 0)
    (h : ¬ Rejected faults containerURL) :
    (∃ e c', (removeData faults data).run c = (.error e, c') ∧ Interrupted faults c data) ∨
    ∃ c', (removeData faults data).run c = (.ok (), c') ∧ ¬ Interrupted faults c data ∧
      ∀ url q, c'.Holds url q ↔
        c.Holds url q ∧ ¬ (q ∈ data ∧ ∃ document, Read faults c url document ∧ q ∈ document) := by
  obtain ⟨documents, hrun, hdocuments⟩ := run_getDocuments c h
  have hread : ∀ url document, (url, document) ∈ documents → Matches data document →
      Read faults c url document := by
    intro url document hentry ⟨q, hq, hmem⟩
    rcases hdocuments.read url document (Dict.get_of_mem hdocuments.distinct hentry) with
      rfl | hread
    · exact absurd hmem (Store.not_mem_empty q)
    · exact hread
  have hloop : (removeData faults data).run c = (removeFrom faults data documents).run c := by
    rw [removeData, if_neg hsize, Async.run_bind_of_ok hrun]
  have hrefused : Refused faults data documents ↔ Interrupted faults c data := by
    constructor
    · intro ⟨url, document, hentry, hmatches, hpatch⟩
      exact ⟨url, document, hread url document hentry hmatches, hmatches, hpatch⟩
    · intro ⟨url, document, hseen, hmatches, hpatch⟩
      have hentry := Dict.mem_of_get (hdocuments.all url document hseen)
      exact ⟨url, document, hentry, hmatches, hpatch⟩
  rw [hloop, ← hrefused]
  rcases run_removeFrom hground hdocuments.distinct
    (fun url document hentry hmatches => (hread url document hentry hmatches).2.2) with
    herror | ⟨c', hok, hnone, hholds⟩
  · exact Or.inl herror
  · refine Or.inr ⟨c', hok, hnone, fun url q => ?_⟩
    rw [hholds, hdocuments.mem_iff]

/-! ## `addRule` -/

theorem mem_policies_inserted {c' : Container containerURL} {quads : List Quad}
    (h : c.apply url (.inserts quads) = some c') {q : Quad} :
    q ∈ c'.policies ↔ q ∈ c.policies ∨ q ∈ quads := by
  constructor
  · intro ⟨other, hother⟩
    rw [holds_apply h] at hother
    split at hother
    · rcases Store.mem_addQuads.mp hother with hdocument | hq
      · exact Or.inl ⟨url, holds_iff_document.mpr hdocument⟩
      · exact Or.inr hq
    · exact Or.inl ⟨other, hother⟩
  · rintro (⟨other, hother⟩ | hq)
    · refine ⟨other, (holds_apply h).mpr ?_⟩
      split
      · rename_i heq
        exact Store.mem_addQuads.mpr (Or.inl (holds_iff_document.mp (heq ▸ hother)))
      · exact hother
    · refine ⟨url, (holds_apply h).mpr ?_⟩
      rw [if_pos rfl]
      exact Store.mem_addQuads.mpr (Or.inr hq)

/-- Where a call resolves, the server has accepted the rule. -/
theorem run_addRule {uuid : String} {rule : Store} {c' : Container containerURL}
    (h : (addRule faults uuid rule).run c = (.ok (), c')) :
    c'.policies = c.policies ∪ quadSet rule := by
  unfold addRule at h
  split at h
  · rename_i hsize
    have hempty : rule = Store.empty := Store.eq_empty_of_size (by omega)
    simp only [Async.run_pure, Prod.mk.injEq, true_and] at h
    ext q
    simp [h, quadSet, hempty]
  · obtain ⟨r, c₁, hfetch, hrest⟩ := Async.run_bind_ok h
    have hstatus : ¬ r.status ≥ 400 ∧ c₁ = c' := by
      split at hrest
      · simp at hrest
      · rename_i hstatus
        simp only [Async.run_pure, Prod.mk.injEq, true_and] at hrest
        exact ⟨hstatus, hrest⟩
    obtain ⟨hstatus, rfl⟩ := hstatus
    ext q
    exact mem_policies_inserted (apply_of_fetchPatch hfetch hstatus)

/-! ## Sequences of calls -/

/-- What the storage is called with: ground quads. -/
def GroundStore := { data : Store // Ground data }

inductive Call where
  | getStore
  | addRule (rule : GroundStore)
  | removeData (data : GroundStore)

/-- The container after a call, in which the requests of `faults` fail. -/
def step (uuid : String) (c : Container containerURL) :
    Call × Faults → Option (Container containerURL)
  | (.getStore, faults) =>
    some ((containerUCRulesStorage containerURL uuid faults).getStore.run c).2
  | (.addRule rule, faults) =>
    some (((containerUCRulesStorage containerURL uuid faults).addRule rule.1).run c).2
  | (.removeData data, faults) =>
    some (((containerUCRulesStorage containerURL uuid faults).removeData data.1).run c).2

/-- If the call resolves, it has done to the set of policies what its name says. -/
def Refines (uuid : String) (c : Container containerURL) : Call × Faults → Prop
  | (.getStore, faults) => ∀ store c',
    (containerUCRulesStorage containerURL uuid faults).getStore.run c = (.ok store, c') →
      quadSet store = c.policies ∧ c'.policies = c.policies
  | (.addRule rule, faults) => ∀ c',
    ((containerUCRulesStorage containerURL uuid faults).addRule rule.1).run c = (.ok (), c') →
      c'.policies = c.policies ∪ quadSet rule.1
  | (.removeData data, faults) => ∀ c',
    ((containerUCRulesStorage containerURL uuid faults).removeData data.1).run c = (.ok (), c') →
      c'.policies = c.policies \ quadSet data.1

/-- Either some request fails that makes the call fail, or the requests that fail do not
matter: what they are for is in another document for `getStore`, and is not to be changed
for `removeData`. -/
def Heeded (c : Container containerURL) : Call × Faults → Prop
  | (.getStore, faults) => Rejected faults containerURL ∨
    ∀ q ∈ c.policies, ∃ url document, Read faults c url document ∧ q ∈ document
  | (.addRule _, _) => True
  | (.removeData data, faults) => Rejected faults containerURL ∨ Interrupted faults c data.1 ∨
    ∀ url document, c.documents.get url = some document → Matches data.1 document →
      Read faults c url document

theorem refines_getStore (uuid : String) (c : Container containerURL) (faults : Faults) :
    Refines uuid c (.getStore, faults) ↔ Heeded c (.getStore, faults) := by
  by_cases hrejected : Rejected faults containerURL
  · obtain ⟨e, he⟩ := run_getStore_rejected c hrejected
    refine ⟨fun _ => Or.inl hrejected, fun _ store c' hrun => ?_⟩
    cases he.symm.trans hrun
  · obtain ⟨store, hrun, hstore⟩ := run_getStore c hrejected
    constructor
    · intro h
      refine Or.inr fun q hq => (hstore q).mp ?_
      have hset : quadSet store = c.policies := (h store c hrun).1
      exact (hset.symm ▸ hq : q ∈ quadSet store)
    · intro hheeded store' c' hrun'
      obtain ⟨hresult, rfl⟩ := Prod.mk.inj (hrun.symm.trans hrun')
      obtain rfl := Except.ok.inj hresult
      refine ⟨Set.ext fun q => ⟨fun hq => ?_, fun hq => ?_⟩, rfl⟩
      · obtain ⟨url, document, hread, hmem⟩ := (hstore q).mp hq
        exact ⟨url, document, hread.2.2, hmem⟩
      · exact (hstore q).mpr (hheeded.resolve_left hrejected q hq)

theorem refines_removeData (uuid : String) (c : Container containerURL) (data : GroundStore)
    (faults : Faults) :
    Refines uuid c (.removeData data, faults) ↔ Heeded c (.removeData data, faults) := by
  obtain ⟨data, hground⟩ := data
  by_cases hsize : data.size = 0
  · have hempty : data = Store.empty := Store.eq_empty_of_size (by omega)
    subst hempty
    constructor
    · intro _
      exact Or.inr (Or.inr fun url document hget ⟨q, hq, _⟩ => absurd hq List.not_mem_nil)
    · intro _ c' hrun
      obtain rfl : c = c' := congrArg Prod.snd hrun
      ext q
      exact ⟨fun hq => ⟨hq, Store.not_mem_empty q⟩, fun hq => hq.1⟩
  by_cases hrejected : Rejected faults containerURL
  · obtain ⟨e, he⟩ := run_removeData_rejected c hsize hrejected
    refine ⟨fun _ => Or.inl hrejected, fun _ c' hrun => ?_⟩
    cases he.symm.trans hrun
  rcases run_removeData hground hsize hrejected with
    ⟨e, c', he, hinterrupted⟩ | ⟨c', hrun, hnone, hholds⟩
  · refine ⟨fun _ => Or.inr (Or.inl hinterrupted), fun _ c' hrun => ?_⟩
    cases he.symm.trans hrun
  · constructor
    · intro h
      have hset : c'.policies = c.policies \ quadSet data := h c' hrun
      refine Or.inr (Or.inr fun url document hget ⟨q, hq, hmem⟩ => ?_)
      by_contra hunread
      have hkept : c'.Holds url q := by
        refine (hholds url q).mpr ⟨⟨document, hget, hmem⟩, fun ⟨_, other, hread, _⟩ => hunread ?_⟩
        have hsame : other = document := Option.some.inj (hread.2.2.symm.trans hget)
        exact hsame ▸ hread
      have hremoved : q ∈ c.policies \ quadSet data := hset ▸ ⟨url, hkept⟩
      exact hremoved.2 hq
    · intro hheeded c'' hrun'
      obtain ⟨-, rfl⟩ := Prod.mk.inj (hrun.symm.trans hrun')
      have hread := (hheeded.resolve_left hrejected).resolve_left hnone
      ext q
      constructor
      · intro ⟨url, hkept⟩
        obtain ⟨⟨document, hget, hmem⟩, hunread⟩ := (hholds url q).mp hkept
        refine ⟨⟨url, document, hget, hmem⟩, fun hq => hunread ⟨hq, document, ?_, hmem⟩⟩
        exact hread url document hget ⟨q, hq, hmem⟩
      · intro ⟨⟨url, hheld⟩, hq⟩
        exact ⟨url, (hholds url q).mpr ⟨hheld, fun hremoved => hq hremoved.1⟩⟩

/-- Whatever the documents are, whatever is called and whichever requests fail: every call
does to the set of policies what its name says, if and only if no request that fails is
passed over where it matters. -/
theorem refines_iff (uuid : String) (c : Container containerURL) (calls : List (Call × Faults)) :
    AllAllowed (step uuid) (Refines uuid) c calls ↔ AllAllowed (step uuid) Heeded c calls := by
  refine allAllowed_congr fun c call => ?_
  obtain ⟨call, faults⟩ := call
  cases call with
  | getStore => exact refines_getStore uuid c faults
  | addRule rule => exact ⟨fun _ => trivial, fun _ _ hrun => run_addRule hrun⟩
  | removeData data => exact refines_removeData uuid c data faults

/-! ### A document that cannot be read -/

def permissionQuad : Quad :=
  quad (.namedNode "urn:policy") (.namedNode "http://www.w3.org/ns/odrl/2/permission")
    (.namedNode "urn:read")

def prohibitionQuad : Quad :=
  quad (.namedNode "urn:policy") (.namedNode "http://www.w3.org/ns/odrl/2/prohibition")
    (.namedNode "urn:write")

def samplePolicies : Container "http://example.com/policies/" where
  documents := [("http://example.com/policies/foo1", Store.ofQuads [permissionQuad]),
    ("http://example.com/policies/foo2", Store.ofQuads [prohibitionQuad])]
  distinct := by decide
  proper := by decide
  plain := by decide

def serverError : Fault where
  response := .ok { status := 500, text := "bad data" }
  fails := by
    intro r store hresponse hstatus
    injection hresponse with hresponse
    rw [← hresponse] at hstatus
    cases hstatus

/-- The second document cannot be read. -/
def secondUnread : Faults where
  reads url := if url = "http://example.com/policies/foo2" then some serverError else none

def prohibitionStore : GroundStore := ⟨Store.ofQuads [prohibitionQuad], by decide⟩

/-- Without the document, `getStore` returns the permission without the prohibition, and
`removeData` resolves without removing anything. -/
theorem unread_document :
    ((getStore secondUnread).run samplePolicies =
        (.ok (Store.ofQuads [permissionQuad]), samplePolicies) ∧
      ¬ AllAllowed (step "rules") (Refines "rules") samplePolicies [(.getStore, secondUnread)]) ∧
    (removeData secondUnread prohibitionStore.1).run samplePolicies = (.ok (), samplePolicies) ∧
      ¬ AllAllowed (step "rules") (Refines "rules") samplePolicies
        [(.removeData prohibitionStore, secondUnread)] := by
  have hget : (getStore secondUnread).run samplePolicies =
      (.ok (Store.ofQuads [permissionQuad]), samplePolicies) := rfl
  have hremove : (removeData secondUnread prohibitionStore.1).run samplePolicies =
      (.ok (), samplePolicies) := rfl
  have hheld : prohibitionQuad ∈ samplePolicies.policies :=
    ⟨"http://example.com/policies/foo2", _, rfl, by decide⟩
  refine ⟨⟨hget, fun h => ?_⟩, hremove, fun h => ?_⟩
  · have hset : quadSet (Store.ofQuads [permissionQuad]) = samplePolicies.policies :=
      (h.1 _ _ hget).1
    have hmem : prohibitionQuad ∈ quadSet (Store.ofQuads [permissionQuad]) := hset ▸ hheld
    exact absurd hmem (by decide : prohibitionQuad ∉ Store.ofQuads [permissionQuad])
  · have hset : samplePolicies.policies = samplePolicies.policies \ quadSet prohibitionStore.1 :=
      h.1 _ hremove
    have hmem : prohibitionQuad ∈ samplePolicies.policies \ quadSet prohibitionStore.1 :=
      hset ▸ hheld
    exact hmem.2 (by decide : prohibitionQuad ∈ prohibitionStore.1)

end UserManagedAccess.Ucp.ContainerUCRulesStorage
