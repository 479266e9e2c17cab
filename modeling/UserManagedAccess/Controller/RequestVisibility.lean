/-
UserManagedAccess.Controller.RequestVisibility — which access requests a
client sees, one by one and all at once.

`getEntity` looks at the parties of a request and then at what the client
owns; `getEntities` asks for the requests of the client, and for those of each
resource it owns. Over a store that encodes records, both draw the line at
`MaySee`.

* `viewRequest_isOk` — when one request is shown;
* `mem_viewRequests` — what the list of requests consists of;
* `requests_visible` — the two agree, after every sequence of requests.
-/
import UserManagedAccess.Controller.AccessRequestLifeCycle

namespace UserManagedAccess.Controller.AccessRequestController

open UserManagedAccess.Lib UserManagedAccess.Rdf UserManagedAccess.Util UserManagedAccess.Ucp

/-! ## What there is to see -/

/-- The client is the requesting party, or owns the target. -/
def MaySee (store : Store) (owned : List String) (clientID requestID : String) : Prop :=
  store.Linked (.namedNode requestID) SOTW.requestingParty (.namedNode clientID) ∨
    ∃ target, store.Linked (.namedNode requestID) SOTW.requestedTarget target ∧
      target.value ∈ owned

/-- The quads of the request and of its constraints. -/
def QuadOfRequest (store : Store) (requestID : String) (q : Quad) : Prop :=
  q ∈ store ∧ (q.subject = .namedNode requestID ∨
    store.Linked (.namedNode requestID) ODRL.constraint q.subject)

/-- What a client gets of all requests. -/
def getEntitiesOf (env : AccessRequestEnvironment) (s : ControllerState) (clientID : String) :
    Except HttpError ControllerResponse :=
  (((accessRequestController env memoryUCRulesStorage).getEntities clientID).run s).1

/-- What a client gets of one request. -/
def getEntityOf (env : AccessRequestEnvironment) (s : ControllerState)
    (requestID clientID : String) : Except HttpError ControllerResponse :=
  (((accessRequestController env memoryUCRulesStorage).getEntity requestID clientID).run s).1

/-- Seeing one request and seeing all of them agree. -/
structure VisibilityAgrees (env : AccessRequestEnvironment) (s : ControllerState)
    (clientID : String) : Prop where
  entity : ∀ requestID, (∃ response, getEntityOf env s requestID clientID = .ok response) ↔
    IsRequest s.policies requestID ∧
      MaySee s.policies ((s.ownershipStore.get clientID).getD []) clientID requestID
  quads : ∀ requestID response, getEntityOf env s requestID clientID = .ok response →
    ∀ q, q ∈ response.message ↔ QuadOfRequest s.policies requestID q
  entities : ∃ response, getEntitiesOf env s clientID = .ok response ∧
    (∀ requestID, IsRequest s.policies requestID →
      ((∃ single, getEntityOf env s requestID clientID = .ok single) ↔
        ∀ q, QuadOfRequest s.policies requestID q → q ∈ response.message)) ∧
    ∀ q ∈ response.message, ∃ requestID single,
      getEntityOf env s requestID clientID = .ok single ∧ q ∈ single.message

/-! ## The answers as functions of the store -/

/-- The answer to a GET of all requests, given what the client owns. -/
def viewRequests (store : Store) (owned : List String) (clientID : String) : Store :=
  Store.ofQuads ((subjectsOf store SOTW.requestingParty (.namedNode clientID) ++
    owned.flatMap fun resource : String =>
      subjectsOf store SOTW.requestedTarget (.namedNode resource)).flatMap (getRequestQuads store))

theorem getEntitiesOf_eq (env : AccessRequestEnvironment) (s : ControllerState)
    (clientID : String) :
    getEntitiesOf env s clientID = .ok
      { status := 200
        message := viewRequests s.policies ((s.ownershipStore.get clientID).getD [])
          clientID } := rfl

theorem getEntityOf_eq (env : AccessRequestEnvironment) (s : ControllerState)
    (requestID clientID : String) :
    getEntityOf env s requestID clientID =
      (viewRequest s.policies ((s.ownershipStore.get clientID).getD []) requestID clientID).map
        fun message => { status := 200, message } := by
  rw [getEntityOf, run_getEntity]

theorem mem_getRequestQuads {store : Store} {requestID : String} {q : Quad} :
    q ∈ getRequestQuads store (.namedNode requestID) ↔ QuadOfRequest store requestID q := by
  simp only [getRequestQuads, List.mem_append, List.mem_flatMap, Store.mem_getQuads_subject,
    Store.mem_getObjects_linked, QuadOfRequest]
  constructor
  · rintro (⟨hq, hsubject⟩ | ⟨constraint, hlinked, hq, rfl⟩)
    · exact ⟨hq, Or.inl hsubject⟩
    · exact ⟨hq, Or.inr hlinked⟩
  · rintro ⟨hq, hsubject | hlinked⟩
    · exact Or.inl ⟨hq, hsubject⟩
    · exact Or.inr ⟨q.subject, hlinked, hq, rfl⟩

/-- A request that is shown is shown with all its quads. -/
theorem viewRequest_ok {store message : Store} {owned : List String}
    {requestID clientID : String}
    (h : viewRequest store owned requestID clientID = .ok message) :
    message = Store.ofQuads (getRequestQuads store (.namedNode requestID)) := by
  unfold viewRequest at h
  dsimp only at h
  split at h
  · cases h
  split at h
  · injection h with h
    exact h.symm
  split at h
  · split at h
    · injection h with h
      exact h.symm
    · cases h
  · cases h

/-! ## Stores that encode records -/

section Encoded

variable {uuid : Nat → String} {count : Nat} {records : List RequestRecord} {store : Store}
  {record : RequestRecord} {owned : List String} {clientID requestID : String}

theorem mem_subjectsOf (h : Encodes uuid records store) {predicate object x : Term} :
    x ∈ subjectsOf store predicate object ↔ store.Linked x predicate object := by
  unfold subjectsOf
  rw [Store.mem_getSubjects]
  constructor
  · rintro ⟨q, hq, hmatch, hsubject⟩
    obtain ⟨-, hpredicate, hobject, -⟩ := Store.matches_iff.mp hmatch
    exact ⟨q, hq, hsubject, hpredicate predicate rfl, hobject object rfl⟩
  · rintro ⟨q, hq, hsubject, hpredicate, hobject⟩
    refine ⟨q, hq, Store.matches_iff.mpr ?_, hsubject⟩
    simp [hpredicate, hobject, h.plain q hq]

/-- The parties and targets of the records are IRIs. -/
def NamedRecords (records : List RequestRecord) : Prop :=
  ∀ record ∈ records, (∃ name, record.content.party = .namedNode name) ∧
    ∃ name, record.content.target = .namedNode name

/-- What is asked for by a party, or on a target, is a request. -/
theorem isRequest_of_linked (h : Encodes uuid records store) {x p o : Term}
    (hp : p = SOTW.requestingParty ∨ p = SOTW.requestedTarget) (hlinked : store.Linked x p o) :
    ∃ record ∈ records, x = .namedNode (entityIRI uuid record.number) := by
  obtain ⟨record, hrecord, node, rfl, hstated⟩ := h.linked.mp hlinked
  refine ⟨record, hrecord, ?_⟩
  rw [← Node.term_entity, entity_of_party_or_target hp hstated]

variable (h : Encodes uuid records store) (hfresh : FreshUUIDs uuid count)
  (htidy : TidyRecords count records)

include h hfresh htidy

/-- A request has one requesting party and one target. -/
theorem linked_party_and_target (hrecord : record ∈ records) :
    (∀ o, store.Linked (.namedNode (entityIRI uuid record.number)) SOTW.requestingParty o ↔
        o = record.content.party) ∧
      ∀ o, store.Linked (.namedNode (entityIRI uuid record.number)) SOTW.requestedTarget o ↔
        o = record.content.target := by
  have hrequests := requests_record h hfresh htidy hrecord
  exact ⟨Store.getObjects_eq_singleton.mp hrequests.party,
    Store.getObjects_eq_singleton.mp hrequests.target⟩

/-- A single request is shown to its party, and to the owner of its target. -/
theorem viewRequest_isOk (hnamed : NamedRecords records) :
    (∃ message, viewRequest store owned requestID clientID = .ok message) ↔
      IsRequest store requestID ∧ MaySee store owned clientID requestID := by
  by_cases hrequest : IsRequest store requestID
  · obtain ⟨record, hrecord, rfl⟩ := (isRequest_iff h).mp hrequest
    have hrequests := requests_record h hfresh htidy hrecord
    obtain ⟨hparty, htarget⟩ := linked_party_and_target h hfresh htidy hrecord
    obtain ⟨name, hname⟩ := (hnamed record hrecord).1
    have hsee : MaySee store owned clientID (entityIRI uuid record.number) ↔
        name = clientID ∨ record.content.target.value ∈ owned := by
      simp only [MaySee, hparty, htarget, exists_eq_left, hname, Term.namedNode.injEq]
      rw [eq_comm]
    rw [hsee]
    simp only [hrequest, true_and]
    unfold viewRequest
    simp only [hrequests.party, hrequests.target, hname]
    by_cases hclient : name = clientID
    · simp [hclient]
    · by_cases howned : record.content.target.value ∈ owned <;> simp [hclient, howned]
  · have hnone : store.getObjects (Term.namedNode requestID) SOTW.requestingParty none = [] := by
      refine List.eq_nil_iff_forall_not_mem.mpr fun o hmem => hrequest ?_
      obtain ⟨record, hrecord, heq⟩ := isRequest_of_linked h (Or.inl rfl)
        (Store.mem_getObjects_linked.mp hmem)
      exact (isRequest_iff h).mpr ⟨record, hrecord, Term.namedNode.inj heq⟩
    unfold viewRequest
    simp [hnone, hrequest]

/-- All the requests shown are those that may be seen. -/
theorem mem_viewRequests (hnamed : NamedRecords records) {q : Quad} :
    q ∈ viewRequests store owned clientID ↔
      ∃ requestID, IsRequest store requestID ∧ MaySee store owned clientID requestID ∧
        QuadOfRequest store requestID q := by
  rw [viewRequests, Store.mem_ofQuads, List.mem_flatMap]
  constructor
  · rintro ⟨x, hx, hq⟩
    have hlinked : ∃ record ∈ records, x = .namedNode (entityIRI uuid record.number) ∧
        MaySee store owned clientID (entityIRI uuid record.number) := by
      rcases List.mem_append.mp hx with hx | hx
      · rw [mem_subjectsOf h] at hx
        obtain ⟨record, hrecord, rfl⟩ := isRequest_of_linked h (Or.inl rfl) hx
        exact ⟨record, hrecord, rfl, Or.inl hx⟩
      · obtain ⟨resource, hresource, hx⟩ := List.mem_flatMap.mp hx
        rw [mem_subjectsOf h] at hx
        obtain ⟨record, hrecord, rfl⟩ := isRequest_of_linked h (Or.inr rfl) hx
        exact ⟨record, hrecord, rfl, Or.inr ⟨_, hx, hresource⟩⟩
    obtain ⟨record, hrecord, rfl, hsee⟩ := hlinked
    exact ⟨_, (isRequest_iff h).mpr ⟨record, hrecord, rfl⟩, hsee, mem_getRequestQuads.mp hq⟩
  · rintro ⟨requestID, hrequest, hsee, hq⟩
    obtain ⟨record, hrecord, rfl⟩ := (isRequest_iff h).mp hrequest
    refine ⟨_, List.mem_append.mpr ?_, mem_getRequestQuads.mpr hq⟩
    rcases hsee with hparty | ⟨target, htarget, howned⟩
    · exact Or.inl ((mem_subjectsOf h).mpr hparty)
    · obtain ⟨name, hname⟩ := (hnamed record hrecord).2
      have heq := ((linked_party_and_target h hfresh htidy hrecord).2 target).mp htarget
      rw [heq, hname] at howned htarget
      exact Or.inr (List.mem_flatMap.mpr ⟨name, howned, (mem_subjectsOf h).mpr htarget⟩)

/-- The type of a request is not among the quads of another one. -/
theorem eq_of_quadOfRequest (hrequest : IsRequest store requestID) {other : String}
    (hother : IsRequest store other)
    (hq : QuadOfRequest store other
      (quad (.namedNode requestID) RDF.type SOTW.EvaluationRequest)) : other = requestID := by
  obtain ⟨record, hrecord, rfl⟩ := (isRequest_iff h).mp hrequest
  obtain ⟨record', hrecord', rfl⟩ := (isRequest_iff h).mp hother
  rcases hq.2 with hsubject | hlinked
  · exact (Term.namedNode.inj hsubject).symm
  · rw [quad_subject, linked_entity h hfresh htidy hrecord',
      says_constraint (htidy.nodup record' hrecord'), mem_constraintNodes] at hlinked
    obtain ⟨k, terms, -, hnode⟩ := hlinked
    rw [← Node.term_entity] at hnode
    have heq := Node.term_injective hfresh
      (htidy.bound record hrecord _ List.mem_cons_self)
      (htidy.bound record' hrecord' _ List.mem_cons_self) hnode
    cases heq

theorem visibilityAgrees (env : AccessRequestEnvironment) (hnamed : NamedRecords records)
    (owners : KeyValueStorage String (List String)) (clientID : String) :
    VisibilityAgrees env { policies := store, ownershipStore := owners } clientID := by
  have hview : ∀ requestID, (∃ response, getEntityOf env
      { policies := store, ownershipStore := owners } requestID clientID = .ok response) ↔
      IsRequest store requestID ∧ MaySee store ((owners.get clientID).getD []) clientID
        requestID := by
    intro requestID
    rw [← viewRequest_isOk h hfresh htidy hnamed, getEntityOf_eq]
    cases viewRequest store ((owners.get clientID).getD []) requestID clientID with
    | error e => simp [Except.map]
    | ok message => simp [Except.map]
  have hquads : ∀ requestID response, getEntityOf env
      { policies := store, ownershipStore := owners } requestID clientID = .ok response →
      ∀ q, q ∈ response.message ↔ QuadOfRequest store requestID q := by
    intro requestID response hresponse q
    rw [getEntityOf_eq] at hresponse
    cases hmessage : viewRequest store ((owners.get clientID).getD []) requestID clientID with
    | error e =>
      rw [hmessage] at hresponse
      cases hresponse
    | ok message =>
      rw [hmessage] at hresponse
      injection hresponse with hresponse
      rw [← hresponse, viewRequest_ok hmessage, Store.mem_ofQuads, mem_getRequestQuads]
  refine ⟨hview, hquads, _, getEntitiesOf_eq env _ clientID, fun requestID hrequest => ?_,
    fun q hq => ?_⟩
  · rw [hview]
    constructor
    · intro hsee q hq
      exact (mem_viewRequests h hfresh htidy hnamed).mpr ⟨requestID, hrequest, hsee.2, hq⟩
    · intro hall
      have htype : QuadOfRequest store requestID
          (quad (.namedNode requestID) RDF.type SOTW.EvaluationRequest) :=
        ⟨h.plain.linked_iff.mp hrequest, Or.inl rfl⟩
      obtain ⟨other, hother, hsee, hq⟩ :=
        (mem_viewRequests h hfresh htidy hnamed).mp (hall _ htype)
      rw [eq_of_quadOfRequest h hfresh htidy hrequest hother hq] at hsee
      exact ⟨hrequest, hsee⟩
  · obtain ⟨requestID, hrequest, hsee, hq⟩ := (mem_viewRequests h hfresh htidy hnamed).mp hq
    obtain ⟨single, hsingle⟩ := (hview requestID).mpr ⟨hrequest, hsee⟩
    exact ⟨requestID, single, hsingle, (hquads requestID single hsingle q).mpr hq⟩

end Encoded

/-! ## After any requests -/

theorem namedRecords_run (env : AccessRequestEnvironment) {uuid : Nat → String}
    {steps : List RequestStep} (hfresh : FreshUUIDs uuid steps.length) :
    NamedRecords (recordsAfter env uuid steps) := by
  intro record hrecord
  obtain ⟨n, data, clientID, json, -, -, -, hposted⟩ := postedAs_record hfresh hrecord
  obtain ⟨resourceId, -, htarget⟩ := hposted.target
  exact ⟨⟨clientID, hposted.party⟩, resourceId, htarget⟩

/-- After any requests, and whatever the users own, a client sees the same
access requests one by one and all at once: those it made, and those for what
it owns. -/
theorem requests_visible (env : AccessRequestEnvironment) (uuid : Nat → String)
    (steps : List RequestStep) (hfresh : FreshUUIDs uuid steps.length)
    (owners : KeyValueStorage String (List String)) (clientID : String) :
    VisibilityAgrees env
      { policies := requestsAfter env uuid steps, ownershipStore := owners } clientID := by
  obtain ⟨hencodes, htidy⟩ := encodes_run env hfresh
  exact visibilityAgrees hencodes hfresh htidy env (namedRecords_run env hfresh) owners clientID

/-- Alice sees what Bob asked of her, and so does Bob. -/
theorem requests_visible_photo :
    (∃ response, getEntityOf photoRequests
        { policies := requestsAfter photoRequests twoUUIDs photoShared
          ownershipStore :=
            KeyValueStorage.empty.set "http://example.org/alice" ["http://example.org/photo"] }
        "http://example.org/11111111-1111-4111-8111-111111111111" "http://example.org/alice" =
          .ok response) ∧
      VisibilityAgrees photoRequests
        { policies := requestsAfter photoRequests twoUUIDs photoShared
          ownershipStore :=
            KeyValueStorage.empty.set "http://example.org/alice" ["http://example.org/photo"] }
        "http://example.org/alice" := by
  have hagrees := requests_visible photoRequests twoUUIDs photoShared
    ⟨by decide +kernel, by decide +kernel⟩
    (KeyValueStorage.empty.set "http://example.org/alice" ["http://example.org/photo"])
    "http://example.org/alice"
  refine ⟨(hagrees.entity _).mpr ⟨by unfold IsRequest; decide +kernel, Or.inr ?_⟩, hagrees⟩
  exact ⟨.namedNode "http://example.org/photo", by decide +kernel, by decide +kernel⟩

end UserManagedAccess.Controller.AccessRequestController
