/-
UserManagedAccess.Controller.RequestRecordsTheorems — the store of the access
request endpoint has what its records say, after any sequence of requests.

`Encodes` says that the quads of the store are those that some record states. A
node belongs to the record whose UUID its IRI has, so that what the code finds on
a node is what one record says (`Encodes.linked_iff`), and the queries of a PATCH
can be answered from the records. `encodes_step` then goes through the methods:
only a POST and a PATCH change the store.

* `encodes_posted` — a new request is a new record;
* `encodes_resolved` — a PATCH that goes through changes the status of one record
  and adds its policy;
* `encodes_run` — the store after a run is that of its records.

The UUIDs of a run are taken to be fresh.
-/
import Mathlib.Data.List.Induction
import UserManagedAccess.Controller.AccessRequestControllerTheorems
import UserManagedAccess.Controller.BaseControllerTheorems
import UserManagedAccess.Controller.RequestBodies

namespace UserManagedAccess.Controller.AccessRequestController

open UserManagedAccess.Lib UserManagedAccess.Rdf UserManagedAccess.Util UserManagedAccess.Ucp

/-! ## What a record says of a node -/

section Says

variable {uuid : Nat → String} {record : RequestRecord} {node : Node} {p o : Term}

theorem says_number (h : record.Says uuid node p o) : node.number ∈ record.numbers := by
  rcases h with ⟨rfl, -⟩ | ⟨k, terms, -, rfl, -⟩ | ⟨n, clientID, hstatus, ⟨rfl, -⟩ | ⟨rfl, -⟩⟩
  · exact List.mem_cons_self
  · exact List.mem_cons_self
  · simp [RequestRecord.numbers, hstatus, Node.number]
  · simp [RequestRecord.numbers, hstatus, Node.number]

theorem number_ne {n : Nat} {clientID : String} (hnodup : record.numbers.Nodup)
    (hstatus : record.status = .accepted n clientID) : record.number ≠ n := by
  simpa [RequestRecord.numbers, hstatus] using hnodup

/-- What it says of the request. -/
theorem says_entity (hnodup : record.numbers.Nodup) :
    record.Says uuid (.entity record.number) p o ↔
      record.SaysOfRequest uuid (.entity record.number) p o := by
  refine or_iff_left ?_
  rintro (⟨k, terms, -, hnode, -⟩ | ⟨n, clientID, hstatus, ⟨hnode, -⟩ | ⟨hnode, -⟩⟩)
  · cases hnode
  · exact number_ne hnodup hstatus (Node.entity.inj hnode)
  · cases hnode

theorem says_requestedTarget (hnodup : record.numbers.Nodup) :
    record.Says uuid (.entity record.number) SOTW.requestedTarget o ↔
      o = record.content.target := by
  rw [says_entity hnodup]
  simp +decide [RequestRecord.SaysOfRequest]

theorem says_requestingParty (hnodup : record.numbers.Nodup) :
    record.Says uuid (.entity record.number) SOTW.requestingParty o ↔
      o = record.content.party := by
  rw [says_entity hnodup]
  simp +decide [RequestRecord.SaysOfRequest]

theorem says_requestStatus (hnodup : record.numbers.Nodup) :
    record.Says uuid (.entity record.number) SOTW.requestStatus o ↔ o = record.status.term := by
  rw [says_entity hnodup]
  simp +decide [RequestRecord.SaysOfRequest]

theorem says_requestedAction (hnodup : record.numbers.Nodup) :
    record.Says uuid (.entity record.number) SOTW.requestedAction o ↔
      o ∈ record.content.actions := by
  rw [says_entity hnodup]
  simp +decide [RequestRecord.SaysOfRequest]

theorem says_constraint (hnodup : record.numbers.Nodup) :
    record.Says uuid (.entity record.number) ODRL.constraint o ↔
      o ∈ record.constraintNodes.map (Node.term uuid) := by
  rw [says_entity hnodup]
  simp +decide [RequestRecord.SaysOfRequest]

theorem says_constraint_node {k : Nat} {terms : Term × Term × Term}
    (hk : record.content.constraints[k]? = some terms) :
    record.Says uuid (.constraint record.number (k + 1)) p o ↔
      (p = RDF.type ∧ o = ODRL.Constraint ∨ p = ODRL.leftOperand ∧ o = terms.1 ∨
        p = ODRL.operator ∧ o = terms.2.1 ∨ p = ODRL.rightOperand ∧ o = terms.2.2) := by
  constructor
  · rintro (⟨hnode, -⟩ | ⟨k', terms', hk', hnode, hstated⟩ |
      ⟨n, clientID, -, ⟨hnode, -⟩ | ⟨hnode, -⟩⟩)
    · cases hnode
    · have hindex : k = k' := by
        injection hnode with _ hindex
        omega
      rw [← hindex, hk] at hk'
      cases hk'
      exact hstated
    · cases hnode
    · cases hnode
  · exact fun hstated => Or.inr (Or.inl ⟨k, terms, hk, rfl, hstated⟩)

/-- What it says of the policy and of its permission. -/
theorem says_policy {n : Nat} {clientID : String} (hnodup : record.numbers.Nodup)
    (hstatus : record.status = .accepted n clientID) :
    record.Says uuid (.entity n) p o ↔
      (p = RDF.type ∧ o = ODRL.Agreement ∨ p = ODRL.uid ∧ o = (Node.entity n).term uuid ∨
        p = ODRL.permission ∧ o = (Node.permission n).term uuid) := by
  constructor
  · rintro (⟨hnode, -⟩ | ⟨k, terms, -, hnode, -⟩ |
      ⟨n', clientID', hstatus', ⟨hnode, hstated⟩ | ⟨hnode, -⟩⟩)
    · exact absurd (Node.entity.inj hnode).symm (number_ne hnodup hstatus)
    · cases hnode
    · cases hnode
      exact hstated
    · cases hnode
  · exact fun hstated => Or.inr (Or.inr ⟨n, clientID, hstatus, Or.inl ⟨rfl, hstated⟩⟩)

theorem says_permission {n : Nat} {clientID : String}
    (hstatus : record.status = .accepted n clientID) :
    record.Says uuid (.permission n) p o ↔
      (p = RDF.type ∧ o = ODRL.Permission ∨ p = ODRL.action ∧ o ∈ record.content.actions ∨
        p = ODRL.target ∧ o = record.content.target ∨
        p = ODRL.assignee ∧ o = record.content.party ∨
        p = ODRL.assigner ∧ o = .namedNode clientID ∨
        p = ODRL.constraint ∧ o ∈ record.constraintNodes.map (Node.term uuid)) := by
  constructor
  · rintro (⟨hnode, -⟩ | ⟨k, terms, -, hnode, -⟩ |
      ⟨n', clientID', hstatus', ⟨hnode, -⟩ | ⟨hnode, hstated⟩⟩)
    · cases hnode
    · cases hnode
    · cases hnode
    · rw [hstatus] at hstatus'
      cases hstatus'
      exact hstated
  · exact fun hstated => Or.inr (Or.inr ⟨n, clientID, hstatus, Or.inr ⟨rfl, hstated⟩⟩)

/-- Only requests have a requesting party, or a target of their own. -/
theorem entity_of_party_or_target (hp : p = SOTW.requestingParty ∨ p = SOTW.requestedTarget)
    (h : record.Says uuid node p o) : node = .entity record.number := by
  rcases h with ⟨hnode, -⟩ | ⟨k, terms, -, -, hstated⟩ |
    ⟨n, clientID, -, ⟨-, hstated⟩ | ⟨-, hstated⟩⟩
  · exact hnode
  all_goals rcases hp with rfl | rfl <;> simp +decide at hstated

theorem entity_of_request (h : record.Says uuid node RDF.type SOTW.EvaluationRequest) :
    node = .entity record.number := by
  rcases h with ⟨hnode, -⟩ | ⟨k, terms, -, -, hstated⟩ |
    ⟨n, clientID, -, ⟨-, hstated⟩ | ⟨-, hstated⟩⟩
  · exact hnode
  all_goals simp +decide at hstated

theorem entity_of_policy (h : record.Says uuid node RDF.type ODRL.Agreement) :
    ∃ n clientID, record.status = .accepted n clientID ∧ node = .entity n := by
  rcases h with ⟨-, hstated⟩ | ⟨k, terms, -, -, hstated⟩ |
    ⟨n, clientID, hstatus, ⟨hnode, -⟩ | ⟨-, hstated⟩⟩
  · simp +decide at hstated
  · simp +decide at hstated
  · exact ⟨n, clientID, hstatus, hnode⟩
  · simp +decide at hstated

end Says

/-! ## What a store has for its records -/

section Encodes

variable {uuid : Nat → String} {count : Nat} {records : List RequestRecord} {store : Store}
  {record : RequestRecord} {node : Node} {p o x : Term}

theorem Encodes.plain (h : Encodes uuid records store) : store.Plain := by
  intro q hq
  obtain ⟨_, _, _, _, _, _, rfl⟩ := (h q).mp hq
  rfl

theorem Encodes.linked (h : Encodes uuid records store) :
    store.Linked x p o ↔ ∃ record ∈ records, ∃ node, node.term uuid = x ∧
      record.Says uuid node p o := by
  rw [h.plain.linked_iff, h]
  constructor
  · rintro ⟨record, hrecord, node, p', o', hstated, hq⟩
    obtain ⟨rfl, rfl, rfl⟩ := quad_inj.mp hq
    exact ⟨record, hrecord, node, rfl, hstated⟩
  · rintro ⟨record, hrecord, node, rfl, hstated⟩
    exact ⟨record, hrecord, node, p, o, hstated, rfl⟩

/-- What the store has on a node is what the record with the node says. -/
theorem Encodes.linked_iff (h : Encodes uuid records store) (hfresh : FreshUUIDs uuid count)
    (htidy : TidyRecords count records) (hrecord : record ∈ records)
    (hnode : node.number ∈ record.numbers) :
    store.Linked (node.term uuid) p o ↔ record.Says uuid node p o := by
  rw [h.linked]
  constructor
  · rintro ⟨record', hrecord', node', hterm, hstated⟩
    have hnode' := says_number hstated
    have hsame : node' = node := Node.term_injective hfresh (htidy.bound _ hrecord' _ hnode')
      (htidy.bound _ hrecord _ hnode) hterm
    subst hsame
    rw [htidy.distinct _ hrecord _ hrecord' _ hnode hnode']
    exact hstated
  · exact fun hstated => ⟨record, hrecord, node, rfl, hstated⟩

/-- Records with nodes of one IRI are one record. -/
theorem eq_of_entityIRI (hfresh : FreshUUIDs uuid count) (htidy : TidyRecords count records)
    {a b : RequestRecord} (ha : a ∈ records) (hb : b ∈ records) {m n : Nat}
    (hm : m ∈ a.numbers) (hn : n ∈ b.numbers) (h : entityIRI uuid m = entityIRI uuid n) :
    m = n ∧ a = b := by
  have hnode : Node.entity m = Node.entity n := by
    refine Node.term_injective hfresh (htidy.bound _ ha _ hm) (htidy.bound _ hb _ hn) ?_
    rw [Node.term_entity, Node.term_entity, h]
  cases hnode
  exact ⟨rfl, htidy.distinct _ ha _ hb _ hm hn⟩

end Encodes

/-! ## Posting -/

section Posting

variable {env : AccessRequestEnvironment} {uuid : Nat → String} {count : Nat}
  {records : List RequestRecord} {store : Store} {content : RequestContent}

theorem mem_constraintNodes {record : RequestRecord} {x : Term} :
    x ∈ record.constraintNodes.map (Node.term uuid) ↔
      ∃ k terms, record.content.constraints[k]? = some terms ∧
        x = (Node.constraint record.number (k + 1)).term uuid := by
  simp only [RequestRecord.constraintNodes, List.mem_map, List.mem_range,
    exists_exists_and_eq_and]
  constructor
  · rintro ⟨k, hk, rfl⟩
    exact ⟨k, _, List.getElem?_eq_getElem hk, rfl⟩
  · rintro ⟨k, terms, hk, rfl⟩
    exact ⟨k, (List.getElem?_eq_some_iff.mp hk).1, rfl⟩

/-- The quads of a new request are what its record says. -/
theorem mem_newRequest {request : Store}
    (h : IsNewRequest { env with randomUUID := uuid count } content request) {q : Quad} :
    q ∈ request ↔ ∃ node p o,
      RequestRecord.Says uuid { number := count, content, status := .requested } node p o ∧
        q = quad (node.term uuid) p o := by
  have hnode : requestNode { env with randomUUID := uuid count } =
      (Node.entity count).term uuid := (Node.term_entity uuid count).symm
  have hconstraint : ∀ k, Term.namedNode
      (((Node.entity count).term uuid).value ++ "-constraint-" ++ toString (1 + k)) =
        (Node.constraint count (k + 1)).term uuid := by
    intro k
    rw [Node.term_entity, Term.value_namedNode, String.append_assoc, Nat.add_comm]
    rfl
  rw [h.quads, hnode]
  constructor
  · rintro (hq | hq | ⟨k, terms, hk, hq⟩)
    · simp only [List.mem_cons, List.not_mem_nil, or_false] at hq
      rcases hq with rfl | rfl | rfl | rfl
      · exact ⟨.entity count, _, _, Or.inl ⟨rfl, Or.inl ⟨rfl, rfl⟩⟩, rfl⟩
      · exact ⟨.entity count, _, _, Or.inl ⟨rfl, Or.inr (Or.inl ⟨rfl, rfl⟩)⟩, rfl⟩
      · exact ⟨.entity count, _, _, Or.inl ⟨rfl, Or.inr (Or.inr (Or.inl ⟨rfl, rfl⟩))⟩, rfl⟩
      · exact ⟨.entity count, _, _,
          Or.inl ⟨rfl, Or.inr (Or.inr (Or.inr (Or.inl ⟨rfl, rfl⟩)))⟩, rfl⟩
    · obtain ⟨action, haction, rfl⟩ := List.mem_map.mp hq
      exact ⟨.entity count, _, _,
        Or.inl ⟨rfl, Or.inr (Or.inr (Or.inr (Or.inr (Or.inl ⟨rfl, haction⟩))))⟩, rfl⟩
    · rw [constraintQuads, hconstraint] at hq
      simp only [List.mem_cons, List.not_mem_nil, or_false] at hq
      rcases hq with rfl | rfl | rfl | rfl | rfl
      · refine ⟨.entity count, _, _, Or.inl ⟨rfl, Or.inr (Or.inr (Or.inr (Or.inr (Or.inr
          ⟨rfl, mem_constraintNodes.mpr ⟨k, terms, hk, rfl⟩⟩))))⟩, rfl⟩
      · exact ⟨.constraint count (k + 1), _, _,
          Or.inr (Or.inl ⟨k, terms, hk, rfl, Or.inl ⟨rfl, rfl⟩⟩), rfl⟩
      · exact ⟨.constraint count (k + 1), _, _,
          Or.inr (Or.inl ⟨k, terms, hk, rfl, Or.inr (Or.inl ⟨rfl, rfl⟩)⟩), rfl⟩
      · exact ⟨.constraint count (k + 1), _, _,
          Or.inr (Or.inl ⟨k, terms, hk, rfl, Or.inr (Or.inr (Or.inl ⟨rfl, rfl⟩))⟩), rfl⟩
      · exact ⟨.constraint count (k + 1), _, _,
          Or.inr (Or.inl ⟨k, terms, hk, rfl, Or.inr (Or.inr (Or.inr ⟨rfl, rfl⟩))⟩), rfl⟩
  · rintro ⟨node, p, o, hstated, rfl⟩
    rcases hstated with ⟨rfl, hstated⟩ | ⟨k, terms, hk, rfl, hstated⟩ | ⟨n, clientID, hstatus, -⟩
    · rcases hstated with ⟨rfl, rfl⟩ | ⟨rfl, rfl⟩ | ⟨rfl, rfl⟩ | ⟨rfl, rfl⟩ | ⟨rfl, ho⟩ | ⟨rfl, ho⟩
      · exact Or.inl (by simp)
      · exact Or.inl (by simp)
      · exact Or.inl (by simp)
      · exact Or.inl (by simp [RequestStatus.term])
      · exact Or.inr (Or.inl (List.mem_map.mpr ⟨o, ho, rfl⟩))
      · obtain ⟨k, terms, hk, rfl⟩ := mem_constraintNodes.mp ho
        refine Or.inr (Or.inr ⟨k, terms, hk, ?_⟩)
        rw [constraintQuads, hconstraint]
        exact List.mem_cons_self
    · refine Or.inr (Or.inr ⟨k, terms, hk, ?_⟩)
      rw [constraintQuads, hconstraint]
      rcases hstated with ⟨rfl, rfl⟩ | ⟨rfl, rfl⟩ | ⟨rfl, rfl⟩ | ⟨rfl, rfl⟩ <;> simp
    · cases hstatus

theorem encodes_posted (h : Encodes uuid records store) {request : Store}
    (hnew : IsNewRequest { env with randomUUID := uuid count } content request) :
    Encodes uuid (records ++ [{ number := count, content, status := .requested }])
      (store.addAll request) := by
  intro q
  rw [Store.mem_addAll, h, mem_newRequest hnew]
  constructor
  · rintro (⟨record, hrecord, hstated⟩ | hstated)
    · exact ⟨record, List.mem_append_left _ hrecord, hstated⟩
    · exact ⟨_, List.mem_append_right _ (List.mem_singleton.mpr rfl), hstated⟩
  · rintro ⟨record, hrecord, hstated⟩
    rcases List.mem_append.mp hrecord with hrecord | hrecord
    · exact Or.inl ⟨record, hrecord, hstated⟩
    · rw [List.mem_singleton.mp hrecord] at hstated
      exact Or.inr hstated

/-- The new record has a number no other record has. -/
theorem TidyRecords.posted (h : TidyRecords count records) (hactions : content.actions ≠ []) :
    TidyRecords (count + 1)
      (records ++ [{ number := count, content, status := .requested }]) := by
  have hnew : ∀ record ∈ records, count ∉ record.numbers := fun record hrecord hmem =>
    absurd (h.bound record hrecord count hmem) (Nat.lt_irrefl count)
  have hsplit : ∀ {record : RequestRecord},
      record ∈ records ++ [{ number := count, content, status := .requested }] →
        record ∈ records ∨ record = { number := count, content, status := .requested } :=
    fun hmem => (List.mem_append.mp hmem).imp_right List.mem_singleton.mp
  refine ⟨?_, ?_, ?_, ?_⟩
  · intro record hrecord n hn
    rcases hsplit hrecord with hrecord | rfl
    · exact Nat.lt_succ_of_lt (h.bound record hrecord n hn)
    · rw [List.mem_singleton.mp hn]
      exact Nat.lt_succ_self count
  · intro a ha b hb n hna hnb
    rcases hsplit ha with hold | rfl
    · rcases hsplit hb with hold' | rfl
      · exact h.distinct a hold b hold' n hna hnb
      · obtain rfl : n = count := List.mem_singleton.mp hnb
        exact absurd hna (hnew a hold)
    · rcases hsplit hb with hold | rfl
      · obtain rfl : n = count := List.mem_singleton.mp hna
        exact absurd hnb (hnew b hold)
      · rfl
  · intro record hrecord
    rcases hsplit hrecord with hrecord | rfl
    · exact h.nodup record hrecord
    · exact List.nodup_singleton count
  · intro record hrecord
    rcases hsplit hrecord with hrecord | rfl
    · exact h.actions record hrecord
    · exact hactions

end Posting

/-! ## Resolving -/

/-- What a PATCH makes of the store, given what the client owns. -/
def patchedStore (env : AccessRequestEnvironment) (store : Store) (owned : List String)
    (requestID clientID status : String) : Except HttpError Store :=
  match store.getObjects (Term.namedNode requestID) SOTW.requestedTarget none with
  | [] => .error .notFound
  | target :: _ =>
    if status ≠ "accepted" ∧ status ≠ "denied" then
      .error (.badRequest "Status needs to be \"accepted\" or \"denied\"")
    else if !owned.contains target.value then .error (.forbidden "")
    else resolveRequest env store requestID clientID status target

theorem run_patchAccessRequest (env : AccessRequestEnvironment) (store : Store)
    (requestID clientID status : String) (s : ControllerState) :
    (patchAccessRequest env store requestID clientID status).run s =
      (patchedStore env store ((s.ownershipStore.get clientID).getD []) requestID clientID status,
        s) := by
  unfold patchAccessRequest patchedStore
  rcases store.getObjects (Term.namedNode requestID) SOTW.requestedTarget none with
    _ | ⟨target, targets⟩
  · rfl
  dsimp only
  by_cases hstatus : status ≠ "accepted" ∧ status ≠ "denied"
  · rw [if_pos hstatus, if_pos hstatus]
    rfl
  rw [if_neg hstatus, if_neg hstatus]
  show Async.run (if (!((s.ownershipStore.get clientID).getD []).contains target.value) = true
    then _ else _) s = _
  by_cases hforeign : (!((s.ownershipStore.get clientID).getD []).contains target.value) = true
  · rw [if_pos hforeign, if_pos hforeign]
    rfl
  · rw [if_neg hforeign, if_neg hforeign]
    rfl

/-- A PATCH is refused, or writes the patched store back. -/
theorem run_patchEntity (env : AccessRequestEnvironment) (requestID status clientID : String)
    (s : ControllerState) :
    ((accessRequestController env memoryUCRulesStorage).patchEntity requestID status clientID
        false).run s =
      match patchedStore env s.policies ((s.ownershipStore.get clientID).getD []) requestID clientID
        status with
      | .error e => (.error e, s)
      | .ok filteredStore => (.ok { status := 204 }, s.replace filteredStore) := by
  have hpatch := run_patchAccessRequest env s.policies requestID clientID status s
  unfold BaseController.patchEntity
  have hstore : ((accessRequestController env memoryUCRulesStorage).store.getStore).run s =
      (.ok s.policies, s) := rfl
  rw [Async.run_bind_of_ok hstore]
  dsimp only [Bool.false_eq_true, if_false]
  rcases hresult : patchedStore env s.policies ((s.ownershipStore.get clientID).getD []) requestID
    clientID status with e | filteredStore
  · rw [hresult] at hpatch
    exact Async.run_bind_of_error hpatch _
  · rw [hresult] at hpatch
    rw [if_neg Bool.false_ne_true]
    refine (Async.run_bind_of_ok hpatch _).trans ?_
    rw [Async.run_bind_of_ok (Async.run_yield _)]
    exact BaseController.run_writeBack _ rfl filteredStore s

theorem mem_acceptedPolicy {env : AccessRequestEnvironment} {store : Store} {request : Term}
    {clientID : String} {target party : Term} {actions : List Term} {uuid : Nat → String} {n : Nat}
    (huuid : env.randomUUID = uuid n) {q : Quad} :
    q ∈ acceptedPolicy env store request clientID target party actions ↔
      q ∈ [quad ((Node.entity n).term uuid) RDF.type ODRL.Agreement,
        quad ((Node.entity n).term uuid) ODRL.uid ((Node.entity n).term uuid),
        quad ((Node.entity n).term uuid) ODRL.permission ((Node.permission n).term uuid),
        quad ((Node.permission n).term uuid) RDF.type ODRL.Permission,
        quad ((Node.permission n).term uuid) ODRL.target target,
        quad ((Node.permission n).term uuid) ODRL.assignee party,
        quad ((Node.permission n).term uuid) ODRL.assigner (.namedNode clientID)] ∨
      (∃ action ∈ actions, q = quad ((Node.permission n).term uuid) ODRL.action action) ∨
      ∃ c, store.Linked request ODRL.constraint c ∧
        (q = quad ((Node.permission n).term uuid) ODRL.constraint c ∨ q ∈ store ∧ q.subject = c) := by
  have hpolicy : Term.namedNode ("http://example.org/" ++ env.randomUUID) =
      (Node.entity n).term uuid := by
    rw [huuid, Node.term_entity]
    rfl
  have hpermission : Term.namedNode ("http://example.org/" ++ env.randomUUID ++ "-permission") =
      (Node.permission n).term uuid := by
    rw [huuid]
    rfl
  unfold acceptedPolicy
  rw [hpolicy, hpermission]
  simp only [List.mem_append, List.mem_cons, List.mem_map, List.mem_flatMap, List.not_mem_nil,
    or_false, Store.mem_getObjects_linked, Store.mem_getQuads_subject]
  constructor
  · rintro (((h | ⟨action, haction, rfl⟩) | h) | h)
    · rcases h with h | h | h | h <;> simp [h]
    · exact Or.inr (Or.inl ⟨action, haction, rfl⟩)
    · rcases h with h | h | h <;> simp [h]
    · exact Or.inr (Or.inr h)
  · rintro (h | ⟨action, haction, rfl⟩ | h)
    · rcases h with h | h | h | h | h | h | h <;> simp [h]
    · exact Or.inl (Or.inl (Or.inr ⟨action, haction, rfl⟩))
    · exact Or.inr h

section Resolving

variable {env : AccessRequestEnvironment} {uuid : Nat → String} {count : Nat}
  {records : List RequestRecord} {store : Store} {record : RequestRecord}
  {requestID status clientID : String} {owned : List String}

/-- Only one record is resolved. -/
theorem resolve_eq (hfresh : FreshUUIDs uuid count) (htidy : TidyRecords count records)
    (hrecord : record ∈ records) (hresolvable : record.Resolvable uuid requestID status owned)
    {n : Nat} {a : RequestRecord} (ha : a ∈ records) (hother : a ≠ record) :
    a.resolve uuid n requestID status clientID owned = a := by
  refine if_neg (fun hresolvable' => hother ?_)
  have hiri : entityIRI uuid a.number = entityIRI uuid record.number :=
    hresolvable'.2.1.symm.trans hresolvable.2.1
  exact (eq_of_entityIRI hfresh htidy ha hrecord List.mem_cons_self List.mem_cons_self hiri).2

/-- The status a resolved record gets. -/
def resolvedStatus (n : Nat) (status clientID : String) : RequestStatus :=
  if status = "accepted" then .accepted n clientID else .denied

theorem statusTerm_eq (n : Nat) (status clientID : String) :
    statusTerm status = (resolvedStatus n status clientID).term := by
  unfold statusTerm resolvedStatus
  split <;> rfl

/-- A resolved record says what it said, but for its status, and what its
policy says. -/
theorem says_resolved {n : Nat} (hrequested : record.status = .requested)
    {node : Node} {p o : Term} :
    RequestRecord.Says uuid { record with status := resolvedStatus n status clientID } node p o ↔
      record.Says uuid node p o ∧ ¬ (node = .entity record.number ∧ p = SOTW.requestStatus) ∨
      node = .entity record.number ∧ p = SOTW.requestStatus ∧ o = statusTerm status ∨
      RequestRecord.SaysOfPolicy uuid
        { record with status := resolvedStatus n status clientID } node p o := by
  have hpolicy : ¬ record.SaysOfPolicy uuid node p o := by
    rintro ⟨_, _, hstatus, -⟩
    rw [hrequested] at hstatus
    cases hstatus
  rw [statusTerm_eq n status clientID]
  constructor
  · rintro (⟨rfl, hstated⟩ | ⟨k, terms, hk, rfl, hstated⟩ | hstated)
    · rcases hstated with h | h | h | ⟨rfl, rfl⟩ | h | h
      · exact Or.inl ⟨Or.inl ⟨rfl, Or.inl h⟩, fun hp => by simp +decide [hp.2] at h⟩
      · exact Or.inl ⟨Or.inl ⟨rfl, Or.inr (Or.inl h)⟩, fun hp => by simp +decide [hp.2] at h⟩
      · exact Or.inl ⟨Or.inl ⟨rfl, Or.inr (Or.inr (Or.inl h))⟩,
          fun hp => by simp +decide [hp.2] at h⟩
      · exact Or.inr (Or.inl ⟨rfl, rfl, rfl⟩)
      · exact Or.inl ⟨Or.inl ⟨rfl, Or.inr (Or.inr (Or.inr (Or.inr (Or.inl h))))⟩,
          fun hp => by simp +decide [hp.2] at h⟩
      · exact Or.inl ⟨Or.inl ⟨rfl, Or.inr (Or.inr (Or.inr (Or.inr (Or.inr h))))⟩,
          fun hp => by simp +decide [hp.2] at h⟩
    · exact Or.inl ⟨Or.inr (Or.inl ⟨k, terms, hk, rfl, hstated⟩), fun hp => by cases hp.1⟩
    · exact Or.inr (Or.inr hstated)
  · rintro (⟨hstated, hp⟩ | ⟨rfl, rfl, rfl⟩ | hstated)
    · rcases hstated with ⟨rfl, hstated⟩ | hstated | hstated
      · refine Or.inl ⟨rfl, ?_⟩
        rcases hstated with h | h | h | ⟨rfl, -⟩ | h | h
        · exact Or.inl h
        · exact Or.inr (Or.inl h)
        · exact Or.inr (Or.inr (Or.inl h))
        · exact absurd ⟨rfl, rfl⟩ hp
        · exact Or.inr (Or.inr (Or.inr (Or.inr (Or.inl h))))
        · exact Or.inr (Or.inr (Or.inr (Or.inr (Or.inr h))))
      · exact Or.inr (Or.inl hstated)
      · exact absurd hstated hpolicy
    · exact Or.inl ⟨rfl, Or.inr (Or.inr (Or.inr (Or.inl ⟨rfl, rfl⟩)))⟩
    · exact Or.inr (Or.inr hstated)

/-- What the policy of an accepted request adds to the store. -/
theorem mem_accepted {n : Nat} {resolved : Store} {request : Term}
    {actions : List Term} (hactions : ∀ a, a ∈ actions ↔ a ∈ record.content.actions)
    (hlinked : ∀ c, resolved.Linked request ODRL.constraint c ↔
      c ∈ record.constraintNodes.map (Node.term uuid)) {q : Quad} :
    q ∈ resolved ∨ q ∈ acceptedPolicy { env with randomUUID := uuid n } resolved request clientID
        record.content.target record.content.party actions ↔
      q ∈ resolved ∨ ∃ node p o, RequestRecord.SaysOfPolicy uuid
        { record with status := .accepted n clientID } node p o ∧ q = quad (node.term uuid) p o := by
  rw [mem_acceptedPolicy (n := n) rfl]
  constructor
  · rintro (h | h | ⟨action, haction, rfl⟩ | ⟨c, hc, rfl | ⟨hq, -⟩⟩)
    · exact Or.inl h
    · refine Or.inr ?_
      simp only [List.mem_cons, List.not_mem_nil, or_false] at h
      rcases h with rfl | rfl | rfl | rfl | rfl | rfl | rfl
      · exact ⟨.entity n, _, _, ⟨n, clientID, rfl, Or.inl ⟨rfl, Or.inl ⟨rfl, rfl⟩⟩⟩, rfl⟩
      · exact ⟨.entity n, _, _, ⟨n, clientID, rfl, Or.inl ⟨rfl, Or.inr (Or.inl ⟨rfl, rfl⟩)⟩⟩, rfl⟩
      · exact ⟨.entity n, _, _, ⟨n, clientID, rfl, Or.inl ⟨rfl, Or.inr (Or.inr ⟨rfl, rfl⟩)⟩⟩, rfl⟩
      · exact ⟨.permission n, _, _, ⟨n, clientID, rfl, Or.inr ⟨rfl, Or.inl ⟨rfl, rfl⟩⟩⟩, rfl⟩
      · exact ⟨.permission n, _, _,
          ⟨n, clientID, rfl, Or.inr ⟨rfl, Or.inr (Or.inr (Or.inl ⟨rfl, rfl⟩))⟩⟩, rfl⟩
      · exact ⟨.permission n, _, _,
          ⟨n, clientID, rfl, Or.inr ⟨rfl, Or.inr (Or.inr (Or.inr (Or.inl ⟨rfl, rfl⟩)))⟩⟩, rfl⟩
      · exact ⟨.permission n, _, _, ⟨n, clientID, rfl,
          Or.inr ⟨rfl, Or.inr (Or.inr (Or.inr (Or.inr (Or.inl ⟨rfl, rfl⟩))))⟩⟩, rfl⟩
    · exact Or.inr ⟨.permission n, _, _, ⟨n, clientID, rfl,
        Or.inr ⟨rfl, Or.inr (Or.inl ⟨rfl, (hactions action).mp haction⟩)⟩⟩, rfl⟩
    · exact Or.inr ⟨.permission n, _, _, ⟨n, clientID, rfl,
        Or.inr ⟨rfl, Or.inr (Or.inr (Or.inr (Or.inr (Or.inr ⟨rfl, (hlinked c).mp hc⟩))))⟩⟩, rfl⟩
    -- what the constraints of the request say is in the store already
    · exact Or.inl hq
  · rintro (h | ⟨node, p, o, ⟨n', clientID', hstatus, hstated⟩, rfl⟩)
    · exact Or.inl h
    cases hstatus
    refine Or.inr ?_
    rcases hstated with ⟨rfl, hstated⟩ | ⟨rfl, hstated⟩
    · refine Or.inl ?_
      rcases hstated with ⟨rfl, rfl⟩ | ⟨rfl, rfl⟩ | ⟨rfl, rfl⟩ <;> simp
    · rcases hstated with ⟨rfl, rfl⟩ | ⟨rfl, ho⟩ | ⟨rfl, rfl⟩ | ⟨rfl, rfl⟩ | ⟨rfl, rfl⟩ | ⟨rfl, ho⟩
      · exact Or.inl (by simp)
      · exact Or.inr (Or.inl ⟨o, (hactions o).mpr ho, rfl⟩)
      · exact Or.inl (by simp)
      · exact Or.inl (by simp)
      · exact Or.inl (by simp)
      · exact Or.inr (Or.inr ⟨o, (hlinked o).mpr ho, Or.inl rfl⟩)

theorem mem_withStatus {q : Quad} : q ∈ withStatus store requestID status ↔
    q ∈ store ∧ q ≠ quad (.namedNode requestID) SOTW.requestStatus SOTW.requested ∨
      q = quad (.namedNode requestID) SOTW.requestStatus (statusTerm status) := by
  rw [withStatus, Store.mem_addQuad, Store.mem_removeQuads, List.mem_singleton]

theorem linked_withStatus {x p o : Term} (hp : p ≠ SOTW.requestStatus) :
    (withStatus store requestID status).Linked x p o ↔ store.Linked x p o := by
  constructor
  · rintro ⟨q, hq, hx, hpredicate, ho⟩
    rcases mem_withStatus.mp hq with ⟨hq, -⟩ | rfl
    · exact ⟨q, hq, hx, hpredicate, ho⟩
    · exact absurd hpredicate.symm hp
  · rintro ⟨q, hq, hx, hpredicate, ho⟩
    refine ⟨q, mem_withStatus.mpr (Or.inl ⟨hq, ?_⟩), hx, hpredicate, ho⟩
    rintro rfl
    exact hp hpredicate.symm

/-- With the new status and the policy, the store encodes the records with the
resolved one. -/
theorem encodes_resolved (h : Encodes uuid records store) (hfresh : FreshUUIDs uuid count)
    (htidy : TidyRecords count records) (hrecord : record ∈ records)
    (hresolvable : record.Resolvable uuid requestID status owned) {n : Nat}
    {filteredStore : Store}
    (hfiltered : ∀ q, q ∈ filteredStore ↔ q ∈ withStatus store requestID status ∨
      ∃ node p o, RequestRecord.SaysOfPolicy uuid
        { record with status := resolvedStatus n status clientID } node p o ∧
          q = quad (node.term uuid) p o) :
    Encodes uuid (records.map (RequestRecord.resolve uuid n requestID status clientID owned))
      filteredStore := by
  have hrequested := hresolvable.2.2.1
  have hnode : Term.namedNode requestID = (Node.entity record.number).term uuid := by
    rw [hresolvable.2.1, Node.term_entity]
  have hresolve : record.resolve uuid n requestID status clientID owned =
      { record with status := resolvedStatus n status clientID } := if_pos hresolvable
  -- the old status is of this record only
  have hold : ∀ {a : RequestRecord} {node : Node} {p o : Term}, a ∈ records →
      a.Says uuid node p o →
      (quad (node.term uuid) p o = quad (.namedNode requestID) SOTW.requestStatus SOTW.requested ↔
        a = record ∧ node = .entity record.number ∧ p = SOTW.requestStatus) := by
    intro a node p o ha hstated
    have hnumber := says_number hstated
    rw [hnode]
    constructor
    · intro hq
      obtain ⟨hterm, hp, -⟩ := quad_inj.mp hq
      have hsame : node = .entity record.number := Node.term_injective hfresh
        (htidy.bound a ha _ hnumber) (htidy.bound record hrecord _ List.mem_cons_self) hterm
      rw [hsame] at hnumber
      exact ⟨htidy.distinct a ha record hrecord _ hnumber List.mem_cons_self, hsame, hp⟩
    · rintro ⟨rfl, rfl, rfl⟩
      rw [(says_requestStatus (htidy.nodup a ha)).mp hstated, hrequested]
      rfl
  intro q
  rw [hfiltered, mem_withStatus, h]
  constructor
  · rintro ((⟨⟨a, ha, node, p, o, hstated, rfl⟩, hkept⟩ | rfl) | ⟨node, p, o, hstated, rfl⟩)
    · rw [Ne, hold ha hstated] at hkept
      refine ⟨_, List.mem_map_of_mem ha, node, p, o, ?_, rfl⟩
      by_cases hsame : a = record
      · subst hsame
        rw [hresolve, says_resolved hrequested]
        exact Or.inl ⟨hstated, fun hstatus => hkept ⟨rfl, hstatus⟩⟩
      · rw [resolve_eq hfresh htidy hrecord hresolvable ha hsame]
        exact hstated
    · refine ⟨_, List.mem_map_of_mem hrecord, .entity record.number, _, _, ?_, by rw [← hnode]⟩
      rw [hresolve, says_resolved hrequested]
      exact Or.inr (Or.inl ⟨rfl, rfl, rfl⟩)
    · refine ⟨_, List.mem_map_of_mem hrecord, node, p, o, ?_, rfl⟩
      rw [hresolve, says_resolved hrequested]
      exact Or.inr (Or.inr hstated)
  · rintro ⟨a', ha', node, p, o, hstated, rfl⟩
    obtain ⟨a, ha, rfl⟩ := List.mem_map.mp ha'
    by_cases hsame : a = record
    · subst hsame
      rw [hresolve, says_resolved hrequested] at hstated
      rcases hstated with ⟨hstated, hstatus⟩ | ⟨rfl, rfl, rfl⟩ | hstated
      · refine Or.inl (Or.inl ⟨⟨a, ha, node, p, o, hstated, rfl⟩, ?_⟩)
        rw [Ne, hold ha hstated]
        exact fun hq => hstatus hq.2
      · exact Or.inl (Or.inr (by rw [← hnode]))
      · exact Or.inr ⟨node, p, o, hstated, rfl⟩
    · rw [resolve_eq hfresh htidy hrecord hresolvable ha hsame] at hstated
      refine Or.inl (Or.inl ⟨⟨a, ha, node, p, o, hstated, rfl⟩, ?_⟩)
      rw [Ne, hold ha hstated]
      exact fun hq => hsame hq.1

/-- A PATCH that resolves a record goes through. -/
theorem patchedStore_of_resolvable (env : AccessRequestEnvironment)
    (h : Encodes uuid records store) (hfresh : FreshUUIDs uuid count)
    (htidy : TidyRecords count records)
    (hrecord : record ∈ records) (hresolvable : record.Resolvable uuid requestID status owned)
    (n : Nat) (clientID : String) :
    ∃ filteredStore, patchedStore { env with randomUUID := uuid n } store owned requestID clientID
        status = .ok filteredStore ∧
      ∀ q, q ∈ filteredStore ↔ q ∈ withStatus store requestID status ∨
        ∃ node p o, RequestRecord.SaysOfPolicy uuid
          { record with status := resolvedStatus n status clientID } node p o ∧
            q = quad (node.term uuid) p o := by
  obtain ⟨hstatus, hid, hrequested, howned⟩ := hresolvable
  have hnode : Term.namedNode requestID = (Node.entity record.number).term uuid := by
    rw [hid, Node.term_entity]
  have hnodup := htidy.nodup record hrecord
  have hlinked : ∀ {p o}, store.Linked (.namedNode requestID) p o ↔
      record.Says uuid (.entity record.number) p o := by
    intro p o
    rw [hnode]
    exact h.linked_iff hfresh htidy hrecord List.mem_cons_self
  have htarget : store.getObjects (Term.namedNode requestID) SOTW.requestedTarget none =
      [record.content.target] :=
    Store.getObjects_eq_singleton.mpr fun o => hlinked.trans (says_requestedTarget hnodup)
  have hstatuses : store.getObjects (Term.namedNode requestID) SOTW.requestStatus none =
      [SOTW.requested] := by
    refine Store.getObjects_eq_singleton.mpr fun o => hlinked.trans ?_
    rw [says_requestStatus hnodup, hrequested]
    rfl
  have hparty : store.getObjects (Term.namedNode requestID) SOTW.requestingParty none =
      [record.content.party] :=
    Store.getObjects_eq_singleton.mpr fun o => hlinked.trans (says_requestingParty hnodup)
  have hactions : ∀ a, a ∈ store.getObjects (Term.namedNode requestID) SOTW.requestedAction none ↔
      a ∈ record.content.actions := fun a =>
    Store.mem_getObjects_linked.trans (hlinked.trans (says_requestedAction hnodup))
  have hsome : ¬ (store.getObjects (Term.namedNode requestID) SOTW.requestedAction none).length =
      0 := by
    intro hnone
    refine htidy.actions record hrecord (List.eq_nil_iff_forall_not_mem.mpr fun a ha => ?_)
    have hmem := (hactions a).mpr ha
    rw [List.length_eq_zero_iff.mp hnone] at hmem
    cases hmem
  have hgood : ¬ (status ≠ "accepted" ∧ status ≠ "denied") :=
    fun hbad => hstatus.elim hbad.1 hbad.2
  have howns : ¬ (!owned.contains record.content.target.value) = true := by simp [howned]
  unfold patchedStore resolveRequest
  dsimp only
  rw [htarget, hstatuses, hparty]
  dsimp only
  rw [if_neg hgood, if_neg howns, if_neg (fun hne => hne rfl), if_neg hsome]
  by_cases haccepted : status = "accepted"
  · rw [if_pos haccepted]
    refine ⟨_, rfl, fun q => ?_⟩
    rw [Store.mem_addQuads]
    have hconstraints : ∀ c, (withStatus store requestID status).Linked (.namedNode requestID)
        ODRL.constraint c ↔ c ∈ record.constraintNodes.map (Node.term uuid) := by
      intro c
      rw [linked_withStatus (by decide), hlinked, says_constraint hnodup]
    have hresolved : resolvedStatus n status clientID = .accepted n clientID := if_pos haccepted
    rw [hresolved]
    exact mem_accepted hactions hconstraints
  · rw [if_neg haccepted]
    refine ⟨_, rfl, fun q => ?_⟩
    have hresolved : resolvedStatus n status clientID = .denied := if_neg haccepted
    rw [hresolved]
    refine (or_iff_left ?_).symm
    rintro ⟨_, _, _, ⟨_, _, hdenied, -⟩, -⟩
    cases hdenied

/-- A PATCH that resolves no record is refused. -/
theorem patchedStore_refused (env : AccessRequestEnvironment) (clientID : String)
    (h : Encodes uuid records store) (hfresh : FreshUUIDs uuid count)
    (htidy : TidyRecords count records)
    (hnone : ∀ record ∈ records, ¬ record.Resolvable uuid requestID status owned) :
    ∃ e, patchedStore env store owned requestID clientID status = .error e := by
  unfold patchedStore
  rcases htargets : store.getObjects (Term.namedNode requestID) SOTW.requestedTarget none with
    _ | ⟨target, targets⟩
  · exact ⟨_, rfl⟩
  have hlinked : store.Linked (.namedNode requestID) SOTW.requestedTarget target := by
    rw [← Store.mem_getObjects_linked, htargets]
    exact List.mem_cons_self
  obtain ⟨record, hrecord, node, hterm, hstated⟩ := h.linked.mp hlinked
  obtain rfl := entity_of_party_or_target (Or.inr rfl) hstated
  have hnodup := htidy.nodup record hrecord
  have htarget : target = record.content.target := (says_requestedTarget hnodup).mp hstated
  have hid : requestID = entityIRI uuid record.number := by
    rw [Node.term_entity] at hterm
    exact (Term.namedNode.inj hterm).symm
  have hstatuses : store.getObjects (Term.namedNode requestID) SOTW.requestStatus none =
      [record.status.term] := by
    rw [← hterm]
    refine Store.getObjects_eq_singleton.mpr fun o => ?_
    rw [h.linked_iff hfresh htidy hrecord List.mem_cons_self]
    exact says_requestStatus hnodup
  dsimp only
  by_cases hbad : status ≠ "accepted" ∧ status ≠ "denied"
  · rw [if_pos hbad]
    exact ⟨_, rfl⟩
  rw [if_neg hbad]
  by_cases hforeign : (!owned.contains target.value) = true
  · rw [if_pos hforeign]
    exact ⟨_, rfl⟩
  rw [if_neg hforeign]
  have hstatus : status = "accepted" ∨ status = "denied" := by
    by_contra hneither
    exact hbad (not_or.mp hneither)
  have howned : record.content.target.value ∈ owned := by
    rw [← htarget]
    simpa using hforeign
  have hresolved : record.status.term ≠ SOTW.requested := by
    intro hterm
    refine hnone record hrecord ⟨hstatus, hid, ?_, howned⟩
    cases hrequested : record.status with
    | requested => rfl
    | denied => exact absurd (hrequested ▸ hterm) (by decide)
    | accepted n clientID => exact absurd (hrequested ▸ hterm) (by decide : SOTW.accepted ≠ _)
  unfold resolveRequest
  dsimp only
  rw [hstatuses]
  dsimp only
  rw [if_pos hresolved]
  exact ⟨_, rfl⟩

/-- A resolved record has the number of the request, if it was accepted. -/
theorem numbers_resolve {n m : Nat}
    (h : m ∈ (record.resolve uuid n requestID status clientID owned).numbers) :
    m ∈ record.numbers ∨ m = n ∧ record.Resolvable uuid requestID status owned := by
  unfold RequestRecord.resolve at h
  by_cases hresolvable : record.Resolvable uuid requestID status owned
  · rw [if_pos hresolvable] at h
    by_cases haccepted : status = "accepted"
    · simp only [haccepted, if_true, RequestRecord.numbers, List.mem_cons, List.not_mem_nil,
        or_false] at h
      rcases h with rfl | rfl
      · exact Or.inl List.mem_cons_self
      · exact Or.inr ⟨rfl, hresolvable⟩
    · simp only [haccepted, if_false, RequestRecord.numbers, List.mem_singleton] at h
      exact Or.inl (h ▸ List.mem_cons_self)
  · rw [if_neg hresolvable] at h
    exact Or.inl h

theorem TidyRecords.resolved (htidy : TidyRecords count records)
    (hfresh : FreshUUIDs uuid count) :
    TidyRecords (count + 1)
      (records.map (RequestRecord.resolve uuid count requestID status clientID owned)) := by
  have hnew : ∀ record ∈ records, count ∉ record.numbers := fun record hrecord hmem =>
    absurd (htidy.bound record hrecord count hmem) (Nat.lt_irrefl count)
  refine ⟨?_, ?_, ?_, ?_⟩
  · intro record' hrecord' n hn
    obtain ⟨record, hrecord, rfl⟩ := List.mem_map.mp hrecord'
    rcases numbers_resolve hn with hn | ⟨rfl, -⟩
    · exact Nat.lt_succ_of_lt (htidy.bound record hrecord n hn)
    · exact Nat.lt_succ_self n
  · intro a' ha' b' hb' n hna hnb
    obtain ⟨a, ha, rfl⟩ := List.mem_map.mp ha'
    obtain ⟨b, hb, rfl⟩ := List.mem_map.mp hb'
    have hsame : a = b := by
      rcases numbers_resolve hna with hold | ⟨hn, hresolvable⟩
      · rcases numbers_resolve hnb with hold' | ⟨hn, -⟩
        · exact htidy.distinct a ha b hb n hold hold'
        · exact absurd (hn ▸ hold) (hnew a ha)
      · rcases numbers_resolve hnb with hold | ⟨-, hresolvable'⟩
        · exact absurd (hn ▸ hold) (hnew b hb)
        · have hiri := hresolvable.2.1.symm.trans hresolvable'.2.1
          exact (eq_of_entityIRI hfresh htidy ha hb List.mem_cons_self List.mem_cons_self hiri).2
    rw [hsame]
  · intro record' hrecord'
    obtain ⟨record, hrecord, rfl⟩ := List.mem_map.mp hrecord'
    have hnodup := htidy.nodup record hrecord
    have hne : record.number ≠ count := fun heq =>
      hnew record hrecord (heq ▸ List.mem_cons_self)
    unfold RequestRecord.resolve
    by_cases hresolvable : record.Resolvable uuid requestID status owned
    · rw [if_pos hresolvable]
      by_cases haccepted : status = "accepted" <;> simp [RequestRecord.numbers, haccepted, hne]
    · rw [if_neg hresolvable]
      exact hnodup
  · intro record' hrecord'
    obtain ⟨record, hrecord, rfl⟩ := List.mem_map.mp hrecord'
    have hcontent : (record.resolve uuid count requestID status clientID owned).content =
        record.content := by
      unfold RequestRecord.resolve
      split <;> rfl
    rw [hcontent]
    exact htidy.actions record hrecord

end Resolving

/-! ## One request -/

section Step

variable {env : AccessRequestEnvironment} {uuid : Nat → String} {count : Nat}
  {records : List RequestRecord} {store : Store} {step : RequestStep}

theorem FreshUUIDs.mono {n m : Nat} (h : FreshUUIDs uuid m) (hle : n ≤ m) : FreshUUIDs uuid n :=
  ⟨fun i hi => h.length i (Nat.lt_of_lt_of_le hi hle), fun i hi j hj =>
    h.distinct i (Nat.lt_of_lt_of_le hi hle) j (Nat.lt_of_lt_of_le hj hle)⟩

theorem frame_getEntities (clientID : String) :
    Async.Frame ControllerState.policies
      ((accessRequestController env memoryUCRulesStorage).getEntities clientID) :=
  .bind (.bind .yield fun _ => .bind .get fun _ => .pure _) fun _ =>
    .bind (.bind .yield fun _ => .bind (.bind .get fun _ => .bind .yield fun _ => .pure _) fun _ =>
      .pure _) fun _ => .bind .yield fun _ => .pure _

/-- Only a POST and a PATCH change the store. -/
theorem nextStore_of_read (n : Nat)
    (hpost : ∀ data clientID, step.operation ≠ .addEntity data clientID)
    (hpatch : ∀ id status clientID, step.operation ≠ .patchEntity id status clientID) :
    nextStore env uuid n step store = store := by
  unfold nextStore answer
  rcases hoperation : step.operation with clientID | ⟨id, clientID⟩ | ⟨data, clientID⟩ |
    ⟨id, clientID⟩ | ⟨id, status, clientID⟩ | ⟨data, id, clientID⟩
  · exact frame_getEntities clientID _
  · dsimp only [performAccessRequest]
    rw [run_getEntity]
  · exact absurd hoperation (hpost data clientID)
  · rfl
  · exact absurd hoperation (hpatch id status clientID)
  · rfl

/-- What a PATCH answers and leaves. -/
theorem answer_patch (h : Encodes uuid records store) (hfresh : FreshUUIDs uuid count)
    (htidy : TidyRecords count records) {requestID status clientID : String}
    (hoperation : step.operation = .patchEntity requestID status clientID) (n : Nat) :
    ((∃ response, (answer env uuid n step store).1 = .ok response) ↔
      ∃ record ∈ records, record.Resolvable uuid requestID status (step.owned clientID)) ∧
    Encodes uuid
      (records.map (RequestRecord.resolve uuid n requestID status clientID (step.owned clientID)))
      (nextStore env uuid n step store) := by
  unfold nextStore answer
  rw [hoperation]
  dsimp only [performAccessRequest]
  rw [run_patchEntity]
  by_cases hresolves : ∃ record ∈ records,
      record.Resolvable uuid requestID status (step.owned clientID)
  · obtain ⟨record, hrecord, hresolvable⟩ := hresolves
    obtain ⟨filteredStore, hpatched, hfiltered⟩ :=
      patchedStore_of_resolvable env h hfresh htidy hrecord hresolvable n clientID
    have hencodes := encodes_resolved h hfresh htidy hrecord hresolvable hfiltered
    rw [RequestStep.owned] at hpatched
    rw [hpatched]
    refine ⟨iff_of_true ⟨_, rfl⟩ ⟨record, hrecord, hresolvable⟩, fun q => ?_⟩
    rw [ControllerState.mem_policies_replace]
    exact hencodes q
  · have hnone : ∀ record ∈ records,
        ¬ record.Resolvable uuid requestID status (step.owned clientID) :=
      fun record hrecord hresolvable => hresolves ⟨record, hrecord, hresolvable⟩
    obtain ⟨e, hrefused⟩ := patchedStore_refused { env with randomUUID := uuid n } clientID h
      hfresh htidy hnone
    have hsame : records.map (RequestRecord.resolve uuid n requestID status clientID
        (step.owned clientID)) = records := by
      refine (List.map_congr_left fun record hrecord => ?_).trans (List.map_id' records)
      exact if_neg (hnone record hrecord)
    rw [RequestStep.owned] at hrefused
    rw [hrefused, hsame]
    refine ⟨iff_of_false ?_ hresolves, h⟩
    rintro ⟨response, hok⟩
    cases hok

/-- The store of the next records. -/
theorem encodes_step (h : Encodes uuid records store) (hfresh : FreshUUIDs uuid count)
    (htidy : TidyRecords count records) :
    Encodes uuid (nextRecords env uuid count step records)
        (nextStore env uuid count step store) ∧
      TidyRecords (count + 1) (nextRecords env uuid count step records) := by
  have hmore : TidyRecords (count + 1) records :=
    { htidy with bound := fun record hrecord n hn =>
        Nat.lt_succ_of_lt (htidy.bound record hrecord n hn) }
  unfold nextRecords
  split
  · rename_i data clientID hoperation
    unfold nextStore answer
    rw [hoperation]
    dsimp only [performAccessRequest]
    rcases run_addEntity { env with randomUUID := uuid count } data clientID
        { policies := store, ownershipStore := step.ownershipStore } with
      ⟨hcontent, e, hrun⟩ | ⟨json, content, request, hcontent, hrun, -, -, hnew⟩
    · have hnone : postedContent env data clientID = none := hcontent
      rw [hnone, hrun]
      exact ⟨h, hmore⟩
    · have hsome : postedContent env data clientID = some content := hcontent
      rw [hsome, hrun]
      exact ⟨encodes_posted h hnew, htidy.posted hnew.actions⟩
  · rename_i requestID status clientID hoperation
    exact ⟨(answer_patch h hfresh htidy hoperation count).2, htidy.resolved hfresh⟩
  · rename_i hpost hpatch
    rw [nextStore_of_read count hpost hpatch]
    exact ⟨h, hmore⟩

theorem requestsAfter_concat (env : AccessRequestEnvironment) (uuid : Nat → String)
    (steps : List RequestStep) (step : RequestStep) :
    requestsAfter env uuid (steps ++ [step]) =
      nextStore env uuid steps.length step (requestsAfter env uuid steps) := by
  unfold requestsAfter
  rw [runFrom_append, Nat.zero_add]
  rfl

theorem recordsAfter_concat (env : AccessRequestEnvironment) (uuid : Nat → String)
    (steps : List RequestStep) (step : RequestStep) :
    recordsAfter env uuid (steps ++ [step]) =
      nextRecords env uuid steps.length step (recordsAfter env uuid steps) := by
  unfold recordsAfter
  rw [runFrom_append, Nat.zero_add]
  rfl

/-- The store after a run is that of its records. -/
theorem encodes_run (env : AccessRequestEnvironment) {steps : List RequestStep}
    (hfresh : FreshUUIDs uuid steps.length) :
    Encodes uuid (recordsAfter env uuid steps) (requestsAfter env uuid steps) ∧
      TidyRecords steps.length (recordsAfter env uuid steps) := by
  induction steps using List.reverseRecOn with
  | nil =>
    refine ⟨fun q => ?_, ?_, ?_, ?_, ?_⟩
    · exact iff_of_false (Store.not_mem_empty q) (fun ⟨_, hmem, _⟩ => List.not_mem_nil hmem)
    · exact fun record hmem => absurd hmem List.not_mem_nil
    · exact fun record hmem => absurd hmem List.not_mem_nil
    · exact fun record hmem => absurd hmem List.not_mem_nil
    · exact fun record hmem => absurd hmem List.not_mem_nil
  | append_singleton steps step ih =>
    rw [List.length_append, List.length_singleton] at hfresh ⊢
    have hbefore := hfresh.mono (Nat.le_succ steps.length)
    obtain ⟨hencodes, htidy⟩ := ih hbefore
    rw [recordsAfter_concat, requestsAfter_concat]
    exact encodes_step hencodes hbefore htidy

end Step

end UserManagedAccess.Controller.AccessRequestController
