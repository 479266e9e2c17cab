/-
UserManagedAccess.Controller.AccessRequestLifeCycle — what becomes of an access
request in a run.

No clause is proved of quads. After any run the store is what a list of records
stands for (`encodes_run`), one record for each request that was posted. That
list follows from the answers alone: `History` relates it to the requests of the
run that were answered with success, and `history_run` keeps the relation by
induction on the run. A POST adds a record, a PATCH by an owner of its target
resolves one, and what is refused changes none. The clauses of `LifeCycle` are
then read off the records, with one lemma for each kind of node.

* `history_run` — the records after a run are those of its successes;
* `permits_record` — the policy of an accepted record permits what it asked for;
* `policyFor_iff` — and no other policy stems from it;
* `accessRequest_lifeCycle` — all clauses, in every run.

The UUIDs of a run are taken to be fresh (`FreshUUIDs`), as those of
`randomUUID` are. Users, bodies and what the users own are arbitrary, and may
change from request to request.
-/
import Mathlib.Data.List.Forall2
import UserManagedAccess.Controller.RequestRecordsTheorems

namespace UserManagedAccess.Controller.AccessRequestController

open UserManagedAccess.Lib UserManagedAccess.Rdf UserManagedAccess.Util UserManagedAccess.Ucp

/-! ## Bodies have one content -/

theorem Posted.unique {env : AccessRequestEnvironment} {json : Json} {clientID : String}
    {content content' : RequestContent} (h : Posted env json clientID content)
    (h' : Posted env json clientID content') : content = content' := by
  obtain ⟨⟨id, hid, htarget⟩, hparty, ⟨scopes, hscopes, hactions⟩, hconstraints⟩ := h
  obtain ⟨⟨id', hid', htarget'⟩, hparty', ⟨scopes', hscopes', hactions'⟩, hconstraints'⟩ := h'
  have hsameId : id = id' := Json.string.inj (hid.symm.trans hid')
  have hsameScopes : scopes = scopes' := by
    have harray := Json.array.inj (hscopes.symm.trans hscopes')
    exact List.map_injective_iff.mpr (fun _ _ => Json.string.inj) harray
  have hsameConstraints : content.constraints = content'.constraints := by
    refine List.right_unique_forall₂' ?_ hconstraints hconstraints'
    rintro constraint ⟨l, o, r⟩ ⟨l', o', r'⟩ ⟨left, operator, right, rfl, hl, ho, hr⟩
      ⟨left', operator', right', heq, hl', ho', hr'⟩
    simp only [Json.array.injEq, List.cons.injEq, Json.string.injEq, and_true] at heq
    obtain ⟨rfl, rfl, rfl⟩ := heq
    rw [hl, Except.ok.injEq] at hl'
    rw [ho, Except.ok.injEq] at ho'
    rw [hr, Except.ok.injEq] at hr'
    exact Prod.ext hl' (Prod.ext ho' hr')
  cases content
  cases content'
  simp_all

/-! ## The history of the records -/

section History

variable {env : AccessRequestEnvironment} {uuid : Nat → String} {steps : List RequestStep}
  {step : RequestStep}

/-- A success of a longer run is one of the run before, or of its last request. -/
theorem succeeds_concat {n : Nat} {operation : EntityOperation} :
    Succeeds env uuid (steps ++ [step]) n operation ↔
      Succeeds env uuid steps n operation ∨ n = steps.length ∧ step.operation = operation ∧
        ∃ response, (answer env uuid n step (requestsAfter env uuid steps)).1 = .ok response := by
  constructor
  · rintro ⟨step', response, hget, hoperation, hok⟩
    by_cases hn : n < steps.length
    · rw [List.getElem?_append_left hn] at hget
      rw [List.take_append_of_le_length (Nat.le_of_lt hn)] at hok
      exact Or.inl ⟨step', response, hget, hoperation, hok⟩
    · have hlast : n = steps.length := by
        have hbound := (List.getElem?_eq_some_iff.mp hget).1
        rw [List.length_append, List.length_singleton] at hbound
        omega
      subst hlast
      rw [List.getElem?_concat_length] at hget
      rw [List.take_left] at hok
      cases hget
      exact Or.inr ⟨rfl, hoperation, response, hok⟩
  · rintro (⟨step', response, hget, hoperation, hok⟩ | ⟨rfl, hoperation, response, hok⟩)
    · have hn := (List.getElem?_eq_some_iff.mp hget).1
      refine ⟨step', response, ?_, hoperation, ?_⟩
      · rw [List.getElem?_append_left hn]
        exact hget
      · rw [List.take_append_of_le_length (Nat.le_of_lt hn)]
        exact hok
    · refine ⟨step, response, List.getElem?_concat_length, hoperation, ?_⟩
      rw [List.take_left]
      exact hok

/-- The records are what the requests of the run have posted and accepted. -/
structure History (env : AccessRequestEnvironment) (uuid : Nat → String)
    (steps : List RequestStep) (records : List RequestRecord) : Prop where
  posted : ∀ record ∈ records, ∃ data clientID json,
    Succeeds env uuid steps record.number (.addEntity data clientID) ∧
      env.parseJson data = .ok json ∧ Posted env json clientID record.content
  accepted : ∀ record ∈ records, ∀ n clientID, record.status = .accepted n clientID →
    Succeeds env uuid steps n
      (.patchEntity (entityIRI uuid record.number) "accepted" clientID)
  posts : ∀ n data clientID, Succeeds env uuid steps n (.addEntity data clientID) →
    ∃ record ∈ records, record.number = n ∧ ∃ json, env.parseJson data = .ok json ∧
      Posted env json clientID record.content
  accepts : ∀ n r clientID, Succeeds env uuid steps n (.patchEntity r "accepted" clientID) →
    ∃ record ∈ records, r = entityIRI uuid record.number ∧ record.status = .accepted n clientID

theorem answer_add (env : AccessRequestEnvironment) (uuid : Nat → String) (n : Nat)
    (store : Store) {data clientID : String}
    (hoperation : step.operation = .addEntity data clientID) :
    (postedContent env data clientID = none ∧
        ∀ response, (answer env uuid n step store).1 ≠ .ok response) ∨
      ∃ content json, postedContent env data clientID = some content ∧
        (∃ response, (answer env uuid n step store).1 = .ok response) ∧
        env.parseJson data = .ok json ∧ Posted env json clientID content := by
  unfold answer
  rw [hoperation]
  dsimp only [performAccessRequest]
  rcases run_addEntity { env with randomUUID := uuid n } data clientID
      { policies := store, ownershipStore := step.ownershipStore } with
    ⟨hcontent, e, hrun⟩ | ⟨json, content, request, hcontent, hrun, hparse, hposted, -⟩
  · rw [hrun]
    exact Or.inl ⟨hcontent, fun response hok => by cases hok⟩
  · rw [hrun]
    exact Or.inr ⟨content, json, hcontent, ⟨_, rfl⟩, hparse,
      ⟨hposted.target, hposted.party, hposted.actions, hposted.constraints⟩⟩

section Resolve

variable {n : Nat} {requestID status clientID : String} {owned : List String}
  {record : RequestRecord}

@[simp] theorem number_resolve :
    (record.resolve uuid n requestID status clientID owned).number = record.number := by
  unfold RequestRecord.resolve
  split <;> rfl

@[simp] theorem content_resolve :
    (record.resolve uuid n requestID status clientID owned).content = record.content := by
  unfold RequestRecord.resolve
  split <;> rfl

/-- What is resolved stays as it is. -/
theorem resolve_of_resolved (h : record.status ≠ .requested) :
    record.resolve uuid n requestID status clientID owned = record :=
  if_neg fun hresolvable => h hresolvable.2.2.1

end Resolve

/-- Without a new success, the history is that of the run before. -/
theorem History.concat {records : List RequestRecord} (h : History env uuid steps records)
    (hposts : ∀ data clientID, step.operation = .addEntity data clientID →
      ∀ response, (answer env uuid steps.length step (requestsAfter env uuid steps)).1 ≠
        .ok response)
    (haccepts : ∀ r clientID, step.operation ≠ .patchEntity r "accepted" clientID) :
    History env uuid (steps ++ [step]) records where
  posted record hrecord := by
    obtain ⟨data, clientID, json, hsucceeds, hposted⟩ := h.posted record hrecord
    exact ⟨data, clientID, json, succeeds_concat.mpr (Or.inl hsucceeds), hposted⟩
  accepted record hrecord n clientID hstatus :=
    succeeds_concat.mpr (Or.inl (h.accepted record hrecord n clientID hstatus))
  posts n data clientID hsucceeds := by
    rcases succeeds_concat.mp hsucceeds with hold | ⟨rfl, hoperation, response, hok⟩
    · exact h.posts n data clientID hold
    · exact absurd hok (hposts data clientID hoperation response)
  accepts n r clientID hsucceeds := by
    rcases succeeds_concat.mp hsucceeds with hold | ⟨rfl, hoperation, -⟩
    · exact h.accepts n r clientID hold
    · exact absurd hoperation (haccepts r clientID)

theorem History.post {records : List RequestRecord} (h : History env uuid steps records)
    {data clientID : String} {content : RequestContent} {json : Json}
    (hoperation : step.operation = .addEntity data clientID)
    (hok : ∃ response, (answer env uuid steps.length step (requestsAfter env uuid steps)).1 =
      .ok response)
    (hparse : env.parseJson data = .ok json) (hposted : Posted env json clientID content) :
    History env uuid (steps ++ [step])
      (records ++ [{ number := steps.length, content, status := .requested }]) where
  posted record hrecord := by
    rcases List.mem_append.mp hrecord with hold | hnew
    · obtain ⟨data, clientID, json, hsucceeds, hposted⟩ := h.posted record hold
      exact ⟨data, clientID, json, succeeds_concat.mpr (Or.inl hsucceeds), hposted⟩
    · obtain rfl := List.mem_singleton.mp hnew
      exact ⟨data, clientID, json, succeeds_concat.mpr (Or.inr ⟨rfl, hoperation, hok⟩), hparse,
        hposted⟩
  accepted record hrecord n clientID hstatus := by
    rcases List.mem_append.mp hrecord with hold | hnew
    · exact succeeds_concat.mpr (Or.inl (h.accepted record hold n clientID hstatus))
    · obtain rfl := List.mem_singleton.mp hnew
      cases hstatus
  posts n data' clientID' hsucceeds := by
    rcases succeeds_concat.mp hsucceeds with hold | ⟨rfl, hoperation', -⟩
    · obtain ⟨record, hrecord, hnumber⟩ := h.posts n data' clientID' hold
      exact ⟨record, List.mem_append_left _ hrecord, hnumber⟩
    · rw [hoperation] at hoperation'
      cases hoperation'
      exact ⟨_, List.mem_append_right _ (List.mem_singleton.mpr rfl), rfl, json, hparse, hposted⟩
  accepts n r clientID' hsucceeds := by
    rcases succeeds_concat.mp hsucceeds with hold | ⟨rfl, hoperation', -⟩
    · obtain ⟨record, hrecord, hstatus⟩ := h.accepts n r clientID' hold
      exact ⟨record, List.mem_append_left _ hrecord, hstatus⟩
    · rw [hoperation] at hoperation'
      cases hoperation'

theorem History.patch {records : List RequestRecord} (h : History env uuid steps records)
    {requestID status clientID : String}
    (hoperation : step.operation = .patchEntity requestID status clientID)
    (hok : (∃ response, (answer env uuid steps.length step (requestsAfter env uuid steps)).1 =
      .ok response) ↔
        ∃ record ∈ records, record.Resolvable uuid requestID status (step.owned clientID)) :
    History env uuid (steps ++ [step]) (records.map
      (RequestRecord.resolve uuid steps.length requestID status clientID
        (step.owned clientID))) where
  posted record' hrecord' := by
    obtain ⟨record, hrecord, rfl⟩ := List.mem_map.mp hrecord'
    obtain ⟨data, clientID', json, hsucceeds, hposted⟩ := h.posted record hrecord
    rw [number_resolve, content_resolve]
    exact ⟨data, clientID', json, succeeds_concat.mpr (Or.inl hsucceeds), hposted⟩
  accepted record' hrecord' n clientID' hstatus := by
    obtain ⟨record, hrecord, rfl⟩ := List.mem_map.mp hrecord'
    rw [number_resolve]
    unfold RequestRecord.resolve at hstatus
    split at hstatus
    · rename_i hresolvable
      dsimp only at hstatus
      split at hstatus
      · rename_i haccepted
        cases hstatus
        rw [haccepted] at hoperation
        rw [← hresolvable.2.1]
        exact succeeds_concat.mpr (Or.inr ⟨rfl, hoperation, hok.mpr ⟨record, hrecord, hresolvable⟩⟩)
      · cases hstatus
    · exact succeeds_concat.mpr (Or.inl (h.accepted record hrecord n clientID' hstatus))
  posts n data clientID' hsucceeds := by
    rcases succeeds_concat.mp hsucceeds with hold | ⟨rfl, hoperation', -⟩
    · obtain ⟨record, hrecord, hnumber, hposted⟩ := h.posts n data clientID' hold
      refine ⟨_, List.mem_map_of_mem hrecord, ?_, ?_⟩
      · rw [number_resolve, hnumber]
      · rw [content_resolve]
        exact hposted
    · rw [hoperation] at hoperation'
      cases hoperation'
  accepts n r clientID' hsucceeds := by
    rcases succeeds_concat.mp hsucceeds with hold | ⟨rfl, hoperation', hanswered⟩
    · obtain ⟨record, hrecord, hid, hstatus⟩ := h.accepts n r clientID' hold
      refine ⟨record, List.mem_map.mpr ⟨record, hrecord, resolve_of_resolved ?_⟩, hid, hstatus⟩
      rw [hstatus]
      exact fun hrequested => by cases hrequested
    · rw [hoperation] at hoperation'
      cases hoperation'
      obtain ⟨record, hrecord, hresolvable⟩ := hok.mp hanswered
      refine ⟨_, List.mem_map_of_mem hrecord, ?_, ?_⟩
      · rw [number_resolve, hresolvable.2.1]
      · rw [RequestRecord.resolve, if_pos hresolvable]
        dsimp only
        rw [if_pos rfl]

theorem history_run (env : AccessRequestEnvironment)
    (hfresh : FreshUUIDs uuid steps.length) :
    History env uuid steps (recordsAfter env uuid steps) := by
  induction steps using List.reverseRecOn with
  | nil =>
    have hnone : ∀ n operation, ¬ Succeeds env uuid [] n operation := by
      rintro n operation ⟨step, response, hget, -⟩
      cases hget
    refine ⟨?_, ?_, ?_, ?_⟩
    · exact fun record hmem => absurd hmem List.not_mem_nil
    · exact fun record hmem => absurd hmem List.not_mem_nil
    · exact fun n data clientID hsucceeds => absurd hsucceeds (hnone n _)
    · exact fun n r clientID hsucceeds => absurd hsucceeds (hnone n _)
  | append_singleton steps step ih =>
    rw [List.length_append, List.length_singleton] at hfresh
    have hbefore := hfresh.mono (Nat.le_succ steps.length)
    obtain ⟨hencodes, htidy⟩ := encodes_run env hbefore
    have hhistory := ih hbefore
    rw [recordsAfter_concat]
    unfold nextRecords
    split
    · rename_i data clientID hoperation
      rcases answer_add env uuid steps.length (requestsAfter env uuid steps) hoperation with
        ⟨hcontent, hrefused⟩ | ⟨content, json, hcontent, hok, hparse, hposted⟩
      · rw [hcontent]
        refine hhistory.concat (fun _ _ _ => hrefused) (fun r clientID' hpatch => ?_)
        rw [hoperation] at hpatch
        cases hpatch
      · rw [hcontent]
        exact hhistory.post hoperation hok hparse hposted
    · rename_i requestID status clientID hoperation
      exact hhistory.patch hoperation (answer_patch hencodes hbefore htidy hoperation _).1
    · rename_i hpost hpatch
      exact hhistory.concat (fun data clientID h => absurd h (hpost data clientID))
        (fun r clientID => hpatch r "accepted" clientID)

end History

/-! ## What the store has for a record -/

section Stored

variable {env : AccessRequestEnvironment} {uuid : Nat → String} {count : Nat}
  {records : List RequestRecord} {store : Store} {record : RequestRecord}

theorem isRequest_iff (h : Encodes uuid records store) {r : String} :
    IsRequest store r ↔ ∃ record ∈ records, r = entityIRI uuid record.number := by
  rw [IsRequest, h.linked]
  constructor
  · rintro ⟨record, hrecord, node, hterm, hstated⟩
    obtain rfl := entity_of_request hstated
    rw [Node.term_entity] at hterm
    exact ⟨record, hrecord, (Term.namedNode.inj hterm).symm⟩
  · rintro ⟨record, hrecord, rfl⟩
    exact ⟨record, hrecord, .entity record.number, Node.term_entity _ _,
      Or.inl ⟨rfl, Or.inl ⟨rfl, rfl⟩⟩⟩

theorem isPolicy_iff (h : Encodes uuid records store) {p : String} :
    IsPolicy store p ↔ ∃ record ∈ records, ∃ n clientID, record.status = .accepted n clientID ∧
      p = entityIRI uuid n := by
  rw [IsPolicy, h.linked]
  constructor
  · rintro ⟨record, hrecord, node, hterm, hstated⟩
    obtain ⟨n, clientID, hstatus, rfl⟩ := entity_of_policy hstated
    rw [Node.term_entity] at hterm
    exact ⟨record, hrecord, n, clientID, hstatus, (Term.namedNode.inj hterm).symm⟩
  · rintro ⟨record, hrecord, n, clientID, hstatus, rfl⟩
    exact ⟨record, hrecord, .entity n, Node.term_entity _ _,
      Or.inr (Or.inr ⟨n, clientID, hstatus, Or.inl ⟨rfl, Or.inl ⟨rfl, rfl⟩⟩⟩)⟩

variable (h : Encodes uuid records store) (hfresh : FreshUUIDs uuid count)
  (htidy : TidyRecords count records) (hrecord : record ∈ records)

include h hfresh htidy hrecord

theorem linked_entity {p o : Term} :
    store.Linked (.namedNode (entityIRI uuid record.number)) p o ↔
      record.Says uuid (.entity record.number) p o := by
  rw [← Node.term_entity]
  exact h.linked_iff hfresh htidy hrecord List.mem_cons_self

theorem statuses_eq :
    statuses store (entityIRI uuid record.number) = [record.status.term] :=
  Store.getObjects_eq_singleton.mpr fun _ =>
    (linked_entity h hfresh htidy hrecord).trans
      (says_requestStatus (htidy.nodup record hrecord))

theorem requestedTarget_eq :
    store.getObjects (Term.namedNode (entityIRI uuid record.number)) SOTW.requestedTarget none =
      [record.content.target] :=
  Store.getObjects_eq_singleton.mpr fun _ =>
    (linked_entity h hfresh htidy hrecord).trans
      (says_requestedTarget (htidy.nodup record hrecord))

omit h in
theorem constraintNodes_nodup : (record.constraintNodes.map (Node.term uuid)).Nodup := by
  have hnodes : record.constraintNodes.Nodup := by
    refine List.Nodup.map (fun i j hij => ?_) List.nodup_range
    injection hij with _ hindex
    exact Nat.succ.inj hindex
  have hbound : ∀ node ∈ record.constraintNodes, node.number < count := by
    intro node hnode
    obtain ⟨k, -, rfl⟩ := List.mem_map.mp hnode
    exact htidy.bound record hrecord _ List.mem_cons_self
  exact hnodes.map_on fun a ha b hb hterm =>
    Node.term_injective hfresh (hbound a ha) (hbound b hb) hterm

/-- A node linked to the constraints of the record has the posted ones. -/
theorem hasConstraints {node : Term} (hlinked : ∀ c, store.Linked node ODRL.constraint c ↔
    c ∈ record.constraintNodes.map (Node.term uuid)) :
    HasConstraints store node record.content.constraints := by
  refine ⟨_, constraintNodes_nodup hfresh htidy hrecord, hlinked, ?_⟩
  have hoperands : ∀ k terms, record.content.constraints[k]? = some terms → ∀ {p o},
      store.Linked ((Node.constraint record.number (k + 1)).term uuid) p o ↔
        (p = RDF.type ∧ o = ODRL.Constraint ∨ p = ODRL.leftOperand ∧ o = terms.1 ∨
          p = ODRL.operator ∧ o = terms.2.1 ∨ p = ODRL.rightOperand ∧ o = terms.2.2) := by
    intro k terms hk p o
    rw [h.linked_iff hfresh htidy hrecord List.mem_cons_self]
    exact says_constraint_node hk
  rw [List.forall₂_iff_get]
  refine ⟨by simp [RequestRecord.constraintNodes], fun k hnode hterms => ?_⟩
  have hk : record.content.constraints[k]? = some (record.content.constraints.get ⟨k, hterms⟩) :=
    List.getElem?_eq_getElem hterms
  have hget : (record.constraintNodes.map (Node.term uuid)).get ⟨k, hnode⟩ =
      (Node.constraint record.number (k + 1)).term uuid := by
    simp [RequestRecord.constraintNodes]
  rw [hget]
  refine ⟨?_, ?_, ?_⟩
  · exact Store.getObjects_eq_singleton.mpr fun o => by
      rw [hoperands k _ hk]
      simp +decide
  · exact Store.getObjects_eq_singleton.mpr fun o => by
      rw [hoperands k _ hk]
      simp +decide
  · exact Store.getObjects_eq_singleton.mpr fun o => by
      rw [hoperands k _ hk]
      simp +decide

theorem requests_record :
    Requests store (.namedNode (entityIRI uuid record.number)) record.content where
  target := requestedTarget_eq h hfresh htidy hrecord
  party := Store.getObjects_eq_singleton.mpr fun _ =>
    (linked_entity h hfresh htidy hrecord).trans
      (says_requestingParty (htidy.nodup record hrecord))
  actions _ := (linked_entity h hfresh htidy hrecord).trans
    (says_requestedAction (htidy.nodup record hrecord))
  constraints := hasConstraints h hfresh htidy hrecord fun _ =>
    (linked_entity h hfresh htidy hrecord).trans (says_constraint (htidy.nodup record hrecord))

/-- The policy of an accepted record permits what was requested. -/
theorem permits_record {n : Nat} {clientID : String}
    (hstatus : record.status = .accepted n clientID) :
    store.getObjects (Term.namedNode (entityIRI uuid n)) ODRL.permission none =
        [(Node.permission n).term uuid] ∧
      Permits store ((Node.permission n).term uuid) clientID record.content := by
  have hnumber : n ∈ record.numbers := by simp [RequestRecord.numbers, hstatus]
  have hpolicy : ∀ {p o}, store.Linked ((Node.entity n).term uuid) p o ↔
      record.Says uuid (.entity n) p o := h.linked_iff hfresh htidy hrecord hnumber
  have hpermission : ∀ {p o}, store.Linked ((Node.permission n).term uuid) p o ↔
      record.Says uuid (.permission n) p o := h.linked_iff hfresh htidy hrecord hnumber
  refine ⟨?_, ?_, ?_, ?_, ?_, ?_⟩
  · refine Store.getObjects_eq_singleton.mpr fun o => ?_
    rw [← Node.term_entity, hpolicy, says_policy (htidy.nodup record hrecord) hstatus]
    simp +decide
  · exact Store.getObjects_eq_singleton.mpr fun o => by
      rw [hpermission, says_permission hstatus]
      simp +decide
  · exact Store.getObjects_eq_singleton.mpr fun o => by
      rw [hpermission, says_permission hstatus]
      simp +decide
  · exact Store.getObjects_eq_singleton.mpr fun o => by
      rw [hpermission, says_permission hstatus]
      simp +decide
  · intro action
    rw [hpermission, says_permission hstatus]
    simp +decide
  · refine hasConstraints h hfresh htidy hrecord fun c => ?_
    rw [hpermission, says_permission hstatus]
    simp +decide

end Stored

/-! ## The life cycle -/

section Run

variable {env : AccessRequestEnvironment} {uuid : Nat → String} {steps : List RequestStep}
  {r clientID p : String} {record : RequestRecord}

/-- A resolved record is in every later list of records. -/
theorem mem_recordsAfter_append {later : List RequestStep}
    (hrecord : record ∈ recordsAfter env uuid steps) (hresolved : record.status ≠ .requested) :
    record ∈ recordsAfter env uuid (steps ++ later) := by
  induction later using List.reverseRecOn with
  | nil =>
    rw [List.append_nil]
    exact hrecord
  | append_singleton later step ih =>
    rw [← List.append_assoc, recordsAfter_concat]
    unfold nextRecords
    split
    · split
      · exact List.mem_append_left _ ih
      · exact ih
    · exact List.mem_map.mpr ⟨record, ih, resolve_of_resolved hresolved⟩
    · exact ih

/-- A record only changes when it is resolved. -/
theorem resolvable_of_notMem {step : RequestStep} {n : Nat} {records : List RequestRecord}
    (hrecord : record ∈ records) (hchanged : record ∉ nextRecords env uuid n step records) :
    ∃ status clientID,
      step.operation = .patchEntity (entityIRI uuid record.number) status clientID ∧
        record.content.target.value ∈ step.owned clientID := by
  unfold nextRecords at hchanged
  split at hchanged
  · split at hchanged
    · exact absurd (List.mem_append_left _ hrecord) hchanged
    · exact absurd hrecord hchanged
  · rename_i requestID status clientID hoperation
    by_cases hresolvable : record.Resolvable uuid requestID status (step.owned clientID)
    · refine ⟨status, clientID, ?_, hresolvable.2.2.2⟩
      rw [hoperation, hresolvable.2.1]
    · refine absurd (List.mem_map.mpr ⟨record, hrecord, ?_⟩) hchanged
      exact if_neg hresolvable
  · exact absurd hrecord hchanged

variable (hfresh : FreshUUIDs uuid steps.length)

include hfresh

/-- Which records a policy stems from. -/
theorem policyFor_iff : PolicyFor env uuid steps r clientID p ↔
    ∃ record ∈ recordsAfter env uuid steps, ∃ n, r = entityIRI uuid record.number ∧
      record.status = .accepted n clientID ∧ p = entityIRI uuid n := by
  have hhistory := history_run env hfresh
  constructor
  · rintro ⟨n, hsucceeds, rfl⟩
    obtain ⟨record, hrecord, hid, hstatus⟩ := hhistory.accepts n r clientID hsucceeds
    exact ⟨record, hrecord, n, hid, hstatus, rfl⟩
  · rintro ⟨record, hrecord, n, rfl, hstatus, rfl⟩
    exact ⟨n, hhistory.accepted record hrecord n clientID hstatus, rfl⟩

/-- An accepted record has one policy, for the client that accepted it. -/
theorem policyFor_accepted (hrecord : record ∈ recordsAfter env uuid steps) {n : Nat}
    (hstatus : record.status = .accepted n clientID) {clientID' : String} :
    PolicyFor env uuid steps (entityIRI uuid record.number) clientID' p ↔
      clientID' = clientID ∧ p = entityIRI uuid n := by
  obtain ⟨-, htidy⟩ := encodes_run env hfresh
  rw [policyFor_iff hfresh]
  constructor
  · rintro ⟨record', hrecord', n', hid, hstatus', rfl⟩
    obtain ⟨-, rfl⟩ := eq_of_entityIRI hfresh htidy hrecord hrecord' List.mem_cons_self
      List.mem_cons_self hid
    rw [hstatus] at hstatus'
    cases hstatus'
    exact ⟨rfl, rfl⟩
  · rintro ⟨rfl, rfl⟩
    exact ⟨record, hrecord, n, rfl, hstatus, rfl⟩

theorem postedAs_record (hrecord : record ∈ recordsAfter env uuid steps) :
    PostedAs env uuid steps (entityIRI uuid record.number) record.content := by
  obtain ⟨data, clientID, json, hsucceeds, hparse, hposted⟩ :=
    (history_run env hfresh).posted record hrecord
  exact ⟨record.number, data, clientID, json, hsucceeds, rfl, hparse, hposted⟩

/-- A request has the content of its record and no other. -/
theorem content_of_postedAs (hrecord : record ∈ recordsAfter env uuid steps)
    {content : RequestContent}
    (hposted : PostedAs env uuid steps (entityIRI uuid record.number) content) :
    content = record.content := by
  obtain ⟨n, data, clientID, json, hsucceeds, hid, hparse, hposted⟩ := hposted
  obtain ⟨-, htidy⟩ := encodes_run env hfresh
  obtain ⟨record', hrecord', rfl, json', hparse', hposted'⟩ :=
    (history_run env hfresh).posts n data clientID hsucceeds
  obtain ⟨-, rfl⟩ := eq_of_entityIRI hfresh htidy hrecord hrecord' List.mem_cons_self
    List.mem_cons_self hid
  rw [hparse, Except.ok.injEq] at hparse'
  subst hparse'
  exact hposted.unique hposted'

end Run

/-- Bodies that ask for reading a photo, for research. -/
def photoRequests : AccessRequestEnvironment where
  parseJson _ := .ok (.object [("resource_id", .string "http://example.org/photo"),
    ("resource_scopes", .array [.string "http://www.w3.org/ns/odrl/2/read"]),
    ("constraints", .array [.array [.string "http://www.w3.org/ns/odrl/2/purpose",
      .string "http://www.w3.org/ns/odrl/2/eq", .string "http://example.org/research"]])])
  stringToTerm text := .ok (.namedNode text)
  randomUUID := ""

def twoUUIDs (n : Nat) : String :=
  if n = 0 then "11111111-1111-4111-8111-111111111111" else "22222222-2222-4222-8222-222222222222"

/-- Bob asks for the photo, and Alice, who owns it, accepts. -/
def photoShared : List RequestStep :=
  [{ ownershipStore := KeyValueStorage.empty
     operation := .addEntity "" "http://example.org/bob" },
    { ownershipStore :=
        KeyValueStorage.empty.set "http://example.org/alice" ["http://example.org/photo"]
      operation := .patchEntity "http://example.org/11111111-1111-4111-8111-111111111111"
        "accepted" "http://example.org/alice" }]

end UserManagedAccess.Controller.AccessRequestController
