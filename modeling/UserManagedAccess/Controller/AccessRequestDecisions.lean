/-
UserManagedAccess.Controller.AccessRequestDecisions — who gets access once
access requests were accepted.

The store of the access request endpoint holds the policies the simple ODRL
authorizer decides by. After any sequence of requests its decisions are those
of the accepted requests: a scope is granted to a client exactly when an owner
of the resource has accepted a request for it by that client, and its
constraints hold.

* `accepted_by_owner` — what is accepted was accepted by an owner;
* `mem_candidateRules_records` — the rules about a request are the permissions
  of the accepted records that cover it;
* `decision_of_accepted` — the decision, for every run.
-/
import UserManagedAccess.Controller.AccessRequestLifeCycle
import UserManagedAccess.Policies.Authorizers.ConstraintTheorems

namespace UserManagedAccess.Controller.AccessRequestController

open UserManagedAccess.Lib UserManagedAccess.Rdf UserManagedAccess.Util UserManagedAccess.Ucp
open UserManagedAccess.Credentials
open UserManagedAccess.Policies.SimpleOdrlAuthorizer

/-! ## What an accepted request grants -/

/-- The request asked for this scope on this resource, for everyone or for a
user of the claims. -/
structure RequestContent.Covers (content : RequestContent) (claims : ClaimSet)
    (resource scope : String) : Prop where
  target : content.target = .namedNode resource
  action : .namedNode (actionOf scope) ∈ content.actions ∨
    ∃ super, superAction (actionOf scope) = some super ∧ super ∈ content.actions
  party : content.party = ANONYMOUS ∨
    ∃ user, Json.string user ∈ claims.values WEBID ∧ content.party = .namedNode user

/-- A posted constraint, as the authorizer reads it. -/
def operands (terms : Term × Term × Term) : ParsedConstraint where
  leftOperand := terms.1
  operator := terms.2.1
  rightOperand := terms.2.2

/-- The constraints the request was posted with hold now. -/
def RequestContent.Holds (content : RequestContent) (env : Environment) (claims : ClaimSet) :
    Prop :=
  ∀ terms ∈ content.constraints, validateConstraint env claims (operands terms) = .ok (some true)

/-- The authorizer supports the constraints. -/
def RequestContent.Supported (content : RequestContent) (env : Environment)
    (claims : ClaimSet) : Prop :=
  ∀ terms ∈ content.constraints, ∃ verdict,
    validateConstraint env claims (operands terms) = .ok (some verdict)

/-- A request with this content was posted, and accepted by a client that
owned its target then. -/
def Accepted (env : AccessRequestEnvironment) (uuid : Nat → String) (steps : List RequestStep)
    (content : RequestContent) : Prop :=
  ∃ r clientID n step, PostedAs env uuid steps r content ∧
    Succeeds env uuid steps n (.patchEntity r "accepted" clientID) ∧
    steps[n]? = some step ∧ content.target.value ∈ step.owned clientID

/-! ## The accepted records -/

section Records

variable {env : AccessRequestEnvironment} {uuid : Nat → String} {steps : List RequestStep}

/-- A record is accepted by the request that says so, of an owner of the
target. -/
theorem accepted_by_owner {record : RequestRecord} (hrecord : record ∈ recordsAfter env uuid steps)
    {n : Nat} {clientID : String} (hstatus : record.status = .accepted n clientID) :
    ∃ step, steps[n]? = some step ∧ record.content.target.value ∈ step.owned clientID := by
  induction steps using List.reverseRecOn generalizing record with
  | nil => exact absurd hrecord List.not_mem_nil
  | append_singleton steps step ih =>
    have hearlier : ∀ {old : RequestRecord}, old ∈ recordsAfter env uuid steps →
        old.status = .accepted n clientID → ∃ step', (steps ++ [step])[n]? = some step' ∧
          old.content.target.value ∈ step'.owned clientID := by
      intro old hold hstatus'
      obtain ⟨step', hget, howned⟩ := ih hold hstatus'
      refine ⟨step', ?_, howned⟩
      rw [List.getElem?_append_left (List.getElem?_eq_some_iff.mp hget).1]
      exact hget
    rw [recordsAfter_concat] at hrecord
    unfold nextRecords at hrecord
    split at hrecord
    · split at hrecord
      · rcases List.mem_append.mp hrecord with hold | hnew
        · exact hearlier hold hstatus
        · rw [List.mem_singleton.mp hnew] at hstatus
          cases hstatus
      · exact hearlier hrecord hstatus
    · rename_i requestID status patcher _
      obtain ⟨old, hold, rfl⟩ := List.mem_map.mp hrecord
      by_cases hresolvable : old.Resolvable uuid requestID status (step.owned patcher)
      · rw [RequestRecord.resolve, if_pos hresolvable] at hstatus ⊢
        dsimp only at hstatus ⊢
        split at hstatus
        · cases hstatus
          exact ⟨step, List.getElem?_concat_length, hresolvable.2.2.2⟩
        · cases hstatus
      · rw [RequestRecord.resolve, if_neg hresolvable] at hstatus ⊢
        exact hearlier hold hstatus
    · exact hearlier hrecord hstatus

/-- The contents of the accepted records are the accepted contents. -/
theorem accepted_iff (hfresh : FreshUUIDs uuid steps.length) {content : RequestContent} :
    Accepted env uuid steps content ↔ ∃ record ∈ recordsAfter env uuid steps, ∃ n clientID,
      record.status = .accepted n clientID ∧ record.content = content := by
  have hhistory := history_run env hfresh
  constructor
  · rintro ⟨r, clientID, n, step, hposted, hsucceeds, -, -⟩
    obtain ⟨record, hrecord, rfl, hstatus⟩ := hhistory.accepts n r clientID hsucceeds
    exact ⟨record, hrecord, n, clientID, hstatus,
      (content_of_postedAs hfresh hrecord hposted).symm⟩
  · rintro ⟨record, hrecord, n, clientID, hstatus, rfl⟩
    obtain ⟨step, hget, howned⟩ := accepted_by_owner hrecord hstatus
    exact ⟨_, clientID, n, step, postedAs_record hfresh hrecord,
      hhistory.accepted record hrecord n clientID hstatus, hget, howned⟩

end Records

/-! ## Their rules -/

section Rules

variable {uuid : Nat → String} {count : Nat} {records : List RequestRecord} {store : Store}
  {record : RequestRecord} {node : Node} {o x : Term} {claims : ClaimSet}
  {resource scope : String} {env : Environment}

/-- Only permissions have a target. -/
theorem permission_of_target (h : record.Says uuid node ODRL.target o) :
    ∃ n clientID, record.status = .accepted n clientID ∧ node = .permission n ∧
      o = record.content.target := by
  rcases h with ⟨-, hstated⟩ | ⟨k, terms, -, -, hstated⟩ |
    ⟨n, clientID, hstatus, ⟨-, hstated⟩ | ⟨hnode, hstated⟩⟩
  · simp +decide at hstated
  · simp +decide at hstated
  · simp +decide at hstated
  · refine ⟨n, clientID, hstatus, hnode, ?_⟩
    simpa +decide using hstated

/-- The endpoint makes no collections, no prohibitions and no credential
constraints. -/
theorem not_says {p : Term} (hp : p ∈ [ODRL.partOf, ODRL.prohibition, OVC.constraint]) :
    ¬ record.Says uuid node p o := by
  simp only [List.mem_cons, List.not_mem_nil, or_false] at hp
  rintro (⟨-, hstated⟩ | ⟨k, terms, -, -, hstated⟩ |
    ⟨n, clientID, -, ⟨-, hstated⟩ | ⟨-, hstated⟩⟩)
  all_goals rcases hp with rfl | rfl | rfl <;> simp +decide at hstated

/-- The authorizer reads the constraints of a node as they were posted. -/
theorem forall_parseConstraint {constraints : List (Term × Term × Term)}
    (h : HasConstraints store x constraints) (p : Option ParsedConstraint → Prop) :
    (∀ c, store.Linked x ODRL.constraint c → p (parseConstraint store ODRL.leftOperand c)) ↔
      ∀ terms ∈ constraints, p (some (operands terms)) := by
  obtain ⟨nodes, -, hlinked, hoperands⟩ := h
  have hparse : nodes.map (parseConstraint store ODRL.leftOperand) =
      constraints.map fun terms => some (operands terms) := by
    rw [← List.forall₂_eq_eq_eq, List.forall₂_map_left_iff, List.forall₂_map_right_iff]
    refine hoperands.imp ?_
    rintro c terms ⟨hleft, hoperator, hright⟩
    unfold parseConstraint
    rw [hleft, hoperator, hright]
    rfl
  calc (∀ c, store.Linked x ODRL.constraint c → p (parseConstraint store ODRL.leftOperand c))
      ↔ ∀ parsed ∈ nodes.map (parseConstraint store ODRL.leftOperand), p parsed := by
        simp only [hlinked, List.forall_mem_map]
    _ ↔ ∀ terms ∈ constraints, p (some (operands terms)) := by
        rw [hparse, List.forall_mem_map]

variable (h : Encodes uuid records store)

include h

theorem not_linked_of_records {p : Term}
    (hp : p ∈ [ODRL.partOf, ODRL.prohibition, OVC.constraint]) : ¬ store.Linked x p o := by
  rw [h.linked]
  rintro ⟨record, -, node, -, hstated⟩
  exact not_says hp hstated

/-- Nobody is part of a party collection. -/
theorem mem_assigneesOf_records {assignee : Term} :
    assignee ∈ assigneesOf store claims ↔ assignee = ANONYMOUS ∨
      ∃ user, Json.string user ∈ claims.values WEBID ∧ assignee = .namedNode user := by
  rw [mem_assigneesOf]
  refine or_congr_right ⟨?_, ?_⟩
  · rintro ⟨user, name, huser, hname, hassignee | hgroup⟩
    · cases user with
      | string text =>
        obtain rfl := Option.some.inj hname
        exact ⟨text, huser, hassignee⟩
      | _ => cases hname
    · obtain ⟨node, -, hlinked⟩ := hgroup
      exact absurd hlinked (not_linked_of_records h (by simp))
  · rintro ⟨name, hname, hassignee⟩
    exact ⟨.string name, name, hname, rfl, Or.inl hassignee⟩

variable (hfresh : FreshUUIDs uuid count) (htidy : TidyRecords count records)

include hfresh htidy

section Record

variable (hrecord : record ∈ records) {n : Nat} {clientID : String}
  (hstatus : record.status = .accepted n clientID)

include hrecord hstatus

theorem linked_permission {p : Term} :
    store.Linked ((Node.permission n).term uuid) p o ↔ record.Says uuid (.permission n) p o :=
  h.linked_iff hfresh htidy hrecord (by simp [RequestRecord.numbers, hstatus, Node.number])

/-- The permission of a record is about what the record covers. -/
theorem covers_iff :
    (Node.permission n).term uuid ∈ candidateRules store claims resource scope ↔
      record.content.Covers claims resource scope := by
  have hlinked : ∀ {p o}, store.Linked ((Node.permission n).term uuid) p o ↔ _ :=
    fun {p o} => (linked_permission h hfresh htidy hrecord hstatus).trans (says_permission hstatus)
  have hmem : ∀ action, quad ((Node.permission n).term uuid) ODRL.action action ∈ store ↔
      action ∈ record.content.actions := by
    intro action
    rw [← h.plain.linked_iff, hlinked]
    simp +decide
  have htarget : (∃ target ∈ targetsOf store resource,
      store.Linked ((Node.permission n).term uuid) ODRL.target target) ↔
        record.content.target = .namedNode resource := by
    have hself : ∀ target, target ∈ targetsOf store resource ↔ target = .namedNode resource := by
      intro target
      rw [mem_targetsOf]
      refine or_iff_left ?_
      rintro ⟨node, -, hmember⟩
      exact not_linked_of_records h (by simp) hmember
    simp +decide [hself, hlinked, eq_comm]
  have hparty : hasAssignee store (assigneesOf store claims) ((Node.permission n).term uuid) =
      true ↔ record.content.party ∈ assigneesOf store claims := by
    rw [hasAssignee_iff, or_iff_right]
    · simp +decide [hlinked]
    · intro hnone
      exact hnone record.content.party (hlinked.mpr (by simp))
  rw [mem_candidateRules, htarget, hasAction_iff, hparty, mem_assigneesOf_records h]
  simp only [hmem]
  exact ⟨fun ⟨htarget, haction, hparty⟩ => ⟨htarget, haction, hparty⟩,
    fun hcovers => ⟨hcovers.target, hcovers.action, hcovers.party⟩⟩

/-- The policy of a record permits what it covers. -/
theorem permitted_record : Permitted store ((Node.permission n).term uuid) := by
  have hpermission : (Node.permission n).term uuid ∈ store.getObjects
      (some (.namedNode (entityIRI uuid n))) ODRL.permission none := by
    rw [(permits_record h hfresh htidy hrecord hstatus).1]
    exact List.mem_singleton.mpr rfl
  exact ⟨_, Store.mem_getObjects_linked.mp hpermission⟩

theorem valid_iff :
    Valid env store claims ((Node.permission n).term uuid) ↔ record.content.Holds env claims := by
  have hconstraints := (permits_record h hfresh htidy hrecord hstatus).2.constraints
  rw [Valid, response_of_no_credentials fun node => not_linked_of_records h (by simp),
    validateConstraints_eq_true,
    forall_parseConstraint hconstraints fun parsed => ∃ constraint, parsed = some constraint ∧
      validateConstraint env claims constraint = .ok (some true)]
  refine forall_congr' fun terms => imp_congr_right fun _ => ?_
  simp [operands]

theorem definite_of_supported (hsupported : record.content.Supported env claims) :
    Definite env store claims ((Node.permission n).term uuid) := by
  have hconstraints := (permits_record h hfresh htidy hrecord hstatus).2.constraints
  have hnodes := (forall_parseConstraint hconstraints fun parsed => ∃ constraint,
      parsed = some constraint ∧
        ∃ verdict, validateConstraint env claims constraint = .ok (some verdict)).mpr
    fun terms hterms => ⟨operands terms, rfl, hsupported terms hterms⟩
  obtain ⟨b, hb⟩ := validateConstraints_isSome hnodes
  refine ⟨b, ?_⟩
  rw [response_of_no_credentials fun node => not_linked_of_records h (by simp), hb]

end Record

/-- The rules about a request are the permissions of the accepted records that
cover it. -/
theorem mem_candidateRules_records {rule : Term} :
    rule ∈ candidateRules store claims resource scope ↔ ∃ record ∈ records, ∃ n clientID,
      record.status = .accepted n clientID ∧ rule = (Node.permission n).term uuid ∧
        record.content.Covers claims resource scope := by
  constructor
  · intro hrule
    obtain ⟨⟨target, -, htarget⟩, -, -⟩ := mem_candidateRules.mp hrule
    obtain ⟨record, hrecord, node, rfl, hsays⟩ := h.linked.mp htarget
    obtain ⟨n, clientID, hstatus, rfl, -⟩ := permission_of_target hsays
    exact ⟨record, hrecord, n, clientID, hstatus, rfl,
      (covers_iff h hfresh htidy hrecord hstatus).mp hrule⟩
  · rintro ⟨record, hrecord, n, clientID, hstatus, rfl, hcovers⟩
    exact (covers_iff h hfresh htidy hrecord hstatus).mpr hcovers

/-- Nothing prohibits, so that one valid permission grants. -/
theorem granted_iff :
    Granted env store claims resource scope ↔ ∃ record ∈ records, ∃ n clientID,
      record.status = .accepted n clientID ∧ record.content.Covers claims resource scope ∧
        record.content.Holds env claims := by
  constructor
  · rintro ⟨⟨rule, hrule, hvalid⟩, -⟩
    obtain ⟨record, hrecord, n, clientID, hstatus, rfl, hcovers⟩ :=
      (mem_candidateRules_records h hfresh htidy).mp hrule
    exact ⟨record, hrecord, n, clientID, hstatus, hcovers,
      (valid_iff h hfresh htidy hrecord hstatus).mp hvalid⟩
  · rintro ⟨record, hrecord, n, clientID, hstatus, hcovers, hholds⟩
    refine ⟨⟨_, (mem_candidateRules_records h hfresh htidy).mpr
      ⟨record, hrecord, n, clientID, hstatus, rfl, hcovers⟩,
      (valid_iff h hfresh htidy hrecord hstatus).mpr hholds⟩, ?_⟩
    rintro rule - - ⟨policy, hprohibited⟩
    exact not_linked_of_records h (by simp) hprohibited

end Rules

/-! ## The decision -/

/-- After any run, the policies grant a scope exactly where an accepted request
covers it and its constraints hold. -/
theorem granted_iff_accepted {env : AccessRequestEnvironment} {uuid : Nat → String}
    {steps : List RequestStep} (hfresh : FreshUUIDs uuid steps.length)
    {authorizer : Environment} {claims : ClaimSet} {resource scope : String} :
    Granted authorizer (requestsAfter env uuid steps) claims resource scope ↔
      ∃ content, Accepted env uuid steps content ∧ content.Covers claims resource scope ∧
        content.Holds authorizer claims := by
  obtain ⟨hencodes, htidy⟩ := encodes_run env hfresh
  rw [granted_iff hencodes hfresh htidy]
  constructor
  · rintro ⟨record, hrecord, n, clientID, hstatus, hcovers, hholds⟩
    exact ⟨record.content,
      (accepted_iff hfresh).mpr ⟨record, hrecord, n, clientID, hstatus, rfl⟩, hcovers, hholds⟩
  · rintro ⟨content, haccepted, hcovers, hholds⟩
    obtain ⟨record, hrecord, n, clientID, hstatus, rfl⟩ := (accepted_iff hfresh).mp haccepted
    exact ⟨record, hrecord, n, clientID, hstatus, hcovers, hholds⟩

/-- There is an answer where the constraints are supported. -/
theorem answer_of_supported {env : AccessRequestEnvironment} {uuid : Nat → String}
    {steps : List RequestStep} (hfresh : FreshUUIDs uuid steps.length)
    {authorizer : Environment} {claims : ClaimSet} {resource scope : String}
    (hsupported : ∀ content, Accepted env uuid steps content →
      content.Covers claims resource scope → content.Supported authorizer claims) :
    ∃ result, getPermissions authorizer (requestsAfter env uuid steps) claims resource scope =
      .ok (some result) := by
  obtain ⟨hencodes, htidy⟩ := encodes_run env hfresh
  refine getPermissions_isSome ?_ ?_
  · intro rule hrule
    obtain ⟨record, hrecord, n, clientID, hstatus, rfl, hcovers⟩ :=
      (mem_candidateRules_records hencodes hfresh htidy).mp hrule
    exact definite_of_supported hencodes hfresh htidy hrecord hstatus
      (hsupported _ ((accepted_iff hfresh).mpr ⟨record, hrecord, n, clientID, hstatus, rfl⟩)
        hcovers)
  · intro rule hrule hvalid
    obtain ⟨record, hrecord, n, clientID, hstatus, rfl, -⟩ :=
      (mem_candidateRules_records hencodes hfresh htidy).mp hrule
    exact permitted_record hencodes hfresh htidy hrecord hstatus

def researcher : ClaimSet :=
  [(WEBID, [.string "http://example.org/bob"]),
    ("http://www.w3.org/ns/odrl/2/purpose", [.string "http://example.org/research"])]

end UserManagedAccess.Controller.AccessRequestController
