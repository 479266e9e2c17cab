/-
UserManagedAccess.Controller.RequestRecords — the access request endpoint as a
list of records, and the quads that stand for the records.

A record is requested until it is resolved, once, by a client that owns its
target. `Node` names the nodes in the quads by the number of the request that
created them; different nodes have different IRIs (`Node.term_injective`).
-/
import UserManagedAccess.Controller.AccessRequestRuns

namespace UserManagedAccess.Controller.AccessRequestController

open UserManagedAccess.Lib UserManagedAccess.Rdf UserManagedAccess.Util UserManagedAccess.Ucp

/-! ## Nodes -/

inductive Node where
  /-- A request or a policy. -/
  | entity (n : Nat)
  | constraint (n index : Nat)
  | permission (n : Nat)
  deriving DecidableEq

namespace Node

/-- The request that created the node. -/
def number : Node → Nat
  | entity n => n
  | constraint n _ => n
  | permission n => n

def suffix : Node → String
  | entity _ => ""
  | constraint _ index => "-constraint-" ++ toString index
  | permission _ => "-permission"

def term (uuid : Nat → String) (node : Node) : Term :=
  .namedNode (entityIRI uuid node.number ++ node.suffix)

theorem term_entity (uuid : Nat → String) (n : Nat) :
    (entity n).term uuid = .namedNode (entityIRI uuid n) :=
  congrArg Term.namedNode String.append_empty

theorem toString_injective {i j : Nat} (h : toString i = toString j) : i = j := by
  have hlist : (toString i).toList = (toString j).toList := congrArg String.toList h
  have hdigits : ∀ n : Nat, (toString n).toList = Nat.toDigits 10 n := fun n => Nat.toList_repr
  rw [hdigits, hdigits] at hlist
  rw [← Nat.ofDigitChars_ten_toDigits (n := i), hlist, Nat.ofDigitChars_ten_toDigits]

theorem constraint_ne_permission (index : String) : "-constraint-" ++ index ≠ "-permission" := by
  intro h
  have hlist := congrArg (fun s => s.toList[1]?) h
  simp at hlist

theorem suffix_injective {a b : Node} (hnumber : a.number = b.number)
    (hsuffix : a.suffix = b.suffix) : a = b := by
  have hnonempty : ∀ s t : String, s ++ t = "" → s = "" := fun s t h => by
    simp at h
    exact h.1
  cases a with
  | entity n =>
    cases b with
    | entity m => exact congrArg entity hnumber
    | constraint m index => exact absurd (hnonempty _ _ hsuffix.symm) (by decide)
    | permission m => exact absurd hsuffix (by decide : ("" : String) ≠ "-permission")
  | constraint n index =>
    cases b with
    | entity m => exact absurd (hnonempty _ _ hsuffix) (by decide)
    | constraint m index' =>
      have hindex : toString index = toString index' :=
        (String.append_right_inj "-constraint-").mp hsuffix
      exact congrArg₂ constraint hnumber (toString_injective hindex)
    | permission m => exact absurd hsuffix (constraint_ne_permission _)
  | permission n =>
    cases b with
    | entity m => exact absurd hsuffix (by decide : ("-permission" : String) ≠ "")
    | constraint m index => exact absurd hsuffix.symm (constraint_ne_permission _)
    | permission m => exact congrArg permission hnumber

/-- Between equal ends, strings of one length are equal. -/
theorem append_injective {base u v s t : String} (hlength : u.length = v.length)
    (h : base ++ u ++ s = base ++ v ++ t) : u = v ∧ s = t := by
  have hlist : base.toList ++ (u.toList ++ s.toList) = base.toList ++ (v.toList ++ t.toList) := by
    simp only [← String.toList_append, ← String.append_assoc, h]
  have hlength' : u.toList.length = v.toList.length := by
    rw [String.length_toList, String.length_toList, hlength]
  obtain ⟨huv, hst⟩ := List.append_inj (List.append_cancel_left hlist) hlength'
  exact ⟨String.toList_inj.mp huv, String.toList_inj.mp hst⟩

theorem term_injective {uuid : Nat → String} {count : Nat} (hfresh : FreshUUIDs uuid count)
    {a b : Node} (ha : a.number < count) (hb : b.number < count)
    (h : a.term uuid = b.term uuid) : a = b := by
  have hlength : (uuid a.number).length = (uuid b.number).length := by
    rw [hfresh.length _ ha, hfresh.length _ hb]
  obtain ⟨huuid, hsuffix⟩ := append_injective hlength (Term.namedNode.inj h)
  exact suffix_injective (hfresh.distinct _ ha _ hb huuid) hsuffix

end Node

/-! ## Records -/

inductive RequestStatus where
  | requested
  | denied
  /-- By the request with this number, of this client. -/
  | accepted (n : Nat) (clientID : String)
  deriving DecidableEq

def RequestStatus.term : RequestStatus → Term
  | requested => SOTW.requested
  | denied => SOTW.denied
  | accepted _ _ => SOTW.accepted

structure RequestRecord where
  /-- The number of the request that posted it. -/
  number : Nat
  content : RequestContent
  status : RequestStatus

/-- The requests that created nodes for the record. -/
def RequestRecord.numbers (record : RequestRecord) : List Nat :=
  record.number ::
    match record.status with
    | .accepted n _ => [n]
    | _ => []

/-- The operands of the constraints of a body. -/
def constraintTerms (stringToTerm : String → Except HttpError Term) :
    List Json → Except HttpError (List (Term × Term × Term))
  | [] => .ok []
  | constraint :: constraints => do
    let terms ← (strings constraint).mapM stringToTerm
    let rest ← constraintTerms stringToTerm constraints
    match terms with
    | [left, operator, right] => return (left, operator, right) :: rest
    | _ => return rest

/-- The content of a body of the right type. -/
def contentOf (env : AccessRequestEnvironment) (json : Json) (clientID : String) :
    Option RequestContent :=
  if strings (json.field "resource_scopes") = [] then none
  else
    match constraintTerms env.stringToTerm ((json.field "constraints").asArray?.getD []) with
    | .error _ => none
    | .ok constraints => some
      { target := .namedNode (((json.field "resource_id").asString?).getD "")
        party := .namedNode clientID
        actions := (strings (json.field "resource_scopes")).map .namedNode
        constraints }

/-- The content a body is accepted with. -/
def postedContent (env : AccessRequestEnvironment) (data clientID : String) :
    Option RequestContent :=
  match env.parseJson data with
  | .error _ => none
  | .ok json =>
    match AccessRequest json with
    | .error _ => none
    | .ok () => contentOf env json clientID

/-- The request resolves the record. -/
def RequestRecord.Resolvable (uuid : Nat → String) (requestID status : String)
    (owned : List String) (record : RequestRecord) : Prop :=
  (status = "accepted" ∨ status = "denied") ∧ requestID = entityIRI uuid record.number ∧
    record.status = .requested ∧ record.content.target.value ∈ owned

instance (uuid : Nat → String) (requestID status : String) (owned : List String)
    (record : RequestRecord) : Decidable (record.Resolvable uuid requestID status owned) :=
  inferInstanceAs (Decidable (_ ∧ _))

def RequestRecord.resolve (uuid : Nat → String) (n : Nat) (requestID status clientID : String)
    (owned : List String) (record : RequestRecord) : RequestRecord :=
  if record.Resolvable uuid requestID status owned then
    { record with status := if status = "accepted" then .accepted n clientID else .denied }
  else record

def nextRecords (env : AccessRequestEnvironment) (uuid : Nat → String) (n : Nat)
    (step : RequestStep) (records : List RequestRecord) : List RequestRecord :=
  match step.operation with
  | .addEntity data clientID =>
    match postedContent env data clientID with
    | some content => records ++ [{ number := n, content, status := .requested }]
    | none => records
  | .patchEntity requestID status clientID =>
    records.map (RequestRecord.resolve uuid n requestID status clientID (step.owned clientID))
  | _ => records

def recordsAfter (env : AccessRequestEnvironment) (uuid : Nat → String)
    (steps : List RequestStep) : List RequestRecord :=
  runFrom (nextRecords env uuid) 0 steps []

/-! ## What a record says -/

/-- The constraint nodes of a record. -/
def RequestRecord.constraintNodes (record : RequestRecord) : List Node :=
  (List.range record.content.constraints.length).map fun k => .constraint record.number (k + 1)

/-- The triples of the request itself. -/
def RequestRecord.SaysOfRequest (uuid : Nat → String) (record : RequestRecord) (node : Node)
    (p o : Term) : Prop :=
  node = .entity record.number ∧
    (p = RDF.type ∧ o = SOTW.EvaluationRequest ∨
      p = SOTW.requestedTarget ∧ o = record.content.target ∨
      p = SOTW.requestingParty ∧ o = record.content.party ∨
      p = SOTW.requestStatus ∧ o = record.status.term ∨
      p = SOTW.requestedAction ∧ o ∈ record.content.actions ∨
      p = ODRL.constraint ∧ o ∈ record.constraintNodes.map (Node.term uuid))

/-- The triples of its constraints. -/
def RequestRecord.SaysOfConstraint (record : RequestRecord) (node : Node) (p o : Term) : Prop :=
  ∃ k terms, record.content.constraints[k]? = some terms ∧
    node = .constraint record.number (k + 1) ∧
    (p = RDF.type ∧ o = ODRL.Constraint ∨ p = ODRL.leftOperand ∧ o = terms.1 ∨
      p = ODRL.operator ∧ o = terms.2.1 ∨ p = ODRL.rightOperand ∧ o = terms.2.2)

/-- The triples of the policy, once the request is accepted. -/
def RequestRecord.SaysOfPolicy (uuid : Nat → String) (record : RequestRecord) (node : Node)
    (p o : Term) : Prop :=
  ∃ n clientID, record.status = .accepted n clientID ∧
    (node = .entity n ∧
        (p = RDF.type ∧ o = ODRL.Agreement ∨ p = ODRL.uid ∧ o = (Node.entity n).term uuid ∨
          p = ODRL.permission ∧ o = (Node.permission n).term uuid) ∨
      node = .permission n ∧
        (p = RDF.type ∧ o = ODRL.Permission ∨ p = ODRL.action ∧ o ∈ record.content.actions ∨
          p = ODRL.target ∧ o = record.content.target ∨
          p = ODRL.assignee ∧ o = record.content.party ∨
          p = ODRL.assigner ∧ o = .namedNode clientID ∨
          p = ODRL.constraint ∧ o ∈ record.constraintNodes.map (Node.term uuid)))

def RequestRecord.Says (uuid : Nat → String) (record : RequestRecord) (node : Node)
    (p o : Term) : Prop :=
  record.SaysOfRequest uuid node p o ∨ record.SaysOfConstraint node p o ∨
    record.SaysOfPolicy uuid node p o

/-- The store has what the records say and nothing else. -/
def Encodes (uuid : Nat → String) (records : List RequestRecord) (store : Store) : Prop :=
  ∀ q, q ∈ store ↔ ∃ record ∈ records, ∃ node p o, record.Says uuid node p o ∧
    q = quad (node.term uuid) p o

/-- The records come from different ones of the first requests, and ask for
something. -/
structure TidyRecords (count : Nat) (records : List RequestRecord) : Prop where
  bound : ∀ record ∈ records, ∀ n ∈ record.numbers, n < count
  distinct : ∀ a ∈ records, ∀ b ∈ records, ∀ n ∈ a.numbers, n ∈ b.numbers → a = b
  nodup : ∀ record ∈ records, record.numbers.Nodup
  actions : ∀ record ∈ records, record.content.actions ≠ []

end UserManagedAccess.Controller.AccessRequestController
