/-
UserManagedAccess.Policies.Authorizers.OdrlRequestTheorems — what the requests
of the full ODRL authorizer ask.

Every request is a policy with one rule, whose context has a constraint for
each claim. Read back as an evaluation reads it, it asks for one action on one
resource, on behalf of the claimed WebIDs (`askedFor`).

* `linked_requestStore` — what the quads of a request say;
* `askedBy_requestStore` — a request asks what it was made for;
* `allowed_standard` — with a standard engine, a request is allowed by the
  verdict over the rules that are active for it.
-/
import UserManagedAccess.Policies.Authorizers.OdrlEvaluation

namespace UserManagedAccess.Policies

open UserManagedAccess.Lib UserManagedAccess.Rdf UserManagedAccess.Util
open UserManagedAccess.Views UserManagedAccess.Credentials
open SimpleOdrlAuthorizer (Permitted Prohibited)

namespace OdrlAuthorizer

variable {env : Environment} {claims : ClaimSet} {n : Nat} {action resource : String}

/-! ## The quads of a request -/

def policyNode (env : Environment) (n : Nat) : Term :=
  .namedNode ("urn:ucp:policy:" ++ env.randomUUID (2 * n))

def ruleNode (env : Environment) (n : Nat) : Term :=
  .namedNode ("urn:ucp:rule:" ++ env.randomUUID (2 * n + 1))

def contextNode (env : Environment) (i : Nat) : Term := .blankNode (env.blankNode i)

/-- The i-th claim that can be expressed. -/
abbrev Expressed (claims : ClaimSet) (i : Nat) (left value : String) : Prop :=
  (contextClaims claims)[i]? = some (left, value)

/-- What the quads of a request say. -/
def Says (env : Environment) (claims : ClaimSet) (n : Nat) (action resource : String)
    (subject predicate object : Term) : Prop :=
  subject = policyNode env n ∧ predicate = RDF.type ∧ object = ODRL.Request ∨
  subject = ruleNode env n ∧ predicate = ODRL.action ∧ object = .namedNode action ∨
  subject = ruleNode env n ∧ predicate = ODRL.target ∧ object = .namedNode resource ∨
  (∃ party ∈ subjectsOf claims,
    subject = ruleNode env n ∧ predicate = ODRL.assignee ∧ object = .namedNode party) ∨
  subject = ruleNode env n ∧ predicate = RDF.type ∧ object = ODRL.Permission ∨
  subject = policyNode env n ∧ predicate = ODRL.permission ∧ object = ruleNode env n ∨
  ∃ i left value, Expressed claims i left value ∧
    (subject = ruleNode env n ∧ predicate = SOTW.context ∧ object = contextNode env i ∨
      subject = contextNode env i ∧ predicate = RDF.type ∧ object = ODRL.Constraint ∨
      subject = contextNode env i ∧ predicate = ODRL.leftOperand ∧ object = .namedNode left ∨
      subject = contextNode env i ∧ predicate = ODRL.operator ∧ object = ODRL.eq ∨
      subject = contextNode env i ∧ predicate = ODRL.rightOperand ∧ object = .namedNode value)

theorem mem_contextQuads {ruleIRI : String} {q : Quad} :
    q ∈ contextQuads env ruleIRI claims ↔ ∃ i left value, Expressed claims i left value ∧
      q ∈ [quad (.namedNode ruleIRI) SOTW.context (contextNode env i),
        quad (contextNode env i) RDF.type ODRL.Constraint,
        quad (contextNode env i) ODRL.leftOperand (.namedNode left),
        quad (contextNode env i) ODRL.operator ODRL.eq,
        quad (contextNode env i) ODRL.rightOperand (.namedNode value)] := by
  unfold contextQuads
  rw [List.mem_flatMap]
  constructor
  · rintro ⟨⟨⟨left, value⟩, i⟩, hmem, hq⟩
    exact ⟨i, left, value, List.mem_zipIdx_iff_getElem?.mp hmem, hq⟩
  · rintro ⟨i, left, value, hexpressed, hq⟩
    exact ⟨⟨⟨left, value⟩, i⟩, List.mem_zipIdx_iff_getElem?.mpr hexpressed, hq⟩

/-- The quads of a request are in the default graph. -/
theorem plain_requestStore : (requestStore env claims n action resource).Plain := by
  intro q hq
  unfold requestStore at hq
  rw [Store.mem_addQuads, Store.mem_ofQuads, mem_contextQuads] at hq
  rcases hq with hbasic | ⟨i, left, value, -, hcontext⟩
  · simp only [basicRequest, List.mem_cons, List.mem_append, List.mem_map, List.not_mem_nil,
      or_false] at hbasic
    rcases hbasic with (rfl | rfl | rfl | ⟨party, -, rfl⟩) | rfl | rfl <;> rfl
  · simp only [List.mem_cons, List.not_mem_nil, or_false] at hcontext
    rcases hcontext with rfl | rfl | rfl | rfl | rfl <;> rfl

theorem linked_requestStore {subject predicate object : Term} :
    (requestStore env claims n action resource).Linked subject predicate object ↔
      Says env claims n action resource subject predicate object := by
  have hparties : (∃ party ∈ subjectsOf claims,
        quad (ruleNode env n) ODRL.assignee (.namedNode party) = quad subject predicate object) ↔
      ∃ party ∈ subjectsOf claims,
        subject = ruleNode env n ∧ predicate = ODRL.assignee ∧ object = .namedNode party := by
    simp only [quad_inj, eq_comm]
  rw [plain_requestStore.linked_iff]
  unfold requestStore Says
  rw [Store.mem_addQuads, Store.mem_ofQuads, mem_contextQuads, ← hparties]
  simp only [basicRequest, List.mem_cons, List.mem_append, List.mem_map, List.not_mem_nil,
    or_false, quad_inj, policyNode, ruleNode, or_assoc]

/-! ## What a request asks -/

/-- The request is the one node of its type. -/
theorem linked_request (node : Term) :
    (requestStore env claims n action resource).Linked node RDF.type ODRL.Request ↔
      node = policyNode env n := by
  simp +decide [linked_requestStore, Says]

theorem linked_permission {node rule : Term} :
    (requestStore env claims n action resource).Linked node ODRL.permission rule ↔
      node = policyNode env n ∧ rule = ruleNode env n := by
  simp +decide [linked_requestStore, Says]

theorem mem_requestedValues_requestStore {predicate value : Term} :
    value ∈ requestedValues (requestStore env claims n action resource) (policyNode env n)
        predicate ↔
      Says env claims n action resource (ruleNode env n) predicate value := by
  rw [mem_requestedValues, ← linked_requestStore]
  constructor
  · rintro ⟨rule, hrule, hvalue⟩
    rwa [(linked_permission.mp hrule).2] at hvalue
  · intro hvalue
    exact ⟨ruleNode env n, linked_permission.mpr ⟨rfl, rfl⟩, hvalue⟩

theorem says_target {value : Term} :
    Says env claims n action resource (ruleNode env n) ODRL.target value ↔
      value = .namedNode resource := by
  simp +decide [Says]

theorem says_action {value : Term} :
    Says env claims n action resource (ruleNode env n) ODRL.action value ↔
      value = .namedNode action := by
  simp +decide [Says]

theorem says_assignee {value : Term} :
    Says env claims n action resource (ruleNode env n) ODRL.assignee value ↔
      ∃ party ∈ subjectsOf claims, value = .namedNode party := by
  simp +decide [Says]

theorem says_context {value : Term} :
    Says env claims n action resource (ruleNode env n) SOTW.context value ↔
      ∃ i left right, Expressed claims i left right ∧ value = contextNode env i := by
  simp +decide [Says]

theorem says_operand {constraint predicate value : Term}
    (hp : predicate = ODRL.leftOperand ∨ predicate = ODRL.operator ∨
      predicate = ODRL.rightOperand) :
    Says env claims n action resource constraint predicate value ↔
      ∃ i left right, Expressed claims i left right ∧ constraint = contextNode env i ∧
        (predicate = ODRL.leftOperand ∧ value = .namedNode left ∨
          predicate = ODRL.operator ∧ value = ODRL.eq ∨
          predicate = ODRL.rightOperand ∧ value = .namedNode right) := by
  rcases hp with rfl | rfl | rfl <;> simp +decide [Says]

/-- The operands the claims give values for. -/
def claimContext (claims : ClaimSet) : List (Term × Term) :=
  (contextClaims claims).map fun (left, value) => (.namedNode left, .namedNode value)

/-- What a request for an action on a resource is to ask at a time. -/
def askedFor (now : Int) (claims : ClaimSet) (action resource : String) : Asked where
  resources := [.namedNode resource]
  actions := [.namedNode action]
  parties := (subjectsOf claims).map .namedNode
  context := claimContext claims
  times := [now]

/-- The blank nodes of the constraints keep the operands of different claims
apart. -/
theorem mem_context_requestStore (hblank : Function.Injective env.blankNode)
    {left value : Term} :
    (left, value) ∈ (requestedValues (requestStore env claims n action resource)
        (policyNode env n) SOTW.context).flatMap
          (contextValues (requestStore env claims n action resource)) ↔
      (left, value) ∈ claimContext claims := by
  simp +decide only [List.mem_flatMap, mem_requestedValues_requestStore, mem_contextValues,
    linked_requestStore, says_context, says_operand, claimContext, List.mem_map, Prod.exists,
    Prod.mk.injEq, true_and, false_and, or_false, false_or]
  constructor
  · rintro ⟨constraint, -, -, ⟨i, l, r, hleft, rfl, rfl⟩, ⟨j, l', r', hright, hnode, rfl⟩⟩
    have hij : i = j := hblank (Term.blankNode.inj hnode)
    subst hij
    rw [Expressed, hleft] at hright
    cases hright
    exact ⟨l, r, List.mem_of_getElem? hleft, rfl, rfl⟩
  · rintro ⟨l, r, hmem, rfl, rfl⟩
    obtain ⟨i, hexpressed⟩ := List.mem_iff_getElem?.mp hmem
    exact ⟨contextNode env i, ⟨i, l, r, hexpressed, rfl⟩,
      ⟨i, l, r, hexpressed, rfl, trivial⟩,
      ⟨i, l, r, hexpressed, rfl, rfl⟩, ⟨i, l, r, hexpressed, rfl, rfl⟩⟩

/-- The literal of the current time. -/
def currentInstant (env : Environment) : Term :=
  .literal (env.toISOString env.now) "" "http://www.w3.org/2001/XMLSchema#dateTime"

/-- The evaluator reads the time as the clock has it. -/
def ReadsTime (reading : OdrlReading) (env : Environment) : Prop :=
  reading.instant (currentInstant env) = some env.now

theorem times_currentTime {reading : OdrlReading} (htime : ReadsTime reading env) :
    ((Store.ofQuads (currentTime env)).getObjects none issued none).filterMap reading.instant =
      [env.now] := by
  have hobjects : (Store.ofQuads (currentTime env)).getObjects none issued none =
      [currentInstant env] := by
    refine Store.eraseDups_eq_singleton.mpr fun object => ?_
    rw [← List.mem_eraseDups]
    change object ∈ (Store.ofQuads (currentTime env)).getObjects none issued none ↔ _
    rw [Store.mem_getObjects_of_any]
    constructor
    · rintro ⟨subject, q, hq, -, -, hobject⟩
      rw [Store.mem_ofQuads, currentTime, List.mem_singleton] at hq
      rw [← hobject, hq]
      rfl
    · rintro rfl
      exact ⟨_, Store.linked_of_mem (by rw [Store.mem_ofQuads]; exact List.mem_singleton_self _)⟩
  rw [hobjects, List.filterMap_cons, show reading.instant _ = _ from htime]
  rfl

/-- A request asks what it was made for. -/
theorem askedBy_requestStore {reading : OdrlReading} (htime : ReadsTime reading env)
    (hblank : Function.Injective env.blankNode) :
    (askedBy reading (requestStore env claims n action resource)
        (.ofQuads (currentTime env)) (policyNode env n)).Same
      (askedFor env.now claims action resource) where
  resources x := by
    simp [askedBy, askedFor, mem_requestedValues_requestStore, says_target]
  actions x := by
    simp [askedBy, askedFor, mem_requestedValues_requestStore, says_action]
  parties x := by
    simp [askedBy, askedFor, mem_requestedValues_requestStore, says_assignee, eq_comm]
  context x := mem_context_requestStore hblank
  times x := by
    simp only [askedBy, askedFor, times_currentTime htime]

/-! ## The answer to a request -/

/-- The action both authorizers request for a scope. -/
def odrlAction (scope : String) : String := (scopeCssToOdrl.get scope).getD scope

/-- The rule is active for a request of the scope. -/
def ActiveFor (reading : OdrlReading) (now : Int) (policies : Store) (claims : ClaimSet)
    (resource scope : String) (rule : Term) : Prop :=
  isActive reading policies (askedFor now claims (odrlAction scope) resource) rule = true

theorem quads_currentTime (env : Environment) :
    (Store.ofQuads (currentTime env)).quads = currentTime env :=
  Store.quads_addQuads_of_fresh (List.nodup_singleton _) fun q _ => Store.not_mem_empty q

/-- A request is allowed by the verdict over the rules that are active for it. -/
theorem allowed_standard {engine : OdrlEngine} {reading : OdrlReading}
    (hengine : engine.Standard reading) (htime : ReadsTime reading env)
    (hblank : Function.Injective env.blankNode) (policies : Store) (claims : ClaimSet) (n : Nat)
    (resource scope : String) :
    ∃ allow, allowed engine env policies claims n resource scope = .ok allow ∧
      (allow = true ↔ Verdict (Permitted policies) (Prohibited policies)
        (ActiveFor reading env.now policies claims resource scope)) := by
  have hrequest : ∀ node, (requestStore env claims n (odrlAction scope) resource).Linked node
      RDF.type ODRL.Request ↔ node = policyNode env n := linked_request
  obtain ⟨reports, allow, hevaluate, hhandle, hallow⟩ :=
    PrioritizeProhibitionStrategy.handle_standard hengine policies (.ofQuads (currentTime env))
      hrequest
  rw [quads_currentTime] at hevaluate
  refine ⟨allow, ?_, ?_⟩
  · unfold allowed
    exact Except.bind_eq_ok.mpr ⟨reports, hevaluate, hhandle⟩
  · rw [hallow]
    refine verdict_congr fun rule _ => ?_
    rw [isActive_congr (askedBy_requestStore htime hblank), ActiveFor]

end OdrlAuthorizer

end UserManagedAccess.Policies
