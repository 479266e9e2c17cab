/-
UserManagedAccess.Policies.Authorizers.OdrlEvaluation — what an ODRL
evaluation means, and engines that carry it out.

A request asks for actions on resources, on behalf of parties, in a context
and at a time (`Asked`); `isActive` says which rules of a policy store apply to
it. What ODRL leaves to its vocabularies and to the notation of values is an
`OdrlReading`. An engine is `Standard` when its evaluator reports the active
rules and its resolver lets prohibitions override permissions.

* `isActive_congr` — only the members of what is asked matter;
* `handle_standard` — with a standard engine, the strategy answers the verdict
  over the active rules;
* `referenceEngine_standard` — there is such an engine.
-/
import UserManagedAccess.Lib.Verdict
import UserManagedAccess.Policies.Authorizers.OdrlAuthorizer
import UserManagedAccess.Policies.Authorizers.SimpleOdrlAuthorizerTheorems

namespace UserManagedAccess.Policies

open UserManagedAccess.Lib UserManagedAccess.Rdf UserManagedAccess.Util
open UserManagedAccess.Views UserManagedAccess.Credentials
open SimpleOdrlAuthorizer (Permitted Prohibited mem_getPredicates_object)

/-! ## Readings -/

structure OdrlReading where
  /-- The first action includes the second, in the hierarchy of `includedIn`. -/
  includes : Term → Term → Bool
  /-- The instant a date stands for. -/
  instant : Term → Option Int
  /-- The order of values that are not dates. -/
  less : Term → Term → Bool
  /-- A report says that the rule is active. -/
  reported : List Quad → Term → Bool

/-- The operators, from an equality and the two orders. -/
def compares (operator : Term) (equal less greater : Bool) : Bool :=
  if operator = ODRL.eq then equal
  else if operator = ODRL.neq then !equal
  else if operator = ODRL.lt then less
  else if operator = ODRL.lteq then less || equal
  else if operator = ODRL.gt then greater
  else if operator = ODRL.gteq then greater || equal
  else false

/-- What is asked of an evaluation. -/
structure Asked where
  resources : List Term
  actions : List Term
  parties : List Term
  /-- The operands of the context and their values. -/
  context : List (Term × Term)
  times : List Int

/-! ## Active rules -/

/-- A node and the collections it is part of. -/
def withCollections (policies : Store) (node : Term) : List Term :=
  node :: policies.getObjects node ODRL.partOf none

/-- A constraint, against the time or the context. -/
def satisfies (reading : OdrlReading) (asked : Asked) (left operator right : Term) : Bool :=
  if left = ODRL.dateTime then
    match reading.instant right with
    | none => false
    | some date => asked.times.any fun time =>
      compares operator (time = date) (time < date) (date < time)
  else
    asked.context.any fun (operand, value) => operand = left &&
      compares operator (value = right) (reading.less value right) (reading.less right value)

/-- A constraint with the operands it has in the store. -/
def isSatisfied (reading : OdrlReading) (policies : Store) (asked : Asked)
    (constraint : Term) : Bool :=
  (policies.getObjects constraint ODRL.leftOperand none).any fun left =>
    (policies.getObjects constraint ODRL.operator none).any fun operator =>
      (policies.getObjects constraint ODRL.rightOperand none).any fun right =>
        satisfies reading asked left operator right

def onTarget (policies : Store) (asked : Asked) (rule : Term) : Bool :=
  asked.resources.any fun resource => (withCollections policies resource).any fun target =>
    (policies.getObjects rule ODRL.target none).contains target

def onAction (reading : OdrlReading) (policies : Store) (asked : Asked) (rule : Term) : Bool :=
  (policies.getObjects rule ODRL.action none).any fun action =>
    asked.actions.any fun requested => action = requested || reading.includes action requested

def onAssignee (policies : Store) (asked : Asked) (rule : Term) : Bool :=
  (policies.getObjects rule ODRL.assignee none).isEmpty ||
    asked.parties.any fun party => (withCollections policies party).any fun assignee =>
      (policies.getObjects rule ODRL.assignee none).contains assignee

def isActive (reading : OdrlReading) (policies : Store) (asked : Asked) (rule : Term) : Bool :=
  onTarget policies asked rule && onAction reading policies asked rule &&
    onAssignee policies asked rule &&
    (policies.getObjects rule ODRL.constraint none).all (isSatisfied reading policies asked)

/-- The same is asked, in whatever order. -/
structure Asked.Same (asked other : Asked) : Prop where
  resources : ∀ x, x ∈ asked.resources ↔ x ∈ other.resources
  actions : ∀ x, x ∈ asked.actions ↔ x ∈ other.actions
  parties : ∀ x, x ∈ asked.parties ↔ x ∈ other.parties
  context : ∀ x, x ∈ asked.context ↔ x ∈ other.context
  times : ∀ x, x ∈ asked.times ↔ x ∈ other.times

theorem any_congr_mem {α : Type} {l l' : List α} (h : ∀ x, x ∈ l ↔ x ∈ l') (p : α → Bool) :
    l.any p = l'.any p := by
  rw [Bool.eq_iff_iff, List.any_eq_true, List.any_eq_true]
  exact exists_congr fun x => and_congr_left' (h x)

theorem isActive_congr {asked other : Asked} (h : asked.Same other) (reading : OdrlReading)
    (policies : Store) (rule : Term) :
    isActive reading policies asked rule = isActive reading policies other rule := by
  have hsatisfies : ∀ left operator right,
      satisfies reading asked left operator right =
        satisfies reading other left operator right := by
    intro left operator right
    unfold satisfies
    rw [any_congr_mem h.context]
    cases reading.instant right with
    | none => rfl
    | some date => simp only [any_congr_mem h.times]
  have hsatisfied : isSatisfied reading policies asked = isSatisfied reading policies other := by
    funext constraint
    simp only [isSatisfied, hsatisfies]
  have haction : onAction reading policies asked rule = onAction reading policies other rule := by
    simp only [onAction, any_congr_mem h.actions]
  simp only [isActive, onTarget, onAssignee, haction, hsatisfied, any_congr_mem h.resources,
    any_congr_mem h.parties]

/-! ## Requests as quads -/

/-- What the rules of a request have for a property. -/
def requestedValues (request : Store) (identifier predicate : Term) : List Term :=
  (request.getObjects identifier ODRL.permission none).flatMap fun rule : Term =>
    request.getObjects rule predicate none

/-- What a constraint of the context gives for its operands. -/
def contextValues (request : Store) (constraint : Term) : List (Term × Term) :=
  if request.Linked constraint ODRL.operator ODRL.eq then
    (request.getObjects constraint ODRL.leftOperand none).flatMap fun left : Term =>
      (request.getObjects constraint ODRL.rightOperand none).map fun value => (left, value)
  else []

def issued : Term := .namedNode "http://purl.org/dc/terms/issued"

/-- What a request and a state of the world ask. -/
def askedBy (reading : OdrlReading) (request sotw : Store) (identifier : Term) : Asked where
  resources := requestedValues request identifier ODRL.target
  actions := requestedValues request identifier ODRL.action
  parties := requestedValues request identifier ODRL.assignee
  context := (requestedValues request identifier SOTW.context).flatMap (contextValues request)
  times := ((sotw.getObjects none issued none).filterMap reading.instant)

theorem mem_requestedValues {request : Store} {identifier predicate value : Term} :
    value ∈ requestedValues request identifier predicate ↔
      ∃ rule, request.Linked identifier ODRL.permission rule ∧
        request.Linked rule predicate value := by
  simp only [requestedValues, List.mem_flatMap, Store.mem_getObjects_linked]

theorem mem_contextValues {request : Store} {constraint left value : Term} :
    (left, value) ∈ contextValues request constraint ↔
      request.Linked constraint ODRL.operator ODRL.eq ∧
        request.Linked constraint ODRL.leftOperand left ∧
        request.Linked constraint ODRL.rightOperand value := by
  unfold contextValues
  split
  · rename_i heq
    simp [heq, Store.mem_getObjects_linked]
  · rename_i hne
    simp [hne]

/-! ## Standard engines -/

/-- The rules a collection of reports says are active. -/
def ReportedIn (reading : OdrlReading) (reports : List (List Quad)) (rule : Term) : Prop :=
  ∃ report ∈ reports, reading.reported report rule = true

/-- The reports about the one request there is say which of the rules are
active, and the resolver has prohibitions override permissions. -/
structure OdrlEngine.Standard (engine : OdrlEngine) (reading : OdrlReading) : Prop where
  evaluates : ∀ (policies request sotw : Store) (identifier : Term),
    (∀ node, request.Linked node RDF.type ODRL.Request ↔ node = identifier) →
    ∃ reports, engine.evaluate policies.quads request.quads sotw.quads = .ok reports ∧
      (∀ node ∈ (Store.ofQuads reports).getSubjects RDF.type engine.policyReport none,
        ∃ parsed, engine.parseComplianceReport node (Store.ofQuads reports) = .ok parsed) ∧
      ∀ rule, Permitted policies rule ∨ Prohibited policies rule →
        ((∃ node ∈ (Store.ofQuads reports).getSubjects RDF.type engine.policyReport none,
            ∃ about report,
              engine.parseComplianceReport node (Store.ofQuads reports) = .ok (about, report) ∧
              about.value = identifier.value ∧ reading.reported report rule = true) ↔
          isActive reading policies (askedBy reading request sotw identifier) rule = true)
  resolves : ∀ (policies : Store) (reports : List (List Quad)),
    ∃ result report status rest,
      engine.resolve (reports.map fun report => (report, policies.quads)) =
        .ok (result, report) ∧
      (Store.ofQuads report).getObjects result engine.conclusion none = status :: rest ∧
      (status.value = engine.allow ↔
        Verdict (Permitted policies) (Prohibited policies) (ReportedIn reading reports))

namespace PrioritizeProhibitionStrategy

variable {engine : OdrlEngine} {reading : OdrlReading}

/-- The loop keeps the reports about the request. -/
theorem reportsOn_ok (identifier : Term) {reportStore : Store} {nodes : List Term}
    (h : ∀ node ∈ nodes, ∃ parsed, engine.parseComplianceReport node reportStore = .ok parsed) :
    ∃ selected, reportsOn engine identifier reportStore nodes = .ok selected ∧
      ∀ report, report ∈ selected ↔ ∃ node ∈ nodes, ∃ about,
        engine.parseComplianceReport node reportStore = .ok (about, report) ∧
        about.value = identifier.value := by
  induction nodes with
  | nil => exact ⟨[], rfl, fun report => by simp⟩
  | cons node nodes ih =>
    obtain ⟨⟨⟨about, first⟩, hfirst⟩, hrest⟩ := List.forall_mem_cons.mp h
    obtain ⟨rest, hselected, hmem⟩ := ih hrest
    have hloop : reportsOn engine identifier reportStore (node :: nodes) =
        .ok (if about.value ≠ identifier.value then rest else first :: rest) := by
      rw [reportsOn, hfirst, hselected]
      by_cases habout : about.value = identifier.value
      · simp [habout, bind, Except.bind, pure, Except.pure]
      · simp [habout, bind, Except.bind, pure, Except.pure]
    refine ⟨_, hloop, fun report => ?_⟩
    simp only [List.mem_cons, exists_eq_or_imp, ← hmem, hfirst, Except.ok.injEq, Prod.mk.injEq]
    by_cases habout : about.value = identifier.value
    · rw [if_neg (not_not.mpr habout), List.mem_cons]
      refine or_congr_left ⟨fun heq => ⟨about, ⟨rfl, heq.symm⟩, habout⟩, ?_⟩
      rintro ⟨_, ⟨-, heq⟩, -⟩
      exact heq.symm
    · rw [if_pos habout, iff_or_self]
      rintro ⟨_, ⟨rfl, -⟩, hvalue⟩
      exact absurd hvalue habout

/-- The strategy answers the verdict over the active rules. -/
theorem handle_standard (hengine : engine.Standard reading) (policies sotw : Store)
    {request : Store} {identifier : Term}
    (hrequest : ∀ node, request.Linked node RDF.type ODRL.Request ↔ node = identifier) :
    ∃ reports allow, engine.evaluate policies.quads request.quads sotw.quads = .ok reports ∧
      handle engine identifier policies.quads reports = .ok allow ∧
      (allow = true ↔ Verdict (Permitted policies) (Prohibited policies) fun rule =>
        isActive reading policies (askedBy reading request sotw identifier) rule = true) := by
  obtain ⟨reports, hevaluate, hparsed, hactive⟩ :=
    hengine.evaluates policies request sotw identifier hrequest
  obtain ⟨selected, hselected, hmem⟩ := reportsOn_ok identifier hparsed
  obtain ⟨result, report, status, rest, hresolve, hstatus, hallow⟩ :=
    hengine.resolves policies selected
  refine ⟨reports, status.value == engine.allow, hevaluate, ?_, ?_⟩
  · unfold handle
    dsimp only
    rw [hselected]
    simp only [bind, Except.bind, hresolve, hstatus]
    rfl
  · rw [beq_iff_eq, hallow]
    refine verdict_congr fun rule hrule => ?_
    rw [← hactive rule hrule]
    constructor
    · rintro ⟨report, hreport, hreported⟩
      obtain ⟨node, hnode, about, hparse, habout⟩ := (hmem report).mp hreport
      exact ⟨node, hnode, about, report, hparse, habout, hreported⟩
    · rintro ⟨node, hnode, about, report, hparse, habout, hreported⟩
      exact ⟨report, (hmem report).mpr ⟨node, hnode, about, hparse, habout⟩, hreported⟩

end PrioritizeProhibitionStrategy

/-! ## A reference engine

One report for the request, which names the active rules. -/

namespace ReferenceEngine

def node : Term := .blankNode "report"
def policyRequest : Term := .namedNode "urn:policyRequest"
def activeRule : Term := .namedNode "urn:activeRule"
def PolicyReport : Term := .namedNode "urn:PolicyReport"
def conclusion : Term := .namedNode "urn:conclusion"

/-- `odrl:use` includes the other actions a scope stands for. -/
def reading : OdrlReading where
  includes action requested := action = ODRL.use &&
    [ODRL.read, ODRL.append, ODRL.write, ODRL.modify, ODRL.delete].contains requested
  instant
    | .literal "1970-01-01T00:00:00.000Z" _ _ => some 0
    | _ => none
  less _ _ := false
  reported report rule := report.any fun q => q.predicate = activeRule && q.object = rule

/-- The rules of a policy store that apply to a request. -/
def activeRules (policies request sotw : Store) (identifier : Term) : List Term :=
  (policies.getObjects none ODRL.permission none ++
      policies.getObjects none ODRL.prohibition none).filter
    (isActive reading policies (askedBy reading request sotw identifier))

def reports (policies request sotw : Store) : List Quad :=
  (request.getSubjects RDF.type ODRL.Request none).flatMap fun identifier : Term =>
    quad node RDF.type PolicyReport :: quad node policyRequest identifier ::
      (activeRules policies request sotw identifier).map (quad node activeRule)

def isReported (policies : Store) (predicate : Term) (report : List Quad) : Bool :=
  report.any fun q => q.predicate = activeRule &&
    (policies.getPredicates none q.object none).contains predicate

def allows (reports : List (List Quad × List Quad)) : Bool :=
  (reports.any fun (report, policies) =>
      isReported (.ofQuads policies) ODRL.permission report) &&
    !(reports.any fun (report, policies) =>
      isReported (.ofQuads policies) ODRL.prohibition report)

end ReferenceEngine

open ReferenceEngine in
def referenceEngine : OdrlEngine where
  evaluate policies request sotw :=
    .ok (reports (.ofQuads policies) (.ofQuads request) (.ofQuads sotw))
  parseComplianceReport node store :=
    match store.getObjects node policyRequest none with
    | request :: _ => .ok (request, store.quads)
    | [] => .error (.error "No request found")
  resolve reports := .ok (.blankNode "result",
    [quad (.blankNode "result") conclusion
      (.namedNode (if allows reports then "urn:Allow" else "urn:Deny"))])
  policyReport := PolicyReport
  conclusion := conclusion
  allow := "urn:Allow"

namespace ReferenceEngine

theorem isReported_iff {policies : Store} {predicate : Term} {report : List Quad} :
    isReported policies predicate report = true ↔
      ∃ rule, (∃ policy, policies.Linked policy predicate rule) ∧
        reading.reported report rule = true := by
  simp only [isReported, reading, List.any_eq_true, Bool.and_eq_true, decide_eq_true_eq,
    List.contains_iff_mem, mem_getPredicates_object]
  constructor
  · rintro ⟨q, hq, hpredicate, hpolicy⟩
    exact ⟨q.object, hpolicy, q, hq, hpredicate, rfl⟩
  · rintro ⟨rule, hpolicy, q, hq, hpredicate, rfl⟩
    exact ⟨q, hq, hpredicate, hpolicy⟩

/-- What the resolver concludes is the verdict over the reports. -/
theorem allows_iff (policies : Store) (reports : List (List Quad)) :
    allows (reports.map fun report => (report, policies.quads)) = true ↔
      Verdict (Permitted policies) (Prohibited policies) (ReportedIn reading reports) := by
  have hany : ∀ predicate,
      (reports.any fun report => isReported policies predicate report) = true ↔
        ∃ rule, (∃ policy, policies.Linked policy predicate rule) ∧
          ReportedIn reading reports rule := by
    intro predicate
    simp only [List.any_eq_true, isReported_iff, ReportedIn]
    constructor
    · rintro ⟨report, hreport, rule, hpolicy, hreported⟩
      exact ⟨rule, hpolicy, report, hreport, hreported⟩
    · rintro ⟨rule, hpolicy, report, hreport, hreported⟩
      exact ⟨report, hreport, rule, hpolicy, hreported⟩
  simp only [allows, List.any_map, Function.comp_def, Store.ofQuads_quads, Bool.and_eq_true,
    Bool.not_eq_true', ← Bool.not_eq_true, hany]
  refine and_congr Iff.rfl ?_
  push Not
  rfl

/-- With one request in the store, one node reports on it. -/
theorem reports_one {policies request sotw : Store} {identifier : Term}
    (h : ∀ node, request.Linked node RDF.type ODRL.Request ↔ node = identifier) :
    reports policies request sotw =
      quad node RDF.type PolicyReport :: quad node policyRequest identifier ::
        (activeRules policies request sotw identifier).map (quad node activeRule) := by
  have hsubjects : request.getSubjects RDF.type ODRL.Request none = [identifier] := by
    refine Store.eraseDups_eq_singleton.mpr fun node => ?_
    rw [← h node, ← Store.mem_getSubjects_linked, Store.getSubjects, List.mem_eraseDups]
  rw [reports, hsubjects, List.flatMap_cons, List.flatMap_nil, List.append_nil]

theorem policyRequest_ne_type : policyRequest ≠ RDF.type := by decide
theorem activeRule_ne_type : activeRule ≠ RDF.type := by decide
theorem activeRule_ne_policyRequest : activeRule ≠ policyRequest := by decide

section OneRequest

variable {policies request sotw : Store} {identifier : Term}
  (h : ∀ node, request.Linked node RDF.type ODRL.Request ↔ node = identifier)

include h

theorem mem_reports {q : Quad} :
    q ∈ Store.ofQuads (reports policies request sotw) ↔
      q = quad node RDF.type PolicyReport ∨ q = quad node policyRequest identifier ∨
        ∃ rule ∈ activeRules policies request sotw identifier, quad node activeRule rule = q := by
  rw [Store.mem_ofQuads, reports_one h, List.mem_cons, List.mem_cons, List.mem_map]

theorem reporting_nodes (subject : Term) :
    subject ∈ (Store.ofQuads (reports policies request sotw)).getSubjects RDF.type
      PolicyReport none ↔ subject = node := by
  rw [Store.mem_getSubjects_linked]
  constructor
  · rintro ⟨q, hq, hsubject, hpredicate, -⟩
    rcases (mem_reports h).mp hq with rfl | rfl | ⟨rule, -, rfl⟩
    · exact hsubject.symm
    · exact absurd hpredicate policyRequest_ne_type
    · exact absurd hpredicate activeRule_ne_type
  · rintro rfl
    exact Store.linked_of_mem ((mem_reports h).mpr (Or.inl rfl))

theorem parse_report :
    referenceEngine.parseComplianceReport node
        (Store.ofQuads (reports policies request sotw)) =
      .ok (identifier, (Store.ofQuads (reports policies request sotw)).quads) := by
  have hobjects : (Store.ofQuads (reports policies request sotw)).getObjects node policyRequest
      none = [identifier] := by
    refine Store.getObjects_eq_singleton.mpr fun object => ?_
    constructor
    · rintro ⟨q, hq, -, hpredicate, hobject⟩
      rcases (mem_reports h).mp hq with rfl | rfl | ⟨rule, -, rfl⟩
      · exact absurd hpredicate (by decide)
      · exact hobject.symm
      · exact absurd hpredicate activeRule_ne_policyRequest
    · rintro rfl
      exact Store.linked_of_mem ((mem_reports h).mpr (Or.inr (Or.inl rfl)))
  simp only [referenceEngine, hobjects]

theorem reported_iff {rule : Term} :
    reading.reported (Store.ofQuads (reports policies request sotw)).quads rule = true ↔
      rule ∈ activeRules policies request sotw identifier := by
  simp only [reading, List.any_eq_true, Bool.and_eq_true, decide_eq_true_eq]
  constructor
  · rintro ⟨q, hq, hpredicate, hobject⟩
    rcases (mem_reports h).mp hq with rfl | rfl | ⟨active, hactive, rfl⟩
    · exact absurd hpredicate (by decide)
    · exact absurd hpredicate.symm activeRule_ne_policyRequest
    · exact hobject ▸ hactive
  · intro hactive
    exact ⟨_, (mem_reports h).mpr (Or.inr (Or.inr ⟨rule, hactive, rfl⟩)), rfl, rfl⟩

end OneRequest

end ReferenceEngine

open ReferenceEngine in
theorem referenceEngine_standard : referenceEngine.Standard reading where
  evaluates := by
    intro policies request sotw identifier hrequest
    refine ⟨reports policies request sotw, ?_, ?_, ?_⟩
    · simp only [referenceEngine, Store.ofQuads_quads]
    · intro subject hsubject
      rw [(reporting_nodes hrequest subject).mp hsubject]
      exact ⟨_, parse_report hrequest⟩
    · intro rule hrule
      have hactive : rule ∈ activeRules policies request sotw identifier ↔
          isActive reading policies (askedBy reading request sotw identifier) rule = true := by
        rw [activeRules, List.mem_filter, List.mem_append, Store.mem_getObjects_of_any,
          Store.mem_getObjects_of_any]
        exact and_iff_right hrule
      rw [← hactive, ← reported_iff hrequest]
      constructor
      · rintro ⟨subject, hsubject, about, report, hparse, -, hreported⟩
        rw [(reporting_nodes hrequest subject).mp hsubject, parse_report hrequest] at hparse
        cases hparse
        exact hreported
      · intro hreported
        exact ⟨node, (reporting_nodes hrequest node).mpr rfl, identifier, _,
          parse_report hrequest, rfl, hreported⟩
  resolves := by
    intro policies reports
    let status := Term.namedNode
      (if allows (reports.map fun report => (report, policies.quads)) then "urn:Allow"
        else "urn:Deny")
    refine ⟨.blankNode "result", [quad (.blankNode "result") conclusion status], status, [], rfl,
      ?_, ?_⟩
    · refine Store.getObjects_eq_singleton.mpr fun object => ?_
      constructor
      · rintro ⟨q, hq, -, -, rfl⟩
        rw [Store.mem_ofQuads, List.mem_singleton] at hq
        rw [hq]
        rfl
      · rintro rfl
        exact Store.linked_of_mem (by simp [referenceEngine])
    · rw [← allows_iff]
      by_cases hallows : allows (reports.map fun report => (report, policies.quads)) = true
      · simp [status, hallows, referenceEngine]
      · simp [status, hallows, referenceEngine]

end UserManagedAccess.Policies
