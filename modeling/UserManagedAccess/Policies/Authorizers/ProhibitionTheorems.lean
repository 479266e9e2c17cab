/-
UserManagedAccess.Policies.Authorizers.ProhibitionTheorems — adding a
prohibition to a policy store.

`AddsProhibition before after rule` says that `after` has, besides the quads of
`before`, those of a prohibition on nodes of its own. The new quads may stand
anywhere among the old ones: only the order of the old quads is kept.

* `response_added`, `mem_candidateRules_added` — the rules that were there
  apply, and are judged, as before;
* `granted_added` — a request granted after the addition was granted before;
* `prohibition_monotone` — the answers of `getPermissions`.
-/
import UserManagedAccess.Policies.Authorizers.SimpleOdrlAuthorizerTheorems

namespace UserManagedAccess.Policies

open UserManagedAccess.Lib UserManagedAccess.Rdf UserManagedAccess.Util
open UserManagedAccess.Credentials

namespace SimpleOdrlAuthorizer

/-- What a rule is described by. -/
def rulePredicates : List Term :=
  [RDF.type, ODRL.uid, ODRL.target, ODRL.action, ODRL.assignee, ODRL.assigner, ODRL.constraint,
    OVC.constraint]

/-- A quad of a new prohibition: its link from a policy, a description of a
new policy, of the rule, or of a new constraint. -/
inductive QuadOfProhibition (before : Store) (rule : Term) (q : Quad) : Prop where
  | link (predicate : q.predicate = ODRL.prohibition) (object : q.object = rule)
  | policy (fresh : before.Unmentioned q.subject) (predicate : q.predicate ∈ [RDF.type, ODRL.uid])
  | rule (subject : q.subject = rule) (predicate : q.predicate ∈ rulePredicates)
  | constraint (fresh : before.Unmentioned q.subject)
      (predicate : q.predicate ∈ RDF.type :: operandPredicates)

structure AddsProhibition (before after : Store) (rule : Term) : Prop where
  fresh : before.Unmentioned rule
  kept : after.quads.filter (fun q => q ∈ before.quads) = before.quads
  added : ∀ q ∈ after, q ∉ before → QuadOfProhibition before rule q
  linked : ∃ policy, after.Linked policy ODRL.prohibition rule

variable {env : Environment} {before after : Store} {claims : ClaimSet} {rule : Term}
  {resource scope : String}

namespace AddsProhibition

/-! ## What is read as before -/

theorem mem_of_mem_before (h : AddsProhibition before after rule) {q : Quad} (hq : q ∈ before) :
    q ∈ after := by
  have hkept : q ∈ after.quads.filter (fun q => q ∈ before.quads) := by
    rw [h.kept]
    exact hq
  exact (List.mem_filter.mp hkept).1

/-- A pattern that none of the new quads matches. -/
theorem getQuads_eq (h : AddsProhibition before after rule) {a b c d : Option Term}
    (hnew : ∀ q ∈ after, q ∉ before → ¬ q.matches a b c d = true) :
    after.getQuads a b c d = before.getQuads a b c d := by
  unfold Store.getQuads
  conv => rhs; rw [← h.kept]
  rw [List.filter_filter]
  refine List.filter_congr fun q hq => ?_
  by_cases hbefore : q ∈ before.quads
  · simp [hbefore]
  · simp [hbefore, hnew q hq hbefore]

theorem linked_iff (h : AddsProhibition before after rule) {a p b : Term}
    (hnew : ∀ q ∈ after, q ∉ before → ¬ (q.subject = a ∧ q.predicate = p ∧ q.object = b)) :
    after.Linked a p b ↔ before.Linked a p b := by
  constructor
  · rintro ⟨q, hq, hmatch⟩
    by_cases hbefore : q ∈ before
    · exact ⟨q, hbefore, hmatch⟩
    · exact absurd hmatch (hnew q hq hbefore)
  · exact fun hlinked => hlinked.mono fun q hq => h.mem_of_mem_before hq

/-- A new quad that is about a node which was there links a policy to the new
prohibition. -/
theorem eq_prohibition_of_mentioned (h : AddsProhibition before after rule) {q : Quad}
    (hq : q ∈ after) (hnew : q ∉ before) (hold : ¬ before.Unmentioned q.subject) :
    q.predicate = ODRL.prohibition ∧ q.object = rule := by
  cases h.added q hq hnew with
  | link hpredicate hobject => exact ⟨hpredicate, hobject⟩
  | policy hfresh => exact absurd hfresh hold
  | rule hsubject => exact absurd (hsubject ▸ h.fresh) hold
  | constraint hfresh => exact absurd hfresh hold

/-- No new quad says what something is part of. -/
theorem linked_partOf (h : AddsProhibition before after rule) {a b : Term} :
    after.Linked a ODRL.partOf b ↔ before.Linked a ODRL.partOf b := by
  refine h.linked_iff fun q hq hnew ⟨_, hpartOf, _⟩ => ?_
  cases h.added q hq hnew with
  | link hpredicate => exact absurd (hpartOf.symm.trans hpredicate) (by decide)
  | policy _ hpredicate => exact absurd (hpartOf ▸ hpredicate) (by decide)
  | rule _ hpredicate => exact absurd (hpartOf ▸ hpredicate) (by decide)
  | constraint _ hpredicate => exact absurd (hpartOf ▸ hpredicate) (by decide)

theorem linkedFrom_partOf (h : AddsProhibition before after rule) {id : String} {b : Term} :
    after.LinkedFrom id ODRL.partOf b ↔ before.LinkedFrom id ODRL.partOf b := by
  simp only [Store.LinkedFrom, h.linked_partOf]

/-- The descriptions of a node that was there, links to prohibitions apart. -/
theorem linked_mentioned (h : AddsProhibition before after rule) {a p b : Term}
    (hold : ¬ before.Unmentioned a) (hp : p ≠ ODRL.prohibition) :
    after.Linked a p b ↔ before.Linked a p b := by
  refine h.linked_iff fun q hq hnew ⟨hsubject, hpredicate, _⟩ => ?_
  have hlink := h.eq_prohibition_of_mentioned hq hnew (hsubject ▸ hold)
  exact hp (hpredicate.symm.trans hlink.1)

theorem getObjects_mentioned (h : AddsProhibition before after rule) {a p : Term}
    (hold : ¬ before.Unmentioned a) (hp : p ≠ ODRL.prohibition) :
    after.getObjects a p none = before.getObjects a p none := by
  unfold Store.getObjects
  rw [h.getQuads_eq]
  intro q hq hnew hmatch
  obtain ⟨hsubject, hpredicate, -, -⟩ := Store.matches_iff.mp hmatch
  have hlink := h.eq_prohibition_of_mentioned hq hnew (hsubject a rfl ▸ hold)
  exact hp ((hpredicate p rfl).symm.trans hlink.1)

theorem not_unmentioned_of_linked {a p b : Term} (h : before.Linked a p b) :
    ¬ before.Unmentioned a ∧ ¬ before.Unmentioned b :=
  ⟨fun ha => (ha.not_linked h).1 rfl, fun hb => (hb.not_linked h).2 rfl⟩

/-! ## The rules that were there -/

/-- A rule that was not the subject of anything applies to nothing. -/
theorem mentioned_of_target (h : AddsProhibition before after rule) {other target : Term}
    (hother : other ≠ rule) (htarget : after.Linked other ODRL.target target) :
    ¬ before.Unmentioned other := by
  obtain ⟨q, hq, hsubject, hpredicate, -⟩ := htarget
  intro hfresh
  have hnew : q ∉ before := fun hbefore => (hfresh q hbefore).1 hsubject
  cases h.added q hq hnew with
  | link hlink => exact absurd (hpredicate.symm.trans hlink) (by decide)
  | policy _ hp => exact absurd (hpredicate ▸ hp) (by decide)
  | rule hrule => exact hother (hsubject.symm.trans hrule)
  | constraint _ hp => exact absurd (hpredicate ▸ hp) (by decide)

theorem mem_iff_of_mentioned (h : AddsProhibition before after rule) {q : Quad}
    (hold : ¬ before.Unmentioned q.subject) (hp : q.predicate ≠ ODRL.prohibition) :
    q ∈ after ↔ q ∈ before := by
  constructor
  · intro hq
    by_contra hnew
    exact hp (h.eq_prohibition_of_mentioned hq hnew hold).1
  · exact h.mem_of_mem_before

theorem hasAction_added (h : AddsProhibition before after rule) {other : Term} {action : String}
    (hold : ¬ before.Unmentioned other) :
    hasAction after action other = true ↔ hasAction before action other = true := by
  have hquad : ∀ object, quad other ODRL.action object ∈ after ↔
      quad other ODRL.action object ∈ before :=
    fun object => h.mem_iff_of_mentioned hold (show ODRL.action ≠ ODRL.prohibition by decide)
  simp only [hasAction_iff, hquad]

theorem mem_assigneesOf_added (h : AddsProhibition before after rule) {assignee : Term} :
    assignee ∈ assigneesOf after claims ↔ assignee ∈ assigneesOf before claims := by
  simp only [mem_assigneesOf, h.linkedFrom_partOf]

theorem hasAssignee_added (h : AddsProhibition before after rule) {other : Term}
    (hold : ¬ before.Unmentioned other) :
    hasAssignee after (assigneesOf after claims) other = true ↔
      hasAssignee before (assigneesOf before claims) other = true := by
  simp only [hasAssignee_iff, h.mem_assigneesOf_added,
    h.linked_mentioned hold (show ODRL.assignee ≠ ODRL.prohibition by decide)]

theorem mem_targetsOf_added (h : AddsProhibition before after rule) {target : Term} :
    target ∈ targetsOf after resource ↔ target ∈ targetsOf before resource := by
  simp only [mem_targetsOf, h.linkedFrom_partOf]

/-- The other rules apply to what they applied to. -/
theorem mem_candidateRules_added (h : AddsProhibition before after rule) {other : Term}
    (hother : other ≠ rule) :
    other ∈ candidateRules after claims resource scope ↔
      other ∈ candidateRules before claims resource scope := by
  have htarget : ∀ target, after.Linked other ODRL.target target ↔
      before.Linked other ODRL.target target := by
    intro target
    constructor
    · intro hlinked
      have hold := h.mentioned_of_target hother hlinked
      exact (h.linked_mentioned hold (by decide)).mp hlinked
    · exact fun hlinked => hlinked.mono fun q hq => h.mem_of_mem_before hq
  simp only [mem_candidateRules, h.mem_targetsOf_added, htarget]
  refine and_congr_right fun ⟨target, _, hlinked⟩ => ?_
  have hold := (not_unmentioned_of_linked hlinked).1
  rw [h.hasAction_added hold, h.hasAssignee_added hold]

theorem response_added (h : AddsProhibition before after rule) {other : Term}
    (hold : ¬ before.Unmentioned other) :
    response env after claims other = response env before claims other := by
  refine response_congr ⟨?_, ?_, fun constraint hlinked predicate hpredicate => ?_⟩
  · exact h.getObjects_mentioned hold (by decide)
  · exact h.getObjects_mentioned hold (by decide)
  · have hconstraint : ¬ before.Unmentioned constraint := by
      rcases hlinked with hlinked | hlinked
      · rw [h.linked_mentioned hold (by decide)] at hlinked
        exact (not_unmentioned_of_linked hlinked).2
      · rw [h.linked_mentioned hold (by decide)] at hlinked
        exact (not_unmentioned_of_linked hlinked).2
    refine h.getObjects_mentioned hconstraint ?_
    revert predicate
    decide

theorem prohibited_mono (h : AddsProhibition before after rule) {other : Term}
    (hprohibited : Prohibited before other) : Prohibited after other := by
  obtain ⟨policy, hlinked⟩ := hprohibited
  exact ⟨policy, hlinked.mono fun q hq => h.mem_of_mem_before hq⟩

/-! ## The answer -/

/-- The new prohibition is not what a grant after the addition rests on. -/
theorem granted_added (h : AddsProhibition before after rule)
    (hgranted : Granted env after claims resource scope) :
    Granted env before claims resource scope := by
  obtain ⟨⟨permission, hcandidate, hvalid⟩, hnone⟩ := hgranted
  have hother : ∀ other ∈ candidateRules before claims resource scope, other ≠ rule ∧
      ¬ before.Unmentioned other := by
    intro other hmem
    obtain ⟨target, -, hlinked⟩ := (mem_candidateRules.mp hmem).1
    have hold := (not_unmentioned_of_linked hlinked).1
    exact ⟨fun heq => hold (heq ▸ h.fresh), hold⟩
  have hne : permission ≠ rule := by
    rintro rfl
    exact hnone permission hcandidate hvalid h.linked
  have hbefore := (h.mem_candidateRules_added hne).mp hcandidate
  refine ⟨⟨permission, hbefore, ?_⟩, fun other hmem hother' hprohibited => ?_⟩
  · rw [Valid, ← h.response_added (hother permission hbefore).2]
    exact hvalid
  · obtain ⟨hneOther, hold⟩ := hother other hmem
    refine hnone other ((h.mem_candidateRules_added hneOther).mpr hmem) ?_
      (h.prohibited_mono hprohibited)
    rw [Valid, h.response_added hold]
    exact hother'

end AddsProhibition

/-- A new prohibition makes no refusal a grant, and where it applies it makes
every answer a refusal. -/
theorem prohibition_monotone (env : Environment) (claims : ClaimSet) (resource scope : String)
    (h : AddsProhibition before after rule) :
    (getPermissions env before claims resource scope = .ok (some []) →
        getPermissions env after claims resource scope ≠ .ok (some [scope])) ∧
      ((∃ target ∈ targetsOf after resource, after.Linked rule ODRL.target target) →
        hasAction after (actionOf scope) rule = true →
        hasAssignee after (assigneesOf after claims) rule = true →
        Valid env after claims rule →
        getPermissions env after claims resource scope ≠ .ok (some [scope])) := by
  have hanswer : ∀ {policies : Store},
      getPermissions env policies claims resource scope = .ok (some [scope]) →
        Granted env policies claims resource scope := by
    intro policies hgrant
    rcases (getPermissions_answer hgrant).2 with ⟨-, hgranted⟩ | ⟨hnil, -⟩
    · exact hgranted
    · cases hnil
  constructor
  · intro hrefused hgrant
    have hgranted := h.granted_added (hanswer hgrant)
    rcases (getPermissions_answer hrefused).2 with ⟨hnil, -⟩ | ⟨-, hnot⟩
    · cases hnil
    · exact hnot hgranted
  · intro htarget haction hassignee hvalid hgrant
    have hcandidate := mem_candidateRules.mpr ⟨htarget, haction, hassignee⟩
    exact (hanswer hgrant).2 rule hcandidate hvalid h.linked

/-! ## An example -/

def readPolicy : Store :=
  .ofQuads [quad (.namedNode "urn:policy") ODRL.permission (.namedNode "urn:permission"),
    quad (.namedNode "urn:permission") ODRL.target (.namedNode "urn:resource"),
    quad (.namedNode "urn:permission") ODRL.action ODRL.read]

/-- Reading is prohibited before a date. -/
def readProhibition : List Quad :=
  [quad (.namedNode "urn:policy") ODRL.prohibition (.namedNode "urn:prohibition"),
    quad (.namedNode "urn:prohibition") ODRL.target (.namedNode "urn:resource"),
    quad (.namedNode "urn:prohibition") ODRL.action ODRL.read,
    quad (.namedNode "urn:prohibition") ODRL.constraint (.namedNode "urn:constraint"),
    quad (.namedNode "urn:constraint") ODRL.leftOperand ODRL.dateTime,
    quad (.namedNode "urn:constraint") ODRL.operator ODRL.lt,
    quad (.namedNode "urn:constraint") ODRL.rightOperand (.literal "2030-01-01" "" "")]

theorem addsProhibition_readProhibition :
    AddsProhibition readPolicy (readPolicy.addQuads readProhibition)
      (.namedNode "urn:prohibition") where
  fresh := fun q hq => by
    have hall : ∀ q ∈ readPolicy.quads, q.subject ≠ .namedNode "urn:prohibition" ∧
        q.object ≠ .namedNode "urn:prohibition" := by decide +kernel
    exact hall q hq
  kept := by decide +kernel
  added := by
    intro q hq hnew
    have hconstraint : readPolicy.Unmentioned (.namedNode "urn:constraint") := fun q hq => by
      have hall : ∀ q ∈ readPolicy.quads, q.subject ≠ .namedNode "urn:constraint" ∧
          q.object ≠ .namedNode "urn:constraint" := by decide +kernel
      exact hall q hq
    have hmem : q ∈ readProhibition := by
      rcases Store.mem_addQuads.mp hq with hq | hq
      · exact absurd hq hnew
      · exact hq
    simp only [readProhibition, List.mem_cons, List.not_mem_nil, or_false] at hmem
    rcases hmem with rfl | rfl | rfl | rfl | rfl | rfl | rfl
    · exact .link rfl rfl
    · exact .rule rfl (by decide)
    · exact .rule rfl (by decide)
    · exact .rule rfl (by decide)
    · exact .constraint hconstraint (by decide)
    · exact .constraint hconstraint (by decide)
    · exact .constraint hconstraint (by decide)
  linked := ⟨.namedNode "urn:policy", by decide +kernel⟩

theorem prohibition_monotone_read :
    getPermissions ⟨0, fun _ => some 1, fun _ _ => .ok []⟩
        (readPolicy.addQuads readProhibition) Dict.empty "urn:resource" ODRL.append.value ≠
          .ok (some [ODRL.append.value]) ∧
      getPermissions ⟨0, fun _ => some 1, fun _ _ => .ok []⟩
        (readPolicy.addQuads readProhibition) Dict.empty "urn:resource" ODRL.read.value ≠
          .ok (some [ODRL.read.value]) := by
  constructor
  · exact (prohibition_monotone _ _ _ _ addsProhibition_readProhibition).1 (by decide +kernel)
  · refine (prohibition_monotone _ _ _ _ addsProhibition_readProhibition).2 ?_
      (by decide +kernel) (by decide +kernel) (isValid_iff.mp (by decide +kernel))
    exact ⟨.namedNode "urn:resource", by decide +kernel, by decide +kernel⟩

end SimpleOdrlAuthorizer

end UserManagedAccess.Policies
