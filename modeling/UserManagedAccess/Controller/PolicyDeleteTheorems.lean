/-
UserManagedAccess.Controller.PolicyDeleteTheorems — what the deletion of a
policy leaves alone, over runs of both controllers.

A DELETE takes along the policy and the rules the retrieval query selects,
what has one of these as a permission, and the constraints of these. In one
graph with everything else, such a node can belong to others as well: a rule
of two policies, or a constraint that the policy an access request turned into
shares with the request. `Entangled` lists the ways, by the links of the store
alone, and `deletesFramed_iff` says that a DELETE does damage in these ways
only: `entangled_iff` goes through what a DELETE reaches and what has to stay,
and one deletion after the other makes the run.

* `entangled_iff` — a deletion reaches a node that has to stay;
* `deleteFrame_iff` — the frame of one deletion;
* `deletesFramed_iff` — of all those of a run;
* `delete_takes_constraint_of_request` — a request that loses its constraint.

Nothing is assumed of the run: other operations, users and bodies are
arbitrary. The condition speaks of the state before each deletion.
-/
import UserManagedAccess.Controller.AccessRequestControllerTheorems
import UserManagedAccess.Controller.ControllerRuns
import UserManagedAccess.Controller.PolicyPatchTheorems

namespace UserManagedAccess.Controller

open UserManagedAccess.Lib UserManagedAccess.Rdf UserManagedAccess.Util UserManagedAccess.Ucp

/-! ## What a deletion has to leave alone -/

def IsAccessRequest (store : Store) (request : Term) : Prop :=
  store.Linked request RDF.type SOTW.EvaluationRequest

/-- The rule is linked from the policy, and from no other. -/
def OnlyLinkedFrom (store : Store) (policyID : String) (rule : Term) : Prop :=
  (∃ policy, LinksRule store policy rule) ∧
    ∀ policy, LinksRule store policy rule → IsNamed store policyID policy

/-- The nodes that are not just the policy's own. -/
inductive Survives (store : Store) (policyID : String) (node : Term) : Prop
  | request (hrequest : IsAccessRequest store node)
  | requestConstraint (request : Term) (hrequest : IsAccessRequest store request)
      (hlinked : store.Linked request ODRL.constraint node)
  | policy (hpolicy : IsPolicy store node) (hother : ¬ IsNamed store policyID node)
  | rule (hrule : IsRule store node) (hshared : ¬ OnlyLinkedFrom store policyID node)
  | ruleConstraint (rule : Term) (hrule : IsRule store rule)
      (hshared : ¬ OnlyLinkedFrom store policyID rule)
      (hlinked : store.Linked rule ODRL.constraint node)

/-- All rules of the policy are assigned by the client. -/
def AllAssigned (store : Store) (policyID clientID : String) : Prop :=
  ∀ policy rule, IsNamed store policyID policy → LinksRule store policy rule →
    Assigns store clientID rule

/-- The state before and after the deletion of a policy. -/
structure DeleteFrame (policyID : String) (before after : ControllerState) : Prop where
  quads : ∀ q, Survives before.policies policyID q.subject →
    (q ∈ after.policies ↔ q ∈ before.policies)
  requests : ∀ env requestID clientID, IsAccessRequest before.policies (.namedNode requestID) →
    (((accessRequestController env memoryUCRulesStorage).getEntity requestID clientID).run
        after).1 =
      (((accessRequestController env memoryUCRulesStorage).getEntity requestID clientID).run
        before).1

/-! ## Policies that hang together with others -/

/-- An access request, or a rule that the policy does not have alone. -/
def Independent (store : Store) (policyID : String) (node : Term) : Prop :=
  IsAccessRequest store node ∨ (IsRule store node ∧ ¬ OnlyLinkedFrom store policyID node)

/-- The ways in which a policy hangs together with what is not just its own. -/
inductive Entangled (engine : QueryEngine) (store : Store) (policyID clientID : String) : Prop
  -- another policy has a selected node as a rule, or none has it and it is one
  | sharedRule (node other : Term) (hselected : Selected engine store policyID clientID node)
      (hdescribed : store.Described node) (hlink : LinksRule store other node)
      (hother : ¬ IsNamed store policyID other)
  | looseRule (node type : Term) (hselected : Selected engine store policyID clientID node)
      (htype : type ∈ ruleTypes) (htyped : store.Linked node RDF.type type)
      (hloose : ∀ policy, ¬ LinksRule store policy node)
  -- a selected node is an access request, or another policy
  | request (node : Term) (hselected : Selected engine store policyID clientID node)
      (hrequest : IsAccessRequest store node)
  | policy (node : Term) (hselected : Selected engine store policyID clientID node)
      (hpolicy : IsPolicy store node) (hother : ¬ IsNamed store policyID node)
  -- it is a constraint of a request, or of a rule that is not just the policy's
  | constraint (node owner : Term) (hselected : Selected engine store policyID clientID node)
      (hdescribed : store.Described node) (howner : Independent store policyID owner)
      (hlink : store.Linked owner ODRL.constraint node)
  -- another policy has a selected node as a permission
  | otherPolicy (node other : Term) (hselected : Selected engine store policyID clientID node)
      (hlink : store.Linked other ODRL.permission node) (hother : ¬ IsNamed store policyID other)
  -- or what has it is a request, such a rule, or a constraint of one of these
  | linkingNode (node other : Term) (hselected : Selected engine store policyID clientID node)
      (hlink : store.Linked other ODRL.permission node)
      (hindependent : Independent store policyID other)
  | linkingConstraint (node other owner : Term)
      (hselected : Selected engine store policyID clientID node)
      (hlink : store.Linked other ODRL.permission node)
      (howner : Independent store policyID owner)
      (hconstraint : store.Linked owner ODRL.constraint other)
  -- a constraint of a selected node is one of a request or of such a rule, too
  | sharedConstraint (node constraint owner : Term)
      (hselected : Selected engine store policyID clientID node)
      (hlink : store.Linked node ODRL.constraint constraint)
      (hdescribed : store.Described constraint) (howner : Independent store policyID owner)
      (hconstraint : store.Linked owner ODRL.constraint constraint)
  -- or it is itself one of them, or another policy
  | constraintNode (node constraint : Term)
      (hselected : Selected engine store policyID clientID node)
      (hlink : store.Linked node ODRL.constraint constraint)
      (hdescribed : store.Described constraint)
      (hindependent : Independent store policyID constraint)
  | constraintPolicy (node constraint : Term)
      (hselected : Selected engine store policyID clientID node)
      (hlink : store.Linked node ODRL.constraint constraint) (hpolicy : IsPolicy store constraint)
      (hother : ¬ IsNamed store policyID constraint)

section Entanglement

variable {engine : QueryEngine} {store : Store} {policyID clientID : String} {node : Term}

theorem survives_iff :
    Survives store policyID node ↔ Independent store policyID node ∨
      (IsPolicy store node ∧ ¬ IsNamed store policyID node) ∨
      ∃ owner, Independent store policyID owner ∧ store.Linked owner ODRL.constraint node := by
  constructor
  · intro h
    cases h with
    | request hrequest => exact Or.inl (Or.inl hrequest)
    | requestConstraint request hrequest hlinked =>
      exact Or.inr (Or.inr ⟨request, Or.inl hrequest, hlinked⟩)
    | policy hpolicy hother => exact Or.inr (Or.inl ⟨hpolicy, hother⟩)
    | rule hrule hshared => exact Or.inl (Or.inr ⟨hrule, hshared⟩)
    | ruleConstraint rule hrule hshared hlinked =>
      exact Or.inr (Or.inr ⟨rule, Or.inr ⟨hrule, hshared⟩, hlinked⟩)
  · rintro ((hrequest | ⟨hrule, hshared⟩) | ⟨hpolicy, hother⟩ |
      ⟨owner, hrequest | ⟨hrule, hshared⟩, hlinked⟩)
    · exact .request hrequest
    · exact .rule hrule hshared
    · exact .policy hpolicy hother
    · exact .requestConstraint owner hrequest hlinked
    · exact .ruleConstraint owner hrule hshared hlinked

theorem IsPolicy.described (h : IsPolicy store node) : store.Described node := by
  rcases h with htype | ⟨rule, link, -, hlinked⟩
  · rw [isPolicyType, Bool.or_eq_true, holds_iff, holds_iff] at htype
    rcases htype with htype | htype
    · exact ⟨_, htype, rfl⟩
    · exact ⟨_, htype, rfl⟩
  · exact hlinked.described

/-- A selected node that is a request or a rule the policy does not have alone. -/
theorem Entangled.of_independent (hselected : Selected engine store policyID clientID node)
    (hdescribed : store.Described node) (hindependent : Independent store policyID node) :
    Entangled engine store policyID clientID := by
  rcases hindependent with hrequest | ⟨hrule, hshared⟩
  · exact .request node hselected hrequest
  by_cases hlinked : ∃ policy, LinksRule store policy node
  · obtain ⟨other, hlink, hother⟩ :
        ∃ other, LinksRule store other node ∧ ¬ IsNamed store policyID other := by
      by_contra hnone
      exact hshared ⟨hlinked, fun policy hlink =>
        by_contra fun hother => hnone ⟨policy, hlink, hother⟩⟩
    exact .sharedRule node other hselected hdescribed hlink hother
  · rcases hrule with hlink | ⟨type, htype, htyped⟩
    · exact absurd hlink hlinked
    · exact .looseRule node type hselected htype htyped fun policy hlink => hlinked ⟨policy, hlink⟩

/-- The links of the store that `Entangled` lists are the ways in which a
deletion reaches a node that has to stay. -/
theorem entangled_iff :
    Entangled engine store policyID clientID ↔
      ∃ node, store.Described node ∧ Reached engine store policyID clientID node ∧
        Survives store policyID node := by
  simp only [Reached, survives_iff]
  constructor
  · intro h
    cases h with
    | sharedRule node other hselected hdescribed hlink hother =>
      exact ⟨node, hdescribed, ⟨node, hselected, Or.inl rfl⟩,
        Or.inl (Or.inr ⟨Or.inl ⟨other, hlink⟩, fun honly => hother (honly.2 other hlink)⟩)⟩
    | looseRule node type hselected htype htyped hloose =>
      refine ⟨node, htyped.described, ⟨node, hselected, Or.inl rfl⟩,
        Or.inl (Or.inr ⟨Or.inr ⟨type, htype, htyped⟩, ?_⟩)⟩
      rintro ⟨⟨policy, hlink⟩, -⟩
      exact hloose policy hlink
    | request node hselected hrequest =>
      exact ⟨node, hrequest.described, ⟨node, hselected, Or.inl rfl⟩, Or.inl (Or.inl hrequest)⟩
    | policy node hselected hpolicy hother =>
      exact ⟨node, hpolicy.described, ⟨node, hselected, Or.inl rfl⟩,
        Or.inr (Or.inl ⟨hpolicy, hother⟩)⟩
    | constraint node owner hselected hdescribed howner hlink =>
      exact ⟨node, hdescribed, ⟨node, hselected, Or.inl rfl⟩,
        Or.inr (Or.inr ⟨owner, howner, hlink⟩)⟩
    | otherPolicy node other hselected hlink hother =>
      have hpolicy : IsPolicy store other := Or.inr ⟨node, _, List.mem_cons_self, hlink⟩
      exact ⟨other, hlink.described, ⟨node, hselected, Or.inr (Or.inl hlink)⟩,
        Or.inr (Or.inl ⟨hpolicy, hother⟩)⟩
    | linkingNode node other hselected hlink hindependent =>
      exact ⟨other, hlink.described, ⟨node, hselected, Or.inr (Or.inl hlink)⟩,
        Or.inl hindependent⟩
    | linkingConstraint node other owner hselected hlink howner hconstraint =>
      exact ⟨other, hlink.described, ⟨node, hselected, Or.inr (Or.inl hlink)⟩,
        Or.inr (Or.inr ⟨owner, howner, hconstraint⟩)⟩
    | sharedConstraint node constraint owner hselected hlink hdescribed howner hconstraint =>
      exact ⟨constraint, hdescribed, ⟨node, hselected, Or.inr (Or.inr hlink)⟩,
        Or.inr (Or.inr ⟨owner, howner, hconstraint⟩)⟩
    | constraintNode node constraint hselected hlink hdescribed hindependent =>
      exact ⟨constraint, hdescribed, ⟨node, hselected, Or.inr (Or.inr hlink)⟩,
        Or.inl hindependent⟩
    | constraintPolicy node constraint hselected hlink hpolicy hother =>
      exact ⟨constraint, hpolicy.described, ⟨node, hselected, Or.inr (Or.inr hlink)⟩,
        Or.inr (Or.inl ⟨hpolicy, hother⟩)⟩
  · rintro ⟨node, hdescribed, ⟨selected, hselected, rfl | hlink | hlink⟩, hsurvives⟩
    -- the selected node itself, what links it, and its constraints
    · rcases hsurvives with hindependent | ⟨hpolicy, hother⟩ | ⟨owner, howner, hconstraint⟩
      · exact .of_independent hselected hdescribed hindependent
      · exact .policy _ hselected hpolicy hother
      · exact .constraint _ owner hselected hdescribed howner hconstraint
    · rcases hsurvives with hindependent | ⟨-, hother⟩ | ⟨owner, howner, hconstraint⟩
      · exact .linkingNode selected node hselected hlink hindependent
      · exact .otherPolicy selected node hselected hlink hother
      · exact .linkingConstraint selected node owner hselected hlink howner hconstraint
    · rcases hsurvives with hindependent | ⟨hpolicy, hother⟩ | ⟨owner, howner, hconstraint⟩
      · exact .constraintNode selected node hselected hlink hdescribed hindependent
      · exact .constraintPolicy selected node hselected hlink hpolicy hother
      · exact .sharedConstraint selected node owner hselected hlink hdescribed howner hconstraint

/-- Nothing that has to stay goes with a policy that is not entangled. -/
theorem survives_not_reached (h : ¬ Entangled engine store policyID clientID) {q : Quad}
    (hq : q ∈ store) (hsurvives : Survives store policyID q.subject) :
    ¬ Reached engine store policyID clientID q.subject :=
  fun hreached => h (entangled_iff.mpr ⟨q.subject, ⟨q, hq, rfl⟩, hreached, hsurvives⟩)

end Entanglement

/-! ## One deletion -/

/-- A request whose quads are all kept reads the same. -/
theorem viewRequest_deleted {engine : QueryEngine} {store isolated : Store}
    {policyID clientID requestID viewer : String} {owned : List String}
    (hfree : ¬ Entangled engine store policyID clientID)
    (hisolated : getPolicy engine store policyID clientID = .ok isolated)
    (hrequest : IsAccessRequest store (.namedNode requestID)) :
    AccessRequestController.viewRequest (store.difference isolated) owned requestID viewer =
      AccessRequestController.viewRequest store owned requestID viewer := by
  have hkept : ∀ (node : Term) (predicate object : Option Term), Survives store policyID node →
      store.getQuads node predicate object none =
        (store.difference isolated).getQuads node predicate object none := by
    intro node predicate object hsurvives
    refine (Store.getQuads_removeQuads ?_).symm
    intro q hq hremoved hmatch
    have hsubject : q.subject = node := (Store.matches_iff.mp hmatch).1 node rfl
    have hreached := ((mem_getPolicy hisolated).mp (Store.mem_def.mpr hremoved)).2
    exact survives_not_reached hfree hq (hsubject ▸ hsurvives) hreached
  refine (AccessRequestController.viewRequest_congr ?_ ?_).symm
  · intro predicate object
    exact hkept _ predicate object (.request hrequest)
  · intro constraint hlinked
    exact hkept constraint none none (.requestConstraint _ hrequest hlinked)

theorem deleteFrame_iff {env : PolicyEnvironment} {policyID clientID : String}
    {s : ControllerState} :
    DeleteFrame policyID s
        (((policyController env memoryUCRulesStorage).deleteEntity policyID clientID).run s).2 ↔
      ¬ Entangled env.toQueryEngine s.policies policyID clientID := by
  constructor
  · rintro ⟨hquads, -⟩ hentangled
    obtain ⟨node, ⟨q, hq, rfl⟩, hreached, hsurvives⟩ := entangled_iff.mp hentangled
    exact (PolicyController.mem_deleteEntity.mp ((hquads q hsurvives).mpr hq)).2 hreached
  · intro hfree
    refine ⟨?_, ?_⟩
    · intro q hsurvives
      rw [PolicyController.mem_deleteEntity]
      exact ⟨fun h => h.1, fun hq => ⟨hq, survives_not_reached hfree hq hsurvives⟩⟩
    · intro requests requestID viewer hrequest
      rcases hisolated : getPolicy env.toQueryEngine s.policies policyID clientID with e | isolated
      · rw [PolicyController.run_deleteEntity_refused hisolated]
      · rw [AccessRequestController.run_getEntity, AccessRequestController.run_getEntity,
          PolicyController.policies_deleteEntity hisolated,
          PolicyController.ownershipStore_deleteEntity,
          viewRequest_deleted hfree hisolated hrequest]

/-! ## Runs -/

/-- In the run, every deletion of a policy by the assigner of all its rules
has the frame. -/
def DeletesFramed (operations : List Operation) (s : ControllerState) : Prop :=
  ∀ earlier env policyID clientID later,
    operations = earlier ++ .policy env (.deleteEntity policyID clientID) :: later →
    AllAssigned (runAll earlier s).policies policyID clientID →
      DeleteFrame policyID (runAll earlier s)
        (runAll (earlier ++ [.policy env (.deleteEntity policyID clientID)]) s)

/-- In every run, the deletions have the frame exactly when none of the
policies they delete is entangled with others. -/
theorem deletesFramed_iff (operations : List Operation)
    (ownershipStore : KeyValueStorage String (List String)) :
    DeletesFramed operations (start ownershipStore) ↔
      ∀ earlier env policyID clientID later,
        operations = earlier ++ .policy env (.deleteEntity policyID clientID) :: later →
        AllAssigned (runAll earlier (start ownershipStore)).policies policyID clientID →
          ¬ Entangled env.toQueryEngine (runAll earlier (start ownershipStore)).policies policyID
            clientID := by
  have hlast : ∀ earlier env policyID clientID,
      runAll (earlier ++ [.policy env (.deleteEntity policyID clientID)]) (start ownershipStore) =
        (((policyController env memoryUCRulesStorage).deleteEntity policyID clientID).run
          (runAll earlier (start ownershipStore))).2 := by
    intro earlier env policyID clientID
    rw [runAll, List.foldl_append]
    rfl
  constructor
  · intro hframed earlier env policyID clientID later hsplit hall
    have hframe := hframed earlier env policyID clientID later hsplit hall
    rw [hlast] at hframe
    exact deleteFrame_iff.mp hframe
  · intro hfree earlier env policyID clientID later hsplit hall
    rw [hlast]
    exact deleteFrame_iff.mpr (hfree earlier env policyID clientID later hsplit hall)

/-! ## An accepted request -/

/-- Bob asks to read the resource of Alice, for a purpose. -/
def requestOfBob : Operation :=
  .accessRequest
    { parseJson := fun _ => .ok (.object [("resource_id", .string "http://example.org/resource"),
        ("resource_scopes", .array [.string "http://www.w3.org/ns/odrl/2/read"]),
        ("constraints", .array [.array [.string "http://www.w3.org/ns/odrl/2/purpose",
          .string "http://www.w3.org/ns/odrl/2/eq", .string "http://example.org/study"]])]),
      stringToTerm := fun s => .ok (.namedNode s), randomUUID := "request" }
    (.addEntity "" "http://example.org/bob")

def acceptanceOfAlice : Operation :=
  .accessRequest
    { parseJson := fun _ => .error "", stringToTerm := fun s => .ok (.namedNode s),
      randomUUID := "policy" }
    (.patchEntity "http://example.org/request" "accepted" "http://example.org/alice")

def ownedByAlice : KeyValueStorage String (List String) :=
  KeyValueStorage.empty.set "http://example.org/alice" ["http://example.org/resource"]

/-- Accepting a request with a constraint and then deleting the policy it
turned into takes the constraint from the request. -/
theorem delete_takes_constraint_of_request :
    ¬ ∀ operations ownershipStore, DeletesFramed operations (start ownershipStore) := by
  intro hclaim
  let env := fixedEnvironment [] id
  let deletion := Operation.policy env
    (.deleteEntity "http://example.org/policy" "http://example.org/alice")
  let accepted := (runAll [requestOfBob, acceptanceOfAlice] (start ownedByAlice)).policies
  let request := Term.namedNode "http://example.org/request"
  let constraint := Term.namedNode "http://example.org/request-constraint-1"
  have hassigns : ∀ q ∈ accepted.quads, q.predicate ∈ ruleLinks →
      accepted.Linked q.object ODRL.assigner (.namedNode "http://example.org/alice") := by decide
  have hall : AllAssigned accepted "http://example.org/policy" "http://example.org/alice" := by
    rintro policy rule - ⟨link, hlink, q, hq, -, hpredicate, rfl⟩
    exact hassigns q hq (hpredicate ▸ hlink)
  have hframe := hclaim [requestOfBob, acceptanceOfAlice, deletion] ownedByAlice
    [requestOfBob, acceptanceOfAlice] env _ _ [] rfl hall
  have hsurvives : Survives accepted "http://example.org/policy" constraint :=
    .requestConstraint request
      (by decide : accepted.Linked request RDF.type SOTW.EvaluationRequest) (by decide)
  have hkept := (hframe.quads (quad constraint RDF.type ODRL.Constraint) hsurvives).mpr
    (by decide)
  exact absurd hkept (by decide)

end UserManagedAccess.Controller
