/-
UserManagedAccess.Controller.RequestBodies — what a body of an access request
is read as, and the quads the code makes of it.
-/
import UserManagedAccess.Controller.RequestRecords

namespace UserManagedAccess.Controller.AccessRequestController

open UserManagedAccess.Lib UserManagedAccess.Rdf UserManagedAccess.Util UserManagedAccess.Ucp

/-! ## The check -/

/-- A constraint as the body has it. -/
def IsConstraint (value : Json) : Prop :=
  ∃ left operator right, value = .array [.string left, .string operator, .string right]

theorem isConstraint_of_tuple {value : Json}
    (h : ReType.tuple [ReType.string, ReType.string, ReType.string] value = .ok ()) :
    IsConstraint value := by
  rcases value with _ | _ | _ | _ | _ | elements | _
  case array =>
    rcases elements with _ | ⟨a, _ | ⟨b, _ | ⟨c, _ | ⟨d, rest⟩⟩⟩⟩
    case cons.cons.cons.nil =>
      rcases ha : ReType.string a with m | u
      · simp [ReType.tuple, ha, Except.bind] at h
      rcases hb : ReType.string b with m | u
      · simp [ReType.tuple, ha, hb, Except.bind] at h
      rcases hc : ReType.string c with m | u
      · simp [ReType.tuple, ha, hb, hc, Except.bind] at h
      obtain ⟨left, rfl⟩ := ReType.string_ok.mp ha
      obtain ⟨operator, rfl⟩ := ReType.string_ok.mp hb
      obtain ⟨right, rfl⟩ := ReType.string_ok.mp hc
      exact ⟨left, operator, right, rfl⟩
    all_goals simp [ReType.tuple] at h
  all_goals simp [ReType.tuple] at h

theorem exists_strings {elements : List Json} (h : ∀ e ∈ elements, ReType.string e = .ok ()) :
    ∃ texts : List String, elements = texts.map .string := by
  induction elements with
  | nil => exact ⟨[], rfl⟩
  | cons e elements ih =>
    obtain ⟨text, rfl⟩ := ReType.string_ok.mp (h e List.mem_cons_self)
    obtain ⟨texts, rfl⟩ := ih (fun e he => h e (List.mem_cons_of_mem _ he))
    exact ⟨text :: texts, rfl⟩

theorem strings_array (texts : List String) : strings (.array (texts.map .string)) = texts := by
  show (texts.map Json.string).filterMap Json.asString? = texts
  rw [List.filterMap_map]
  exact List.filterMap_some

/-- What the check lets through. -/
theorem fields_of_accessRequest {json : Json} (h : AccessRequest json = .ok ()) :
    (∃ resourceId, json.field "resource_id" = .string resourceId) ∧
      (∃ scopes : List String, json.field "resource_scopes" = .array (scopes.map .string)) ∧
      ∀ constraint ∈ (json.field "constraints").asArray?.getD [], IsConstraint constraint := by
  obtain ⟨hid, h⟩ := ReType.fields_cons_ok h
  obtain ⟨hscopes, h⟩ := ReType.fields_cons_ok h
  obtain ⟨hconstraints, -⟩ := ReType.fields_cons_ok h
  refine ⟨ReType.string_ok.mp hid, ?_, ?_⟩
  · obtain ⟨elements, helements, hstrings⟩ := ReType.array_ok.mp hscopes
    obtain ⟨scopes, rfl⟩ := exists_strings hstrings
    exact ⟨scopes, helements⟩
  · intro constraint hmem
    rcases hvalue : ReType.array (ReType.tuple [ReType.string, ReType.string, ReType.string])
        (json.field "constraints") with m | u
    · -- the field is absent
      simp only [ReType.optional, ReType.union, hvalue] at hconstraints
      rcases hfield : json.field "constraints" with _ | _ | _ | _ | _ | _ | _
      all_goals simp [hfield, ReType.undefined, Json.asArray?] at hconstraints hmem
    · obtain ⟨elements, helements, htuples⟩ := ReType.array_ok.mp hvalue
      rw [helements] at hmem
      exact isConstraint_of_tuple (htuples constraint hmem)

/-! ## The quads of a body -/

/-- The terms of a constraint, or the first error. -/
theorem mapM_strings_of_isConstraint {env : AccessRequestEnvironment} {constraint : Json}
    (h : IsConstraint constraint) :
    (∃ e, (strings constraint).mapM env.stringToTerm = .error e) ∨
      ∃ left operator right : String, ∃ terms : Term × Term × Term,
        constraint = Json.array [.string left, .string operator, .string right] ∧
        env.stringToTerm left = .ok terms.1 ∧ env.stringToTerm operator = .ok terms.2.1 ∧
        env.stringToTerm right = .ok terms.2.2 ∧
        (strings constraint).mapM env.stringToTerm = .ok [terms.1, terms.2.1, terms.2.2] := by
  obtain ⟨left, operator, right, rfl⟩ := h
  have hstrings : strings (.array [.string left, .string operator, .string right]) =
      [left, operator, right] := rfl
  rw [hstrings]
  simp only [List.mapM_cons, List.mapM_nil]
  rcases hleft : env.stringToTerm left with e | l
  · exact Or.inl ⟨e, rfl⟩
  rcases hoperator : env.stringToTerm operator with e | o
  · exact Or.inl ⟨e, rfl⟩
  rcases hright : env.stringToTerm right with e | r
  · exact Or.inl ⟨e, rfl⟩
  exact Or.inr ⟨left, operator, right, (l, o, r), rfl, hleft, hoperator, hright, rfl⟩

/-- The code goes through the constraints as `constraintTerms` does. -/
theorem allConstraintQuads_cases {env : AccessRequestEnvironment} {constraints : List Json}
    (h : ∀ constraint ∈ constraints, IsConstraint constraint) (subject : Term) (index : Nat) :
    (∃ e, constraintTerms env.stringToTerm constraints = .error e ∧
        allConstraintQuads env subject index constraints = .error e) ∨
      ∃ all quads, constraintTerms env.stringToTerm constraints = .ok all ∧
        allConstraintQuads env subject index constraints = .ok quads ∧
        List.Forall₂ (fun constraint (terms : Term × Term × Term) =>
          ∃ left operator right,
            constraint = Json.array [.string left, .string operator, .string right] ∧
            env.stringToTerm left = .ok terms.1 ∧ env.stringToTerm operator = .ok terms.2.1 ∧
            env.stringToTerm right = .ok terms.2.2) constraints all ∧
        ∀ q, q ∈ quads ↔ ∃ k terms, all[k]? = some terms ∧
          q ∈ constraintQuads subject (index + k) terms.1 terms.2.1 terms.2.2 := by
  induction constraints generalizing index with
  | nil => exact Or.inr ⟨[], [], rfl, rfl, .nil, by simp⟩
  | cons constraint constraints ih =>
    rcases mapM_strings_of_isConstraint (h constraint List.mem_cons_self) with
      ⟨e, hfirst⟩ | ⟨left, operator, right, terms, hconstraint, hleft, hoperator, hright, hfirst⟩
    · refine Or.inl ⟨e, ?_, ?_⟩
      · rw [constraintTerms, hfirst]
        rfl
      · rw [allConstraintQuads, hfirst]
        rfl
    rcases ih (fun c hc => h c (List.mem_cons_of_mem _ hc)) (index + 1) with
      ⟨e, hterms, hquads⟩ | ⟨all, quads, hterms, hquads, hall, hmem⟩
    · refine Or.inl ⟨e, ?_, ?_⟩
      · rw [constraintTerms, hfirst, hterms]
        rfl
      · rw [allConstraintQuads, hfirst, hquads]
        rfl
    refine Or.inr ⟨terms :: all,
      constraintQuads subject index terms.1 terms.2.1 terms.2.2 ++ quads, ?_, ?_,
      .cons ⟨left, operator, right, hconstraint, hleft, hoperator, hright⟩ hall, fun q => ?_⟩
    · rw [constraintTerms, hfirst, hterms]
      rfl
    · rw [allConstraintQuads, hfirst, hquads]
      rfl
    · rw [List.mem_append, hmem]
      constructor
      · rintro (hq | ⟨k, terms', hk, hq⟩)
        · exact ⟨0, terms, rfl, hq⟩
        · rw [Nat.add_assoc, Nat.add_comm 1 k] at hq
          exact ⟨k + 1, terms', hk, hq⟩
      · rintro ⟨k, terms', hk, hq⟩
        rcases k with _ | k
        · cases hk
          exact Or.inl hq
        · rw [← Nat.add_assoc, Nat.add_right_comm] at hq
          exact Or.inr ⟨k, terms', hk, hq⟩

/-- The quads of a new request with this content. -/
structure IsNewRequest (env : AccessRequestEnvironment) (content : RequestContent)
    (request : Store) : Prop where
  actions : content.actions ≠ []
  quads : ∀ q, q ∈ request ↔
    q ∈ [quad (requestNode env) RDF.type SOTW.EvaluationRequest,
      quad (requestNode env) SOTW.requestedTarget content.target,
      quad (requestNode env) SOTW.requestingParty content.party,
      quad (requestNode env) SOTW.requestStatus SOTW.requested] ∨
    q ∈ content.actions.map (quad (requestNode env) SOTW.requestedAction) ∨
    ∃ k terms, content.constraints[k]? = some terms ∧
      q ∈ constraintQuads (requestNode env) (1 + k) terms.1 terms.2.1 terms.2.2

theorem newRequest_cases {env : AccessRequestEnvironment} {json : Json}
    (hcheck : AccessRequest json = .ok ()) (clientID : String) :
    (contentOf env json clientID = none ∧ ∃ e, newRequest env json clientID = .error e) ∨
      ∃ content request, contentOf env json clientID = some content ∧
        newRequest env json clientID = .ok request ∧ Posted env json clientID content ∧
        IsNewRequest env content request := by
  obtain ⟨⟨resourceId, hid⟩, ⟨scopes, hscopes⟩, hconstraints⟩ := fields_of_accessRequest hcheck
  have hstrings : strings (json.field "resource_scopes") = scopes := by
    rw [hscopes, strings_array]
  unfold contentOf newRequest
  rw [hstrings, hid]
  rcases scopes with _ | ⟨scope, scopes⟩
  · exact Or.inl ⟨rfl, _, rfl⟩
  rw [if_neg (List.cons_ne_nil scope scopes)]
  rcases allConstraintQuads_cases hconstraints (requestNode env) 1 with
    ⟨e, hterms, hquads⟩ | ⟨all, quads, hterms, hquads, hall, hmem⟩
  · rw [hterms, hquads]
    exact Or.inl ⟨rfl, e, rfl⟩
  rw [hterms, hquads]
  refine Or.inr ⟨_, _, rfl, rfl, ?_, ?_, fun q => ?_⟩
  · exact ⟨⟨resourceId, hid, rfl⟩, rfl, ⟨scope :: scopes, hscopes, rfl⟩, hall⟩
  · exact List.cons_ne_nil _ _
  · rw [Store.mem_ofQuads, List.mem_append, hmem, requestQuads, List.mem_append, or_assoc,
      List.map_map]
    rfl

/-- A POST is refused, or adds the request. -/
theorem run_addEntity (env : AccessRequestEnvironment) (data clientID : String)
    (s : ControllerState) :
    (postedContent env data clientID = none ∧
        ∃ e, (addEntity env memoryUCRulesStorage data clientID).run s = (.error e, s)) ∨
      ∃ json content request, postedContent env data clientID = some content ∧
        (addEntity env memoryUCRulesStorage data clientID).run s =
          (.ok { status := 201, id := (requestNode env).value }, s.addRule request) ∧
        env.parseJson data = .ok json ∧ Posted env json clientID content ∧
        IsNewRequest env content request := by
  rcases hparse : env.parseJson data with message | json
  · refine Or.inl ⟨?_, .badRequest ("Request has bad syntax: " ++ message), ?_⟩
    · simp only [postedContent, hparse]
    · unfold addEntity
      rw [hparse]
      rfl
  rcases hcheck : AccessRequest json with message | u
  · refine Or.inl ⟨?_, .badRequest ("Request has bad syntax: " ++ message), ?_⟩
    · simp only [postedContent, hparse, hcheck]
    · unfold addEntity
      rw [hparse]
      show Async.run ((liftM ((AccessRequest json).mapError fun message =>
        HttpError.badRequest ("Request has bad syntax: " ++ message)) :
          Async ControllerState HttpError Unit) >>= _) s = _
      rw [hcheck]
      rfl
  have hposted : postedContent env data clientID = contentOf env json clientID := by
    simp only [postedContent, hparse, hcheck]
  have hadd : addEntity env memoryUCRulesStorage data clientID =
      liftM (newRequest env json clientID) >>= fun request =>
        memoryUCRulesStorage.addRule request >>= fun _ => Async.yield >>= fun _ =>
          pure { status := 201, id := (requestNode env).value } := by
    unfold addEntity
    rw [hparse]
    show (liftM ((AccessRequest json).mapError fun message =>
      HttpError.badRequest ("Request has bad syntax: " ++ message)) :
        Async ControllerState HttpError Unit) >>= _ = _
    rw [hcheck]
    rfl
  rw [hposted, hadd]
  rcases newRequest_cases hcheck clientID with
    ⟨hcontent, e, hrefused⟩ | ⟨content, request, hcontent, hrequest, hcontents, hnew⟩
  · rw [hrefused]
    exact Or.inl ⟨hcontent, e, rfl⟩
  · rw [hrequest]
    exact Or.inr ⟨json, content, request, hcontent, rfl, rfl, hcontents, hnew⟩

end UserManagedAccess.Controller.AccessRequestController
