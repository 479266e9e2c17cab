/-
UserManagedAccess.Controller.ConcurrentTheorems — which updates interleaved
requests can lose.

A request takes a copy of the store, pauses, and writes the copy back as a
difference. What the others added in between is not in the copy, so that the
difference removes it. `step_lost` says that no step of any task takes anything
else out of the store: it goes through the requests, one lemma each, and finds
that all they do before is to read or to add (`Grows`), and that they write back
once. What a step can lose is therefore what was not in the copy, or what the
request isolated as the entity's own.

* `step_lost` — what any step of any task can take out of the store;
* `noLostUpdate_of_safeRun` — a run in which no foreign quad comes in between a
  copy and its write-back loses nothing;
* `update_lost` — a run in which one does can lose it.

Tasks and schedule are arbitrary, also those of other components that only add
rules. The condition is one on each step before it is taken (`SafeStep`): what
the task has read, and the store it meets now.
-/
import Mathlib.Tactic.IntervalCases
import UserManagedAccess.Controller.AccessRequestControllerTheorems
import UserManagedAccess.Controller.BaseControllerTheorems
import UserManagedAccess.Controller.ConcurrentRequests
import UserManagedAccess.Controller.RouteSpecificTheorems

namespace UserManagedAccess.Controller

open UserManagedAccess.Lib UserManagedAccess.Rdf UserManagedAccess.Util UserManagedAccess.Ucp

/-! ## Steps that only add -/

/-- Everything in the store stays in it. -/
def Grows (s t : ControllerState) : Prop := ∀ q ∈ s.policies, q ∈ t.policies

theorem Grows.refl (s : ControllerState) : Grows s s := fun _ hq => hq

theorem Grows.trans {s t u : ControllerState} (hst : Grows s t) (htu : Grows t u) : Grows s u :=
  fun q hq => htu q (hst q hq)

theorem grows_addRule (rule : Store) (s : ControllerState) : Grows s (s.addRule rule) :=
  fun _ hq => Store.mem_addAll.mpr (Or.inl hq)

section Growing

variable {α : Type} {p : Async ControllerState HttpError α} {seen : List ControllerState}
  {s : ControllerState} {q : Quad}

/-- No step of such a procedure takes a quad out of the store. -/
theorem mem_of_guarantees (hp : Async.Guarantees Grows p) (hq : q ∈ s.policies) :
    q ∈ ((p.after seen).resume s).2.policies :=
  ((hp.after Grows.refl Grows.trans seen).resume Grows.refl Grows.trans s).1 q hq

theorem grows_getStore : Async.Guarantees Grows memoryUCRulesStorage.getStore :=
  .bind .yield (fun _ => .bind (.get Grows.refl) (fun _ => .pure _))

theorem grows_addRule_call (rule : Store) :
    Async.Guarantees Grows (memoryUCRulesStorage.addRule rule) :=
  .modify (grows_addRule rule)

end Growing

/-- A pair of reads, for a controller whose GETs only read. -/
theorem grows_gets {controller : BaseController ControllerState}
    (hstore : controller.store = memoryUCRulesStorage)
    (hgets : ∀ store clientID, Async.Guarantees Grows (controller.sanitizeGets store clientID))
    (clientID : String) : Async.Guarantees Grows (controller.getEntities clientID) := by
  unfold BaseController.getEntities
  rw [hstore]
  exact .bind grows_getStore (fun _ => .bind (hgets _ _) (fun _ => .bind .yield (fun _ => .pure _)))

theorem grows_get {controller : BaseController ControllerState}
    (hstore : controller.store = memoryUCRulesStorage)
    (hget : ∀ store id clientID, Async.Guarantees Grows (controller.sanitizeGet store id clientID))
    (id clientID : String) : Async.Guarantees Grows (controller.getEntity id clientID) := by
  unfold BaseController.getEntity
  rw [hstore]
  exact .bind grows_getStore (fun _ => .bind (hget _ _ _) (fun _ => .bind .yield (fun _ => .pure _)))

theorem grows_addEntity (env : PolicyEnvironment) (data clientID : String) :
    Async.Guarantees Grows
      ((policyController env memoryUCRulesStorage).addEntity data clientID) := by
  unfold BaseController.addEntity
  refine .bind (.lift _) (fun quads => .bind ?_ (fun posted => ?_))
  · exact .bind (.lift _) (fun _ => .bind .yield (fun _ => .pure _))
  refine .bind .yield (fun _ => .bind grows_getStore (fun live => ?_))
  split
  · exact .bind (grows_addRule_call _).forget (fun _ => .pure _)
  · exact .throw _

theorem grows_ownedResources (clientID : String) :
    Async.Guarantees Grows (AccessRequestController.ownedResources clientID) :=
  .bind (.get Grows.refl) (fun _ => .bind .yield (fun _ => .pure _))

theorem grows_getAccessRequest (store : Store) (requestID clientID : String) :
    Async.Guarantees Grows
      (AccessRequestController.getAccessRequest store requestID clientID) := by
  unfold AccessRequestController.getAccessRequest
  dsimp only
  split
  · exact .throw _
  split
  · exact .pure _
  split
  · refine .bind (grows_ownedResources clientID) (fun resources => ?_)
    split
    · exact .pure _
    · exact .throw _
  · exact .throw _

theorem grows_newRequest (env : AccessRequestEnvironment) (data clientID : String) :
    Async.Guarantees Grows
      (AccessRequestController.addEntity env memoryUCRulesStorage data clientID) :=
  .bind (.lift _) (fun _ => .bind (.lift _) (fun _ => .bind (.lift _) (fun _ =>
    .bind (grows_addRule_call _) (fun _ => .bind .yield (fun _ => .pure _)))))

/-! ## Writing back

Each lemma allows for what its caller does next, as long as that only adds. -/

section WritingBack

variable {β : Type} {next : ControllerResponse → Async ControllerState HttpError β}
  {controller : BaseController ControllerState} {env : PolicyEnvironment}
  {filteredStore : Store} {data policyID update clientID : String}
  {seen : List ControllerState} {s : ControllerState} {q : Quad}

theorem grows_writeBack_after (hstore : controller.store = memoryUCRulesStorage)
    (hnext : ∀ r, Async.Guarantees Grows (next r)) (s₀ s₁ : ControllerState) :
    Async.Guarantees Grows ((controller.writeBack filteredStore >>= next).after [s₀, s₁]) := by
  unfold BaseController.writeBack
  rw [hstore]
  show Async.Guarantees Grows (Async.resume (Async.bind (if _ then _ else _) next) s₁).1
  by_cases hremove : (s₁.policies.difference filteredStore).size > 0
  · rw [if_pos hremove]
    show Async.Guarantees Grows ((if _ then _ else _) >>= next)
    refine .bind ?_ hnext
    split
    · exact .bind (grows_addRule_call _) (fun _ => .bind .yield (fun _ => .pure _))
    · exact .pure _
  · rw [if_neg hremove]
    by_cases hadd : (filteredStore.difference s₁.policies).size > 0
    · rw [if_pos hadd]
      exact hnext _
    · rw [if_neg hadd]
      exact ((hnext _).resume Grows.refl Grows.trans s₁).2

/-- Writing back removes what is not in the copy, and in one step only. -/
theorem writeBack_lost (hstore : controller.store = memoryUCRulesStorage)
    (hnext : ∀ r, Async.Guarantees Grows (next r)) (hq : q ∈ s.policies)
    (hlost : q ∉ (((controller.writeBack filteredStore >>= next).after seen).resume
      s).2.policies) :
    seen.length = 1 ∧ q ∉ filteredStore := by
  rcases seen with _ | ⟨s₀, _ | ⟨s₁, seen⟩⟩
  · unfold BaseController.writeBack at hlost
    rw [hstore] at hlost
    exact absurd hq hlost
  · refine ⟨rfl, fun hmem => hlost ?_⟩
    unfold BaseController.writeBack
    rw [hstore]
    show q ∈ (Async.resume (Async.bind (if _ then _ else _) next) s).2.policies
    by_cases hremove : (s.policies.difference filteredStore).size > 0
    · rw [if_pos hremove]
      show q ∈ s.policies.difference (s.policies.difference filteredStore)
      rw [Store.mem_difference, Store.mem_difference]
      exact ⟨hq, fun h => h.2 hmem⟩
    · rw [if_neg hremove]
      by_cases hadd : (filteredStore.difference s.policies).size > 0
      · rw [if_pos hadd]
        exact grows_addRule _ s q hq
      · rw [if_neg hadd]
        exact ((hnext _).resume Grows.refl Grows.trans s).1 q hq
  · have hgrows : Async.Guarantees Grows
        ((controller.writeBack filteredStore >>= next).after [s₀, s₁]) :=
      grows_writeBack_after hstore hnext s₀ s₁
    have hmem : q ∈ ((((controller.writeBack filteredStore >>= next).after [s₀, s₁]).after
        seen).resume s).2.policies := mem_of_guarantees hgrows hq
    exact absurd hmem hlost

/-- A request that has failed changes nothing any more. -/
theorem mem_of_done {e : HttpError} (hq : q ∈ s.policies) :
    q ∈ (((Async.done (.error e) : Async ControllerState HttpError β).after
      seen).resume s).2.policies := by
  rw [Async.after_done]
  exact hq

theorem mem_isolated {engine : QueryEngine} {store isolated : Store}
    (h : getPolicy engine store policyID clientID = .ok isolated) :
    q ∈ (Entity.policy engine policyID clientID).isolated store ↔ q ∈ isolated := by
  simp only [Entity.isolated, h]
  exact Iff.rfl

/-! ## DELETE of a policy -/

/-- What a DELETE does with its copy. -/
def deleteCopy (filteredStore : Store) : Async ControllerState HttpError ControllerResponse :=
  Async.yield >>= fun _ => memoryUCRulesStorage.getStore >>= fun live =>
    memoryUCRulesStorage.removeData (live.difference filteredStore) >>= fun _ =>
      Async.yield >>= fun _ => pure { status := 204 }

theorem deleteEntity_after (s₀ s₁ : ControllerState) :
    ((policyController env memoryUCRulesStorage).deleteEntity policyID clientID >>=
        next).after [s₀, s₁] =
      ((Async.done (getPolicy env.toQueryEngine s₁.policies policyID clientID)).bind fun policy =>
        Async.done (.ok (s₁.policies.difference policy))) >>= deleteCopy >>= next := rfl

theorem deleteEntity_lost (hnext : ∀ r, Async.Guarantees Grows (next r)) (hq : q ∈ s.policies)
    (hlost : q ∉ ((((policyController env memoryUCRulesStorage).deleteEntity policyID clientID >>=
      next).after seen).resume s).2.policies) :
    seen.length = 4 ∧ ∃ copy, seen[1]? = some copy ∧ (q ∉ copy.policies ∨
      q ∈ (Entity.policy env.toQueryEngine policyID clientID).isolated copy.policies) := by
  rcases seen with _ | ⟨s₀, _ | ⟨s₁, seen⟩⟩
  · exact absurd hq hlost
  · exact absurd hq hlost
  rw [show s₀ :: s₁ :: seen = [s₀, s₁] ++ seen from rfl, Async.after_append,
    deleteEntity_after] at hlost
  rcases hisolated : getPolicy env.toQueryEngine s₁.policies policyID clientID with e | isolated
  · rw [hisolated] at hlost
    exact absurd (mem_of_done hq) hlost
  rw [hisolated] at hlost
  rcases seen with _ | ⟨s₂, _ | ⟨s₃, _ | ⟨s₄, seen⟩⟩⟩
  · exact absurd hq hlost
  · exact absurd hq hlost
  · have hremoved : q ∉ s.policies.difference (s.policies.difference
        (s₁.policies.difference isolated)) := hlost
    refine ⟨rfl, s₁, rfl, ?_⟩
    rw [mem_isolated hisolated]
    by_contra hneither
    rw [not_or, not_not] at hneither
    refine hremoved (Store.mem_difference.mpr ⟨hq, fun hdiff => ?_⟩)
    exact (Store.mem_difference.mp hdiff).2 (Store.mem_difference.mpr hneither)
  · have hmem : q ∈ ((Async.after (next { status := 204 }) seen).resume s).2.policies :=
      mem_of_guarantees (hnext _) hq
    exact absurd hmem hlost

/-! ## PATCH of a policy -/

theorem sanitizePatch_bind {γ : Type} (isolated : Store)
    (f : Store → Async ControllerState HttpError γ) :
    ((policyController env memoryUCRulesStorage).sanitizePatch isolated policyID clientID update >>=
        f) =
      match patchPolicy env.toQueryEngine isolated clientID update with
      | .error e => .done (.error e)
      | .ok updated => .pause (f updated) := by
  show Async.bind (Async.bind (Async.done (patchPolicy env.toQueryEngine isolated clientID update))
    _) f = _
  cases patchPolicy env.toQueryEngine isolated clientID update <;> rfl

/-- What a PATCH does with its second copy. -/
def patchCopy (env : PolicyEnvironment) (copy isolated : Store)
    (policyID update clientID : String) : Async ControllerState HttpError ControllerResponse :=
  (policyController env memoryUCRulesStorage).sanitizePatch isolated policyID clientID update >>=
    fun patched => Async.yield >>= fun _ =>
      (policyController env memoryUCRulesStorage).sanitizeGet patched policyID clientID >>=
        fun filtered => Async.yield >>= fun _ =>
          (policyController env memoryUCRulesStorage).writeBack
            ((copy.difference isolated).addAll filtered)

theorem patchEntity_after (s₀ s₁ : ControllerState) :
    ((policyController env memoryUCRulesStorage).patchEntity policyID update clientID true >>=
        next).after [s₀, s₁] =
      ((Async.done (getPolicy env.toQueryEngine s₁.policies policyID clientID)).bind
        fun isolated => Async.yield >>= fun _ => Async.yield >>= fun _ => Async.get >>= fun s =>
          patchCopy env s.policies isolated policyID update clientID) >>= next := rfl

theorem patchCopy_lost {copy isolated : Store} (hnext : ∀ r, Async.Guarantees Grows (next r))
    (hq : q ∈ s.policies)
    (hlost : q ∉ (((patchCopy env copy isolated policyID update clientID >>= next).after
      seen).resume s).2.policies) :
    seen.length = 5 ∧ (q ∉ copy ∨ q ∈ isolated) := by
  rw [patchCopy, sanitizePatch_bind] at hlost
  rcases hpatch : patchPolicy env.toQueryEngine isolated clientID update with e | updated
  · -- the update was refused
    rw [hpatch] at hlost
    exact absurd (mem_of_done hq) hlost
  rw [hpatch] at hlost
  rcases seen with _ | ⟨s₀, _ | ⟨s₁, _ | ⟨s₂, seen⟩⟩⟩
  · exact absurd hq hlost
  · exact absurd hq hlost
  · exact absurd hq hlost
  have hagain : q ∉ ((((Async.done (getPolicy env.toQueryEngine updated policyID clientID)).bind
      fun filtered => Async.yield >>= fun _ =>
        (policyController env memoryUCRulesStorage).writeBack
          ((copy.difference isolated).addAll filtered)) >>= next).after seen |>.resume
            s).2.policies := hlost
  rcases hfound : getPolicy env.toQueryEngine updated policyID clientID with e | again
  · rw [hfound] at hagain
    exact absurd (mem_of_done hq) hagain
  rw [hfound] at hagain
  rcases seen with _ | ⟨s₃, seen⟩
  · exact absurd hq hagain
  have hwrite : q ∉ ((((policyController env memoryUCRulesStorage).writeBack
      ((copy.difference isolated).addAll again) >>= next).after seen).resume s).2.policies := hagain
  obtain ⟨hlength, hcopy⟩ := writeBack_lost rfl hnext hq hwrite
  refine ⟨by simp only [List.length_cons, hlength], ?_⟩
  by_contra hneither
  rw [not_or, not_not] at hneither
  exact hcopy (Store.mem_addAll.mpr (Or.inl (Store.mem_difference.mpr hneither)))

theorem patchEntity_lost (hnext : ∀ r, Async.Guarantees Grows (next r)) (hq : q ∈ s.policies)
    (hlost : q ∉ ((((policyController env memoryUCRulesStorage).patchEntity policyID update
      clientID true >>= next).after seen).resume s).2.policies) :
    seen.length = 9 ∧ ∃ read copy, seen[1]? = some read ∧ seen[4]? = some copy ∧
      (q ∉ copy.policies ∨
        q ∈ (Entity.policy env.toQueryEngine policyID clientID).isolated read.policies) := by
  rcases seen with _ | ⟨s₀, _ | ⟨s₁, seen⟩⟩
  · exact absurd hq hlost
  · exact absurd hq hlost
  rw [show s₀ :: s₁ :: seen = [s₀, s₁] ++ seen from rfl, Async.after_append,
    patchEntity_after] at hlost
  rcases hisolated : getPolicy env.toQueryEngine s₁.policies policyID clientID with e | isolated
  · rw [hisolated] at hlost
    exact absurd (mem_of_done hq) hlost
  rw [hisolated] at hlost
  rcases seen with _ | ⟨s₂, _ | ⟨s₃, seen⟩⟩
  · exact absurd hq hlost
  · exact absurd hq hlost
  -- the second copy is taken and used in one step
  have hcopied : q ∉ ((((Async.get >>= fun s => patchCopy env s.policies isolated policyID update
      clientID) >>= next).after seen).resume s).2.policies := hlost
  rw [Async.bind_assoc] at hcopied
  rcases seen with _ | ⟨s₄, seen⟩
  · rw [Async.after_nil, Async.resume_get_bind,
      ← Async.after_nil (patchCopy _ _ _ _ _ _ >>= next)] at hcopied
    obtain ⟨hlength, -⟩ := patchCopy_lost hnext hq hcopied
    cases hlength
  · rw [Async.after_cons, Async.resume_get_bind, ← Async.after_cons] at hcopied
    obtain ⟨hlength, hremoved⟩ := patchCopy_lost hnext hq hcopied
    rw [← mem_isolated hisolated] at hremoved
    refine ⟨?_, s₁, s₄, rfl, rfl, hremoved⟩
    simp only [List.length_cons] at hlength ⊢
    omega

/-! ## PUT of a policy -/

theorem sanitizePost_bind {γ : Type} (upload : Store)
    (f : Store × String → Async ControllerState HttpError γ) :
    ((policyController env memoryUCRulesStorage).sanitizePost upload clientID >>= f) =
      match postPolicy env.toQueryEngine upload clientID with
      | .error e => .done (.error e)
      | .ok posted => .pause (f posted) := by
  show Async.bind (Async.bind (Async.done (postPolicy env.toQueryEngine upload clientID)) _) f = _
  cases postPolicy env.toQueryEngine upload clientID <;> rfl

/-- What a PUT does with an upload. -/
def putUpload (env : PolicyEnvironment) (upload : Store) (policyID clientID : String) :
    Async ControllerState HttpError ControllerResponse :=
  (policyController env memoryUCRulesStorage).sanitizePost upload clientID >>= fun posted =>
    Async.yield >>= fun _ =>
      (policyController env memoryUCRulesStorage).deleteEntity policyID clientID >>= fun _ =>
        Async.yield >>= fun _ => memoryUCRulesStorage.addRule posted.1 >>= fun _ =>
          Async.yield >>= fun _ => pure { status := 204 }

/-- What a PUT does with the policy it finds. -/
def putFound (env : PolicyEnvironment) (data policyID clientID : String)
    (getResult : ControllerResponse) : Async ControllerState HttpError ControllerResponse :=
  Async.yield >>= fun _ =>
    if getResult.status ≠ 200 then pure { status := 404 }
    else (Async.done (env.parse data)).bind fun quads =>
      putUpload env (Store.ofQuads quads) policyID clientID

theorem putEntity_after (s₀ s₁ : ControllerState) :
    ((policyController env memoryUCRulesStorage).putEntity data policyID clientID >>=
        next).after [s₀, s₁] =
      ((Async.done (getPolicy env.toQueryEngine s₁.policies policyID clientID)).bind fun message =>
        Async.yield >>= fun _ => pure { status := 200, message }) >>=
          putFound env data policyID clientID >>= next := rfl

theorem putEntity_lost (hnext : ∀ r, Async.Guarantees Grows (next r)) (hq : q ∈ s.policies)
    (hlost : q ∉ ((((policyController env memoryUCRulesStorage).putEntity data policyID clientID >>=
      next).after seen).resume s).2.policies) :
    seen.length = 10 ∧ ∃ copy, seen[7]? = some copy ∧ (q ∉ copy.policies ∨
      q ∈ (Entity.policy env.toQueryEngine policyID clientID).isolated copy.policies) := by
  rcases seen with _ | ⟨s₀, _ | ⟨s₁, seen⟩⟩
  · exact absurd hq hlost
  · exact absurd hq hlost
  rw [show s₀ :: s₁ :: seen = [s₀, s₁] ++ seen from rfl, Async.after_append,
    putEntity_after] at hlost
  rcases hfound : getPolicy env.toQueryEngine s₁.policies policyID clientID with e | isolated
  · rw [hfound] at hlost
    exact absurd (mem_of_done hq) hlost
  rw [hfound] at hlost
  rcases seen with _ | ⟨s₂, _ | ⟨s₃, seen⟩⟩
  · exact absurd hq hlost
  · exact absurd hq hlost
  have hbody : q ∉ ((((Async.done (env.parse data)).bind fun quads =>
      putUpload env (Store.ofQuads quads) policyID clientID) >>= next).after seen |>.resume
        s).2.policies := hlost
  rcases hparse : env.parse data with e | quads
  · rw [hparse] at hbody
    exact absurd (mem_of_done hq) hbody
  rw [hparse] at hbody
  have hupload : q ∉ (((putUpload env (Store.ofQuads quads) policyID clientID >>= next).after
    seen).resume s).2.policies := hbody
  rw [putUpload, sanitizePost_bind] at hupload
  rcases hposted : postPolicy env.toQueryEngine (Store.ofQuads quads) clientID with e | posted
  · rw [hposted] at hupload
    exact absurd (mem_of_done hq) hupload
  rw [hposted] at hupload
  rcases seen with _ | ⟨s₄, _ | ⟨s₅, seen⟩⟩
  · exact absurd hq hupload
  · exact absurd hq hupload
  have hdelete : q ∉ ((((policyController env memoryUCRulesStorage).deleteEntity policyID
      clientID >>= fun r => (Async.yield >>= fun _ => memoryUCRulesStorage.addRule posted.1 >>=
        fun _ => Async.yield >>= fun _ => pure { status := 204 }) >>= next).after seen).resume
          s).2.policies := by
    rw [← Async.bind_assoc]
    exact hupload
  obtain ⟨hlength, copy, hcopy, hremoved⟩ := deleteEntity_lost
    (fun _ => .bind (.bind .yield (fun _ => .bind (grows_addRule_call _)
      (fun _ => .bind .yield (fun _ => .pure _)))) hnext) hq hdelete
  exact ⟨by simp only [List.length_cons, hlength], copy, hcopy, hremoved⟩

/-! ## PATCH of an access request -/

/-- What a PATCH of a request does with its copy. -/
def resolveCopy (env : AccessRequestEnvironment) (copy : Store)
    (requestID status clientID : String) : Async ControllerState HttpError ControllerResponse :=
  AccessRequestController.patchAccessRequest env copy requestID clientID status >>= fun filtered =>
    Async.yield >>= fun _ =>
      (accessRequestController env memoryUCRulesStorage).writeBack filtered

theorem patchRequest_after {env : AccessRequestEnvironment} {requestID status : String}
    (s₀ : ControllerState) :
    ((accessRequestController env memoryUCRulesStorage).patchEntity requestID status clientID
        false >>= next).after [s₀] =
      (Async.get >>= fun s => resolveCopy env s.policies requestID status clientID) >>= next := rfl

theorem resolveCopy_lost {env : AccessRequestEnvironment} {copy : Store}
    {requestID status : String} (hnext : ∀ r, Async.Guarantees Grows (next r))
    (hq : q ∈ s.policies)
    (hlost : q ∉ (((resolveCopy env copy requestID status clientID >>= next).after seen).resume
      s).2.policies) :
    seen.length = 3 ∧ (q ∉ copy ∨ q ∈ copy.getQuads (Term.namedNode requestID) none none none) := by
  rw [resolveCopy] at hlost
  rcases AccessRequestController.patchAccessRequest_cases env copy requestID clientID status with
    ⟨e, heq⟩ | ⟨answer, heq, hresolved⟩
  · rw [heq] at hlost
    exact absurd (mem_of_done hq) hlost
  rw [heq] at hlost
  rcases seen with _ | ⟨s₀, seen⟩
  · exact absurd hq hlost
  rcases hanswer : answer s₀ with e | resolved
  · have hdone : q ∉ ((Async.after ((Async.bind (Async.bind (Async.done (answer s₀)) _) next))
      seen).resume s).2.policies := hlost
    rw [hanswer] at hdone
    exact absurd (mem_of_done hq) hdone
  have hrest : q ∉ ((Async.after ((Async.bind (Async.bind (Async.done (answer s₀)) fun filtered =>
      Async.yield >>= fun _ => (accessRequestController env memoryUCRulesStorage).writeBack
        filtered) next)) seen).resume s).2.policies := hlost
  rw [hanswer] at hrest
  rcases seen with _ | ⟨s₁, seen⟩
  · exact absurd hq hrest
  have hwrite : q ∉ ((((accessRequestController env memoryUCRulesStorage).writeBack resolved >>=
    next).after seen).resume s).2.policies := hrest
  obtain ⟨hlength, hgone⟩ := writeBack_lost rfl hnext hq hwrite
  obtain ⟨target, hresolve⟩ := hresolved s₀ resolved hanswer
  refine ⟨by simp only [List.length_cons, hlength], ?_⟩
  by_cases hcopy : q ∈ copy
  · exact Or.inr (AccessRequestController.resolveRequest_keeps hresolve hcopy hgone)
  · exact Or.inl hcopy

theorem patchRequest_lost {env : AccessRequestEnvironment} {requestID status : String}
    (hnext : ∀ r, Async.Guarantees Grows (next r)) (hq : q ∈ s.policies)
    (hlost : q ∉ ((((accessRequestController env memoryUCRulesStorage).patchEntity requestID status
      clientID false >>= next).after seen).resume s).2.policies) :
    seen.length = 4 ∧ ∃ copy, seen[1]? = some copy ∧ (q ∉ copy.policies ∨
      q ∈ copy.policies.getQuads (Term.namedNode requestID) none none none) := by
  rcases seen with _ | ⟨s₀, seen⟩
  · exact absurd hq hlost
  rw [show s₀ :: seen = [s₀] ++ seen from rfl, Async.after_append, patchRequest_after,
    Async.bind_assoc] at hlost
  rcases seen with _ | ⟨s₁, seen⟩
  · rw [Async.after_nil, Async.resume_get_bind,
      ← Async.after_nil (resolveCopy _ _ _ _ _ >>= next)] at hlost
    obtain ⟨hlength, -⟩ := resolveCopy_lost hnext hq hlost
    cases hlength
  · rw [Async.after_cons, Async.resume_get_bind, ← Async.after_cons] at hlost
    obtain ⟨hlength, hremoved⟩ := resolveCopy_lost hnext hq hlost
    refine ⟨?_, s₁, rfl, hremoved⟩
    simp only [List.length_cons] at hlength ⊢
    omega

end WritingBack

/-! ## One step of a task -/

section Steps

variable {q : Quad} {s : ControllerState} {seen : List ControllerState}

theorem grows_return (_ : ControllerResponse) :
    Async.Guarantees Grows (pure () : Async ControllerState HttpError Unit) := .pure ()

/-- A step that takes a quad out of the store writes a copy back, and the
quad was not in the copy or was isolated. -/
theorem step_lost {task : Task} (hq : q ∈ s.policies)
    (hlost : q ∉ ((task.program.after seen).resume s).2.policies) :
    ∃ w read copy, task.writeBack = some w ∧ seen.length = w.write ∧
      seen[w.read]? = some read ∧ seen[w.copy]? = some copy ∧
        (q ∉ copy.policies ∨ q ∈ w.entity.isolated read.policies) := by
  have hgrowing : ∀ {p : Async ControllerState HttpError ControllerResponse},
      Async.Guarantees Grows p →
      q ∈ (((p >>= fun _ => pure ()).after seen).resume s).2.policies :=
    fun hp => mem_of_guarantees (.bind hp grows_return) hq
  cases task with
  | addRule rule => exact absurd (mem_of_guarantees (grows_addRule_call rule) hq) hlost
  | request operation =>
    cases operation with
    | policy env operation =>
      have hget : ∀ store id clientID, Async.Guarantees Grows
          ((policyController env memoryUCRulesStorage).sanitizeGet store id clientID) :=
        fun _ _ _ => .bind .yield (fun _ => .lift _)
      have hgets : ∀ store clientID, Async.Guarantees Grows
          ((policyController env memoryUCRulesStorage).sanitizeGets store clientID) :=
        fun _ _ => .bind .yield (fun _ => .lift _)
      cases operation with
      | getEntities clientID => exact absurd (hgrowing (grows_gets rfl hgets clientID)) hlost
      | getEntity id clientID => exact absurd (hgrowing (grows_get rfl hget id clientID)) hlost
      | addEntity data clientID =>
        exact absurd (hgrowing (grows_addEntity env data clientID)) hlost
      | deleteEntity id clientID =>
        obtain ⟨hlength, copy, hcopy, hremoved⟩ := deleteEntity_lost grows_return hq hlost
        exact ⟨_, copy, copy, rfl, hlength, hcopy, hcopy, hremoved⟩
      | patchEntity id update clientID =>
        obtain ⟨hlength, read, copy, hread, hcopy, hremoved⟩ :=
          patchEntity_lost grows_return hq hlost
        exact ⟨_, read, copy, rfl, hlength, hread, hcopy, hremoved⟩
      | putEntity data id clientID =>
        obtain ⟨hlength, copy, hcopy, hremoved⟩ := putEntity_lost grows_return hq hlost
        exact ⟨_, copy, copy, rfl, hlength, hcopy, hcopy, hremoved⟩
    | accessRequest env operation =>
      have hgets : ∀ store clientID, Async.Guarantees Grows
          ((accessRequestController env memoryUCRulesStorage).sanitizeGets store clientID) :=
        fun _ clientID =>
          .bind .yield (fun _ => .bind (grows_ownedResources clientID) (fun _ => .pure _))
      cases operation with
      | getEntities clientID => exact absurd (hgrowing (grows_gets rfl hgets clientID)) hlost
      | getEntity id clientID =>
        exact absurd (hgrowing (grows_get rfl grows_getAccessRequest id clientID)) hlost
      | addEntity data clientID =>
        exact absurd (hgrowing (grows_newRequest env data clientID)) hlost
      | deleteEntity id clientID => exact absurd (hgrowing (.throw _)) hlost
      | patchEntity id status clientID =>
        obtain ⟨hlength, copy, hcopy, hremoved⟩ := patchRequest_lost grows_return hq hlost
        exact ⟨_, copy, copy, rfl, hlength, hcopy, hcopy, hremoved⟩
      | putEntity data id clientID => exact absurd (hgrowing (.throw _)) hlost

end Steps

/-! ## Runs -/

section Runs

variable {ι : Type} [DecidableEq ι]

/-- In a run in which every step is safe, nothing is lost. -/
theorem noLostUpdate_of_safeRun (tasks : ι → Task) (s : ControllerState) (schedule : List ι)
    (hsafe : SafeRun tasks s schedule) : NoLostUpdate tasks s schedule := by
  rintro earlier later rfl q hq hlost
  have happend : ∀ l, poolAfter tasks s (earlier ++ l) = (poolAfter tasks s earlier).run l :=
    fun l => Pool.run_append _ _ _
  rw [storeAfter, happend] at hlost
  obtain ⟨before, i, rest, rfl, hpresent, hgone⟩ :=
    Pool.exists_step_of_not (P := fun t : ControllerState => q ∈ t.policies) hq hlost
  rw [← happend] at hpresent hgone
  refine ⟨before, i, rest, rfl, hpresent, ?_, ?_⟩
  · rw [storeAfter, poolAfter, Pool.run_append]
    exact hgone
  · have hprocess : (poolAfter tasks s (earlier ++ before)).processes i =
        (tasks i).program.after ((poolAfter tasks s (earlier ++ before)).seen i) :=
      Pool.processes_run _ _ _ i
    have hstep : q ∉ (((tasks i).program.after ((poolAfter tasks s (earlier ++ before)).seen
        i)).resume (poolAfter tasks s (earlier ++ before)).state).2.policies := by
      rw [← hprocess]
      exact hgone
    obtain ⟨w, read, copy, hw, hlength, hread, hcopy, hcause⟩ := step_lost hpresent hstep
    obtain ⟨hfresh, hown⟩ := hsafe (earlier ++ before) i rest
      (by rw [List.append_assoc]) w read copy hw hlength hread hcopy
    rcases hcause with hnew | hisolated
    · exact ⟨w, read, hw, hread, hfresh q hpresent hnew⟩
    · exact ⟨w, read, hw, hread, hown q hisolated⟩

/-- It is enough to look at the steps by their number. -/
theorem SafeRun.of_steps {tasks : ι → Task} {s : ControllerState} {schedule : List ι}
    (h : ∀ n i, schedule[n]? = some i →
      (tasks i).SafeStep ((poolAfter tasks s (schedule.take n)).seen i)
        (storeAfter tasks s (schedule.take n))) : SafeRun tasks s schedule := by
  rintro before i later rfl
  have hstep := h before.length i (by simp)
  rwa [List.take_left] at hstep

end Runs

/-! ## A deletion and another component -/

/-- A policy of Alice with one permission. -/
def storeOfAlice : Store :=
  let policy := Term.namedNode "http://example.org/policy"
  let permission := Term.namedNode "http://example.org/permission"
  Store.ofQuads [quad policy RDF.type ODRL.Set, quad policy ODRL.uid policy,
    quad policy ODRL.permission permission,
    quad permission ODRL.target (.namedNode "http://example.org/resource"),
    quad permission ODRL.assigner (.namedNode "http://example.org/alice")]

def ruleOfBob : Quad :=
  quad (.namedNode "http://example.org/other") ODRL.assigner (.namedNode "http://example.org/bob")

/-- `true`: Alice deletes her policy; `false`: a component adds a rule of Bob. -/
def deletionAndRule : Bool → Task
  | true => .request (.policy (fixedEnvironment [] id)
      (.deleteEntity "http://example.org/policy" "http://example.org/alice"))
  | false => .addRule (Store.ofQuads [ruleOfBob])

def aliceAlone : ControllerState := { policies := storeOfAlice, ownershipStore := fun _ => none }

/-- The rule comes in before the copy is taken. -/
theorem noLostUpdate_of_safeRun_early :
    NoLostUpdate deletionAndRule aliceAlone [true, false, true, true, true, true, true] := by
  refine noLostUpdate_of_safeRun _ _ _ (SafeRun.of_steps ?_)
  intro n i hi w read copy hw hlength hread hcopy
  have hn : n < 7 := by
    by_contra hlong
    rw [List.getElem?_eq_none (by simpa using hlong)] at hi
    cases hi
  interval_cases n <;> cases hi <;> cases hw
  -- only the fifth step of the deletion writes back
  · exact absurd hlength (by decide)
  · exact absurd hlength (by decide)
  · exact absurd hlength (by decide)
  · exact absurd hlength (by decide)
  · cases hread
    cases hcopy
    decide
  · exact absurd hlength (by decide)

/-- Deleting her policy, Alice takes out a rule that came in after the copy. -/
theorem update_lost :
    ¬ ∀ (tasks : Bool → Task) s schedule, NoLostUpdate tasks s schedule := by
  intro hclaim
  obtain ⟨before, i, rest, -, -, -, w, read, hw, hread, hnode⟩ :=
    hclaim deletionAndRule aliceAlone [true, true, false, true, true, true, true]
      [true, true, false] [true, true, true, true] rfl ruleOfBob (by decide) (by decide)
  cases i with
  | false => cases hw
  | true =>
    cases hw
    obtain ⟨more, hmore⟩ := Pool.seen_run
      (poolAfter deletionAndRule aliceAlone [true, true, false]) before true
    have hseen : (poolAfter deletionAndRule aliceAlone ([true, true, false] ++ before)).seen true =
        [aliceAlone, aliceAlone] ++ more := by
      rw [poolAfter, Pool.run_append]
      exact hmore
    rw [hseen] at hread
    cases hread
    exact absurd hnode (by decide)

end UserManagedAccess.Controller
