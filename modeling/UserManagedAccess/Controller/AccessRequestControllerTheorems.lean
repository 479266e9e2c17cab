/-
UserManagedAccess.Controller.AccessRequestControllerTheorems — what a client
sees of an access request depends on the quads of the request and of its
constraints only.
-/
import UserManagedAccess.Controller.AccessRequestController
import UserManagedAccess.Rdf.Links

namespace UserManagedAccess.Controller

open UserManagedAccess.Lib UserManagedAccess.Rdf UserManagedAccess.Util UserManagedAccess.Ucp

namespace AccessRequestController

/-- The answer to a GET of a request, given what the client owns. -/
def viewRequest (store : Store) (owned : List String) (requestID clientID : String) :
    Except HttpError Store :=
  let node := Term.namedNode requestID
  let requesters := store.getObjects node SOTW.requestingParty none
  if requesters.length = 0 then .error .notFound
  else if requesters.any (fun requester => requester.value == clientID) then
    .ok (Store.ofQuads (getRequestQuads store node))
  else
    match store.getObjects node SOTW.requestedTarget none with
    | [target] =>
      if owned.contains target.value then .ok (Store.ofQuads (getRequestQuads store node))
      else .error (.forbidden "")
    | targets => .error (.internalServer
        ("Unexpected amount of targets, expected 1 but got " ++ toString targets.length))

theorem run_getAccessRequest (store : Store) (requestID clientID : String) (s : ControllerState) :
    (getAccessRequest store requestID clientID).run s =
      (viewRequest store ((s.ownershipStore.get clientID).getD []) requestID clientID, s) := by
  unfold getAccessRequest viewRequest
  dsimp only
  by_cases hnone : (store.getObjects (Term.namedNode requestID) SOTW.requestingParty
    none).length = 0
  · rw [if_pos hnone, if_pos hnone]
    rfl
  rw [if_neg hnone, if_neg hnone]
  by_cases hrequester : (store.getObjects (Term.namedNode requestID) SOTW.requestingParty
    none).any (fun requester => requester.value == clientID) = true
  · simp only [hrequester, if_true]
    rfl
  simp only [hrequester]
  rcases store.getObjects (Term.namedNode requestID) SOTW.requestedTarget none with
    _ | ⟨target, _ | ⟨second, targets⟩⟩
  · rfl
  · show Async.run (if ((s.ownershipStore.get clientID).getD []).contains target.value = true
      then _ else _) s = (if ((s.ownershipStore.get clientID).getD []).contains target.value = true
      then _ else _, s)
    by_cases howned : ((s.ownershipStore.get clientID).getD []).contains target.value = true
    · rw [if_pos howned, if_pos howned]
      rfl
    · rw [if_neg howned, if_neg howned]
      rfl
  · rfl

theorem run_getEntity {env : AccessRequestEnvironment} {requestID clientID : String}
    {s : ControllerState} :
    ((accessRequestController env memoryUCRulesStorage).getEntity requestID clientID).run s =
      ((viewRequest s.policies ((s.ownershipStore.get clientID).getD []) requestID clientID).map
        (fun message => { status := 200, message }), s) := by
  unfold BaseController.getEntity
  have hstore : ((accessRequestController env memoryUCRulesStorage).store.getStore).run s =
      (.ok s.policies, s) := rfl
  rw [Async.run_bind_of_ok hstore]
  have hview := run_getAccessRequest s.policies requestID clientID s
  rcases hresult : viewRequest s.policies ((s.ownershipStore.get clientID).getD []) requestID
    clientID with e | message
  · rw [hresult] at hview
    exact Async.run_bind_of_error hview _
  · rw [hresult] at hview
    exact Async.run_bind_of_ok hview _

/-- Two stores with the same quads about the request and its constraints show
the same request. -/
theorem viewRequest_congr {store other : Store} {owned : List String}
    {requestID clientID : String}
    (hrequest : ∀ predicate object, store.getQuads (Term.namedNode requestID) predicate object none =
      other.getQuads (Term.namedNode requestID) predicate object none)
    (hconstraints : ∀ constraint,
      store.Linked (Term.namedNode requestID) ODRL.constraint constraint →
        store.getQuads constraint none none none = other.getQuads constraint none none none) :
    viewRequest store owned requestID clientID = viewRequest other owned requestID clientID := by
  have hobjects : ∀ predicate : Term,
      store.getObjects (Term.namedNode requestID) predicate none =
        other.getObjects (Term.namedNode requestID) predicate none := by
    intro predicate
    rw [Store.getObjects, Store.getObjects, hrequest]
  have hquads : getRequestQuads store (Term.namedNode requestID) =
      getRequestQuads other (Term.namedNode requestID) := by
    rw [getRequestQuads, getRequestQuads, hrequest, ← hobjects ODRL.constraint]
    congr 1
    refine List.flatMap_congr ?_
    intro constraint hmem
    exact hconstraints constraint (Store.mem_getObjects_linked.mp hmem)
  unfold viewRequest
  dsimp only
  rw [hobjects SOTW.requestingParty, hobjects SOTW.requestedTarget, hquads]

/-! ## Resolving -/

/-- The store with the new status of the request. -/
def withStatus (store : Store) (requestID status : String) : Store :=
  (store.removeQuads [quad (.namedNode requestID) SOTW.requestStatus SOTW.requested]).addQuad
    (quad (.namedNode requestID) SOTW.requestStatus (statusTerm status))

/-- Resolving a request changes its status, and adds a policy when it is
accepted. -/
theorem resolveRequest_ok {env : AccessRequestEnvironment} {store resolved : Store}
    {requestID clientID status : String} {target : Term}
    (h : resolveRequest env store requestID clientID status target = .ok resolved) :
    ∃ policy, resolved = (withStatus store requestID status).addQuads policy := by
  unfold resolveRequest at h
  dsimp only at h
  split at h
  · split at h
    · cases h
    split at h
    · split at h
      · cases h
      · split at h
        · injection h with h
          exact ⟨_, h.symm⟩
        · injection h with h
          exact ⟨[], h.symm⟩
    · cases h
  · cases h

/-- Resolving a request removes nothing but its status. -/
theorem resolveRequest_keeps {env : AccessRequestEnvironment} {store resolved : Store}
    {requestID clientID status : String} {target : Term}
    (h : resolveRequest env store requestID clientID status target = .ok resolved) {q : Quad}
    (hq : q ∈ store) (hgone : q ∉ resolved) :
    q ∈ store.getQuads (Term.namedNode requestID) none none none := by
  refine Store.mem_getQuads_subject.mpr ⟨hq, ?_⟩
  by_contra hother
  obtain ⟨policy, rfl⟩ := resolveRequest_ok h
  refine hgone (Store.mem_addQuads.mpr (Or.inl (Store.mem_addQuad.mpr (Or.inl ?_))))
  refine Store.mem_removeQuads.mpr ⟨hq, ?_⟩
  rw [List.mem_singleton]
  rintro rfl
  exact hother rfl

/-- A PATCH of a request is refused at once, or it looks up what the client
owns and then resolves the request. -/
theorem patchAccessRequest_cases (env : AccessRequestEnvironment) (store : Store)
    (requestID clientID status : String) :
    (∃ e, patchAccessRequest env store requestID clientID status = .done (.error e)) ∨
      ∃ answer : ControllerState → Except HttpError Store,
        patchAccessRequest env store requestID clientID status =
          .act id (fun s => .pause (.done (answer s))) ∧
        ∀ s resolved, answer s = .ok resolved → ∃ target,
          resolveRequest env store requestID clientID status target = .ok resolved := by
  unfold patchAccessRequest
  split
  · exact Or.inl ⟨_, rfl⟩
  · rename_i target targets _
    split
    · exact Or.inl ⟨_, rfl⟩
    · refine Or.inr ⟨fun s =>
        if (!((s.ownershipStore.get clientID).getD []).contains target.value) = true then
          .error (.forbidden "")
        else resolveRequest env store requestID clientID status target, ?_, ?_⟩
      · refine congrArg (Async.act id) (funext (fun s => congrArg Async.pause ?_))
        show (if (!((s.ownershipStore.get clientID).getD []).contains target.value) = true
          then _ else _) = _
        by_cases hforeign : (!((s.ownershipStore.get clientID).getD []).contains
          target.value) = true
        · rw [if_pos hforeign]
          exact congrArg Async.done (if_pos hforeign).symm
        · rw [if_neg hforeign]
          exact congrArg Async.done (if_neg hforeign).symm
      · intro s resolved hanswer
        dsimp only at hanswer
        split at hanswer
        · cases hanswer
        · exact ⟨target, hanswer⟩

end AccessRequestController

end UserManagedAccess.Controller
