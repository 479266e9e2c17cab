/-
UserManagedAccess.Controller.PolicyControllerTheorems — what a request to the
policy endpoint does to the store, when nothing else runs meanwhile.

One lemma for each operation. Everything proved about the endpoint goes
through them, and none of it unfolds an operation again.
-/
import UserManagedAccess.Controller.PolicyController
import UserManagedAccess.Controller.BaseControllerTheorems
import UserManagedAccess.Controller.RouteSpecificTheorems

namespace UserManagedAccess.Controller

open UserManagedAccess.Lib UserManagedAccess.Rdf UserManagedAccess.Util UserManagedAccess.Ucp

/-! ## What an upload has to satisfy -/

/-- `sanitizePost` accepts the upload. -/
structure ValidUpload (engine : QueryEngine) (upload : Store) (clientID : String) : Prop where
  assigner : isAssigner upload clientID = true
  matched : ∃ first rest, creationBindings engine upload clientID = .ok (first :: rest)

/-- A POST of the upload is accepted. -/
structure Accepted (engine : QueryEngine) (store upload : Store) (clientID : String) : Prop
    extends ValidUpload engine upload clientID where
  fresh : ∀ node, upload.Described node → ¬ store.Described node

theorem validUpload_iff {engine : QueryEngine} {upload result : Store} {clientID id : String} :
    postPolicy engine upload clientID = .ok (result, id) ↔
      ValidUpload engine upload clientID ∧ result = upload ∧ id = "" := by
  rw [postPolicy_ok]
  constructor
  · rintro ⟨hassigner, hmatched, hresult⟩
    exact ⟨⟨hassigner, hmatched⟩, hresult⟩
  · rintro ⟨⟨hassigner, hmatched⟩, hresult⟩
    exact ⟨hassigner, hmatched, hresult⟩

namespace PolicyController

variable {env : PolicyEnvironment} {data clientID policyID : String} {s s' : ControllerState}
  {r : ControllerResponse}

/-! ## GET -/

theorem run_getStore :
    ((policyController env memoryUCRulesStorage).store.getStore).run s = (.ok s.policies, s) := rfl

/-- What an operation filters does not depend on the storage. -/
theorem run_sanitizeGet {σ : Type} {storage : UCRulesStorage σ} {t : σ} (store : Store) :
    ((policyController env storage).sanitizeGet store policyID clientID).run t =
      (getPolicy env.toQueryEngine store policyID clientID, t) := rfl

section Lookups

variable {σ : Type} {storage : UCRulesStorage σ} {t : σ} {store : Store}
  (hstore : ((policyController env storage).store.getStore).run t = (.ok store, t))

include hstore

theorem run_getEntity {isolated : Store}
    (h : getPolicy env.toQueryEngine store policyID clientID = .ok isolated) :
    ((policyController env storage).getEntity policyID clientID).run t =
      (.ok { status := 200, message := isolated }, t) := by
  unfold BaseController.getEntity
  rw [Async.run_bind_of_ok hstore, Async.run_bind_of_ok ((run_sanitizeGet _).trans (by rw [h]))]
  rfl

theorem run_getEntity_refused {e : HttpError}
    (h : getPolicy env.toQueryEngine store policyID clientID = .error e) :
    ((policyController env storage).getEntity policyID clientID).run t = (.error e, t) := by
  unfold BaseController.getEntity
  rw [Async.run_bind_of_ok hstore, Async.run_bind_of_error ((run_sanitizeGet _).trans (by rw [h]))]

end Lookups

/-! ## POST -/

theorem run_sanitizePost {σ : Type} {storage : UCRulesStorage σ} {t : σ} (upload : Store) :
    ((policyController env storage).sanitizePost upload clientID).run t =
      (postPolicy env.toQueryEngine upload clientID, t) := by
  show Async.run (liftM (postPolicy env.toQueryEngine upload clientID) >>= _) t = _
  rw [Async.run_bind, Async.run_lift]
  cases postPolicy env.toQueryEngine upload clientID <;> rfl

section Uploads

variable {σ β : Type} {storage : UCRulesStorage σ} {t : σ}
  (next : Store × String → Async σ HttpError β)

/-- A body that is no valid upload is refused before anything else is done. -/
theorem run_upload_refused
    (h : ∀ quads, env.parse data = .ok quads →
      ¬ ValidUpload env.toQueryEngine (Store.ofQuads quads) clientID) :
    ∃ e, Async.run (liftM (env.parse data) >>= fun quads =>
      (policyController env storage).sanitizePost (Store.ofQuads quads) clientID >>= next) t =
        (.error e, t) := by
  rcases hparse : env.parse data with e | quads
  · exact ⟨e, Async.run_bind_of_error (Async.run_lift _ _) _⟩
  rw [Async.run_bind_of_ok (Async.run_lift _ _)]
  rcases hpost : postPolicy env.toQueryEngine (Store.ofQuads quads) clientID with e | ⟨result, id⟩
  · exact ⟨e, Async.run_bind_of_error ((run_sanitizePost _).trans (by rw [hpost])) _⟩
  · exact absurd (validUpload_iff.mp hpost).1 (h quads hparse)

/-- A valid one is what the rest of the operation gets. -/
theorem run_upload_valid {quads : List Quad} (hparse : env.parse data = .ok quads)
    (hvalid : ValidUpload env.toQueryEngine (Store.ofQuads quads) clientID) :
    Async.run (liftM (env.parse data) >>= fun quads =>
      (policyController env storage).sanitizePost (Store.ofQuads quads) clientID >>= next) t =
        (next (Store.ofQuads quads, "")).run t := by
  rw [hparse, Async.run_bind_of_ok (Async.run_lift _ _), Async.run_bind_of_ok
    ((run_sanitizePost _).trans (by rw [validUpload_iff.mpr ⟨hvalid, rfl, rfl⟩]))]

end Uploads

theorem addEntity_ok :
    ((policyController env memoryUCRulesStorage).addEntity data clientID).run s = (.ok r, s') ↔
      ∃ quads, env.parse data = .ok quads ∧
        Accepted env.toQueryEngine s.policies (Store.ofQuads quads) clientID ∧
        r = { status := 201 } ∧ s' = s.addRule (Store.ofQuads quads) := by
  unfold BaseController.addEntity
  show Async.run (liftM (env.parse data) >>= _) s = _ ↔ _
  by_cases hupload : ∃ quads, env.parse data = .ok quads ∧
      ValidUpload env.toQueryEngine (Store.ofQuads quads) clientID
  · obtain ⟨quads, hparse, hvalid⟩ := hupload
    rw [run_upload_valid _ hparse hvalid]
    show Async.run (if noAlreadyDefinedSubjects s.policies (Store.ofQuads quads) = true then
      Async.modify (ControllerState.addRule (Store.ofQuads quads)) >>= _ else _) s = _ ↔ _
    by_cases hfresh : noAlreadyDefinedSubjects s.policies (Store.ofQuads quads) = true
    · have haccepted : Accepted env.toQueryEngine s.policies (Store.ofQuads quads) clientID :=
        ⟨hvalid, noAlreadyDefinedSubjects_iff.mp hfresh⟩
      rw [if_pos hfresh, Async.run_bind_of_ok (Async.run_modify _ _)]
      simp [hparse, haccepted, eq_comm]
    · have hconflict : ¬ Accepted env.toQueryEngine s.policies (Store.ofQuads quads) clientID :=
        fun h => hfresh (noAlreadyDefinedSubjects_iff.mpr h.fresh)
      rw [if_neg hfresh, Async.run_throw]
      simp [hparse, hconflict]
  · have hrefused : ∀ quads, env.parse data = .ok quads →
        ¬ ValidUpload env.toQueryEngine (Store.ofQuads quads) clientID :=
      fun quads hparse hvalid => hupload ⟨quads, hparse, hvalid⟩
    obtain ⟨e, hrun⟩ := run_upload_refused _ hrefused
    rw [hrun]
    constructor
    · exact fun h => by cases h
    · rintro ⟨quads, hparse, haccepted, -⟩
      exact absurd haccepted.toValidUpload (hrefused quads hparse)

/-! ## DELETE -/

theorem run_sanitizeDelete {σ : Type} {storage : UCRulesStorage σ} {t : σ} {isolated : Store}
    (store : Store) (h : getPolicy env.toQueryEngine store policyID clientID = .ok isolated) :
    ((policyController env storage).sanitizeDelete store policyID clientID).run t =
      (.ok (store.difference isolated), t) := by
  show Async.run (liftM (getPolicy env.toQueryEngine store policyID clientID) >>= _) t = _
  rw [h]
  rfl

theorem run_sanitizeDelete_refused {σ : Type} {storage : UCRulesStorage σ} {t : σ}
    {e : HttpError} (store : Store)
    (h : getPolicy env.toQueryEngine store policyID clientID = .error e) :
    ((policyController env storage).sanitizeDelete store policyID clientID).run t =
      (.error e, t) := by
  show Async.run (liftM (getPolicy env.toQueryEngine store policyID clientID) >>= _) t = _
  rw [h]
  rfl

theorem run_deleteEntity {isolated : Store}
    (h : getPolicy env.toQueryEngine s.policies policyID clientID = .ok isolated) :
    ((policyController env memoryUCRulesStorage).deleteEntity policyID clientID).run s =
      (.ok { status := 204 }, s.removeData
        (s.policies.difference (s.policies.difference isolated))) := by
  unfold BaseController.deleteEntity
  rw [Async.run_bind_of_ok run_getStore, Async.run_bind_of_ok (run_sanitizeDelete _ h)]
  rfl

theorem run_deleteEntity_refused {e : HttpError}
    (h : getPolicy env.toQueryEngine s.policies policyID clientID = .error e) :
    ((policyController env memoryUCRulesStorage).deleteEntity policyID clientID).run s =
      (.error e, s) := by
  unfold BaseController.deleteEntity
  rw [Async.run_bind_of_ok run_getStore,
    Async.run_bind_of_error (run_sanitizeDelete_refused _ h)]

theorem ownershipStore_deleteEntity :
    (((policyController env memoryUCRulesStorage).deleteEntity policyID clientID).run
        s).2.ownershipStore = s.ownershipStore := by
  rcases h : getPolicy env.toQueryEngine s.policies policyID clientID with e | isolated
  · rw [run_deleteEntity_refused h]
  · rw [run_deleteEntity h, ControllerState.ownershipStore_removeData]

/-- A DELETE removes the isolated part of the policy. -/
theorem policies_deleteEntity {isolated : Store}
    (h : getPolicy env.toQueryEngine s.policies policyID clientID = .ok isolated) :
    (((policyController env memoryUCRulesStorage).deleteEntity policyID clientID).run
        s).2.policies = s.policies.difference isolated := by
  rw [run_deleteEntity h, ControllerState.policies_removeData]
  exact Store.difference_difference_difference _ _

theorem mem_deleteEntity {q : Quad} :
    q ∈ (((policyController env memoryUCRulesStorage).deleteEntity policyID clientID).run
        s).2.policies ↔
      q ∈ s.policies ∧ ¬ Reached env.toQueryEngine s.policies policyID clientID q.subject := by
  rcases h : getPolicy env.toQueryEngine s.policies policyID clientID with e | isolated
  · rw [run_deleteEntity_refused h]
    exact (and_iff_left (not_reached_of_error h)).symm
  rw [policies_deleteEntity h, Store.mem_difference, mem_getPolicy h]
  constructor
  · rintro ⟨hq, hkept⟩
    exact ⟨hq, fun hreached => hkept ⟨hq, hreached⟩⟩
  · rintro ⟨hq, hkept⟩
    exact ⟨hq, fun h => hkept h.2⟩

/-! ## PUT -/

/-- A PUT only looks at whether the identifier can be looked up. -/
theorem putEntity_ok :
    ((policyController env memoryUCRulesStorage).putEntity data policyID clientID).run s =
        (.ok r, s') ↔
      ∃ isolated quads,
        getPolicy env.toQueryEngine s.policies policyID clientID = .ok isolated ∧
        env.parse data = .ok quads ∧
        ValidUpload env.toQueryEngine (Store.ofQuads quads) clientID ∧
        r = { status := 204 } ∧
        s' = (((policyController env memoryUCRulesStorage).deleteEntity policyID clientID).run
          s).2.addRule (Store.ofQuads quads) := by
  unfold BaseController.putEntity
  rcases hisolated : getPolicy env.toQueryEngine s.policies policyID clientID with e | isolated
  · rw [Async.run_bind_of_error (run_getEntity_refused run_getStore hisolated)]
    simp
  rw [Async.run_bind_of_ok (run_getEntity run_getStore hisolated)]
  show Async.run (liftM (env.parse data) >>= _) s = _ ↔ _
  by_cases hupload : ∃ quads, env.parse data = .ok quads ∧
      ValidUpload env.toQueryEngine (Store.ofQuads quads) clientID
  · obtain ⟨quads, hparse, hvalid⟩ := hupload
    rw [run_upload_valid _ hparse hvalid]
    have hrun : ∀ t : ControllerState, Async.run (do
        (policyController env memoryUCRulesStorage).store.addRule (Store.ofQuads quads)
        Async.yield
        return { status := 204 }) t =
          (Except.ok (⟨204, Store.empty, ""⟩ : ControllerResponse),
            t.addRule (Store.ofQuads quads)) := fun _ => rfl
    show Async.run (BaseController.deleteEntity _ _ _ >>= _) s = _ ↔ _
    rw [Async.run_bind_of_ok (run_deleteEntity hisolated),
      Async.run_bind_of_ok (Async.run_yield _), hrun]
    simp [hparse, hvalid, eq_comm, run_deleteEntity hisolated]
  · have hrefused : ∀ quads, env.parse data = .ok quads →
        ¬ ValidUpload env.toQueryEngine (Store.ofQuads quads) clientID :=
      fun quads hparse hvalid => hupload ⟨quads, hparse, hvalid⟩
    obtain ⟨e, hrun⟩ := run_upload_refused _ hrefused
    rw [hrun]
    constructor
    · exact fun h => by cases h
    · rintro ⟨_, quads, -, hparse, hvalid, -⟩
      exact absurd hvalid (hrefused quads hparse)

/-! ## PATCH -/

theorem run_sanitizePatch {σ : Type} {storage : UCRulesStorage σ} {t : σ} (isolated : Store)
    {update : String} :
    ((policyController env storage).sanitizePatch isolated policyID clientID update).run t =
      (patchPolicy env.toQueryEngine isolated clientID update, t) := by
  show Async.run (liftM (patchPolicy env.toQueryEngine isolated clientID update) >>= _) t = _
  rw [Async.run_bind, Async.run_lift]
  cases patchPolicy env.toQueryEngine isolated clientID update <;> rfl

/-- The isolated part is replaced by what the second isolation finds in the
updated part. -/
theorem patchEntity_ok {update : String} :
    ((policyController env memoryUCRulesStorage).patchEntity policyID update clientID true).run s =
        (.ok r, s') ↔
      ∃ isolated updated again,
        getPolicy env.toQueryEngine s.policies policyID clientID = .ok isolated ∧
        patchPolicy env.toQueryEngine isolated clientID update = .ok updated ∧
        getPolicy env.toQueryEngine updated policyID clientID = .ok again ∧
        r = { status := 204 } ∧
        s' = s.replace ((s.policies.difference isolated).addAll again) := by
  unfold BaseController.patchEntity
  rw [Async.run_bind_of_ok run_getStore, if_pos rfl]
  rcases hisolated : getPolicy env.toQueryEngine s.policies policyID clientID with e | isolated
  · rw [Async.run_bind_of_error ((run_sanitizeGet _).trans (by rw [hisolated]))]
    simp
  rw [Async.run_bind_of_ok ((run_sanitizeGet _).trans (by rw [hisolated])),
    Async.run_bind_of_ok (Async.run_yield _), Async.run_bind_of_ok run_getStore]
  rcases hpatch : patchPolicy env.toQueryEngine isolated clientID update with e | updated
  · rw [Async.run_bind_of_error ((run_sanitizePatch _).trans (by rw [hpatch]))]
    simp [hpatch]
  rw [Async.run_bind_of_ok ((run_sanitizePatch _).trans (by rw [hpatch])),
    Async.run_bind_of_ok (Async.run_yield _)]
  rcases hagain : getPolicy env.toQueryEngine updated policyID clientID with e | again
  · rw [Async.run_bind_of_error ((run_sanitizeGet _).trans (by rw [hagain]))]
    simp [hpatch, hagain]
  rw [Async.run_bind_of_ok ((run_sanitizeGet _).trans (by rw [hagain])),
    Async.run_bind_of_ok (Async.run_yield _), BaseController.run_writeBack _ rfl]
  simp [hpatch, hagain, eq_comm]

end PolicyController

end UserManagedAccess.Controller
