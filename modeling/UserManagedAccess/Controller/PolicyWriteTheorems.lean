/-
UserManagedAccess.Controller.PolicyWriteTheorems — when POST, PUT and PATCH are
all-or-nothing on a storage whose writes may fail.

The storage numbers the calls that write, and `faults` says which of them fail.
Every request ends in one of three ways: it is complete, it leaves the policies
alone and reports an error, or it is interrupted. There is a lemma
(`outcome_…`) for each place where a request can end, with the answer and the
state it leaves there.

* `allOrNothing_post_iff` — a POST does not await its one call, and so reports
  success when that fails;
* `allOrNothing_put_iff` — a PUT deletes with one call and adds with another;
* `allOrNothing_patch_iff` — a PATCH writes a difference back, in two calls of
  which one is left out when it has nothing to write;
* `allOrNothing_iff` — the three together, for every pattern of faults.

Nothing else runs meanwhile, and reading the store does not fail: it is the
writes that have to happen as a whole.
-/
import UserManagedAccess.Controller.PolicyWrites

namespace UserManagedAccess.Controller

open UserManagedAccess.Lib UserManagedAccess.Rdf UserManagedAccess.Util UserManagedAccess.Ucp

namespace PolicyWrite

variable {env : PolicyEnvironment} {faults : Nat → Option HttpError} {store : Store}
  {s : StorageState} {data policyID clientID update : String} {e : HttpError}

/-! ## Ways to end -/

theorem not_reportsSuccess_error : ¬ ReportsSuccess (.error e) := by
  rintro ⟨r, hr, -⟩
  cases hr

/-- No call failed, and the new state is written. -/
theorem AllOrNothing.of_complete {write : PolicyWrite} {new : Store}
    (hnew : NewState env store write new)
    (hcalls : ∀ k < (write.outcome env faults store).2.calls, faults k = none)
    (hpolicies : ∀ q, q ∈ (write.outcome env faults store).2.policies ↔ q ∈ new) :
    AllOrNothing env faults store write where
  success _ := ⟨new, hnew, hpolicies⟩
  failure := by
    rintro ⟨k, hk, hfails⟩
    exact absurd (hcalls k hk) hfails

/-- An error is reported, and the policies are those from before. -/
theorem AllOrNothing.of_untouched {write : PolicyWrite} {t : StorageState}
    (hout : write.outcome env faults store = (.error e, t))
    (hpolicies : ∀ q, q ∈ t.policies ↔ q ∈ store) : AllOrNothing env faults store write where
  success h := by
    rw [hout] at h
    exact absurd h not_reportsSuccess_error
  failure _ := by
    rw [hout]
    exact ⟨not_reportsSuccess_error, hpolicies⟩

/-- A quad is lost to a failed call. -/
theorem AllOrNothing.not_of_lost {write : PolicyWrite} {t : StorageState} {q : Quad}
    {answer : Except HttpError ControllerResponse}
    (hout : write.outcome env faults store = (answer, t)) (hfailed : CallFailed faults t)
    (hq : q ∈ store) (hlost : q ∉ t.policies) : ¬ AllOrNothing env faults store write := by
  intro h
  have hfailure := h.failure
  rw [hout] at hfailure
  exact hlost (((hfailure hfailed).2 q).mpr hq)

/-! ## POST -/

theorem run_getStore :
    ((policyController env (unreliableUCRulesStorage faults)).store.getStore).run s =
      (.ok s.policies, s) := rfl

theorem outcome_post_refused (faults : Nat → Option HttpError)
    (h : ∀ quads, env.parse data = .ok quads →
      ¬ Accepted env.toQueryEngine store (Store.ofQuads quads) clientID) :
    ∃ e, (post data clientID).outcome env faults store = (.error e, ⟨store, 0⟩) := by
  by_cases hupload : ∃ quads, env.parse data = .ok quads ∧
      ValidUpload env.toQueryEngine (Store.ofQuads quads) clientID
  · obtain ⟨quads, hparse, hvalid⟩ := hupload
    have hdefined : ¬ noAlreadyDefinedSubjects store (Store.ofQuads quads) = true :=
      fun hfresh => h quads hparse ⟨hvalid, noAlreadyDefinedSubjects_iff.mp hfresh⟩
    refine ⟨.conflict "", (PolicyController.run_upload_valid _ hparse hvalid).trans ?_⟩
    show Async.run (if noAlreadyDefinedSubjects store (Store.ofQuads quads) = true then _
      else _) _ = _
    rw [if_neg hdefined]
    rfl
  · exact PolicyController.run_upload_refused _
      fun quads hparse hvalid => hupload ⟨quads, hparse, hvalid⟩

/-- The answer does not depend on the call of the storage. -/
theorem outcome_post_accepted {quads : List Quad} (hparse : env.parse data = .ok quads)
    (haccepted : Accepted env.toQueryEngine store (Store.ofQuads quads) clientID) :
    (post data clientID).outcome env faults store = (.ok { status := 201 },
      ((attempt faults (fun policies => policies.addAll (Store.ofQuads quads))).run
        ⟨store, 0⟩).2) := by
  refine (PolicyController.run_upload_valid _ hparse haccepted.toValidUpload).trans ?_
  show Async.run (if noAlreadyDefinedSubjects store (Store.ofQuads quads) = true then
    Async.forget ((unreliableUCRulesStorage faults).addRule (Store.ofQuads quads)) >>=
      fun _ => pure (⟨201, Store.empty, ""⟩ : ControllerResponse)
    else throw (.conflict "")) _ = _
  rw [if_pos (noAlreadyDefinedSubjects_iff.mpr haccepted.fresh),
    Async.run_bind_of_ok (Async.run_forget _ _)]
  rfl

theorem outcome_post_failed {quads : List Quad} (hparse : env.parse data = .ok quads)
    (haccepted : Accepted env.toQueryEngine store (Store.ofQuads quads) clientID)
    (hadd : faults 0 = some e) :
    (post data clientID).outcome env faults store = (.ok { status := 201 }, ⟨store, 1⟩) := by
  rw [outcome_post_accepted hparse haccepted, run_attempt_failed hadd]
  rfl

theorem allOrNothing_post_iff :
    AllOrNothing env faults store (.post data clientID) ↔
      ¬ Interrupted env faults store (.post data clientID) := by
  by_cases haccepted : ∃ quads, env.parse data = .ok quads ∧
      Accepted env.toQueryEngine store (Store.ofQuads quads) clientID
  · obtain ⟨quads, hparse, haccepted⟩ := haccepted
    rcases hadd : faults 0 with _ | e
    · refine iff_of_true ?_ ?_
      · have hout : (post data clientID).outcome env faults store = _ :=
          (outcome_post_accepted hparse haccepted).trans (by rw [run_attempt_written hadd])
        refine .of_complete (.post hparse haccepted) ?_ ?_
        · rw [hout]
          intro k hk
          obtain rfl : k = 0 := Nat.lt_one_iff.mp hk
          exact hadd
        · rw [hout]
          exact fun _ => Iff.rfl
      · rintro ⟨-, -, hfails⟩
        exact hfails hadd
    · have hfails : faults 0 ≠ none := by simp [hadd]
      refine iff_of_false ?_ (not_not_intro (.post hparse haccepted hfails))
      intro h
      have hfailure := h.failure
      rw [outcome_post_failed hparse haccepted hadd] at hfailure
      exact (hfailure ⟨0, Nat.one_pos, hfails⟩).1 ⟨_, rfl, by decide⟩
  · refine iff_of_true ?_ ?_
    · obtain ⟨e, hout⟩ := outcome_post_refused faults
        (fun quads hparse h => haccepted ⟨quads, hparse, h⟩)
      exact .of_untouched hout (fun _ => Iff.rfl)
    · rintro ⟨hparse, h, -⟩
      exact haccepted ⟨_, hparse, h⟩

/-! ## PUT -/

section Isolated

variable {isolated : Store}

theorem run_deleteEntity_failed
    (hfound : getPolicy env.toQueryEngine s.policies policyID clientID = .ok isolated)
    (hremove : faults s.calls = some e) :
    ((policyController env (unreliableUCRulesStorage faults)).deleteEntity policyID clientID).run s =
      (.error e, s.failed) := by
  unfold BaseController.deleteEntity
  rw [Async.run_bind_of_ok run_getStore,
    Async.run_bind_of_ok (PolicyController.run_sanitizeDelete _ hfound)]
  show Async.run (attempt faults (fun policies => policies.difference (s.policies.difference
    (s.policies.difference isolated))) >>= _) s = _
  exact Async.run_bind_of_error (run_attempt_failed hremove) _

theorem run_deleteEntity_written
    (hfound : getPolicy env.toQueryEngine s.policies policyID clientID = .ok isolated)
    (hremove : faults s.calls = none) :
    ((policyController env (unreliableUCRulesStorage faults)).deleteEntity policyID clientID).run s =
      (.ok { status := 204 }, s.written (s.policies.difference isolated)) := by
  unfold BaseController.deleteEntity
  rw [Async.run_bind_of_ok run_getStore,
    Async.run_bind_of_ok (PolicyController.run_sanitizeDelete _ hfound)]
  show Async.run (attempt faults (fun policies => policies.difference (s.policies.difference
    (s.policies.difference isolated))) >>= _) s = _
  rw [Async.run_bind_of_ok (run_attempt_written hremove),
    Store.difference_difference_difference]
  rfl

/-- A policy that cannot be looked up is not replaced. -/
theorem outcome_put_not_found (faults : Nat → Option HttpError)
    (h : getPolicy env.toQueryEngine store policyID clientID = .error e) :
    (put data policyID clientID).outcome env faults store = (.error e, ⟨store, 0⟩) := by
  unfold outcome perform BaseController.putEntity
  exact Async.run_bind_of_error (PolicyController.run_getEntity_refused run_getStore h) _

theorem outcome_put_found
    (hfound : getPolicy env.toQueryEngine store policyID clientID = .ok isolated) :
    (put data policyID clientID).outcome env faults store =
      Async.run (liftM (env.parse data) >>= fun quads =>
        (policyController env (unreliableUCRulesStorage faults)).sanitizePost
            (Store.ofQuads quads) clientID >>= fun posted => do
          Async.yield
          let _ ← (policyController env (unreliableUCRulesStorage faults)).deleteEntity
            policyID clientID
          Async.yield
          attempt faults (fun policies => policies.addAll posted.1)
          Async.yield
          return { status := 204 }) ⟨store, 0⟩ := by
  unfold outcome perform BaseController.putEntity
  rw [Async.run_bind_of_ok (PolicyController.run_getEntity run_getStore hfound)]
  rfl

theorem outcome_put_refused (faults : Nat → Option HttpError)
    (hfound : getPolicy env.toQueryEngine store policyID clientID = .ok isolated)
    (h : ∀ quads, env.parse data = .ok quads →
      ¬ ValidUpload env.toQueryEngine (Store.ofQuads quads) clientID) :
    ∃ e, (put data policyID clientID).outcome env faults store = (.error e, ⟨store, 0⟩) := by
  rw [outcome_put_found hfound]
  exact PolicyController.run_upload_refused _ h

/-- A valid body: the deletion, then the call that adds it. -/
theorem outcome_put_valid
    (hfound : getPolicy env.toQueryEngine store policyID clientID = .ok isolated)
    {quads : List Quad} (hparse : env.parse data = .ok quads)
    (hvalid : ValidUpload env.toQueryEngine (Store.ofQuads quads) clientID) :
    (put data policyID clientID).outcome env faults store =
      Async.run (do
        let _ ← (policyController env (unreliableUCRulesStorage faults)).deleteEntity
          policyID clientID
        Async.yield
        attempt faults (fun policies => policies.addAll (Store.ofQuads quads))
        Async.yield
        return { status := 204 }) ⟨store, 0⟩ := by
  rw [outcome_put_found hfound]
  exact PolicyController.run_upload_valid _ hparse hvalid

theorem outcome_put_kept
    (hfound : getPolicy env.toQueryEngine store policyID clientID = .ok isolated)
    {quads : List Quad} (hparse : env.parse data = .ok quads)
    (hvalid : ValidUpload env.toQueryEngine (Store.ofQuads quads) clientID)
    (hremove : faults 0 = some e) :
    (put data policyID clientID).outcome env faults store = (.error e, ⟨store, 1⟩) := by
  have hdelete : ((policyController env (unreliableUCRulesStorage faults)).deleteEntity policyID
      clientID).run ⟨store, 0⟩ = (.error e, ⟨store, 1⟩) :=
    run_deleteEntity_failed hfound hremove
  rw [outcome_put_valid hfound hparse hvalid, Async.run_bind_of_error hdelete]

theorem outcome_put_deleted
    (hfound : getPolicy env.toQueryEngine store policyID clientID = .ok isolated)
    {quads : List Quad} (hparse : env.parse data = .ok quads)
    (hvalid : ValidUpload env.toQueryEngine (Store.ofQuads quads) clientID)
    (hremove : faults 0 = none) (hadd : faults 1 = some e) :
    (put data policyID clientID).outcome env faults store =
      (.error e, ⟨store.difference isolated, 2⟩) := by
  rw [outcome_put_valid hfound hparse hvalid,
    Async.run_bind_of_ok (run_deleteEntity_written (s := ⟨store, 0⟩) hfound hremove),
    Async.run_bind_of_ok (Async.run_yield _)]
  exact Async.run_bind_of_error (run_attempt_failed (s := ⟨_, 1⟩) hadd) _

theorem outcome_put_complete
    (hfound : getPolicy env.toQueryEngine store policyID clientID = .ok isolated)
    {quads : List Quad} (hparse : env.parse data = .ok quads)
    (hvalid : ValidUpload env.toQueryEngine (Store.ofQuads quads) clientID)
    (hremove : faults 0 = none) (hadd : faults 1 = none) :
    (put data policyID clientID).outcome env faults store = (.ok { status := 204 },
      ⟨(store.difference isolated).addAll (Store.ofQuads quads), 2⟩) := by
  rw [outcome_put_valid hfound hparse hvalid,
    Async.run_bind_of_ok (run_deleteEntity_written (s := ⟨store, 0⟩) hfound hremove),
    Async.run_bind_of_ok (Async.run_yield _)]
  exact Async.run_bind_of_ok (run_attempt_written (s := ⟨_, 1⟩) hadd) _

end Isolated

theorem allOrNothing_put_iff :
    AllOrNothing env faults store (.put data policyID clientID) ↔
      ¬ Interrupted env faults store (.put data policyID clientID) := by
  rcases hfound : getPolicy env.toQueryEngine store policyID clientID with e | isolated
  · refine iff_of_true (.of_untouched (outcome_put_not_found faults hfound) fun _ => Iff.rfl) ?_
    intro h
    cases h with
    | put hfound' =>
      rw [hfound] at hfound'
      cases hfound'
  by_cases hvalid : ∃ quads, env.parse data = .ok quads ∧
      ValidUpload env.toQueryEngine (Store.ofQuads quads) clientID
  swap
  · refine iff_of_true ?_ ?_
    · obtain ⟨e, hout⟩ := outcome_put_refused faults hfound
        (fun quads hparse h => hvalid ⟨quads, hparse, h⟩)
      exact .of_untouched hout (fun _ => Iff.rfl)
    · intro h
      cases h with
      | put _ hparse h => exact hvalid ⟨_, hparse, h⟩
  obtain ⟨quads, hparse, hvalid⟩ := hvalid
  rcases hremove : faults 0 with _ | e
  swap
  · refine iff_of_true
      (.of_untouched (outcome_put_kept hfound hparse hvalid hremove) fun _ => Iff.rfl) ?_
    intro h
    cases h with
    | put _ _ _ _ hremoved _ =>
      rw [hremove] at hremoved
      cases hremoved
  rcases hadd : faults 1 with _ | e
  · refine iff_of_true ?_ ?_
    · have hout := outcome_put_complete hfound hparse hvalid hremove hadd
      refine .of_complete (.put hfound hparse hvalid) ?_ ?_
      · rw [hout]
        intro k hk
        rcases Nat.lt_succ_iff_lt_or_eq.mp hk with hk | rfl
        · obtain rfl : k = 0 := Nat.lt_one_iff.mp hk
          exact hremove
        · exact hadd
      · rw [hout]
        exact fun _ => Iff.rfl
    · intro h
      cases h with
      | put _ _ _ _ _ hfails => exact hfails hadd
  have hfails : faults 1 ≠ none := by simp [hadd]
  have hout := outcome_put_deleted hfound hparse hvalid hremove hadd
  by_cases hold : ∃ old, old ∈ isolated
  · obtain ⟨old, hold⟩ := hold
    refine iff_of_false ?_ (not_not_intro (.put hfound hparse hvalid hold hremove hfails))
    refine AllOrNothing.not_of_lost hout ⟨1, Nat.one_lt_two, hfails⟩
      ((mem_getPolicy hfound).mp hold).1 ?_
    exact fun h => (Store.mem_difference.mp h).2 hold
  · refine iff_of_true (.of_untouched hout fun q => ?_) ?_
    · rw [Store.mem_difference]
      exact and_iff_left (fun hq => hold ⟨q, hq⟩)
    · intro h
      cases h with
      | put hfound' _ _ h =>
        obtain rfl := Except.ok.inj (hfound.symm.trans hfound')
        exact hold ⟨_, h⟩

/-! ## PATCH -/

/-- Writing `data`, unless there is none: what it answers and the state it
leaves. -/
inductive Tried (faults : Nat → Option HttpError) (update : Store → Store) (data : Store)
    (s : StorageState) : Except HttpError Unit → StorageState → Prop where
  | skipped (none : data = Store.empty) : Tried faults update data s (.ok ()) s
  | failed {q : Quad} {e : HttpError} (some : q ∈ data) (fails : faults s.calls = .some e) :
      Tried faults update data s (.error e) s.failed
  | written {q : Quad} (some : q ∈ data) (works : faults s.calls = .none) :
      Tried faults update data s (.ok ()) (s.written (update s.policies))

/-- One of the two writes of a difference. -/
def tryWrite (faults : Nat → Option HttpError) (update : Store → Store) (data : Store) :
    Async StorageState HttpError Unit :=
  if data.size > 0 then attempt faults update else pure ()

theorem tried_run (faults : Nat → Option HttpError) (update : Store → Store) (data : Store)
    (s : StorageState) :
    Tried faults update data s ((tryWrite faults update data).run s).1
      ((tryWrite faults update data).run s).2 := by
  unfold tryWrite
  by_cases hsome : data.size > 0
  · obtain ⟨q, hq⟩ := Store.size_pos_iff.mp hsome
    rw [if_pos hsome]
    rcases hcall : faults s.calls with _ | e
    · rw [run_attempt_written hcall]
      exact .written hq hcall
    · rw [run_attempt_failed hcall]
      exact .failed hq hcall
  · rw [if_neg hsome]
    exact .skipped (Store.eq_empty_of_size hsome)

/-- Writing a difference back is trying its two parts in order. -/
theorem run_writeBack (filteredStore : Store) :
    ((policyController env (unreliableUCRulesStorage faults)).writeBack filteredStore).run s =
      Async.run (do
        tryWrite faults (fun policies => policies.difference (s.policies.difference filteredStore))
          (s.policies.difference filteredStore)
        tryWrite faults (fun policies => policies.addAll (filteredStore.difference s.policies))
          (filteredStore.difference s.policies)
        return { status := 204 }) s := by
  unfold BaseController.writeBack tryWrite
  rw [Async.run_bind_of_ok run_getStore]
  by_cases hremove : (s.policies.difference filteredStore).size > 0 <;>
    by_cases hadd : (filteredStore.difference s.policies).size > 0 <;>
      simp [hremove, hadd, policyController, unreliableUCRulesStorage, Async.run_bind]

section Patches

variable {isolated updated again : Store}

theorem outcome_patch_not_found
    (h : getPolicy env.toQueryEngine store policyID clientID = .error e) :
    (patch policyID update clientID).outcome env faults store = (.error e, ⟨store, 0⟩) := by
  unfold outcome perform BaseController.patchEntity
  rw [Async.run_bind_of_ok run_getStore, if_pos rfl]
  exact Async.run_bind_of_error ((PolicyController.run_sanitizeGet _).trans (by rw [h])) _

theorem outcome_patch_refused
    (hfound : getPolicy env.toQueryEngine store policyID clientID = .ok isolated)
    (h : patchPolicy env.toQueryEngine isolated clientID update = .error e) :
    (patch policyID update clientID).outcome env faults store = (.error e, ⟨store, 0⟩) := by
  unfold outcome perform BaseController.patchEntity
  rw [Async.run_bind_of_ok run_getStore, if_pos rfl,
    Async.run_bind_of_ok ((PolicyController.run_sanitizeGet _).trans (by rw [hfound])),
    Async.run_bind_of_ok (Async.run_yield _), Async.run_bind_of_ok run_getStore]
  exact Async.run_bind_of_error ((PolicyController.run_sanitizePatch _).trans (by rw [h])) _

/-- The updated part cannot be looked up again. -/
theorem outcome_patch_lost
    (hfound : getPolicy env.toQueryEngine store policyID clientID = .ok isolated)
    (hpatch : patchPolicy env.toQueryEngine isolated clientID update = .ok updated)
    (h : getPolicy env.toQueryEngine updated policyID clientID = .error e) :
    (patch policyID update clientID).outcome env faults store = (.error e, ⟨store, 0⟩) := by
  unfold outcome perform BaseController.patchEntity
  rw [Async.run_bind_of_ok run_getStore, if_pos rfl,
    Async.run_bind_of_ok ((PolicyController.run_sanitizeGet _).trans (by rw [hfound])),
    Async.run_bind_of_ok (Async.run_yield _), Async.run_bind_of_ok run_getStore,
    Async.run_bind_of_ok ((PolicyController.run_sanitizePatch _).trans (by rw [hpatch])),
    Async.run_bind_of_ok (Async.run_yield _)]
  exact Async.run_bind_of_error ((PolicyController.run_sanitizeGet _).trans (by rw [h])) _

theorem outcome_patch_valid (faults : Nat → Option HttpError)
    (hfound : getPolicy env.toQueryEngine store policyID clientID = .ok isolated)
    (hpatch : patchPolicy env.toQueryEngine isolated clientID update = .ok updated)
    (hagain : getPolicy env.toQueryEngine updated policyID clientID = .ok again) :
    (patch policyID update clientID).outcome env faults store =
      ((policyController env (unreliableUCRulesStorage faults)).writeBack
        ((store.difference isolated).addAll again)).run ⟨store, 0⟩ := by
  unfold outcome perform BaseController.patchEntity
  rw [Async.run_bind_of_ok run_getStore, if_pos rfl,
    Async.run_bind_of_ok ((PolicyController.run_sanitizeGet _).trans (by rw [hfound])),
    Async.run_bind_of_ok (Async.run_yield _), Async.run_bind_of_ok run_getStore,
    Async.run_bind_of_ok ((PolicyController.run_sanitizePatch _).trans (by rw [hpatch])),
    Async.run_bind_of_ok (Async.run_yield _),
    Async.run_bind_of_ok ((PolicyController.run_sanitizeGet _).trans (by rw [hagain])),
    Async.run_bind_of_ok (Async.run_yield _)]

end Patches

/-- How writing `filteredStore` back over `store` ends: the first call fails,
or the second does after the first removed something, or all is written. -/
inductive WrittenBack (faults : Nat → Option HttpError) (store filteredStore : Store) :
    Except HttpError ControllerResponse × StorageState → Prop where
  | untouched {e : HttpError} (fails : faults 0 = some e) :
      WrittenBack faults store filteredStore (.error e, ⟨store, 1⟩)
  | half {e : HttpError} {old new : Quad} (oldGoes : old ∈ store ∧ old ∉ filteredStore)
      (newComes : new ∈ filteredStore ∧ new ∉ store) (works : faults 0 = none)
      (fails : faults 1 = some e) :
      WrittenBack faults store filteredStore
        (.error e, ⟨store.difference (store.difference filteredStore), 2⟩)
  | complete {t : StorageState} (works : ∀ k < t.calls, faults k = none)
      (both : ∀ old ∈ store, old ∉ filteredStore → ∀ new ∈ filteredStore, new ∉ store → 1 < t.calls)
      (mem : ∀ q, q ∈ t.policies ↔ q ∈ filteredStore) :
      WrittenBack faults store filteredStore (.ok { status := 204 }, t)

/-- A store changes by its difference to another one, or by none of it when
there is none. -/
theorem writtenBack_writeBack (env : PolicyEnvironment) (faults : Nat → Option HttpError)
    (store filteredStore : Store) :
    WrittenBack faults store filteredStore
      (((policyController env (unreliableUCRulesStorage faults)).writeBack filteredStore).run
        ⟨store, 0⟩) := by
  rw [run_writeBack]
  have hmem : ∀ q, q ∈ (store.difference (store.difference filteredStore)).addAll
      (filteredStore.difference store) ↔ q ∈ filteredStore := fun _ => Store.mem_replaced
  have hfirst := tried_run faults
    (fun policies => policies.difference (store.difference filteredStore))
    (store.difference filteredStore) ⟨store, 0⟩
  have hsecond := tried_run faults
    (fun policies => policies.addAll (filteredStore.difference store))
    (filteredStore.difference store)
  revert hfirst
  rcases hremove : (tryWrite faults (fun policies => policies.difference
    (store.difference filteredStore)) (store.difference filteredStore)).run ⟨store, 0⟩ with ⟨r, t⟩
  intro hfirst
  replace hsecond := hsecond t
  revert hsecond
  rcases hadd : (tryWrite faults (fun policies => policies.addAll
    (filteredStore.difference store)) (filteredStore.difference store)).run t with ⟨r', t'⟩
  intro hsecond
  cases hfirst with
  | failed _ hfails =>
    rw [Async.run_bind_of_error hremove]
    exact .untouched hfails
  | skipped hnone =>
    rw [Async.run_bind_of_ok hremove]
    rw [hnone, Store.difference_empty] at hmem
    cases hsecond with
    | failed _ hfails =>
      rw [Async.run_bind_of_error hadd]
      exact .untouched hfails
    | skipped hnone' =>
      rw [Async.run_bind_of_ok hadd]
      rw [hnone', Store.addAll_empty] at hmem
      exact .complete (fun k hk => absurd hk (Nat.not_lt_zero k))
        (fun old hold hgoes => absurd (Store.mem_of_difference_empty hnone hold) hgoes) hmem
    | written _ hworks =>
      rw [Async.run_bind_of_ok hadd]
      exact .complete (fun k hk => Nat.lt_one_iff.mp hk ▸ hworks)
        (fun old hold hgoes => absurd (Store.mem_of_difference_empty hnone hold) hgoes) hmem
  | written hold hworks =>
    rw [Async.run_bind_of_ok hremove]
    cases hsecond with
    | failed hnew hfails =>
      rw [Async.run_bind_of_error hadd]
      exact .half (Store.mem_difference.mp hold) (Store.mem_difference.mp hnew) hworks hfails
    | skipped hnone' =>
      rw [Async.run_bind_of_ok hadd]
      rw [hnone', Store.addAll_empty] at hmem
      exact .complete (fun k hk => Nat.lt_one_iff.mp hk ▸ hworks)
        (fun _ _ _ new hnew hcomes =>
          absurd (Store.mem_of_difference_empty hnone' hnew) hcomes) hmem
    | written _ hworks' =>
      rw [Async.run_bind_of_ok hadd]
      refine .complete (fun k hk => ?_) (fun _ _ _ _ _ _ => Nat.one_lt_two) hmem
      rcases Nat.lt_succ_iff_lt_or_eq.mp hk with hk | rfl
      · exact Nat.lt_one_iff.mp hk ▸ hworks
      · exact hworks'

/-- What goes when a part of a store is replaced. -/
theorem replaced_goes {part new : Store} {q : Quad} (hpart : ∀ q ∈ part, q ∈ store) :
    (q ∈ store ∧ q ∉ (store.difference part).addAll new) ↔ q ∈ part ∧ q ∉ new := by
  simp only [Store.mem_addAll, Store.mem_difference]
  constructor
  · rintro ⟨hstored, hgone⟩
    by_cases hq : q ∈ part
    · exact ⟨hq, fun hnew => hgone (Or.inr hnew)⟩
    · exact absurd (Or.inl ⟨hstored, hq⟩) hgone
  · rintro ⟨hq, hnew⟩
    exact ⟨hpart q hq, fun h => h.elim (fun h => h.2 hq) hnew⟩

/-- What comes then. -/
theorem replaced_comes {part new : Store} {q : Quad} :
    (q ∈ (store.difference part).addAll new ∧ q ∉ store) ↔ q ∈ new ∧ q ∉ store := by
  simp only [Store.mem_addAll, Store.mem_difference]
  constructor
  · rintro ⟨hq | hq, hnot⟩
    · exact absurd hq.1 hnot
    · exact ⟨hq, hnot⟩
  · rintro ⟨hq, hnot⟩
    exact ⟨Or.inr hq, hnot⟩

theorem allOrNothing_patch_iff :
    AllOrNothing env faults store (.patch policyID update clientID) ↔
      ¬ Interrupted env faults store (.patch policyID update clientID) := by
  rcases hfound : getPolicy env.toQueryEngine store policyID clientID with e | isolated
  · refine iff_of_true (.of_untouched (outcome_patch_not_found hfound) fun _ => Iff.rfl) ?_
    intro h
    cases h with
    | patch hfound' =>
      rw [hfound] at hfound'
      cases hfound'
  rcases hpatch : patchPolicy env.toQueryEngine isolated clientID update with e | updated
  · refine iff_of_true (.of_untouched (outcome_patch_refused hfound hpatch) fun _ => Iff.rfl) ?_
    intro h
    cases h with
    | patch hfound' hpatched =>
      obtain rfl := Except.ok.inj (hfound.symm.trans hfound')
      rw [hpatch] at hpatched
      cases hpatched
  rcases hagain : getPolicy env.toQueryEngine updated policyID clientID with e | again
  · refine iff_of_true
      (.of_untouched (outcome_patch_lost hfound hpatch hagain) fun _ => Iff.rfl) ?_
    intro h
    cases h with
    | patch hfound' hpatched hagain' =>
      obtain rfl := Except.ok.inj (hfound.symm.trans hfound')
      obtain rfl := Except.ok.inj (hpatch.symm.trans hpatched)
      rw [hagain] at hagain'
      cases hagain'
  have hout := outcome_patch_valid faults hfound hpatch hagain
  have hback := writtenBack_writeBack env faults store ((store.difference isolated).addAll again)
  rw [← hout] at hback
  have hgoes : ∀ old, (old ∈ store ∧ old ∉ (store.difference isolated).addAll again) ↔
      old ∈ isolated ∧ old ∉ again :=
    fun old => replaced_goes fun q hq => ((mem_getPolicy hfound).mp hq).1
  have hcomes : ∀ new, (new ∈ (store.difference isolated).addAll again ∧ new ∉ store) ↔
      new ∈ again ∧ new ∉ store := fun new => replaced_comes
  clear hout
  revert hback
  rcases hout : (patch policyID update clientID).outcome env faults store with ⟨r, t⟩
  intro hback
  cases hback with
  | untouched hfails =>
    refine iff_of_true (.of_untouched hout fun _ => Iff.rfl) ?_
    intro h
    cases h with
    | patch _ _ _ _ _ _ _ hremoved _ =>
      rw [hfails] at hremoved
      cases hremoved
  | half hold hnew hworks hfails =>
    have hfailed : faults 1 ≠ none := by simp [hfails]
    obtain ⟨hisOld, hgone⟩ := (hgoes _).mp hold
    obtain ⟨hisNew, hcome⟩ := (hcomes _).mp hnew
    refine iff_of_false ?_
      (not_not_intro (.patch hfound hpatch hagain hisOld hgone hisNew hcome hworks hfailed))
    refine AllOrNothing.not_of_lost hout ⟨1, Nat.one_lt_two, hfailed⟩ hold.1 ?_
    exact fun h => (Store.mem_difference.mp h).2 (Store.mem_difference.mpr hold)
  | complete hworks hboth hmem =>
    refine iff_of_true
      (.of_complete (.patch hfound hpatch hagain) (by rwa [hout]) (by rwa [hout])) ?_
    intro h
    cases h with
    | patch hfound' hpatched hagain' hisOld hgone hisNew hcome _ hfails =>
      obtain rfl := Except.ok.inj (hfound.symm.trans hfound')
      obtain rfl := Except.ok.inj (hpatch.symm.trans hpatched)
      obtain rfl := Except.ok.inj (hagain.symm.trans hagain')
      obtain ⟨hstored, hgoes⟩ := (hgoes _).mpr ⟨hisOld, hgone⟩
      obtain ⟨hnew, hcomes⟩ := (hcomes _).mpr ⟨hisNew, hcome⟩
      exact hfails (hworks 1 (hboth _ hstored hgoes _ hnew hcomes))

/-! ## All of them -/

/-- A request is all-or-nothing on every storage that does not interrupt it,
and on no other. -/
theorem allOrNothing_iff (env : PolicyEnvironment) (faults : Nat → Option HttpError)
    (store : Store) (write : PolicyWrite) :
    AllOrNothing env faults store write ↔ ¬ Interrupted env faults store write := by
  cases write with
  | post data clientID => exact allOrNothing_post_iff
  | put data policyID clientID => exact allOrNothing_put_iff
  | patch policyID update clientID => exact allOrNothing_patch_iff

/-- A policy of Alice with one permission. -/
def policyOfAlice : List Quad :=
  let policy := Term.namedNode "http://example.org/policy"
  let permission := Term.namedNode "http://example.org/permission"
  [quad policy RDF.type ODRL.Set, quad policy ODRL.uid policy,
    quad policy ODRL.permission permission,
    quad permission RDF.type ODRL.Permission, quad permission ODRL.action ODRL.read,
    quad permission ODRL.target (.namedNode "http://example.org/resource"),
    quad permission ODRL.assigner (.namedNode "http://example.org/alice")]

theorem accepted_policyOfAlice (engine : QueryEngine) :
    Accepted engine Store.empty (Store.ofQuads policyOfAlice) "http://example.org/alice" where
  assigner := by decide
  matched := creationBindings_of_pattern (by decide) (by decide)
  fresh _ _ := by
    rintro ⟨q, hq, -⟩
    exact Store.not_mem_empty q hq

/-- Alice's POST is answered with 201 while the storage refuses the policy. -/
theorem posted_not_stored : ¬ ∀ env faults store write, AllOrNothing env faults store write := by
  intro hclaim
  let env := fixedEnvironment policyOfAlice id
  let faults : Nat → Option HttpError := fun _ => some (.error "Could not add rule to the storage")
  have hfailure := (hclaim env faults Store.empty (.post "" "http://example.org/alice")).failure
  rw [outcome_post_failed rfl (accepted_policyOfAlice _) rfl] at hfailure
  have hfailed : CallFailed faults ⟨Store.empty, 1⟩ := ⟨0, Nat.one_pos, Option.some_ne_none _⟩
  exact (hfailure hfailed).1 ⟨_, rfl, by decide⟩

end PolicyWrite

end UserManagedAccess.Controller
