/-
UserManagedAccess.Css.UmaClientTheorems — what holds wherever runs of the
client lead.

- `registrations_exclusive`: at most one registration of a resource is in
  flight, whatever fails, and at most one `POST` is sent where nothing fails and
  no id is empty. `nameless_posted_twice`: an empty id brings on a second one.
- `marks_released`: where nothing fails, a signal is in `inProgress` only while
  a call that put it there has not settled. `mark_left`: a failure leaves it.
- `children_linked`: where nothing fails, the last request of a resource names
  the id of its parent, once all calls have settled.

## How the proofs go

A run of the client is simulated by moves of a ledger, which keeps for each call
the signal it holds, the calls it waits for and the resource it still has to
register (`Css.Simulation`). What the moves keep is proved of the ledger:
`Exclusive` of any move, `Owned`, `Accounted`, `Asked` and `Linked` of moves in
which nothing fails, and `Identified` of those in which no id is empty either.
`accountable_of_runs` puts them together, and each result below is read off the
ledger of the world that is reached.

## What is taken for granted

`Runs setting .any` takes nothing for granted, so any operation can fail.
`Runs setting .successful` has no failure in a call that can hold a signal, and
every `POST` that is answered 201 brings a string. `Runs setting .withIds` leaves
out the empty string among those: the client accepts it (`isString`), stores it,
and then takes the resource for one that has no id.
-/
import UserManagedAccess.Css.Simulation

namespace UserManagedAccess.Css.UmaClient

open UserManagedAccess.Lib UserManagedAccess.Util UserManagedAccess.Views
open Duties

variable {setting : ClientSetting} {o : Outcomes setting} {umaIdStore : KeyValueStorage String String}
  {w : World platform}

/-! ## The ledger of a run -/

/-- A ledger that accounts for the client, and what its moves have kept. -/
structure Accountable {setting : ClientSetting} (o : Outcomes setting) (w : World platform)
    (L : Ledger) :
    Prop where
  conforms : Conforms o w L
  exclusive : L.Exclusive
  owned : o.reliable → L.Owned
  accounted : o.reliable → Ledger.Accounted L.entered L.duties
  identified : o.identified → L.Identified
  asked : o.reliable → L.Asked
  linked : o.reliable → L.Linked setting

def newLedger (umaIdStore : KeyValueStorage String String) : Ledger :=
  { inProgress := ∅, ids := umaIdStore.get }

theorem tasksConform_newClient :
    TasksConform o (newClient umaIdStore).tasks (newLedger umaIdStore).duties 0 [] [] where
  bound i := by simp [newClient]
  obeys i task htask := by simp [newClient] at htask
  owed i j hj := by simp [newLedger] at hj
  known _ j task htask := by simp [newClient] at htask
  called i hi := by simp at hi

theorem accountable_newClient : Accountable o (newClient umaIdStore) (newLedger umaIdStore) where
  conforms := ⟨rfl, rfl, rfl, rfl, rfl, tasksConform_newClient⟩
  exclusive := by
    refine ⟨fun _ _ => rfl, fun i s hi => ?_, fun i j s hi => ?_⟩
    · simp [Ledger.held, newLedger] at hi
    · simp [Ledger.held, newLedger] at hi
  owned _ := by simp [Ledger.Owned, newLedger]
  accounted _ i h hhold := by simp [newLedger] at hhold
  identified _ := by
    refine ⟨fun i path phase hi => ?_, fun path => ?_, fun path hpath => ?_⟩
    · simp [Ledger.stage, newLedger] at hi
    · simp [Ledger.posts, newLedger]
    · simp [Ledger.posts, newLedger] at hpath
  asked _ i path phase hi := by simp [Ledger.stage, newLedger] at hi
  linked _ := by
    refine ⟨fun i h path hhold => ?_, fun i path id hx => ?_, fun path request hlast => ?_, ?_⟩
    · simp [newLedger] at hhold
    · simp [newLedger] at hx
    · simp [Ledger.lastRequest, newLedger] at hlast
    · simp [newLedger]

theorem Accountable.move {w' : World platform} {L L' : Ledger} (h : Accountable o w L)
    (hmove : Ledger.Moves o L L') (hconforms : Conforms o w' L') : Accountable o w' L' where
  conforms := hconforms
  exclusive := h.exclusive.step hmove
  owned ho := (h.owned ho).step h.exclusive.fresh hmove
  accounted ho := (h.accounted ho).step ho h.exclusive.fresh hmove
  identified ho := (h.identified ho).step h.exclusive ho hmove
  asked ho := (h.asked ho).step h.exclusive ho hmove
  linked ho := (h.linked ho).step h.exclusive (h.asked ho) ho hmove

theorem accountable_step {w' : World platform} {L : Ledger} {e : LoopEvent platform}
    (h : Accountable o w L) (hexpected : Expected o w e)
    (hstep : (system setting).step w e = some w') :
    ∃ L', Ledger.Moves o L L' ∧ Accountable o w' L' := by
  obtain ⟨L', hmove, hconforms⟩ := conforms_step h.conforms h.exclusive hexpected hstep
  exact ⟨L', hmove, h.move hmove hconforms⟩

theorem accountable_of_runs (h : Runs setting o umaIdStore w) : ∃ L, Accountable o w L :=
  h.invariant (fun w => ∃ L, Accountable o w L) ⟨_, accountable_newClient⟩
    fun _ _ _ ⟨_, hL⟩ hexpected hstep =>
      (accountable_step hL hexpected hstep).imp fun _ => And.right

/-! ## A small tree

A container and its members, and a server that is there or not. -/

def tree : ClientSetting where
  clock n := n
  joinUrl base rest := base ++ rest
  isRootContainer path := path = "/"
  getParentContainer _ := "/"
  toUmaScope mode := .ok mode

def metadata : Json :=
  .object [("issuer", .string "as"), ("jwks_uri", .string "as/keys"),
    ("permission_endpoint", .string "as/ticket"), ("introspection_endpoint", .string "as/introspect"),
    ("resource_registration_endpoint", .string "as/resources/"),
    ("token_endpoint", .string "as/token")]

/-- Every operation succeeds, and a resource gets the id `name` has for it. -/
def answering (name : String → String) (s : ClientState) : (op : Op) → OpReply op
  | .fetch (.config _) => .ok ⟨200, some metadata⟩
  | .fetch (.token ..) =>
    .ok ⟨201, some (.object [("token_type", .string "Bearer"), ("access_token", .string "pat")])⟩
  | .fetch (.resource request) =>
    if request.update then .ok ⟨200, none⟩
    else .ok ⟨201, some (.object [("_id", .string (name request.path))])⟩
  | .fetch _ => .ok ⟨204, none⟩
  | .json _ => .ok ()
  | .text _ => .ok ""
  | .getId path => .ok (s.umaIdStore.get path)
  | .setId .. => .ok ()
  | .hasResource _ => .ok true
  | .tick => ()

def succeeding : ClientState → (op : Op) → OpReply op := answering fun path => "id:" ++ path

def unreachable (s : ClientState) : (op : Op) → OpReply op
  | .fetch _ => .error (.error "fetch failed")
  | op => succeeding s op

theorem succeeds_answering {name : String → String}
    (hvalid : o.identified → ∀ path, o.valid path (name path)) (s : ClientState) (op : Op) :
    Succeeds o op (answering name s op) := by
  cases op with
  | fetch request =>
    cases request with
    | config url => exact ⟨_, metadata, rfl, by decide, rfl, by decide⟩
    | token endpoint credentials => exact ⟨_, _, rfl, rfl, rfl, rfl⟩
    | resource request =>
      cases hupdate : request.update with
      | true =>
        refine ⟨⟨200, none⟩, by simp [answering, hupdate], ?_⟩
        rw [if_pos hupdate]
      | false =>
        refine ⟨_, by simp only [answering, hupdate]; rfl, ?_⟩
        rw [if_neg (by simp [hupdate])]
        exact ⟨rfl, _, name request.path, rfl, rfl, rfl, fun ho => hvalid ho _⟩
    | unregister issuer umaId url pat => exact ⟨_, rfl⟩
    | permission endpoint pat body => exact ⟨_, rfl⟩
  | json | setId => rfl
  | text | getId | hasResource => exact ⟨_, rfl⟩
  | tick => trivial

theorem succeeds_succeeding (hvalid : ∀ path, o.valid path ("id:" ++ path)) (s : ClientState)
    (op : Op) : Succeeds o op (succeeding s op) := succeeds_answering (fun _ => hvalid) s op

/-- A call that comes in first, and all that follows from it. -/
def runOf (replies : ClientState → (op : Op) → OpReply op) (call : Call) (n : Nat) : World platform :=
  (system tree).drain (P := platform) replies n
    { (newClient KeyValueStorage.empty).push call (program tree call) with calls := [0] }

theorem runs_runOf {o : Outcomes tree} {replies : ClientState → (op : Op) → OpReply op}
    {call : Call} {n : Nat} (hpermitted : call.Permitted o)
    (hreplies : ∀ marks s op, Trusted o marks → Succeeds o op (replies s op)) :
    Runs tree o KeyValueStorage.empty (runOf replies call n) := by
  have hcall : (system tree).Reachable (Expected o) (newClient KeyValueStorage.empty)
      { (newClient KeyValueStorage.empty).push call (program tree call) with calls := [0] } :=
    .step (e := .call (P := platform) call) .start hpermitted rfl
  refine System.reachable_drain (fun w e he => ?_) hcall n
  rcases System.nextEvent_cases he with rfl | ⟨i, rfl⟩ | ⟨i, rfl⟩
  · trivial
  · exact fun call op next _ ht => hreplies _ w.state op ht
  · trivial

theorem settled_of_isSettled {i : Nat}
    (h : (w.tasks i).any (fun task => isSettled task.status) = true) : w.settled i := by
  cases htask : w.tasks i with
  | none => simp [htask] at h
  | some task =>
    obtain ⟨call, status⟩ := task
    cases status with
    | settled result => exact ⟨call, result, htask⟩
    | running | awaiting | listening | joining | ready => simp [htask, isSettled] at h

/-! ## Exclusion -/

/-- A request that registers the resource, or updates it, is not answered yet. -/
def InFlight (w : World platform) (i : Nat) (path : String) : Prop :=
  ∃ call request next, w.tasks i = some ⟨call, .awaiting (.fetch (.resource request)) next⟩ ∧
    request.path = path

theorem held_of_inFlight {L : Ledger} {i : Nat} {path : String} (h : Conforms o w L)
    (hflight : InFlight w i path) : L.held i = some (.resource path) := by
  obtain ⟨call, request, next, htask, rfl⟩ := hflight
  obtain ⟨d₀, hsent, ⟨hold, hmay⟩, -⟩ := h.tasks.obeys i _ htask
  have hstill : ∃ hold', (L.duties i).hold = some hold' ∧ hold'.signal = hold.signal := by
    rw [hsent]
    cases hupdate : request.update with
    | true => exact ⟨hold, by simp [sent, hupdate, hmay.hold], rfl⟩
    | false => exact ⟨{ hold with phase := .posting }, by simp [sent, hupdate, hmay.hold], rfl⟩
  obtain ⟨hold', hhold, hsignal⟩ := hstill
  rw [Ledger.held_eq_some hhold, hsignal, hmay.signal]

theorem registrations_exclusive (h : Runs setting .any umaIdStore w) :
    (∀ i j path, InFlight w i path → InFlight w j path → i = j) ∧
    (Runs setting .withIds umaIdStore w →
      ∀ path, ((requestsOf w.log).filter (Ledger.isPost path)).length ≤ 1) := by
  refine ⟨fun i j path hi hj => ?_, fun hrun path => ?_⟩
  · obtain ⟨L, hL⟩ := accountable_of_runs h
    exact hL.exclusive.unique i j _ (held_of_inFlight hL.conforms hi) (held_of_inFlight hL.conforms hj)
  · obtain ⟨L, hL⟩ := accountable_of_runs hrun
    rw [← hL.conforms.requests]
    exact (hL.identified trivial).posts path

/-- A member of the container is registered, and with it the container. -/
def registration (n : Nat) : World platform :=
  runOf succeeding (.registerResource "/a" "as" "me") n

theorem runs_registration {o : Outcomes tree} (hregisters : o.registers "/a" "as")
    (hvalid : ∀ path, o.valid path ("id:" ++ path)) (n : Nat) :
    Runs tree o KeyValueStorage.empty (registration n) :=
  runs_runOf hregisters fun _ s op _ => succeeds_succeeding hvalid s op

theorem runs_registration_any (n : Nat) : Runs tree .any KeyValueStorage.empty (registration n) :=
  runs_registration trivial (fun path => by simp [Outcomes.any]) n

theorem runs_registration_successful (n : Nat) :
    Runs tree .successful KeyValueStorage.empty (registration n) :=
  runs_registration trivial (fun path => by simp [Outcomes.successful]) n

theorem runs_registration_withIds (n : Nat) :
    Runs tree .withIds KeyValueStorage.empty (registration n) :=
  runs_registration trivial (fun path => by simp [Outcomes.withIds]) n

theorem registration_exclusive :
    (∀ i j path, InFlight (registration 30) i path → InFlight (registration 30) j path → i = j) ∧
    ∀ path, ((requestsOf (registration 30).log).filter (Ledger.isPost path)).length ≤ 1 :=
  ⟨(registrations_exclusive (runs_registration_any 30)).1,
    (registrations_exclusive (runs_registration_any 30)).2 (runs_registration_withIds 30)⟩

/-- The server names no resource. -/
def nameless : World platform :=
  runOf (answering fun _ => "") (.registerResource "/a" "as" "me") 200

/-- **A path can be posted twice** although nothing fails: the empty id of the
container is read as none when its member is to be linked. -/
theorem nameless_posted_twice : Runs tree .successful KeyValueStorage.empty nameless ∧
    ¬ ∀ path, ((requestsOf nameless.log).filter (Ledger.isPost path)).length ≤ 1 := by
  refine ⟨runs_runOf trivial fun _ s op _ => succeeds_answering False.elim s op, fun hposts => ?_⟩
  exact absurd (hposts "/") (by decide +kernel)

/-! ## Releasing marks -/

/-- A signal is in `inProgress` only while a call that put it there has not
settled. -/
def MarksReleased (w : World platform) : Prop :=
  ∀ signal, (∀ i, (i, signal) ∈ enteredOf w.log → w.settled i) → signal ∉ w.state.inProgress

theorem Conforms.blank_of_settled {L : Ledger} {i : Nat} (h : Conforms o w L)
    (ho : o.reliable) (hsettled : w.settled i) : Blank (L.duties i) := by
  obtain ⟨call, result, htask⟩ := hsettled
  exact h.tasks.duties_of_settled ho htask rfl

theorem marks_released (h : Runs setting .successful umaIdStore w) : MarksReleased w := by
  intro signal hsettled hin
  obtain ⟨L, hL⟩ := accountable_of_runs h
  have ho : (Outcomes.successful : Outcomes setting).reliable := trivial
  rw [← hL.conforms.entered] at hsettled
  obtain ⟨i, hi⟩ := hL.owned ho signal (hL.conforms.inProgress ▸ hin)
  obtain ⟨hold, hhold, rfl⟩ := Option.map_eq_some_iff.mp hi
  have haccounts := hL.accounted ho i hold hhold
  unfold Ledger.Accounts at haccounts
  split at haccounts
  case isTrue =>
    have hblank := hL.conforms.blank_of_settled ho (hsettled i haccounts)
    simp [hblank.hold] at hhold
  case isFalse =>
    obtain ⟨k, hk, howes⟩ := haccounts
    have hblank := hL.conforms.blank_of_settled ho (hsettled k hk)
    simp [hblank.owes] at howes

theorem registration_released : MarksReleased (registration 300) :=
  marks_released (runs_registration_successful 300)

/-- The configuration cannot be fetched. -/
def abandoned : World platform := runOf unreachable (.registerResource "/a" "as" "me") 10

/-- **The mark stays** although the call that put it there has settled. -/
theorem mark_left : Runs tree .any KeyValueStorage.empty abandoned ∧ ¬ MarksReleased abandoned := by
  refine ⟨runs_runOf trivial fun _ _ _ ht => ht.1.elim, fun hreleased => ?_⟩
  have hentered : enteredOf abandoned.log = [(0, .resource "/a")] := by decide +kernel
  have hin : Signal.resource "/a" ∈ abandoned.state.inProgress := by decide +kernel
  refine hreleased (.resource "/a") (fun i hi => ?_) hin
  rw [hentered] at hi
  obtain rfl : i = 0 := by simpa using hi
  exact settled_of_isSettled (by decide +kernel)

/-! ## Linking children -/

/-- Where nothing fails, no call is left once those from outside have settled. -/
theorem settled_of_calls {L : Ledger} (h : Conforms o w L) (ho : o.reliable)
    (hcalls : ∀ i ∈ w.calls, w.settled i) {i : Nat} (hi : i < w.count) : w.settled i := by
  induction i using Nat.strong_induction_on with
  | _ i ih =>
    obtain ⟨task, htask⟩ := Option.isSome_iff_exists.mp ((h.tasks.bound i).mpr hi)
    rcases h.tasks.known ho i task htask with hcall | hsettled | ⟨k, hk⟩
    · exact hcalls i hcall
    · obtain ⟨call, status⟩ := task
      cases status with
      | settled result => exact ⟨call, result, htask⟩
      | running | awaiting | listening | joining | ready => cases hsettled
    · have hlt := (h.tasks.owed k i hk).1
      have hblank := h.blank_of_settled ho (ih k hlt (by omega))
      simp [hblank.owes] at hk

theorem children_linked (h : Runs setting .successful umaIdStore w)
    (hcalls : ∀ i ∈ w.calls, w.settled i) :
    (∀ i ∈ w.calls, ∀ task path issuer credentials, w.tasks i = some task →
      task.call = .registerResource path issuer credentials →
      (Ledger.lastRequest (requestsOf w.log) path).isSome) ∧
    (∀ path request, Ledger.lastRequest (requestsOf w.log) path = some request →
      setting.isRootContainer path = false →
      ∃ parentId, truthy (w.state.umaIdStore.get (setting.getParentContainer path)) = some parentId ∧
        request.description.resourceRelations = some (containedIn parentId)) := by
  obtain ⟨L, hL⟩ := accountable_of_runs h
  have ho : (Outcomes.successful : Outcomes setting).reliable := trivial
  have hlinked := hL.linked trivial
  have hpaid : ∀ path, ¬ Ledger.Owed L.duties path := by
    rintro path ⟨j, hj⟩
    by_cases hlt : j < w.count
    · have hblank := hL.conforms.blank_of_settled ho (settled_of_calls hL.conforms ho hcalls hlt)
      simp [hblank.debt] at hj
    · rw [hL.exclusive.fresh j (by rw [hL.conforms.count]; omega)] at hj
      cases hj
  rw [← hL.conforms.requests]
  refine ⟨fun i hi task path issuer credentials htask hcall => ?_, fun path request hlast hroot => ?_⟩
  · obtain ⟨task', htask', hcalled⟩ := hL.conforms.tasks.called i hi
    cases htask.symm.trans htask'
    exact (hlinked.called path (hcalled path issuer credentials hcall)).resolve_left (hpaid path)
  · have hrelated := hlinked.last path request hlast
    cases Ledger.path_of_lastRequest hlast
    unfold Ledger.RelatedNow at hrelated
    cases hrelations : request.description.resourceRelations with
    | none =>
      rw [hrelations] at hrelated
      rcases hrelated with hroot' | howed
      · rw [hroot] at hroot'
        cases hroot'
      · exact absurd howed (hpaid _)
    | some relations =>
      rw [hrelations] at hrelated
      obtain ⟨id, rfl, hid⟩ := hrelated
      exact ⟨id, by rw [← hL.conforms.ids]; exact hid, rfl⟩

theorem registration_linked : (Ledger.lastRequest (requestsOf (registration 300).log) "/a").isSome ∧
    ∀ path request, Ledger.lastRequest (requestsOf (registration 300).log) path = some request →
      tree.isRootContainer path = false →
      ∃ parentId, truthy ((registration 300).state.umaIdStore.get (tree.getParentContainer path)) =
        some parentId ∧ request.description.resourceRelations = some (containedIn parentId) := by
  have hcalls : (registration 300).calls = [0] := by decide +kernel
  have hsettled : ∀ i ∈ (registration 300).calls, (registration 300).settled i := by
    intro i hi
    rw [hcalls] at hi
    obtain rfl : i = 0 := by simpa using hi
    exact settled_of_isSettled (by decide +kernel)
  obtain ⟨hcalled, hlinked⟩ := children_linked (runs_registration_successful 300) hsettled
  exact ⟨by decide +kernel, hlinked⟩

end UserManagedAccess.Css.UmaClient
