/-
UserManagedAccess.Css.ClientRuns — runs of a client, and what they keep.

Calls come in at any time, and operations are answered in any order, with any
outcome or with success for all calls that may hold a signal. `Conforms` says
that a ledger accounts for a client: each task does what its duties are.
`conforms_step` simulates a step of the client by a move of the ledger.
-/
import UserManagedAccess.Css.DutiesTheorems
import UserManagedAccess.Css.Registrations

namespace UserManagedAccess.Css.UmaClient

open UserManagedAccess.Lib UserManagedAccess.Util UserManagedAccess.Views
open Duties

/-! ## Runs -/

/-- The calls that others may make. -/
def Call.Permitted {setting : ClientSetting} (o : Outcomes setting) : Call → Prop
  | .getPat .. => True
  | .fetchTicket permissions issuer _ => ∀ entry ∈ permissions, o.registers entry.1 issuer
  | .registerResource path issuer _ => o.registers path issuer
  | .deleteResource .. => True
  | .registerAfterParent .. => False
  | .sendRegistration _ => False

/-- What can happen in runs with these outcomes. -/
def Expected {setting : ClientSetting} (o : Outcomes setting) (w : World platform) :
    LoopEvent platform → Prop
  | .call call => call.Permitted o
  | .answer i reply => ∀ call op next, w.tasks i = some ⟨call, .awaiting op next⟩ →
      Trusted o call.marks → Succeeds o op (reply op)
  | _ => True

/-- A new client, with the storage it is given. -/
def newClient (umaIdStore : KeyValueStorage String String) : World platform :=
  { state := { umaIdStore } }

/-- Where runs with these outcomes lead. -/
def Runs (setting : ClientSetting) (o : Outcomes setting)
    (umaIdStore : KeyValueStorage String String) (w : World platform) : Prop :=
  (system setting).Reachable (Expected o) (newClient umaIdStore) w

/-- The requests that register resources, in the order they were sent. -/
def requestsOf (log : List (Nat × Entry platform)) : List ResourceRequest :=
  log.filterMap fun
    | (_, .performed (.fetch (.resource request))) => some request
    | _ => none

/-- The calls that have put a signal into `inProgress`. -/
def enteredOf (log : List (Nat × Entry platform)) : List (Nat × Signal) :=
  log.filterMap fun
    | (i, .acted (.enter signal) false) => some (i, signal)
    | _ => none

/-! ## Tasks and their duties -/

variable {setting : ClientSetting} {o : Outcomes setting} {marks : Bool} {d : Duties}

/-- A task that waits does, once it goes on, what its duties are. -/
def StatusObeys {setting : ClientSetting} (o : Outcomes setting) (marks : Bool) (d : Duties) :
    Status platform → Prop
  | .running rest => Obeys o marks d rest
  | .ready rest => Obeys o marks d rest
  | .awaiting op next => ∃ d₀, d = d₀.sent op ∧ Ready o marks d₀ op ∧
      ∀ reply, (Trusted o marks → Succeeds o op reply) →
        Obeys o marks (d.answered op reply) (next reply)
  | .listening _ timeout next => Obeys o marks d (next (.ok ())) ∧
      ∀ e, timeout = some e → Obeys o marks d (next (.error e))
  | .joining calls next => (∀ i, i ∈ calls ↔ i ∈ d.owes) ∧
      (∀ values, Obeys o marks { d with owes := [] } (next (.ok values))) ∧
      (¬ o.reliable → ∀ e, Obeys o marks { d with owes := [] } (next (.error e)))
  | .settled (.ok _) => Blank d
  | .settled (.error _) => ¬ Trusted o marks ∧ (o.reliable → Blank d)

def isSettled : Status platform → Bool
  | .settled _ => true
  | _ => false

theorem StatusObeys.blank {status : Status platform} (h : StatusObeys o marks d status)
    (ho : o.reliable) (hsettled : isSettled status = true) : Blank d := by
  cases status with
  | settled result =>
    cases result with
    | ok value => exact h
    | error e => exact h.2 ho
  | running | awaiting | listening | joining | ready => cases hsettled

structure TasksConform {setting : ClientSetting} (o : Outcomes setting)
    (tasks : Nat → Option (Task platform))
    (duties : Nat → Duties) (count : Nat) (calls : List Nat) (called : List String) : Prop where
  bound : ∀ i, (tasks i).isSome ↔ i < count
  obeys : ∀ i task, tasks i = some task → StatusObeys o task.call.marks (duties i) task.status
  owed : ∀ i j, j ∈ (duties i).owes → i < j ∧ ∃ task, tasks j = some task ∧ task.call.marks = true
  /-- A call is from outside, or settled, or some other has to wait for it. -/
  known : o.reliable → ∀ j task, tasks j = some task →
    j ∈ calls ∨ isSettled task.status = true ∨ ∃ i, j ∈ (duties i).owes
  called : ∀ i ∈ calls, ∃ task, tasks i = some task ∧ ∀ path issuer credentials,
    task.call = .registerResource path issuer credentials → path ∈ called

namespace TasksConform

variable {tasks : Nat → Option (Task platform)} {duties : Nat → Duties} {count : Nat}
  {calls : List Nat} {called : List String}

theorem duties_of_settled (h : TasksConform o tasks duties count calls called)
    (ho : o.reliable) {i : Nat} {task : Task platform} (htask : tasks i = some task)
    (hsettled : isSettled task.status = true) : Blank (duties i) :=
  (h.obeys i task htask).blank ho hsettled

/-- Of tasks of which one is new, or is another than before. -/
theorem obeys_update (h : TasksConform o tasks duties count calls called) {i j : Nat}
    {task task' : Task platform} (hobeys : StatusObeys o task'.call.marks d task'.status)
    (hj : Function.update tasks i (some task') j = some task) :
    StatusObeys o task.call.marks (Function.update duties i d j) task.status := by
  rw [Function.update_apply] at hj ⊢
  split at hj
  case isTrue hji =>
    cases hj
    rw [if_pos hji]
    exact hobeys
  case isFalse hji =>
    rw [if_neg hji]
    exact h.obeys j task hj

/-- A task goes on. -/
theorem update (h : TasksConform o tasks duties count calls called) {i : Nat} {call : Call}
    {status status' : Status platform} (htask : tasks i = some ⟨call, status⟩)
    (hrunning : isSettled status = false) (hobeys : StatusObeys o call.marks d status')
    (howes : ∀ j ∈ d.owes, j ∈ (duties i).owes)
    (hleft : o.reliable → ∀ j ∈ (duties i).owes, j ∈ d.owes ∨ ∃ task, tasks j = some task ∧
      isSettled task.status = true) :
    TasksConform o (Function.update tasks i (some ⟨call, status'⟩))
      (Function.update duties i d) count calls called where
  bound j := by
    rw [Function.update_apply]
    split
    case isTrue hj =>
      rw [hj, ← h.bound i, htask]
      exact Iff.rfl
    case isFalse hj => exact h.bound j
  obeys _ _ hj := h.obeys_update hobeys hj
  owed k j hj := by
    have hold : j ∈ (duties k).owes := by
      rw [Function.update_apply] at hj
      split at hj
      case isTrue hk => exact hk ▸ howes j hj
      case isFalse hk => exact hj
    obtain ⟨hlt, task, htask', hmarks⟩ := h.owed k j hold
    refine ⟨hlt, ?_⟩
    by_cases hji : j = i
    · subst hji
      refine ⟨⟨call, status'⟩, Function.update_self .., ?_⟩
      cases htask.symm.trans htask'
      exact hmarks
    · exact ⟨task, (Function.update_of_ne hji ..).trans htask', hmarks⟩
  known ho j task hj := by
    have hnow : ∀ task', tasks j = some task' → (isSettled task'.status = true →
        isSettled task.status = true) := by
      intro task' htask' hsettled
      rw [Function.update_apply] at hj
      split at hj
      case isTrue hji =>
        subst hji
        cases htask.symm.trans htask'
        rw [hrunning] at hsettled
        cases hsettled
      case isFalse hji =>
        cases hj.symm.trans htask'
        exact hsettled
    obtain ⟨task', htask'⟩ : ∃ task', tasks j = some task' := by
      rw [Function.update_apply] at hj
      split at hj
      case isTrue hji => exact ⟨_, hji ▸ htask⟩
      case isFalse hji => exact ⟨task, hj⟩
    rcases h.known ho j task' htask' with hcall | hsettled | ⟨k, hk⟩
    · exact .inl hcall
    · exact .inr (.inl (hnow task' htask' hsettled))
    · by_cases hki : k = i
      · subst hki
        rcases hleft ho j hk with hj' | ⟨task'', htask'', hsettled⟩
        · exact .inr (.inr ⟨k, by rw [Function.update_self]; exact hj'⟩)
        · exact .inr (.inl (hnow task'' htask'' hsettled))
      · exact .inr (.inr ⟨k, by rw [Function.update_of_ne hki]; exact hk⟩)
  called j hj := by
    obtain ⟨task, htask', hcalled⟩ := h.called j hj
    rw [Function.update_apply]
    split
    case isTrue hji =>
      cases (hji ▸ htask).symm.trans htask'
      exact ⟨_, rfl, hcalled⟩
    case isFalse hji => exact ⟨task, htask', hcalled⟩

/-- A task goes on with the duties it has. -/
theorem goOn (h : TasksConform o tasks duties count calls called) {i : Nat} {call : Call}
    {status status' : Status platform} (htask : tasks i = some ⟨call, status⟩)
    (hrunning : isSettled status = false)
    (hobeys : StatusObeys o call.marks (duties i) status') :
    TasksConform o (Function.update tasks i (some ⟨call, status'⟩)) duties count calls
      called := by
  have hupdate := h.update htask hrunning hobeys (fun _ => id) fun _ j hj => .inl hj
  rwa [Function.update_eq_self] at hupdate

/-- A call comes in from outside. -/
theorem call (h : TasksConform o tasks duties count calls called) {call : Call}
    (debt : Option String) (hfresh : duties count = {}) (hdeclared : Declared o call { debt })
    (hdebt : ∀ path issuer credentials, call = .registerResource path issuer credentials →
      debt = some path) :
    TasksConform o
      (Function.update tasks count (some ⟨call, .running (program setting call)⟩))
      (Function.update duties count { debt }) (count + 1) (calls ++ [count])
      (called ++ debt.toList) where
  bound j := by
    rw [Function.update_apply]
    split
    case isTrue hj => simp [hj]
    case isFalse hj =>
      rw [h.bound j]
      omega
  obeys _ _ hj := by
    have hobeys : StatusObeys o call.marks { debt } (.running (program setting call)) :=
      program_obeys hdeclared
    exact h.obeys_update hobeys hj
  owed k j hj := by
    have hold : j ∈ (duties k).owes := by
      rw [Function.update_apply] at hj
      split at hj
      case isTrue hk => cases hj
      case isFalse hk => exact hj
    obtain ⟨hlt, task, htask, hmarks⟩ := h.owed k j hold
    have hjc : j < count := (h.bound j).mp (by rw [htask]; rfl)
    exact ⟨hlt, task, (Function.update_of_ne (by omega) ..).trans htask, hmarks⟩
  known ho j task hj := by
    rw [Function.update_apply] at hj
    split at hj
    case isTrue hjc => exact .inl (by simp [hjc])
    case isFalse hjc =>
      rcases h.known ho j task hj with hcall | hsettled | ⟨k, hk⟩
      · exact .inl (List.mem_append_left _ hcall)
      · exact .inr (.inl hsettled)
      · refine .inr (.inr ⟨k, ?_⟩)
        rw [Function.update_of_ne]
        · exact hk
        · rintro rfl
          rw [hfresh] at hk
          cases hk
  called j hj := by
    rw [Function.update_apply]
    split
    case isTrue hjc =>
      refine ⟨_, rfl, fun path issuer credentials hcall => ?_⟩
      rw [hdebt path issuer credentials hcall]
      simp
    case isFalse hjc =>
      obtain ⟨task, htask, hcalled⟩ := h.called j (by simpa [hjc] using hj)
      exact ⟨task, htask, fun path issuer credentials hcall =>
        List.mem_append_left _ (hcalled path issuer credentials hcall)⟩

theorem of_update_update {f : Nat → Option (Task platform)} {i n j : Nat}
    {first second task : Task platform}
    (hj : Function.update (Function.update f i (some first)) n (some second) j = some task) :
    (j = n ∧ task = second) ∨ (j = i ∧ j ≠ n ∧ task = first) ∨
      (j ≠ n ∧ j ≠ i ∧ f j = some task) := by
  rw [Function.update_apply, Function.update_apply] at hj
  grind

/-- Who was there before a task went on and another one started is still there. -/
theorem remains (h : TasksConform o tasks duties count calls called) {i j : Nat} {call : Call}
    {status status' : Status platform} {new task : Task platform}
    (htask : tasks i = some ⟨call, status⟩) (hj : tasks j = some task) :
    ∃ task', Function.update (Function.update tasks i (some ⟨call, status'⟩)) count (some new) j =
      some task' ∧ task'.call = task.call := by
  have hjc : j < count := (h.bound j).mp (by rw [hj]; rfl)
  rw [Function.update_of_ne (by omega)]
  by_cases hji : j = i
  · subst hji
    cases htask.symm.trans hj
    exact ⟨_, Function.update_self .., rfl⟩
  · exact ⟨task, (Function.update_of_ne hji ..).trans hj, rfl⟩

/-- The one who starts a task has to wait for it. -/
theorem owes_start {i : Nat} {callee : Call} {child : Duties} {rest : Nat → Duties}
    (hne : count ≠ i) (hfresh : duties count = {})
    (hsplits : Splits o (duties i) callee child rest) (j : Nat) :
    (Function.update (Function.update duties i (rest count)) count child j).owes =
      if j = i then count :: (duties i).owes else (duties j).owes := by
  by_cases hjc : j = count
  · subst hjc
    rw [Function.update_self, hsplits.owes_child, if_neg hne, hfresh]
  · rw [Function.update_of_ne hjc]
    by_cases hji : j = i
    · subst hji
      rw [Function.update_self, hsplits.owes_rest, if_pos rfl]
    · rw [Function.update_of_ne hji, if_neg hji]

/-- A task starts another one. -/
theorem start (h : TasksConform o tasks duties count calls called) {i : Nat}
    {call callee : Call} {status : Status platform} {next : Nat → Method (Option String)}
    {child : Duties} {rest : Nat → Duties} (htask : tasks i = some ⟨call, status⟩)
    (hrunning : isSettled status = false) (hfresh : duties count = {})
    (hsplits : Splits o (duties i) callee child rest)
    (hnext : Obeys o call.marks (rest count) (next count)) :
    TasksConform o
      (Function.update (Function.update tasks i (some ⟨call, .running (next count)⟩)) count
        (some ⟨callee, .running (program setting callee)⟩))
      (Function.update (Function.update duties i (rest count)) count child) (count + 1) calls
      called := by
  have hi : i < count := (h.bound i).mp (by rw [htask]; rfl)
  have hne : count ≠ i := by omega
  have howes := owes_start hne hfresh hsplits
  refine ⟨fun j => ?_, fun j task hj => ?_, fun k j hj => ?_, fun ho j task hj => ?_, ?_⟩
  · have hbound := h.bound j
    rw [Function.update_apply, Function.update_apply]
    grind
  · rcases of_update_update hj with ⟨rfl, rfl⟩ | ⟨rfl, -, rfl⟩ | ⟨hjc, hji, htask'⟩
    · rw [Function.update_self]
      have hobeys := program_obeys (o := o) hsplits.declared
      exact hobeys
    · rw [Function.update_of_ne hne.symm, Function.update_self]
      exact hnext
    · rw [Function.update_of_ne hjc, Function.update_of_ne hji]
      exact h.obeys j task htask'
  · rw [howes] at hj
    have hold : ∀ j, j ∈ (duties k).owes → k < j ∧ ∃ task, Function.update (Function.update tasks i
        (some ⟨call, .running (next count)⟩)) count
        (some ⟨callee, .running (program setting callee)⟩) j = some task ∧
          task.call.marks = true := by
      intro j hj
      obtain ⟨hlt, task, htask', hmarks⟩ := h.owed k j hj
      obtain ⟨task', hj', hcall⟩ := h.remains htask htask'
      exact ⟨hlt, task', hj', hcall ▸ hmarks⟩
    split at hj
    case isTrue hk =>
      subst hk
      rcases List.mem_cons.mp hj with rfl | hj
      · exact ⟨hi, _, Function.update_self .., hsplits.marks⟩
      · exact hold j hj
    case isFalse hk => exact hold j hj
  · have hkeep : ∀ k, j ∈ (duties k).owes → ∃ k, j ∈
        (Function.update (Function.update duties i (rest count)) count child k).owes := by
      intro k hk
      refine ⟨k, ?_⟩
      rw [howes]
      split
      case isTrue hki => exact List.mem_cons_of_mem _ (hki ▸ hk)
      case isFalse hki => exact hk
    rcases of_update_update hj with ⟨rfl, rfl⟩ | ⟨rfl, -, rfl⟩ | ⟨hjc, hji, htask'⟩
    · refine .inr (.inr ⟨i, ?_⟩)
      rw [howes, if_pos rfl]
      exact List.mem_cons_self
    · rcases h.known ho j _ htask with hcall | hsettled | ⟨k, hk⟩
      · exact .inl hcall
      · rw [hrunning] at hsettled
        cases hsettled
      · exact .inr (.inr (hkeep k hk))
    · rcases h.known ho j task htask' with hcall | hsettled | ⟨k, hk⟩
      · exact .inl hcall
      · exact .inr (.inl hsettled)
      · exact .inr (.inr (hkeep k hk))
  · intro j hj
    obtain ⟨task, htask', hcalled⟩ := h.called j hj
    obtain ⟨task', hj', hcall⟩ := h.remains htask htask'
    exact ⟨task', hj', hcall ▸ hcalled⟩

/-- All tasks change at once, and none more than its duties allow. -/
theorem map (h : TasksConform o tasks duties count calls called)
    (f : Task platform → Task platform) (hcall : ∀ task, (f task).call = task.call)
    (hsettled : ∀ task, isSettled task.status = true → isSettled (f task).status = true)
    (hobeys : ∀ task d, StatusObeys o task.call.marks d task.status →
      StatusObeys o task.call.marks d (f task).status) :
    TasksConform o (fun j => (tasks j).map f) duties count calls called where
  bound j := by
    rw [Option.isSome_map]
    exact h.bound j
  obeys j task hj := by
    obtain ⟨task', htask', rfl⟩ := Option.map_eq_some_iff.mp hj
    rw [hcall]
    exact hobeys task' _ (h.obeys j task' htask')
  owed k j hj := by
    obtain ⟨hlt, task, htask, hmarks⟩ := h.owed k j hj
    exact ⟨hlt, f task, by rw [htask]; rfl, by rw [hcall, hmarks]⟩
  known ho j task hj := by
    obtain ⟨task', htask', rfl⟩ := Option.map_eq_some_iff.mp hj
    exact (h.known ho j task' htask').imp_right fun h => h.imp_left (hsettled task')
  called j hj := by
    obtain ⟨task, htask, hcalled⟩ := h.called j hj
    exact ⟨f task, by rw [htask]; rfl, by rw [hcall]; exact hcalled⟩

/-- An event is emitted. -/
theorem wake (h : TasksConform o tasks duties count calls called) (signal : Signal) :
    TasksConform o (fun j => (tasks j).map (Task.wake (P := platform) signal)) duties count
      calls called := by
  have hcases : ∀ task : Task platform, Task.wake signal task = task ∨
      ∃ timeout next, task.status = .listening signal timeout next ∧
        Task.wake signal task = { task with status := .ready (next (.ok ())) } := by
    intro task
    unfold Task.wake
    split
    case h_1 event timeout next hstatus =>
      split
      case isTrue hevent => exact .inr ⟨timeout, next, hevent ▸ hstatus, rfl⟩
      case isFalse => exact .inl rfl
    case h_2 => exact .inl rfl
  refine h.map _ (fun task => ?_) (fun task hsettled => ?_) fun task d hobeys => ?_
  · rcases hcases task with heq | ⟨timeout, next, -, heq⟩ <;> rw [heq]
  · rcases hcases task with heq | ⟨timeout, next, hstatus, heq⟩
    · rwa [heq]
    · rw [hstatus] at hsettled
      cases hsettled
  · rcases hcases task with heq | ⟨timeout, next, hstatus, heq⟩
    · rwa [heq]
    · rw [hstatus] at hobeys
      rw [heq]
      exact hobeys.1

end TasksConform

end UserManagedAccess.Css.UmaClient
