/-
UserManagedAccess.Lib.Contracts — what the calls of a program promise each
other, and the outside.

A `Contract` says what the state keeps, what a call does and asks for, and what
it returns; and what it may rely on: what its actions see, what the outside
answers, and what the calls it awaits return. `Obeys` is the contract of a
body, with the calls it started so far.

* `holds_step` — where every function obeys, a step keeps the contract as long
  as the outside does;
* `holds_run` — and so does every run.
-/
import Mathlib.Data.List.Induction
import UserManagedAccess.Lib.Tasks

namespace UserManagedAccess.Lib

variable {P : Platform} {α β : Type}

structure Contract (P : Platform) where
  keeps : P.State → Prop
  does : P.Action → Prop
  sees : (action : P.Action) → P.ActionReply action → Prop
  asks : P.Op → Prop
  hears : (op : P.Op) → P.OpReply op → Prop
  calls : P.Call → Prop
  returns : P.Call → P.Value → Prop

namespace Contract

variable (K : Contract P)

/-- What is awaited of calls is what those return. -/
def Joined (started : List (Nat × P.Call)) (calls : List Nat)
    (result : Except P.Error (List P.Value)) : Prop :=
  ∀ values, result = .ok values → List.Forall₂ (fun i value =>
    ∀ call, (i, call) ∈ started → K.returns call value) calls values

/-- The body keeps the contract, and `Q` holds of its result and of the calls
it started. -/
def Obeys (started : List (Nat × P.Call)) (Q : List (Nat × P.Call) → α → Prop) :
    Body P α → Prop
  | .done result => ∀ a, result = .ok a → Q started a
  | .act action next => K.does action ∧
      ∀ reply, K.sees action reply → Obeys started Q (next reply)
  | .emit _ next => Obeys started Q next
  | .start call next => K.calls call ∧ ∀ i, Obeys ((i, call) :: started) Q (next i)
  | .perform op next => K.asks op ∧ ∀ reply, K.hears op reply → Obeys started Q (next reply)
  | .once _ _ next => ∀ result, Obeys started Q (next result)
  | .all calls next => ∀ result, K.Joined started calls result → Obeys started Q (next result)

variable {K} {started : List (Nat × P.Call)}

/-! ## Rules -/

namespace Obeys

variable {Q R : List (Nat × P.Call) → α → Prop} {p : Body P α}

theorem mono (h : K.Obeys started Q p) (hQ : ∀ started a, Q started a → R started a) :
    K.Obeys started R p := by
  induction p generalizing started with
  | done result => exact fun a ha => hQ started a (h a ha)
  | act action next ih => exact ⟨h.1, fun reply hreply => ih reply (h.2 reply hreply)⟩
  | emit event next ih => exact ih h
  | start call next ih => exact ⟨h.1, fun i => ih i (h.2 i)⟩
  | perform op next ih => exact ⟨h.1, fun reply hreply => ih reply (h.2 reply hreply)⟩
  | once event timeout next ih => exact fun result => ih result (h result)
  | all calls next ih => exact fun result hresult => ih result (h result hresult)

theorem bind {f : α → Body P β} {Q : List (Nat × P.Call) → β → Prop}
    (h : K.Obeys started (fun started a => K.Obeys started Q (f a)) p) :
    K.Obeys started Q (p >>= f) := by
  show K.Obeys started Q (Body.bind p f)
  induction p generalizing started with
  | done result =>
    cases result with
    | ok a => exact h a rfl
    | error e => exact nofun
  | act action next ih => exact ⟨h.1, fun reply hreply => ih reply (h.2 reply hreply)⟩
  | emit event next ih => exact ih h
  | start call next ih => exact ⟨h.1, fun i => ih i (h.2 i)⟩
  | perform op next ih => exact ⟨h.1, fun reply hreply => ih reply (h.2 reply hreply)⟩
  | once event timeout next ih => exact fun result => ih result (h result)
  | all calls next ih => exact fun result hresult => ih result (h result hresult)

/-- A procedure, and one that goes on with what its result satisfies. -/
theorem andThen {f : α → Body P β} {S : α → Prop} {Q : List (Nat × P.Call) → β → Prop}
    (h : K.Obeys started (fun _ a => S a) p)
    (hf : ∀ started a, S a → K.Obeys started Q (f a)) : K.Obeys started Q (p >>= f) :=
  bind (h.mono hf)

theorem tryCatch {handler : P.Error → Body P α} (h : K.Obeys started Q p)
    (hhandler : ∀ started e, K.Obeys started Q (handler e)) :
    K.Obeys started Q (Body.tryCatch p handler) := by
  induction p generalizing started with
  | done result =>
    cases result with
    | ok a => exact h
    | error e => exact hhandler started e
  | act action next ih => exact ⟨h.1, fun reply hreply => ih reply (h.2 reply hreply)⟩
  | emit event next ih => exact ih h
  | start call next ih => exact ⟨h.1, fun i => ih i (h.2 i)⟩
  | perform op next ih => exact ⟨h.1, fun reply hreply => ih reply (h.2 reply hreply)⟩
  | once event timeout next ih => exact fun result => ih result (h result)
  | all calls next ih => exact fun result hresult => ih result (h result hresult)

theorem pure {a : α} (h : Q started a) : K.Obeys started Q (Pure.pure a : Body P α) := by
  intro b hb
  cases hb
  exact h

theorem throw {e : P.Error} : K.Obeys started Q (Body.done (.error e)) := nofun

theorem done {result : Except P.Error α} (h : ∀ a, result = .ok a → Q started a) :
    K.Obeys started Q (Body.done result) := h

theorem map {f : α → β} {Q : List (Nat × P.Call) → β → Prop}
    (h : K.Obeys started (fun started a => Q started (f a)) p) : K.Obeys started Q (f <$> p) :=
  bind (h.mono fun _ _ ha => pure ha)

theorem ite {c : Prop} [Decidable c] {q : Body P α} (hp : c → K.Obeys started Q p)
    (hq : ¬ c → K.Obeys started Q q) : K.Obeys started Q (if c then p else q) := by
  by_cases hc : c
  · rw [if_pos hc]
    exact hp hc
  · rw [if_neg hc]
    exact hq hc

/-- A call that is awaited at once. -/
theorem await {call : P.Call} (h : K.calls call) :
    K.Obeys started (fun _ value => K.returns call value) (Body.await call) := by
  refine ⟨h, fun i result hresult value hvalue => ?_⟩
  cases result with
  | error e => cases hvalue
  | ok values =>
    cases hresult values rfl with
    | cons hfirst hrest =>
      cases hrest
      cases hvalue
      exact hfirst call List.mem_cons_self

end Obeys

/-! ## Tasks -/

variable (K) in
/-- What is left of a call, which started these. -/
def StatusObeys (started : List (Nat × P.Call)) (call : P.Call) : Status P → Prop
  | .running rest => K.Obeys started (fun _ value => K.returns call value) rest
  | .ready rest => K.Obeys started (fun _ value => K.returns call value) rest
  | .awaiting op next => K.asks op ∧ ∀ reply, K.hears op reply →
      K.Obeys started (fun _ value => K.returns call value) (next reply)
  | .listening _ _ next => ∀ result,
      K.Obeys started (fun _ value => K.returns call value) (next result)
  | .joining calls next => ∀ result, K.Joined started calls result →
      K.Obeys started (fun _ value => K.returns call value) (next result)
  | .settled result => ∀ value, result = .ok value → K.returns call value

/-- These calls are tasks. -/
def Known (tasks : Nat → Option (Task P)) (started : List (Nat × P.Call)) : Prop :=
  ∀ entry ∈ started, (tasks entry.1).map Task.call = some entry.2

variable (K) in
def TaskObeys (tasks : Nat → Option (Task P)) (task : Task P) : Prop :=
  ∃ started, Known tasks started ∧ K.StatusObeys started task.call task.status

variable (K) in
def EntryObeys : Entry P → Prop
  | .acted action _ => K.does action
  | .performed op => K.asks op

variable (K) in
structure Holds (w : World P) : Prop where
  state : K.keeps w.state
  numbered : ∀ i task, w.tasks i = some task → i < w.count
  tasks : ∀ i task, w.tasks i = some task → K.TaskObeys w.tasks task
  log : ∀ entry ∈ w.log, K.EntryObeys entry.2

/-- The calls that are known stay known. -/
theorem TaskObeys.mono {tasks tasks' : Nat → Option (Task P)} {task : Task P}
    (h : K.TaskObeys tasks task)
    (hcalls : ∀ i call, (tasks i).map Task.call = some call →
      (tasks' i).map Task.call = some call) : K.TaskObeys tasks' task := by
  obtain ⟨started, hknown, hstatus⟩ := h
  exact ⟨started, fun entry hentry => hcalls _ _ (hknown entry hentry), hstatus⟩

theorem call_wake [DecidableEq P.Event] (event : P.Event) (task : Task P) :
    (task.wake event).call = task.call := by
  unfold Task.wake
  split
  · split <;> rfl
  · rfl

theorem statusObeys_wake [DecidableEq P.Event] {event : P.Event} {task : Task P}
    (h : K.StatusObeys started task.call task.status) :
    K.StatusObeys started (task.wake event).call (task.wake event).status := by
  unfold Task.wake
  split
  case h_1 event' timeout next hstatus =>
    rw [hstatus] at h
    split
    case isTrue => exact h _
    case isFalse => rw [hstatus]; exact h
  case h_2 => exact h

/-! ## Steps -/

variable (K) in
/-- Every function of the program obeys, and the state goes along. -/
structure Sound [DecidableEq P.Event] (sys : System P) : Prop where
  program : ∀ call, K.calls call →
    K.Obeys [] (fun _ value => K.returns call value) (sys.program call)
  acts : ∀ action s, K.keeps s → K.does action →
    K.sees action (sys.act action s).1 ∧ K.keeps (sys.act action s).2
  effects : ∀ op reply s, K.keeps s → K.asks op → K.hears op reply → K.keeps (sys.effect op reply s)

variable (K) in
/-- The outside keeps its part: its calls are as agreed, and its answers. -/
def Heard (w : World P) : LoopEvent P → Prop
  | .call call => K.calls call
  | .answer i reply => ∀ op, w.awaits i = some op → K.hears op (reply op)
  | _ => True

theorem holds_of_tasks {w w' : World P} (h : K.Holds w) (hcount : w.count ≤ w'.count)
    (hcalls : ∀ i call, (w.tasks i).map Task.call = some call →
      (w'.tasks i).map Task.call = some call)
    (htasks : ∀ i task, w'.tasks i = some task →
      w.tasks i = some task ∨ i < w'.count ∧ K.TaskObeys w'.tasks task)
    (hstate : K.keeps w'.state) (hlog : ∀ entry ∈ w'.log, K.EntryObeys entry.2) : K.Holds w' where
  state := hstate
  numbered i task htask := by
    rcases htasks i task htask with hold | ⟨hlt, -⟩
    · exact Nat.lt_of_lt_of_le (h.numbered i task hold) hcount
    · exact hlt
  tasks i task htask := by
    rcases htasks i task htask with hold | ⟨-, hobeys⟩
    · exact (h.tasks i task hold).mono hcalls
    · exact hobeys
  log := hlog

/-- A task moves on. -/
theorem holds_update {w w' : World P} {i : Nat} {task : Task P} {status : Status P}
    (h : K.Holds w) (htask : w.tasks i = some task)
    (htasks : w'.tasks = Function.update w.tasks i (some ⟨task.call, status⟩))
    (hcount : w'.count = w.count) (hobeys : K.TaskObeys w.tasks ⟨task.call, status⟩)
    (hstate : K.keeps w'.state) (hlog : ∀ entry ∈ w'.log, K.EntryObeys entry.2) : K.Holds w' := by
  have hcalls : ∀ j call, (w.tasks j).map Task.call = some call →
      (w'.tasks j).map Task.call = some call := by
    intro j call hj
    rw [htasks, Function.update_apply]
    split
    case isTrue heq =>
      rw [heq, htask] at hj
      exact hj
    case isFalse => exact hj
  refine holds_of_tasks h (Nat.le_of_eq hcount.symm) hcalls (fun j other hj => ?_) hstate hlog
  rw [htasks, Function.update_apply] at hj
  split at hj
  case isTrue heq =>
    cases hj
    rw [hcount, heq]
    exact .inr ⟨h.numbered i task htask, hobeys.mono hcalls⟩
  case isFalse => exact .inl hj

/-- A new task. -/
theorem holds_push {w : World P} {call : P.Call} {body : Body P P.Value} (h : K.Holds w)
    (hobeys : K.Obeys [] (fun _ value => K.returns call value) body) : K.Holds (w.push call body) := by
  refine holds_of_tasks h (Nat.le_succ _) (fun j other hj => ?_) (fun j task hj => ?_) h.state h.log
  · have hne : j ≠ w.count := by
      rintro rfl
      obtain ⟨task, htask, -⟩ := Option.map_eq_some_iff.mp hj
      exact absurd (h.numbered _ task htask) (Nat.lt_irrefl _)
    show (Function.update w.tasks w.count _ j).map Task.call = _
    rwa [Function.update_of_ne hne]
  · have hj : Function.update w.tasks w.count (some ⟨call, .running body⟩) j = some task := hj
    rw [Function.update_apply] at hj
    split at hj
    case isTrue heq =>
      cases hj
      exact .inr ⟨heq ▸ Nat.lt_succ_self _, [], nofun, hobeys⟩
    case isFalse => exact .inl hj

variable [DecidableEq P.Event] {sys : System P}

/-- The call that runs does its next thing. -/
theorem holds_goOn (hsound : K.Sound sys) {w : World P} {i : Nat} {call : P.Call}
    {stack : List Nat} {body : Body P P.Value} (h : K.Holds w)
    (htask : w.tasks i = some ⟨call, .running body⟩) : K.Holds (sys.goOn w i call stack body) := by
  obtain ⟨started, hknown, hobeys⟩ := h.tasks i _ htask
  cases body with
  | done result => exact holds_update h htask rfl rfl ⟨started, hknown, hobeys⟩ h.state h.log
  | act action next =>
    obtain ⟨hsees, hkeeps⟩ := hsound.acts action w.state h.state hobeys.1
    refine holds_update h htask rfl rfl ⟨started, hknown, hobeys.2 _ hsees⟩ hkeeps
      fun entry hentry => ?_
    rcases List.mem_append.mp hentry with hold | hnew
    · exact h.log entry hold
    · exact List.mem_singleton.mp hnew ▸ hobeys.1
  | emit event next =>
    have hcalls : ∀ j other, (w.tasks j).map Task.call = some other →
        ((sys.goOn w i call stack (.emit event next)).tasks j).map Task.call = some other := by
      intro j other hj
      show (if j = i then some (Task.mk call (.running next)) else
        (w.tasks j).map (Task.wake event)).map Task.call = _
      split
      case isTrue heq =>
        rw [heq, htask] at hj
        exact hj
      case isFalse =>
        obtain ⟨task, hold, rfl⟩ := Option.map_eq_some_iff.mp hj
        rw [hold]
        exact congrArg some (call_wake event task)
    refine holds_of_tasks h (Nat.le_refl _) hcalls (fun j task hj => .inr ?_) h.state h.log
    have hj : (if j = i then some (Task.mk call (.running next)) else
      (w.tasks j).map (Task.wake event)) = some task := hj
    split at hj
    case isTrue heq =>
      cases hj
      exact ⟨heq ▸ h.numbered i _ htask, TaskObeys.mono ⟨started, hknown, hobeys⟩ hcalls⟩
    case isFalse =>
      obtain ⟨old, hold, rfl⟩ := Option.map_eq_some_iff.mp hj
      obtain ⟨others, hothers, hstatus⟩ := h.tasks j old hold
      exact ⟨h.numbered j old hold,
        TaskObeys.mono ⟨others, hothers, statusObeys_wake hstatus⟩ hcalls⟩
  | start callee next =>
    have hi : i < w.count := h.numbered i _ htask
    have htasks : (sys.goOn w i call stack (.start callee next)).tasks =
        Function.update (Function.update w.tasks i (some ⟨call, .running (next w.count)⟩)) w.count
          (some ⟨callee, .running (sys.program callee)⟩) := rfl
    have hcalls : ∀ j other, (w.tasks j).map Task.call = some other →
        ((sys.goOn w i call stack (.start callee next)).tasks j).map Task.call = some other := by
      intro j other hj
      obtain ⟨task, hold, rfl⟩ := Option.map_eq_some_iff.mp hj
      have hlt := h.numbered j task hold
      rw [htasks, Function.update_of_ne (by omega), Function.update_apply]
      split
      case isTrue heq =>
        rw [heq, htask] at hold
        cases hold
        rfl
      case isFalse => exact hj
    refine holds_of_tasks h (Nat.le_succ _) hcalls (fun j task hj => ?_) h.state h.log
    have hcallee : (((sys.goOn w i call stack (.start callee next)).tasks) w.count).map Task.call =
        some callee := by
      rw [htasks, Function.update_self]
      rfl
    rw [htasks, Function.update_apply, Function.update_apply] at hj
    split at hj
    case isTrue heq =>
      cases hj
      exact .inr ⟨heq ▸ Nat.lt_succ_self _, [], nofun, hsound.program callee hobeys.1⟩
    case isFalse =>
      split at hj
      case isTrue heq =>
        -- the call knows what it has started
        cases hj
        have hlt : j < w.count + 1 := heq ▸ Nat.lt_succ_of_lt hi
        refine .inr ⟨hlt, (w.count, callee) :: started, ?_, hobeys.2 w.count⟩
        intro entry hentry
        rcases List.mem_cons.mp hentry with rfl | hentry
        · exact hcallee
        · exact hcalls _ _ (hknown entry hentry)
      case isFalse => exact .inl hj
  | perform op next =>
    refine holds_update h htask rfl rfl ⟨started, hknown, hobeys⟩ h.state fun entry hentry => ?_
    rcases List.mem_append.mp hentry with hold | hnew
    · exact h.log entry hold
    · exact List.mem_singleton.mp hnew ▸ hobeys.1
  | once event timeout next =>
    exact holds_update h htask rfl rfl ⟨started, hknown, hobeys⟩ h.state h.log
  | all calls next =>
    exact holds_update h htask rfl rfl ⟨started, hknown, hobeys⟩ h.state h.log

omit [DecidableEq P.Event] in
/-- What is gathered of calls is what those return. -/
theorem joined_of_gather {w : World P} {started : List (Nat × P.Call)} (h : K.Holds w)
    (hknown : Known w.tasks started) {calls : List Nat} {result : Except P.Error (List P.Value)}
    (hgather : w.gather calls = some result) : K.Joined started calls result := by
  intro values hvalues
  subst hvalues
  induction calls generalizing values with
  | nil =>
    cases hgather
    exact .nil
  | cons i calls ih =>
    unfold World.gather at hgather
    split at hgather
    case h_1 => cases hgather
    case h_2 call value rest htask hrest =>
      cases hgather
      refine .cons (fun other hother => ?_) (ih _ hrest)
      have hcall := hknown _ hother
      rw [htask] at hcall
      cases hcall
      obtain ⟨_, _, hreturns⟩ := h.tasks i _ htask
      exact hreturns value rfl
    case h_3 => cases hgather
    case h_4 => cases hgather

theorem holds_step (hsound : K.Sound sys) {w w' : World P} {e : LoopEvent P} (h : K.Holds w)
    (hheard : K.Heard w e) (hstep : sys.step w e = some w') : K.Holds w' := by
  cases System.step_cases hstep with
  | goOn hstack htask => exact holds_goOn hsound h htask
  | call call hstack =>
    have hpush := holds_push h (hsound.program call hheard)
    exact ⟨hpush.state, hpush.numbered, hpush.tasks, hpush.log⟩
  | @answer i reply call op next hstack htask hpermits =>
    obtain ⟨started, hknown, hasks, hobeys⟩ := h.tasks i _ htask
    have hhears := hheard op (World.awaits_of_tasks htask)
    exact holds_update h htask rfl rfl ⟨started, hknown, hobeys _ hhears⟩
      (hsound.effects op _ w.state h.state hasks hhears) h.log
  | timeout hstack htask =>
    obtain ⟨started, hknown, hobeys⟩ := h.tasks _ _ htask
    exact holds_update h htask rfl rfl ⟨started, hknown, hobeys _⟩ h.state h.log
  | resume hstack htask =>
    obtain ⟨started, hknown, hobeys⟩ := h.tasks _ _ htask
    exact holds_update h htask rfl rfl ⟨started, hknown, hobeys⟩ h.state h.log
  | joined hstack htask hgather =>
    obtain ⟨started, hknown, hobeys⟩ := h.tasks _ _ htask
    exact holds_update h htask rfl rfl
      ⟨started, hknown, hobeys _ (joined_of_gather h hknown hgather)⟩ h.state h.log

omit [DecidableEq P.Event] in
theorem holds_new {state : P.State} (h : K.keeps state) : K.Holds { state } where
  state := h
  numbered _ _ htask := nomatch htask
  tasks _ _ htask := nomatch htask
  log _ hentry := nomatch hentry

theorem run_concat (w : World P) (events : List (LoopEvent P)) (e : LoopEvent P) :
    sys.run w (events ++ [e]) = (sys.run w events).bind fun v => sys.step v e := by
  unfold System.run
  rw [List.foldlM_append]
  refine congrArg _ (funext fun v => ?_)
  simp

/-- A run keeps the contract as long as the outside does. -/
theorem holds_run (hsound : K.Sound sys) {start w : World P} {events : List (LoopEvent P)}
    (hstart : K.Holds start) (hheard : ∀ before e later v, events = before ++ e :: later →
      sys.run start before = some v → K.Heard v e)
    (hrun : sys.run start events = some w) : K.Holds w := by
  induction events using List.reverseRecOn generalizing w with
  | nil =>
    cases hrun
    exact hstart
  | append_singleton events e ih =>
    rw [run_concat] at hrun
    obtain ⟨v, hv, hstep⟩ := Option.bind_eq_some_iff.mp hrun
    have hbefore : K.Holds v := by
      refine ih (fun before e' later v' heq hv' => ?_) hv
      exact hheard before e' (later ++ [e]) v' (by simp [heq]) hv'
    exact holds_step hsound hbefore (hheard events e [] v rfl hv) hstep

end Contract

end UserManagedAccess.Lib
