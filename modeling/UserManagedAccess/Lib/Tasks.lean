/-
UserManagedAccess.Lib.Tasks — asynchronous functions that call each other.

A `Body` is what a call of an `async` function does: it acts on the state of
its object, emits and awaits events, awaits operations of the outside, and
starts calls whose results it may await together (`Promise.all`). A call runs
up to its first `await` inside of the one that started it, so the calls that
run are a stack. While the stack is empty the event loop goes on: an operation
is answered, a timer runs out, a call whose wait is over is resumed, or a call
comes in from outside. A run is a list of such events, in any order.
-/
import Mathlib.Data.List.Basic
import Mathlib.Logic.Function.Basic

namespace UserManagedAccess.Lib

/-- What the functions of a program are about. -/
structure Platform where
  State : Type
  /-- The events of its emitter. -/
  Event : Type
  /-- What is done to the state, and what that returns. -/
  Action : Type
  ActionReply : Action → Type
  /-- What is asked of the outside, and the answer. -/
  Op : Type
  OpReply : Op → Type
  Call : Type
  Value : Type
  /-- What a call without a result returns. -/
  undefined : Value
  Error : Type

/-- What is left of a call. -/
inductive Body (P : Platform) (α : Type) where
  | done (result : Except P.Error α)
  | act (action : P.Action) (next : P.ActionReply action → Body P α)
  | emit (event : P.Event) (next : Body P α)
  /-- Start a call without waiting for it. -/
  | start (call : P.Call) (next : Nat → Body P α)
  | perform (op : P.Op) (next : P.OpReply op → Body P α)
  /-- Wait for an event, or for a timer that rejects with an error. -/
  | once (event : P.Event) (timeout : Option P.Error) (next : Except P.Error Unit → Body P α)
  /-- Wait for all of these calls, or for one of them to fail. -/
  | all (calls : List Nat) (next : Except P.Error (List P.Value) → Body P α)

namespace Body

variable {P : Platform} {α β γ : Type}

def bind : Body P α → (α → Body P β) → Body P β
  | done (.ok a), f => f a
  | done (.error e), _ => done (.error e)
  | act action next, f => act action fun r => bind (next r) f
  | emit event next, f => emit event (bind next f)
  | start call next, f => start call fun id => bind (next id) f
  | perform op next, f => perform op fun r => bind (next r) f
  | once event timeout next, f => once event timeout fun r => bind (next r) f
  | all calls next, f => all calls fun r => bind (next r) f

instance : Monad (Body P) where
  pure a := done (.ok a)
  bind := bind

def tryCatch : Body P α → (P.Error → Body P α) → Body P α
  | done (.ok a), _ => done (.ok a)
  | done (.error e), handler => handler e
  | act action next, handler => act action fun r => tryCatch (next r) handler
  | emit event next, handler => emit event (tryCatch next handler)
  | start call next, handler => start call fun id => tryCatch (next id) handler
  | perform op next, handler => perform op fun r => tryCatch (next r) handler
  | once event timeout next, handler => once event timeout fun r => tryCatch (next r) handler
  | all calls next, handler => all calls fun r => tryCatch (next r) handler

instance : MonadExceptOf P.Error (Body P) where
  throw e := done (.error e)
  tryCatch := tryCatch

/-- A value that may be an error. -/
instance : MonadLift (Except P.Error) (Body P) := ⟨done⟩

theorem bind_pure (p : Body P α) : p >>= pure = p := by
  show bind p pure = p
  induction p with
  | done r => cases r <;> rfl
  | act action next ih => exact congrArg _ (funext ih)
  | emit event next ih => exact congrArg _ ih
  | start call next ih => exact congrArg _ (funext ih)
  | perform op next ih => exact congrArg _ (funext ih)
  | once event timeout next ih => exact congrArg _ (funext ih)
  | all calls next ih => exact congrArg _ (funext ih)

/-- Go on with the result, whichever it is. -/
def handle : Body P α → (Except P.Error α → Body P β) → Body P β
  | done result, k => k result
  | act action next, k => act action fun r => handle (next r) k
  | emit event next, k => emit event (handle next k)
  | start call next, k => start call fun id => handle (next id) k
  | perform op next, k => perform op fun r => handle (next r) k
  | once event timeout next, k => once event timeout fun r => handle (next r) k
  | all calls next, k => all calls fun r => handle (next r) k

theorem handle_done (p : Body P α) : p.handle done = p := by
  induction p with
  | done r => rfl
  | act action next ih => exact congrArg _ (funext ih)
  | emit event next ih => exact congrArg _ ih
  | start call next ih => exact congrArg _ (funext ih)
  | perform op next ih => exact congrArg _ (funext ih)
  | once event timeout next ih => exact congrArg _ (funext ih)
  | all calls next ih => exact congrArg _ (funext ih)

theorem handle_handle (p : Body P α) (k : Except P.Error α → Body P β)
    (k' : Except P.Error β → Body P γ) :
    (p.handle k).handle k' = p.handle fun result => (k result).handle k' := by
  induction p with
  | done r => rfl
  | act action next ih => exact congrArg _ (funext ih)
  | emit event next ih => exact congrArg _ ih
  | start call next ih => exact congrArg _ (funext ih)
  | perform op next ih => exact congrArg _ (funext ih)
  | once event timeout next ih => exact congrArg _ (funext ih)
  | all calls next ih => exact congrArg _ (funext ih)

/-- Where the value goes on and an error is the result. -/
def andThen (f : α → Body P β) : Except P.Error α → Body P β
  | .ok a => f a
  | .error e => done (.error e)

/-- Where the value is the result and an error is handled. -/
def orElse (handler : P.Error → Body P α) : Except P.Error α → Body P α
  | .ok a => done (.ok a)
  | .error e => handler e

theorem bind_eq_handle (p : Body P α) (f : α → Body P β) :
    p >>= f = p.handle (andThen f) := by
  show bind p f = _
  induction p with
  | done r => cases r <;> rfl
  | act action next ih => exact congrArg _ (funext ih)
  | emit event next ih => exact congrArg _ ih
  | start call next ih => exact congrArg _ (funext ih)
  | perform op next ih => exact congrArg _ (funext ih)
  | once event timeout next ih => exact congrArg _ (funext ih)
  | all calls next ih => exact congrArg _ (funext ih)

theorem bind_assoc (p : Body P α) (f : α → Body P β) (g : β → Body P γ) :
    (p >>= f) >>= g = p >>= fun a => f a >>= g := by
  rw [bind_eq_handle (p >>= f), bind_eq_handle p, handle_handle, bind_eq_handle p]
  refine congrArg _ (funext fun result => ?_)
  cases result with
  | ok a => exact (bind_eq_handle (f a) g).symm
  | error e => rfl

theorem tryCatch_eq_handle (p : Body P α) (handler : P.Error → Body P α) :
    tryCatch p handler = p.handle (orElse handler) := by
  induction p with
  | done r => cases r <;> rfl
  | act action next ih => exact congrArg _ (funext ih)
  | emit event next ih => exact congrArg _ ih
  | start call next ih => exact congrArg _ (funext ih)
  | perform op next ih => exact congrArg _ (funext ih)
  | once event timeout next ih => exact congrArg _ (funext ih)
  | all calls next ih => exact congrArg _ (funext ih)

/-- Start a call and wait for it. -/
def await (call : P.Call) : Body P P.Value :=
  start call fun id => all [id] fun result =>
    done (result.map fun values => values.headD P.undefined)

end Body

/-! ## Tasks -/

inductive Status (P : Platform) where
  | running (rest : Body P P.Value)
  | awaiting (op : P.Op) (next : P.OpReply op → Body P P.Value)
  | listening (event : P.Event) (timeout : Option P.Error)
      (next : Except P.Error Unit → Body P P.Value)
  | joining (calls : List Nat) (next : Except P.Error (List P.Value) → Body P P.Value)
  /-- What it waited for is there. -/
  | ready (rest : Body P P.Value)
  | settled (result : Except P.Error P.Value)

/-- What it waits for an answer to. -/
def Status.awaited {P : Platform} : Status P → Option P.Op
  | .awaiting op _ => some op
  | _ => none

structure Task (P : Platform) where
  call : P.Call
  status : Status P

/-- What a task did, and which operations it asked for. -/
inductive Entry (P : Platform) where
  | acted (action : P.Action) (reply : P.ActionReply action)
  | performed (op : P.Op)

structure World (P : Platform) where
  state : P.State
  tasks : Nat → Option (Task P) := fun _ => none
  /-- The number of calls so far, and the next identifier of one. -/
  count : Nat := 0
  /-- The calls that run, each started by the next. -/
  stack : List Nat := []
  /-- The calls from outside. -/
  calls : List Nat := []
  log : List (Nat × Entry P) := []

namespace World

variable {P : Platform}

def put (w : World P) (i : Nat) (task : Task P) : World P :=
  { w with tasks := Function.update w.tasks i (some task) }

def write (w : World P) (i : Nat) (entry : Entry P) : World P :=
  { w with log := w.log ++ [(i, entry)] }

/-- A new task, which runs. -/
def push (w : World P) (call : P.Call) (body : Body P P.Value) : World P :=
  { w with
    tasks := Function.update w.tasks w.count (some ⟨call, .running body⟩)
    count := w.count + 1
    stack := w.count :: w.stack }

/-- What `Promise.all` of some calls comes to, once that is known. -/
def gather (w : World P) : List Nat → Option (Except P.Error (List P.Value))
  | [] => some (.ok [])
  | i :: calls =>
    match w.tasks i, gather w calls with
    | some ⟨_, .settled (.error e)⟩, _ => some (.error e)
    | some ⟨_, .settled (.ok value)⟩, some (.ok values) => some (.ok (value :: values))
    | _, some (.error e) => some (.error e)
    | _, _ => none

/-- The operation a task waits for. -/
def awaits (w : World P) (i : Nat) : Option P.Op := (w.tasks i).bind fun task => task.status.awaited

theorem awaits_of_tasks {w : World P} {i : Nat} {task : Task P} (h : w.tasks i = some task) :
    w.awaits i = task.status.awaited := by simp [awaits, h]

theorem tasks_of_awaits {w : World P} {i : Nat} {op : P.Op} (h : w.awaits i = some op) :
    ∃ call next, w.tasks i = some ⟨call, .awaiting op next⟩ := by
  obtain ⟨⟨call, status⟩, htask, hstatus⟩ := Option.bind_eq_some_iff.mp h
  cases status with
  | awaiting op' next =>
    cases hstatus
    exact ⟨call, next, htask⟩
  | running | listening | joining | ready | settled => cases hstatus

theorem awaits_update {w w' : World P} {i : Nat} (task : Task P)
    (h : w'.tasks = Function.update w.tasks i (some task)) :
    w'.awaits = Function.update w.awaits i task.status.awaited := by
  funext j
  by_cases hj : j = i
  · subst hj
    rw [Function.update_self]
    exact awaits_of_tasks (by rw [h, Function.update_self])
  · rw [Function.update_of_ne hj, awaits, awaits, h, Function.update_of_ne hj]

/-- A task that waited for no answer does not wait for one. -/
theorem awaits_update_of_none {w w' : World P} {i : Nat} {task : Task P}
    (h : w'.tasks = Function.update w.tasks i (some task)) (hi : w.awaits i = none)
    (htask : task.status.awaited = none) : w'.awaits = w.awaits := by
  rw [awaits_update task h, htask, ← hi, Function.update_eq_self]

def settled (w : World P) (i : Nat) : Prop :=
  ∃ call result, w.tasks i = some ⟨call, .settled result⟩

theorem settled_of_gather {w : World P} {calls : List Nat} {values : List P.Value}
    (h : w.gather calls = some (.ok values)) :
    ∀ i ∈ calls, ∃ call value, w.tasks i = some ⟨call, .settled (.ok value)⟩ := by
  induction calls generalizing values with
  | nil => exact nofun
  | cons i calls ih =>
    unfold gather at h
    split at h
    case h_1 => cases h
    case h_2 call value _ htask hrest =>
      intro j hj
      rcases List.mem_cons.mp hj with rfl | hj
      · exact ⟨call, value, htask⟩
      · exact ih hrest j hj
    case h_3 => cases h
    case h_4 => cases h

theorem failed_of_gather {w : World P} {calls : List Nat} {e : P.Error}
    (h : w.gather calls = some (.error e)) :
    ∃ i ∈ calls, ∃ call, w.tasks i = some ⟨call, .settled (.error e)⟩ := by
  induction calls with
  | nil => cases h
  | cons i calls ih =>
    have hrest : w.gather calls = some (.error e) →
        ∃ j ∈ i :: calls, ∃ call, w.tasks j = some ⟨call, .settled (.error e)⟩ := by
      intro hrest
      obtain ⟨j, hj, htask⟩ := ih hrest
      exact ⟨j, List.mem_cons_of_mem _ hj, htask⟩
    unfold gather at h
    split at h
    case h_1 call e' htask =>
      cases h
      exact ⟨i, List.mem_cons_self, call, htask⟩
    case h_2 => cases h
    case h_3 e' hgather _ =>
      cases h
      exact hrest hgather
    case h_4 => cases h

end World

/-- An event wakes who listens to it. -/
def Task.wake {P : Platform} [DecidableEq P.Event] (event : P.Event) (task : Task P) : Task P :=
  match task.status with
  | .listening event' _ next =>
    if event' = event then { task with status := .ready (next (.ok ())) } else task
  | _ => task

/-! ## Steps -/

/-- A program, and what its actions and the outside do. -/
structure System (P : Platform) where
  program : P.Call → Body P P.Value
  act : (action : P.Action) → P.State → P.ActionReply action × P.State
  permits : (op : P.Op) → P.State → P.OpReply op → Bool
  effect : (op : P.Op) → P.OpReply op → P.State → P.State

inductive LoopEvent (P : Platform) where
  /-- The call that runs goes on. -/
  | advance
  | call (call : P.Call)
  | answer (i : Nat) (reply : (op : P.Op) → P.OpReply op)
  | timeout (i : Nat)
  | resume (i : Nat)

namespace System

variable {P : Platform} [DecidableEq P.Event] (sys : System P)

/-- The next thing a call does that runs. -/
def goOn (w : World P) (i : Nat) (call : P.Call) (stack : List Nat) :
    Body P P.Value → World P
  | .done result => { w.put i ⟨call, .settled result⟩ with stack }
  | .act action next =>
    let (reply, state) := sys.act action w.state
    { (w.put i ⟨call, .running (next reply)⟩).write i (.acted action reply) with state }
  | .emit event next =>
    { w with tasks := fun j => if j = i then some ⟨call, .running next⟩
                               else (w.tasks j).map (Task.wake event) }
  | .start callee next =>
    (w.put i ⟨call, .running (next w.count)⟩).push callee (sys.program callee)
  | .perform op next => { (w.put i ⟨call, .awaiting op next⟩).write i (.performed op) with stack }
  | .once event timeout next => { w.put i ⟨call, .listening event timeout next⟩ with stack }
  | .all calls next => { w.put i ⟨call, .joining calls next⟩ with stack }

/-- What the loop does with an event while no call runs. -/
def turn (w : World P) : LoopEvent P → Option (World P)
  | .advance => none
  | .call call =>
    some { w.push call (sys.program call) with calls := w.calls ++ [w.count] }
  | .answer i reply =>
    match w.tasks i with
    | some ⟨call, .awaiting op next⟩ =>
      if sys.permits op w.state (reply op) then
        some { w.put i ⟨call, .ready (next (reply op))⟩ with
               state := sys.effect op (reply op) w.state }
      else none
    | _ => none
  | .timeout i =>
    match w.tasks i with
    | some ⟨call, .listening _ (some e) next⟩ => some (w.put i ⟨call, .ready (next (.error e))⟩)
    | _ => none
  | .resume i =>
    match w.tasks i with
    | some ⟨call, .ready rest⟩ => some { w.put i ⟨call, .running rest⟩ with stack := [i] }
    | some ⟨call, .joining calls next⟩ =>
      (w.gather calls).map fun result =>
        { w.put i ⟨call, .running (next result)⟩ with stack := [i] }
    | _ => none

def step (w : World P) (e : LoopEvent P) : Option (World P) :=
  match w.stack with
  | [] => sys.turn w e
  | i :: stack =>
    match e, w.tasks i with
    | .advance, some ⟨call, .running body⟩ => some (sys.goOn w i call stack body)
    | _, _ => none

def run (w : World P) (events : List (LoopEvent P)) : Option (World P) := events.foldlM sys.step w

/-- Where runs lead whose steps are all safe. -/
inductive Reachable (safe : World P → LoopEvent P → Prop) (start : World P) : World P → Prop
  | start : Reachable safe start start
  | step {w w' e} (h : Reachable safe start w) (hsafe : safe w e) (hstep : sys.step w e = some w') :
      Reachable safe start w'

/-! ## What a step can be -/

/-- The ways in which a world can change. -/
inductive Stepped (w : World P) : LoopEvent P → World P → Prop
  | goOn {i stack call body} (hstack : w.stack = i :: stack)
      (htask : w.tasks i = some ⟨call, .running body⟩) :
      Stepped w .advance (sys.goOn w i call stack body)
  | call (call) (hstack : w.stack = []) :
      Stepped w (.call call) { w.push call (sys.program call) with calls := w.calls ++ [w.count] }
  | answer {i reply call op next} (hstack : w.stack = [])
      (htask : w.tasks i = some ⟨call, .awaiting op next⟩)
      (hpermits : sys.permits op w.state (reply op) = true) :
      Stepped w (.answer i reply) { w.put i ⟨call, .ready (next (reply op))⟩ with
                                    state := sys.effect op (reply op) w.state }
  | timeout {i call event e next} (hstack : w.stack = [])
      (htask : w.tasks i = some ⟨call, .listening event (some e) next⟩) :
      Stepped w (.timeout i) (w.put i ⟨call, .ready (next (.error e))⟩)
  | resume {i call rest} (hstack : w.stack = []) (htask : w.tasks i = some ⟨call, .ready rest⟩) :
      Stepped w (.resume i) { w.put i ⟨call, .running rest⟩ with stack := [i] }
  | joined {i call calls next result} (hstack : w.stack = [])
      (htask : w.tasks i = some ⟨call, .joining calls next⟩)
      (hgather : w.gather calls = some result) :
      Stepped w (.resume i) { w.put i ⟨call, .running (next result)⟩ with stack := [i] }

variable {sys}

theorem step_cases {w w' : World P} {e : LoopEvent P} (h : sys.step w e = some w') :
    sys.Stepped w e w' := by
  unfold step at h
  cases hstack : w.stack with
  | cons i stack =>
    rw [hstack] at h
    dsimp only at h
    split at h
    case h_1 _ call body htask =>
      injection h with h
      exact h ▸ .goOn hstack htask
    case h_2 => cases h
  | nil =>
    rw [hstack] at h
    dsimp only at h
    unfold turn at h
    cases e with
    | advance => cases h
    | call call =>
      injection h with h
      exact h ▸ .call call hstack
    | answer i reply =>
      dsimp only at h
      split at h
      case h_1 _ call op next htask =>
        split at h
        case isTrue hpermits =>
          injection h with h
          exact h ▸ .answer hstack htask hpermits
        case isFalse => cases h
      case h_2 => cases h
    | timeout i =>
      dsimp only at h
      split at h
      case h_1 _ call event e next htask =>
        injection h with h
        exact h ▸ .timeout hstack htask
      case h_2 => cases h
    | resume i =>
      dsimp only at h
      split at h
      case h_1 _ call rest htask =>
        injection h with h
        exact h ▸ .resume hstack htask
      case h_2 _ call calls next htask =>
        obtain ⟨result, hgather, h⟩ := Option.map_eq_some_iff.mp h
        exact h ▸ .joined hstack htask hgather
      case h_3 => cases h

/-- What a step does to the operations that are awaited: nothing, or a call
asks for one, or one is answered. -/
inductive Asked (w w' : World P) : LoopEvent P → Prop
  | same {e} (hawaits : w'.awaits = w.awaits)
      (hstate : w'.state = w.state ∨ ∃ action, w'.state = (sys.act action w.state).2)
      (hlog : w'.log = w.log ∨ ∃ i action reply, w'.log = w.log ++ [(i, .acted action reply)]) :
      Asked w w' e
  | asks {i call op next} (htask : w.tasks i = some ⟨call, .running (.perform op next)⟩)
      (hawaits : w'.awaits = Function.update w.awaits i (some op)) (hstate : w'.state = w.state)
      (hlog : w'.log = w.log ++ [(i, .performed op)]) : Asked w w' .advance
  | answers {i reply call op next} (htask : w.tasks i = some ⟨call, .awaiting op next⟩)
      (hpermits : sys.permits op w.state (reply op) = true)
      (hawaits : w'.awaits = Function.update w.awaits i none)
      (hstate : w'.state = sys.effect op (reply op) w.state) (hlog : w'.log = w.log) :
      Asked w w' (.answer i reply)

omit [DecidableEq P.Event] in
/-- A call that awaits no operation moves on to where it awaits none. -/
theorem Asked.idle {w w' : World P} {e : LoopEvent P} {i : Nat} {task : Task P}
    (htasks : w'.tasks = Function.update w.tasks i (some task)) (hi : w.awaits i = none)
    (htask : task.status.awaited = none) (hstate : w'.state = w.state) (hlog : w'.log = w.log) :
    sys.Asked w w' e :=
  .same (World.awaits_update_of_none htasks hi htask) (.inl hstate) (.inl hlog)

omit [DecidableEq P.Event] in
theorem awaits_push {w : World P} (hfresh : w.tasks w.count = none) (call : P.Call)
    (body : Body P P.Value) : (w.push call body).awaits = w.awaits :=
  World.awaits_update_of_none (w := w) rfl (by rw [World.awaits, hfresh]; rfl) rfl

theorem awaited_wake (event : P.Event) (task : Task P) :
    (task.wake event).status.awaited = task.status.awaited := by
  unfold Task.wake
  split
  case h_1 event' timeout next hstatus =>
    split
    case isTrue => rw [hstatus]; rfl
    case isFalse => rfl
  case h_2 => rfl

theorem goOn_asked {w : World P} {i : Nat} {call : P.Call} {stack : List Nat}
    {body : Body P P.Value} (hfresh : w.tasks w.count = none)
    (htask : w.tasks i = some ⟨call, .running body⟩) :
    sys.Asked w (sys.goOn w i call stack body) .advance := by
  have hi : w.awaits i = none := World.awaits_of_tasks htask
  cases body with
  | done result => exact .idle rfl hi rfl rfl rfl
  | act action next =>
    exact .same (World.awaits_update_of_none rfl hi rfl) (.inr ⟨action, rfl⟩) (.inr ⟨_, _, _, rfl⟩)
  | emit event next =>
    refine .same (funext fun j => ?_) (.inl rfl) (.inl rfl)
    by_cases hj : j = i
    · subst hj
      have hself : (sys.goOn w j call stack (.emit event next)).tasks j =
          some ⟨call, .running next⟩ := if_pos rfl
      exact (World.awaits_of_tasks hself).trans hi.symm
    · have htasks : (sys.goOn w i call stack (.emit event next)).tasks j =
          (w.tasks j).map (Task.wake event) := if_neg hj
      rw [World.awaits, World.awaits, htasks]
      cases w.tasks j with
      | none => rfl
      | some task => exact awaited_wake event task
  | start callee next =>
    have hcount : (w.put i ⟨call, .running (next w.count)⟩).tasks w.count = none := by
      refine (Function.update_of_ne ?_ ..).trans hfresh
      rintro rfl
      cases hfresh.symm.trans htask
    refine .same ?_ (.inl rfl) (.inl rfl)
    exact (awaits_push hcount callee _).trans (World.awaits_update_of_none rfl hi rfl)
  | perform op next =>
    exact .asks htask (World.awaits_update ⟨call, .awaiting op next⟩ rfl) rfl rfl
  | once event timeout next => exact .idle rfl hi rfl rfl rfl
  | all calls next => exact .idle rfl hi rfl rfl rfl

theorem step_asked {w w' : World P} {e : LoopEvent P} (hfresh : w.tasks w.count = none)
    (h : sys.step w e = some w') : sys.Asked w w' e := by
  cases step_cases h with
  | goOn hstack htask => exact goOn_asked hfresh htask
  | call call hstack => exact .same (awaits_push hfresh call _) (.inl rfl) (.inl rfl)
  | @answer i reply call op next hstack htask hpermits =>
    exact .answers htask hpermits (World.awaits_update ⟨call, .ready (next (reply op))⟩ rfl) rfl rfl
  | timeout hstack htask => exact .idle rfl (World.awaits_of_tasks htask) rfl rfl rfl
  | resume hstack htask => exact .idle rfl (World.awaits_of_tasks htask) rfl rfl rfl
  | joined hstack htask hgather => exact .idle rfl (World.awaits_of_tasks htask) rfl rfl rfl

/-- What a step keeps holds wherever a run leads. -/
theorem Reachable.invariant {safe : World P → LoopEvent P → Prop} {start w : World P}
    (inv : World P → Prop) (hstart : inv start)
    (hstep : ∀ w e w', inv w → safe w e → sys.step w e = some w' → inv w')
    (h : sys.Reachable safe start w) : inv w := by
  induction h with
  | start => exact hstart
  | step _ hsafe hnext ih => exact hstep _ _ _ ih hsafe hnext

/-! ## Running until nothing is left to do -/

/-- What a task can go on with, given what the outside replies. -/
def pending (replies : P.State → (op : P.Op) → P.OpReply op) (w : World P) (i : Nat) :
    Option (LoopEvent P) :=
  match w.tasks i with
  | some ⟨_, .awaiting _ _⟩ => some (.answer i (replies w.state))
  | some ⟨_, .ready _⟩ => some (.resume i)
  | some ⟨_, .joining calls _⟩ => if (w.gather calls).isSome then some (.resume i) else none
  | _ => none

def nextEvent (replies : P.State → (op : P.Op) → P.OpReply op) (w : World P) :
    Option (LoopEvent P) :=
  match w.stack with
  | _ :: _ => some .advance
  | [] => (List.range w.count).findSome? (pending replies w)

variable (sys) in
/-- Let the oldest task that can go on do so, again and again. -/
def drain (replies : P.State → (op : P.Op) → P.OpReply op) : Nat → World P → World P
  | 0, w => w
  | n + 1, w =>
    match nextEvent replies w with
    | none => w
    | some e =>
      match sys.step w e with
      | none => w
      | some w' => drain replies n w'

theorem reachable_drain {replies : P.State → (op : P.Op) → P.OpReply op}
    {safe : World P → LoopEvent P → Prop} (hsafe : ∀ w e, nextEvent replies w = some e → safe w e)
    {start w : World P} (h : sys.Reachable safe start w) (n : Nat) :
    sys.Reachable safe start (sys.drain replies n w) := by
  induction n generalizing w with
  | zero => exact h
  | succ n ih =>
    unfold drain
    split
    case h_1 => exact h
    case h_2 e hnext =>
      split
      case h_1 => exact h
      case h_2 w' hstep => exact ih (.step h (hsafe w e hnext) hstep)

omit [DecidableEq P.Event] in
/-- The next event is no call from outside. -/
theorem nextEvent_cases {replies : P.State → (op : P.Op) → P.OpReply op} {w : World P}
    {e : LoopEvent P} (h : nextEvent replies w = some e) :
    e = .advance ∨ (∃ i, e = .answer i (replies w.state)) ∨ ∃ i, e = .resume i := by
  unfold nextEvent at h
  split at h
  case h_1 =>
    cases h
    exact .inl rfl
  case h_2 =>
    obtain ⟨i, -, hi⟩ := List.exists_of_findSome?_eq_some h
    unfold pending at hi
    split at hi
    case h_1 =>
      cases hi
      exact .inr (.inl ⟨i, rfl⟩)
    case h_2 =>
      cases hi
      exact .inr (.inr ⟨i, rfl⟩)
    case h_3 =>
      split at hi
      case isTrue =>
        cases hi
        exact .inr (.inr ⟨i, rfl⟩)
      case isFalse => cases hi
    case h_4 => cases hi

end System

end UserManagedAccess.Lib
