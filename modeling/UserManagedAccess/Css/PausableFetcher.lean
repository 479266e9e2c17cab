/-
UserManagedAccess.Css.PausableFetcher — a fetcher that keeps its calls back while it
is paused.

No method awaits anything, so a call from outside runs to its end before the next
one starts. What can happen inside of it is the underlying fetcher: it is called in
the loop of `process`, it may call the methods itself, and it returns a promise or
throws. There the flag `processing` is set, so that a call from inside only enters
its trigger or its status. Promises settle at any time, and their reactions run
while no call is executing.

* `step` — the events of a run, and what they do;
* `Faithful` — a queue that can be paused: in order, at most once, only while
  active, nothing left behind, every promise with the outcome of its call;
* `inOrder_of_reaches` — the first part, in every run;
* `faithful_of_reaches` — all of it, in runs in which the underlying fetcher neither
  throws nor rejects.
-/
import UserManagedAccess.Lib.Dict
import UserManagedAccess.Lib.Transitions

namespace UserManagedAccess.Css

open UserManagedAccess.Lib

namespace PausableFetcher

/-! ## The fetcher and its surroundings -/

variable {Args Response Err : Type}

inductive Outcome (Response Err : Type) where
  | fulfilled (response : Response)
  | rejected (error : Err)
  deriving DecidableEq

/-- A method, with its arguments. -/
inductive Call (Args : Type) where
  | fetch (args : Args)
  | changeStatus (active : Bool)

/-- What a call does that tries to process: `fetch` has a promise to return. -/
inductive Caller where
  | fetch (call : Nat)
  | changeStatus
  deriving DecidableEq

/-- A trigger that was emitted, and the flag at that time. -/
structure Forward (Args : Type) where
  trigger : Args × Nat
  active : Bool

/-- The object, and around it: the calls of `fetch` so far, the call that is executing
in `process`, what was forwarded, what the underlying calls and the returned promises
settled with, and the reactions that are to run. -/
structure State (Args Response Err : Type) where
  backlog : List (Args × Nat)
  active : Bool
  processing : Bool
  calls : List Args
  executing : Option Caller
  forwarded : List (Forward Args)
  underlying : KeyValueStorage Nat (Outcome Response Err)
  returned : KeyValueStorage Nat (Outcome Response Err)
  reactions : List Nat

def State.initial : State Args Response Err where
  backlog := []
  active := false
  processing := false
  calls := []
  executing := none
  forwarded := []
  underlying := KeyValueStorage.empty
  returned := KeyValueStorage.empty
  reactions := []

/-- What the underlying fetcher does before it returns: calls of its own, and then it
returns a promise or throws. -/
structure Behaviour (Args Err : Type) where
  nested : List (Call Args) := []
  throws : Option Err := none

inductive Event (Args Response Err : Type) where
  | call (call : Call Args)
  /-- The loop emits the first trigger. -/
  | forward (behaviour : Behaviour Args Err)
  /-- The loop is over. -/
  | finish
  /-- A promise of the underlying fetcher settles. -/
  | settle (call : Nat) (outcome : Outcome Response Err)
  /-- The reaction to that runs. -/
  | react (call : Nat)

/-! ## The methods -/

/-- A method up to `tryProcess`. -/
def enter (s : State Args Response Err) : Call Args → State Args Response Err
  | .fetch args =>
    { s with calls := s.calls ++ [args], backlog := s.backlog ++ [(args, s.calls.length)] }
  | .changeStatus active => { s with active }

def caller (s : State Args Response Err) : Call Args → Caller
  | .fetch _ => .fetch s.calls.length
  | .changeStatus _ => .changeStatus

/-- `tryProcess`, as far as the start of the loop. -/
def tryProcess (caller : Caller) (s : State Args Response Err) : State Args Response Err :=
  if s.active && !s.processing then { s with processing := true, executing := some caller }
  else s

/-- An exception leaves `process` before it resets its flag, and rejects the promise of
the method that is executing. That of `changeStatus` is not followed any further. -/
def throwOut (s : State Args Response Err) (caller : Caller) (call : Nat) (error : Err) :
    State Args Response Err :=
  { s with
    executing := none
    underlying := s.underlying.set call (.rejected error)
    returned :=
      match caller with
      | .fetch own => s.returned.set own (.rejected error)
      | .changeStatus => s.returned }

/-- `emit(PROCESS)` for the first trigger. -/
def forward (s : State Args Response Err) (caller : Caller) (trigger : Args × Nat)
    (backlog : List (Args × Nat)) (behaviour : Behaviour Args Err) : State Args Response Err :=
  let s' := behaviour.nested.foldl enter
    { s with backlog, forwarded := s.forwarded ++ [{ trigger, active := s.active }] }
  match behaviour.throws with
  | none => s'
  | some error => throwOut s' caller trigger.2 error

/-- `response => resolve(response)`; there is no reaction to a rejection. A promise that
is settled stays as it is. -/
def react (s : State Args Response Err) (call : Nat) : State Args Response Err :=
  { s with
    reactions := s.reactions.erase call
    returned :=
      match s.underlying.get call, s.returned.get call with
      | some (.fulfilled response), none => s.returned.set call (.fulfilled response)
      | _, _ => s.returned }

def step (s : State Args Response Err) :
    Event Args Response Err → Option (State Args Response Err)
  | .call call =>
    if s.executing.isSome then none else some (tryProcess (caller s call) (enter s call))
  | .forward behaviour =>
    match s.executing, s.backlog with
    | some caller, trigger :: backlog =>
      if s.active then some (forward s caller trigger backlog behaviour) else none
    | _, _ => none
  | .finish =>
    if s.executing.isSome && (s.backlog.isEmpty || !s.active) then
      some { s with processing := false, executing := none }
    else none
  | .settle call outcome =>
    if (s.forwarded.any fun f => f.trigger.2 = call) && (s.underlying.get call).isNone then
      some { s with underlying := s.underlying.set call outcome
                    reactions := s.reactions ++ [call] }
    else none
  | .react call =>
    if s.executing.isNone && s.reactions.contains call then some (react s call) else none

/-! ## A faithful queue -/

/-- Forwarded is a first part of the calls, each once, and the rest of them waits. -/
def InOrder (s : State Args Response Err) : Prop :=
  s.forwarded.map Forward.trigger ++ s.backlog = s.calls.zipIdx ∧
    ∀ f ∈ s.forwarded, f.active = true

/-- The promises that are returned settle as the underlying calls do: with nothing else,
and with all of it once the reactions have run. -/
def SettlesAlike (s : State Args Response Err) : Prop :=
  (∀ call outcome, s.returned.get call = some outcome → s.underlying.get call = some outcome) ∧
    ∀ call outcome, s.underlying.get call = some outcome →
      s.returned.get call = some outcome ∨ call ∈ s.reactions

structure Faithful (s : State Args Response Err) : Prop where
  inOrder : InOrder s
  drained : s.executing = none → s.active = true → s.backlog = []
  settles : SettlesAlike s

/-- The underlying fetcher does not throw, and its promises are not rejected. -/
def Gentle : Event Args Response Err → Prop
  | .forward behaviour => behaviour.throws = none
  | .settle _ (.rejected _) => False
  | _ => True

/-! ## What a step can be -/

variable {s s' : State Args Response Err}

inductive Stepped (s : State Args Response Err) :
    Event Args Response Err → State Args Response Err → Prop
  | call (call : Call Args) (hidle : s.executing = none) :
      Stepped s (.call call) (tryProcess (caller s call) (enter s call))
  | forward (behaviour : Behaviour Args Err) (caller : Caller) (trigger : Args × Nat)
      (backlog : List (Args × Nat)) (hexecuting : s.executing = some caller)
      (hbacklog : s.backlog = trigger :: backlog) (hactive : s.active = true) :
      Stepped s (.forward behaviour) (forward s caller trigger backlog behaviour)
  | finish (hover : s.active = true → s.backlog = []) :
      Stepped s .finish { s with processing := false, executing := none }
  | settle (call : Nat) (outcome : Outcome Response Err)
      (hpending : s.underlying.get call = none) :
      Stepped s (.settle call outcome)
        { s with underlying := s.underlying.set call outcome
                 reactions := s.reactions ++ [call] }
  | react (call : Nat) : Stepped s (.react call) (react s call)

theorem step_cases {e : Event Args Response Err} (h : step s e = some s') : Stepped s e s' := by
  unfold step at h
  cases e with
  | call call =>
    simp only [Option.ite_none_left_eq_some, Option.some.injEq] at h
    obtain ⟨hidle, rfl⟩ := h
    exact .call call (by simpa using hidle)
  | forward behaviour =>
    cases hexecuting : s.executing with
    | none => simp [hexecuting] at h
    | some caller =>
      cases hbacklog : s.backlog with
      | nil => simp [hexecuting, hbacklog] at h
      | cons trigger backlog =>
        simp only [hexecuting, hbacklog, Option.ite_none_right_eq_some,
          Option.some.injEq] at h
        obtain ⟨hactive, rfl⟩ := h
        exact .forward behaviour caller trigger backlog hexecuting hbacklog hactive
  | finish =>
    simp only [Option.ite_none_right_eq_some, Option.some.injEq, Bool.and_eq_true,
      Bool.or_eq_true, List.isEmpty_iff, Bool.not_eq_true'] at h
    obtain ⟨⟨_, hover⟩, rfl⟩ := h
    refine .finish fun hactive => ?_
    rcases hover with hempty | hpaused
    · exact hempty
    · rw [hactive] at hpaused
      cases hpaused
  | settle call outcome =>
    simp only [Option.ite_none_right_eq_some, Option.some.injEq, Bool.and_eq_true,
      Option.isNone_iff_eq_none] at h
    obtain ⟨⟨_, hpending⟩, rfl⟩ := h
    exact .settle call outcome hpending
  | react call =>
    simp only [Option.ite_none_right_eq_some, Option.some.injEq] at h
    obtain ⟨_, rfl⟩ := h
    exact .react call

/-! ## Calls from inside -/

theorem enter_inOrder (h : InOrder s) (call : Call Args) : InOrder (enter s call) := by
  obtain ⟨hcalls, hactive⟩ := h
  cases call with
  | fetch args =>
    refine ⟨?_, hactive⟩
    show s.forwarded.map Forward.trigger ++ (s.backlog ++ [(args, s.calls.length)]) =
      (s.calls ++ [args]).zipIdx
    rw [← List.append_assoc, hcalls, List.zipIdx_append]
    simp
  | changeStatus active => exact ⟨hcalls, hactive⟩

/-- What a call from inside does not touch. -/
def outer (s : State Args Response Err) :=
  (s.processing, s.executing, s.underlying, s.returned, s.reactions)

theorem outer_eq_iff {s t : State Args Response Err} : outer t = outer s ↔
    t.processing = s.processing ∧ t.executing = s.executing ∧ t.underlying = s.underlying ∧
      t.returned = s.returned ∧ t.reactions = s.reactions := by
  simp [outer]

theorem foldl_enter (calls : List (Call Args)) (h : InOrder s) :
    InOrder (calls.foldl enter s) ∧ outer (calls.foldl enter s) = outer s := by
  induction calls generalizing s with
  | nil => exact ⟨h, rfl⟩
  | cons call calls ih =>
    obtain ⟨hinOrder, hsame⟩ := ih (enter_inOrder h call)
    refine ⟨hinOrder, hsame.trans ?_⟩
    cases call <;> rfl

theorem forwarded_inOrder {trigger : Args × Nat} {backlog : List (Args × Nat)} (h : InOrder s)
    (hbacklog : s.backlog = trigger :: backlog) (hactive : s.active = true) :
    InOrder { s with backlog, forwarded := s.forwarded ++ [{ trigger, active := s.active }] } := by
  obtain ⟨hcalls, hactives⟩ := h
  constructor
  · have hlist : (s.forwarded ++ [(⟨trigger, s.active⟩ : Forward Args)]).map Forward.trigger ++
        backlog = s.calls.zipIdx := by
      rw [← hcalls, hbacklog]
      simp
    exact hlist
  · intro f hf
    rcases List.mem_append.mp hf with hf | hf
    · exact hactives f hf
    · rw [List.mem_singleton.mp hf]
      exact hactive

/-! ## In order, in every run -/

theorem inOrder_step {e : Event Args Response Err} (h : InOrder s) (hstep : step s e = some s') :
    InOrder s' := by
  cases step_cases hstep with
  | call call hidle =>
    unfold tryProcess
    split
    · exact enter_inOrder h call
    · exact enter_inOrder h call
  | forward behaviour caller trigger backlog hexecuting hbacklog hactive =>
    have hnested := (foldl_enter behaviour.nested (forwarded_inOrder h hbacklog hactive)).1
    unfold forward
    cases behaviour.throws with
    | none => exact hnested
    | some error => exact hnested
  | finish hover => exact h
  | settle call outcome hpending => exact h
  | react call => exact h

/-- Whatever the underlying fetcher does, a call is forwarded at most once, after those
before it, and while the fetcher is active. -/
theorem inOrder_of_reaches {allowed : State Args Response Err → Event Args Response Err → Prop}
    (h : Reaches step allowed State.initial s) :
    InOrder s ∧ (s.forwarded.map fun f => f.trigger.2).Nodup := by
  have hinOrder : InOrder s :=
    h.invariant InOrder ⟨rfl, fun _ hf => absurd hf List.not_mem_nil⟩
      fun _ _ _ hinv _ hstep => inOrder_step hinv hstep
  refine ⟨hinOrder, ?_⟩
  have hindices : (s.forwarded.map fun f => f.trigger.2) ++ s.backlog.map Prod.snd =
      List.range s.calls.length := by
    have hsnd := congrArg (List.map Prod.snd) hinOrder.1
    simpa [List.map_append, List.range_eq_range', Function.comp_def] using hsnd
  have hnodup := hindices ▸ List.nodup_range (n := s.calls.length)
  exact (List.nodup_append.mp hnodup).1

/-! ## Gentle runs -/

/-- Besides: the flag is set inside of `process` only, and nothing was rejected. -/
structure Gently (s : State Args Response Err) : Prop where
  faithful : Faithful s
  flag : s.executing = none → s.processing = false
  fulfilled : ∀ call error, s.underlying.get call ≠ some (.rejected error)

theorem settlesAlike_of_outer {s t : State Args Response Err} (hsame : outer t = outer s)
    (h : SettlesAlike s) : SettlesAlike t := by
  obtain ⟨-, -, hunderlying, hreturned, hreactions⟩ := outer_eq_iff.mp hsame
  unfold SettlesAlike
  rw [hunderlying, hreturned, hreactions]
  exact h

theorem gently_call (h : Gently s) (call : Call Args) (hidle : s.executing = none) :
    Gently (tryProcess (caller s call) (enter s call)) := by
  have hsame : outer (enter s call) = outer s := by cases call <;> rfl
  have hsettles := settlesAlike_of_outer hsame h.faithful.settles
  have hinOrder := enter_inOrder h.faithful.inOrder call
  have hunderlying : (enter s call).underlying = s.underlying := by cases call <;> rfl
  have hflag : (enter s call).processing = false := by
    have hprocessing := h.flag hidle
    cases call <;> exact hprocessing
  unfold tryProcess
  by_cases hactive : (enter s call).active = true
  · simp only [hactive, hflag, Bool.not_false, Bool.and_self, if_true]
    constructor
    · exact ⟨hinOrder, fun hnone => absurd hnone (Option.some_ne_none _), hsettles⟩
    · intro hnone
      cases hnone
    · exact hunderlying ▸ h.fulfilled
  · have hpaused : (enter s call).active = false := by simpa using hactive
    simp only [hpaused, Bool.false_and, Bool.false_eq_true, if_false]
    constructor
    · exact ⟨hinOrder, fun _ hon => absurd hon hactive, hsettles⟩
    · exact fun _ => hflag
    · exact hunderlying ▸ h.fulfilled

theorem gently_forward (h : Gently s) {behaviour : Behaviour Args Err} {caller : Caller}
    {trigger : Args × Nat} {backlog : List (Args × Nat)} (hexecuting : s.executing = some caller)
    (hbacklog : s.backlog = trigger :: backlog) (hactive : s.active = true)
    (hgentle : behaviour.throws = none) : Gently (forward s caller trigger backlog behaviour) := by
  obtain ⟨hinOrder, hsame⟩ := foldl_enter behaviour.nested
    (forwarded_inOrder h.faithful.inOrder hbacklog hactive)
  unfold forward
  rw [hgentle]
  generalize behaviour.nested.foldl enter _ = t at hinOrder hsame
  obtain ⟨-, hexecuting', hunderlying, -, -⟩ := outer_eq_iff.mp hsame
  have hbusy : t.executing ≠ none := by
    rw [hexecuting', hexecuting]
    exact Option.some_ne_none _
  constructor
  · exact ⟨hinOrder, fun hnone => absurd hnone hbusy,
      settlesAlike_of_outer hsame h.faithful.settles⟩
  · exact fun hnone => absurd hnone hbusy
  · exact hunderlying ▸ h.fulfilled

theorem gently_settle (h : Gently s) {call : Nat} {response : Response}
    (hpending : s.underlying.get call = none) :
    Gently { s with underlying := s.underlying.set call (.fulfilled response)
                    reactions := s.reactions ++ [call] } := by
  obtain ⟨honest, hdelivered⟩ := h.faithful.settles
  constructor
  · refine ⟨h.faithful.inOrder, h.faithful.drained, fun other outcome hreturned => ?_,
      fun other outcome hunderlying => ?_⟩
    · have hold := honest other outcome hreturned
      have hne : other ≠ call := by
        rintro rfl
        rw [hpending] at hold
        cases hold
      show (s.underlying.set call _).get other = _
      rw [KeyValueStorage.get_set, if_neg hne, hold]
    · by_cases hsame : other = call
      · subst hsame
        exact Or.inr (List.mem_append_right _ (List.mem_singleton_self _))
      · have hold : s.underlying.get other = some outcome := by
          rw [← hunderlying]
          exact (if_neg hsame).symm
        exact (hdelivered other outcome hold).imp_right (List.mem_append_left _)
  · exact h.flag
  · intro other error hrejected
    have hold : (s.underlying.set call (.fulfilled response)).get other =
        some (.rejected error) := hrejected
    rw [KeyValueStorage.get_set] at hold
    split at hold
    · cases hold
    · exact h.fulfilled other error hold

theorem gently_react (h : Gently s) (call : Nat) : Gently (react s call) := by
  obtain ⟨honest, hdelivered⟩ := h.faithful.settles
  refine ⟨⟨h.faithful.inOrder, h.faithful.drained, ?_⟩, h.flag, h.fulfilled⟩
  unfold react
  cases hunderlying : s.underlying.get call with
  | none =>
    refine ⟨honest, fun other outcome hother => ?_⟩
    have hne : other ≠ call := by
      rintro rfl
      rw [hunderlying] at hother
      cases hother
    exact (hdelivered other outcome hother).imp_right (List.mem_erase_of_ne hne).mpr
  | some settled =>
    cases settled with
    | rejected error => exact absurd hunderlying (h.fulfilled call error)
    | fulfilled response =>
      cases hreturned : s.returned.get call with
      | some outcome =>
        refine ⟨honest, fun other settled hother => ?_⟩
        by_cases hsame : other = call
        · subst hsame
          have hold := honest other outcome hreturned
          rw [hother] at hold
          exact Or.inl (hreturned.trans hold.symm)
        · exact (hdelivered other settled hother).imp_right (List.mem_erase_of_ne hsame).mpr
      | none =>
        refine ⟨fun other outcome hother => ?_, fun other outcome hother => ?_⟩
        · have hget : (s.returned.set call (.fulfilled response)).get other = some outcome :=
            hother
          rw [KeyValueStorage.get_set] at hget
          split at hget
          · rename_i hsame
            rw [hsame, ← hget]
            exact hunderlying
          · exact honest other outcome hget
        · by_cases hsame : other = call
          · subst hsame
            rw [show s.underlying.get other = some outcome from hother] at hunderlying
            cases hunderlying
            exact Or.inl (if_pos rfl)
          · refine (hdelivered other outcome hother).imp (fun hold => ?_)
              (List.mem_erase_of_ne hsame).mpr
            exact (if_neg hsame).trans hold

theorem gently_step {e : Event Args Response Err} (h : Gently s) (hgentle : Gentle e)
    (hstep : step s e = some s') : Gently s' := by
  cases step_cases hstep with
  | call call hidle => exact gently_call h call hidle
  | forward behaviour caller trigger backlog hexecuting hbacklog hactive =>
    exact gently_forward h hexecuting hbacklog hactive hgentle
  | finish hover =>
    exact ⟨⟨h.faithful.inOrder, fun _ => hover, h.faithful.settles⟩, fun _ => rfl, h.fulfilled⟩
  | settle call outcome hpending =>
    cases outcome with
    | fulfilled response => exact gently_settle h hpending
    | rejected error => exact absurd hgentle not_false
  | react call => exact gently_react h call

/-- Where the underlying fetcher neither throws nor rejects, the queue is faithful, in
every run of calls, settlements and reactions, also of calls from inside. -/
theorem faithful_of_reaches
    (h : Reaches step (fun _ e => Gentle e) (State.initial : State Args Response Err) s) :
    Faithful s := by
  have hinitial : Gently (State.initial : State Args Response Err) := by
    constructor
    · refine ⟨⟨rfl, fun _ hf => absurd hf List.not_mem_nil⟩, fun _ _ => rfl, ?_, ?_⟩
      · intro call outcome hreturned
        cases hreturned
      · intro call outcome hunderlying
        cases hunderlying
    · exact fun _ => rfl
    · intro call error hrejected
      cases hrejected
  have hgently := h.invariant Gently hinitial fun _ _ _ hinv hgentle hstep =>
    gently_step hinv hgentle hstep
  exact hgently.faithful

/-! ## Sample runs -/

/-- Fetched while paused, forwarded when the status changes, and answered. -/
def answeredRun : List (Event String String String) :=
  [.call (.fetch "a"), .call (.changeStatus true), .forward {}, .finish,
    .settle 0 (.fulfilled "result"), .react 0]

theorem answeredRun_faithful :
    ∃ s, answeredRun.foldlM step State.initial = some s ∧
      s.returned.get 0 = some (.fulfilled "result") ∧ Faithful s := by
  refine ⟨_, rfl, rfl, faithful_of_reaches ?_⟩
  refine .of_events (allAllowed_of_forall ?_ State.initial)
    (show answeredRun.foldlM step State.initial = some _ from rfl)
  intro e he s
  simp only [answeredRun, List.mem_cons, List.not_mem_nil, or_false] at he
  rcases he with rfl | rfl | rfl | rfl | rfl | rfl <;> simp [Gentle]

/-- A promise that is rejected leaves its call without an answer. -/
def rejectedRun : List (Event String String String) :=
  [.call (.changeStatus true), .finish, .call (.fetch "a"), .forward {}, .finish,
    .settle 0 (.rejected "offline"), .react 0]

/-- Two calls wait when the status changes, and the first one throws. -/
def throwingRun : List (Event String String String) :=
  [.call (.fetch "a"), .call (.fetch "b"), .call (.changeStatus true),
    .forward { throws := some "offline" }]

theorem runs_not_faithful :
    (∃ s, rejectedRun.foldlM step State.initial = some s ∧ s.executing = none ∧
      s.reactions = [] ∧ s.underlying.get 0 = some (.rejected "offline") ∧
      s.returned.get 0 = none ∧ ¬ Faithful s) ∧
    ∃ s, throwingRun.foldlM step State.initial = some s ∧ s.executing = none ∧
      s.active = true ∧ s.backlog = [("b", 1)] ∧ ¬ Faithful s := by
  constructor
  · refine ⟨_, rfl, rfl, rfl, rfl, rfl, fun h => ?_⟩
    rcases h.settles.2 0 (.rejected "offline") rfl with hreturned | hreaction
    · cases hreturned
    · cases hreaction
  · refine ⟨_, rfl, rfl, rfl, rfl, fun h => ?_⟩
    have hempty := h.drained rfl rfl
    cases hempty

end PausableFetcher

end UserManagedAccess.Css
