/-
UserManagedAccess.Lib.Interleaving — procedures that run at the same time on
one state.

A `Pool` is the state and what is left of each procedure. A step resumes one
of them up to its next pause, and a run is the steps of a schedule, so that
every interleaving at the pauses is the run of some schedule. The pool also
records in which states each procedure was resumed: what is left of a
procedure depends on nothing else (`processes_run`), and what one of its
steps does is a function of that history and the current state.
-/
import Mathlib.Logic.Function.Basic
import UserManagedAccess.Lib.Async

namespace UserManagedAccess.Lib

variable {ι σ ε α β : Type}

namespace Async

/-! ## What is left of a procedure -/

/-- The rest of a procedure that was resumed in these states. -/
def after : Async σ ε α → List σ → Async σ ε α
  | p, [] => p
  | p, s :: seen => after (p.resume s).1 seen

theorem after_nil (p : Async σ ε α) : p.after [] = p := rfl

theorem after_cons (p : Async σ ε α) (s : σ) (seen : List σ) :
    p.after (s :: seen) = (p.resume s).1.after seen := rfl

@[simp] theorem after_done (r : Except ε α) (seen : List σ) :
    (done r : Async σ ε α).after seen = done r := by
  induction seen with
  | nil => rfl
  | cons s seen ih => exact ih

theorem after_append (p : Async σ ε α) (seen later : List σ) :
    p.after (seen ++ later) = (p.after seen).after later := by
  induction seen generalizing p with
  | nil => rfl
  | cons s seen ih => exact ih (p.resume s).1

def isDone : Async σ ε α → Bool
  | done _ => true
  | _ => false

theorem exists_of_isDone {p : Async σ ε α} (h : p.isDone = true) : ∃ r, p = done r := by
  cases p with
  | done r => exact ⟨r, rfl⟩
  | act update next => cases h
  | pause next => cases h

/-! ## Guarantees

A relation between the states before and after each of the steps. -/

/-- Every action of the procedure takes a state to a related one. -/
def Guarantees (G : σ → σ → Prop) : Async σ ε α → Prop
  | done _ => True
  | act update next => ∀ s, G s (update s) ∧ Guarantees G (next s)
  | pause next => Guarantees G next

namespace Guarantees

variable {G : σ → σ → Prop}

theorem lift (r : Except ε α) : Guarantees G (liftM r : Async σ ε α) := trivial

theorem pure (a : α) : Guarantees G (Pure.pure a : Async σ ε α) := trivial

theorem throw (e : ε) : Guarantees G (MonadExcept.throw e : Async σ ε α) := trivial

theorem yield : Guarantees G (Async.yield : Async σ ε Unit) := trivial

theorem get (hrefl : ∀ s, G s s) : Guarantees G (Async.get : Async σ ε σ) :=
  fun s => ⟨hrefl s, trivial⟩

theorem modify {update : σ → σ} (h : ∀ s, G s (update s)) :
    Guarantees G (Async.modify update : Async σ ε Unit) :=
  fun s => ⟨h s, trivial⟩

theorem bind {p : Async σ ε α} {f : α → Async σ ε β} (hp : Guarantees G p)
    (hf : ∀ a, Guarantees G (f a)) : Guarantees G (p >>= f) := by
  show Guarantees G (Async.bind p f)
  induction p with
  | done r =>
    cases r with
    | error e => trivial
    | ok a => exact hf a
  | act update next ih => exact fun s => ⟨(hp s).1, ih s (hp s).2⟩
  | pause next ih => exact ih hp

theorem forget {p : Async σ ε α} (hp : Guarantees G p) : Guarantees G p.forget := by
  induction p with
  | done r => trivial
  | act update next ih => exact fun s => ⟨(hp s).1, ih s (hp s).2⟩
  | pause next ih => exact ih hp

theorem mono {H : σ → σ → Prop} (h : ∀ s t, G s t → H s t) {p : Async σ ε α}
    (hp : Guarantees G p) : Guarantees H p := by
  induction p with
  | done r => trivial
  | act update next ih => exact fun s => ⟨h s _ (hp s).1, ih s (hp s).2⟩
  | pause next ih => exact ih hp

/-- A procedure on a part of the state. -/
theorem zoom {τ : Type} {H : τ → τ → Prop} {view : σ → τ} {put : τ → σ → σ}
    (h : ∀ s t, H (view s) t → G s (put t s)) {p : Async τ ε α} (hp : Guarantees H p) :
    Guarantees G (p.zoom view put) := by
  induction p with
  | done r => trivial
  | act update next ih => exact fun s => ⟨h s _ (hp (view s)).1, ih (view s) (hp (view s)).2⟩
  | pause next ih => exact ih hp

/-- Running to the end satisfies the guarantee. -/
theorem run (hrefl : ∀ s, G s s) (htrans : ∀ {s t u}, G s t → G t u → G s u)
    {p : Async σ ε α} (hp : Guarantees G p) (s : σ) : G s (p.run s).2 := by
  induction p generalizing s with
  | done r => exact hrefl s
  | act update next ih => exact htrans (hp s).1 (ih s (hp s).2 (update s))
  | pause next ih => exact ih hp s

/-- A step satisfies the guarantee, and so does what is left. -/
theorem resume (hrefl : ∀ s, G s s) (htrans : ∀ {s t u}, G s t → G t u → G s u)
    {p : Async σ ε α} (hp : Guarantees G p) (s : σ) :
    G s (p.resume s).2 ∧ Guarantees G (p.resume s).1 := by
  induction p generalizing s with
  | done r => exact ⟨hrefl s, trivial⟩
  | act update next ih =>
    obtain ⟨hstep, hnext⟩ := hp s
    obtain ⟨hrest, hleft⟩ := ih s hnext (update s)
    exact ⟨htrans hstep hrest, hleft⟩
  | pause next _ => exact ⟨hrefl s, hp⟩

theorem after (hrefl : ∀ s, G s s) (htrans : ∀ {s t u}, G s t → G t u → G s u)
    {p : Async σ ε α} (hp : Guarantees G p) (seen : List σ) : Guarantees G (p.after seen) := by
  induction seen generalizing p with
  | nil => exact hp
  | cons s seen ih => exact ih (hp.resume hrefl htrans s).2

end Guarantees

/-! ## What a step starts with -/

/-- The procedure does this first. -/
def Begins (p : Async σ ε α) (first : Async σ ε β) : Prop := ∃ next, p = first >>= next

variable {γ : Type} {view : σ → γ} {stop : Async σ ε α → Prop}

/-- The procedure leaves the view alone, at least until one of its steps would
start with `stop`. The flag says that a step starts here. -/
def LeadsTo (view : σ → γ) (stop : Async σ ε α → Prop) : Bool → Async σ ε α → Prop
  | _, done _ => True
  | starts, act update next =>
    (starts = true ∧ stop (act update next)) ∨
      ∀ s, view (update s) = view s ∧ LeadsTo view stop false (next s)
  | _, pause next => LeadsTo view stop true next

/-- Every action leaves the view alone. -/
def Keeps (view : σ → γ) (p : Async σ ε α) : Prop := Guarantees (fun s t => view t = view s) p

namespace LeadsTo

theorem of_stop {update : σ → σ} {next : σ → Async σ ε α} (h : stop (act update next)) :
    LeadsTo view stop true (act update next) :=
  Or.inl ⟨rfl, h⟩

theorem of_keeps {starts : Bool} {p : Async σ ε α} (hp : Keeps view p) :
    LeadsTo view stop starts p := by
  induction p generalizing starts with
  | done r => trivial
  | act update next ih => exact Or.inr (fun s => ⟨(hp s).1, ih s (hp s).2⟩)
  | pause next ih => exact ih hp

theorem lift {starts : Bool} {r : Except ε β} {f : β → Async σ ε α}
    (hf : ∀ b, LeadsTo view stop starts (f b)) :
    LeadsTo view stop starts ((liftM r : Async σ ε β) >>= f) := by
  cases r with
  | error e => trivial
  | ok b => exact hf b

theorem yield {starts : Bool} {f : Unit → Async σ ε α} (hf : LeadsTo view stop true (f ())) :
    LeadsTo view stop starts ((Async.yield : Async σ ε Unit) >>= f) := hf

/-- What follows may come in the middle of a step. -/
theorem bind {starts : Bool} {p : Async σ ε β} {f : β → Async σ ε α} (hp : Keeps view p)
    (hf : ∀ starts b, LeadsTo view stop starts (f b)) : LeadsTo view stop starts (p >>= f) := by
  show LeadsTo view stop starts (Async.bind p f)
  induction p generalizing starts with
  | done r =>
    cases r with
    | error e => trivial
    | ok b => exact hf starts b
  | act update next ih => exact Or.inr (fun s => ⟨(hp s).1, ih s (hp s).2⟩)
  | pause next ih => exact ih hp

theorem resume_of_not_start {p : Async σ ε α} (hp : LeadsTo view stop false p) (s : σ) :
    view (p.resume s).2 = view s ∧ LeadsTo view stop true (p.resume s).1 := by
  induction p generalizing s with
  | done r => exact ⟨rfl, trivial⟩
  | act update next ih =>
    rcases hp with ⟨hstarts, -⟩ | hnext
    · cases hstarts
    · obtain ⟨hview, hrest⟩ := hnext s
      obtain ⟨hsame, hleft⟩ := ih s hrest (update s)
      exact ⟨hsame.trans hview, hleft⟩
  | pause next _ => exact ⟨rfl, hp⟩

/-- The next step starts with `stop`, or leaves the view alone. -/
theorem resume {p : Async σ ε α} (hp : LeadsTo view stop true p) :
    stop p ∨ ∀ s, view (p.resume s).2 = view s ∧ LeadsTo view stop true (p.resume s).1 := by
  cases p with
  | done r => exact Or.inr (fun s => ⟨rfl, trivial⟩)
  | act update next =>
    rcases hp with ⟨-, hstop⟩ | hnext
    · exact Or.inl hstop
    · refine Or.inr (fun s => ?_)
      obtain ⟨hview, hrest⟩ := hnext s
      obtain ⟨hsame, hleft⟩ := hrest.resume_of_not_start (update s)
      exact ⟨hsame.trans hview, hleft⟩
  | pause next => exact Or.inr (fun s => ⟨rfl, hp⟩)

end LeadsTo

end Async

/-! ## Pools -/

structure Pool (ι σ ε α : Type) where
  state : σ
  processes : ι → Async σ ε α
  /-- The states each procedure was resumed in, in order. -/
  seen : ι → List σ

namespace Pool

def start (programs : ι → Async σ ε α) (s : σ) : Pool ι σ ε α :=
  { state := s, processes := programs, seen := fun _ => [] }

variable [DecidableEq ι]

def step (pool : Pool ι σ ε α) (i : ι) : Pool ι σ ε α :=
  { state := ((pool.processes i).resume pool.state).2
    processes := Function.update pool.processes i ((pool.processes i).resume pool.state).1
    seen := Function.update pool.seen i (pool.seen i ++ [pool.state]) }

def run (pool : Pool ι σ ε α) (schedule : List ι) : Pool ι σ ε α := schedule.foldl step pool

theorem run_append (pool : Pool ι σ ε α) (schedule later : List ι) :
    pool.run (schedule ++ later) = (pool.run schedule).run later :=
  List.foldl_append

/-- What is left of each procedure is determined by the states it has seen. -/
theorem processes_step {programs : ι → Async σ ε α} {pool : Pool ι σ ε α}
    (h : ∀ i, pool.processes i = (programs i).after (pool.seen i)) (j i : ι) :
    (pool.step j).processes i = (programs i).after ((pool.step j).seen i) := by
  by_cases hi : i = j
  · subst hi
    have hlast : (programs i).after (pool.seen i ++ [pool.state]) =
        ((pool.processes i).resume pool.state).1 := by
      rw [Async.after_append, ← h i]
      rfl
    simp only [step, Function.update_self, hlast]
  · simp only [step, Function.update_of_ne hi]
    exact h i

theorem processes_run (programs : ι → Async σ ε α) (s : σ) (schedule : List ι) (i : ι) :
    ((start programs s).run schedule).processes i =
      (programs i).after (((start programs s).run schedule).seen i) := by
  have hgen : ∀ (schedule : List ι) (pool : Pool ι σ ε α),
      (∀ i, pool.processes i = (programs i).after (pool.seen i)) →
      ∀ i, (pool.run schedule).processes i = (programs i).after ((pool.run schedule).seen i) := by
    intro schedule
    induction schedule with
    | nil => exact fun _ h => h
    | cons j schedule ih => exact fun pool h => ih (pool.step j) (processes_step h j)
  exact hgen schedule (start programs s) (fun _ => rfl) i

/-- The history of a procedure only grows. -/
theorem seen_run (pool : Pool ι σ ε α) (schedule : List ι) (i : ι) :
    ∃ more, (pool.run schedule).seen i = pool.seen i ++ more := by
  induction schedule generalizing pool with
  | nil => exact ⟨[], (List.append_nil _).symm⟩
  | cons j schedule ih =>
    obtain ⟨more, hmore⟩ := ih (pool.step j)
    by_cases hi : i = j
    · subst hi
      refine ⟨pool.state :: more, ?_⟩
      have hlast : (pool.step i).seen i = pool.seen i ++ [pool.state] := Function.update_self _ _ _
      show ((pool.step i).run schedule).seen i = _
      rw [hmore, hlast, List.append_assoc, List.singleton_append]
    · refine ⟨more, ?_⟩
      have hsame : (pool.step j).seen i = pool.seen i := Function.update_of_ne hi _ _
      show ((pool.step j).run schedule).seen i = _
      rw [hmore, hsame]

/-- What every step of the schedule keeps holds after it. -/
theorem run_invariant (inv : Pool ι σ ε α → Prop) {pool : Pool ι σ ε α} {schedule : List ι}
    (hinit : inv pool) (hstep : ∀ before i later, schedule = before ++ i :: later →
      inv (pool.run before) → inv ((pool.run before).step i)) : inv (pool.run schedule) := by
  induction schedule generalizing pool with
  | nil => exact hinit
  | cons j schedule ih =>
    refine ih (hstep [] j schedule rfl hinit) (fun before i later hsplit hbefore => ?_)
    exact hstep (j :: before) i later (by rw [hsplit, List.cons_append]) hbefore

/-- What no longer holds stopped holding in some step. -/
theorem exists_step_of_not {P : σ → Prop} {pool : Pool ι σ ε α} {schedule : List ι}
    (hbefore : P pool.state) (hafter : ¬ P (pool.run schedule).state) :
    ∃ before i later, schedule = before ++ i :: later ∧
      P (pool.run before).state ∧ ¬ P ((pool.run before).step i).state := by
  induction schedule generalizing pool with
  | nil => exact absurd hbefore hafter
  | cons j schedule ih =>
    by_cases hstep : P (pool.step j).state
    · obtain ⟨before, i, later, rfl, hP, hnot⟩ := ih hstep hafter
      exact ⟨j :: before, i, later, rfl, hP, hnot⟩
    · exact ⟨[], j, schedule, rfl, hbefore, hstep⟩

end Pool

end UserManagedAccess.Lib
