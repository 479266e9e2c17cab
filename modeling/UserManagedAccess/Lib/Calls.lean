/-
UserManagedAccess.Lib.Calls — procedures that reach the shared state through
awaited calls, each of them atomic.

Every step of such a procedure is at most one update. `Steps R W` says which:
resumed in a state, and as long as between its steps the state only changes as
`R` allows, each step is an update that `W` allows in the state it happens in.
In a pool of such procedures every step is one (`Pool.step_of_calls`).
-/
import UserManagedAccess.Lib.Interleaving

namespace UserManagedAccess.Lib

variable {ι σ ε α β : Type}

namespace Async

/-- `await` on a call that is atomic when it happens. -/
def call (operation : σ → Except ε β × σ) : Async σ ε β :=
  act (fun s => (operation s).2) (fun s => pause (done (operation s).1))

theorem run_call (operation : σ → Except ε β × σ) (s : σ) :
    (call operation).run s = operation s := rfl

/-- The update the next step starts with. -/
def nextUpdate : Async σ ε α → σ → σ
  | act update _ => update
  | _ => id

/-- Every step is one update. The flag says that the step has not made it yet,
and `Q` holds where the procedure ends. -/
def Steps (R : σ → σ → Prop) (W : (σ → σ) → σ → Prop) (Q : Bool → Except ε α → σ → Prop) :
    Bool → Async σ ε α → σ → Prop
  | ready, done r, s => Q ready r s
  | ready, act update next, s =>
    ready = true ∧ W update s ∧ Steps R W Q false (next s) (update s)
  | _, pause next, s => ∀ t, R s t → Steps R W Q true next t

namespace Steps

variable {R : σ → σ → Prop} {W : (σ → σ) → σ → Prop}

/-- What the first of two procedures has to achieve. -/
def Then (R : σ → σ → Prop) (W : (σ → σ) → σ → Prop) (f : α → Async σ ε β)
    (Q : Bool → Except ε β → σ → Prop) : Bool → Except ε α → σ → Prop
  | ready, .ok a, s => Steps R W Q ready (f a) s
  | ready, .error e, s => Q ready (.error e) s

theorem bind {p : Async σ ε α} {f : α → Async σ ε β} {Q : Bool → Except ε β → σ → Prop}
    {ready : Bool} {s : σ} (h : Steps R W (Then R W f Q) ready p s) :
    Steps R W Q ready (p >>= f) s := by
  show Steps R W Q ready (Async.bind p f) s
  induction p generalizing ready s with
  | done r =>
    cases r with
    | ok a => exact h
    | error e => exact h
  | act update next ih => exact ⟨h.1, h.2.1, ih s h.2.2⟩
  | pause next ih => exact fun t ht => ih (h t ht)

variable {Q : Bool → Except ε α → σ → Prop}

theorem lift {r : Except ε β} {f : β → Async σ ε α} {ready : Bool} {s : σ}
    (herror : ∀ e, Q ready (.error e) s) (hf : ∀ b, r = .ok b → Steps R W Q ready (f b) s) :
    Steps R W Q ready ((liftM r : Async σ ε β) >>= f) s := by
  cases r with
  | error e => exact herror e
  | ok b => exact hf b rfl

theorem yield {f : Unit → Async σ ε α} {ready : Bool} {s : σ}
    (hf : ∀ t, R s t → Steps R W Q true (f ()) t) :
    Steps R W Q ready (Async.yield >>= f) s := hf

theorem call {operation : σ → Except ε β × σ} {f : β → Async σ ε α} {s : σ}
    (hwrite : W (fun s => (operation s).2) s)
    (herror : ∀ e t, Q true (.error e) t)
    (hf : ∀ b t, (operation s).1 = .ok b → R (operation s).2 t → Steps R W Q true (f b) t) :
    Steps R W Q true (Async.call operation >>= f) s := by
  refine ⟨rfl, hwrite, fun t ht => ?_⟩
  show Steps R W Q true (Async.bind (done (operation s).1) f) t
  cases hresult : (operation s).1 with
  | error e => exact herror e t
  | ok b => exact hf b t hresult ht

theorem modify {update : σ → σ} {f : Unit → Async σ ε α} {s : σ} (hwrite : W update s)
    (hf : ∀ t, R (update s) t → Steps R W Q true (f ()) t) :
    Steps R W Q true (Async.modify update >>= fun _ => Async.yield >>= f) s := ⟨rfl, hwrite, hf⟩

/-- Once the update of a step is made, the step only reaches its pause. -/
theorem resume_of_made {p : Async σ ε α} {s : σ} (hstable : ∀ ready r t u, R t u → Q ready r t →
    Q true r u) (h : Steps R W Q false p s) :
    (p.resume s).2 = s ∧ ∀ t, R s t → Steps R W Q true (p.resume s).1 t := by
  cases p with
  | done r => exact ⟨rfl, fun t ht => hstable false r s t ht h⟩
  | act update next => exact absurd h.1 Bool.false_ne_true
  | pause next => exact ⟨rfl, h⟩

theorem resume {p : Async σ ε α} {s : σ} (hid : ∀ s, W id s)
    (hstable : ∀ ready r t u, R t u → Q ready r t → Q true r u) (h : Steps R W Q true p s) :
    W p.nextUpdate s ∧ (p.resume s).2 = p.nextUpdate s ∧
      ∀ t, R (p.nextUpdate s) t → Steps R W Q true (p.resume s).1 t := by
  cases p with
  | done r => exact ⟨hid s, rfl, fun t ht => hstable true r s t ht h⟩
  | act update next =>
    obtain ⟨hstate, hrest⟩ := resume_of_made hstable h.2.2
    exact ⟨h.2.1, hstate, hrest⟩
  | pause next => exact ⟨hid s, rfl, h⟩

end Steps

end Async

/-! ## Pools -/

namespace Pool

variable [DecidableEq ι] {R : σ → σ → Prop} {W : (σ → σ) → σ → Prop}

/-- Whatever the others do next, the steps of each procedure are as `W` says. -/
def Calls (R : σ → σ → Prop) (W : (σ → σ) → σ → Prop) (pool : Pool ι σ ε α) : Prop :=
  ∀ i t, R pool.state t → Async.Steps R W (fun _ _ _ => True) true (pool.processes i) t

/-- A step of a pool is one update. -/
theorem step_of_calls (hrefl : ∀ s, R s s) (hid : ∀ s, W id s) {pool : Pool ι σ ε α}
    (h : pool.Calls R W) (i : ι) :
    W (pool.processes i).nextUpdate pool.state ∧
      (pool.step i).state = (pool.processes i).nextUpdate pool.state := by
  obtain ⟨hwrite, hstate, -⟩ :=
    (h i pool.state (hrefl _)).resume hid (fun _ _ _ _ _ _ => trivial)
  exact ⟨hwrite, hstate⟩

theorem calls_step (hrefl : ∀ s, R s s) (htrans : ∀ {s t u}, R s t → R t u → R s u)
    (hid : ∀ s, W id s) (hwrites : ∀ update s, W update s → R s (update s))
    {pool : Pool ι σ ε α} (h : pool.Calls R W) (k : ι) : (pool.step k).Calls R W := by
  obtain ⟨hwrite, hstate⟩ := step_of_calls hrefl hid h k
  intro i t ht
  rw [hstate] at ht
  by_cases hi : i = k
  · subst hi
    simp only [step, Function.update_self]
    exact ((h i pool.state (hrefl _)).resume hid (fun _ _ _ _ _ _ => trivial)).2.2 t ht
  · simp only [step, Function.update_of_ne hi]
    exact h i t (htrans (hwrites _ _ hwrite) ht)

end Pool

end UserManagedAccess.Lib
