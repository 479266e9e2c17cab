/-
UserManagedAccess.Lib.Async — asynchronous procedures on a shared state, and
their interleavings.

An `Async σ ε α` is what an `async` function does to a state `σ` it shares
with others: it acts on the state, it pauses (`await`), and it ends with a
value or an exception. Between two pauses nothing else runs; at a pause
anything may. The two ways to run a procedure are

* `Async.run` — to the end, alone;
* `Async.resume` — up to its next pause, which is the step an interleaving
  takes.

The type is a tree, so every procedure ends after finitely many steps of its
own. A loop over a list is a recursion of the enclosing function.
-/
import Mathlib.Logic.Function.Basic

namespace UserManagedAccess.Lib

inductive Async (σ ε α : Type) where
  | done (result : Except ε α)
  /-- Read the state, replace it by `update`, go on with what was read. -/
  | act (update : σ → σ) (next : σ → Async σ ε α)
  | pause (next : Async σ ε α)

namespace Async

variable {σ τ ε α β : Type}

/-! ## The monad -/

def bind : Async σ ε α → (α → Async σ ε β) → Async σ ε β
  | done (.ok a), f => f a
  | done (.error e), _ => done (.error e)
  | act update next, f => act update (fun s => bind (next s) f)
  | pause next, f => pause (bind next f)

instance : Monad (Async σ ε) where
  pure a := done (.ok a)
  bind := bind

instance : MonadExceptOf ε (Async σ ε) where
  throw e := done (.error e)
  tryCatch p handler :=
    let rec go : Async σ ε _ → Async σ ε _
      | done (.ok a) => done (.ok a)
      | done (.error e) => handler e
      | act update next => act update (fun s => go (next s))
      | pause next => pause (go next)
    go p

/-- A synchronous computation that may throw. -/
instance : MonadLift (Except ε) (Async σ ε) := ⟨done⟩

theorem bind_assoc {γ : Type} (p : Async σ ε α) (f : α → Async σ ε β) (g : β → Async σ ε γ) :
    (p >>= f) >>= g = p >>= fun a => f a >>= g := by
  show bind (bind p f) g = bind p (fun a => bind (f a) g)
  induction p with
  | done r => cases r <;> rfl
  | act update next ih => simp only [bind, ih]
  | pause next ih => simp only [bind, ih]

/-! ## Primitives -/

def get : Async σ ε σ := act id (fun s => done (.ok s))

def modify (update : σ → σ) : Async σ ε Unit := act update (fun _ => done (.ok ()))

/-- `await` on something that does not touch the shared state. -/
def yield : Async σ ε Unit := pause (done (.ok ()))

/-- A call that is not awaited: what it does happens, what it throws is lost. -/
def forget : Async σ ε α → Async σ ε Unit
  | done _ => done (.ok ())
  | act update next => act update (fun s => forget (next s))
  | pause next => pause (forget next)

/-- A procedure on a part of the state, run on the whole. -/
def zoom (view : σ → τ) (put : τ → σ → σ) : Async τ ε α → Async σ ε α
  | done r => done r
  | act update next =>
    act (fun s => put (update (view s)) s) (fun s => zoom view put (next (view s)))
  | pause next => pause (zoom view put next)

/-! ## Running alone -/

def run : Async σ ε α → σ → Except ε α × σ
  | done r, s => (r, s)
  | act update next, s => run (next s) (update s)
  | pause next, s => run next s

@[simp] theorem run_done (r : Except ε α) (s : σ) :
    (done r : Async σ ε α).run s = (r, s) := rfl

@[simp] theorem run_pure (a : α) (s : σ) :
    (Pure.pure a : Async σ ε α).run s = (.ok a, s) := rfl

@[simp] theorem run_throw (e : ε) (s : σ) :
    (throw e : Async σ ε α).run s = (.error e, s) := rfl

@[simp] theorem run_lift (r : Except ε α) (s : σ) :
    (liftM r : Async σ ε α).run s = (r, s) := rfl

@[simp] theorem run_get (s : σ) : (get : Async σ ε σ).run s = (.ok s, s) := rfl

@[simp] theorem run_modify (update : σ → σ) (s : σ) :
    (modify update : Async σ ε Unit).run s = (.ok (), update s) := rfl

@[simp] theorem run_yield (s : σ) : (yield : Async σ ε Unit).run s = (.ok (), s) := rfl

theorem run_forget (p : Async σ ε α) (s : σ) : (forget p).run s = (.ok (), (p.run s).2) := by
  induction p generalizing s with
  | done r => rfl
  | act update next ih => exact ih s (update s)
  | pause next ih => exact ih s

/-- What follows a procedure runs in the state the procedure leaves, unless
it threw. -/
theorem run_bind (p : Async σ ε α) (f : α → Async σ ε β) (s : σ) :
    (p >>= f).run s =
      match p.run s with
      | (.ok a, s') => (f a).run s'
      | (.error e, s') => (.error e, s') := by
  show (bind p f).run s = _
  induction p generalizing s with
  | done r => cases r <;> rfl
  | act update next ih => exact ih s (update s)
  | pause next ih => exact ih s

theorem run_bind_of_ok {p : Async σ ε α} {s t : σ} {a : α} (h : p.run s = (.ok a, t))
    (f : α → Async σ ε β) : (p >>= f).run s = (f a).run t := by
  rw [run_bind, h]

theorem run_bind_of_error {p : Async σ ε α} {s t : σ} {e : ε} (h : p.run s = (.error e, t))
    (f : α → Async σ ε β) : (p >>= f).run s = (.error e, t) := by
  rw [run_bind, h]

theorem run_bind_ok {p : Async σ ε α} {f : α → Async σ ε β} {s s' : σ} {b : β}
    (h : (p >>= f).run s = (.ok b, s')) :
    ∃ a t, p.run s = (.ok a, t) ∧ (f a).run t = (.ok b, s') := by
  rw [run_bind] at h
  rcases hp : p.run s with ⟨_ | a, t⟩
  · rw [hp] at h; simp at h
  · rw [hp] at h; exact ⟨a, t, rfl, h⟩

/-- The handler runs in the state in which the procedure threw. -/
theorem run_tryCatch (p : Async σ ε α) (handler : ε → Async σ ε α) (s : σ) :
    (tryCatch p handler).run s =
      match p.run s with
      | (.ok a, s') => (.ok a, s')
      | (.error e, s') => (handler e).run s' := by
  induction p generalizing s with
  | done r => cases r <;> rfl
  | act update next ih => exact ih s (update s)
  | pause next ih => exact ih s

theorem run_tryCatch_of_ok {p : Async σ ε α} {s t : σ} {a : α} (h : p.run s = (.ok a, t))
    (handler : ε → Async σ ε α) : (tryCatch p handler).run s = (.ok a, t) := by
  rw [run_tryCatch, h]

theorem run_tryCatch_of_error {p : Async σ ε α} {s t : σ} {e : ε} (h : p.run s = (.error e, t))
    (handler : ε → Async σ ε α) : (tryCatch p handler).run s = (handler e).run t := by
  rw [run_tryCatch, h]

/-! ## Frames -/

/-- Whatever the outcome, running the procedure leaves `rest` as it was. -/
def Frame {γ : Type} (rest : σ → γ) (p : Async σ ε α) : Prop :=
  ∀ s, rest (p.run s).2 = rest s

namespace Frame

variable {γ : Type} {rest : σ → γ}

theorem pure (a : α) : Frame rest (Pure.pure a : Async σ ε α) := fun _ => rfl

theorem throw (e : ε) : Frame rest (MonadExcept.throw e : Async σ ε α) := fun _ => rfl

theorem lift (r : Except ε α) : Frame rest (liftM r : Async σ ε α) := fun _ => rfl

theorem get : Frame rest (Async.get : Async σ ε σ) := fun _ => rfl

theorem yield : Frame rest (Async.yield : Async σ ε Unit) := fun _ => rfl

theorem bind {p : Async σ ε α} {f : α → Async σ ε β} (hp : Frame rest p)
    (hf : ∀ a, Frame rest (f a)) : Frame rest (p >>= f) := by
  intro s
  have hfirst := hp s
  rw [run_bind]
  rcases hrun : p.run s with ⟨_ | a, s'⟩
  · rw [hrun] at hfirst
    exact hfirst
  · rw [hrun] at hfirst
    exact (hf a s').trans hfirst

/-- A procedure on a part of the state changes nothing the part's `put`
leaves alone. -/
theorem zoom {view : σ → τ} {put : τ → σ → σ} (hput : ∀ t s, rest (put t s) = rest s)
    (p : Async τ ε α) : Frame rest (p.zoom view put) := by
  intro s
  induction p generalizing s with
  | done r => rfl
  | act update next ih => exact (ih (view s) _).trans (hput _ _)
  | pause next ih => exact ih s

end Frame

/-- A procedure on a part of the state returns what it returns there. -/
theorem run_zoom_fst {view : σ → τ} {put : τ → σ → σ} (hview : ∀ t s, view (put t s) = t)
    (p : Async τ ε α) (s : σ) : ((p.zoom view put).run s).1 = (p.run (view s)).1 := by
  induction p generalizing s with
  | done r => rfl
  | act update next ih =>
    have hrun := ih (view s) (put (update (view s)) s)
    rw [hview] at hrun
    exact hrun
  | pause next ih => exact ih s

/-- Where `view` and `put` are the parts of a state, running on the part is
running there. -/
theorem run_zoom {view : σ → τ} {put : τ → σ → σ} (hview : ∀ t s, view (put t s) = t)
    (hput : ∀ t t' s, put t (put t' s) = put t s) (hself : ∀ s, put (view s) s = s)
    (p : Async τ ε α) (s : σ) :
    (p.zoom view put).run s = ((p.run (view s)).1, put (p.run (view s)).2 s) := by
  induction p generalizing s with
  | done r =>
    show (r, s) = (r, put (view s) s)
    rw [hself]
  | act update next ih =>
    show ((next (view s)).zoom view put).run (put (update (view s)) s) = _
    rw [ih, hview, hput]
    rfl
  | pause next ih => exact ih s

/-! ## Running up to the next pause -/

def resume : Async σ ε α → σ → Async σ ε α × σ
  | done r, s => (done r, s)
  | act update next, s => resume (next s) (update s)
  | pause next, s => (next, s)

theorem resume_get_bind (f : σ → Async σ ε α) (s : σ) :
    (get >>= f).resume s = (f s).resume s := rfl

end Async

end UserManagedAccess.Lib
