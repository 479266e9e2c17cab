/-
UserManagedAccess.Lib.Rely — what a procedure achieves while others run.

`Wp R p Q s` says that `p`, resumed in `s`, ends as `Q` says when between its
steps the state only changes as the relation `R` allows. In a pool whose
procedures all guarantee `R`, its own steps lead to it again (`wp_resume`) and
the steps of the others keep it (`awaits_step`).
-/
import UserManagedAccess.Lib.Interleaving

namespace UserManagedAccess.Lib.Async

variable {σ ε α β : Type} {R : σ → σ → Prop}

def Wp (R : σ → σ → Prop) : Async σ ε α → (Except ε α → σ → Prop) → σ → Prop
  | done r, Q, s => Q r s
  | act update next, Q, s => Wp R (next s) Q (update s)
  | pause next, Q, s => ∀ s', R s s' → Wp R next Q s'

/-- What the first of two procedures has to achieve. -/
def Then (R : σ → σ → Prop) (f : α → Async σ ε β) (Q : Except ε β → σ → Prop) :
    Except ε α → σ → Prop
  | .ok a, s => Wp R (f a) Q s
  | .error e, s => Q (.error e) s

theorem wp_bind {p : Async σ ε α} {f : α → Async σ ε β} {Q : Except ε β → σ → Prop} {s : σ}
    (h : Wp R p (Then R f Q) s) : Wp R (p >>= f) Q s := by
  show Wp R (bind p f) Q s
  induction p generalizing s with
  | done r =>
    cases r with
    | ok a => exact h
    | error e => exact h
  | act update next ih => exact ih s h
  | pause next ih => exact fun s' hs' => ih (h s' hs')

theorem wp_mono {p : Async σ ε α} {Q Q' : Except ε α → σ → Prop} {s : σ}
    (hpost : ∀ r t, Q r t → Q' r t) (h : Wp R p Q s) : Wp R p Q' s := by
  induction p generalizing s with
  | done r => exact hpost r s h
  | act update next ih => exact ih s h
  | pause next ih => exact fun s' hs' => ih (h s' hs')

/-- Where a procedure keeps to `R` too, it ends in a state `R` allows. -/
theorem wp_of_guarantees (hrefl : ∀ s, R s s) (htrans : ∀ {s t u}, R s t → R t u → R s u)
    {p : Async σ ε α} (hp : Guarantees R p) {Q : Except ε α → σ → Prop} {s : σ}
    (hpost : ∀ r t, R s t → Q r t) : Wp R p Q s := by
  induction p generalizing s with
  | done r => exact hpost r s (hrefl s)
  | act update next ih =>
    exact ih s (hp s).2 fun r t ht => hpost r t (htrans (hp s).1 ht)
  | pause next ih => exact fun s' hs' => ih hp fun r t ht => hpost r t (htrans hs' ht)

/-- Whatever others do next, the procedure achieves `Q`. -/
def Awaits (R : σ → σ → Prop) (p : Async σ ε α) (Q : Except ε α → σ → Prop) (s : σ) : Prop :=
  ∀ s', R s s' → Wp R p Q s'

/-- After a step of its own. -/
theorem wp_resume {p : Async σ ε α} {Q : Except ε α → σ → Prop} {s : σ}
    (hstable : ∀ r s t, R s t → Q r s → Q r t) (h : Wp R p Q s) :
    Awaits R (p.resume s).1 Q (p.resume s).2 := by
  induction p generalizing s with
  | done r => exact fun s' hs' => hstable r s s' hs' h
  | act update next ih => exact ih s h
  | pause next _ => exact h

end UserManagedAccess.Lib.Async

namespace UserManagedAccess.Lib.Pool

open UserManagedAccess.Lib

variable {ι σ ε α : Type} {R : σ → σ → Prop} [DecidableEq ι] {pool : Pool ι σ ε α}

theorem step_related (hrefl : ∀ s, R s s) (htrans : ∀ {s t u}, R s t → R t u → R s u)
    (hguard : ∀ i, Async.Guarantees R (pool.processes i)) (k : ι) :
    R pool.state (pool.step k).state :=
  ((hguard k).resume hrefl htrans pool.state).1

theorem guarantees_step (hrefl : ∀ s, R s s) (htrans : ∀ {s t u}, R s t → R t u → R s u)
    (hguard : ∀ i, Async.Guarantees R (pool.processes i)) (k i : ι) :
    Async.Guarantees R ((pool.step k).processes i) := by
  by_cases hi : i = k
  · subst hi
    simp only [step, Function.update_self]
    exact ((hguard i).resume hrefl htrans pool.state).2
  · simp only [step, Function.update_of_ne hi]
    exact hguard i

/-- What a procedure achieves whatever others do, it still achieves after any step. -/
theorem awaits_step (hrefl : ∀ s, R s s) (htrans : ∀ {s t u}, R s t → R t u → R s u)
    (hguard : ∀ i, Async.Guarantees R (pool.processes i)) {Q : Except ε α → σ → Prop}
    (hstable : ∀ r s t, R s t → Q r s → Q r t) {i : ι}
    (h : Async.Awaits R (pool.processes i) Q pool.state) (k : ι) :
    Async.Awaits R ((pool.step k).processes i) Q (pool.step k).state := by
  by_cases hi : i = k
  · subst hi
    simp only [step, Function.update_self]
    exact Async.wp_resume hstable (h pool.state (hrefl _))
  · simp only [step, Function.update_of_ne hi]
    exact fun s' hs' => h s' (htrans (step_related hrefl htrans hguard k) hs')

/-- A procedure that is done stays done. -/
theorem done_step {i : ι} {r : Except ε α} (h : pool.processes i = .done r) (k : ι) :
    (pool.step k).processes i = .done r := by
  by_cases hi : i = k
  · subst hi
    simp only [step, Function.update_self, h]
    rfl
  · simp only [step, Function.update_of_ne hi]
    exact h

end UserManagedAccess.Lib.Pool
