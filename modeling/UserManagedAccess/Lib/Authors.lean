/-
UserManagedAccess.Lib.Authors — which procedure of a pool makes which updates.

`Pool.CallsBy R W` says of each procedure that its steps are updates `W`
allows it, as long as the others change the state as `R` allows.
`Async.WritesOnce` are the procedures that write at most once, and read before
and after that: once such a procedure has written, it is `Silent`.

* `Pool.callsBy_run` — what the procedures are started with holds in every run;
* `Pool.exists_resume` — a procedure that ends was resumed before.
-/
import UserManagedAccess.Lib.Calls
import UserManagedAccess.Lib.Rely

namespace UserManagedAccess.Lib

variable {ι σ ε α β : Type}

namespace Async

/-! ## Results that do not matter -/

namespace Steps

variable {R : σ → σ → Prop} {W : (σ → σ) → σ → Prop} {ready : Bool} {s : σ}

theorem imp {Q Q' : Bool → Except ε α → σ → Prop} {p : Async σ ε α}
    (hpost : ∀ ready r t, Q ready r t → Q' ready r t) (h : Steps R W Q ready p s) :
    Steps R W Q' ready p s := by
  induction p generalizing ready s with
  | done r => exact hpost ready r s h
  | act update next ih => exact ⟨h.1, h.2.1, ih s h.2.2⟩
  | pause next ih => exact fun t ht => ih (h t ht)

/-- What is made of the result takes no step. -/
theorem map {p : Async σ ε α} (g : α → β) (h : Steps R W (fun _ _ _ => True) ready p s) :
    Steps R W (fun _ _ _ => True) ready (p >>= fun a => pure (g a)) s := by
  refine Steps.bind (h.imp fun ready r t _ => ?_)
  cases r with
  | ok a => trivial
  | error e => trivial

end Steps

/-- A call that is waited for does what it does, and then pauses. -/
theorem resume_call_bind {γ : Type} (operation : σ → Except ε β × σ) (f : β → Async σ ε α)
    (g : α → Async σ ε γ) (s : σ) :
    (((call operation >>= f) >>= g).resume s).1 =
      ((done (operation s).1 : Async σ ε β) >>= f) >>= g := rfl

/-! ## Procedures that write once -/

/-- The procedure only reads. -/
abbrev Silent (p : Async σ ε α) : Prop := Keeps id p

def WritesOnce : Async σ ε α → Prop
  | done _ => True
  | act update next =>
    (∀ s, Silent (next s)) ∨ (∀ s, update s = s) ∧ ∀ s, WritesOnce (next s)
  | pause next => WritesOnce next

theorem Silent.resume {p : Async σ ε α} (h : Silent p) (s : σ) :
    (p.resume s).2 = s ∧ Silent (p.resume s).1 := by
  induction p generalizing s with
  | done r => exact ⟨rfl, trivial⟩
  | act update next ih =>
    obtain ⟨hstate, hleft⟩ := ih s (h s).2 (update s)
    exact ⟨hstate.trans (h s).1, hleft⟩
  | pause next _ => exact ⟨rfl, h⟩

namespace WritesOnce

theorem lift {r : Except ε β} {f : β → Async σ ε α} (hf : ∀ b, r = .ok b → WritesOnce (f b)) :
    WritesOnce ((liftM r : Async σ ε β) >>= f) := by
  cases r with
  | error e => trivial
  | ok b => exact hf b rfl

theorem yield {f : Unit → Async σ ε α} (hf : WritesOnce (f ())) :
    WritesOnce (Async.yield >>= f) := hf

/-- A call that only reads. -/
theorem read {operation : σ → Except ε β × σ} {f : β → Async σ ε α}
    (hread : ∀ s, (operation s).2 = s) (hf : ∀ b, WritesOnce (f b)) :
    WritesOnce (Async.call operation >>= f) := by
  refine Or.inr ⟨hread, fun s => ?_⟩
  show WritesOnce (Async.bind (done (operation s).1) f)
  cases (operation s).1 with
  | error e => trivial
  | ok b => exact hf b

/-- The write. -/
theorem write {operation : σ → Except ε β × σ} {f : β → Async σ ε α}
    (hf : ∀ b, Silent (f b)) : WritesOnce (Async.call operation >>= f) := by
  refine Or.inl fun s => ?_
  show Silent (Async.bind (done (operation s).1) f)
  cases (operation s).1 with
  | error e => trivial
  | ok b => exact hf b

/-- What is made of the result takes no step. -/
theorem map {p : Async σ ε α} (g : α → β) (h : WritesOnce p) :
    WritesOnce (p >>= fun a => pure (g a)) := by
  have hsilent : ∀ {p : Async σ ε α}, Silent p → Silent (p >>= fun a => pure (g a)) :=
    fun hp => Guarantees.bind hp fun _ => trivial
  show WritesOnce (Async.bind p fun a => pure (g a))
  induction p with
  | done r => cases r <;> trivial
  | act update next ih =>
    exact h.imp (fun hnext s => hsilent (hnext s)) fun hnext => ⟨hnext.1, fun s => ih s (hnext.2 s)⟩
  | pause next ih => exact ih h

/-- After a step, the procedure is silent or has not written. -/
theorem resume {p : Async σ ε α} (h : WritesOnce p) (s : σ) :
    Silent (p.resume s).1 ∨ (p.resume s).2 = s ∧ WritesOnce (p.resume s).1 := by
  induction p generalizing s with
  | done r => exact Or.inl trivial
  | act update next ih =>
    rcases h with hsilent | ⟨hread, hnext⟩
    · exact Or.inl ((hsilent s).resume (update s)).2
    · show Silent ((next s).resume (update s)).1 ∨
        ((next s).resume (update s)).2 = s ∧ WritesOnce ((next s).resume (update s)).1
      rw [hread s]
      exact ih s (hnext s) s
  | pause next _ => exact Or.inr ⟨rfl, h⟩

end WritesOnce

end Async

/-! ## Pools -/

namespace Pool

variable [DecidableEq ι] {R : σ → σ → Prop} {W : ι → (σ → σ) → σ → Prop}

/-- Whatever the others do next, the steps of a procedure are as `W` says for it. -/
def CallsBy (R : σ → σ → Prop) (W : ι → (σ → σ) → σ → Prop) (pool : Pool ι σ ε α) : Prop :=
  ∀ i t, R pool.state t → Async.Steps R (W i) (fun _ _ _ => True) true (pool.processes i) t

section

variable (hrefl : ∀ s, R s s) (hid : ∀ i s, W i id s)

include hrefl hid

theorem step_of_callsBy {pool : Pool ι σ ε α} (h : pool.CallsBy R W) (i : ι) :
    W i (pool.processes i).nextUpdate pool.state ∧
      (pool.step i).state = (pool.processes i).nextUpdate pool.state := by
  obtain ⟨hwrite, hstate, -⟩ :=
    (h i pool.state (hrefl _)).resume (hid i) fun _ _ _ _ _ _ => trivial
  exact ⟨hwrite, hstate⟩

variable (htrans : ∀ {s t u}, R s t → R t u → R s u)
  (hwrites : ∀ i update s, W i update s → R s (update s))

include htrans hwrites

theorem callsBy_step {pool : Pool ι σ ε α} (h : pool.CallsBy R W) (k : ι) :
    (pool.step k).CallsBy R W ∧ R pool.state (pool.step k).state := by
  obtain ⟨hwrite, hstate⟩ := step_of_callsBy hrefl hid h k
  have hstep : R pool.state (pool.step k).state := hstate ▸ hwrites k _ _ hwrite
  refine ⟨fun i t ht => ?_, hstep⟩
  by_cases hi : i = k
  · subst hi
    rw [hstate] at ht
    simp only [step, Function.update_self]
    exact ((h i pool.state (hrefl _)).resume (hid i) fun _ _ _ _ _ _ => trivial).2.2 t ht
  · simp only [step, Function.update_of_ne hi]
    exact h i t (htrans hstep ht)

theorem callsBy_run {pool : Pool ι σ ε α} (h : pool.CallsBy R W) (schedule : List ι) :
    (pool.run schedule).CallsBy R W ∧ R pool.state (pool.run schedule).state := by
  refine run_invariant (fun pool' => pool'.CallsBy R W ∧ R pool.state pool'.state)
    ⟨h, hrefl _⟩ fun before i _ _ hbefore => ?_
  obtain ⟨hcalls, hrelated⟩ := hbefore
  obtain ⟨hnext, hstep⟩ := callsBy_step hrefl hid htrans hwrites hcalls i
  exact ⟨hnext, htrans hrelated hstep⟩

end

theorem done_run {pool : Pool ι σ ε α} {i : ι} {r : Except ε α}
    (h : pool.processes i = .done r) (schedule : List ι) :
    (pool.run schedule).processes i = .done r :=
  run_invariant (fun pool => pool.processes i = .done r) h fun _ k _ _ hbefore =>
    done_step hbefore k

/-- A procedure that is not done is, before it ends, resumed as it is. -/
theorem exists_resume {pool : Pool ι σ ε α} {schedule : List ι} {i : ι} {r : Except ε α}
    (hnot : (pool.processes i).isDone = false)
    (hdone : (pool.run schedule).processes i = .done r) :
    ∃ before later, schedule = before ++ i :: later ∧ i ∉ before ∧
      ((pool.run before).step i).processes i =
        ((pool.processes i).resume (pool.run before).state).1 := by
  induction schedule generalizing pool with
  | nil =>
    have hnow : pool.processes i = .done r := hdone
    rw [hnow] at hnot
    cases hnot
  | cons k schedule ih =>
    by_cases hi : i = k
    · subst hi
      exact ⟨[], schedule, rfl, List.not_mem_nil, Function.update_self _ _ _⟩
    · have hsame : (pool.step k).processes i = pool.processes i := Function.update_of_ne hi _ _
      obtain ⟨before, later, rfl, hmem, hresumed⟩ := ih (by rw [hsame]; exact hnot) hdone
      rw [hsame] at hresumed
      refine ⟨k :: before, later, rfl, ?_, hresumed⟩
      exact fun h => (List.mem_cons.mp h).elim hi hmem

end Pool

end UserManagedAccess.Lib
