/-
UserManagedAccess.Lib.Transitions — machines that react to events, one at a time.

A machine is its step function; `none` says that the event cannot happen in this
state. `Reaches` are the states that runs lead to whose every event is allowed where
it happens.

* `Reaches.invariant` — what a step keeps holds wherever a run leads.
-/
import Mathlib.Data.List.Basic

namespace UserManagedAccess.Lib

variable {σ ε : Type} {step : σ → ε → Option σ}

/-- An event that can happen under a condition only. -/
theorem guarded_eq_some {c : Prop} [Decidable c] {s s' : σ} :
    (if c then some s else none) = some s' ↔ c ∧ s = s' := by
  rw [Option.ite_none_right_eq_some, Option.some_inj]

inductive Reaches (step : σ → ε → Option σ) (allowed : σ → ε → Prop) (start : σ) : σ → Prop
  | start : Reaches step allowed start start
  | next {s s' : σ} {e : ε} (h : Reaches step allowed start s) (hallowed : allowed s e)
      (hstep : step s e = some s') : Reaches step allowed start s'

/-- Every event of a run is allowed where it happens. -/
def AllAllowed (step : σ → ε → Option σ) (allowed : σ → ε → Prop) : σ → List ε → Prop
  | _, [] => True
  | s, e :: events => allowed s e ∧ ∀ s' ∈ step s e, AllAllowed step allowed s' events

instance AllAllowed.decidable (step : σ → ε → Option σ) (allowed : σ → ε → Prop)
    [∀ s, DecidablePred (allowed s)] (s : σ) (events : List ε) :
    Decidable (AllAllowed step allowed s events) :=
  match events with
  | [] => .isTrue trivial
  | e :: events =>
    have := fun s' => AllAllowed.decidable step allowed s' events
    inferInstanceAs (Decidable (allowed s e ∧ ∀ s' ∈ step s e, AllAllowed step allowed s' events))

theorem allAllowed_of_forall {allowed : σ → ε → Prop} {events : List ε}
    (h : ∀ e ∈ events, ∀ s, allowed s e) (s : σ) : AllAllowed step allowed s events := by
  induction events generalizing s with
  | nil => trivial
  | cons e events ih =>
    refine ⟨h e List.mem_cons_self s, fun s' _ => ih ?_ s'⟩
    exact fun e' he' => h e' (List.mem_cons_of_mem _ he')

/-- Two conditions that agree wherever the run can come as long as it meets them. -/
theorem allAllowed_congr_of_invariant {allowed other : σ → ε → Prop} {events : List ε} {s : σ}
    (inv : σ → Prop) (hcongr : ∀ s e, inv s → (allowed s e ↔ other s e))
    (hstep : ∀ s e s', inv s → allowed s e → step s e = some s' → inv s') (h : inv s) :
    AllAllowed step allowed s events ↔ AllAllowed step other s events := by
  induction events generalizing s with
  | nil => exact Iff.rfl
  | cons e events ih =>
    constructor
    · intro ⟨hfirst, hrest⟩
      refine ⟨(hcongr s e h).mp hfirst, fun s' hs' => ?_⟩
      exact (ih (hstep s e s' h hfirst hs')).mp (hrest s' hs')
    · intro ⟨hfirst, hrest⟩
      have hallowed : allowed s e := (hcongr s e h).mpr hfirst
      refine ⟨hallowed, fun s' hs' => ?_⟩
      exact (ih (hstep s e s' h hallowed hs')).mpr (hrest s' hs')

theorem allAllowed_congr {allowed other : σ → ε → Prop} {events : List ε} {s : σ}
    (h : ∀ s e, allowed s e ↔ other s e) :
    AllAllowed step allowed s events ↔ AllAllowed step other s events :=
  allAllowed_congr_of_invariant (fun _ => True) (fun s e _ => h s e)
    (fun _ _ _ _ _ _ => trivial) trivial

namespace Reaches

variable {allowed : σ → ε → Prop} {start s : σ}

theorem invariant (inv : σ → Prop) (hstart : inv start)
    (hstep : ∀ s e s', inv s → allowed s e → step s e = some s' → inv s')
    (h : Reaches step allowed start s) : inv s := by
  induction h with
  | start => exact hstart
  | next _ hallowed hnext ih => exact hstep _ _ _ ih hallowed hnext

/-- The events of a run, one after the other. -/
theorem next_events {events : List ε} {first : σ} (hfirst : Reaches step allowed start first)
    (hallowed : AllAllowed step allowed first events)
    (hrun : events.foldlM step first = some s) : Reaches step allowed start s := by
  induction events generalizing first with
  | nil =>
    injection hrun with hrun
    exact hrun ▸ hfirst
  | cons e events ih =>
    obtain ⟨second, hstep, hrest⟩ := Option.bind_eq_some_iff.mp hrun
    exact ih (hfirst.next hallowed.1 hstep) (hallowed.2 second hstep) hrest

theorem of_events {events : List ε} (hallowed : AllAllowed step allowed start events)
    (hrun : events.foldlM step start = some s) : Reaches step allowed start s :=
  next_events .start hallowed hrun

end Reaches

/-- What holds after every event of a run holds where it ends. -/
theorem AllAllowed.of_foldlM {P : σ → Prop} {events : List ε} {start s : σ}
    (h : AllAllowed step (fun s e => ∀ s' ∈ step s e, P s') start events) (hstart : P start)
    (hrun : events.foldlM step start = some s) : P s :=
  (Reaches.of_events h hrun).invariant P hstart fun _ _ s' _ hafter hstep => hafter s' hstep

end UserManagedAccess.Lib
