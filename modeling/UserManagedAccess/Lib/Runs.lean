/-
UserManagedAccess.Lib.Runs — sequences of numbered steps, each starting in the
state the one before it left.

`Throughout` says that every step of a run meets a condition on its number,
what it is asked, and the state it starts in. An invariant that steps of this
kind keep holds after the run (`runFrom_invariant`).
-/
import Mathlib.Data.List.Basic

namespace UserManagedAccess.Lib

variable {σ ρ : Type}

/-- The steps for a list of requests, numbered from `n`. -/
def runFrom (step : Nat → ρ → σ → σ) : Nat → List ρ → σ → σ
  | _, [], s => s
  | n, r :: rs, s => runFrom step (n + 1) rs (step n r s)

def Throughout (step : Nat → ρ → σ → σ) (condition : Nat → ρ → σ → Prop) :
    Nat → List ρ → σ → Prop
  | _, [], _ => True
  | n, r :: rs, s => condition n r s ∧ Throughout step condition (n + 1) rs (step n r s)

theorem runFrom_map {ρ' : Type} (step : Nat → ρ → σ → σ) (f : ρ' → ρ) (n : Nat) (rs : List ρ')
    (s : σ) : runFrom step n (rs.map f) s = runFrom (fun n r s => step n (f r) s) n rs s := by
  induction rs generalizing n s with
  | nil => rfl
  | cons r rs ih => exact ih (n + 1) (step n (f r) s)

theorem runFrom_append (step : Nat → ρ → σ → σ) (n : Nat) (rs later : List ρ) (s : σ) :
    runFrom step n (rs ++ later) s = runFrom step (n + rs.length) later (runFrom step n rs s) := by
  induction rs generalizing n s with
  | nil => rfl
  | cons r rs ih =>
    have hlength : n + (r :: rs).length = n + 1 + rs.length := by
      rw [List.length_cons]
      omega
    rw [hlength]
    exact ih (n + 1) (step n r s)

variable {step : Nat → ρ → σ → σ} {condition : Nat → ρ → σ → Prop}

/-- The invariant may depend on how many steps there were. -/
theorem runFrom_invariant (inv : Nat → σ → Prop)
    (hstep : ∀ n r s, inv n s → condition n r s → inv (n + 1) (step n r s)) {rs : List ρ}
    {n : Nat} {s : σ} (hinit : inv n s) (h : Throughout step condition n rs s) :
    inv (n + rs.length) (runFrom step n rs s) := by
  induction rs generalizing n s with
  | nil => exact hinit
  | cons r rs ih =>
    obtain ⟨hfirst, hrest⟩ := h
    have hlength : n + (r :: rs).length = n + 1 + rs.length := by
      rw [List.length_cons]
      omega
    rw [hlength]
    exact ih (hstep n r s hinit hfirst) hrest

theorem Throughout.and {other : Nat → ρ → σ → Prop} {rs : List ρ} {n : Nat} {s : σ}
    (h : Throughout step condition n rs s) (h' : Throughout step other n rs s) :
    Throughout step (fun n r s => condition n r s ∧ other n r s) n rs s := by
  induction rs generalizing n s with
  | nil => trivial
  | cons r rs ih => exact ⟨⟨h.1, h'.1⟩, ih h.2 h'.2⟩

end UserManagedAccess.Lib
