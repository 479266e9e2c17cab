/-
UserManagedAccess.Lib.Walks — walks through a graph that never come back to a
node.

A search that carries the nodes of its own path finds what `ReachesNew` says:
each next node is none of those it was told to avoid, and none of those it has
come through itself. `reachesNew_nil_iff` says that nothing is lost by that:
whatever can be reached can be reached so, since a walk that comes back to a
node can be cut short there.
-/
import Mathlib.Data.List.Chain

namespace UserManagedAccess.Lib

variable {α : Type} {r : α → α → Prop}

/-- From one node to another, over nodes that are not to be avoided. The start
itself may be. -/
inductive ReachesNew (r : α → α → Prop) : List α → α → α → Prop
  | refl (avoid : List α) (a : α) : ReachesNew r avoid a a
  | step {avoid : List α} {a b c : α} : r a b → b ∉ avoid ++ [a] →
      ReachesNew r (avoid ++ [a]) b c → ReachesNew r avoid a c

theorem ReachesNew.reflTransGen {avoid : List α} {a b : α} (h : ReachesNew r avoid a b) :
    Relation.ReflTransGen r a b := by
  induction h with
  | refl avoid a => exact Relation.ReflTransGen.refl
  | step hedge _ _ ih => exact Relation.ReflTransGen.head hedge ih

/-- The induction is on the length of the walk. -/
theorem reachesNew_of_walk {l : List α} {avoid : List α} {a b : α}
    (hwalk : List.IsChain r (a :: l)) (hlast : (a :: l).getLast (List.cons_ne_nil a l) = b)
    (hnew : ∀ c ∈ l, c ∉ avoid) : ReachesNew r avoid a b := by
  induction hn : l.length using Nat.strong_induction_on generalizing l avoid a with
  | h n ih =>
    by_cases hback : a ∈ l
    · -- The walk comes back to where it started: what lies between is left out.
      obtain ⟨before, after, hl⟩ := List.append_of_mem hback
      subst hl
      have hrest : List.IsChain r (a :: after) :=
        hwalk.suffix ⟨a :: before, by simp⟩
      have hend : (a :: after).getLast (List.cons_ne_nil a after) = b := by
        rw [← hlast]
        simp
      refine ih after.length ?_ hrest hend (fun c hc => hnew c (by simp [hc])) rfl
      rw [← hn]
      simp
      omega
    · cases l with
      | nil => exact hlast ▸ ReachesNew.refl avoid a
      | cons c l =>
        obtain ⟨hedge, hrest⟩ := List.isChain_cons_cons.mp hwalk
        have hnotHere : ∀ x ∈ c :: l, x ∉ avoid ++ [a] := by
          intro x hx
          rw [List.mem_append, List.mem_singleton, not_or]
          exact ⟨hnew x hx, fun heq => hback (heq ▸ hx)⟩
        refine ReachesNew.step hedge (hnotHere c List.mem_cons_self) ?_
        refine ih l.length (by simp [← hn]) hrest ?_ ?_ rfl
        · rw [← hlast, List.getLast_cons_cons]
        · exact fun x hx => hnotHere x (List.mem_cons_of_mem _ hx)

theorem reachesNew_nil_iff {a b : α} :
    ReachesNew r [] a b ↔ Relation.ReflTransGen r a b := by
  constructor
  · exact ReachesNew.reflTransGen
  · intro h
    obtain ⟨l, hwalk, hlast⟩ := List.exists_isChain_cons_of_relationReflTransGen h
    exact reachesNew_of_walk hwalk hlast fun c _ => List.not_mem_nil

/-- What is reached is the start, or is reached from one of its neighbours. -/
theorem reachesNew_iff {avoid : List α} {a c : α} :
    ReachesNew r avoid a c ↔
      c = a ∨ ∃ b, r a b ∧ b ∉ avoid ++ [a] ∧ ReachesNew r (avoid ++ [a]) b c := by
  constructor
  · intro h
    cases h with
    | refl => exact Or.inl rfl
    | step hedge hnew hrest => exact Or.inr ⟨_, hedge, hnew, hrest⟩
  · rintro (rfl | ⟨b, hedge, hnew, hrest⟩)
    · exact ReachesNew.refl avoid c
    · exact ReachesNew.step hedge hnew hrest

end UserManagedAccess.Lib
