/-
UserManagedAccess.Lib.Verdict — the verdict over rules of which prohibitions
override permissions, and two readings of which rules apply.

A reading is a predicate on rules. Two readings that differ on some rules may
still have one verdict: `Harmless` says of the rules that apply in the first
reading only that they do not tip it. Which these are is a predicate of its own,
to be given in the terms of the rules.

* `verdict_iff_harmless` — two readings have one verdict exactly when what
  applies in only one of them is harmless, either way.
-/
import Mathlib.Tactic.ByContra

namespace UserManagedAccess.Lib

variable {α : Type} {permits prohibits one other : α → Prop}

/-- Something that permits applies, and nothing that prohibits. -/
def Verdict (permits prohibits applies : α → Prop) : Prop :=
  (∃ a, permits a ∧ applies a) ∧ ∀ a, prohibits a → ¬ applies a

/-- Only the rules that permit or prohibit matter. -/
theorem verdict_congr (h : ∀ a, permits a ∨ prohibits a → (one a ↔ other a)) :
    Verdict permits prohibits one ↔ Verdict permits prohibits other := by
  have hpermits : (∃ a, permits a ∧ one a) ↔ ∃ a, permits a ∧ other a :=
    exists_congr fun a => and_congr_right fun ha => h a (Or.inl ha)
  have hprohibits : (∀ a, prohibits a → ¬ one a) ↔ ∀ a, prohibits a → ¬ other a :=
    forall_congr' fun a => imp_congr_right fun ha => not_congr (h a (Or.inr ha))
  exact and_congr hpermits hprohibits

section Readings

variable {onlyOne onlyOther : α → Prop}

/-- What applies in the one reading only leaves the verdict as it is: a
prohibition where the other reading refuses anyway, a permission where the
other one permits something as well or this one refuses anyway. -/
structure Harmless (permits prohibits only one other : α → Prop) : Prop where
  prohibition : ∀ a, prohibits a → only a →
    (∃ b, permits b ∧ other b) → ∃ b, prohibits b ∧ other b
  permission : ∀ a, permits a → only a →
    (∃ b, permits b ∧ other b) ∨ ∃ b, prohibits b ∧ one b

theorem Harmless.of_none (h : ∀ a, permits a ∨ prohibits a → ¬ onlyOne a) :
    Harmless permits prohibits onlyOne one other where
  prohibition a hprohibits honly := absurd honly (h a (Or.inr hprohibits))
  permission a hpermits honly := absurd honly (h a (Or.inl hpermits))

/-- One half: what the other reading allows is allowed. -/
theorem Verdict.of_harmless (honly : ∀ a, prohibits a → one a → ¬ other a → onlyOne a)
    (honlyOther : ∀ a, permits a → other a → ¬ one a → onlyOther a)
    (hone : Harmless permits prohibits onlyOne one other)
    (hother : Harmless permits prohibits onlyOther other one)
    (h : Verdict permits prohibits other) : Verdict permits prohibits one := by
  obtain ⟨⟨p, hpermits, hp⟩, hnone⟩ := h
  have hrefuses : ∀ f, prohibits f → ¬ one f := by
    intro f hprohibits hf
    obtain ⟨g, hg, hgother⟩ := hone.prohibition f hprohibits
      (honly f hprohibits hf (hnone f hprohibits)) ⟨p, hpermits, hp⟩
    exact hnone g hg hgother
  refine ⟨?_, hrefuses⟩
  by_cases hpone : one p
  · exact ⟨p, hpermits, hpone⟩
  · rcases hother.permission p hpermits (honlyOther p hpermits hp hpone) with
      hfound | ⟨f, hprohibits, hf⟩
    · exact hfound
    · exact absurd hf (hnone f hprohibits)

/-- The other half: a rule that tips the verdict separates the readings. -/
theorem Harmless.of_verdict (honly : ∀ a, onlyOne a → one a ∧ ¬ other a)
    (h : Verdict permits prohibits one ↔ Verdict permits prohibits other) :
    Harmless permits prohibits onlyOne one other := by
  constructor
  · intro f hprohibits hf hpermitted
    by_contra hnone
    have hother : Verdict permits prohibits other :=
      ⟨hpermitted, fun g hg hgother => hnone ⟨g, hg, hgother⟩⟩
    exact (h.mpr hother).2 f hprohibits (honly f hf).1
  · intro p hpermits hp
    by_cases hprohibited : ∃ f, prohibits f ∧ one f
    · exact Or.inr hprohibited
    · have hone : Verdict permits prohibits one :=
        ⟨⟨p, hpermits, (honly p hp).1⟩, fun f hf hfone => hprohibited ⟨f, hf, hfone⟩⟩
      exact Or.inl (h.mp hone).1

theorem verdict_iff_harmless (hone : ∀ a, onlyOne a ↔ one a ∧ ¬ other a)
    (hother : ∀ a, onlyOther a ↔ other a ∧ ¬ one a) :
    (Verdict permits prohibits one ↔ Verdict permits prohibits other) ↔
      Harmless permits prohibits onlyOne one other ∧
        Harmless permits prohibits onlyOther other one := by
  constructor
  · intro h
    exact ⟨.of_verdict (fun a => (hone a).mp) h, .of_verdict (fun a => (hother a).mp) h.symm⟩
  · rintro ⟨h, hback⟩
    have honly : ∀ a, one a → ¬ other a → onlyOne a := fun a ha hno => (hone a).mpr ⟨ha, hno⟩
    have honlyOther : ∀ a, other a → ¬ one a → onlyOther a :=
      fun a ha hno => (hother a).mpr ⟨ha, hno⟩
    exact ⟨.of_harmless (fun a _ => honlyOther a) (fun a _ => honly a) hback h,
      .of_harmless (fun a _ => honly a) (fun a _ => honlyOther a) h hback⟩

end Readings

end UserManagedAccess.Lib
