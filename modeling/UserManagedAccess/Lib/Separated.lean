/-
UserManagedAccess.Lib.Separated — two texts joined by a separator, and what can
be told of them from the joined text.

Neither text is kept free of the separator, so the joined text may be read in
several ways. `append_cons_eq_append_cons_iff` says which: the two readings are
the same, or the one splits at a separator the other has within its second
text. `joined_eq_iff` is the same for texts.
-/
import Mathlib.Data.List.Basic

namespace UserManagedAccess.Lib

variable {α : Type}

/-! ## Lists -/

theorem append_cons_eq_append_cons_iff {a b c d : List α} {x y : α} :
    a ++ x :: b = c ++ y :: d ↔
      (a = c ∧ x = y ∧ b = d) ∨
        (∃ m, c = a ++ x :: m ∧ b = m ++ y :: d) ∨ ∃ m, a = c ++ y :: m ∧ d = m ++ x :: b := by
  constructor
  · intro h
    rcases List.append_eq_append_iff.mp h with ⟨m, hc, hb⟩ | ⟨m, ha, hd⟩
    · rcases List.cons_eq_append_iff.mp hb with ⟨rfl, hd⟩ | ⟨m, rfl, hm⟩
      · injection hd with hy hd
        exact Or.inl ⟨by simpa using hc.symm, hy.symm, hd.symm⟩
      · exact Or.inr (Or.inl ⟨m, hc, hm⟩)
    · rcases List.cons_eq_append_iff.mp hd with ⟨rfl, hb⟩ | ⟨m, rfl, hm⟩
      · injection hb with hx hb
        exact Or.inl ⟨by simpa using ha, hx, hb⟩
      · exact Or.inr (Or.inr ⟨m, ha, hm⟩)
  · rintro (⟨rfl, rfl, rfl⟩ | ⟨m, rfl, rfl⟩ | ⟨m, rfl, rfl⟩)
    · rfl
    · simp
    · simp

/-! ## Texts -/

/-- The second pair splits the text of the first at a later separator. -/
def SplitsLater (separator : String) (first second : String × String) : Prop :=
  ∃ middle, second.1 = first.1 ++ separator ++ middle ∧
    first.2 = middle ++ separator ++ second.2

/-- Two different pairs are joined to one text if and only if one of them
splits it later. -/
theorem joined_eq_iff {separator : String} {c : Char} (hseparator : separator.toList = [c])
    {a b a' b' : String} :
    a ++ separator ++ b = a' ++ separator ++ b' ↔
      (a = a' ∧ b = b') ∨ SplitsLater separator (a, b) (a', b') ∨
        SplitsLater separator (a', b') (a, b) := by
  have hexists : ∀ {p : List Char → Prop}, (∃ l, p l) ↔ ∃ text : String, p text.toList :=
    fun {p} => ⟨fun ⟨l, hl⟩ => ⟨String.ofList l, by rwa [String.toList_ofList]⟩,
      fun ⟨text, htext⟩ => ⟨text.toList, htext⟩⟩
  simp only [SplitsLater, ← String.toList_inj, String.toList_append, hseparator,
    List.append_assoc, List.singleton_append, append_cons_eq_append_cons_iff, true_and, hexists]

theorem SplitsLater.ne {separator : String} {c : Char} (hseparator : separator.toList = [c])
    {first second : String × String} (h : SplitsLater separator first second) :
    first ≠ second := by
  rintro rfl
  obtain ⟨middle, hfirst, -⟩ := h
  have hlength := congrArg (fun text => text.toList.length) hfirst
  simp only [String.toList_append, hseparator, List.length_append, List.length_singleton]
    at hlength
  omega

end UserManagedAccess.Lib
