/-
UserManagedAccess.Lib.PrefixCode — codes whose words are told apart by how they
begin, and the texts written in them.

`PrefixCode.flatMap_inj` is what they are for: what is written word after word
can be read in one way only. Codes are made of others by `PrefixCode.choose`,
where some values have words of another code, and by `PrefixCode.comp`, where
the symbols of a code are written in a second one.
-/
import Mathlib.Data.List.Basic

namespace UserManagedAccess.Lib

variable {α β γ : Type}

structure PrefixCode (code : α → List β) : Prop where
  nonempty : ∀ a, code a ≠ []
  eq_of_append : ∀ {a b : α} {s t : List β}, code a ++ s = code b ++ t → a = b

namespace PrefixCode

/-! ## Texts in a code -/

section

variable {code : α → List β} (h : PrefixCode code)

include h

theorem flatMap_eq_nil {l : List α} (hl : l.flatMap code = []) : l = [] := by
  cases l with
  | nil => rfl
  | cons a l => exact absurd (List.append_eq_nil_iff.mp hl).1 (h.nonempty a)

/-- Of two texts that begin the same, one begins with the other. -/
theorem prefix_or_prefix {l m : List α} {s t : List β}
    (heq : l.flatMap code ++ s = m.flatMap code ++ t) : l <+: m ∨ m <+: l := by
  induction l generalizing m with
  | nil => exact Or.inl List.nil_prefix
  | cons a l ih =>
    cases m with
    | nil => exact Or.inr List.nil_prefix
    | cons b m =>
      simp only [List.flatMap_cons, List.append_assoc] at heq
      have hab : a = b := h.eq_of_append heq
      subst hab
      simpa [List.cons_prefix_cons] using ih (List.append_cancel_left heq)

theorem eq_nil_of_longer {l rest : List α} (hl : (l ++ rest).flatMap code = l.flatMap code) :
    rest = [] := by
  rw [List.flatMap_append, List.append_right_eq_self] at hl
  exact h.flatMap_eq_nil hl

theorem flatMap_inj {l m : List α} : l.flatMap code = m.flatMap code ↔ l = m := by
  constructor
  · intro heq
    have hboth : l.flatMap code ++ [] = m.flatMap code ++ [] := by simpa using heq
    rcases h.prefix_or_prefix hboth with ⟨rest, hrest⟩ | ⟨rest, hrest⟩
    · have hnil := h.eq_nil_of_longer ((congrArg (List.flatMap code) hrest).trans heq.symm)
      rw [← hrest, hnil, List.append_nil]
    · have hnil := h.eq_nil_of_longer ((congrArg (List.flatMap code) hrest).trans heq)
      rw [← hrest, hnil, List.append_nil]
  · exact fun heq => heq ▸ rfl

end

/-! ## Codes -/

/-- Words that a reader finds at the front of any text. -/
theorem of_decode {code : α → List β} (decode : List β → Option α)
    (hnonempty : ∀ a, code a ≠ []) (hdecode : ∀ a s, decode (code a ++ s) = some a) :
    PrefixCode code := by
  refine ⟨hnonempty, fun {a b s t} heq => ?_⟩
  have hboth : some a = some b := by rw [← hdecode a s, heq, hdecode b t]
  exact Option.some_inj.mp hboth

/-- Different words of one length. -/
theorem of_length {code : α → List β} {n : Nat} (hn : 0 < n) (hlength : ∀ a, (code a).length = n)
    (hinjective : Function.Injective code) : PrefixCode code := by
  refine ⟨fun a hnil => ?_, fun {a b s t} heq => ?_⟩
  · have := hlength a
    rw [hnil, List.length_nil] at this
    omega
  · exact hinjective (List.append_inj heq (by rw [hlength, hlength])).1

/-- Two codes of which no word of the one begins as a word of the other. -/
theorem choose {p : α → Bool} {f g : α → List β}
    (hf : ∀ {a b s t}, p a = true → p b = true → f a ++ s = f b ++ t → a = b)
    (hnonempty : ∀ a, f a ≠ []) (hg : PrefixCode g)
    (hapart : ∀ {a b s t}, p a = true → f a ++ s ≠ g b ++ t) :
    PrefixCode fun a => if p a then f a else g a := by
  refine ⟨fun a => ?_, fun {a b s t} heq => ?_⟩
  · split
    · exact hnonempty a
    · exact hg.nonempty a
  · by_cases ha : p a = true
    · rw [if_pos ha] at heq
      by_cases hb : p b = true
      · rw [if_pos hb] at heq
        exact hf ha hb heq
      · rw [if_neg hb] at heq
        exact absurd heq (hapart ha)
    · rw [if_neg ha] at heq
      by_cases hb : p b = true
      · rw [if_pos hb] at heq
        exact absurd heq.symm (hapart hb)
      · rw [if_neg hb] at heq
        exact hg.eq_of_append heq

/-- A code whose symbols are written in another. -/
theorem comp {f : α → List β} {g : β → List γ} (hf : PrefixCode f) (hg : PrefixCode g) :
    PrefixCode fun a => (f a).flatMap g := by
  refine ⟨fun a hnil => hf.nonempty a (hg.flatMap_eq_nil hnil), fun {a b s t} heq => ?_⟩
  rcases hg.prefix_or_prefix heq with ⟨rest, hrest⟩ | ⟨rest, hrest⟩
  · have happend : f a ++ rest = f b ++ [] := by rw [hrest, List.append_nil]
    exact hf.eq_of_append happend
  · have happend : f b ++ rest = f a ++ [] := by rw [hrest, List.append_nil]
    exact (hf.eq_of_append happend).symm

end PrefixCode

end UserManagedAccess.Lib
