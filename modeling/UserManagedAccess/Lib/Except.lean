/-
UserManagedAccess.Lib.Except — computations that may throw: what a success
says about the steps, and the invariant rule for a loop.
-/
import Mathlib.Data.List.Basic

namespace UserManagedAccess.Lib

variable {ε α β : Type}

theorem Except.bind_eq_ok {r : Except ε α} {f : α → Except ε β} {b : β} :
    (r >>= f) = .ok b ↔ ∃ a, r = .ok a ∧ f a = .ok b := by
  cases r with
  | error e => simp [bind, Except.bind]
  | ok a => simp [bind, Except.bind]

theorem Except.bind_eq_error {r : Except ε α} {f : α → Except ε β} {e : ε} :
    (r >>= f) = .error e ↔ r = .error e ∨ ∃ a, r = .ok a ∧ f a = .error e := by
  cases r with
  | error e => simp [bind, Except.bind]
  | ok a => simp [bind, Except.bind]

/-- Every result of a successful `mapM` comes from an element. -/
theorem mem_of_mapM_ok {f : α → Except ε β} {l : List α} {bs : List β}
    (h : l.mapM f = .ok bs) : ∀ b ∈ bs, ∃ a ∈ l, f a = .ok b := by
  induction l generalizing bs with
  | nil =>
    intro b hb
    rw [List.mapM_nil] at h
    injection h with h
    exact absurd (h ▸ hb) List.not_mem_nil
  | cons a l ih =>
    rw [List.mapM_cons, Except.bind_eq_ok] at h
    obtain ⟨b₀, hb₀, h⟩ := h
    rw [Except.bind_eq_ok] at h
    obtain ⟨rest, hrest, h⟩ := h
    injection h with h
    intro b hb
    rw [← h] at hb
    rcases List.mem_cons.mp hb with rfl | hb
    · exact ⟨a, List.mem_cons_self, hb₀⟩
    · obtain ⟨a', ha', hfa'⟩ := ih hrest b hb
      exact ⟨a', List.mem_cons_of_mem _ ha', hfa'⟩

/-- A `mapM` succeeds when every element has a result. -/
theorem exists_mapM_ok {f : α → Except ε β} {l : List α} :
    (∃ bs, l.mapM f = .ok bs) ↔ ∀ a ∈ l, ∃ b, f a = .ok b := by
  induction l with
  | nil => exact ⟨fun _ a ha => absurd ha List.not_mem_nil, fun _ => ⟨[], rfl⟩⟩
  | cons a l ih =>
    rw [List.mapM_cons, List.forall_mem_cons, ← ih]
    constructor
    · intro ⟨bs, h⟩
      obtain ⟨b, hb, h⟩ := Except.bind_eq_ok.mp h
      obtain ⟨rest, hrest, -⟩ := Except.bind_eq_ok.mp h
      exact ⟨⟨b, hb⟩, rest, hrest⟩
    · intro ⟨⟨b, hb⟩, rest, hrest⟩
      exact ⟨b :: rest, Except.bind_eq_ok.mpr ⟨b, hb, Except.bind_eq_ok.mpr ⟨rest, hrest, rfl⟩⟩⟩

theorem mapM_ok {f : α → Except ε β} {g : α → β} {l : List α} (h : ∀ a ∈ l, f a = .ok (g a)) :
    l.mapM f = .ok (l.map g) := by
  induction l with
  | nil => rfl
  | cons a l ih =>
    rw [List.mapM_cons, h a List.mem_cons_self, ih (fun b hb => h b (List.mem_cons_of_mem _ hb))]
    rfl

/-- A loop none of whose steps throws does not throw. -/
theorem exists_foldlM_ok {step : β → α → Except ε β} {l : List α}
    (h : ∀ a ∈ l, ∀ b, ∃ b', step b a = .ok b') (b : β) : ∃ b', l.foldlM step b = .ok b' := by
  induction l generalizing b with
  | nil => exact ⟨b, rfl⟩
  | cons a l ih =>
    obtain ⟨b₁, hb₁⟩ := h a List.mem_cons_self b
    obtain ⟨b', hb'⟩ := ih (fun a' ha' => h a' (List.mem_cons_of_mem _ ha')) b₁
    exact ⟨b', by rw [List.foldlM_cons]; exact Except.bind_eq_ok.mpr ⟨b₁, hb₁, hb'⟩⟩

theorem mapM_congr {f g : α → Option β} {l : List α} (h : ∀ a ∈ l, f a = g a) :
    l.mapM f = l.mapM g := by
  induction l with
  | nil => rfl
  | cons a l ih =>
    rw [List.mapM_cons, List.mapM_cons, h a List.mem_cons_self,
      ih (fun b hb => h b (List.mem_cons_of_mem _ hb))]

/-- A `mapM` gives the results of all elements, or one of them has none. -/
theorem mapM_eq_some_iff {f : α → Option β} {l : List α} {bs : List β} :
    l.mapM f = some bs ↔ l.map f = bs.map some := by
  induction l generalizing bs with
  | nil => cases bs <;> simp
  | cons a l ih =>
    rw [List.mapM_cons, List.map_cons]
    cases bs with
    | nil => cases f a <;> cases l.mapM f <;> simp
    | cons b bs =>
      rw [List.map_cons, List.cons.injEq, ← ih]
      cases f a <;> cases l.mapM f <;> simp

/-- A successful `mapM` has a result for every element. -/
theorem mapM_some_forall {f : α → Option β} {l : List α} {bs : List β}
    (h : l.mapM f = some bs) : ∀ a ∈ l, ∃ b, f a = some b := by
  intro a ha
  have hmem : f a ∈ l.map f := List.mem_map_of_mem ha
  rw [mapM_eq_some_iff.mp h] at hmem
  obtain ⟨b, -, hb⟩ := List.mem_map.mp hmem
  exact ⟨b, hb.symm⟩

theorem mapM_eq_none {f : α → Option β} {l : List α} (h : l.mapM f = none) :
    ∃ a ∈ l, f a = none := by
  induction l with
  | nil => cases h
  | cons a l ih =>
    rw [List.mapM_cons] at h
    cases hfirst : f a with
    | none => exact ⟨a, List.mem_cons_self, hfirst⟩
    | some b =>
      cases hrest : l.mapM f with
      | none =>
        obtain ⟨a', ha', hnone⟩ := ih hrest
        exact ⟨a', List.mem_cons_of_mem _ ha', hnone⟩
      | some rest =>
        rw [hfirst, hrest] at h
        cases h

/-- What a loop throws, one of its steps throws. -/
theorem exists_foldlM_error {step : β → α → Except ε β} {l : List α} {b : β} {e : ε}
    (h : l.foldlM step b = .error e) : ∃ a ∈ l, ∃ b, step b a = .error e := by
  induction l generalizing b with
  | nil => cases h
  | cons a l ih =>
    rw [List.foldlM_cons] at h
    cases hstep : step b a with
    | error e' =>
      rw [hstep] at h
      cases h
      exact ⟨a, List.mem_cons_self, b, hstep⟩
    | ok b' =>
      rw [hstep] at h
      obtain ⟨a', ha', hthrows⟩ := ih h
      exact ⟨a', List.mem_cons_of_mem _ ha', hthrows⟩

/-- The invariant of a loop may mention the elements seen so far. -/
theorem foldlM_invariant {step : β → α → Except ε β} (inv : List α → β → Prop)
    (hstep : ∀ seen b a b', inv seen b → step b a = .ok b' → inv (seen ++ [a]) b')
    {l : List α} {b b' : β} (hinit : inv [] b) (h : l.foldlM step b = .ok b') : inv l b' := by
  have hgen : ∀ (l seen : List α) (b : β), inv seen b → l.foldlM step b = .ok b' →
      inv (seen ++ l) b' := by
    intro l
    induction l with
    | nil =>
      intro seen b hinv h
      have heq : b = b' := by simpa [pure, Except.pure] using h
      rw [List.append_nil, ← heq]
      exact hinv
    | cons a l ih =>
      intro seen b hinv h
      rw [List.foldlM_cons, Except.bind_eq_ok] at h
      obtain ⟨b₁, hfirst, hrest⟩ := h
      have := ih (seen ++ [a]) b₁ (hstep seen b a b₁ hinv hfirst) hrest
      rwa [List.append_assoc, List.singleton_append] at this
  exact hgen l [] b hinit h

end UserManagedAccess.Lib
