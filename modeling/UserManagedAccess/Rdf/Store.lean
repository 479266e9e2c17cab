/-
UserManagedAccess.Rdf.Store — an in-memory quad store, as the N3 `Store`.

A `Store` is a duplicate-free list of quads: the list is the iteration order,
the `nodup` field is what makes it a set. Patterns are four optional terms,
`none` matching anything; `getSubjects`, `getPredicates` and `getObjects`
return each term once, in the order of first occurrence.

A pattern can also be a plain string, which is the id of a term. The empty
string is no pattern then: it matches anything, as `null` does. `getQuadsOf`,
`getObjectsOf` and `countQuadsTo` are the lookups of that kind. A named node is
taken not to have the id of a blank node or a literal (`_:b` or `"a"`), which
the source would not tell from it.

The source goes through the quads of a store by the numbers its terms have got,
which follow the order in which the terms came in first. The list order here
stands for it; the results about more than one store are about which quads
there are.

The membership characterisations below are the interface: everything proved
about code running on a store goes through them, or through the frame lemmas
of the last section (a pattern that matches none of the quads written reads
the same before and after).
-/
import Mathlib.Data.List.Nodup
import UserManagedAccess.Rdf.Term

namespace UserManagedAccess.Rdf

/-! ## The structure -/

structure Store where
  quads : List Quad
  nodup : quads.Nodup
  deriving DecidableEq

namespace Store

instance : Membership Quad Store := ⟨fun s q => q ∈ s.quads⟩

instance (q : Quad) (s : Store) : Decidable (q ∈ s) :=
  inferInstanceAs (Decidable (q ∈ s.quads))

theorem mem_def {q : Quad} {s : Store} : q ∈ s ↔ q ∈ s.quads := Iff.rfl

def empty : Store := ⟨[], List.nodup_nil⟩

instance : Inhabited Store := ⟨empty⟩

def size (s : Store) : Nat := s.quads.length

def has (s : Store) (q : Quad) : Bool := decide (q ∈ s)

/-! ## Writing -/

def addQuad (s : Store) (q : Quad) : Store :=
  if h : q ∈ s.quads then s
  else ⟨s.quads ++ [q], s.nodup.append (List.nodup_singleton q)
    (by simpa using h)⟩

def addQuads (s : Store) (qs : List Quad) : Store := qs.foldl addQuad s

/-- `new Store(quads)`. -/
def ofQuads (qs : List Quad) : Store := empty.addQuads qs

def addAll (s t : Store) : Store := s.addQuads t.quads

def removeQuads (s : Store) (qs : List Quad) : Store :=
  ⟨s.quads.filter (fun q => q ∉ qs), s.nodup.filter _⟩

/-- The quads of `s` that are not in `t`. -/
def difference (s t : Store) : Store := s.removeQuads t.quads

/-! ## Reading -/

end Store

/-- A quad matches a pattern when every given position is equal to it. -/
def Quad.matches (q : Quad) (subject predicate object graph : Option Term) : Bool :=
  subject.all (· == q.subject) && predicate.all (· == q.predicate) &&
    object.all (· == q.object) && graph.all (· == q.graph)

namespace Store

def getQuads (s : Store) (subject predicate object graph : Option Term) : List Quad :=
  s.quads.filter (·.matches subject predicate object graph)

def countQuads (s : Store) (subject predicate object graph : Option Term) : Nat :=
  (s.getQuads subject predicate object graph).length

def getSubjects (s : Store) (predicate object graph : Option Term) : List Term :=
  ((s.getQuads none predicate object graph).map Quad.subject).eraseDups

def getPredicates (s : Store) (subject object graph : Option Term) : List Term :=
  ((s.getQuads subject none object graph).map Quad.predicate).eraseDups

def getObjects (s : Store) (subject predicate graph : Option Term) : List Term :=
  ((s.getQuads subject predicate none graph).map Quad.object).eraseDups

/-- `store.getQuads(id, null, null, null)`, with a plain string. -/
def getQuadsOf (s : Store) (id : String) : List Quad := s.quads.filter (·.subject.named id)

/-- `store.getObjects(id, predicate, null)`, with a plain string. -/
def getObjectsOf (s : Store) (id : String) (predicate : Term) : List Term :=
  (((s.getQuads none predicate none none).filter (·.subject.named id)).map Quad.object).eraseDups

/-- `store.countQuads(null, predicate, id, null)`, with a plain string. -/
def countQuadsTo (s : Store) (predicate : Term) (id : String) : Nat :=
  ((s.getQuads none predicate none none).filter (·.object.named id)).length

/-! ## Membership after writing -/

@[simp] theorem not_mem_empty (q : Quad) : q ∉ empty := List.not_mem_nil

@[simp] theorem has_iff (s : Store) (q : Quad) : s.has q = true ↔ q ∈ s := by
  simp [has]

@[simp] theorem mem_addQuad {s : Store} {q r : Quad} :
    r ∈ s.addQuad q ↔ r ∈ s ∨ r = q := by
  unfold addQuad
  split
  · rename_i h
    exact ⟨Or.inl, fun hr => hr.elim id (fun e => e ▸ h)⟩
  · simp [mem_def]

@[simp] theorem mem_addQuads {s : Store} {qs : List Quad} {r : Quad} :
    r ∈ s.addQuads qs ↔ r ∈ s ∨ r ∈ qs := by
  induction qs generalizing s with
  | nil => simp [addQuads]
  | cons q qs ih =>
    have h : s.addQuads (q :: qs) = (s.addQuad q).addQuads qs := rfl
    rw [h, ih, mem_addQuad, List.mem_cons, or_assoc]

@[simp] theorem mem_ofQuads {qs : List Quad} {r : Quad} :
    r ∈ ofQuads qs ↔ r ∈ qs := by
  simp [ofQuads]

@[simp] theorem mem_addAll {s t : Store} {r : Quad} :
    r ∈ s.addAll t ↔ r ∈ s ∨ r ∈ t := mem_addQuads

@[simp] theorem mem_removeQuads {s : Store} {qs : List Quad} {r : Quad} :
    r ∈ s.removeQuads qs ↔ r ∈ s ∧ r ∉ qs := by
  simp [removeQuads, mem_def]

@[simp] theorem mem_difference {s t : Store} {r : Quad} :
    r ∈ s.difference t ↔ r ∈ s ∧ r ∉ t := mem_removeQuads

/-- A store with the quads of several others. -/
theorem mem_foldl_addAll {α : Type} {l : List α} {f : α → Store} {s : Store} {r : Quad} :
    r ∈ l.foldl (fun store a => store.addAll (f a)) s ↔ r ∈ s ∨ ∃ a ∈ l, r ∈ f a := by
  induction l generalizing s with
  | nil => simp
  | cons a l ih =>
    rw [List.foldl_cons, ih, mem_addAll, or_assoc]
    simp

/-- There is nothing to remove. -/
theorem difference_of_disjoint {s t : Store} (h : ∀ q ∈ t, q ∉ s) : s.difference t = s := by
  obtain ⟨quads, hnodup⟩ := s
  have hquads : quads.filter (fun q => q ∉ t.quads) = quads :=
    List.filter_eq_self.mpr fun q hq => decide_eq_true fun hmem => h q hmem hq
  simp only [difference, removeQuads, hquads]

theorem size_pos_iff {s : Store} : 0 < s.size ↔ ∃ q, q ∈ s :=
  List.length_pos_iff_exists_mem

@[simp] theorem size_empty : empty.size = 0 := rfl

theorem eq_empty_of_size {s : Store} (h : ¬ 0 < s.size) : s = empty := by
  obtain ⟨quads, hnodup⟩ := s
  have hnil : quads = [] := List.length_eq_zero_iff.mp (Nat.eq_zero_of_not_pos h)
  subst hnil
  rfl

@[simp] theorem addAll_empty (s : Store) : s.addAll empty = s := rfl

@[simp] theorem difference_empty (s : Store) : s.difference empty = s := by
  simp [difference, removeQuads, empty]

theorem mem_of_difference_empty {s t : Store} (h : s.difference t = empty) {q : Quad}
    (hq : q ∈ s) : q ∈ t := by
  by_contra hmissing
  exact not_mem_empty q (h ▸ mem_difference.mpr ⟨hq, hmissing⟩)

/-- Removing what is missing in `s.difference t` leaves `s.difference t`. -/
theorem difference_difference_difference (s t : Store) :
    s.difference (s.difference (s.difference t)) = s.difference t := by
  have hquads : (s.difference (s.difference (s.difference t))).quads = (s.difference t).quads := by
    refine List.filter_congr (fun q hq => ?_)
    have hmem : q ∈ s.difference (s.difference t) ↔ q ∈ t := by
      simp only [mem_difference, mem_def.mpr hq, true_and, not_not]
    exact decide_eq_decide.mpr (not_congr hmem)
  cases hs : s.difference (s.difference (s.difference t))
  cases ht : s.difference t
  rw [hs, ht] at hquads
  subst hquads
  rfl

/-- Taking out what `t` lacks and adding what only `t` has gives `t`. -/
theorem mem_replaced {s t : Store} {q : Quad} :
    q ∈ (s.difference (s.difference t)).addAll (t.difference s) ↔ q ∈ t := by
  simp only [mem_addAll, mem_difference]
  by_cases hs : q ∈ s <;> by_cases ht : q ∈ t <;> simp [hs, ht]

/-! ## Membership of what is read -/

theorem matches_iff {q : Quad} {a b c d : Option Term} :
    q.matches a b c d = true ↔
      (∀ t ∈ a, q.subject = t) ∧ (∀ t ∈ b, q.predicate = t) ∧
        (∀ t ∈ c, q.object = t) ∧ (∀ t ∈ d, q.graph = t) := by
  have hall : ∀ (o : Option Term) (t : Term),
      o.all (· == t) = true ↔ ∀ u ∈ o, t = u := by
    intro o t
    cases o with
    | none => simp
    | some u => simpa using eq_comm
  simp only [Quad.matches, Bool.and_eq_true, hall, and_assoc]

theorem mem_getQuads {s : Store} {a b c d : Option Term} {q : Quad} :
    q ∈ s.getQuads a b c d ↔ q ∈ s ∧ q.matches a b c d = true :=
  List.mem_filter

theorem countQuads_eq_zero {s : Store} {a b c d : Option Term} :
    s.countQuads a b c d = 0 ↔ ∀ q ∈ s, ¬ q.matches a b c d = true := by
  rw [countQuads, List.length_eq_zero_iff, List.eq_nil_iff_forall_not_mem]
  simp only [mem_getQuads, not_and]

theorem mem_getSubjects {s : Store} {b c d : Option Term} {t : Term} :
    t ∈ s.getSubjects b c d ↔
      ∃ q ∈ s, q.matches none b c d = true ∧ q.subject = t := by
  simp only [getSubjects, List.mem_eraseDups, List.mem_map, mem_getQuads, and_assoc]

theorem mem_getPredicates {s : Store} {a c d : Option Term} {t : Term} :
    t ∈ s.getPredicates a c d ↔
      ∃ q ∈ s, q.matches a none c d = true ∧ q.predicate = t := by
  simp only [getPredicates, List.mem_eraseDups, List.mem_map, mem_getQuads, and_assoc]

theorem mem_getObjects {s : Store} {a b d : Option Term} {t : Term} :
    t ∈ s.getObjects a b d ↔
      ∃ q ∈ s, q.matches a b none d = true ∧ q.object = t := by
  simp only [getObjects, List.mem_eraseDups, List.mem_map, mem_getQuads, and_assoc]

theorem mem_getQuadsOf {s : Store} {id : String} {q : Quad} :
    q ∈ s.getQuadsOf id ↔ q ∈ s ∧ q.subject.named id = true := List.mem_filter

theorem mem_getObjectsOf {s : Store} {id : String} {predicate t : Term} :
    t ∈ s.getObjectsOf id predicate ↔
      ∃ q ∈ s, q.subject.named id = true ∧ q.predicate = predicate ∧ q.object = t := by
  simp only [getObjectsOf, List.mem_eraseDups, List.mem_map, List.mem_filter, mem_getQuads,
    matches_iff, Option.mem_def, reduceCtorEq, false_implies, implies_true, true_and, and_true,
    Option.some.injEq, forall_eq']
  exact exists_congr fun q => by tauto

/-! ## Frames

Reading a pattern none of the written quads matches gives the same list
before and after, order included. -/

theorem getQuads_addQuads {s : Store} {qs : List Quad} {a b c d : Option Term}
    (h : ∀ q ∈ qs, ¬ q.matches a b c d = true) :
    (s.addQuads qs).getQuads a b c d = s.getQuads a b c d := by
  induction qs generalizing s with
  | nil => rfl
  | cons q qs ih =>
    have hs : s.addQuads (q :: qs) = (s.addQuad q).addQuads qs := rfl
    rw [hs, ih (fun r hr => h r (List.mem_cons_of_mem _ hr))]
    have hq : ¬ q.matches a b c d = true := h q List.mem_cons_self
    unfold addQuad
    split
    · rfl
    · simp [getQuads, hq]

theorem getQuads_removeQuads {s : Store} {qs : List Quad} {a b c d : Option Term}
    (h : ∀ q ∈ s, q ∈ qs → ¬ q.matches a b c d = true) :
    (s.removeQuads qs).getQuads a b c d = s.getQuads a b c d := by
  simp only [getQuads, removeQuads, List.filter_filter]
  refine List.filter_congr (fun q hq => ?_)
  by_cases hm : q.matches a b c d = true
  · have : q ∉ qs := fun hmem => h q hq hmem hm
    simp [hm, this]
  · simp [hm]

/-- Adding fresh, duplicate-free quads appends them. -/
theorem quads_addQuads_of_fresh {s : Store} {qs : List Quad} (hn : qs.Nodup)
    (h : ∀ q ∈ qs, q ∉ s) : (s.addQuads qs).quads = s.quads ++ qs := by
  induction qs generalizing s with
  | nil => simp [addQuads]
  | cons q qs ih =>
    have hs : s.addQuads (q :: qs) = (s.addQuad q).addQuads qs := rfl
    have hq : (s.addQuad q).quads = s.quads ++ [q] := by
      have : q ∉ s.quads := h q List.mem_cons_self
      simp [addQuad, this]
    have hfresh : ∀ r ∈ qs, r ∉ s.addQuad q := by
      intro r hr hmem
      rcases mem_addQuad.mp hmem with hmem | rfl
      · exact h r (List.mem_cons_of_mem _ hr) hmem
      · exact (List.nodup_cons.mp hn).1 hr
    rw [hs, ih (List.nodup_cons.mp hn).2 hfresh, hq, List.append_assoc,
      List.singleton_append]

/-- A store is the store of its quads. -/
theorem ofQuads_quads (s : Store) : ofQuads s.quads = s := by
  obtain ⟨quads, hnodup⟩ := s
  have hquads : (ofQuads quads).quads = quads :=
    quads_addQuads_of_fresh hnodup fun q _ => not_mem_empty q
  cases hstore : ofQuads quads
  rw [hstore] at hquads
  subst hquads
  rfl

end Store

end UserManagedAccess.Rdf
