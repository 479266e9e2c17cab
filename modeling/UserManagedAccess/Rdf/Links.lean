/-
UserManagedAccess.Rdf.Links — a store as a graph: which nodes it describes,
and which it links by a predicate.

The graph of a quad does not matter here: a link of any graph is a link.
-/
import UserManagedAccess.Rdf.Store

namespace UserManagedAccess.Rdf

namespace Store

/-! ## Nodes and links -/

/-- Some quad has the node as its subject. -/
def Described (s : Store) (node : Term) : Prop := ∃ q ∈ s, q.subject = node

def Linked (s : Store) (subject predicate object : Term) : Prop :=
  ∃ q ∈ s, q.subject = subject ∧ q.predicate = predicate ∧ q.object = object

instance (s : Store) (node : Term) : Decidable (s.Described node) :=
  decidable_of_iff (∃ q ∈ s.quads, q.subject = node) Iff.rfl

instance (s : Store) (subject predicate object : Term) :
    Decidable (s.Linked subject predicate object) :=
  decidable_of_iff (∃ q ∈ s.quads, q.subject = subject ∧ q.predicate = predicate ∧
    q.object = object) Iff.rfl

theorem Linked.described {s : Store} {a p b : Term} (h : s.Linked a p b) : s.Described a := by
  obtain ⟨q, hq, ha, -, -⟩ := h
  exact ⟨q, hq, ha⟩

theorem Linked.mono {s t : Store} {a p b : Term} (h : s.Linked a p b)
    (hsub : ∀ q ∈ s, q ∈ t) : t.Linked a p b := by
  obtain ⟨q, hq, hmatch⟩ := h
  exact ⟨q, hsub q hq, hmatch⟩

theorem linked_of_mem {s : Store} {a p b : Term} (h : quad a p b ∈ s) : s.Linked a p b :=
  ⟨quad a p b, h, rfl, rfl, rfl⟩

theorem linked_addAll {s t : Store} {a p b : Term} :
    (s.addAll t).Linked a p b ↔ s.Linked a p b ∨ t.Linked a p b := by
  constructor
  · rintro ⟨q, hq, hmatch⟩
    rcases mem_addAll.mp hq with hq | hq
    · exact Or.inl ⟨q, hq, hmatch⟩
    · exact Or.inr ⟨q, hq, hmatch⟩
  · rintro (h | h)
    · exact h.mono (fun q hq => mem_addAll.mpr (Or.inl hq))
    · exact h.mono (fun q hq => mem_addAll.mpr (Or.inr hq))

/-! ## Links as the code reads them -/

theorem mem_getObjects_linked {s : Store} {a p b : Term} :
    b ∈ s.getObjects a p none ↔ s.Linked a p b := by
  rw [mem_getObjects]
  constructor
  · rintro ⟨q, hq, hmatch, hb⟩
    obtain ⟨ha, hp, -, -⟩ := matches_iff.mp hmatch
    exact ⟨q, hq, ha a rfl, hp p rfl, hb⟩
  · rintro ⟨q, hq, ha, hp, hb⟩
    refine ⟨q, hq, matches_iff.mpr ?_, hb⟩
    simp [ha, hp]

theorem mem_getSubjects_linked {s : Store} {a p b : Term} :
    a ∈ s.getSubjects p b none ↔ s.Linked a p b := by
  rw [mem_getSubjects]
  constructor
  · rintro ⟨q, hq, hmatch, ha⟩
    obtain ⟨-, hp, hb, -⟩ := matches_iff.mp hmatch
    exact ⟨q, hq, ha, hp p rfl, hb b rfl⟩
  · rintro ⟨q, hq, ha, hp, hb⟩
    refine ⟨q, hq, matches_iff.mpr ?_, ha⟩
    simp [hp, hb]

/-- Some node that a plain string stands for in a lookup is linked to the object. -/
def LinkedFrom (s : Store) (id : String) (predicate object : Term) : Prop :=
  ∃ subject : Term, subject.named id = true ∧ s.Linked subject predicate object

theorem mem_getObjectsOf_linked {s : Store} {id : String} {p b : Term} :
    b ∈ s.getObjectsOf id p ↔ s.LinkedFrom id p b := by
  rw [mem_getObjectsOf]
  constructor
  · rintro ⟨q, hq, hnamed, hp, hb⟩
    exact ⟨q.subject, hnamed, q, hq, rfl, hp, hb⟩
  · rintro ⟨subject, hnamed, q, hq, rfl, hp, hb⟩
    exact ⟨q, hq, hnamed, hp, hb⟩

theorem Linked.linkedFrom {s : Store} {id : String} {p b : Term} (h : s.Linked (.namedNode id) p b) :
    s.LinkedFrom id p b := ⟨_, Term.named_iff.mpr (.inr rfl), h⟩

theorem linkedFrom_addAll {s t : Store} {id : String} {p b : Term} :
    (s.addAll t).LinkedFrom id p b ↔ s.LinkedFrom id p b ∨ t.LinkedFrom id p b := by
  simp only [LinkedFrom, linked_addAll, and_or_left, exists_or]

/-- The objects of a predicate, whatever their subject. -/
theorem mem_getObjects_of_any {s : Store} {p b : Term} :
    b ∈ s.getObjects none p none ↔ ∃ a, s.Linked a p b := by
  rw [mem_getObjects]
  constructor
  · rintro ⟨q, hq, hmatch, hb⟩
    exact ⟨q.subject, q, hq, rfl, (matches_iff.mp hmatch).2.1 p rfl, hb⟩
  · rintro ⟨a, q, hq, -, hp, hb⟩
    exact ⟨q, hq, matches_iff.mpr (by simp [hp]), hb⟩

theorem eraseDups_eq_singleton {l : List Term} {x : Term} :
    l.eraseDups = [x] ↔ ∀ y, y ∈ l ↔ y = x := by
  constructor
  · intro h y
    rw [← List.mem_eraseDups, h, List.mem_singleton]
  · intro h
    rcases l with _ | ⟨a, l⟩
    · exact absurd ((h x).mpr rfl) List.not_mem_nil
    · have ha : a = x := (h a).mp List.mem_cons_self
      subst ha
      have hrest : (l.filter fun b => !b == a) = [] := by
        refine List.filter_eq_nil_iff.mpr (fun b hb => ?_)
        simp [(h b).mp (List.mem_cons_of_mem _ hb)]
      rw [List.eraseDups_cons, hrest, List.eraseDups_nil]

theorem getObjects_eq_nil {s : Store} {a p : Term} :
    s.getObjects a p none = [] ↔ ∀ b, ¬ s.Linked a p b := by
  rw [List.eq_nil_iff_forall_not_mem]
  simp only [mem_getObjects_linked]

theorem getObjects_eq_singleton {s : Store} {a p b : Term} :
    s.getObjects a p none = [b] ↔ ∀ o, s.Linked a p o ↔ o = b := by
  rw [getObjects, eraseDups_eq_singleton]
  refine forall_congr' (fun o => ?_)
  rw [← mem_getObjects_linked, getObjects, List.mem_eraseDups]

/-- The quads about a node. -/
theorem mem_getQuads_subject {s : Store} {node : Term} {q : Quad} :
    q ∈ s.getQuads node none none none ↔ q ∈ s ∧ q.subject = node := by
  rw [mem_getQuads, matches_iff]
  simp

/-! ## Stores with a default graph only -/

def Plain (s : Store) : Prop := ∀ q ∈ s, q.graph = .defaultGraph

instance (s : Store) : Decidable s.Plain :=
  inferInstanceAs (Decidable (∀ q ∈ s.quads, q.graph = .defaultGraph))

theorem Plain.linked_iff {s : Store} (h : s.Plain) {a p b : Term} :
    s.Linked a p b ↔ quad a p b ∈ s := by
  constructor
  · rintro ⟨⟨a', p', b', g⟩, hq, rfl, rfl, rfl⟩
    have hgraph : g = .defaultGraph := h _ hq
    rw [hgraph] at hq
    exact hq
  · exact linked_of_mem

/-- No quad mentions the node as its subject or its object. -/
def Unmentioned (s : Store) (node : Term) : Prop := ∀ q ∈ s, q.subject ≠ node ∧ q.object ≠ node

theorem Unmentioned.not_linked {s : Store} {node : Term} (h : s.Unmentioned node) {a p b : Term}
    (hlinked : s.Linked a p b) : a ≠ node ∧ b ≠ node := by
  obtain ⟨q, hq, rfl, -, rfl⟩ := hlinked
  exact h q hq

/-! ## Adding a store with other subjects -/

/-- The two stores describe different nodes. -/
def Apart (s t : Store) : Prop := ∀ node, t.Described node → ¬ s.Described node

theorem Apart.not_mem {s t : Store} (h : Apart s t) {q : Quad} (hq : q ∈ t) : q ∉ s :=
  fun hs => h q.subject ⟨q, hq, rfl⟩ ⟨q, hs, rfl⟩

theorem linked_addAll_left {s t : Store} {a p b : Term} (h : ¬ t.Described a) :
    (s.addAll t).Linked a p b ↔ s.Linked a p b := by
  rw [linked_addAll]
  exact or_iff_left (fun ht => h ht.described)

theorem linked_addAll_right {s t : Store} {a p b : Term} (h : ¬ s.Described a) :
    (s.addAll t).Linked a p b ↔ t.Linked a p b := by
  rw [linked_addAll]
  exact or_iff_right (fun hs => h hs.described)

theorem getObjects_addAll_left {s t : Store} {a : Term} (h : ¬ t.Described a)
    (p g : Option Term) : (s.addAll t).getObjects a p g = s.getObjects a p g := by
  have hquads : (s.addAll t).getQuads a p none g = s.getQuads a p none g := by
    refine getQuads_addQuads (fun q hq hmatch => h ⟨q, hq, ?_⟩)
    exact (matches_iff.mp hmatch).1 a rfl
  rw [getObjects, getObjects, hquads]

theorem getObjects_addAll_right {s t : Store} (hapart : Apart s t) {a : Term}
    (h : ¬ s.Described a) (p g : Option Term) :
    (s.addAll t).getObjects a p g = t.getObjects a p g := by
  have hnone : s.quads.filter (·.matches a p none g) = [] := by
    refine List.filter_eq_nil_iff.mpr (fun q hq hmatch => h ⟨q, hq, ?_⟩)
    exact (matches_iff.mp hmatch).1 a rfl
  have hquads : (s.addAll t).getQuads a p none g = t.getQuads a p none g := by
    have hall : (s.addAll t).quads = s.quads ++ t.quads :=
      quads_addQuads_of_fresh t.nodup (fun q hq => hapart.not_mem hq)
    rw [getQuads, hall, List.filter_append, hnone, List.nil_append]
    rfl
  rw [getObjects, getObjects, hquads]

end Store

end UserManagedAccess.Rdf
