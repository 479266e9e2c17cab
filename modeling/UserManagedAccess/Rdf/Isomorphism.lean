/-
UserManagedAccess.Rdf.Isomorphism — stores that are equal up to the names of
their blank nodes.

A renaming leaves predicates that are IRIs alone, so that isomorphic stores
have as many quads of each of them. A store with strictly more quads of a
predicate than another is therefore not isomorphic to it
(`Isomorphic.mem_of_subset`).
-/
import Mathlib.Data.List.Perm.Subperm
import Mathlib.Logic.Equiv.Defs
import UserManagedAccess.Rdf.Links

namespace UserManagedAccess.Rdf

/-! ## Renaming -/

def Term.rename (f : String → String) : Term → Term
  | .blankNode value => .blankNode (f value)
  | t => t

def Quad.rename (f : String → String) (q : Quad) : Quad where
  subject := q.subject.rename f
  predicate := q.predicate.rename f
  object := q.object.rename f
  graph := q.graph.rename f

theorem Term.rename_injective {f : String → String} (hf : Function.Injective f) :
    Function.Injective (Term.rename f) := by
  intro t u h
  cases t <;> cases u <;> simp_all [Term.rename, hf.eq_iff]

theorem Quad.rename_injective {f : String → String} (hf : Function.Injective f) :
    Function.Injective (Quad.rename f) := by
  intro q r h
  obtain ⟨a, p, x, g⟩ := q
  obtain ⟨a', p', x', g'⟩ := r
  simp only [Quad.rename, Quad.mk.injEq, (Term.rename_injective hf).eq_iff] at h
  simp [h]

@[simp] theorem Term.rename_id (t : Term) : t.rename id = t := by
  cases t <;> rfl

@[simp] theorem Quad.rename_id (q : Quad) : q.rename id = q := by
  simp [Quad.rename]

theorem Term.rename_rename (f g : String → String) (t : Term) :
    (t.rename g).rename f = t.rename (f ∘ g) := by
  cases t <;> rfl

theorem Quad.rename_rename (f g : String → String) (q : Quad) :
    (q.rename g).rename f = q.rename (f ∘ g) := by
  simp [Quad.rename, Term.rename_rename]

/-- A renaming makes no other term an IRI. -/
theorem Term.rename_eq_namedNode {f : String → String} {t : Term} {iri : String} :
    t.rename f = .namedNode iri ↔ t = .namedNode iri := by
  cases t <;> simp [Term.rename]

/-! ## Isomorphic stores -/

namespace Store

/-- The quads of one store are those of the other with renamed blank nodes. -/
def Isomorphic (s t : Store) : Prop :=
  ∃ f : Equiv.Perm String, ∀ q : Quad, q.rename f ∈ t ↔ q ∈ s

theorem isomorphic_of_same {s t : Store} (h : ∀ q, q ∈ t ↔ q ∈ s) : Isomorphic s t := by
  refine ⟨Equiv.refl String, fun q => ?_⟩
  have hrename : q.rename (Equiv.refl String) = q := Quad.rename_id q
  rw [hrename]
  exact h q

theorem Isomorphic.symm {s t : Store} (h : Isomorphic s t) : Isomorphic t s := by
  obtain ⟨f, hf⟩ := h
  refine ⟨f.symm, fun q => ?_⟩
  have hback : (q.rename f.symm).rename f = q := by
    rw [Quad.rename_rename, Equiv.self_comp_symm]
    exact Quad.rename_id q
  rw [← hf, hback]

/-- The quads with a predicate. -/
def withPredicate (s : Store) (iri : String) : List Quad :=
  s.quads.filter fun q => q.predicate = .namedNode iri

theorem mem_withPredicate {s : Store} {iri : String} {q : Quad} :
    q ∈ s.withPredicate iri ↔ q ∈ s ∧ q.predicate = .namedNode iri := by
  rw [withPredicate, List.mem_filter]
  simp [mem_def]

theorem Isomorphic.length_le {s t : Store} (h : Isomorphic s t) (iri : String) :
    (s.withPredicate iri).length ≤ (t.withPredicate iri).length := by
  obtain ⟨f, hf⟩ := h
  have hnodup : ((s.withPredicate iri).map (Quad.rename f)).Nodup :=
    (s.nodup.filter _).map (Quad.rename_injective f.injective)
  have hsub : (s.withPredicate iri).map (Quad.rename f) ⊆ t.withPredicate iri := by
    intro r hr
    obtain ⟨q, hq, rfl⟩ := List.mem_map.mp hr
    obtain ⟨hmem, hpredicate⟩ := mem_withPredicate.mp hq
    exact mem_withPredicate.mpr ⟨(hf q).mpr hmem, Term.rename_eq_namedNode.mpr hpredicate⟩
  have hle := (List.subperm_of_subset hnodup hsub).length_le
  rw [List.length_map] at hle
  exact hle

/-- Where one of two isomorphic stores has all quads of a predicate that the
other has, it has no others. -/
theorem Isomorphic.mem_of_subset {s t : Store} (h : Isomorphic s t) {iri : String}
    (hsub : ∀ q ∈ t, q.predicate = .namedNode iri → q ∈ s) {q : Quad} (hq : q ∈ s)
    (hpredicate : q.predicate = .namedNode iri) : q ∈ t := by
  have hsubset : t.withPredicate iri ⊆ s.withPredicate iri := by
    intro r hr
    obtain ⟨hmem, hr⟩ := mem_withPredicate.mp hr
    exact mem_withPredicate.mpr ⟨hsub r hmem hr, hr⟩
  have hperm := (List.subperm_of_subset (t.nodup.filter _) hsubset).perm_of_length_le
    (h.length_le iri)
  exact (mem_withPredicate.mp (hperm.mem_iff.mpr (mem_withPredicate.mpr ⟨hq, hpredicate⟩))).1

/-- The same for links. -/
theorem Isomorphic.linked_of_subset {s t : Store} (h : Isomorphic s t) (hs : s.Plain)
    (ht : t.Plain) {iri : String}
    (hsub : ∀ a x, t.Linked a (.namedNode iri) x → s.Linked a (.namedNode iri) x) {a x : Term}
    (hlinked : s.Linked a (.namedNode iri) x) : t.Linked a (.namedNode iri) x := by
  refine linked_of_mem (h.mem_of_subset ?_ (hs.linked_iff.mp hlinked) rfl)
  rintro ⟨b, p, y, g⟩ hq rfl
  have hgraph : g = .defaultGraph := ht _ hq
  subst hgraph
  exact hs.linked_iff.mp (hsub b y (linked_of_mem hq))

end Store

end UserManagedAccess.Rdf
