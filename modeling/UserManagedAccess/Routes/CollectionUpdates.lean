/-
UserManagedAccess.Routes.CollectionUpdates — the policy store after an update
of a resource, one predicate at a time.

The blank nodes of a request are new (`Aged`), so that a reverse relation that
is to be removed stays: the quads the code generates for it have a blank node
no quad of the store has.
-/
import UserManagedAccess.Routes.RelationCollections

namespace UserManagedAccess.Routes

open UserManagedAccess.Lib UserManagedAccess.Rdf UserManagedAccess.Util
open UserManagedAccess.Views UserManagedAccess.Ucp

namespace ResourceRegistrationRequestHandler

/-! ## Blank nodes -/

/-- No blank node is created twice. -/
def FreshBlankNodes (env : RegistrationEnvironment) : Prop :=
  ∀ n k n' k', env.blankNode n k = env.blankNode n' k' → n = n' ∧ k = k'

/-- The blank nodes in the store were created by requests before the n-th. -/
def Aged (env : RegistrationEnvironment) (n : Nat) (s : Store) : Prop :=
  ∀ q ∈ s, ∀ b, q.subject = .blankNode b ∨ q.object = .blankNode b →
    ∃ n' k, n' < n ∧ b = env.blankNode n' k

theorem blank_inj {env : RegistrationEnvironment} (hfresh : FreshBlankNodes env) {n k k' : Nat}
    (h : blank env n k = blank env n k') : k = k' := by
  injection h with h
  exact (hfresh n k n k' h).2

namespace Aged

variable {env : RegistrationEnvironment} {n : Nat} {s : Store} {a p x : Term}

theorem mono {m : Nat} (h : Aged env n s) (hle : n ≤ m) : Aged env m s := by
  intro q hq b hb
  obtain ⟨n', k, hn, hb⟩ := h q hq b hb
  exact ⟨n', k, by omega, hb⟩

/-- The blank nodes of this request are not in the store yet. -/
theorem ne_blank (h : Aged env n s) (hfresh : FreshBlankNodes env) (hlinked : s.Linked a p x)
    (k : Nat) : a ≠ blank env n k ∧ x ≠ blank env n k := by
  obtain ⟨q, hq, rfl, -, rfl⟩ := hlinked
  refine ⟨?_, ?_⟩
  · intro hblank
    obtain ⟨n', k', hlt, heq⟩ := h q hq (env.blankNode n k) (Or.inl hblank)
    have hn : n = n' := (hfresh n k n' k' heq).1
    omega
  · intro hblank
    obtain ⟨n', k', hlt, heq⟩ := h q hq (env.blankNode n k) (Or.inr hblank)
    have hn : n = n' := (hfresh n k n' k' heq).1
    omega

end Aged

/-! ## Links after an update -/

theorem mem_updatePolicies {change : QuadChange} {s : Store} {q : Quad} :
    q ∈ updatePolicies change s ↔ (q ∈ s ∨ q ∈ change.add) ∧ q ∉ change.remove := by
  rw [updatePolicies, Store.mem_difference, Store.mem_addAll, Store.mem_ofQuads,
    Store.mem_ofQuads]

namespace Change

variable {env : RegistrationEnvironment} {n : Nat} {s : Store} {id owner : String}
  {entries : ChangedEntries} {change : QuadChange} {a p x : Term}

theorem graph_add (h : Change env n s id owner entries change) :
    ∀ q ∈ change.add, q.graph = .defaultGraph := by
  intro q hq
  rcases (h.mem_add q).mp hq with ⟨k, e, -, hq⟩ | ⟨e, -, c, -, rfl⟩
  · exact graph_generated hq
  · rfl

theorem plain (h : Change env n s id owner entries change) (hplain : s.Plain) :
    (updatePolicies change s).Plain := by
  intro q hq
  rcases (mem_updatePolicies.mp hq).1 with hq | hq
  · exact hplain q hq
  · exact h.graph_add q hq

theorem linked_iff (h : Change env n s id owner entries change) (hplain : s.Plain) :
    (updatePolicies change s).Linked a p x ↔
      (s.Linked a p x ∨ quad a p x ∈ change.add) ∧ quad a p x ∉ change.remove := by
  rw [(h.plain hplain).linked_iff, mem_updatePolicies, hplain.linked_iff]

/-- The quads added with a predicate other than `partOf` are those of the new
collections. -/
theorem added_iff (h : Change env n s id owner entries change) (hp : p ≠ ODRL.partOf) :
    quad a p x ∈ change.add ↔ ∃ k e, entries.Creates s k e ∧
      quad a p x ∈ generateCollectionTriples e owner (collectionId e) (blank env n k) := by
  rw [h.mem_add]
  constructor
  · rintro (hcreated | ⟨e, -, c, -, hq⟩)
    · exact hcreated
    · exact absurd (quad_inj.mp hq).2.1 hp
  · exact Or.inl

/-- What an update does to a predicate with one object for each entry. -/
theorem linked_fixed (h : Change env n s id owner entries change) (hplain : s.Plain)
    (hp : p ≠ ODRL.partOf) (object : CollectionMetadata → Term)
    (hgenerated : ∀ (e : CollectionMetadata) (c b : Term),
      quad a p x ∈ generateCollectionTriples e owner c b ↔ a = c ∧ x = object e) :
    (updatePolicies change s).Linked a p x ↔
      (s.Linked a p x ∨ ∃ k e, entries.Creates s k e ∧ a = collectionId e ∧ x = object e) ∧
        ¬ ∃ e ∈ entries.dropped, a ∈ findCollectionIds e s ∧ x = object e := by
  have hadd : quad a p x ∈ change.add ↔
      ∃ k e, entries.Creates s k e ∧ a = collectionId e ∧ x = object e := by
    rw [h.added_iff hp]
    simp only [hgenerated]
  have hremove : quad a p x ∈ change.remove ↔
      ∃ e ∈ entries.dropped, a ∈ findCollectionIds e s ∧ x = object e := by
    constructor
    · intro hq
      rcases h.mem_remove _ hq with ⟨e, he, c, hc, k, -, hq⟩ | ⟨e, -, c, -, hq⟩
      · obtain ⟨rfl, hx⟩ := (hgenerated e c (blank env n k)).mp hq
        exact ⟨e, he, hc, hx⟩
      · exact absurd (quad_inj.mp hq).2.1 hp
    · rintro ⟨e, he, ha, hx⟩
      obtain ⟨k, -, hin⟩ := h.removes e he a ha
      exact hin _ ((hgenerated e a (blank env n k)).mpr ⟨rfl, hx⟩)
  rw [h.linked_iff hplain, hadd, hremove]

theorem linked_type (h : Change env n s id owner entries change) (hplain : s.Plain) :
    (updatePolicies change s).Linked a RDF.type x ↔
      (s.Linked a RDF.type x ∨
        ∃ k e, entries.Creates s k e ∧ a = collectionId e ∧ x = ODRL.AssetCollection) ∧
      ¬ ∃ e ∈ entries.dropped, a ∈ findCollectionIds e s ∧ x = ODRL.AssetCollection :=
  h.linked_fixed hplain (by decide) (fun _ => ODRL.AssetCollection) (fun _ _ _ => type_generated)

theorem linked_source (h : Change env n s id owner entries change) (hplain : s.Plain) :
    (updatePolicies change s).Linked a ODRL.source x ↔
      (s.Linked a ODRL.source x ∨
        ∃ k e, entries.Creates s k e ∧ a = collectionId e ∧ x = .namedNode e.source) ∧
      ¬ ∃ e ∈ entries.dropped, a ∈ findCollectionIds e s ∧ x = .namedNode e.source :=
  h.linked_fixed hplain (by decide) (fun e => .namedNode e.source) (fun _ _ _ => source_generated)

theorem linked_creator (h : Change env n s id owner entries change) (hplain : s.Plain) :
    (updatePolicies change s).Linked a DC.creator x ↔
      (s.Linked a DC.creator x ∨
        ∃ k e, entries.Creates s k e ∧ a = collectionId e ∧ x = .namedNode owner) ∧
      ¬ ∃ e ∈ entries.dropped, a ∈ findCollectionIds e s ∧ x = .namedNode owner :=
  h.linked_fixed hplain (by decide) (fun _ => .namedNode owner) (fun _ _ _ => creator_generated)

/-- A reverse relation is not removed: its blank node is another one. -/
theorem linked_relation (h : Change env n s id owner entries change) (hplain : s.Plain)
    (hfresh : FreshBlankNodes env) (haged : Aged env n s) :
    (updatePolicies change s).Linked a ODRL_P.relation x ↔
      (s.Linked a ODRL_P.relation x ∨ ∃ k e, entries.Creates s k e ∧ a = collectionId e ∧
        x = relationObject e (blank env n k)) ∧
      ¬ ∃ e ∈ entries.dropped, a ∈ findCollectionIds e s ∧ e.reverse = false ∧
        x = .namedNode e.relation := by
  rw [h.linked_iff hplain, h.added_iff (by decide)]
  simp only [relation_generated]
  refine and_congr_right (fun hadded => not_congr ⟨?_, ?_⟩)
  · intro hq
    rcases h.mem_remove _ hq with ⟨e, he, c, hc, k, hk, hq⟩ | ⟨e, -, c, -, hq⟩
    · obtain ⟨rfl, hx⟩ := relation_generated.mp hq
      refine ⟨e, he, hc, ?_⟩
      by_cases hreverse : e.reverse = true
      · -- the blank node is neither in the store nor one of those added
        rw [relationObject, if_pos hreverse] at hx
        exfalso
        rcases hadded with hold | ⟨k', e', hcreates, -, hx'⟩
        · exact (haged.ne_blank hfresh hold k).2 hx
        · by_cases hreverse' : e'.reverse = true
          · rw [relationObject, if_pos hreverse', hx] at hx'
            have hkk : k = k' := blank_inj hfresh hx'
            have hlt : k' < entries.added.length :=
              (List.getElem?_eq_some_iff.mp hcreates.1).1
            omega
          · rw [relationObject, if_neg hreverse', hx] at hx'
            cases hx'
      · rw [relationObject, if_neg hreverse] at hx
        exact ⟨by simpa using hreverse, hx⟩
    · exact absurd (quad_inj.mp hq).2.1 (by decide)
  · rintro ⟨e, he, ha, hreverse, hx⟩
    obtain ⟨k, -, hin⟩ := h.removes e he a ha
    refine hin _ (relation_generated.mpr ⟨rfl, ?_⟩)
    rw [relationObject, hreverse]
    exact hx

theorem linked_inverseOf (h : Change env n s id owner entries change) (hplain : s.Plain)
    (hfresh : FreshBlankNodes env) (haged : Aged env n s) :
    (updatePolicies change s).Linked a OWL.inverseOf x ↔
      s.Linked a OWL.inverseOf x ∨ ∃ k e, entries.Creates s k e ∧ e.reverse = true ∧
        a = blank env n k ∧ x = .namedNode e.relation := by
  rw [h.linked_iff hplain, h.added_iff (by decide)]
  simp only [inverseOf_generated]
  refine and_iff_left_of_imp (fun hadded hq => ?_)
  rcases h.mem_remove _ hq with ⟨e, he, c, hc, k, hk, hq⟩ | ⟨e, -, c, -, hq⟩
  · obtain ⟨-, ha, -⟩ := inverseOf_generated.mp hq
    rcases hadded with hold | ⟨k', e', hcreates, -, ha', -⟩
    · exact (haged.ne_blank hfresh hold k).1 ha
    · have hkk : k = k' := blank_inj hfresh (ha.symm.trans ha')
      have hlt : k' < entries.added.length := (List.getElem?_eq_some_iff.mp hcreates.1).1
      omega
  · exact absurd (quad_inj.mp hq).2.1 (by decide)

theorem linked_partOf (h : Change env n s id owner entries change) (hplain : s.Plain) :
    (updatePolicies change s).Linked a ODRL.partOf x ↔
      (s.Linked a ODRL.partOf x ∨
        (a = .namedNode id ∧ ∃ e ∈ entries.joined, x ∈ findCollectionIds e s)) ∧
      ¬ (a = .namedNode id ∧ ∃ e ∈ entries.left, x ∈ findCollectionIds e s) := by
  have hadd : quad a ODRL.partOf x ∈ change.add ↔
      a = .namedNode id ∧ ∃ e ∈ entries.joined, x ∈ findCollectionIds e s := by
    rw [h.mem_add]
    constructor
    · rintro (⟨k, e, -, hq⟩ | ⟨e, he, c, hc, hq⟩)
      · exact absurd hq partOf_not_generated
      · obtain ⟨ha, -, rfl⟩ := quad_inj.mp hq
        exact ⟨ha, e, he, hc⟩
    · rintro ⟨rfl, e, he, hx⟩
      exact Or.inr ⟨e, he, x, hx, rfl⟩
  have hremove : quad a ODRL.partOf x ∈ change.remove ↔
      a = .namedNode id ∧ ∃ e ∈ entries.left, x ∈ findCollectionIds e s := by
    constructor
    · intro hq
      rcases h.mem_remove _ hq with ⟨e, -, c, -, k, -, hq⟩ | ⟨e, he, c, hc, hq⟩
      · exact absurd hq partOf_not_generated
      · obtain ⟨ha, -, rfl⟩ := quad_inj.mp hq
        exact ⟨ha, e, he, hc⟩
    · rintro ⟨rfl, e, he, hx⟩
      exact h.leaves e he x hx
  rw [h.linked_iff hplain, hadd, hremove]

/-- The blank nodes of a later store are those of this request or older. -/
theorem aged (h : Change env n s id owner entries change) (hplain : s.Plain)
    (haged : Aged env n s) : Aged env (n + 1) (updatePolicies change s) := by
  have hblank : ∀ {b : String} {k : Nat}, blank env n k = .blankNode b →
      ∃ n' k, n' < n + 1 ∧ b = env.blankNode n' k := by
    intro b k hb
    injection hb with hb
    exact ⟨n, k, by omega, hb.symm⟩
  intro q hq b hb
  rcases (mem_updatePolicies.mp hq).1 with hold | hadd
  · exact haged.mono (Nat.le_succ n) q hold b hb
  rcases (h.mem_add q).mp hadd with ⟨k, e, -, hq⟩ | ⟨e, he, c, hc, rfl⟩
  · rcases mem_generateCollectionTriples.mp hq with rfl | rfl | rfl | rfl | ⟨-, rfl⟩
    · rcases hb with hb | hb <;> cases hb
    · rcases hb with hb | hb <;> cases hb
    · rcases hb with hb | hb <;> cases hb
    · rcases hb with hb | hb
      · cases hb
      · by_cases hreverse : e.reverse = true
        · rw [quad_object, relationObject, if_pos hreverse] at hb
          exact hblank hb
        · rw [quad_object, relationObject, if_neg hreverse] at hb
          cases hb
    · rcases hb with hb | hb
      · exact hblank hb
      · cases hb
  · rcases hb with hb | hb
    · cases hb
    · obtain ⟨q', hq', hsubject, -, -⟩ := ((mem_findCollectionIds hplain).mp hc).1
      exact haged.mono (Nat.le_succ n) q' hq' b (Or.inl (hsubject.trans hb))

end Change

/-! ## Links after a deletion -/

theorem mem_withoutResource {id owner : String} {s : ServerState} {q : Quad} :
    q ∈ (withoutResource id owner s).policies ↔
      q ∈ s.policies ∧ ¬ (q.subject = .namedNode id ∧ q.predicate = ODRL.partOf) := by
  have hpolicies : (withoutResource id owner s).policies = s.policies.difference
      (Store.ofQuads (s.policies.getQuads (Term.namedNode id) ODRL.partOf none none)) := rfl
  rw [hpolicies, Store.mem_difference, Store.mem_ofQuads, Store.mem_getQuads, Store.matches_iff]
  refine and_congr_right (fun hq => ?_)
  simp [hq]

theorem linked_withoutResource {id owner : String} {s : ServerState} {a p x : Term} :
    (withoutResource id owner s).policies.Linked a p x ↔
      s.policies.Linked a p x ∧ ¬ (a = .namedNode id ∧ p = ODRL.partOf) := by
  constructor
  · rintro ⟨q, hq, rfl, rfl, rfl⟩
    obtain ⟨hold, hkept⟩ := mem_withoutResource.mp hq
    exact ⟨⟨q, hold, rfl, rfl, rfl⟩, hkept⟩
  · rintro ⟨⟨q, hq, rfl, rfl, rfl⟩, hkept⟩
    exact ⟨q, mem_withoutResource.mpr ⟨hq, hkept⟩, rfl, rfl, rfl⟩

/-- A deletion changes memberships only. -/
theorem linked_withoutResource_of_ne {id owner : String} {s : ServerState} {a p x : Term}
    (hp : p ≠ ODRL.partOf) :
    (withoutResource id owner s).policies.Linked a p x ↔ s.policies.Linked a p x := by
  rw [linked_withoutResource]
  exact and_iff_left fun h => hp h.2

end ResourceRegistrationRequestHandler

end UserManagedAccess.Routes
