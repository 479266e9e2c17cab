/-
UserManagedAccess.Routes.RelationCollections — the quads of relation
collections, and what an update of a resource makes of them.

`Change` is what the two computations of an update come to, entry by entry:
which collections are created and which removed, and which the resource joins
and leaves. The lemmas after it read the store after the update off it, one
predicate at a time.
-/
import UserManagedAccess.Rdf.Links
import UserManagedAccess.Routes.RelationMetadata

namespace UserManagedAccess.Routes

open UserManagedAccess.Lib UserManagedAccess.Rdf UserManagedAccess.Util
open UserManagedAccess.Views UserManagedAccess.Ucp

namespace ResourceRegistrationRequestHandler

/-! ## The quads of a collection -/

section Generated

variable {entry : CollectionMetadata} {owner : String} {collection blank a x : Term}

/-- What a collection is linked to by the relation. -/
def relationObject (entry : CollectionMetadata) (blank : Term) : Term :=
  if entry.reverse then blank else .namedNode entry.relation

theorem mem_generateCollectionTriples {q : Quad} :
    q ∈ generateCollectionTriples entry owner collection blank ↔
      q = quad collection RDF.type ODRL.AssetCollection ∨
        q = quad collection ODRL.source (.namedNode entry.source) ∨
        q = quad collection DC.creator (.namedNode owner) ∨
        q = quad collection ODRL_P.relation (relationObject entry blank) ∨
        (entry.reverse = true ∧ q = quad blank OWL.inverseOf (.namedNode entry.relation)) := by
  unfold generateCollectionTriples relationObject
  cases entry.reverse with
  | true => simp
  | false => simp

theorem type_generated :
    quad a RDF.type x ∈ generateCollectionTriples entry owner collection blank ↔
      a = collection ∧ x = ODRL.AssetCollection := by
  simp [mem_generateCollectionTriples, quad_inj, RDF.type, ODRL.source, DC.creator,
    ODRL_P.relation, OWL.inverseOf]

theorem source_generated :
    quad a ODRL.source x ∈ generateCollectionTriples entry owner collection blank ↔
      a = collection ∧ x = .namedNode entry.source := by
  simp [mem_generateCollectionTriples, quad_inj, RDF.type, ODRL.source, DC.creator,
    ODRL_P.relation, OWL.inverseOf]

theorem creator_generated :
    quad a DC.creator x ∈ generateCollectionTriples entry owner collection blank ↔
      a = collection ∧ x = .namedNode owner := by
  simp [mem_generateCollectionTriples, quad_inj, RDF.type, ODRL.source, DC.creator,
    ODRL_P.relation, OWL.inverseOf]

theorem relation_generated :
    quad a ODRL_P.relation x ∈ generateCollectionTriples entry owner collection blank ↔
      a = collection ∧ x = relationObject entry blank := by
  simp [mem_generateCollectionTriples, quad_inj, RDF.type, ODRL.source, DC.creator,
    ODRL_P.relation, OWL.inverseOf]

theorem inverseOf_generated :
    quad a OWL.inverseOf x ∈ generateCollectionTriples entry owner collection blank ↔
      entry.reverse = true ∧ a = blank ∧ x = .namedNode entry.relation := by
  simp [mem_generateCollectionTriples, quad_inj, RDF.type, ODRL.source, DC.creator,
    ODRL_P.relation, OWL.inverseOf]

theorem partOf_not_generated :
    quad a ODRL.partOf x ∉ generateCollectionTriples entry owner collection blank := by
  simp [mem_generateCollectionTriples, quad_inj, RDF.type, ODRL.source, DC.creator,
    ODRL_P.relation, OWL.inverseOf, ODRL.partOf]

theorem graph_generated {q : Quad}
    (h : q ∈ generateCollectionTriples entry owner collection blank) :
    q.graph = .defaultGraph := by
  rcases mem_generateCollectionTriples.mp h with rfl | rfl | rfl | rfl | ⟨-, rfl⟩ <;> rfl

end Generated

/-! ## Finding collections -/

/-- The collection is linked to the relation, or to the reverse of it. -/
def Related (data : Store) (collection : Term) (entry : CollectionMetadata) : Prop :=
  if entry.reverse then
    ∃ blank, data.Linked collection ODRL_P.relation blank ∧
      data.Linked blank OWL.inverseOf (.namedNode entry.relation)
  else data.Linked collection ODRL_P.relation (.namedNode entry.relation)

theorem mem_findCollectionIds {data : Store} (hplain : data.Plain) {entry : CollectionMetadata}
    {collection : Term} :
    collection ∈ findCollectionIds entry data ↔
      data.Linked collection ODRL.source (.namedNode entry.source) ∧
        Related data collection entry := by
  unfold findCollectionIds Related
  by_cases hreverse : entry.reverse = true
  · simp only [hreverse, if_true, List.mem_map, List.mem_filter, List.mem_flatMap,
      Store.mem_getSubjects_linked, Store.has_iff, ← hplain.linked_iff]
    constructor
    · rintro ⟨q, ⟨⟨subject, hsource, hq⟩, hinverse⟩, rfl⟩
      obtain ⟨hmem, hmatch⟩ := Store.mem_getQuads.mp hq
      obtain ⟨hsubject, hrelation, -, -⟩ := Store.matches_iff.mp hmatch
      have hsubject : q.subject = subject := hsubject subject rfl
      subst hsubject
      exact ⟨hsource, q.object, ⟨q, hmem, rfl, hrelation _ rfl, rfl⟩, hinverse⟩
    · rintro ⟨hsource, blank, hrelation, hinverse⟩
      refine ⟨quad collection ODRL_P.relation blank, ⟨⟨collection, hsource, ?_⟩, hinverse⟩, rfl⟩
      exact Store.mem_getQuads.mpr ⟨hplain.linked_iff.mp hrelation,
        Store.matches_iff.mpr (by simp)⟩
  · dsimp only
    rw [if_neg hreverse, if_neg hreverse, List.mem_filter, Store.mem_getSubjects_linked,
      Store.has_iff, ← hplain.linked_iff]

/-! ## The change of an update, entry by entry -/

/-- The n-th request's blank node with the given number. -/
def blank (env : RegistrationEnvironment) (n k : Nat) : Term := .blankNode (env.blankNode n k)

/-- The entries a change comes from: the defaults that are new and those that
are dropped, and the relations. -/
structure ChangedEntries where
  added : List CollectionMetadata
  dropped : List CollectionMetadata
  joined : List CollectionMetadata
  left : List CollectionMetadata

/-- The collection of the k-th added entry does not exist yet. -/
def ChangedEntries.Creates (entries : ChangedEntries) (s : Store) (k : Nat)
    (e : CollectionMetadata) : Prop :=
  entries.added[k]? = some e ∧ findCollectionIds e s = []

structure Change (env : RegistrationEnvironment) (n : Nat) (s : Store) (id owner : String)
    (entries : ChangedEntries) (change : QuadChange) : Prop where
  mem_add : ∀ q, q ∈ change.add ↔
    (∃ k e, entries.Creates s k e ∧
      q ∈ generateCollectionTriples e owner (collectionId e) (blank env n k)) ∨
    (∃ e ∈ entries.joined, ∃ c ∈ findCollectionIds e s, q = quad (.namedNode id) ODRL.partOf c)
  mem_remove : ∀ q ∈ change.remove,
    (∃ e ∈ entries.dropped, ∃ c ∈ findCollectionIds e s, ∃ k, entries.added.length ≤ k ∧
      q ∈ generateCollectionTriples e owner c (blank env n k)) ∨
    (∃ e ∈ entries.left, ∃ c ∈ findCollectionIds e s, q = quad (.namedNode id) ODRL.partOf c)
  removes : ∀ e ∈ entries.dropped, ∀ c ∈ findCollectionIds e s, ∃ k, entries.added.length ≤ k ∧
    ∀ q ∈ generateCollectionTriples e owner c (blank env n k), q ∈ change.remove
  leaves : ∀ e ∈ entries.left, ∀ c ∈ findCollectionIds e s,
    quad (.namedNode id) ODRL.partOf c ∈ change.remove
  joinable : ∀ e ∈ entries.joined, findCollectionIds e s ≠ []
  leavable : ∀ e ∈ entries.left, findCollectionIds e s ≠ []
  removable : ∀ e ∈ entries.dropped, ∀ c ∈ findCollectionIds e s, ∀ a, ¬ s.Linked a ODRL.partOf c

section Computed

variable {s : Store} {owner : String} {part : Term} {blankNode : Nat → Term}
  {entries : List CollectionMetadata} {quads : List Quad} {n : Nat}

theorem mem_createCollections {q : Quad} :
    q ∈ createCollections s owner blankNode n entries ↔
      ∃ k e, entries[k]? = some e ∧ findCollectionIds e s = [] ∧
        q ∈ generateCollectionTriples e owner (collectionId e) (blankNode (n + k)) := by
  induction entries generalizing n with
  | nil => simp [createCollections]
  | cons e entries ih =>
    have hfirst : q ∈ (if (findCollectionIds e s).length > 0 then []
        else generateCollectionTriples e owner (collectionId e) (blankNode n)) ↔
        findCollectionIds e s = [] ∧
          q ∈ generateCollectionTriples e owner (collectionId e) (blankNode n) := by
      rcases findCollectionIds e s with _ | ⟨c, cs⟩ <;> simp
    rw [createCollections, List.mem_append, hfirst, ih]
    constructor
    · rintro (⟨hnone, hq⟩ | ⟨k, e', hk, hnone, hq⟩)
      · exact ⟨0, e, rfl, hnone, hq⟩
      · refine ⟨k + 1, e', hk, hnone, ?_⟩
        rw [← Nat.add_assoc, Nat.add_right_comm]
        exact hq
    · rintro ⟨k, e', hk, hnone, hq⟩
      cases k with
      | zero =>
        injection hk with hk
        subst hk
        exact Or.inl ⟨hnone, hq⟩
      | succ k =>
        refine Or.inr ⟨k, e', hk, hnone, ?_⟩
        rw [← Nat.add_assoc, Nat.add_right_comm] at hq
        exact hq

theorem generatePartOfTriples_ok (h : generatePartOfTriples part s entries = .ok quads) :
    (∀ e ∈ entries, findCollectionIds e s ≠ []) ∧
      ∀ q, q ∈ quads ↔ ∃ e ∈ entries, ∃ c ∈ findCollectionIds e s, q = quad part ODRL.partOf c := by
  induction entries generalizing quads with
  | nil =>
    injection h with h
    rw [← h]
    simp
  | cons e entries ih =>
    rw [generatePartOfTriples] at h
    dsimp only at h
    by_cases hnone : (findCollectionIds e s).length = 0
    · rw [if_pos hnone] at h
      cases h
    rw [if_neg hnone] at h
    obtain ⟨rest, hrest, h⟩ := Except.bind_eq_ok.mp h
    injection h with h
    obtain ⟨hfound, hmem⟩ := ih hrest
    refine ⟨List.forall_mem_cons.mpr ⟨fun hnil => hnone (by rw [hnil]; rfl), hfound⟩, ?_⟩
    intro q
    rw [← h, List.mem_append, hmem, List.mem_map]
    constructor
    · rintro (⟨c, hc, rfl⟩ | ⟨e', he', c, hc, rfl⟩)
      · exact ⟨e, List.mem_cons_self, c, hc, rfl⟩
      · exact ⟨e', List.mem_cons_of_mem _ he', c, hc, rfl⟩
    · rintro ⟨e', he', c, hc, rfl⟩
      rcases List.mem_cons.mp he' with rfl | he'
      · exact Or.inl ⟨c, hc, rfl⟩
      · exact Or.inr ⟨e', he', c, hc, rfl⟩

theorem removeFound_ok {e : CollectionMetadata} {collections : List Term}
    (h : removeFound s owner blankNode e n collections = .ok quads) :
    (∀ c ∈ collections, ∀ a, ¬ s.Linked a ODRL.partOf c) ∧
      (∀ q ∈ quads, ∃ c ∈ collections, ∃ k, n ≤ k ∧
        q ∈ generateCollectionTriples e owner c (blankNode k)) ∧
      ∀ c ∈ collections, ∃ k, n ≤ k ∧
        ∀ q ∈ generateCollectionTriples e owner c (blankNode k), q ∈ quads := by
  induction collections generalizing n quads with
  | nil =>
    injection h with h
    rw [← h]
    simp
  | cons c collections ih =>
    rw [removeFound] at h
    by_cases hcount : s.countQuads none ODRL.partOf c none > 0
    · rw [if_pos hcount] at h
      cases h
    rw [if_neg hcount] at h
    obtain ⟨rest, hrest, h⟩ := Except.bind_eq_ok.mp h
    injection h with h
    obtain ⟨hempty, hquads, hall⟩ := ih hrest
    have hnone : ∀ a, ¬ s.Linked a ODRL.partOf c := by
      rintro a ⟨q, hq, -, hp, ho⟩
      refine Store.countQuads_eq_zero.mp (Nat.eq_zero_of_not_pos hcount) q hq ?_
      exact Store.matches_iff.mpr (by simp [hp, ho])
    refine ⟨List.forall_mem_cons.mpr ⟨hnone, hempty⟩, ?_, ?_⟩
    · intro q hq
      rw [← h] at hq
      rcases List.mem_append.mp hq with hq | hq
      · exact ⟨c, List.mem_cons_self, n, le_refl n, hq⟩
      · obtain ⟨c', hc', k, hk, hq⟩ := hquads q hq
        exact ⟨c', List.mem_cons_of_mem _ hc', k, by omega, hq⟩
    · intro c' hc'
      rw [← h]
      rcases List.mem_cons.mp hc' with rfl | hc'
      · exact ⟨n, le_refl n, fun q hq => List.mem_append_left _ hq⟩
      · obtain ⟨k, hk, hin⟩ := hall c' hc'
        exact ⟨k, by omega, fun q hq => List.mem_append_right _ (hin q hq)⟩

theorem removeCollections_ok (h : removeCollections s owner blankNode n entries = .ok quads) :
    (∀ e ∈ entries, ∀ c ∈ findCollectionIds e s, ∀ a, ¬ s.Linked a ODRL.partOf c) ∧
      (∀ q ∈ quads, ∃ e ∈ entries, ∃ c ∈ findCollectionIds e s, ∃ k, n ≤ k ∧
        q ∈ generateCollectionTriples e owner c (blankNode k)) ∧
      ∀ e ∈ entries, ∀ c ∈ findCollectionIds e s, ∃ k, n ≤ k ∧
        ∀ q ∈ generateCollectionTriples e owner c (blankNode k), q ∈ quads := by
  induction entries generalizing n quads with
  | nil =>
    injection h with h
    rw [← h]
    simp
  | cons e entries ih =>
    rw [removeCollections] at h
    obtain ⟨first, hfirst, h⟩ := Except.bind_eq_ok.mp h
    obtain ⟨rest, hrest, h⟩ := Except.bind_eq_ok.mp h
    injection h with h
    obtain ⟨hempty, hquads, hall⟩ := removeFound_ok hfirst
    obtain ⟨hempty', hquads', hall'⟩ := ih hrest
    refine ⟨List.forall_mem_cons.mpr ⟨hempty, hempty'⟩, ?_, ?_⟩
    · intro q hq
      rw [← h] at hq
      rcases List.mem_append.mp hq with hq | hq
      · exact ⟨e, List.mem_cons_self, hquads q hq⟩
      · obtain ⟨e', he', c, hc, k, hk, hq⟩ := hquads' q hq
        exact ⟨e', List.mem_cons_of_mem _ he', c, hc, k, by omega, hq⟩
    · intro e' he' c hc
      rw [← h]
      rcases List.mem_cons.mp he' with rfl | he'
      · obtain ⟨k, hk, hin⟩ := hall c hc
        exact ⟨k, hk, fun q hq => List.mem_append_left _ (hin q hq)⟩
      · obtain ⟨k, hk, hin⟩ := hall' e' he' c hc
        exact ⟨k, by omega, fun q hq => List.mem_append_right _ (hin q hq)⟩

end Computed

/-- The entries are what differs between the two descriptions. For the
relations that is so when their keys tell them apart. -/
structure Compares (env : RegistrationEnvironment) (id : String)
    (description : ResourceDescription) (previous : Option ResourceDescription)
    (entries : ChangedEntries) : Prop where
  added : ∀ e, e ∈ entries.added ↔
    e ∈ defaults env (some description) id ∧ e ∉ defaults env previous id
  dropped : ∀ e, e ∈ entries.dropped ↔
    e ∈ defaults env previous id ∧ e ∉ defaults env (some description) id
  joined : DistinctKeys (relations env (some description) ++ relations env previous) →
    ∀ e, e ∈ entries.joined ↔
      e ∈ relations env (some description) ∧ e ∉ relations env previous
  left : DistinctKeys (relations env (some description) ++ relations env previous) →
    ∀ e, e ∈ entries.left ↔
      e ∈ relations env previous ∧ e ∉ relations env (some description)

theorem metadataChange_ok {env : RegistrationEnvironment} {n : Nat} {s : Store}
    {id owner : String} {description : ResourceDescription}
    {previous : Option ResourceDescription} {change : QuadChange}
    (h : metadataChange env n s id owner description previous = .ok change) :
    ∃ entries, Compares env id description previous entries ∧
      Change env n s id owner entries change := by
  obtain ⟨collections, hcollections, h⟩ := Except.bind_eq_ok.mp h
  obtain ⟨memberships, hmemberships, h⟩ := Except.bind_eq_ok.mp h
  injection h with h
  obtain ⟨add, hadd, hcollections⟩ := Except.bind_eq_ok.mp hcollections
  obtain ⟨remove, hremove, hcollections⟩ := Except.bind_eq_ok.mp hcollections
  obtain ⟨removed, hremoved, hcollections⟩ := Except.bind_eq_ok.mp hcollections
  injection hcollections with hcollections
  obtain ⟨join, hjoin, hmemberships⟩ := Except.bind_eq_ok.mp hmemberships
  obtain ⟨leave, hleave, hmemberships⟩ := Except.bind_eq_ok.mp hmemberships
  obtain ⟨joinedQuads, hjoined, hmemberships⟩ := Except.bind_eq_ok.mp hmemberships
  obtain ⟨leftQuads, hleft, hmemberships⟩ := Except.bind_eq_ok.mp hmemberships
  injection hmemberships with hmemberships
  have hkeys := distinctKeys_defaults env (some description) previous id
  have hrepresents := getCollectionMetadata_ok hadd
  have hrepresents' := getCollectionMetadata_ok hremove
  have hrelations := getCollectionMetadata_ok hjoin
  have hrelations' := getCollectionMetadata_ok hleave
  refine ⟨⟨(filterRelationEntries add remove).1.map Prod.snd,
    (filterRelationEntries add remove).2.map Prod.snd,
    (filterRelationEntries join leave).1.map Prod.snd,
    (filterRelationEntries join leave).2.map Prod.snd⟩, ?_, ?_⟩
  · exact ⟨fun e => mem_added hrepresents hrepresents' hkeys,
      fun e => mem_removed hrepresents hrepresents' hkeys,
      fun hdistinct e => mem_added hrelations hrelations' hdistinct,
      fun hdistinct e => mem_removed hrelations hrelations' hdistinct⟩
  · obtain ⟨hempty, hquads, hall⟩ := removeCollections_ok hremoved
    obtain ⟨hjoinable, hjoins⟩ := generatePartOfTriples_ok hjoined
    obtain ⟨hleavable, hleaves⟩ := generatePartOfTriples_ok hleft
    subst h hcollections hmemberships
    refine ⟨?_, ?_, ?_, ?_, hjoinable, hleavable, hempty⟩
    · intro q
      rw [List.mem_append, mem_createCollections, hjoins]
      refine or_congr ?_ Iff.rfl
      simp only [Nat.zero_add, ChangedEntries.Creates, and_assoc]
      exact Iff.rfl
    · intro q hq
      rw [List.mem_append, hleaves] at hq
      rcases hq with hq | hq
      · obtain ⟨e, he, c, hc, k, hk, hq⟩ := hquads q hq
        exact Or.inl ⟨e, he, c, hc, k, by simpa [filterRelationEntries] using hk, hq⟩
      · exact Or.inr hq
    · intro e he c hc
      obtain ⟨k, hk, hin⟩ := hall e he c hc
      exact ⟨k, by simpa [filterRelationEntries] using hk,
        fun q hq => List.mem_append_left _ (hin q hq)⟩
    · intro e he c hc
      exact List.mem_append_right _ ((hleaves _).mpr ⟨e, he, c, hc, rfl⟩)

end ResourceRegistrationRequestHandler

end UserManagedAccess.Routes
