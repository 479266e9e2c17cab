/-
UserManagedAccess.Routes.DedicatedCollections — collections that stand for one
entry each.

The identifier of a collection is put together from two IRIs, and entries can
share it. `OnlyFor` says that what the store links a collection to fits one
entry only; such a collection is found by no other (`OnlyFor.unique`), and an
update that creates no other collection under its identifier keeps it so
(`onlyFor_update`).
-/
import UserManagedAccess.Routes.CollectionUpdates

namespace UserManagedAccess.Routes

open UserManagedAccess.Lib UserManagedAccess.Rdf UserManagedAccess.Util
open UserManagedAccess.Views UserManagedAccess.Ucp

namespace ResourceRegistrationRequestHandler

/-! ## One entry for a collection -/

/-- What the requests before the n-th can have put into the store. -/
structure Tidy (env : RegistrationEnvironment) (n : Nat) (s : Store) : Prop where
  plain : s.Plain
  aged : Aged env n s
  inverses : ∀ a x, s.Linked a OWL.inverseOf x → ∃ b, a = .blankNode b

/-- The relation the object stands for is that of the entry. -/
def StandsFor (s : Store) (x : Term) (e : CollectionMetadata) : Prop :=
  if e.reverse then
    (∃ b, x = .blankNode b) ∧ ∀ y, s.Linked x OWL.inverseOf y → y = .namedNode e.relation
  else x = .namedNode e.relation

/-- The sources and relations of the collection are those of the entry, as far
as it has any. -/
structure OnlyFor (s : Store) (c : Term) (e : CollectionMetadata) : Prop where
  source : ∀ x, s.Linked c ODRL.source x → x = .namedNode e.source
  relation : ∀ x, s.Linked c ODRL_P.relation x → StandsFor s x e

/-- The collection the code makes for an entry. -/
structure IsCollection (s : Store) (c : Term) (e : CollectionMetadata) : Prop where
  id : c = collectionId e
  only : OnlyFor s c e
  found : c ∈ findCollectionIds e s
  typed : s.Linked c RDF.type ODRL.AssetCollection
  created : ∃ owner, s.Linked c DC.creator owner

/-- Every node with a source is a collection for an entry. -/
def DedicatedCollections (s : Store) : Prop :=
  ∀ c x, s.Linked c ODRL.source x → ∃ e, IsCollection s c e

section Unique

variable {env : RegistrationEnvironment} {n : Nat} {s : Store} {c : Term}
  {e e' : CollectionMetadata}

theorem OnlyFor.unique (h : OnlyFor s c e) (htidy : Tidy env n s)
    (hfound : c ∈ findCollectionIds e' s) : e' = e := by
  obtain ⟨hsource, hrelated⟩ := (mem_findCollectionIds htidy.plain).mp hfound
  have hsource : e'.source = e.source := by
    injection h.source _ hsource
  obtain ⟨relation, source, reverse⟩ := e
  obtain ⟨relation', source', reverse'⟩ := e'
  have hsource : source' = source := hsource
  subst hsource
  cases reverse' with
  | true =>
    obtain ⟨b, hrelation, hinverse⟩ := hrelated
    have hstands := h.relation b hrelation
    cases reverse with
    | true =>
      injection hstands.2 _ hinverse with hrelation
      have hrelation : relation' = relation := hrelation
      rw [hrelation]
    | false =>
      have hnamed : b = .namedNode relation := hstands
      obtain ⟨b', hblank⟩ := htidy.inverses b _ hinverse
      rw [hnamed] at hblank
      cases hblank
  | false =>
    have hstands := h.relation _ hrelated
    cases reverse with
    | true =>
      obtain ⟨⟨b, hb⟩, -⟩ := hstands
      cases hb
    | false =>
      injection hstands with hrelation
      have hrelation : relation' = relation := hrelation
      rw [hrelation]

/-- A collection that is found is the one of the entry. -/
theorem DedicatedCollections.of_found (h : DedicatedCollections s) (htidy : Tidy env n s)
    (hfound : c ∈ findCollectionIds e s) : IsCollection s c e := by
  obtain ⟨e', hcollection⟩ := h c _ ((mem_findCollectionIds htidy.plain).mp hfound).1
  rw [hcollection.only.unique htidy hfound]
  exact hcollection

end Unique

/-! ## Stores that differ in memberships only -/

section Memberships

variable {s t : Store} {c : Term} {e : CollectionMetadata}

theorem found_congr (hs : s.Plain) (ht : t.Plain)
    (hsame : ∀ a p x, p ≠ ODRL.partOf → (t.Linked a p x ↔ s.Linked a p x)) :
    c ∈ findCollectionIds e t ↔ c ∈ findCollectionIds e s := by
  rw [mem_findCollectionIds ht, mem_findCollectionIds hs]
  unfold Related
  rw [hsame _ _ _ (by decide), hsame _ ODRL_P.relation _ (by decide)]
  simp only [hsame _ ODRL_P.relation _ (by decide), hsame _ OWL.inverseOf _ (by decide)]

theorem onlyFor_congr
    (hsame : ∀ a p x, p ≠ ODRL.partOf → (t.Linked a p x ↔ s.Linked a p x))
    (h : OnlyFor s c e) : OnlyFor t c e := by
  refine ⟨fun x hx => ?_, fun x hx => ?_⟩
  · exact h.source x ((hsame _ _ _ (by decide)).mp hx)
  · have hstands := h.relation x ((hsame _ _ _ (by decide)).mp hx)
    unfold StandsFor at hstands ⊢
    simp only [hsame _ OWL.inverseOf _ (by decide)]
    exact hstands

theorem isCollection_congr (hs : s.Plain) (ht : t.Plain)
    (hsame : ∀ a p x, p ≠ ODRL.partOf → (t.Linked a p x ↔ s.Linked a p x))
    (h : IsCollection s c e) : IsCollection t c e := by
  refine ⟨h.id, onlyFor_congr hsame h.only, (found_congr hs ht hsame).mpr h.found, ?_, ?_⟩
  · exact (hsame _ _ _ (by decide)).mpr h.typed
  · obtain ⟨owner, hcreator⟩ := h.created
    exact ⟨owner, (hsame _ _ _ (by decide)).mpr hcreator⟩

end Memberships

/-! ## An update of a store with such collections -/

/-- The collections an update creates are not mixed up with others. -/
structure CreatesApart (s : Store) (entries : ChangedEntries) : Prop where
  only : ∀ k e, entries.Creates s k e → OnlyFor s (collectionId e) e
  distinct : ∀ k e k' e', entries.Creates s k e → entries.Creates s k' e' →
    collectionId e = collectionId e' → e = e'

section Update

variable {env : RegistrationEnvironment} {n : Nat} {s : Store} {id owner : String}
  {entries : ChangedEntries} {change : QuadChange} {c : Term} {e : CollectionMetadata}

theorem tidy_update (hchange : Change env n s id owner entries change)
    (hfresh : FreshBlankNodes env) (htidy : Tidy env n s) :
    Tidy env (n + 1) (updatePolicies change s) := by
  refine ⟨hchange.plain htidy.plain, hchange.aged htidy.plain htidy.aged, ?_⟩
  intro a x hlinked
  rcases (hchange.linked_inverseOf htidy.plain hfresh htidy.aged).mp hlinked with
    hold | ⟨k, e, -, -, ha, -⟩
  · exact htidy.inverses a x hold
  · exact ⟨_, ha⟩

/-- What stood for the relation before still does. -/
theorem standsFor_update (hchange : Change env n s id owner entries change)
    (hfresh : FreshBlankNodes env) (htidy : Tidy env n s) {a p x : Term}
    (hlinked : s.Linked a p x) (h : StandsFor s x e) :
    StandsFor (updatePolicies change s) x e := by
  unfold StandsFor at h ⊢
  by_cases hreverse : e.reverse = true
  · rw [if_pos hreverse] at h ⊢
    refine ⟨h.1, fun y hy => ?_⟩
    rcases (hchange.linked_inverseOf htidy.plain hfresh htidy.aged).mp hy with
      hold | ⟨k, e', -, -, hx, -⟩
    · exact h.2 y hold
    · exact absurd hx (htidy.aged.ne_blank hfresh hlinked k).2
  · rw [if_neg hreverse] at h ⊢
    exact h

/-- What the relation of a new collection leads to stands for the relation. -/
theorem standsFor_created (hchange : Change env n s id owner entries change)
    (hfresh : FreshBlankNodes env) (htidy : Tidy env n s) {k : Nat}
    (hcreates : entries.Creates s k e) :
    StandsFor (updatePolicies change s) (relationObject e (blank env n k)) e := by
  unfold StandsFor relationObject
  by_cases hreverse : e.reverse = true
  · simp only [hreverse, if_true]
    refine ⟨⟨_, rfl⟩, fun y hy => ?_⟩
    rcases (hchange.linked_inverseOf htidy.plain hfresh htidy.aged).mp hy with
      hold | ⟨k', e', hcreates', -, hx, hy⟩
    · exact absurd rfl (htidy.aged.ne_blank hfresh hold k).1
    · have hk : k = k' := blank_inj hfresh hx
      have hsame : entries.added[k]? = some e' := hk ▸ hcreates'.1
      rw [hcreates.1] at hsame
      injection hsame with he
      rw [he]
      exact hy
  · simp [hreverse]

/-- A collection stays the one of its entry, if no other is created under its
identifier. -/
theorem onlyFor_update (hchange : Change env n s id owner entries change)
    (hfresh : FreshBlankNodes env) (htidy : Tidy env n s) (h : OnlyFor s c e)
    (hcreated : ∀ k e', entries.Creates s k e' → collectionId e' = c → e' = e) :
    OnlyFor (updatePolicies change s) c e := by
  refine ⟨fun x hx => ?_, fun x hx => ?_⟩
  · rcases ((hchange.linked_source htidy.plain).mp hx).1 with hold | ⟨k, e', hcreates, hc, hx⟩
    · exact h.source x hold
    · rw [← hcreated k e' hcreates hc.symm]
      exact hx
  · rcases ((hchange.linked_relation htidy.plain hfresh htidy.aged).mp hx).1 with
      hold | ⟨k, e', hcreates, hc, hx⟩
    · exact standsFor_update hchange hfresh htidy hold (h.relation x hold)
    · have he : e' = e := hcreated k e' hcreates hc.symm
      subst he
      rw [hx]
      exact standsFor_created hchange hfresh htidy hcreates

/-- A collection whose default is not dropped stays. -/
theorem isCollection_update (hchange : Change env n s id owner entries change)
    (hfresh : FreshBlankNodes env) (htidy : Tidy env n s)
    (hcreates : CreatesApart s entries) (h : IsCollection s c e) (hkept : e ∉ entries.dropped) :
    IsCollection (updatePolicies change s) c e := by
  have hnot : ∀ e' ∈ entries.dropped, c ∉ findCollectionIds e' s := by
    intro e' he' hfound
    rw [h.only.unique htidy hfound] at he'
    exact hkept he'
  obtain ⟨hsource, hrelated⟩ := (mem_findCollectionIds htidy.plain).mp h.found
  refine ⟨h.id, ?_, ?_, ?_, ?_⟩
  · refine onlyFor_update hchange hfresh htidy h.only (fun k e' hcreated hid => ?_)
    have honly := hcreates.only k e' hcreated
    rw [hid] at honly
    exact (honly.unique htidy h.found).symm
  · refine (mem_findCollectionIds (hchange.plain htidy.plain)).mpr ⟨?_, ?_⟩
    · refine (hchange.linked_source htidy.plain).mpr ⟨Or.inl hsource, ?_⟩
      rintro ⟨e', he', hfound, -⟩
      exact hnot e' he' hfound
    · have hkeeps : ∀ x, s.Linked c ODRL_P.relation x →
          (updatePolicies change s).Linked c ODRL_P.relation x := by
        intro x hx
        refine (hchange.linked_relation htidy.plain hfresh htidy.aged).mpr ⟨Or.inl hx, ?_⟩
        rintro ⟨e', he', hfound, -⟩
        exact hnot e' he' hfound
      unfold Related at hrelated ⊢
      by_cases hreverse : e.reverse = true
      · rw [if_pos hreverse] at hrelated ⊢
        obtain ⟨b, hb, hinverse⟩ := hrelated
        exact ⟨b, hkeeps b hb,
          (hchange.linked_inverseOf htidy.plain hfresh htidy.aged).mpr (Or.inl hinverse)⟩
      · rw [if_neg hreverse] at hrelated ⊢
        exact hkeeps _ hrelated
  · refine (hchange.linked_type htidy.plain).mpr ⟨Or.inl h.typed, ?_⟩
    rintro ⟨e', he', hfound, -⟩
    exact hnot e' he' hfound
  · obtain ⟨creator, hcreator⟩ := h.created
    refine ⟨creator, (hchange.linked_creator htidy.plain).mpr ⟨Or.inl hcreator, ?_⟩⟩
    rintro ⟨e', he', hfound, -⟩
    exact hnot e' he' hfound

/-- Nothing is described under the identifier of a collection that is new. -/
theorem unsourced_of_creates (htidy : Tidy env n s) (hdedicated : DedicatedCollections s)
    (hcreates : CreatesApart s entries) {k : Nat} (hcreated : entries.Creates s k e) (x : Term) :
    ¬ s.Linked (collectionId e) ODRL.source x := by
  intro hsource
  obtain ⟨e', hcollection⟩ := hdedicated _ x hsource
  have he : e' = e := (hcreates.only k e hcreated).unique htidy hcollection.found
  rw [← he] at hcreated
  have hfound := hcollection.found
  rw [hcreated.2] at hfound
  exact absurd hfound List.not_mem_nil

theorem isCollection_created (hchange : Change env n s id owner entries change)
    (hfresh : FreshBlankNodes env) (htidy : Tidy env n s)
    (hdedicated : DedicatedCollections s) (hcreates : CreatesApart s entries) {k : Nat}
    (hcreated : entries.Creates s k e) :
    IsCollection (updatePolicies change s) (collectionId e) e := by
  have hnot : ∀ e' ∈ entries.dropped, collectionId e ∉ findCollectionIds e' s := by
    intro e' he' hfound
    exact unsourced_of_creates htidy hdedicated hcreates hcreated _
      ((mem_findCollectionIds htidy.plain).mp hfound).1
  have hrelation : (updatePolicies change s).Linked (collectionId e) ODRL_P.relation
      (relationObject e (blank env n k)) := by
    refine (hchange.linked_relation htidy.plain hfresh htidy.aged).mpr
      ⟨Or.inr ⟨k, e, hcreated, rfl, rfl⟩, ?_⟩
    rintro ⟨e', he', hfound, -⟩
    exact hnot e' he' hfound
  refine ⟨rfl, ?_, ?_, ?_, .namedNode owner, ?_⟩
  · exact onlyFor_update hchange hfresh htidy (hcreates.only k e hcreated)
      (fun k' e' hcreated' hid => hcreates.distinct k' e' k e hcreated' hcreated hid)
  · refine (mem_findCollectionIds (hchange.plain htidy.plain)).mpr ⟨?_, ?_⟩
    · refine (hchange.linked_source htidy.plain).mpr ⟨Or.inr ⟨k, e, hcreated, rfl, rfl⟩, ?_⟩
      rintro ⟨e', he', hfound, -⟩
      exact hnot e' he' hfound
    · unfold Related
      unfold relationObject at hrelation
      by_cases hreverse : e.reverse = true
      · rw [if_pos hreverse] at hrelation ⊢
        exact ⟨_, hrelation, (hchange.linked_inverseOf htidy.plain hfresh htidy.aged).mpr
          (Or.inr ⟨k, e, hcreated, hreverse, rfl, rfl⟩)⟩
      · rw [if_neg hreverse] at hrelation ⊢
        exact hrelation
  · refine (hchange.linked_type htidy.plain).mpr ⟨Or.inr ⟨k, e, hcreated, rfl, rfl⟩, ?_⟩
    rintro ⟨e', he', hfound, -⟩
    exact hnot e' he' hfound
  · refine (hchange.linked_creator htidy.plain).mpr ⟨Or.inr ⟨k, e, hcreated, rfl, rfl⟩, ?_⟩
    rintro ⟨e', he', hfound, -⟩
    exact hnot e' he' hfound

/-- What has a source after an update is an old collection whose default stays,
or a new one. -/
theorem isCollection_of_source (hchange : Change env n s id owner entries change)
    (htidy : Tidy env n s) (hdedicated : DedicatedCollections s) {x : Term}
    (hsource : (updatePolicies change s).Linked c ODRL.source x) :
    (∃ e, IsCollection s c e ∧ e ∉ entries.dropped) ∨
      ∃ k e, entries.Creates s k e ∧ c = collectionId e := by
  obtain ⟨hadded, hkept⟩ := (hchange.linked_source htidy.plain).mp hsource
  rcases hadded with hold | ⟨k, e, hcreated, hc, -⟩
  · obtain ⟨e, hcollection⟩ := hdedicated c x hold
    refine Or.inl ⟨e, hcollection, fun hdropped => hkept ⟨e, hdropped, hcollection.found, ?_⟩⟩
    exact hcollection.only.source x hold
  · exact Or.inr ⟨k, e, hcreated, hc⟩

theorem dedicated_update (hchange : Change env n s id owner entries change)
    (hfresh : FreshBlankNodes env) (htidy : Tidy env n s)
    (hdedicated : DedicatedCollections s) (hcreates : CreatesApart s entries) :
    DedicatedCollections (updatePolicies change s) := by
  intro c x hsource
  rcases isCollection_of_source hchange htidy hdedicated hsource with
    ⟨e, hcollection, hkept⟩ | ⟨k, e, hcreated, rfl⟩
  · exact ⟨e, isCollection_update hchange hfresh htidy hcreates hcollection hkept⟩
  · exact ⟨e, isCollection_created hchange hfresh htidy hdedicated hcreates hcreated⟩

/-- The collections found after an update. -/
theorem found_update_iff (hchange : Change env n s id owner entries change)
    (hfresh : FreshBlankNodes env) (htidy : Tidy env n s)
    (hdedicated : DedicatedCollections s) (hcreates : CreatesApart s entries) :
    c ∈ findCollectionIds e (updatePolicies change s) ↔
      (c ∈ findCollectionIds e s ∧ e ∉ entries.dropped) ∨
        ∃ k, entries.Creates s k e ∧ c = collectionId e := by
  have htidy' := tidy_update hchange hfresh htidy
  constructor
  · intro hfound
    have hsource := ((mem_findCollectionIds htidy'.plain).mp hfound).1
    rcases isCollection_of_source hchange htidy hdedicated hsource with
      ⟨e', hcollection, hkept⟩ | ⟨k, e', hcreated, rfl⟩
    · have hnew := isCollection_update hchange hfresh htidy hcreates hcollection hkept
      rw [hnew.only.unique htidy' hfound]
      exact Or.inl ⟨hcollection.found, hkept⟩
    · have hnew := isCollection_created hchange hfresh htidy hdedicated hcreates hcreated
      rw [hnew.only.unique htidy' hfound]
      exact Or.inr ⟨k, hcreated, rfl⟩
  · rintro (⟨hfound, hkept⟩ | ⟨k, hcreated, rfl⟩)
    · exact (isCollection_update hchange hfresh htidy hcreates
        (hdedicated.of_found htidy hfound) hkept).found
    · exact (isCollection_created hchange hfresh htidy hdedicated hcreates hcreated).found

end Update

end ResourceRegistrationRequestHandler

end UserManagedAccess.Routes
