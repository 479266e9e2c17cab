/-
UserManagedAccess.Routes.RelationDifferences — when the relations to add and to
remove are those in which two descriptions differ.

The differences are taken by key, and a key is the source and the relation
joined by a `-`, which both may contain.

* `getRelationKey_eq_iff` — which metadata entries have one key;
* `differenceExact_iff` — the difference of two lists that are keyed;
* `differencesExact_iff` — the differences of two descriptions: they are exact
  where triples with one key are in both descriptions anyway.
-/
import UserManagedAccess.Lib.Separated
import UserManagedAccess.Routes.RelationSoundness

namespace UserManagedAccess.Routes

open UserManagedAccess.Lib UserManagedAccess.Util UserManagedAccess.Views

namespace ResourceRegistrationRequestHandler

/-! ## Keys that are shared -/

/-- The source and the relation of one are joined to the same text as those of
the other, which is split at a later `-`. -/
def KeyClash (e e' : CollectionMetadata) : Prop :=
  e.reverse = e'.reverse ∧
    (SplitsLater "-" (e.source, e.relation) (e'.source, e'.relation) ∨
      SplitsLater "-" (e'.source, e'.relation) (e.source, e.relation))

theorem getRelationKey_eq_iff {e e' : CollectionMetadata} :
    getRelationKey e = getRelationKey e' ↔ e = e' ∨ KeyClash e e' := by
  have hkey : getRelationKey e = getRelationKey e' ↔
      e.source ++ "-" ++ e.relation = e'.source ++ "-" ++ e'.relation ∧
        e.reverse = e'.reverse := flagged_inj
  have heq : e = e' ↔ (e.source = e'.source ∧ e.relation = e'.relation) ∧
      e.reverse = e'.reverse := by
    cases e
    cases e'
    simp only [CollectionMetadata.mk.injEq]
    tauto
  rw [hkey, joined_eq_iff (c := '-') rfl, heq, KeyClash]
  tauto

theorem KeyClash.ne {e e' : CollectionMetadata} (h : KeyClash e e') : e ≠ e' := by
  rintro rfl
  rcases h.2 with hlater | hlater
  · exact SplitsLater.ne (c := '-') rfl hlater rfl
  · exact SplitsLater.ne (c := '-') rfl hlater rfl

/-! ## Differences of keyed lists -/

section

variable {record previous : Dict CollectionMetadata} {entries old : List CollectionMetadata}

/-- What stays is the entry a record has under its key, if no old one has it. -/
theorem mem_filtered_iff (h : Represents record entries) (hnodup : record.keys.Nodup)
    (h' : Represents previous old) {e : CollectionMetadata} :
    e ∈ (record.filter fun entry => (previous.get entry.1).isNone).map Prod.snd ↔
      record.get (getRelationKey e) = some e ∧
        ∀ e' ∈ old, getRelationKey e' ≠ getRelationKey e := by
  rw [List.mem_map]
  constructor
  · rintro ⟨⟨key, e'⟩, hmem, rfl⟩
    obtain ⟨hentry, hfree⟩ := List.mem_filter.mp hmem
    have hkey := (h.sound key e' hentry).1
    subst hkey
    exact ⟨Dict.get_of_mem hnodup hentry, h'.get_isNone_iff.mp hfree⟩
  · rintro ⟨hget, hfree⟩
    exact ⟨(getRelationKey e, e),
      List.mem_filter.mpr ⟨Dict.mem_of_get hget, h'.get_isNone_iff.mpr hfree⟩, rfl⟩

/-- One side of the difference is exact where no entry of that side alone has
the key of another. -/
theorem differenceExact_iff (h : Represents record entries) (hnodup : record.keys.Nodup)
    (h' : Represents previous old) :
    (∀ e, e ∈ (record.filter fun entry => (previous.get entry.1).isNone).map Prod.snd ↔
        e ∈ entries ∧ e ∉ old) ↔
      ∀ e ∈ entries, e ∉ old → ∀ e', e' ∈ entries ∨ e' ∈ old →
        getRelationKey e' = getRelationKey e → e' = e := by
  simp only [mem_filtered_iff h hnodup h']
  constructor
  · intro hexact e he hnew e' he' hkey
    obtain ⟨hget, hfree⟩ := (hexact e).mpr ⟨he, hnew⟩
    have hnot : e' ∉ old := fun hold => hfree e' hold hkey
    obtain ⟨hget', -⟩ := (hexact e').mpr ⟨he'.resolve_right hnot, hnot⟩
    rw [hkey, hget] at hget'
    exact (Option.some_inj.mp hget').symm
  · intro halone e
    constructor
    · rintro ⟨hget, hfree⟩
      obtain ⟨-, he⟩ := h.sound _ e (Dict.mem_of_get hget)
      exact ⟨he, fun hold => hfree e hold rfl⟩
    · rintro ⟨he, hnew⟩
      obtain ⟨e', hget⟩ := h.complete e he
      obtain ⟨hkey, he'⟩ := h.sound _ e' (Dict.mem_of_get hget)
      have hsame : e' = e := halone e he hnew e' (Or.inl he') hkey.symm
      subst hsame
      exact ⟨hget, fun other hold hother =>
        hnew (halone e' he hnew other (Or.inr hold) hother ▸ hold)⟩

end

/-! ## Triples of a description -/

/-- The metadata of one relation and one of its values. -/
def OccursIn (env : RegistrationEnvironment) (entries : List (String × Json)) (reverse : Bool)
    (id : Option String) (e : CollectionMetadata) : Prop :=
  ∃ value, (e.relation, value) ∈ entries ∧ e.source ∈ sourcesOf env id value ∧
    e.reverse = reverse

/-- The triple is of the normal or of the `@reverse` block of the field. -/
def Occurs (env : RegistrationEnvironment) (field : MetadataField)
    (description : Option ResourceDescription) (id : String) (e : CollectionMetadata) : Prop :=
  ∃ block, description.bind field.of = some block ∧
    (OccursIn env (normalEntries block) (decide (field = .resource_relations))
        (sourceOf field id) e ∨
      OccursIn env (reverseEntries block) (decide (field = .resource_defaults))
        (sourceOf field id) e)

/-- Every value of the field can be gone over, where its elements are the
sources. -/
def ReadableField (field : MetadataField) (description : Option ResourceDescription)
    (id : String) : Prop :=
  ∀ block, description.bind field.of = some block →
    ∀ entry ∈ normalEntries block ++ reverseEntries block,
      hasNoValues entry.2 = true ∨ (sourceOf field id).isSome ∨ isIterable entry.2 = true

section

variable {env : RegistrationEnvironment} {field : MetadataField}
  {description : Option ResourceDescription} {id : String}

theorem getCollectionMetadata_exists_iff :
    (∃ record, getCollectionMetadata env field description id = .ok record) ↔
      ReadableField field description id := by
  cases description with
  | none => exact iff_of_true ⟨_, rfl⟩ fun _ h => by cases h
  | some description =>
    unfold ReadableField
    rw [Option.bind_some]
    cases hblock : field.of description with
    | none => exact iff_of_true ⟨_, getCollectionMetadata_none hblock id⟩ fun _ h => by cases h
    | some block =>
      simp only [getCollectionMetadata_ok_iff hblock, Option.some_inj, forall_eq']
      exact ⟨fun h => h.choose_spec.1, fun h => ⟨_, h, rfl⟩⟩

theorem nodup_getCollectionMetadata {record : Dict CollectionMetadata}
    (h : getCollectionMetadata env field description id = .ok record) : record.keys.Nodup := by
  cases description with
  | none =>
    cases h
    exact List.nodup_nil
  | some description =>
    cases hblock : field.of description with
    | none =>
      rw [getCollectionMetadata_none hblock] at h
      cases h
      exact List.nodup_nil
    | some block =>
      rw [((getCollectionMetadata_ok_iff hblock).mp h).2]
      exact Dict.nodup_keys_foldl_set _ Prod.fst Prod.snd (nodup_keyed _)

theorem mem_metadata_iff (h : ReadableField field description id) {e : CollectionMetadata} :
    e ∈ metadata env field description id ↔ Occurs env field description id e := by
  unfold metadata metadataList Occurs
  cases hblock : description.bind field.of with
  | none => simp
  | some block =>
    obtain ⟨hnormal, hreverse⟩ := List.forall_mem_append.mp (h block hblock)
    have hsource : (if field = .resource_defaults then some id else none) = sourceOf field id :=
      rfl
    simp only [hsource, entriesMetadata_ok_iff.mpr ⟨hnormal, rfl⟩,
      entriesMetadata_ok_iff.mpr ⟨hreverse, rfl⟩, Option.some_inj, exists_eq_left']
    exact List.mem_append.trans (or_congr mem_offeredBy mem_offeredBy)

end

/-! ## Differences of two descriptions -/

/-- Both descriptions are read, and the entries to add and to remove are the
triples of the one and not of the other. -/
def DifferencesExact (env : RegistrationEnvironment) (field : MetadataField)
    (description previous : Option ResourceDescription) (id : String) : Prop :=
  ∃ add remove, getCollectionMetadata env field description id = .ok add ∧
    getCollectionMetadata env field previous id = .ok remove ∧
      (∀ e, e ∈ (filterRelationEntries add remove).1.map Prod.snd ↔
        Occurs env field description id e ∧ ¬ Occurs env field previous id e) ∧
      ∀ e, e ∈ (filterRelationEntries add remove).2.map Prod.snd ↔
        Occurs env field previous id e ∧ ¬ Occurs env field description id e

/-- The triple is of one of the descriptions. -/
def OccursInEither (env : RegistrationEnvironment) (field : MetadataField)
    (description previous : Option ResourceDescription) (id : String)
    (e : CollectionMetadata) : Prop :=
  Occurs env field description id e ∨ Occurs env field previous id e

/-- No two triples of the descriptions are made one. -/
def NothingMerged (env : RegistrationEnvironment) (field : MetadataField)
    (description previous : Option ResourceDescription) (id : String) : Prop :=
  ∀ e e', OccursInEither env field description previous id e →
    OccursInEither env field description previous id e' →
      getRelationKey e = getRelationKey e' → e = e'

section

variable {env : RegistrationEnvironment} {field : MetadataField}
  {description previous : Option ResourceDescription} {id : String}

theorem nothingMerged_iff :
    NothingMerged env field description previous id ↔
      ∀ e e', OccursInEither env field description previous id e →
        OccursInEither env field description previous id e' → ¬ KeyClash e e' := by
  refine forall₄_congr fun e e' _ _ => ?_
  rw [getRelationKey_eq_iff]
  exact ⟨fun h hclash => hclash.ne (h (Or.inr hclash)),
    fun h hkey => hkey.resolve_right h⟩

theorem exact_iff_shared :
    DifferencesExact env field description previous id ↔
      ReadableField field description id ∧ ReadableField field previous id ∧
        ∀ e e', OccursInEither env field description previous id e →
          OccursInEither env field description previous id e' → KeyClash e e' →
            Occurs env field description id e ∧ Occurs env field previous id e := by
  constructor
  · rintro ⟨add, remove, hadd, hremove, hadded, hremoved⟩
    have hread := getCollectionMetadata_exists_iff.mp ⟨add, hadd⟩
    have hread' := getCollectionMetadata_exists_iff.mp ⟨remove, hremove⟩
    simp only [← mem_metadata_iff hread, ← mem_metadata_iff hread'] at hadded hremoved
    have hrecord := getCollectionMetadata_ok hadd
    have hrecord' := getCollectionMetadata_ok hremove
    have halone := (differenceExact_iff hrecord (nodup_getCollectionMetadata hadd) hrecord').mp
      hadded
    have halone' := (differenceExact_iff hrecord' (nodup_getCollectionMetadata hremove)
      hrecord).mp hremoved
    refine ⟨hread, hread', fun e e' he he' hclash => ?_⟩
    have hkey := (getRelationKey_eq_iff.mpr (Or.inr hclash)).symm
    unfold OccursInEither at he he'
    rw [← mem_metadata_iff hread, ← mem_metadata_iff hread'] at he he' ⊢
    by_contra hboth
    rcases he with he | he
    · exact hclash.ne (halone e he (fun hold => hboth ⟨he, hold⟩) e' he' hkey).symm
    · exact hclash.ne (halone' e he (fun hnew => hboth ⟨hnew, he⟩) e' he'.symm hkey).symm
  · rintro ⟨hread, hread', hshared⟩
    obtain ⟨add, hadd⟩ := getCollectionMetadata_exists_iff.mpr hread
    obtain ⟨remove, hremove⟩ := getCollectionMetadata_exists_iff.mpr hread'
    have hrecord := getCollectionMetadata_ok hadd
    have hrecord' := getCollectionMetadata_ok hremove
    unfold OccursInEither at hshared
    simp only [← mem_metadata_iff hread, ← mem_metadata_iff hread'] at hshared
    have hsame : ∀ e e', (e ∈ metadata env field description id ∨
        e ∈ metadata env field previous id) → (e' ∈ metadata env field description id ∨
        e' ∈ metadata env field previous id) → ¬ (e ∈ metadata env field description id ∧
        e ∈ metadata env field previous id) → getRelationKey e' = getRelationKey e → e' = e := by
      intro e e' he he' hnotBoth hkey
      rcases getRelationKey_eq_iff.mp hkey.symm with heq | hclash
      · exact heq.symm
      · exact absurd (hshared e e' he he' hclash) hnotBoth
    refine ⟨add, remove, hadd, hremove, ?_, ?_⟩
    · simp only [← mem_metadata_iff hread, ← mem_metadata_iff hread']
      exact (differenceExact_iff hrecord (nodup_getCollectionMetadata hadd) hrecord').mpr
        fun e he hnew e' he' hkey =>
          hsame e e' (Or.inl he) he' (fun hboth => hnew hboth.2) hkey
    · simp only [← mem_metadata_iff hread, ← mem_metadata_iff hread']
      exact (differenceExact_iff hrecord' (nodup_getCollectionMetadata hremove) hrecord).mpr
        fun e he hold e' he' hkey =>
          hsame e e' (Or.inr he) he'.symm (fun hboth => hold hboth.1) hkey

end

/-- The differences are exact, and no two triples are made one, exactly where both
descriptions can be read and no two of their triples clash. For the differences
alone the triples that clash may also be in both descriptions. -/
theorem differencesExact_iff (env : RegistrationEnvironment) (field : MetadataField)
    (description previous : Option ResourceDescription) (id : String) :
    (DifferencesExact env field description previous id ∧
        NothingMerged env field description previous id ↔
      ReadableField field description id ∧ ReadableField field previous id ∧
        ∀ e e', OccursInEither env field description previous id e →
          OccursInEither env field description previous id e' → ¬ KeyClash e e') ∧
    (DifferencesExact env field description previous id ↔
      ReadableField field description id ∧ ReadableField field previous id ∧
        ∀ e e', OccursInEither env field description previous id e →
          OccursInEither env field description previous id e' → KeyClash e e' →
            Occurs env field description id e ∧ Occurs env field previous id e) := by
  refine ⟨?_, exact_iff_shared⟩
  rw [nothingMerged_iff, exact_iff_shared]
  constructor
  · rintro ⟨⟨hread, hread', -⟩, hmerged⟩
    exact ⟨hread, hread', hmerged⟩
  · rintro ⟨hread, hread', hfree⟩
    exact ⟨⟨hread, hread', fun e e' he he' hclash => absurd hclash (hfree e e' he he')⟩, hfree⟩

/-! ## Two relations that are made one -/

/-- Two relations of which the sources and the IRIs are joined to one text. -/
def clashingBody : Json :=
  .object [("resource_scopes", .array []),
    ("resource_relations", .object [
      ("urn:part", .array [.string "http://example.org/a-urn:of"]),
      ("urn:of-urn:part", .array [.string "http://example.org/a"])])]

def unrelatedBody : Json := .object [("resource_scopes", .array [])]

def lostRelation : CollectionMetadata :=
  { relation := "urn:part", source := "http://example.org/a-urn:of", reverse := true }

theorem relation_lost :
    ResourceDescription.assertion clashingBody = .ok () ∧
      ResourceDescription.assertion unrelatedBody = .ok () ∧
        ¬ DifferencesExact countedBlankNodes .resource_relations
          (some (ResourceDescription.ofJson clashingBody))
          (some (ResourceDescription.ofJson unrelatedBody)) "http://example.org/b" := by
  refine ⟨rfl, rfl, ?_⟩
  rintro ⟨add, remove, hadd, hremove, hadded, -⟩
  have hkept : add = [("http://example.org/a-urn:of-urn:part-true",
      { relation := "urn:of-urn:part", source := "http://example.org/a", reverse := true })] :=
    (Except.ok.inj hadd).symm
  have hnone : remove = [] := (Except.ok.inj hremove).symm
  subst hkept hnone
  have hlost := (hadded lostRelation).mpr ⟨?_, ?_⟩
  · revert hlost
    decide
  · exact ⟨_, rfl, Or.inl ⟨_, List.mem_cons_self, List.mem_cons_self, rfl⟩⟩
  · rintro ⟨block, hblock, -⟩
    cases hblock

end ResourceRegistrationRequestHandler

end UserManagedAccess.Routes
