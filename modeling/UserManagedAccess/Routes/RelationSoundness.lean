/-
UserManagedAccess.Routes.RelationSoundness — what the validator of resource
descriptions promises to the extraction of relations.

A block of relations is accepted when its `@reverse` is a record of string arrays,
whatever stands next to it, or when it is such a record itself, `@reverse` taken for
one more relation. The extraction reads both of these as a record of string arrays
with another one under `@reverse`.

* `offered` — the metadata the values of a block give, before two with one key are
  made one;
* `extractionSound_iff` — when the extraction does not throw, and yields metadata of
  the block only.
-/
import Mathlib.Data.List.Induction
import UserManagedAccess.Routes.RegistrationRuns
import UserManagedAccess.Routes.RelationMetadata

namespace UserManagedAccess.Routes

open UserManagedAccess.Lib UserManagedAccess.Util UserManagedAccess.Views

namespace ResourceRegistrationRequestHandler

/-! ## Soundness -/

/-- The relation is a key of the block, and the source is the resource or a string of
the array under that key. -/
def SourcedIn (block : Json) (id : String) (entry : CollectionMetadata) : Prop :=
  ∃ value, (entry.relation, value) ∈ normalEntries block ++ reverseEntries block ∧
    (entry.source = id ∨ ∃ elements, value = .array elements ∧ .string entry.source ∈ elements)

/-- Nothing is thrown, and every metadata entry is of the block of its field. -/
def ExtractionSound (env : RegistrationEnvironment) (description : ResourceDescription)
    (id : String) : Prop :=
  ∀ field, ∃ record, getCollectionMetadata env field (some description) id = .ok record ∧
    ∀ key entry, (key, entry) ∈ record →
      ∃ block, field.of description = some block ∧ SourcedIn block id entry

/-! ## What the values of a block give -/

/-- A `for` loop can go over the value. -/
def isIterable : Json → Bool
  | .array _ => true
  | .string _ => true
  | _ => false

/-- The sources a value gives. -/
def sourcesOf (env : RegistrationEnvironment) (id : Option String) (value : Json) :
    List String :=
  if hasNoValues value then []
  else match id with
    | some id => [id]
    | none =>
      match iterate env value with
      | .ok sources => sources
      | .error _ => []

/-- The metadata of the entries, in order. -/
def offeredBy (env : RegistrationEnvironment) (entries : List (String × Json)) (reverse : Bool)
    (id : Option String) : List CollectionMetadata :=
  (entries.map fun entry => (sourcesOf env id entry.2).map fun source =>
    { relation := entry.1, source, reverse : CollectionMetadata }).flatten

/-- The metadata of a block of `resource_relations`, in order. -/
def offered (env : RegistrationEnvironment) (block : Json) : List CollectionMetadata :=
  offeredBy env (normalEntries block) true none ++ offeredBy env (reverseEntries block) false none

/-- A block of `resource_relations` can be read: no value but those of `@reverse` stops
the loop, and what is not of the block is replaced by something that is. -/
structure Readable (env : RegistrationEnvironment) (block : Json) (id : String) : Prop where
  iterable : ∀ entry ∈ normalEntries block,
    hasNoValues entry.2 = true ∨ isIterable entry.2 = true
  sourced : ∀ before entry after, offered env block = before ++ entry :: after →
    SourcedIn block id entry ∨ ∃ later ∈ after, getRelationKey later = getRelationKey entry

/-! ## Reading entries -/

variable {env : RegistrationEnvironment} {reverse : Bool} {id : Option String}

theorem iterate_ok {value : Json} :
    (∃ sources, iterate env value = .ok sources) ↔ isIterable value = true := by
  cases value <;> simp [iterate, isIterable]

theorem relationMetadata_ok {entry : String × Json}
    (h : hasNoValues entry.2 = true ∨ id.isSome ∨ isIterable entry.2 = true) :
    relationMetadata env reverse id entry =
      .ok ((sourcesOf env id entry.2).map fun source =>
        { relation := entry.1, source, reverse }) := by
  unfold relationMetadata sourcesOf
  by_cases hempty : hasNoValues entry.2 = true
  · simp only [hempty, if_true]
    rfl
  · simp only [hempty]
    cases id with
    | some id => rfl
    | none =>
      have hiterable : isIterable entry.2 = true := by simpa [hempty] using h
      obtain ⟨sources, hsources⟩ := iterate_ok.mpr hiterable
      rw [hsources]
      rfl

theorem readable_of_relationMetadata {entry : String × Json} {list : List CollectionMetadata}
    (h : relationMetadata env reverse id entry = .ok list) :
    hasNoValues entry.2 = true ∨ id.isSome ∨ isIterable entry.2 = true := by
  unfold relationMetadata at h
  by_cases hempty : hasNoValues entry.2 = true
  · exact Or.inl hempty
  · simp only [hempty] at h
    cases id with
    | some id => exact Or.inr (Or.inl rfl)
    | none =>
      obtain ⟨sources, hsources, -⟩ := Except.bind_eq_ok.mp h
      exact Or.inr (Or.inr (iterate_ok.mp ⟨sources, hsources⟩))

/-- The entries are read when each of them is. -/
theorem entriesMetadata_ok_iff {entries : List (String × Json)} {list : List CollectionMetadata} :
    entriesMetadata env entries reverse id = .ok list ↔
      (∀ entry ∈ entries, hasNoValues entry.2 = true ∨ id.isSome ∨ isIterable entry.2 = true) ∧
        list = offeredBy env entries reverse id := by
  unfold entriesMetadata offeredBy
  constructor
  · intro h
    obtain ⟨lists, hlists, h⟩ := Except.bind_eq_ok.mp h
    injection h with h
    have hreadable : ∀ entry ∈ entries,
        hasNoValues entry.2 = true ∨ id.isSome ∨ isIterable entry.2 = true := by
      intro entry hentry
      obtain ⟨list, hlist⟩ := exists_mapM_ok.mp ⟨lists, hlists⟩ entry hentry
      exact readable_of_relationMetadata hlist
    refine ⟨hreadable, ?_⟩
    rw [mapM_ok fun entry hentry => relationMetadata_ok (hreadable entry hentry)] at hlists
    injection hlists with hlists
    rw [← h, ← hlists]
  · rintro ⟨hreadable, rfl⟩
    exact Except.bind_eq_ok.mpr
      ⟨_, mapM_ok fun entry hentry => relationMetadata_ok (hreadable entry hentry), rfl⟩

/-! ## What stays in the record -/

theorem get_keyed (list : List CollectionMetadata) (key : String) :
    (keyed list).get key = list.reverse.find? fun entry => getRelationKey entry = key := by
  induction list using List.reverseRecOn with
  | nil => rfl
  | append_singleton list entry ih =>
    have hset : keyed (list ++ [entry]) = (keyed list).set (getRelationKey entry) entry := by
      unfold keyed
      rw [List.foldl_append]
      rfl
    rw [hset, Dict.get_set, List.reverse_append, List.reverse_singleton, List.singleton_append,
      List.find?_cons]
    by_cases hkey : getRelationKey entry = key
    · simp [hkey]
    · simp [hkey, Ne.symm hkey, ih]

theorem nodup_keyed (list : List CollectionMetadata) : (keyed list).keys.Nodup :=
  Dict.nodup_keys_foldl_set list getRelationKey id List.nodup_nil

/-- The last entry of each key is in the record. -/
theorem mem_spread {normal reversed : List CollectionMetadata} {key : String}
    {entry : CollectionMetadata} :
    (key, entry) ∈ (keyed reversed).foldl (fun result entry => result.set entry.1 entry.2)
        (keyed normal) ↔
      getRelationKey entry = key ∧ ∃ before after, normal ++ reversed = before ++ entry :: after ∧
        ∀ later ∈ after, getRelationKey later ≠ key := by
  have hnodup : ((keyed reversed).foldl (fun result entry => result.set entry.1 entry.2)
      (keyed normal)).keys.Nodup :=
    Dict.nodup_keys_foldl_set (keyed reversed) Prod.fst Prod.snd (nodup_keyed normal)
  have hget : (key, entry) ∈ (keyed reversed).foldl
        (fun result entry => result.set entry.1 entry.2) (keyed normal) ↔
      (normal ++ reversed).reverse.find? (fun entry => getRelationKey entry = key) =
        some entry := by
    rw [List.reverse_append, List.find?_append, ← get_keyed, ← get_keyed,
      ← Dict.get_spread _ _ (nodup_keyed reversed)]
    exact ⟨Dict.get_of_mem hnodup, Dict.mem_of_get⟩
  rw [hget, List.find?_eq_some_iff_append]
  simp only [decide_eq_true_eq, Bool.not_eq_true', decide_eq_false_iff_not]
  refine and_congr_right fun _ => ⟨fun ⟨after, before, hlist, hlater⟩ => ?_,
    fun ⟨before, after, hlist, hlater⟩ => ?_⟩
  · refine ⟨before.reverse, after.reverse, ?_, fun later h => hlater later (List.mem_reverse.mp h)⟩
    rw [← List.reverse_inj, hlist]
    simp
  · refine ⟨after.reverse, before.reverse, ?_, fun later h => hlater later (List.mem_reverse.mp h)⟩
    rw [hlist]
    simp

/-! ## The extraction -/

/-- For the defaults the resource is the source. -/
def sourceOf (field : MetadataField) (id : String) : Option String :=
  if field = .resource_defaults then some id else none

theorem getCollectionMetadata_none {field : MetadataField} {description : ResourceDescription}
    (hnone : field.of description = none) (id : String) :
    getCollectionMetadata env field (some description) id = .ok Dict.empty := by
  unfold getCollectionMetadata
  rw [Option.bind_some, hnone]

theorem getCollectionMetadata_ok_iff {field : MetadataField} {description : ResourceDescription}
    {block : Json} (hblock : field.of description = some block) {id : String}
    {record : Dict CollectionMetadata} :
    getCollectionMetadata env field (some description) id = .ok record ↔
      (∀ entry ∈ normalEntries block ++ reverseEntries block,
        hasNoValues entry.2 = true ∨ (sourceOf field id).isSome ∨ isIterable entry.2 = true) ∧
      record = (keyed (offeredBy env (reverseEntries block)
          (decide (field = .resource_defaults)) (sourceOf field id))).foldl
        (fun result entry => result.set entry.1 entry.2)
        (keyed (offeredBy env (normalEntries block)
          (decide (field = .resource_relations)) (sourceOf field id))) := by
  have hsource : (if field = .resource_defaults then some id else none) = sourceOf field id := rfl
  unfold getCollectionMetadata entriesToCollectionMetadata
  rw [Option.bind_some, hblock]
  dsimp only
  simp only [hsource, Except.bind_eq_ok, entriesMetadata_ok_iff, List.forall_mem_append]
  constructor
  · rintro ⟨_, ⟨_, ⟨hnormal, rfl⟩, hkeyed⟩, _, ⟨_, ⟨hreversed, rfl⟩, hkeyed'⟩, hrecord⟩
    cases hkeyed
    cases hkeyed'
    cases hrecord
    exact ⟨⟨hnormal, hreversed⟩, rfl⟩
  · rintro ⟨⟨hnormal, hreversed⟩, rfl⟩
    exact ⟨_, ⟨_, ⟨hnormal, rfl⟩, rfl⟩, _, ⟨_, ⟨hreversed, rfl⟩, rfl⟩, rfl⟩

/-- What is read is good when each entry that is offered is good, or replaced. -/
theorem extraction_iff {field : MetadataField} {description : ResourceDescription} {block : Json}
    (hblock : field.of description = some block) (id : String)
    (good : CollectionMetadata → Prop) :
    (∃ record, getCollectionMetadata env field (some description) id = .ok record ∧
        ∀ key entry, (key, entry) ∈ record → good entry) ↔
      (∀ entry ∈ normalEntries block ++ reverseEntries block,
        hasNoValues entry.2 = true ∨ (sourceOf field id).isSome ∨ isIterable entry.2 = true) ∧
      ∀ before entry after,
        offeredBy env (normalEntries block) (decide (field = .resource_relations))
            (sourceOf field id) ++
          offeredBy env (reverseEntries block) (decide (field = .resource_defaults))
            (sourceOf field id) = before ++ entry :: after →
        good entry ∨ ∃ later ∈ after, getRelationKey later = getRelationKey entry := by
  simp only [getCollectionMetadata_ok_iff hblock]
  constructor
  · rintro ⟨_, ⟨hreadable, rfl⟩, hgood⟩
    refine ⟨hreadable, fun before entry after hlist => ?_⟩
    by_cases hlater : ∃ later ∈ after, getRelationKey later = getRelationKey entry
    · exact Or.inr hlater
    · refine Or.inl (hgood _ entry (mem_spread.mpr ⟨rfl, before, after, hlist, ?_⟩))
      exact fun later hmem heq => hlater ⟨later, hmem, heq⟩
  · rintro ⟨hreadable, hgood⟩
    refine ⟨_, ⟨hreadable, rfl⟩, fun key entry hmem => ?_⟩
    obtain ⟨rfl, before, after, hlist, hlater⟩ := mem_spread.mp hmem
    rcases hgood before entry after hlist with h | ⟨later, hmem, heq⟩
    · exact h
    · exact absurd heq (hlater later hmem)

theorem mem_offeredBy {entries : List (String × Json)} {entry : CollectionMetadata} :
    entry ∈ offeredBy env entries reverse id ↔
      ∃ value, (entry.relation, value) ∈ entries ∧ entry.source ∈ sourcesOf env id value ∧
        entry.reverse = reverse := by
  obtain ⟨relation, source, flag⟩ := entry
  simp only [offeredBy, List.mem_flatten, List.mem_map, exists_exists_and_eq_and,
    CollectionMetadata.mk.injEq]
  constructor
  · rintro ⟨⟨key, value⟩, hentry, _, hsource, rfl, rfl, rfl⟩
    exact ⟨value, hentry, hsource, rfl⟩
  · rintro ⟨value, hentry, hsource, rfl⟩
    exact ⟨(relation, value), hentry, source, hsource, rfl, rfl, rfl⟩

theorem defaults_sound (description : ResourceDescription) (id : String) {block : Json}
    (hblock : MetadataField.resource_defaults.of description = some block) :
    ∃ record, getCollectionMetadata env .resource_defaults (some description) id = .ok record ∧
      ∀ key entry, (key, entry) ∈ record → SourcedIn block id entry := by
  refine (extraction_iff hblock id (SourcedIn block id)).mpr
    ⟨fun _ _ => Or.inr (Or.inl rfl), fun before entry after hlist => Or.inl ?_⟩
  have hmem : entry ∈ before ++ entry :: after := List.mem_append_right _ List.mem_cons_self
  rw [← hlist] at hmem
  have hsource : ∀ value, entry.source ∈ sourcesOf env (some id) value → entry.source = id := by
    intro value h
    unfold sourcesOf at h
    split at h
    · cases h
    · exact List.mem_singleton.mp h
  rcases List.mem_append.mp hmem with h | h
  · obtain ⟨value, hvalue, hin, -⟩ := mem_offeredBy.mp h
    exact ⟨value, List.mem_append_left _ hvalue, Or.inl (hsource value hin)⟩
  · obtain ⟨value, hvalue, hin, -⟩ := mem_offeredBy.mp h
    exact ⟨value, List.mem_append_right _ hvalue, Or.inl (hsource value hin)⟩

/-! ## Accepted blocks -/

theorem accepted_relations {value block : Json}
    (haccepted : ResourceDescription.assertion value = .ok ())
    (hblock : (ResourceDescription.ofJson value).resourceRelations = some block) :
    ReType.fields [("@reverse", ReType.dict (ReType.array ReType.string))] block = .ok () ∨
      ReType.dict (ReType.array ReType.string) block = .ok () := by
  obtain ⟨-, hrest⟩ := ReType.fields_cons_ok haccepted
  obtain ⟨-, hrest⟩ := ReType.fields_cons_ok hrest
  obtain ⟨hrelations, -⟩ := ReType.fields_cons_ok hrest
  have hfield : value.field "resource_relations" = block ∧ block ≠ .undefined := by
    have hoptional : ResourceDescription.optionalField "resource_relations" value = some block :=
      hblock
    unfold ResourceDescription.optionalField at hoptional
    split at hoptional
    · cases hoptional
    · rename_i hpresent
      cases hoptional
      exact ⟨rfl, hpresent⟩
  rw [hfield.1] at hrelations
  obtain ⟨assertion, hassertion, hok⟩ := ReType.union_ok.mp hrelations
  rcases List.mem_cons.mp hassertion with rfl | hassertion
  · obtain ⟨shape, hshape, hok⟩ := ReType.union_ok.mp hok
    rcases List.mem_cons.mp hshape with rfl | hshape
    · exact Or.inl hok
    · rw [List.mem_singleton.mp hshape] at hok
      exact Or.inr hok
  · rw [List.mem_singleton.mp hassertion] at hok
    cases hundefined : block with
    | undefined => exact absurd hundefined hfield.2
    | _ =>
      rw [hundefined] at hok
      cases hok

/-- What stands under `@reverse` is a record of string arrays, or a string array. -/
theorem iterable_reverse {value block : Json}
    (haccepted : ResourceDescription.assertion value = .ok ())
    (hblock : (ResourceDescription.ofJson value).resourceRelations = some block) :
    ∀ entry ∈ reverseEntries block, isIterable entry.2 = true := by
  intro entry hentry
  unfold reverseEntries at hentry
  rcases accepted_relations haccepted hblock with h | h
  · obtain ⟨hreverse, -⟩ := ReType.fields_cons_ok h
    obtain ⟨fs, hfs, harrays⟩ := ReType.dict_array_ok hreverse
    rw [hfs] at hentry
    obtain ⟨es, hes, -⟩ := ReType.array_ok.mp (harrays entry hentry)
    rw [hes]
    rfl
  · obtain ⟨fs, rfl, harrays⟩ := ReType.dict_array_ok h
    cases hreverse : fs.lookup "@reverse" with
    | none =>
      simp [Json.field, hreverse, objectEntries] at hentry
    | some reverse =>
      obtain ⟨es, hes, hstrings⟩ :=
        ReType.array_ok.mp (harrays _ (Dict.mem_of_get hreverse))
      simp only at hes
      subst hes
      simp only [Json.field, hreverse, Option.getD_some, objectEntries, List.mem_map] at hentry
      obtain ⟨⟨e, i⟩, he, rfl⟩ := hentry
      obtain ⟨text, htext⟩ := ReType.string_ok.mp (hstrings e (List.fst_mem_of_mem_zipIdx he))
      simp [htext, isIterable]

/-- The extraction of an accepted description is sound exactly when its relations can
be read. -/
theorem extractionSound_iff (env : RegistrationEnvironment) (value : Json) (id : String)
    (haccepted : ResourceDescription.assertion value = .ok ()) :
    ExtractionSound env (ResourceDescription.ofJson value) id ↔
      ∀ block, (ResourceDescription.ofJson value).resourceRelations = some block →
        Readable env block id := by
  constructor
  · intro h block hblock
    have hfield : MetadataField.resource_relations.of (ResourceDescription.ofJson value) =
        some block := hblock
    obtain ⟨record, hrecord, hgood⟩ := h .resource_relations
    have hsourced : ∀ key entry, (key, entry) ∈ record → SourcedIn block id entry := by
      intro key entry hmem
      obtain ⟨other, hother, hin⟩ := hgood key entry hmem
      rw [hfield] at hother
      cases hother
      exact hin
    obtain ⟨hreadable, hoffered⟩ :=
      (extraction_iff hfield id (SourcedIn block id)).mp ⟨record, hrecord, hsourced⟩
    constructor
    · intro entry hentry
      simpa [sourceOf] using hreadable entry (List.mem_append_left _ hentry)
    · exact hoffered
  · intro h field
    cases hblock : field.of (ResourceDescription.ofJson value) with
    | none =>
      refine ⟨Dict.empty, getCollectionMetadata_none hblock id, fun key entry hmem => ?_⟩
      exact absurd hmem List.not_mem_nil
    | some block =>
      suffices hsound : ∃ record, getCollectionMetadata env field
          (some (ResourceDescription.ofJson value)) id = .ok record ∧
            ∀ key entry, (key, entry) ∈ record → SourcedIn block id entry by
        obtain ⟨record, hrecord, hgood⟩ := hsound
        exact ⟨record, hrecord, fun key entry hmem => ⟨block, rfl, hgood key entry hmem⟩⟩
      cases field with
      | resource_defaults => exact defaults_sound _ id hblock
      | resource_relations =>
        obtain ⟨hiterable, hsourced⟩ := h block hblock
        refine (extraction_iff hblock id _).mpr ⟨fun entry hentry => ?_, hsourced⟩
        rcases List.mem_append.mp hentry with hentry | hentry
        · simpa [sourceOf] using hiterable entry hentry
        · exact Or.inr (Or.inr (iterable_reverse haccepted hblock entry hentry))

/-! ## Sample descriptions -/

/-- A relation to one resource, as the tests have it. -/
theorem contained_sound :
    ExtractionSound countedBlankNodes
      (ResourceDescription.ofJson (containedRequest "POST" "http://example.org/a").request.body)
      "http://example.org/a" := by
  refine (extractionSound_iff countedBlankNodes _ _ rfl).mpr fun block hblock => ?_
  have hblock : block = .object [("@reverse",
      .object [("http://www.w3.org/ns/ldp#contains", .array [.string "http://example.org/"])])] :=
    (Option.some_inj.mp hblock).symm
  subst hblock
  constructor
  · intro entry hentry
    cases hentry
  · intro before entry after hlist
    have hmem : entry ∈ before ++ entry :: after := List.mem_append_right _ List.mem_cons_self
    rw [← hlist] at hmem
    cases List.mem_singleton.mp hmem
    exact Or.inl ⟨.array [.string "http://example.org/"], List.mem_singleton_self _,
      Or.inr ⟨_, rfl, List.mem_singleton_self _⟩⟩

/-- Next to a `@reverse` block anything is accepted, and `true` stops the extraction. -/
theorem unchecked_relation_throws :
    let body := Json.object [("resource_scopes", .array []),
      ("resource_relations", .object [("@reverse", .object []), ("related", .boolean true)])]
    ResourceDescription.assertion body = .ok () ∧
      getCollectionMetadata countedBlankNodes .resource_relations
          (some (ResourceDescription.ofJson body)) "http://example.org/a" =
        .error (.error "value is not iterable") ∧
      ¬ ExtractionSound countedBlankNodes (ResourceDescription.ofJson body)
        "http://example.org/a" := by
  intro body
  have hthrows : getCollectionMetadata countedBlankNodes .resource_relations
      (some (ResourceDescription.ofJson body)) "http://example.org/a" =
        .error (.error "value is not iterable") := rfl
  refine ⟨rfl, hthrows, fun h => ?_⟩
  obtain ⟨record, hrecord, -⟩ := h .resource_relations
  rw [hthrows] at hrecord
  cases hrecord

end ResourceRegistrationRequestHandler

end UserManagedAccess.Routes
