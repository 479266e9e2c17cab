/-
UserManagedAccess.Routes.RelationMetadata — the collections a description
names, as a list, and what the keyed records of the code say about them.

The code keeps the metadata in records with string keys and compares two
descriptions by key. Keys are put together from IRIs that may contain the
separator, so that two entries can share one. Where no two entries do, the
records are the lists (`mem_added`, `mem_removed`); the entries of one source
never share a key (`getRelationKey_inj`).
-/
import UserManagedAccess.Lib.Except
import UserManagedAccess.Routes.ResourceRegistrationTheorems

namespace UserManagedAccess.Routes

open UserManagedAccess.Lib UserManagedAccess.Rdf UserManagedAccess.Util
open UserManagedAccess.Views UserManagedAccess.Ucp

namespace ResourceRegistrationRequestHandler

/-! ## The metadata of a description, as a list -/

/-- All the metadata of a field, before it is keyed. -/
def metadataList (env : RegistrationEnvironment) (field : MetadataField)
    (description : Option ResourceDescription) (id : String) :
    Except HttpError (List CollectionMetadata) :=
  match description.bind field.of with
  | none => .ok []
  | some value => do
    let sourceId := if field = .resource_defaults then some id else none
    let normal ← entriesMetadata env (normalEntries value)
      (decide (field = .resource_relations)) sourceId
    let reversed ← entriesMetadata env (reverseEntries value)
      (decide (field = .resource_defaults)) sourceId
    return normal ++ reversed

/-- The same, with nothing for a field that cannot be read. -/
def metadata (env : RegistrationEnvironment) (field : MetadataField)
    (description : Option ResourceDescription) (id : String) : List CollectionMetadata :=
  match metadataList env field description id with
  | .ok list => list
  | .error _ => []

/-- The collections a resource is the source of. -/
def defaults (env : RegistrationEnvironment) (description : Option ResourceDescription)
    (id : String) : List CollectionMetadata :=
  metadata env .resource_defaults description id

/-- The collections a resource is part of. -/
def relations (env : RegistrationEnvironment) (description : Option ResourceDescription) :
    List CollectionMetadata :=
  metadata env .resource_relations description ""

/-! ## Keys -/

/-- No two of the entries have the same key. -/
def DistinctKeys (entries : List CollectionMetadata) : Prop :=
  ∀ e ∈ entries, ∀ e' ∈ entries, getRelationKey e = getRelationKey e' → e = e'

/-- What ends in the same flag after a `-` is the same before it. -/
theorem flagged_inj {text text' : String} {b b' : Bool} :
    text ++ "-" ++ (if b then "true" else "false") =
        text' ++ "-" ++ (if b' then "true" else "false") ↔ text = text' ∧ b = b' := by
  have hlast : ∀ {text text' : String}, text ++ "-" ++ "true" ≠ text' ++ "-" ++ "false" := by
    intro text text' heq
    have hreverse := congrArg (fun text => text.toList.reverse) heq
    simp at hreverse
  cases b <;> cases b'
  · simp [String.append_left_inj]
  · simpa using hlast.symm
  · simpa using hlast
  · simp [String.append_left_inj]

theorem getRelationKey_inj {e e' : CollectionMetadata} (hsource : e.source = e'.source)
    (h : getRelationKey e = getRelationKey e') : e = e' := by
  obtain ⟨relation, source, reverse⟩ := e
  obtain ⟨relation', source', reverse'⟩ := e'
  have hsource : source = source' := hsource
  subst hsource
  obtain ⟨hjoined, hreverse⟩ := flagged_inj.mp h
  have hreverse : reverse = reverse' := hreverse
  have hrelation : relation = relation' := (String.append_right_inj _).mp hjoined
  rw [hreverse, hrelation]

/-! ## Keyed records -/

/-- The record has entries of the list only, each under its own key, and one
for every key. -/
structure Represents (record : Dict CollectionMetadata) (entries : List CollectionMetadata) :
    Prop where
  sound : ∀ key e, (key, e) ∈ record → key = getRelationKey e ∧ e ∈ entries
  complete : ∀ e ∈ entries, ∃ e', record.get (getRelationKey e) = some e'

namespace Represents

variable {record other : Dict CollectionMetadata} {entries more : List CollectionMetadata}

theorem empty : Represents Dict.empty [] :=
  ⟨fun _ _ h => absurd h List.not_mem_nil, fun _ h => absurd h List.not_mem_nil⟩

theorem set (h : Represents record entries) (e : CollectionMetadata) :
    Represents (record.set (getRelationKey e) e) (entries ++ [e]) where
  sound := by
    intro key e' hmem
    rcases Dict.mem_set hmem with heq | hold
    · injection heq with hkey he
      subst hkey he
      exact ⟨rfl, List.mem_append_right _ List.mem_cons_self⟩
    · obtain ⟨hkey, he'⟩ := h.sound key e' hold
      exact ⟨hkey, List.mem_append_left _ he'⟩
  complete := by
    intro e' he'
    by_cases hkey : getRelationKey e' = getRelationKey e
    · exact ⟨e, by rw [hkey, Dict.get_set_self]⟩
    · rw [Dict.get_set_ne _ _ hkey]
      rcases List.mem_append.mp he' with hold | hnew
      · exact h.complete e' hold
      · exact absurd (congrArg getRelationKey (List.mem_singleton.mp hnew)) hkey

theorem foldl_set (h : Represents record entries) (more : List CollectionMetadata) :
    Represents (more.foldl (fun result e => result.set (getRelationKey e) e) record)
      (entries ++ more) := by
  induction more generalizing record entries with
  | nil =>
    rw [List.append_nil]
    exact h
  | cons e more ih =>
    have hstep := ih (h.set e)
    rw [List.append_assoc, List.singleton_append] at hstep
    exact hstep

theorem keyed (entries : List CollectionMetadata) :
    Represents (ResourceRegistrationRequestHandler.keyed entries) entries :=
  Represents.empty.foldl_set entries

/-- Spreading two records into one. -/
theorem merge (h : Represents record entries) (h' : Represents other more) :
    Represents (other.foldl (fun result entry => result.set entry.1 entry.2) record)
      (entries ++ more) := by
  have hkeys : other.foldl (fun result entry => result.set entry.1 entry.2) record =
      (other.map Prod.snd).foldl (fun result e => result.set (getRelationKey e) e) record := by
    rw [List.foldl_map]
    refine List.foldl_ext _ _ _ (fun result entry hentry => ?_)
    rw [(h'.sound entry.1 entry.2 hentry).1]
  have hmerged := h.foldl_set (other.map Prod.snd)
  rw [← hkeys] at hmerged
  refine ⟨?_, ?_⟩
  · intro key e hmem
    obtain ⟨hkey, he⟩ := hmerged.sound key e hmem
    refine ⟨hkey, ?_⟩
    rcases List.mem_append.mp he with hold | hnew
    · exact List.mem_append_left _ hold
    · obtain ⟨⟨key', e'⟩, hentry, rfl⟩ := List.mem_map.mp hnew
      exact List.mem_append_right _ (h'.sound key' e' hentry).2
  · intro e he
    rcases List.mem_append.mp he with hold | hnew
    · exact hmerged.complete e (List.mem_append_left _ hold)
    · obtain ⟨e', hget⟩ := h'.complete e hnew
      have hmem := Dict.mem_of_get hget
      rw [(h'.sound _ _ hmem).1]
      exact hmerged.complete e' (List.mem_append_right _ (List.mem_map.mpr ⟨_, hmem, rfl⟩))

theorem get_isNone_iff (h : Represents record entries) {key : String} :
    (record.get key).isNone = true ↔ ∀ e ∈ entries, getRelationKey e ≠ key := by
  constructor
  · rintro hnone e he rfl
    obtain ⟨e', hget⟩ := h.complete e he
    simp [hget] at hnone
  · intro hall
    cases hget : record.get key with
    | none => rfl
    | some e =>
      obtain ⟨hkey, he⟩ := h.sound key e (Dict.mem_of_get hget)
      exact absurd hkey.symm (hall e he)

end Represents

/-- The record of a field represents its list. -/
theorem getCollectionMetadata_ok {env : RegistrationEnvironment} {field : MetadataField}
    {description : Option ResourceDescription} {id : String} {record : Dict CollectionMetadata}
    (h : getCollectionMetadata env field description id = .ok record) :
    Represents record (metadata env field description id) := by
  unfold getCollectionMetadata at h
  unfold metadata metadataList
  rcases hfield : description.bind field.of with _ | value
  · rw [hfield] at h
    injection h with h
    rw [← h]
    exact Represents.empty
  · rw [hfield] at h
    simp only [entriesToCollectionMetadata, Except.bind_eq_ok] at h
    obtain ⟨normal, ⟨normalList, hnormal, hkeyed⟩, reversed, ⟨reversedList, hreversed, hkeyed'⟩,
      hrecord⟩ := h
    injection hkeyed with hkeyed
    injection hkeyed' with hkeyed'
    injection hrecord with hrecord
    subst hkeyed hkeyed' hrecord
    simp only [hnormal, hreversed]
    exact (Represents.keyed normalList).merge (Represents.keyed reversedList)

/-! ## What changes between two descriptions -/

section Changes

variable {record previous : Dict CollectionMetadata}
  {entries old : List CollectionMetadata} {e : CollectionMetadata}

theorem mem_filtered (h : Represents record entries) (h' : Represents previous old)
    (hkeys : DistinctKeys (entries ++ old)) :
    e ∈ (record.filter fun entry => (previous.get entry.1).isNone).map Prod.snd ↔
      e ∈ entries ∧ e ∉ old := by
  rw [List.mem_map]
  constructor
  · rintro ⟨⟨key, e'⟩, hmem, rfl⟩
    obtain ⟨hentry, hnone⟩ := List.mem_filter.mp hmem
    obtain ⟨hkey, he'⟩ := h.sound key e' hentry
    exact ⟨he', fun hold => h'.get_isNone_iff.mp hnone e' hold hkey.symm⟩
  · rintro ⟨he, hnew⟩
    obtain ⟨e', hget⟩ := h.complete e he
    have hmem := Dict.mem_of_get hget
    obtain ⟨hkey, he'⟩ := h.sound _ _ hmem
    have heq : e = e' := hkeys e (List.mem_append_left _ he) e' (List.mem_append_left _ he') hkey
    subst heq
    refine ⟨⟨getRelationKey e, e⟩, List.mem_filter.mpr ⟨hmem, ?_⟩, rfl⟩
    refine h'.get_isNone_iff.mpr fun e'' he'' hkey' => hnew ?_
    rw [hkeys e (List.mem_append_left _ he) e'' (List.mem_append_right _ he'') hkey'.symm]
    exact he''

theorem mem_added (h : Represents record entries) (h' : Represents previous old)
    (hkeys : DistinctKeys (entries ++ old)) :
    e ∈ (filterRelationEntries record previous).1.map Prod.snd ↔ e ∈ entries ∧ e ∉ old :=
  mem_filtered h h' hkeys

theorem mem_removed (h : Represents record entries) (h' : Represents previous old)
    (hkeys : DistinctKeys (entries ++ old)) :
    e ∈ (filterRelationEntries record previous).2.map Prod.snd ↔ e ∈ old ∧ e ∉ entries := by
  refine mem_filtered h' h (fun e₁ h₁ e₂ h₂ => hkeys e₁ ?_ e₂ ?_)
  · exact List.mem_append.mpr (List.mem_append.mp h₁).symm
  · exact List.mem_append.mpr (List.mem_append.mp h₂).symm

end Changes

/-! ## The source of the defaults -/

theorem source_of_relationMetadata {env : RegistrationEnvironment} {reverse : Bool} {id : String}
    {entry : String × Json} {list : List CollectionMetadata}
    (h : relationMetadata env reverse (some id) entry = .ok list) : ∀ e ∈ list, e.source = id := by
  unfold relationMetadata at h
  intro e he
  by_cases hempty : hasNoValues entry.2 = true
  · simp only [hempty, if_true] at h
    injection h with h
    rw [← h] at he
    exact absurd he List.not_mem_nil
  · simp only [hempty] at h
    injection h with h
    rw [← h] at he
    obtain ⟨source, hsource, rfl⟩ := List.mem_map.mp he
    exact List.mem_singleton.mp hsource

theorem source_of_entriesMetadata {env : RegistrationEnvironment} {reverse : Bool} {id : String}
    {entries : List (String × Json)} {list : List CollectionMetadata}
    (h : entriesMetadata env entries reverse (some id) = .ok list) :
    ∀ e ∈ list, e.source = id := by
  unfold entriesMetadata at h
  obtain ⟨lists, hlists, h⟩ := Except.bind_eq_ok.mp h
  injection h with h
  intro e he
  rw [← h] at he
  obtain ⟨part, hpart, he⟩ := List.mem_flatten.mp he
  obtain ⟨entry, -, hentry⟩ := mem_of_mapM_ok hlists part hpart
  exact source_of_relationMetadata hentry e he

/-- The resource is the source of its defaults. -/
theorem source_of_defaults {env : RegistrationEnvironment}
    {description : Option ResourceDescription} {id : String} :
    ∀ e ∈ defaults env description id, e.source = id := by
  intro e he
  unfold defaults metadata at he
  rcases hlist : metadataList env .resource_defaults description id with m | list
  · rw [hlist] at he
    exact absurd he List.not_mem_nil
  rw [hlist] at he
  have he : e ∈ list := he
  unfold metadataList at hlist
  rcases hfield : description.bind MetadataField.resource_defaults.of with _ | value
  · rw [hfield] at hlist
    injection hlist with hlist
    rw [← hlist] at he
    exact absurd he List.not_mem_nil
  rw [hfield] at hlist
  obtain ⟨normal, hnormal, hlist⟩ := Except.bind_eq_ok.mp hlist
  obtain ⟨reversed, hreversed, hlist⟩ := Except.bind_eq_ok.mp hlist
  rw [if_pos rfl] at hnormal hreversed
  injection hlist with hlist
  have he : e ∈ normal ++ reversed := hlist ▸ he
  rcases List.mem_append.mp he with he | he
  · exact source_of_entriesMetadata hnormal e he
  · exact source_of_entriesMetadata hreversed e he

theorem distinctKeys_defaults (env : RegistrationEnvironment)
    (description previous : Option ResourceDescription) (id : String) :
    DistinctKeys (defaults env description id ++ defaults env previous id) := by
  have hsource : ∀ e ∈ defaults env description id ++ defaults env previous id, e.source = id := by
    intro e he
    rcases List.mem_append.mp he with he | he
    · exact source_of_defaults e he
    · exact source_of_defaults e he
  intro e he e' he' hkey
  exact getRelationKey_inj ((hsource e he).trans (hsource e' he').symm) hkey

end ResourceRegistrationRequestHandler

end UserManagedAccess.Routes
