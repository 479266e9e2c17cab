/-
UserManagedAccess.Css.AuxiliaryModesExtractor — the modes of an auxiliary
resource are asked of its subject.

`AuxiliaryModesExtractor.handle` goes over the keys of the access map of its
source, and `set`s what stands under an auxiliary key on the subject of that
key. What the subject had before, of its own or of another of its auxiliaries,
is replaced and not extended.

* `values_foldl_redirect` — what a resource requires at the end is what the
  source required on one single resource, its `carrier`;
* `keepsModes_iff` — when that is the union that it should be;
* `keepsModes_iff_last` — the same where no subject is itself redirected.
-/
import UserManagedAccess.Lib.SetMultiMap
import UserManagedAccess.Css.UmaPermissionReader

namespace UserManagedAccess.Css

open UserManagedAccess.Lib

/-- Access modes by the path of a resource. -/
abbrev AccessMap (Mode : Type) := SetMultiMap Mode

structure AuxiliaryStrategy where
  isAuxiliaryIdentifier : String → Bool
  usesOwnAuthorization : String → Bool
  getSubjectIdentifier : String → String

namespace AuxiliaryModesExtractor

variable {Mode : Type}

/-! ## The extractor -/

/-- The condition of the loop. -/
def redirects (strategy : AuxiliaryStrategy) (key : String) : Bool :=
  strategy.isAuxiliaryIdentifier key && !strategy.usesOwnAuthorization key

/-- One key of the loop. Its `get` finds the key: a key is deleted at its own
turn only, and no set that is moved to a subject is empty. -/
def redirect (strategy : AuxiliaryStrategy) (result : AccessMap Mode) (key : String) :
    AccessMap Mode :=
  if redirects strategy key then
    (result.set (strategy.getSubjectIdentifier key) (result.values key)).delete key
  else result

/-- `handle`, given the access map of the source. -/
def handle (strategy : AuxiliaryStrategy) (source : AccessMap Mode) : AccessMap Mode :=
  source.distinctKeys.foldl (redirect strategy) source

/-! ## What redirection is for -/

/-- The keys of the map that are redirected to a resource, in their order. -/
def auxiliariesOf (strategy : AuxiliaryStrategy) (source : AccessMap Mode)
    (resource : String) : List String :=
  source.distinctKeys.filter fun key =>
    redirects strategy key && strategy.getSubjectIdentifier key = resource

/-- A resource requires this mode by itself, or by one of its auxiliaries. -/
def RequiredBySource (strategy : AuxiliaryStrategy) (source : AccessMap Mode)
    (resource : String) (mode : Mode) : Prop :=
  mode ∈ source.values resource ∨
    ∃ aux ∈ auxiliariesOf strategy source resource, mode ∈ source.values aux

/-- Every subject has its modes and those of all its auxiliaries, and what is
neither a subject nor redirected keeps what it had. -/
structure KeepsModes (strategy : AuxiliaryStrategy) (source result : AccessMap Mode) :
    Prop where
  subjects : ∀ resource, auxiliariesOf strategy source resource ≠ [] →
    ∀ mode, mode ∈ result.values resource ↔ RequiredBySource strategy source resource mode
  others : ∀ resource, auxiliariesOf strategy source resource = [] →
    redirects strategy resource = false → result.values resource = source.values resource

/-! ## What the loop does -/

/-- The resource of the source whose modes a resource has after these keys, the
last of them first. -/
def carrier (strategy : AuxiliaryStrategy) : List String → String → Option String
  | [], resource => some resource
  | key :: earlier, resource =>
    if redirects strategy key then
      if resource = key then none
      else if resource = strategy.getSubjectIdentifier key then carrier strategy earlier key
      else carrier strategy earlier resource
    else carrier strategy earlier resource

variable {strategy : AuxiliaryStrategy} {source : AccessMap Mode}

theorem values_redirect (result : AccessMap Mode) (key resource : String) :
    (redirect strategy result key).values resource =
      if redirects strategy key then
        if resource = key then ∅
        else if resource = strategy.getSubjectIdentifier key then result.values key
        else result.values resource
      else result.values resource := by
  unfold redirect
  split
  · rw [SetMultiMap.values_delete, SetMultiMap.values_set]
  · rfl

/-- The induction is on the keys that are done, from the last one back. -/
theorem values_foldl_redirect (keys : List String) (resource : String) :
    (keys.foldl (redirect strategy) source).values resource =
      ((carrier strategy keys.reverse resource).map source.values).getD ∅ := by
  induction keys using List.reverseRecOn generalizing resource with
  | nil => rfl
  | append_singleton keys key ih =>
    rw [List.foldl_append, List.foldl_cons, List.foldl_nil, values_redirect,
      List.reverse_append, List.reverse_cons, List.reverse_nil, List.nil_append,
      List.singleton_append]
    unfold carrier
    split
    · split
      · rfl
      · split
        · exact ih key
        · exact ih resource
    · exact ih resource

theorem values_handle (resource : String) :
    (handle strategy source).values resource =
      ((carrier strategy source.distinctKeys.reverse resource).map source.values).getD ∅ :=
  values_foldl_redirect source.distinctKeys resource

/-! ## When no mode is lost -/

theorem mem_auxiliariesOf {resource aux : String} :
    aux ∈ auxiliariesOf strategy source resource ↔
      aux ∈ source.distinctKeys ∧ redirects strategy aux = true ∧
        strategy.getSubjectIdentifier aux = resource := by
  simp [auxiliariesOf]

/-- Keys that neither are the resource nor are redirected to it leave it alone. -/
theorem carrier_untouched {keys : List String} {resource : String}
    (h : ∀ key ∈ keys, redirects strategy key = true →
      resource ≠ key ∧ resource ≠ strategy.getSubjectIdentifier key) :
    carrier strategy keys resource = some resource := by
  induction keys with
  | nil => rfl
  | cons key keys ih =>
    have hrest := ih fun k hk => h k (List.mem_cons_of_mem _ hk)
    unfold carrier
    split
    · rename_i hkey
      obtain ⟨hself, hsubject⟩ := h key List.mem_cons_self hkey
      rw [if_neg hself, if_neg hsubject, hrest]
    · exact hrest

theorem values_handle_other {resource : String}
    (hnone : auxiliariesOf strategy source resource = [])
    (hstays : redirects strategy resource = false) :
    (handle strategy source).values resource = source.values resource := by
  have huntouched : carrier strategy source.distinctKeys.reverse resource = some resource := by
    apply carrier_untouched
    intro key hmem hkey
    constructor
    · intro heq
      rw [← heq, hstays] at hkey
      cases hkey
    · intro heq
      have haux : key ∈ auxiliariesOf strategy source resource :=
        mem_auxiliariesOf.mpr ⟨List.mem_reverse.mp hmem, hkey, heq.symm⟩
      rw [hnone] at haux
      cases haux
  rw [values_handle, huntouched]
  rfl

/-- A subject of something in the map requires something. -/
theorem exists_requiredBySource {resource : String}
    (h : auxiliariesOf strategy source resource ≠ []) :
    ∃ mode, RequiredBySource strategy source resource mode := by
  obtain ⟨aux, haux⟩ := List.exists_mem_of_ne_nil _ h
  obtain ⟨mode, hmode⟩ := SetMultiMap.mem_distinctKeys.mp (mem_auxiliariesOf.mp haux).1
  exact ⟨mode, Or.inr ⟨aux, haux, hmode⟩⟩

/-- The modes are kept exactly when every subject is left with the modes of a
resource that by itself requires all that the source requires on the subject and
on its auxiliaries. -/
theorem keepsModes_iff (strategy : AuxiliaryStrategy) (source : AccessMap Mode) :
    KeepsModes strategy source (handle strategy source) ↔
      ∀ resource, auxiliariesOf strategy source resource ≠ [] →
        ∃ origin, carrier strategy source.distinctKeys.reverse resource = some origin ∧
          ∀ mode, mode ∈ source.values origin ↔
            RequiredBySource strategy source resource mode := by
  constructor
  · intro h resource haux
    have hmodes := h.subjects resource haux
    rw [values_handle] at hmodes
    cases horigin : carrier strategy source.distinctKeys.reverse resource with
    | none =>
      rw [horigin] at hmodes
      obtain ⟨mode, hmode⟩ := exists_requiredBySource haux
      exact absurd ((hmodes mode).mpr hmode) (Finset.notMem_empty mode)
    | some origin =>
      rw [horigin] at hmodes
      exact ⟨origin, rfl, hmodes⟩
  · intro h
    constructor
    · intro resource haux mode
      obtain ⟨origin, horigin, hmodes⟩ := h resource haux
      rw [values_handle, horigin]
      exact hmodes mode
    · intro resource hnone hstays
      exact values_handle_other hnone hstays

/-- Reading `card` and modifying its metadata: only the second is still asked
for. -/
theorem metadata_replaces_modes :
    let strategy : AuxiliaryStrategy :=
      { isAuxiliaryIdentifier := fun path => path = "card.meta"
        usesOwnAuthorization := fun _ => false
        getSubjectIdentifier := fun _ => "card" }
    let source : AccessMap PERMISSIONS :=
      (SetMultiMap.empty.add "card" {.Read}).add "card.meta" {.Modify}
    (handle strategy source).entrySets = [("card", {.Modify})] ∧
      ¬ KeepsModes strategy source (handle strategy source) := by
  intro strategy source
  have hread : PERMISSIONS.Read ∉ (handle strategy source).values "card" := by decide +kernel
  have haux : auxiliariesOf strategy source "card" ≠ [] := by decide +kernel
  have hsource : PERMISSIONS.Read ∈ source.values "card" := by decide +kernel
  refine ⟨by decide +kernel, fun h => hread ?_⟩
  exact (h.subjects "card" haux .Read).mpr (Or.inl hsource)

/-! ## Auxiliaries of resources that stay -/

/-- Where no auxiliary is redirected to a redirected one, a resource that stays
has the modes of the last auxiliary that was redirected to it. -/
theorem carrier_eq_last {keys : List String} (hnodup : keys.Nodup)
    (hplain : ∀ key ∈ keys, redirects strategy key = true →
      redirects strategy (strategy.getSubjectIdentifier key) = false)
    {resource : String} (hstays : redirects strategy resource = false) :
    carrier strategy keys resource =
      some ((keys.find? fun key =>
        redirects strategy key && strategy.getSubjectIdentifier key = resource).getD
          resource) := by
  induction keys with
  | nil => rfl
  | cons key keys ih =>
    obtain ⟨hkey, hrest⟩ := List.nodup_cons.mp hnodup
    have hplainRest := fun k hk => hplain k (List.mem_cons_of_mem key hk)
    have ihrest := ih hrest hplainRest
    unfold carrier
    by_cases hredirects : redirects strategy key = true
    · have hne : resource ≠ key := by
        intro heq
        rw [heq, hredirects] at hstays
        cases hstays
      rw [if_pos hredirects, if_neg hne]
      by_cases hsubject : resource = strategy.getSubjectIdentifier key
      · -- nothing was redirected to the auxiliary itself
        have huntouched : carrier strategy keys key = some key := by
          apply carrier_untouched
          intro k hk hkredirects
          constructor
          · intro heq
            exact hkey (heq ▸ hk)
          · intro heq
            have hk := hplainRest k hk hkredirects
            rw [← heq, hredirects] at hk
            cases hk
        rw [if_pos hsubject, huntouched]
        simp [hredirects, hsubject]
      · rw [if_neg hsubject, ihrest]
        simp [Ne.symm hsubject]
    · rw [if_neg hredirects, ihrest]
      simp [hredirects]

/-- The last auxiliary of each subject decides. -/
theorem keepsModes_iff_last (strategy : AuxiliaryStrategy) (source : AccessMap Mode)
    (hplain : ∀ key ∈ source.distinctKeys, redirects strategy key = true →
      redirects strategy (strategy.getSubjectIdentifier key) = false) :
    KeepsModes strategy source (handle strategy source) ↔
      ∀ resource last, (auxiliariesOf strategy source resource).getLast? = some last →
        ∀ mode, RequiredBySource strategy source resource mode →
          mode ∈ source.values last := by
  have hcarrier : ∀ resource last,
      (auxiliariesOf strategy source resource).getLast? = some last →
        carrier strategy source.distinctKeys.reverse resource = some last := by
    intro resource last hlast
    have hmem := mem_auxiliariesOf.mp (List.mem_of_getLast? hlast)
    have hstays := hplain last hmem.1 hmem.2.1
    rw [hmem.2.2] at hstays
    have hnodup : source.distinctKeys.reverse.Nodup := List.nodup_reverse.mpr source.distinct
    rw [carrier_eq_last hnodup
      (fun key hkey => hplain key (List.mem_reverse.mp hkey)) hstays]
    rw [← List.head?_filter, List.filter_reverse, List.head?_reverse]
    rw [auxiliariesOf] at hlast
    rw [hlast]
    rfl
  have hvalues : ∀ resource last,
      (auxiliariesOf strategy source resource).getLast? = some last →
        (handle strategy source).values resource = source.values last := by
    intro resource last hlast
    rw [values_handle, hcarrier resource last hlast]
    rfl
  constructor
  · intro h resource last hlast mode hmode
    have haux : auxiliariesOf strategy source resource ≠ [] := by
      intro hnil
      rw [hnil] at hlast
      cases hlast
    rw [← hvalues resource last hlast]
    exact (h.subjects resource haux mode).mpr hmode
  · intro h
    constructor
    · intro resource haux mode
      obtain ⟨last, hlast⟩ := Option.isSome_iff_exists.mp (List.getLast?_isSome.mpr haux)
      rw [hvalues resource last hlast]
      exact ⟨fun hmode => Or.inr ⟨last, List.mem_of_getLast? hlast, hmode⟩,
        h resource last hlast mode⟩
    · intro resource hnone hstays
      exact values_handle_other hnone hstays

end AuxiliaryModesExtractor

end UserManagedAccess.Css
