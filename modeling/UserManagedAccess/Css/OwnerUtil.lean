/-
UserManagedAccess.Css.OwnerUtil — the owners of resources, and the settings of
their accounts.

What the stores of the Community Solid Server answer is a parameter. The set
that `findCommonOwner` makes of its resources is one of objects, while the
resources of an owner are counted by their paths.

* `findCommonOwner_eq_ok_iff` — the answer is the only WebID that owns every
  one of the resources, none of which comes as two objects.
-/
import Mathlib.Data.Finset.Card
import UserManagedAccess.Lib.Except
import UserManagedAccess.Lib.SetMultiMap
import UserManagedAccess.Util.Errors

namespace UserManagedAccess.Css

open UserManagedAccess.Lib UserManagedAccess.Util

/-- An identifier is an object with a path. -/
structure ResourceIdentifier where
  object : Nat
  path : String
  deriving DecidableEq

structure UmaSettings where
  credentials : Option String
  issuer : Option String

def ACCOUNT_SETTINGS_AUTHZ_SERVER : String := "authzServer"

def ACCOUNT_SETTINGS_AS_TOKEN : String := "asToken"

structure OwnerUtil where
  getStorageIdentifier : String → Except HttpError String
  /-- The id of the pod with a base URL. -/
  findByBaseUrl : String → Option String
  /-- The WebIDs of the owners of a pod. -/
  getOwners : String → Option (List String)
  /-- The ids of the accounts that link a WebID. -/
  find : String → List String
  getSetting : String → String → Option String

namespace OwnerUtil

variable (util : OwnerUtil)

def findOwners (resource : String) : Except HttpError (List String) := do
  let storage ← util.getStorageIdentifier resource
  match util.findByBaseUrl storage with
  | none => throw (.internalServer ("Unable to find pod " ++ storage))
  | some pod =>
    match util.getOwners pod with
    | none => throw (.internalServer ("Unable to find owners for pod " ++ storage))
    | some owners => return owners

/-- One resource of the loop. -/
def addOwners (ownerMap : SetMultiMap String) (target : ResourceIdentifier) :
    Except HttpError (SetMultiMap String) := do
  let owners ← util.findOwners target.path
  return owners.foldl (fun ownerMap owner => ownerMap.add owner {target.path}) ownerMap

def validOwners (ownerMap : SetMultiMap String) (size : Nat) : List String :=
  (ownerMap.entrySets.filter fun entry => entry.2.card = size).map Prod.fst

/-- The resources are gone through twice, the second time for the text of an
error. Of an iterator nothing `remains` then. -/
def findCommonOwner (resources remaining : List ResourceIdentifier) : Except HttpError String := do
  let resourceSet := resources.eraseDups
  let ownerMap ← resourceSet.foldlM util.addOwners SetMultiMap.empty
  match validOwners ownerMap resourceSet.length with
  | [] => throw (.internalServer ("No common owner found for resources: " ++
      ", ".intercalate (remaining.map ResourceIdentifier.path)))
  | [owner] => return owner
  | _ => throw (.internalServer ("Multiple common owners found for resources: " ++
      ", ".intercalate (remaining.map ResourceIdentifier.path)))

def findUmaSettings (webId : String) : Except HttpError UmaSettings :=
  match util.find webId with
  | [] => .error (.internalServer ("Unable to find an account linked to WebID " ++ webId))
  | [accountId] => .ok {
      credentials := util.getSetting accountId ACCOUNT_SETTINGS_AS_TOKEN
      issuer := util.getSetting accountId ACCOUNT_SETTINGS_AUTHZ_SERVER }
  | _ => .error (.internalServer ("Found multiple accounts linked to WebID " ++ webId))

/-! ## The common owner -/

/-- The WebID is an owner of the resource. -/
def Owns (webId path : String) : Prop := ∃ owners, util.findOwners path = .ok owners ∧ webId ∈ owners

/-- The map has the owners of the resources seen. -/
def Owners (seen : List ResourceIdentifier) (ownerMap : SetMultiMap String) : Prop :=
  ∀ webId path, path ∈ ownerMap.values webId ↔ path ∈ seen.map ResourceIdentifier.path ∧
    util.Owns webId path

variable {util}

theorem nodup_eraseDups {α : Type} [DecidableEq α] (l : List α) : l.eraseDups.Nodup := by
  induction hlength : l.length using Nat.strongRecOn generalizing l with
  | _ n ih =>
    cases l with
    | nil => exact List.nodup_nil
    | cons a l =>
      have hle : (l.filter fun b => !b == a).length ≤ l.length := List.length_filter_le _ l
      rw [List.eraseDups_cons, List.nodup_cons]
      refine ⟨?_, ih _ (by simp only [List.length_cons] at hlength; omega) _ rfl⟩
      rw [List.mem_eraseDups, List.mem_filter]
      simp

theorem values_foldl_add (owners : List String) (ownerMap : SetMultiMap String)
    (path webId : String) :
    (owners.foldl (fun ownerMap owner => ownerMap.add owner {path}) ownerMap).values webId =
      if webId ∈ owners then ownerMap.values webId ∪ {path} else ownerMap.values webId := by
  induction owners generalizing ownerMap with
  | nil => rfl
  | cons owner owners ih =>
    rw [List.foldl_cons, ih, SetMultiMap.values_add]
    by_cases howner : webId = owner
    · subst howner
      simp
    · simp [howner]

theorem owners_step {seen : List ResourceIdentifier} {ownerMap later : SetMultiMap String}
    {target : ResourceIdentifier} (howners : util.Owners seen ownerMap)
    (h : util.addOwners ownerMap target = .ok later) : util.Owners (seen ++ [target]) later := by
  obtain ⟨owners, hfound, hlater⟩ := Except.bind_eq_ok.mp h
  cases hlater
  have hown : ∀ webId, util.Owns webId target.path ↔ webId ∈ owners := by
    intro webId
    constructor
    · intro ⟨others, hothers, hmem⟩
      rw [hfound] at hothers
      cases hothers
      exact hmem
    · exact fun hmem => ⟨owners, hfound, hmem⟩
  intro webId path
  have hseen := howners webId path
  rw [values_foldl_add, List.map_append, List.mem_append, List.map_singleton, List.mem_singleton]
  by_cases hpath : path = target.path
  · subst hpath
    by_cases hmem : webId ∈ owners
    · simp [hmem, hown]
    · rw [if_neg hmem, hseen]
      simp [hmem, hown]
  · by_cases hmem : webId ∈ owners
    · simp [hmem, hseen, hpath]
    · simp [hmem, hseen, hpath]

/-- The owners of every resource are found. -/
theorem exists_ownerMap {resources : List ResourceIdentifier} {webId : String}
    (h : ∀ r ∈ resources, util.Owns webId r.path) :
    ∃ ownerMap, resources.foldlM util.addOwners SetMultiMap.empty = .ok ownerMap := by
  refine exists_foldlM_ok (fun r hr ownerMap => ?_) _
  obtain ⟨owners, hfound, -⟩ := h r hr
  exact ⟨_, Except.bind_eq_ok.mpr ⟨owners, hfound, rfl⟩⟩

theorem owners_of_loop {resources : List ResourceIdentifier} {ownerMap : SetMultiMap String}
    (h : resources.foldlM util.addOwners SetMultiMap.empty = .ok ownerMap) :
    util.Owners resources ownerMap :=
  foldlM_invariant util.Owners (fun _ _ _ _ => owners_step) (fun _ _ => by simp) h

/-- An owner has as many paths as there are resources if all of them are its own, and no
path is there twice. -/
theorem card_values {resources : List ResourceIdentifier} {ownerMap : SetMultiMap String}
    (howners : util.Owners resources ownerMap) (webId : String) :
    (ownerMap.values webId).card = resources.length ↔
      (resources.map ResourceIdentifier.path).Nodup ∧ ∀ r ∈ resources, util.Owns webId r.path := by
  have hpaths : ∀ path, path ∈ ownerMap.values webId →
      path ∈ (resources.map ResourceIdentifier.path).toFinset := fun path hpath =>
    List.mem_toFinset.mpr ((howners webId path).mp hpath).1
  constructor
  · intro hcard
    have hfew : (resources.map ResourceIdentifier.path).toFinset.card ≤ resources.length := by
      simpa using List.toFinset_card_le (resources.map ResourceIdentifier.path)
    have hall := Finset.eq_of_subset_of_card_le hpaths (by rw [hcard]; exact hfew)
    constructor
    · refine Multiset.coe_nodup.mp (Multiset.toFinset_card_eq_card_iff_nodup.mp ?_)
      show (resources.map ResourceIdentifier.path).toFinset.card = _
      rw [← hall, hcard, Multiset.coe_card, List.length_map]
    · intro r hr
      have hmem : r.path ∈ ownerMap.values webId := by
        rw [hall]
        exact List.mem_toFinset.mpr (List.mem_map_of_mem hr)
      exact ((howners webId r.path).mp hmem).2
  · intro ⟨hnodup, hown⟩
    have hall : ownerMap.values webId = (resources.map ResourceIdentifier.path).toFinset := by
      refine Finset.Subset.antisymm hpaths fun path hpath => ?_
      have hmem := List.mem_toFinset.mp hpath
      obtain ⟨r, hr, rfl⟩ := List.mem_map.mp hmem
      exact (howners webId r.path).mpr ⟨hmem, hown r hr⟩
    rw [hall, List.toFinset_card_of_nodup hnodup, List.length_map]

theorem nodup_validOwners (ownerMap : SetMultiMap String) (size : Nat) :
    (validOwners ownerMap size).Nodup :=
  (ownerMap.distinct).sublist ((List.filter_sublist).map Prod.fst)

theorem mem_validOwners {ownerMap : SetMultiMap String} {size : Nat} {webId : String} :
    webId ∈ validOwners ownerMap size ↔
      (ownerMap.values webId).Nonempty ∧ (ownerMap.values webId).card = size := by
  unfold validOwners
  rw [List.mem_map]
  constructor
  · rintro ⟨⟨owner, paths⟩, hentry, rfl⟩
    obtain ⟨hmem, hcard⟩ := List.mem_filter.mp hentry
    obtain ⟨hsome, rfl⟩ := SetMultiMap.mem_entrySets.mp hmem
    exact ⟨hsome, of_decide_eq_true hcard⟩
  · intro ⟨hsome, hcard⟩
    exact ⟨_, List.mem_filter.mpr ⟨SetMultiMap.mem_entrySets.mpr ⟨hsome, rfl⟩,
      decide_eq_true hcard⟩, rfl⟩

theorem eq_singleton_iff {l : List String} (hnodup : l.Nodup) {a : String} :
    l = [a] ↔ ∀ b, b ∈ l ↔ b = a := by
  constructor
  · intro h b
    rw [h, List.mem_singleton]
  · intro h
    refine List.perm_singleton.mp ((List.perm_ext_iff_of_nodup hnodup (List.nodup_singleton a)).mpr
      fun b => ?_)
    rw [h, List.mem_singleton]

/-- What is found is the only WebID that owns every one of the resources, and
there is nothing to find where two objects have one path. -/
theorem findCommonOwner_eq_ok_iff {resources remaining : List ResourceIdentifier}
    {webId : String} :
    util.findCommonOwner resources remaining = .ok webId ↔
      (∀ r ∈ resources, ∀ r' ∈ resources, r.path = r'.path → r = r') ∧
        (∀ r ∈ resources, util.Owns webId r.path) ∧
          ∀ other, (∀ r ∈ resources, util.Owns other r.path) → other = webId := by
  have hinjective : (resources.eraseDups.map ResourceIdentifier.path).Nodup ↔
      ∀ r ∈ resources, ∀ r' ∈ resources, r.path = r'.path → r = r' := by
    rw [List.nodup_map_iff_inj_on (nodup_eraseDups resources)]
    simp only [List.mem_eraseDups]
  have hall : ∀ webId, (∀ r ∈ resources.eraseDups, util.Owns webId r.path) ↔
      ∀ r ∈ resources, util.Owns webId r.path := by
    simp only [List.mem_eraseDups, implies_true]
  have hfound : util.findCommonOwner resources remaining = .ok webId ↔
      ∃ ownerMap, resources.eraseDups.foldlM util.addOwners SetMultiMap.empty = .ok ownerMap ∧
        validOwners ownerMap resources.eraseDups.length = [webId] := by
    refine Except.bind_eq_ok.trans (exists_congr fun ownerMap => and_congr_right fun _ => ?_)
    rcases validOwners ownerMap resources.eraseDups.length with _ | ⟨owner, _ | ⟨other, rest⟩⟩
    · simp [throw, throwThe, MonadExceptOf.throw]
    · simp [pure, Except.pure]
    · simp [throw, throwThe, MonadExceptOf.throw]
  rw [hfound]
  constructor
  · intro ⟨ownerMap, hloop, hvalid⟩
    have hcard := card_values (owners_of_loop hloop)
    have hvalid := (eq_singleton_iff (nodup_validOwners _ _)).mp hvalid
    obtain ⟨hsome, hsize⟩ := mem_validOwners.mp ((hvalid webId).mpr rfl)
    obtain ⟨hnodup, hown⟩ := (hcard webId).mp hsize
    refine ⟨hinjective.mp hnodup, (hall webId).mp hown, fun other hother => ?_⟩
    have hsame := (hcard other).mpr ⟨hnodup, (hall other).mpr hother⟩
    refine (hvalid other).mp (mem_validOwners.mpr ⟨Finset.card_pos.mp ?_, hsame⟩)
    rw [hsame, ← hsize]
    exact Finset.card_pos.mpr hsome
  · intro ⟨hpaths, hown, honly⟩
    obtain ⟨ownerMap, hloop⟩ := exists_ownerMap ((hall webId).mpr hown)
    have hcard := card_values (owners_of_loop hloop)
    refine ⟨ownerMap, hloop, (eq_singleton_iff (nodup_validOwners _ _)).mpr fun other => ?_⟩
    rw [mem_validOwners, hcard, hall]
    constructor
    · exact fun h => honly other h.2.2
    · rintro rfl
      refine ⟨?_, hinjective.mpr hpaths, hown⟩
      -- without a resource every WebID would own them all
      cases hresources : resources with
      | nil =>
        subst hresources
        exact absurd (honly (other ++ "/") (by simp)) (by simp)
      | cons r rest =>
        have hr : r ∈ resources.eraseDups := by
          rw [List.mem_eraseDups, hresources]
          exact List.mem_cons_self
        exact ⟨r.path, (owners_of_loop hloop other r.path).mpr ⟨List.mem_map_of_mem hr,
          (hall other).mpr hown r hr⟩⟩

/-! ## What is thrown -/

variable {path webId : String} {resources remaining : List ResourceIdentifier} {e : HttpError}

theorem findOwners_error (h : util.findOwners path = .error e) :
    (∃ message, e = .internalServer message) ∨ util.getStorageIdentifier path = .error e := by
  rcases Except.bind_eq_error.mp h with hstorage | ⟨storage, -, h⟩
  · exact .inr hstorage
  · refine .inl ?_
    split at h
    · exact ⟨_, (Except.error.inj h).symm⟩
    · split at h
      · exact ⟨_, (Except.error.inj h).symm⟩
      · cases h

theorem findCommonOwner_error (h : util.findCommonOwner resources remaining = .error e) :
    (∃ message, e = .internalServer message) ∨
      ∃ path, util.getStorageIdentifier path = .error e := by
  rcases Except.bind_eq_error.mp h with hloop | ⟨ownerMap, -, h⟩
  · obtain ⟨r, -, ownerMap, hstep⟩ := exists_foldlM_error hloop
    rcases Except.bind_eq_error.mp hstep with hfound | ⟨owners, -, h⟩
    · exact (findOwners_error hfound).imp_right fun hstorage => ⟨r.path, hstorage⟩
    · cases h
  · refine .inl ?_
    split at h
    · exact ⟨_, (Except.error.inj h).symm⟩
    · cases h
    · exact ⟨_, (Except.error.inj h).symm⟩

theorem findUmaSettings_error (h : util.findUmaSettings webId = .error e) :
    ∃ message, e = .internalServer message := by
  unfold findUmaSettings at h
  split at h
  · exact ⟨_, (Except.error.inj h).symm⟩
  · cases h
  · exact ⟨_, (Except.error.inj h).symm⟩

end OwnerUtil

end UserManagedAccess.Css
