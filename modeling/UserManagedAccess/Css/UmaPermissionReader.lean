/-
UserManagedAccess.Css.UmaPermissionReader — the permissions of a token, as the
resource server reads them.

A time of a token is a JSON number of seconds; one that is zero counts as not
there. A permission map is an object whose keys are modes of the policy engine;
its key `undefined`, which unknown scopes are written under, is `none` here.

* `handle_allows` — a mode is allowed by the last entry of its resource;
* `handle_allows_iff` — when that is the union of the entries.
-/
import Mathlib.Data.Rat.Defs
import Mathlib.Algebra.Order.Field.Basic
import Mathlib.Algebra.Order.Field.Rat
import UserManagedAccess.Lib.Dict

namespace UserManagedAccess.Css

open UserManagedAccess.Lib

/-! ## Tokens and modes -/

/-- `iat`, `exp` and `nbf`. -/
structure Times where
  iat : Option Rat := none
  exp : Option Rat := none
  nbf : Option Rat := none

structure UmaPermission where
  resourceId : String
  resourceScopes : List String
  times : Times := {}

/-- What `UmaPermissionReader` reads of `UmaClaims`. -/
structure UmaClaims where
  permissions : Option (List UmaPermission) := none
  times : Times := {}

/-- The modes of the policy engine that have a scope. -/
inductive PERMISSIONS where
  | Append | Create | Delete | Modify | Read
  deriving DecidableEq

namespace MODES

def namespaceIri : String := "urn:example:css:modes:"
def append : String := "urn:example:css:modes:append"
def read : String := "urn:example:css:modes:read"
def create : String := "urn:example:css:modes:create"
def delete : String := "urn:example:css:modes:delete"
def write : String := "urn:example:css:modes:write"

end MODES

/-- `modeMap`. -/
def modeMap : PERMISSIONS → String
  | .Append => MODES.append
  | .Create => MODES.create
  | .Delete => MODES.delete
  | .Modify => MODES.write
  | .Read => MODES.read

/-- `scopeMap`: the entries of `modeMap`, turned around. -/
def scopeMap : Dict PERMISSIONS :=
  Dict.fromEntries ([.Append, .Create, .Delete, .Modify, .Read].map fun mode =>
    (modeMap mode, mode))

/-- What is in the namespace but not in the map is `undefined`. -/
def toCssMode (scope : String) : Option PERMISSIONS := scopeMap.get scope

/-! ## The reader -/

/-- `Date.now()`, at a time after 1970. -/
structure Moment where
  millis : Nat
  past : 0 < millis

def Moment.seconds (now : Moment) : Rat := now.millis / 1000

/-- The three checks, of a token and of a permission: none of them throws. -/
def Times.checked (times : Times) (now : Rat) : Bool :=
  !(times.iat.any fun iat => iat ≠ 0 && iat ≥ now) &&
    !(times.exp.any fun exp => exp ≠ 0 && exp ≤ now) &&
    !(times.nbf.any fun nbf => nbf ≠ 0 && nbf > now)

/-- Issued before this time, not expired, and not for a later time only. -/
structure Times.ValidAt (times : Times) (now : Rat) : Prop where
  issued : ∀ iat, times.iat = some iat → iat < now
  current : ∀ exp, times.exp = some exp → now < exp
  started : ∀ nbf, times.nbf = some nbf → nbf ≤ now

theorem Times.checked_eq_true {times : Times} {now : Rat} :
    times.checked now = true ↔
      (∀ iat, times.iat = some iat → iat ≠ 0 → iat < now) ∧
        (∀ exp, times.exp = some exp → exp ≠ 0 → now < exp) ∧
        ∀ nbf, times.nbf = some nbf → nbf ≠ 0 → nbf ≤ now := by
  simp [Times.checked, Option.any_eq_false, and_assoc]

/-- The checks are those of the times, except that they let an `exp` of zero
pass. -/
theorem Times.validAt_iff {times : Times} {now : Rat} (hnow : 0 < now) :
    times.ValidAt now ↔ times.checked now = true ∧ times.exp ≠ some 0 := by
  rw [Times.checked_eq_true]
  constructor
  · intro h
    refine ⟨⟨fun iat hiat _ => h.issued iat hiat, fun exp hexp _ => h.current exp hexp,
      fun nbf hnbf _ => h.started nbf hnbf⟩, fun hzero => ?_⟩
    exact absurd (h.current 0 hzero) (not_lt.mpr hnow.le)
  · intro ⟨⟨hiat, hexp, hnbf⟩, hzero⟩
    constructor
    · intro iat h
      by_cases hz : iat = 0
      · rw [hz]
        exact hnow
      · exact hiat iat h hz
    · intro exp h
      exact hexp exp h fun hz => hzero (hz ▸ h)
    · intro nbf h
      by_cases hz : nbf = 0
      · rw [hz]
        exact hnow.le
      · exact hnbf nbf h hz

theorem Moment.seconds_pos (now : Moment) : 0 < now.seconds := by
  have hmillis : (0 : Rat) < now.millis := Nat.cast_pos.mpr now.past
  exact div_pos hmillis (by norm_num)

/-- An object from modes to booleans, either of which can be `undefined`. -/
abbrev PermissionMap := KeyValueStorage (Option PERMISSIONS) (Option Bool)

namespace UmaPermissionReader

/-- The entry a scope becomes. -/
def modeEntry (now : Rat) (permission : UmaPermission) (scope : String) :
    Option PERMISSIONS × Option Bool :=
  if ¬ MODES.namespaceIri.isPrefixOf scope then (none, none)
  else if permission.times.checked now then (toCssMode scope, some true)
  else (toCssMode scope, some false)

def permissionSet (now : Rat) (permission : UmaPermission) : PermissionMap :=
  (permission.resourceScopes.map (modeEntry now permission)).foldl
    (fun set entry => set.set entry.1 entry.2) KeyValueStorage.empty

/-- `handle`. The credentials have an RPT, or they do not. -/
def handle (now : Moment) (rpt : Option UmaClaims) : KeyValueStorage String PermissionMap :=
  match rpt with
  | none => KeyValueStorage.empty
  | some rpt =>
    if rpt.times.checked now.seconds then
      (rpt.permissions.getD []).foldl
        (fun result permission =>
          result.set permission.resourceId (permissionSet now.seconds permission))
        KeyValueStorage.empty
    else KeyValueStorage.empty

/-- The reader lets a request through that needs this mode on this resource. -/
def Allows (result : KeyValueStorage String PermissionMap) (resourceId : String)
    (mode : PERMISSIONS) : Prop :=
  ((result.get resourceId).bind fun set => set.get (some mode)) = some (some true)

/-! ## What is allowed -/

theorem toCssMode_eq_some {scope : String} {mode : PERMISSIONS} :
    toCssMode scope = some mode ↔ scope = modeMap mode := by
  have hmap : scopeMap = [(MODES.append, .Append), (MODES.create, .Create),
      (MODES.delete, .Delete), (MODES.write, .Modify), (MODES.read, .Read)] := by
    decide +kernel
  have hdistinct : ∀ mode, toCssMode (modeMap mode) = some mode := by
    intro mode
    cases mode <;> decide +kernel
  constructor
  · intro h
    have hmem := Dict.mem_of_get h
    rw [hmap] at hmem
    simp only [List.mem_cons, Prod.mk.injEq, List.not_mem_nil, or_false] at hmem
    rcases hmem with ⟨rfl, rfl⟩ | ⟨rfl, rfl⟩ | ⟨rfl, rfl⟩ | ⟨rfl, rfl⟩ | ⟨rfl, rfl⟩ <;> rfl
  · intro h
    rw [h, hdistinct]

theorem namespaceIri_modeMap (mode : PERMISSIONS) :
    MODES.namespaceIri.isPrefixOf (modeMap mode) = true := by
  cases mode <;> decide +kernel

/-- A mode is a key of the entry of its own scope only. -/
theorem modeEntry_mode {now : Rat} {permission : UmaPermission} {scope : String}
    {mode : PERMISSIONS} :
    (modeEntry now permission scope).1 = some mode ↔ scope = modeMap mode := by
  unfold modeEntry
  constructor
  · intro h
    split at h
    · cases h
    · split at h <;> exact toCssMode_eq_some.mp h
  · intro h
    subst h
    rw [if_neg (by simp [namespaceIri_modeMap])]
    split <;> exact toCssMode_eq_some.mpr rfl

theorem modeEntry_modeMap (now : Rat) (permission : UmaPermission) (mode : PERMISSIONS) :
    modeEntry now permission (modeMap mode) =
      (some mode, some (permission.times.checked now)) := by
  have hmode : toCssMode (modeMap mode) = some mode := toCssMode_eq_some.mpr rfl
  unfold modeEntry
  rw [if_neg (by simp [namespaceIri_modeMap]), hmode]
  cases permission.times.checked now <;> rfl

theorem permissionSet_get (now : Rat) (permission : UmaPermission) (mode : PERMISSIONS) :
    (permissionSet now permission).get (some mode) =
      if modeMap mode ∈ permission.resourceScopes then some (some (permission.times.checked now))
      else none := by
  unfold permissionSet
  rw [KeyValueStorage.get_foldl_set, KeyValueStorage.get_empty, Option.or_none]
  cases hfind : ((permission.resourceScopes.map (modeEntry now permission)).reverse.find?
    fun entry => entry.1 = some mode) with
  | none =>
    rw [if_neg]
    · rfl
    · intro hmem
      have hnone := List.find?_eq_none.mp hfind (some mode, some (permission.times.checked now))
      refine hnone ?_ (by simp)
      rw [List.mem_reverse, ← modeEntry_modeMap]
      exact List.mem_map_of_mem hmem
  | some entry =>
    have hkey := List.find?_some hfind
    obtain ⟨scope, hscope, rfl⟩ := List.mem_map.mp
      (List.mem_reverse.mp (List.mem_of_find?_eq_some hfind))
    have hscope' : scope = modeMap mode := modeEntry_mode.mp (of_decide_eq_true hkey)
    subst hscope'
    rw [if_pos hscope, modeEntry_modeMap]
    rfl

/-- The last entry of a resource. -/
def lastEntry (rpt : UmaClaims) (resourceId : String) : Option UmaPermission :=
  (rpt.permissions.getD []).reverse.find? fun permission => permission.resourceId = resourceId

/-- The last entry of a resource decides on all its modes. -/
theorem handle_allows {now : Moment} {rpt : UmaClaims} {resourceId : String}
    {mode : PERMISSIONS} :
    Allows (handle now (some rpt)) resourceId mode ↔
      rpt.times.checked now.seconds = true ∧
        ∃ last, lastEntry rpt resourceId = some last ∧
          modeMap mode ∈ last.resourceScopes ∧ last.times.checked now.seconds = true := by
  simp only [Allows, handle]
  by_cases htoken : rpt.times.checked now.seconds = true
  · rw [if_pos htoken, KeyValueStorage.get_foldl_set, KeyValueStorage.get_empty, Option.or_none]
    change ((lastEntry rpt resourceId).map _).bind _ = _ ↔ _
    cases lastEntry rpt resourceId with
    | none => simp
    | some last => simp [permissionSet_get, htoken]
  · rw [if_neg htoken, KeyValueStorage.get_empty]
    simp [htoken]

/-! ## The union of the entries -/

/-- A current entry of the resource lists the scope of the mode. -/
def ListedNow (rpt : UmaClaims) (now : Rat) (resourceId : String) (mode : PERMISSIONS) :
    Prop :=
  ∃ permission ∈ rpt.permissions.getD [], permission.resourceId = resourceId ∧
    modeMap mode ∈ permission.resourceScopes ∧ permission.times.ValidAt now

/-- What a current entry lists in a current token, the last entry of the
resource lists as well. -/
def LastKeeps (rpt : UmaClaims) (now : Rat) (resourceId : String) (mode : PERMISSIONS) :
    Prop :=
  rpt.times.ValidAt now → ListedNow rpt now resourceId mode →
    ∃ last, lastEntry rpt resourceId = some last ∧ modeMap mode ∈ last.resourceScopes ∧
      last.times.checked now = true

/-- Where the last entry of the resource lists the mode, it does not take an
`exp` of zero in the token or in that entry to let it pass. -/
def NoZeroExpiry (rpt : UmaClaims) (now : Rat) (resourceId : String) (mode : PERMISSIONS) :
    Prop :=
  ∀ last, lastEntry rpt resourceId = some last → modeMap mode ∈ last.resourceScopes →
    rpt.times.checked now = true → last.times.checked now = true →
    rpt.times.exp ≠ some 0 ∧ (last.times.exp = some 0 → ListedNow rpt now resourceId mode)

theorem lastEntry_some {rpt : UmaClaims} {resourceId : String} {last : UmaPermission}
    (h : lastEntry rpt resourceId = some last) :
    last ∈ rpt.permissions.getD [] ∧ last.resourceId = resourceId := by
  have hid := List.find?_some h
  exact ⟨List.mem_reverse.mp (List.mem_of_find?_eq_some h), of_decide_eq_true hid⟩

/-- The permissions of a token are read as the union of its entries where its
last entry for the resource keeps what the others list, and nothing expires at
zero. -/
theorem handle_allows_iff (now : Moment) (rpt : UmaClaims) (resourceId : String)
    (mode : PERMISSIONS) :
    (Allows (handle now (some rpt)) resourceId mode ↔
        rpt.times.ValidAt now.seconds ∧ ListedNow rpt now.seconds resourceId mode) ↔
      LastKeeps rpt now.seconds resourceId mode ∧
        NoZeroExpiry rpt now.seconds resourceId mode := by
  rw [handle_allows]
  constructor
  · intro hunion
    constructor
    · intro htoken hlisted
      exact (hunion.mpr ⟨htoken, hlisted⟩).2
    · intro last hlast hscope htoken hchecked
      obtain ⟨hvalid, hlisted⟩ := hunion.mp ⟨htoken, last, hlast, hscope, hchecked⟩
      exact ⟨((Times.validAt_iff now.seconds_pos).mp hvalid).2, fun _ => hlisted⟩
  · intro ⟨hkeeps, hzero⟩
    constructor
    · intro ⟨htoken, last, hlast, hscope, hchecked⟩
      obtain ⟨hexp, hlisted⟩ := hzero last hlast hscope htoken hchecked
      refine ⟨(Times.validAt_iff now.seconds_pos).mpr ⟨htoken, hexp⟩, ?_⟩
      by_cases hz : last.times.exp = some 0
      · exact hlisted hz
      · obtain ⟨hmem, hid⟩ := lastEntry_some hlast
        exact ⟨last, hmem, hid, hscope, (Times.validAt_iff now.seconds_pos).mpr ⟨hchecked, hz⟩⟩
    · intro ⟨htoken, hlisted⟩
      exact ⟨((Times.validAt_iff now.seconds_pos).mp htoken).1, hkeeps htoken hlisted⟩

/-- A permission split in two loses its first half. -/
theorem handle_split :
    ¬ ∀ (now : Moment) (rpt : UmaClaims) (resourceId : String) (mode : PERMISSIONS),
      Allows (handle now (some rpt)) resourceId mode ↔
        rpt.times.ValidAt now.seconds ∧ ListedNow rpt now.seconds resourceId mode := by
  intro hunion
  have hvalid : ∀ now, Times.ValidAt {} now := fun now => ⟨nofun, nofun, nofun⟩
  have hallows := (hunion ⟨1000, by decide⟩
    { permissions := some [⟨"a", [ MODES.read], {}⟩, ⟨"a", [ MODES.write], {}⟩] } "a" .Read).mpr
    ⟨hvalid _, _, List.mem_cons_self, rfl, by decide, hvalid _⟩
  obtain ⟨-, last, hlast, hscope, -⟩ := handle_allows.mp hallows
  simp only [lastEntry, Option.getD_some] at hlast
  cases hlast
  revert hscope
  decide

end UmaPermissionReader

end UserManagedAccess.Css
