/-
UserManagedAccess.Views.Permission — permissions, and resource descriptions
as registered.
-/
import Mathlib.Data.Set.Basic
import UserManagedAccess.Util.ReType

namespace UserManagedAccess.Views

open UserManagedAccess.Util

/-! ## Permissions -/

structure Permission where
  resourceId : String
  resourceScopes : List String
  deriving DecidableEq, Repr

/-- `Partial<Permission>`: what an authorizer may be queried with. -/
structure PartialPermission where
  resourceId : Option String := none
  resourceScopes : Option (List String) := none
  deriving DecidableEq, Repr

def Permission.toPartial (p : Permission) : PartialPermission :=
  { resourceId := some p.resourceId, resourceScopes := some p.resourceScopes }

/-- The (resource id, scope) pairs a permission list stands for. -/
def pairs (permissions : List Permission) : Set (String × String) :=
  {x | ∃ p ∈ permissions, p.resourceId = x.1 ∧ x.2 ∈ p.resourceScopes}

theorem mem_pairs {permissions : List Permission} {id scope : String} :
    (id, scope) ∈ pairs permissions ↔
      ∃ p ∈ permissions, p.resourceId = id ∧ scope ∈ p.resourceScopes := Iff.rfl

instance (permissions : List Permission) (x : String × String) :
    Decidable (x ∈ pairs permissions) :=
  inferInstanceAs (Decidable (∃ p ∈ permissions, p.resourceId = x.1 ∧ x.2 ∈ p.resourceScopes))

theorem mem_pairs_singleton {p : Permission} {id scope : String} :
    (id, scope) ∈ pairs [p] ↔ p.resourceId = id ∧ scope ∈ p.resourceScopes := by
  simp [mem_pairs]

theorem pairs_cons (p : Permission) (ps : List Permission) :
    pairs (p :: ps) = pairs [p] ∪ pairs ps := by
  ext ⟨id, scope⟩
  simp [mem_pairs]

/-! ### Permissions in a request body -/

/-- The check `reType(value, Permission)`. -/
def Permission.assertion : Assertion :=
  ReType.fields [("resource_id", ReType.string),
    ("resource_scopes", ReType.array ReType.string)]

/-- Reading the two fields of a value the check has accepted. -/
def Permission.ofJson (value : Json) : Permission :=
  { resourceId := ((value.field "resource_id").asString?).getD ""
    resourceScopes :=
      (((value.field "resource_scopes").asArray?).getD []).filterMap Json.asString? }

def permissionsOfJson (value : Json) : List Permission :=
  (value.asArray?.getD []).map Permission.ofJson

/-- A permission as a JSON value. -/
def Permission.toJson (p : Permission) : Json :=
  .object [("resource_id", .string p.resourceId),
    ("resource_scopes", .array (p.resourceScopes.map .string))]

@[simp] theorem Permission.ofJson_toJson (p : Permission) :
    Permission.ofJson p.toJson = p := by
  have h : (p.resourceScopes.map Json.string).filterMap Json.asString? = p.resourceScopes := by
    rw [List.filterMap_map]
    exact List.filterMap_some
  simp [Permission.ofJson, Permission.toJson, Json.field, List.lookup_cons,
    Json.asString?, Json.asArray?, h]

theorem Permission.assertion_toJson (p : Permission) :
    Permission.assertion p.toJson = .ok () := by
  have h : ReType.array ReType.string (.array (p.resourceScopes.map .string)) = .ok () := by
    refine ReType.array_ok.mpr ⟨_, rfl, fun e he => ?_⟩
    obtain ⟨s, -, rfl⟩ := List.mem_map.mp he
    rfl
  simp [Permission.assertion, ReType.fields, Permission.toJson, Json.field,
    List.lookup_cons, ReType.string, h]

/-- A permission list sent as a request body passes the check and is read
back as it was sent. -/
theorem permissions_accepted (ps : List Permission) :
    ReType.array Permission.assertion (.array (ps.map Permission.toJson)) = .ok () ∧
      permissionsOfJson (.array (ps.map Permission.toJson)) = ps := by
  constructor
  · refine ReType.array_ok.mpr ⟨_, rfl, fun e he => ?_⟩
    obtain ⟨p, -, rfl⟩ := List.mem_map.mp he
    exact p.assertion_toJson
  · simp [permissionsOfJson, Json.asArray?, Function.comp_def]

/-! ## Resource descriptions -/

/-- One entry of `derived_from`. -/
structure DerivedFrom where
  issuer : String
  derivationResourceId : String
  deriving DecidableEq, Repr

/-- `ResourceDescription.ts`. The two relation blocks are kept as the JSON
value the validator accepted. -/
structure ResourceDescription where
  resourceScopes : List String := []
  resourceDefaults : Option Json := none
  resourceRelations : Option Json := none
  derivedFrom : Option (List DerivedFrom) := none
  type : Option String := none
  name : Option String := none
  iconUri : Option String := none
  description : Option String := none

structure Registration where
  owner : String
  description : ResourceDescription

/-! ### Resource descriptions in a request body -/

def DerivedFrom.ofJson (value : Json) : DerivedFrom :=
  { issuer := ((value.field "issuer").asString?).getD ""
    derivationResourceId := ((value.field "derivation_resource_id").asString?).getD "" }

namespace ResourceDescription

/-- The check of `resource_defaults` and of `resource_relations`. -/
def relations : Assertion :=
  ReType.optional (ReType.union
    [ReType.fields [("@reverse", ReType.dict (ReType.array ReType.string))],
      ReType.dict (ReType.array ReType.string)])

/-- The check `reType(body, ResourceDescription)`. -/
def assertion : Assertion :=
  ReType.fields [("resource_scopes", ReType.array ReType.string),
    ("resource_defaults", relations),
    ("resource_relations", relations),
    ("derived_from", ReType.optional (ReType.array (ReType.fields
      [("issuer", ReType.string), ("derivation_resource_id", ReType.string)]))),
    ("type", ReType.optional ReType.string),
    ("name", ReType.optional ReType.string),
    ("icon_uri", ReType.optional ReType.string),
    ("description", ReType.optional ReType.string)]

/-- A field that may be left out. -/
def optionalField (key : String) (value : Json) : Option Json :=
  match value.field key with
  | .undefined => none
  | other => some other

/-- Reading the fields of a value the check has accepted. -/
def ofJson (value : Json) : ResourceDescription :=
  { resourceScopes :=
      (((value.field "resource_scopes").asArray?).getD []).filterMap Json.asString?
    resourceDefaults := optionalField "resource_defaults" value
    resourceRelations := optionalField "resource_relations" value
    derivedFrom := (value.field "derived_from").asArray?.map (List.map DerivedFrom.ofJson)
    type := (value.field "type").asString?
    name := (value.field "name").asString?
    iconUri := (value.field "icon_uri").asString?
    description := (value.field "description").asString? }

/-- A resource description as a JSON value. -/
def toJson (description : ResourceDescription) : Json :=
  let text := fun (key : String) (value : Option String) =>
    (value.map fun s => (key, Json.string s)).toList
  let relations := fun (key : String) (value : Option Json) =>
    (value.map fun v => (key, v)).toList
  let derived := (description.derivedFrom.map fun entries =>
    ("derived_from", Json.array (entries.map fun entry =>
      .object [("issuer", .string entry.issuer),
        ("derivation_resource_id", .string entry.derivationResourceId)]))).toList
  .object ([("resource_scopes", .array (description.resourceScopes.map .string))] ++
    relations "resource_defaults" description.resourceDefaults ++
    relations "resource_relations" description.resourceRelations ++ derived ++
    text "type" description.type ++ text "name" description.name ++
    text "icon_uri" description.iconUri ++ text "description" description.description)

end ResourceDescription

end UserManagedAccess.Views
