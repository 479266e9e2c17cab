/-
UserManagedAccess.Policies.Authorizers.NamespacedAuthorizer — the authorizer
that delegates by the namespace of the resource.

Entries are grouped by the authorizer object they go to, so two namespaces of
one authorizer form one query. Objects are told apart by a handle; `delegate`
is what the object with a handle does. Reading `authorizers[ns]` also finds the
properties that every object inherits, which are no authorizers. `urlPathname`
is the pathname of a URL, `none` where parsing it throws.
-/
import UserManagedAccess.Lib.Except
import UserManagedAccess.Policies.Authorizers.Authorizer
import UserManagedAccess.Util.Forms

namespace UserManagedAccess.Policies

open UserManagedAccess.Lib UserManagedAccess.Util
open UserManagedAccess.Views UserManagedAccess.Credentials

namespace NamespacedAuthorizer

structure Settings where
  /-- The handle of the authorizer of a namespace. -/
  authorizers : Dict Nat
  fallback : Nat
  registrationStore : KeyValueStorage String Registration
  namespacePosition : Nat
  urlPathname : String → Option String

/-- `pathname.split('/')?.[this.namespacePosition] ?? ''`. -/
def segment (settings : Settings) (pathname : String) : String :=
  ((split '/' pathname)[settings.namespacePosition]?).getD ""

def findNamespace (settings : Settings) (resourceId : String) :
    Except HttpError (Option String) :=
  match settings.registrationStore.get resourceId with
  | none => .ok none
  | some registration =>
    match registration.description.name.filter (· ≠ "") with
    | none => .ok none
    | some resourceIdentifier =>
      match settings.urlPathname resourceIdentifier with
      | none => .error (.error "Invalid URL")
      | some pathname =>
        .ok (some (segment settings pathname))

/-- What an entry goes to: an authorizer, or a property of `Object.prototype`. -/
inductive Target where
  | authorizer (handle : Nat)
  | inherited (property : String)
  deriving DecidableEq

/-- `authorizers[ns]`. -/
def lookup (settings : Settings) (ns : String) : Option Target :=
  match settings.authorizers.property ns with
  | .own handle => some (.authorizer handle)
  | .inherited => some (.inherited ns)
  | .missing => none

def route (settings : Settings) (permission : PartialPermission) : Except HttpError Target := do
  let ns ← match permission.resourceId.filter (· ≠ "") with
    | some resourceId => findNamespace settings resourceId
    | none => .ok none
  return ((ns.filter (· ≠ "")).bind (lookup settings)).getD (.authorizer settings.fallback)

/-- Append an entry to the group of its target, or start that group. -/
def addToGroup (target : Target) (permission : PartialPermission) :
    List (Target × List PartialPermission) → List (Target × List PartialPermission)
  | [] => [(target, [permission])]
  | (t, group) :: groups =>
    if t = target then (t, group ++ [permission]) :: groups
    else (t, group) :: addToGroup target permission groups

def groupQuery (settings : Settings) (query : List PartialPermission) :
    Except HttpError (List (Target × List PartialPermission)) :=
  query.foldlM (fun groups permission => do
    let target ← route settings permission
    return addToGroup target permission groups) []

/-- The authorizer of a group; anything else has no `permissions` to call. -/
def callee (group : Target × List PartialPermission) :
    Except HttpError (Nat × List PartialPermission) :=
  match group.1 with
  | .authorizer handle => .ok (handle, group.2)
  | .inherited _ => .error (.error "authorizer.permissions is not a function")

end NamespacedAuthorizer

/-- `new NamespacedAuthorizer(…)`. A group without an authorizer throws before any
answer comes in; when several delegates throw, the first group's error stands for
the one that comes first in time. -/
def namespacedAuthorizer (settings : NamespacedAuthorizer.Settings)
    (delegate : Nat → Authorizer) : Authorizer := fun claims query =>
  match query with
  | none => .ok []
  | some [] => .ok []
  | some permissions => do
    let groups ← NamespacedAuthorizer.groupQuery settings permissions
    let calls ← groups.mapM NamespacedAuthorizer.callee
    let permissionSets ← calls.mapM fun (handle, group) => delegate handle claims (some group)
    return permissionSets.flatten

end UserManagedAccess.Policies
