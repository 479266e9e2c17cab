/-
UserManagedAccess.Routes.ServerState — what the resource registration and
collection endpoints share: three key/value stores and the policy store.

All four are kept in memory, and a key/value store hands out the very value that
was put in. The only values a handler changes in place are the arrays of the
resources of an owner, so those have an identity here: a request that has read one
changes the array of the others, too, and one that has read an array that is no
longer in the store puts that one back. The policy store is read as it is when its
quads are looked at.
-/
import Mathlib.Logic.Function.Basic
import UserManagedAccess.Ucp.UCRulesStorage
import UserManagedAccess.Views.Permission

namespace UserManagedAccess.Routes

open UserManagedAccess.Lib UserManagedAccess.Rdf UserManagedAccess.Util
open UserManagedAccess.Views UserManagedAccess.Ucp

/-- The arrays the resources of one owner were ever in, by number. -/
structure OwnedArrays where
  made : Nat
  content : Nat → List String

structure ServerState where
  /-- The issuer of each derivation id. -/
  derivationStore : KeyValueStorage String String
  registrationStore : KeyValueStorage String Registration
  /-- The array with the resources of each owner. -/
  ownershipStore : KeyValueStorage String Nat
  arrays : String → OwnedArrays
  policies : Store

namespace ServerState

def empty : ServerState where
  derivationStore := KeyValueStorage.empty
  registrationStore := KeyValueStorage.empty
  ownershipStore := KeyValueStorage.empty
  arrays _ := { made := 0, content := fun _ => [] }
  policies := Store.empty

def setDerivation (id issuer : String) (s : ServerState) : ServerState :=
  { s with derivationStore := s.derivationStore.set id issuer }

def deleteDerivation (id : String) (s : ServerState) : ServerState :=
  { s with derivationStore := s.derivationStore.delete id }

def setRegistration (id : String) (registration : Registration) (s : ServerState) :
    ServerState :=
  { s with registrationStore := s.registrationStore.set id registration }

def deleteRegistration (id : String) (s : ServerState) : ServerState :=
  { s with registrationStore := s.registrationStore.delete id }

/-- What is in an array that was read; where there was none, a new one is empty. -/
def resourcesIn (s : ServerState) (owner : String) (array : Option Nat) : List String :=
  (array.map (s.arrays owner).content).getD []

/-- The array that was read, or the new one, gets these resources. -/
def write (owner : String) (array : Option Nat) (resources : List String) (s : ServerState) :
    String → OwnedArrays :=
  Function.update s.arrays owner
    { made := if array.isSome then (s.arrays owner).made else (s.arrays owner).made + 1
      content := Function.update (s.arrays owner).content
        (array.getD (s.arrays owner).made) resources }

/-- The array gets these resources, and is put into the store. -/
def setOwnership (owner : String) (array : Option Nat) (resources : List String)
    (s : ServerState) : ServerState :=
  { s with
    ownershipStore := s.ownershipStore.set owner (array.getD (s.arrays owner).made)
    arrays := s.write owner array resources }

/-- `ownedResources.push(resource)`, and the array is put into the store. -/
def pushOwnership (owner : String) (array : Option Nat) (resource : String) (s : ServerState) :
    ServerState :=
  s.setOwnership owner array (s.resourcesIn owner array ++ [resource])

/-- The array is emptied, and there is none in the store. -/
def deleteOwnership (owner : String) (array : Option Nat) (s : ServerState) : ServerState :=
  { s with
    ownershipStore := s.ownershipStore.delete owner
    arrays := s.write owner array [] }

def addRule (rule : Store) (s : ServerState) : ServerState :=
  { s with policies := s.policies.addAll rule }

def removeData (data : Store) (s : ServerState) : ServerState :=
  { s with policies := s.policies.difference data }

@[simp] theorem addRule_empty (s : ServerState) : s.addRule Store.empty = s := rfl

@[simp] theorem removeData_empty (s : ServerState) : s.removeData Store.empty = s := by
  simp [removeData]

/-- The resources of an owner; absent is none. -/
def owned (s : ServerState) (owner : String) : List String :=
  s.resourcesIn owner (s.ownershipStore.get owner)

theorem owned_setOwnership (s : ServerState) (owner other : String) (array : Option Nat)
    (resources : List String) :
    (s.setOwnership owner array resources).owned other =
      if other = owner then resources else s.owned other := by
  show (((s.ownershipStore.set owner (array.getD (s.arrays owner).made)).get other).map
    (s.write owner array resources other).content).getD [] = _
  rw [KeyValueStorage.get_set]
  by_cases hother : other = owner
  · subst hother
    simp [write]
  · rw [if_neg hother, if_neg hother, write, Function.update_of_ne hother]
    rfl

theorem owned_pushOwnership (s : ServerState) (owner other : String) (array : Option Nat)
    (resource : String) :
    (s.pushOwnership owner array resource).owned other =
      if other = owner then s.resourcesIn owner array ++ [resource] else s.owned other :=
  owned_setOwnership s owner other array _

theorem owned_deleteOwnership (s : ServerState) (owner other : String) (array : Option Nat) :
    (s.deleteOwnership owner array).owned other = if other = owner then [] else s.owned other := by
  show (((s.ownershipStore.delete owner).get other).map
    (s.write owner array [] other).content).getD [] = _
  rw [KeyValueStorage.get_delete]
  by_cases hother : other = owner
  · rw [if_pos hother, if_pos hother]
    rfl
  · rw [if_neg hother, if_neg hother, write, Function.update_of_ne hother]
    rfl

end ServerState

/-- The policy storage of the server. -/
def serverPolicies : UCRulesStorage ServerState where
  getStore := do
    Async.yield
    let s ← Async.get
    return s.policies
  addRule rule := Async.modify (ServerState.addRule rule)
  removeData data := Async.modify (ServerState.removeData data)

end UserManagedAccess.Routes
