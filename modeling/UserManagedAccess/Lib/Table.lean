/-
UserManagedAccess.Lib.Table — the objects of one type in an indexed storage.

An object has the identifier the storage gave it. `Table.UniqueBy key` says
that no two objects have the same key; each operation has a lemma on what it
does to that.
-/
import Mathlib.Data.List.Basic
import Mathlib.Data.List.Nodup

namespace UserManagedAccess.Lib

structure Stored (β : Type) where
  id : Nat
  value : β
  deriving DecidableEq

abbrev Table (β : Type) := List (Stored β)

namespace Table

variable {β κ : Type}

def find (table : Table β) (query : β → Bool) : List (Stored β) :=
  table.filter fun entry => query entry.value

def findIds (table : Table β) (query : β → Bool) : List Nat := (table.find query).map Stored.id

def has (table : Table β) (id : Nat) : Bool := table.any fun entry => entry.id = id

def create (table : Table β) (id : Nat) (value : β) : Table β := table ++ [⟨id, value⟩]

def set (table : Table β) (id : Nat) (value : β) : Table β :=
  table.map fun entry => if entry.id = id then { id, value } else entry

def delete (table : Table β) (id : Nat) : Table β := table.filter fun entry => entry.id ≠ id

/-- The objects without those that satisfy the query. -/
def deleteAll (table : Table β) (query : β → Bool) : Table β :=
  table.filter fun entry => !query entry.value

/-! ## Membership -/

theorem has_iff {table : Table β} {id : Nat} :
    table.has id = true ↔ ∃ entry ∈ table, entry.id = id := by
  simp [has]

theorem mem_find {table : Table β} {query : β → Bool} {entry : Stored β} :
    entry ∈ table.find query ↔ entry ∈ table ∧ query entry.value = true :=
  List.mem_filter

theorem mem_findIds {table : Table β} {query : β → Bool} {id : Nat} :
    id ∈ table.findIds query ↔
      ∃ entry ∈ table, query entry.value = true ∧ entry.id = id := by
  simp [findIds, mem_find, and_assoc]

theorem mem_create {table : Table β} {id : Nat} {value : β} {entry : Stored β} :
    entry ∈ table.create id value ↔ entry ∈ table ∨ entry = { id, value } := by
  simp [create]

/-- An object of the table after `set` is an old one, or the new value at an
identifier that was there. -/
theorem mem_of_mem_set {table : Table β} {id : Nat} {value : β} {entry : Stored β}
    (h : entry ∈ table.set id value) :
    entry ∈ table ∨ (entry = { id, value } ∧ ∃ old ∈ table, old.id = id) := by
  obtain ⟨old, hold, heq⟩ := List.mem_map.mp h
  by_cases hid : old.id = id
  · rw [if_pos hid] at heq
    exact Or.inr ⟨heq.symm, old, hold, hid⟩
  · rw [if_neg hid] at heq
    exact Or.inl (heq ▸ hold)

theorem mem_deleteAll {table : Table β} {query : β → Bool} {entry : Stored β} :
    entry ∈ table.deleteAll query ↔ entry ∈ table ∧ query entry.value = false := by
  simp [deleteAll]

/-! ## Unique keys -/

def UniqueBy (key : β → κ) (table : Table β) : Prop :=
  (table.map fun entry => key entry.value).Nodup

instance [DecidableEq κ] (key : β → κ) (table : Table β) : Decidable (table.UniqueBy key) :=
  inferInstanceAs (Decidable (List.Nodup _))

namespace UniqueBy

variable {key : β → κ} {table : Table β}

theorem nil : UniqueBy key ([] : Table β) := List.nodup_nil

theorem create_iff {id : Nat} {value : β} :
    (table.create id value).UniqueBy key ↔
      table.UniqueBy key ∧ ∀ entry ∈ table, key entry.value ≠ key value := by
  unfold UniqueBy Table.create
  rw [List.map_append, List.nodup_append]
  simp

theorem filter (h : table.UniqueBy key) (keep : Stored β → Bool) :
    UniqueBy key (table.filter keep) :=
  List.Nodup.sublist (List.filter_sublist.map _) h

/-- Replacing objects by ones with the same key changes no key. -/
theorem set_iff {id : Nat} {value : β}
    (hkey : ∀ entry ∈ table, entry.id = id → key entry.value = key value) :
    (table.set id value).UniqueBy key ↔ table.UniqueBy key := by
  have hmap : (table.set id value).map (fun entry => key entry.value) =
      table.map fun entry => key entry.value := by
    unfold Table.set
    rw [List.map_map]
    refine List.map_congr_left fun entry hentry => ?_
    by_cases hid : entry.id = id
    · simp [hid, hkey entry hentry hid]
    · simp [hid]
  unfold UniqueBy
  rw [hmap]

/-- Of two objects with the same key, there is one. -/
theorem eq_of_key (h : table.UniqueBy key) {first second : Stored β} (hfirst : first ∈ table)
    (hsecond : second ∈ table) (hkey : key first.value = key second.value) : first = second :=
  List.inj_on_of_nodup_map h hfirst hsecond hkey

end UniqueBy

end Table

end UserManagedAccess.Lib
