/-
UserManagedAccess.Lib.SetMultiMap — a map from keys to sets of values, in the
order in which the keys came, that never keeps an empty set.

* `values` — the set of a key, empty when the key is not there; every other
  operation is described by what it does to `values`.
* `mem_distinctKeys` — a key is in the map exactly when its set is not empty.
-/
import Mathlib.Data.Finset.Basic
import UserManagedAccess.Lib.Dict

namespace UserManagedAccess.Lib

/-! ## The map -/

structure SetMultiMap (ν : Type) where
  entrySets : Dict (Finset ν)
  distinct : entrySets.keys.Nodup
  inhabited : ∀ entry ∈ entrySets, entry.2.Nonempty

namespace SetMultiMap

variable {ν : Type}

def empty : SetMultiMap ν where
  entrySets := []
  distinct := List.nodup_nil
  inhabited := fun _ hentry => absurd hentry List.not_mem_nil

/-- `distinctKeys`. -/
def distinctKeys (m : SetMultiMap ν) : List String := m.entrySets.keys

def get (m : SetMultiMap ν) (key : String) : Option (Finset ν) := m.entrySets.get key

def values (m : SetMultiMap ν) (key : String) : Finset ν := (m.get key).getD ∅

def delete (m : SetMultiMap ν) (key : String) : SetMultiMap ν where
  entrySets := m.entrySets.delete key
  distinct := by
    rw [Dict.keys_delete]
    exact m.distinct.filter _
  inhabited := fun entry hentry => m.inhabited entry (List.mem_of_mem_filter hentry)

/-- Setting a key to the empty set removes it. -/
def set (m : SetMultiMap ν) (key : String) (value : Finset ν) : SetMultiMap ν :=
  if h : value.Nonempty then
    { entrySets := m.entrySets.set key value
      distinct := Dict.nodup_keys_set m.distinct key value
      inhabited := fun entry hentry => by
        rcases Dict.mem_set hentry with rfl | hold
        · exact h
        · exact m.inhabited entry hold }
  else m.delete key

def add [DecidableEq ν] (m : SetMultiMap ν) (key : String) (value : Finset ν) : SetMultiMap ν :=
  m.set key (m.values key ∪ value)

/-! ## What the operations do to the sets -/

@[simp] theorem values_empty (key : String) : (empty : SetMultiMap ν).values key = ∅ := rfl

theorem values_of_get {m : SetMultiMap ν} {key : String} {value : Finset ν}
    (h : m.get key = some value) : m.values key = value := by
  rw [values, h]
  rfl

theorem values_delete (m : SetMultiMap ν) (key other : String) :
    (m.delete key).values other = if other = key then ∅ else m.values other := by
  have hget : (m.delete key).get other = if other = key then none else m.get other :=
    Dict.get_delete m.entrySets key other
  rw [values, hget]
  split <;> rfl

theorem values_set (m : SetMultiMap ν) (key : String) (value : Finset ν) (other : String) :
    (m.set key value).values other = if other = key then value else m.values other := by
  unfold set
  split
  · rename_i hvalue
    have hget : Dict.get (m.entrySets.set key value) other =
        if other = key then some value else m.get other :=
      Dict.get_set m.entrySets key value other
    show (Dict.get (m.entrySets.set key value) other).getD ∅ = _
    rw [hget]
    split <;> rfl
  · rename_i hvalue
    rw [values_delete, Finset.not_nonempty_iff_eq_empty.mp hvalue]

theorem values_add [DecidableEq ν] (m : SetMultiMap ν) (key : String) (value : Finset ν)
    (other : String) :
    (m.add key value).values other =
      if other = key then m.values key ∪ value else m.values other :=
  values_set m key _ other

/-! ## Keys and entries -/

theorem mem_distinctKeys {m : SetMultiMap ν} {key : String} :
    key ∈ m.distinctKeys ↔ (m.values key).Nonempty := by
  unfold distinctKeys
  rw [Dict.mem_keys_iff]
  constructor
  · rintro ⟨value, hget⟩
    rw [values_of_get hget]
    exact m.inhabited (key, value) (Dict.mem_of_get hget)
  · intro ⟨v, hv⟩
    cases hget : m.get key with
    | none =>
      rw [values, hget] at hv
      exact absurd hv (Finset.notMem_empty v)
    | some value => exact ⟨value, hget⟩

theorem get_of_mem_distinctKeys {m : SetMultiMap ν} {key : String} (h : key ∈ m.distinctKeys) :
    m.get key = some (m.values key) := by
  obtain ⟨value, hget⟩ := Dict.mem_keys_iff.mp h
  rw [values_of_get hget]
  exact hget

theorem mem_entrySets {m : SetMultiMap ν} {key : String} {value : Finset ν} :
    (key, value) ∈ m.entrySets ↔ value.Nonempty ∧ m.values key = value := by
  constructor
  · intro h
    exact ⟨m.inhabited _ h, values_of_get (Dict.get_of_mem m.distinct h)⟩
  · intro ⟨hvalue, heq⟩
    have hkey : key ∈ m.distinctKeys := mem_distinctKeys.mpr (heq ▸ hvalue)
    exact Dict.mem_of_get (heq ▸ get_of_mem_distinctKeys hkey)

end SetMultiMap

end UserManagedAccess.Lib
