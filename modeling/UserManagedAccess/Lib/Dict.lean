/-
UserManagedAccess.Lib.Dict — the two kinds of map a JavaScript server uses.

* `Dict` — a plain object used as a dictionary: string keys in insertion
  order, assignment to an existing key keeps its place. These are the own
  properties. `d[key]` also finds those of `Object.prototype`: `Dict.get` is for
  keys that are none of them, or for a check of own keys (`Object.entries`,
  `hasOwnProperty`), and `Dict.property` tells them apart.
* `KeyValueStorage` — a key/value store with `get`, `set` and `delete`. Its
  iteration order is never observed, so it is the lookup function itself.
-/
import Mathlib.Data.List.Basic

namespace UserManagedAccess.Lib

/-! ## Dictionaries -/

abbrev Dict (β : Type) := List (String × β)

namespace Dict

variable {β : Type}

def empty : Dict β := []

def get (d : Dict β) (key : String) : Option β := d.lookup key

/-- `d[key] = value`: replace in place, or append. -/
def set : Dict β → String → β → Dict β
  | [], key, value => [(key, value)]
  | (k, v) :: d, key, value =>
    if k = key then (key, value) :: d else (k, v) :: set d key value

/-- `delete d[key]`. -/
def delete (d : Dict β) (key : String) : Dict β := d.filter fun entry => entry.1 ≠ key

/-- `Object.fromEntries`. -/
def fromEntries (entries : List (String × β)) : Dict β :=
  entries.foldl (fun d entry => d.set entry.1 entry.2) empty

/-- `Object.keys`. -/
def keys (d : Dict β) : List String := d.map Prod.fst

@[simp] theorem get_empty (key : String) : (empty : Dict β).get key = none := rfl

@[simp] theorem get_cons (k : String) (v : β) (d : Dict β) (key : String) :
    Dict.get ((k, v) :: d) key = if key = k then some v else Dict.get d key := by
  by_cases h : key = k
  · simp [Dict.get, h]
  · have hb : (key == k) = false := by simpa using h
    simp [Dict.get, List.lookup_cons, hb, h]

theorem get_set (d : Dict β) (key : String) (value : β) (other : String) :
    (d.set key value).get other = if other = key then some value else d.get other := by
  induction d with
  | nil => exact get_cons key value [] other
  | cons entry d ih =>
    obtain ⟨k, v⟩ := entry
    by_cases hk : k = key
    · subst hk
      by_cases ho : other = k <;> simp [set, ho]
    · by_cases ho : other = k
      · subst ho
        simp [set, hk]
      · simp [set, hk, ho, ih]

@[simp] theorem get_set_self (d : Dict β) (key : String) (value : β) :
    (d.set key value).get key = some value := by
  simp [get_set]

theorem get_set_ne (d : Dict β) {key other : String} (value : β) (h : other ≠ key) :
    (d.set key value).get other = d.get other := by
  simp [get_set, h]

theorem mem_keys_iff {d : Dict β} {key : String} :
    key ∈ d.keys ↔ ∃ value, d.get key = some value := by
  induction d with
  | nil => simp [keys, Dict.get]
  | cons entry d ih =>
    obtain ⟨k, v⟩ := entry
    by_cases hk : key = k
    · subst hk; simp [keys]
    · simp only [keys, List.map_cons, List.mem_cons, hk, false_or, get_cons, if_false]
      exact ih

theorem keys_set (d : Dict β) (key : String) (value : β) :
    (d.set key value).keys = if key ∈ d.keys then d.keys else d.keys ++ [key] := by
  induction d with
  | nil => rfl
  | cons entry d ih =>
    obtain ⟨k, v⟩ := entry
    by_cases hk : k = key
    · simp [set, keys, hk]
    · have hne : key ≠ k := fun h => hk h.symm
      simp only [set, if_neg hk]
      show k :: Dict.keys (set d key value) = _
      rw [ih]
      by_cases hmem : key ∈ Dict.keys d
      · have hcons : key ∈ Dict.keys ((k, v) :: d) := List.mem_cons_of_mem _ hmem
        rw [if_pos hmem, if_pos hcons]
        rfl
      · have hcons : key ∉ Dict.keys ((k, v) :: d) := by
          simpa [keys, hne] using hmem
        rw [if_neg hmem, if_neg hcons]
        rfl

/-- Objects have each key once. -/
theorem nodup_keys_set {d : Dict β} (h : d.keys.Nodup) (key : String) (value : β) :
    (d.set key value).keys.Nodup := by
  rw [keys_set]
  split
  · exact h
  · rename_i hmem
    exact List.nodup_append.mpr ⟨h, by simp, fun a ha b hb hab => by
      rw [List.mem_singleton.mp hb] at hab
      exact hmem (hab ▸ ha)⟩

theorem get_eq_none {d : Dict β} {key : String} (h : key ∉ d.keys) : d.get key = none := by
  cases hget : d.get key with
  | none => rfl
  | some value => exact absurd (mem_keys_iff.mpr ⟨value, hget⟩) h

theorem get_append_of_notMem {d : Dict β} {key : String} (h : key ∉ d.keys) (rest : Dict β) :
    Dict.get (d ++ rest) key = rest.get key := by
  unfold Dict.get
  rw [List.lookup_append, show List.lookup key d = none from get_eq_none h]
  rfl

/-- A new key comes last. -/
theorem set_append_of_notMem {d : Dict β} {key : String} (h : key ∉ d.keys) (rest : Dict β)
    (value : β) : Dict.set (d ++ rest) key value = d ++ rest.set key value := by
  induction d with
  | nil => rfl
  | cons entry d ih =>
    obtain ⟨k, v⟩ := entry
    have hk : k ≠ key := fun heq => h (heq ▸ List.mem_cons_self)
    have hd : key ∉ Dict.keys d := fun hmem => h (List.mem_cons_of_mem _ hmem)
    show (if k = key then (key, value) :: (d ++ rest) else (k, v) :: set (d ++ rest) key value) = _
    rw [if_neg hk, ih hd]
    rfl

theorem set_of_notMem {d : Dict β} {key : String} (h : key ∉ d.keys) (value : β) :
    d.set key value = d ++ [(key, value)] := by
  have hset := set_append_of_notMem h [] value
  rwa [List.append_nil] at hset

theorem get_delete (d : Dict β) (key other : String) :
    (d.delete key).get other = if other = key then none else d.get other := by
  induction d with
  | nil => simp [delete, Dict.get]
  | cons entry d ih =>
    obtain ⟨k, v⟩ := entry
    have hrest : ∀ rest : Dict β, Dict.delete ((k, v) :: rest) key =
        if k = key then Dict.delete rest key else (k, v) :: Dict.delete rest key := by
      intro rest
      by_cases hk : k = key <;> simp [delete, hk]
    rw [hrest, get_cons]
    by_cases hk : k = key
    · subst hk
      rw [if_pos rfl, ih]
      by_cases ho : other = k <;> simp [ho]
    · by_cases ho : other = k
      · subst ho
        simp [hk]
      · simp [ih, hk, ho]

theorem keys_delete (d : Dict β) (key : String) :
    (d.delete key).keys = d.keys.filter fun other => other ≠ key := by
  simp [keys, delete, List.filter_map, Function.comp_def]

theorem mem_of_get {d : Dict β} {key : String} {value : β} (h : d.get key = some value) :
    (key, value) ∈ d := by
  induction d with
  | nil => cases h
  | cons entry d ih =>
    obtain ⟨k, v⟩ := entry
    rw [get_cons] at h
    by_cases hk : key = k
    · rw [if_pos hk, Option.some_inj] at h
      rw [hk, h]
      exact List.mem_cons_self
    · rw [if_neg hk] at h
      exact List.mem_cons_of_mem _ (ih h)

theorem get_of_mem {d : Dict β} (hnodup : d.keys.Nodup) {key : String} {value : β}
    (h : (key, value) ∈ d) : d.get key = some value := by
  induction d with
  | nil => cases h
  | cons entry d ih =>
    obtain ⟨k, v⟩ := entry
    obtain ⟨hk, hrest⟩ := List.nodup_cons.mp hnodup
    rw [get_cons]
    rcases List.mem_cons.mp h with heq | hmem
    · cases heq
      rw [if_pos rfl]
    · have hne : key ≠ k := by
        rintro rfl
        exact hk (List.mem_map.mpr ⟨_, hmem, rfl⟩)
      rw [if_neg hne]
      exact ih hrest hmem

theorem mem_set {d : Dict β} {key : String} {value : β} {entry : String × β}
    (h : entry ∈ d.set key value) : entry = (key, value) ∨ entry ∈ d := by
  induction d with
  | nil => exact Or.inl (List.mem_singleton.mp h)
  | cons first d ih =>
    obtain ⟨k, v⟩ := first
    unfold set at h
    split at h
    · rcases List.mem_cons.mp h with h | h
      · exact Or.inl h
      · exact Or.inr (List.mem_cons_of_mem _ h)
    · rcases List.mem_cons.mp h with h | h
      · exact Or.inr (h ▸ List.mem_cons_self)
      · exact (ih h).imp_right (List.mem_cons_of_mem _)

/-- Writing one value under many keys. -/
theorem get_foldl_set (keys : List String) (value : β) (d : Dict β) (key : String) :
    (keys.foldl (fun d k => d.set k value) d).get key =
      if key ∈ keys then some value else d.get key := by
  induction keys generalizing d with
  | nil => simp
  | cons k keys ih =>
    rw [List.foldl_cons, ih, get_set]
    by_cases hkeys : key ∈ keys
    · simp [hkeys]
    · by_cases hk : key = k <;> simp [hkeys, hk]

/-- Spreading an object over another one: its own properties win. -/
theorem get_spread (d other : Dict β) (hnodup : other.keys.Nodup) (key : String) :
    (other.foldl (fun d entry => d.set entry.1 entry.2) d).get key =
      (other.get key).or (d.get key) := by
  induction other generalizing d with
  | nil => rfl
  | cons entry other ih =>
    obtain ⟨k, v⟩ := entry
    obtain ⟨hk, hrest⟩ := List.nodup_cons.mp hnodup
    rw [List.foldl_cons, ih _ hrest, get_set, get_cons]
    by_cases hkey : key = k
    · subst hkey
      have hnone : Dict.get other key = none := by
        cases hget : Dict.get other key with
        | none => rfl
        | some value => exact absurd (mem_keys_iff.mpr ⟨value, hget⟩) hk
      simp [hnone]
    · simp [hkey]

theorem nodup_keys_foldl_set {α : Type} (entries : List α) (key : α → String) (value : α → β)
    {d : Dict β} (h : d.keys.Nodup) :
    (entries.foldl (fun d a => d.set (key a) (value a)) d).keys.Nodup := by
  induction entries generalizing d with
  | nil => exact h
  | cons a entries ih => exact ih (nodup_keys_set h _ _)

theorem get_fromEntries_const (keys : List String) (value : β) (key : String) :
    (fromEntries (keys.map (fun k => (k, value)))).get key =
      if key ∈ keys then some value else none := by
  rw [fromEntries, List.foldl_map, get_foldl_set, get_empty]

end Dict

/-! ## Inherited properties -/

/-- The properties of `Object.prototype`, which every plain object inherits. -/
def inheritedProperties : List String :=
  ["constructor", "__defineGetter__", "__defineSetter__", "hasOwnProperty", "__lookupGetter__",
    "__lookupSetter__", "isPrototypeOf", "propertyIsEnumerable", "toString", "valueOf",
    "__proto__", "toLocaleString"]

/-- The text of an inherited property: that of a function, or of the prototype. -/
def inheritedText (key : String) : String :=
  if key = "__proto__" then "[object Object]"
  else if key = "constructor" then "function Object() \x7b [native code] \x7d"
  else "function " ++ key ++ "() \x7b [native code] \x7d"

/-- What `d[key]` finds. -/
inductive Property (β : Type) where
  | own (value : β)
  | inherited
  | missing
  deriving DecidableEq

namespace Dict

variable {β : Type} {d : Dict β} {key : String}

def property (d : Dict β) (key : String) : Property β :=
  match d.get key with
  | some value => .own value
  | none => if key ∈ inheritedProperties then .inherited else .missing

theorem property_of_get {value : β} (h : d.get key = some value) : d.property key = .own value := by
  rw [property, h]

theorem property_inherited (h : d.get key = none) (hkey : key ∈ inheritedProperties) :
    d.property key = .inherited := by
  rw [property, h]
  exact if_pos hkey

theorem property_missing (h : d.get key = none) (hkey : key ∉ inheritedProperties) :
    d.property key = .missing := by
  rw [property, h]
  exact if_neg hkey

end Dict

/-! ## Key/value stores -/

/-- A key/value store, as its lookup function. -/
def KeyValueStorage (κ ν : Type) := κ → Option ν

namespace KeyValueStorage

variable {κ ν : Type}

def empty : KeyValueStorage κ ν := fun _ => none

def get (store : KeyValueStorage κ ν) (key : κ) : Option ν := store key

def has (store : KeyValueStorage κ ν) (key : κ) : Bool := (store key).isSome

variable [DecidableEq κ]

def set (store : KeyValueStorage κ ν) (key : κ) (value : ν) : KeyValueStorage κ ν :=
  fun k => if k = key then some value else store k

def delete (store : KeyValueStorage κ ν) (key : κ) : KeyValueStorage κ ν :=
  fun k => if k = key then none else store k

omit [DecidableEq κ] in
@[simp] theorem get_empty (key : κ) : (empty : KeyValueStorage κ ν).get key = none := rfl

theorem get_set (store : KeyValueStorage κ ν) (key : κ) (value : ν) (other : κ) :
    (store.set key value).get other = if other = key then some value else store.get other :=
  rfl

theorem get_delete (store : KeyValueStorage κ ν) (key other : κ) :
    (store.delete key).get other = if other = key then none else store.get other :=
  rfl

/-- Of the entries written one after the other, the last one of a key stays. -/
theorem get_foldl_set {α : Type} (entries : List α) (key : α → κ) (value : α → ν)
    (store : KeyValueStorage κ ν) (k : κ) :
    (entries.foldl (fun store a => store.set (key a) (value a)) store).get k =
      ((entries.reverse.find? (fun a => key a = k)).map value).or (store.get k) := by
  induction entries generalizing store with
  | nil => rfl
  | cons a entries ih =>
    rw [List.foldl_cons, ih, List.reverse_cons, List.find?_append]
    cases entries.reverse.find? (fun a => key a = k) with
    | some b => rfl
    | none =>
      by_cases hk : key a = k
      · simp [hk, get_set]
      · simp [hk, get_set, Ne.symm hk]

end KeyValueStorage

end UserManagedAccess.Lib
