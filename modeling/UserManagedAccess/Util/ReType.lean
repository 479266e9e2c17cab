/-
UserManagedAccess.Util.ReType — JSON values and the run-time type checks of
`ReType.ts`.

A `Json` is what `JSON.parse` can return, plus `undefined` (what reading an
absent field gives). An `Assertion` accepts a value or throws with a message;
`reType value assertion` in the source is the assertion applied to the value,
for the function assertions, and `fields` for an object of assertions.

`number` carries a rational: no modelled function inspects a number.
-/
import Mathlib.Data.List.Basic

namespace UserManagedAccess.Util

inductive Json where
  | undefined
  | null
  | boolean (value : Bool)
  | number (value : Rat)
  | string (value : String)
  | array (elements : List Json)
  | object (fields : List (String × Json))

namespace Json

instance : Inhabited Json := ⟨undefined⟩

/-- `value[key]` on an object; anything else has no such field. -/
def field (key : String) : Json → Json
  | object fields => (fields.lookup key).getD undefined
  | _ => undefined

def asString? : Json → Option String
  | string s => some s
  | _ => none

def asArray? : Json → Option (List Json)
  | array es => some es
  | _ => none

/-- `value === s`. -/
def isString (s : String) (value : Json) : Bool := value.asString? == some s

@[simp] theorem isString_string (s t : String) :
    isString s (string t) = decide (t = s) := by
  simp only [isString, asString?]
  by_cases h : t = s <;> simp [h]

end Json

/-! ## Assertions -/

/-- Accepts the value or throws with a message. -/
abbrev Assertion := Json → Except String Unit

namespace ReType

def string : Assertion
  | .string _ => .ok ()
  | _ => .error "value is not a string"

def boolean : Assertion
  | .boolean _ => .ok ()
  | _ => .error "value is not a boolean"

/-- `reType(value, text)` for a text. -/
def literal (text : String) : Assertion := fun value =>
  if value.isString text then .ok () else .error ("value is not equal to " ++ text)

/-- `reType(value, undefined)`. -/
def undefined : Assertion
  | .undefined => .ok ()
  | _ => .error "value is not equal to undefined"

/-- `value.forEach`: the first element that is rejected decides the error. -/
def forEach (element : Assertion) : List Json → Except String Unit
  | [] => .ok ()
  | e :: es =>
    match element e with
    | .ok () => forEach element es
    | .error m => .error m

def array (element : Assertion) : Assertion
  | .array es => forEach element es
  | _ => .error "value is not an array"

def tuple (types : List Assertion) : Assertion
  | .array es =>
    if es.length = types.length then
      (types.zip es).foldl (fun r te => r.bind fun _ => te.1 te.2) (.ok ())
    else .error "value has wrong length"
  | _ => .error "value is not a tuple"

def union : List Assertion → Assertion
  | [], _ => .error "value is neither of the union types"
  | t :: ts, value =>
    match t value with
    | .ok () => .ok ()
    | .error _ => union ts value

/-- `$(pattern)` in the source. -/
def optional (pattern : Assertion) : Assertion := union [pattern, undefined]

/-- `reType(value, { key: assertion, … })`: every listed field is checked, in
order; other fields are not looked at. -/
def fields : List (String × Assertion) → Assertion
  | _, .undefined | _, .null | _, .boolean _ | _, .number _ | _, .string _ =>
    .error "value is not an object"
  | [], _ => .ok ()
  | (key, assertion) :: rest, value =>
    match assertion (value.field key) with
    | .ok () => fields rest value
    | .error m => .error m

/-- `dict(records)`: an object whose own properties are accepted. An array has
its length among them. -/
def dict (records : Assertion) : Assertion
  | .object fields => forEach records (fields.map Prod.snd)
  | .array es => forEach records (es ++ [.number es.length])
  | _ => .error "value is not a record"

/-! ### What an accepted value looks like -/

theorem string_ok {v : Json} : string v = .ok () ↔ ∃ s, v = .string s := by
  cases v <;> simp [string]

theorem forEach_ok {element : Assertion} {es : List Json} :
    forEach element es = .ok () ↔ ∀ e ∈ es, element e = .ok () := by
  induction es with
  | nil => simp [forEach]
  | cons e es ih =>
    simp only [forEach, List.mem_cons, forall_eq_or_imp]
    cases he : element e with
    | error m => simp
    | ok u => simpa using ih

theorem array_ok {element : Assertion} {v : Json} :
    array element v = .ok () ↔ ∃ es, v = .array es ∧ ∀ e ∈ es, element e = .ok () := by
  cases v <;> simp [array, forEach_ok]

theorem union_ok {types : List Assertion} {v : Json} :
    union types v = .ok () ↔ ∃ t ∈ types, t v = .ok () := by
  induction types with
  | nil => simp [union]
  | cons t types ih =>
    simp only [union, List.mem_cons, exists_eq_or_imp]
    cases ht : t v with
    | ok u => simp
    | error m => simpa using ih

/-- An array is no record of arrays: its length is one of its properties. -/
theorem dict_array_ok {element : Assertion} {v : Json} (h : dict (array element) v = .ok ()) :
    ∃ fs, v = .object fs ∧ ∀ f ∈ fs, array element f.2 = .ok () := by
  cases v with
  | object fs =>
    refine ⟨fs, rfl, fun f hf => ?_⟩
    exact forEach_ok.mp h f.2 (List.mem_map.mpr ⟨f, hf, rfl⟩)
  | array es =>
    have hlength := forEach_ok.mp h (.number es.length) (by simp)
    cases hlength
  | _ => cases h

theorem fields_cons_ok {key : String} {assertion : Assertion}
    {rest : List (String × Assertion)} {v : Json}
    (h : fields ((key, assertion) :: rest) v = .ok ()) :
    assertion (v.field key) = .ok () ∧ fields rest v = .ok () := by
  cases v <;> simp only [fields] at h <;> try cases h
  all_goals
    split at h
    · exact ⟨by assumption, h⟩
    · cases h

end ReType

end UserManagedAccess.Util
