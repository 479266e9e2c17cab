/-
UserManagedAccess.Util.UrlEncodedForms — urlencoded responses
(`ConvertUtil.ts`), and what comes of them when they are read.

A form has texts only, and a list of them is the same key again and again.

* `formToJson_jsonToForm` — what is read is the object that was written, but
  for what a form cannot tell: the text of a number or a boolean is a text, a
  list of one value is that value, and an empty list is not there.
-/
import UserManagedAccess.Util.QueryString

namespace UserManagedAccess.Util

open UserManagedAccess.Lib UserManagedAccess.Credentials

/-! ## Writing a form -/

def isPrimitive : Json → Bool
  | .string _ | .number _ | .boolean _ => true
  | _ => false

/-- The own properties of an object, or the elements of an array. -/
def Json.entries : Json → Option (List (String × Json))
  | .object fields => some fields
  | .array elements => some (elements.zipIdx.map fun (element, i) => (toString i, element))
  | _ => none

/-- A value in `stringify`. The digits of a number are not escaped, but the
plus sign of an exponent is. -/
def stringifyPrimitive (toText : Json → String) : Json → String
  | .string text => encodeURIComponent text
  | .number value => encodeURIComponent (toText (.number value))
  | .boolean value => if value then "true" else "false"
  | _ => ""

/-- The parts for one property. -/
def stringifyField (toText : Json → String) (entry : String × Json) : List String :=
  match entry.2 with
  | .array values =>
    values.map fun value => encodeURIComponent entry.1 ++ "=" ++ stringifyPrimitive toText value
  | value => [encodeURIComponent entry.1 ++ "=" ++ stringifyPrimitive toText value]

/-- `stringify` of `querystring`. -/
def stringify (toText : Json → String) (entries : List (String × Json)) : String :=
  String.ofList (['&'].intercalate ((entries.flatMap (stringifyField toText)).map String.toList))

/-- Whether a property can be written. -/
def isConvertible : Json → Bool
  | .array values => values.all isPrimitive
  | value => isPrimitive value

def jsonToForm (toText : Json → String) (json : Json) : Except HttpError String :=
  match json.entries with
  | none => .error (.error "Can only convert JSON objects to urlencoded string.")
  | some entries =>
    if entries.all fun entry => isConvertible entry.2 then .ok (stringify toText entries)
    else .error (.error ("Can only convert JSON objects with primitives or arrays of primitives " ++
      "to urlencoded string."))

/-! ## The pairs of a form -/

/-- A value as the text that is read of it. -/
def plainText (toText : Json → String) : Json → String
  | .string text => text
  | .number value => toText (.number value)
  | .boolean value => if value then "true" else "false"
  | _ => ""

def fieldPairs (toText : Json → String) (entry : String × Json) : List (String × String) :=
  match entry.2 with
  | .array values => values.map fun value => (entry.1, plainText toText value)
  | value => [(entry.1, plainText toText value)]

/-- One part of a form. -/
def encodePair (pair : String × String) : String :=
  encodeURIComponent pair.1 ++ "=" ++ encodeURIComponent pair.2

theorem stringifyPrimitive_eq (toText : Json → String) (value : Json) :
    stringifyPrimitive toText value = encodeURIComponent (plainText toText value) := by
  have hempty : "" = encodeURIComponent "" := by decide
  cases value with
  | string text => rfl
  | number value => rfl
  | boolean value =>
    have htext : ∀ value : Bool, (if value then "true" else "false") =
        encodeURIComponent (if value then "true" else "false") := by decide
    exact htext value
  | undefined => exact hempty
  | null => exact hempty
  | array values => exact hempty
  | object fields => exact hempty

theorem stringifyField_eq (toText : Json → String) (entry : String × Json) :
    stringifyField toText entry = (fieldPairs toText entry).map encodePair := by
  obtain ⟨key, value⟩ := entry
  cases value with
  | array values =>
    show values.map _ = (values.map _).map encodePair
    rw [List.map_map]
    exact List.map_congr_left fun value _ => by
      rw [stringifyPrimitive_eq]
      rfl
  | undefined => exact congrArg (fun text => [_ ++ text]) (stringifyPrimitive_eq toText _)
  | null => exact congrArg (fun text => [_ ++ text]) (stringifyPrimitive_eq toText _)
  | boolean value => exact congrArg (fun text => [_ ++ text]) (stringifyPrimitive_eq toText _)
  | number value => exact congrArg (fun text => [_ ++ text]) (stringifyPrimitive_eq toText _)
  | string text => exact congrArg (fun text => [_ ++ text]) (stringifyPrimitive_eq toText _)
  | object fields => exact congrArg (fun text => [_ ++ text]) (stringifyPrimitive_eq toText _)

theorem stringify_eq (toText : Json → String) (entries : List (String × Json)) :
    stringify toText entries = String.ofList (['&'].intercalate
      (((entries.flatMap (fieldPairs toText)).map encodePair).map String.toList)) := by
  have hparts : entries.flatMap (stringifyField toText) =
      (entries.flatMap (fieldPairs toText)).map encodePair := by
    rw [List.map_flatMap]
    exact List.flatMap_congr fun entry _ => stringifyField_eq toText entry
  rw [stringify, hparts]

/-! ## Reading the pairs -/

theorem separator_notMem_encodePair (pair : String × String) : '&' ∉ (encodePair pair).toList := by
  simp only [encodePair, String.toList_append, List.mem_append, not_or]
  exact ⟨⟨notMem_encodeURIComponent (by decide) (by decide) (by decide) pair.1, by decide⟩,
    notMem_encodeURIComponent (by decide) (by decide) (by decide) pair.2⟩

theorem encodePair_ne_empty (pair : String × String) : encodePair pair ≠ "" := by
  intro h
  have hchars := congrArg String.toList h
  simp [encodePair, String.toList_append] at hchars

/-- A form is split into the parts it was joined of, as many as are read. -/
theorem split_joined (parts : List String) (hparts : ∀ part ∈ parts, '&' ∉ part.toList)
    (hne : ∀ part ∈ parts, part ≠ "") (hcount : parts.length ≤ 1000) :
    ((split '&' (String.ofList (['&'].intercalate (parts.map String.toList)))).take 1000).filter
      (· ≠ "") = parts := by
  unfold split
  rw [String.toList_ofList]
  cases parts with
  | nil => rfl
  | cons part rest =>
    have hno : ∀ text ∈ (part :: rest).map String.toList, '&' ∉ text := by
      intro text htext
      obtain ⟨other, hother, rfl⟩ := List.mem_map.mp htext
      exact hparts other hother
    have hself : ((part :: rest).map String.toList).map String.ofList = part :: rest := by
      rw [List.map_map]
      exact List.map_id'' (fun _ => String.ofList_toList) _
    rw [List.splitOn_intercalate '&' hno (List.cons_ne_nil _ _), hself,
      List.take_of_length_le hcount]
    exact List.filter_eq_self.mpr fun other hother => decide_eq_true (hne other hother)

section Reading

variable {decoder : FormDecoder}
  (hunescape : ∀ text, decoder.unescape (encodeURIComponent text) = text)

include hunescape

theorem readPair_encodePair (pair : String × String) :
    decoder.readPair (encodePair pair) = pair := by
  have hsep : ∀ c ∈ (encodeURIComponent pair.1).toList, decide (c ≠ '=') = true := fun c hc =>
    decide_eq_true fun heq =>
      notMem_encodeURIComponent (by decide) (by decide) (by decide) pair.1 (heq ▸ hc)
  have hchars : (encodePair pair).toList =
      (encodeURIComponent pair.1).toList ++ '=' :: (encodeURIComponent pair.2).toList := by
    simp [encodePair, String.toList_append]
  unfold FormDecoder.readPair
  rw [hchars, List.takeWhile_append_of_pos hsep, List.dropWhile_append_of_pos hsep]
  simp [hunescape]

/-- A form of at most 1000 pairs has them all. -/
theorem formToJson_stringify (toText : Json → String) (entries : List (String × Json))
    (hcount : (entries.flatMap (fieldPairs toText)).length ≤ 1000) :
    decoder.formToJson (stringify toText entries) =
      .object ((entries.flatMap (fieldPairs toText)).foldl FormDecoder.addPair Dict.empty) := by
  have hsep : ∀ part ∈ (entries.flatMap (fieldPairs toText)).map encodePair,
      '&' ∉ part.toList := by
    intro part hpart
    obtain ⟨pair, -, rfl⟩ := List.mem_map.mp hpart
    exact separator_notMem_encodePair pair
  have hne : ∀ part ∈ (entries.flatMap (fieldPairs toText)).map encodePair, part ≠ "" := by
    intro part hpart
    obtain ⟨pair, -, rfl⟩ := List.mem_map.mp hpart
    exact encodePair_ne_empty pair
  have hread : ((entries.flatMap (fieldPairs toText)).map encodePair).map decoder.readPair =
      entries.flatMap (fieldPairs toText) := by
    rw [List.map_map]
    exact List.map_id'' (readPair_encodePair hunescape) _
  rw [stringify_eq]
  unfold FormDecoder.formToJson
  rw [split_joined _ hsep hne (by rwa [List.length_map]), hread]

end Reading

/-! ## What is read of an object -/

/-- A property as it is read. -/
def readBack (toText : Json → String) (entry : String × Json) : Option (String × Json) :=
  match entry.2 with
  | .array [] => none
  | .array [value] => some (entry.1, .string (plainText toText value))
  | .array values => some (entry.1, .array (values.map fun value => .string (plainText toText value)))
  | value => some (entry.1, .string (plainText toText value))

/-- What is read of a property is what was written. -/
def Json.IsLegible : Json → Prop
  | .string _ => True
  | .array values => 2 ≤ values.length ∧ ∀ value ∈ values, ∃ text, value = .string text
  | _ => False

section Pairs

variable {fields : Dict Json} {key : String} (hkey : key ∉ fields.keys)

include hkey

theorem addPair_fresh (text : String) :
    FormDecoder.addPair fields (key, text) = fields ++ [(key, .string text)] := by
  unfold FormDecoder.addPair
  rw [Dict.get_eq_none hkey]
  exact Dict.set_of_notMem hkey _

/-- The second value of a key, and the ones after it. -/
theorem addPair_last {value : Json} (text : String) :
    FormDecoder.addPair (fields ++ [(key, value)]) (key, text) = fields ++ [(key,
      match value with
      | .array values => .array (values ++ [.string text])
      | value => .array [value, .string text])] := by
  have hget : Dict.get (fields ++ [(key, value)]) key = some value := by
    rw [Dict.get_append_of_notMem hkey, Dict.get_cons, if_pos rfl]
  have hset : ∀ other : Json, Dict.set (fields ++ [(key, value)]) key other =
      fields ++ [(key, other)] := by
    intro other
    rw [Dict.set_append_of_notMem hkey]
    exact congrArg (fields ++ ·) (if_pos rfl)
  unfold FormDecoder.addPair
  rw [hget]
  cases value with
  | array values => exact hset _
  | undefined => exact hset _
  | null => exact hset _
  | boolean value => exact hset _
  | number value => exact hset _
  | string text => exact hset _
  | object fields => exact hset _

theorem foldl_addPair_array (values : List Json) (texts : List String) :
    (texts.map fun text => (key, text)).foldl FormDecoder.addPair
        (fields ++ [(key, .array values)]) =
      fields ++ [(key, .array (values ++ texts.map .string))] := by
  induction texts generalizing values with
  | nil => simp
  | cons text texts ih =>
    rw [List.map_cons, List.foldl_cons, addPair_last hkey]
    dsimp only
    rw [ih, List.append_assoc]
    rfl

/-- The pairs of a property are put together again. -/
theorem foldl_fieldPairs (toText : Json → String) (value : Json) :
    (fieldPairs toText (key, value)).foldl FormDecoder.addPair fields =
      fields ++ (readBack toText (key, value)).toList := by
  cases value with
  | array values =>
    match values with
    | [] => exact (List.append_nil fields).symm
    | [value] => exact addPair_fresh hkey _
    | first :: second :: rest =>
      have hpairs : fieldPairs toText (key, .array (first :: second :: rest)) =
          (key, plainText toText first) :: (key, plainText toText second) ::
            (rest.map (plainText toText)).map fun text => (key, text) := by
        simp [fieldPairs, Function.comp_def]
      rw [hpairs, List.foldl_cons, List.foldl_cons, addPair_fresh hkey, addPair_last hkey]
      dsimp only
      rw [foldl_addPair_array hkey]
      simp [readBack, Function.comp_def]
  | undefined => exact addPair_fresh hkey _
  | null => exact addPair_fresh hkey _
  | boolean value => exact addPair_fresh hkey _
  | number value => exact addPair_fresh hkey _
  | string text => exact addPair_fresh hkey _
  | object fields => exact addPair_fresh hkey _

end Pairs

theorem readBack_key {toText : Json → String} {entry read : String × Json}
    (h : readBack toText entry = some read) : read.1 = entry.1 := by
  unfold readBack at h
  split at h <;> cases h <;> rfl

/-- Object by object: what was read of the properties before does not matter. -/
theorem foldl_fields (toText : Json → String) (entries : List (String × Json)) (fields : Dict Json)
    (hnodup : (entries.map Prod.fst).Nodup) (hnew : ∀ entry ∈ entries, entry.1 ∉ fields.keys) :
    (entries.flatMap (fieldPairs toText)).foldl FormDecoder.addPair fields =
      fields ++ entries.filterMap (readBack toText) := by
  induction entries generalizing fields with
  | nil => exact (List.append_nil fields).symm
  | cons entry entries ih =>
    rw [List.map_cons, List.nodup_cons] at hnodup
    have hrest : ∀ other ∈ entries,
        other.1 ∉ Dict.keys (fields ++ (readBack toText entry).toList) := by
      intro other hother hmem
      rw [Dict.keys, List.map_append, List.mem_append] at hmem
      rcases hmem with hmem | hmem
      · exact hnew other (List.mem_cons_of_mem _ hother) hmem
      · obtain ⟨read, hread, heq⟩ := List.mem_map.mp hmem
        rw [Option.mem_toList] at hread
        rw [readBack_key hread] at heq
        exact hnodup.1 (heq ▸ List.mem_map_of_mem hother)
    rw [List.flatMap_cons, List.foldl_append, foldl_fieldPairs (hnew entry List.mem_cons_self),
      ih _ hnodup.2 hrest, List.append_assoc]
    congr 1
    cases hread : readBack toText entry with
    | none => rw [List.filterMap_cons_none hread]; rfl
    | some read => rw [List.filterMap_cons_some hread]; rfl

theorem readBack_eq_some_iff {toText : Json → String} {entry : String × Json} :
    readBack toText entry = some entry ↔ entry.2.IsLegible := by
  obtain ⟨key, value⟩ := entry
  have htext : ∀ {value : Json} {text : String}, some (key, Json.string text) = some (key, value) ↔
      .string text = value := by
    intro value text
    simp
  cases value with
  | string text => exact iff_of_true rfl trivial
  | array values =>
    match values with
    | [] => exact iff_of_false (fun h => nomatch h) fun h => absurd h.1 (by decide)
    | [value] =>
      exact iff_of_false (fun h => nomatch htext.mp h) fun h => absurd h.1 (by simp)
    | first :: second :: rest =>
      have hlength : 2 ≤ (first :: second :: rest).length := Nat.le_add_left 2 rest.length
      show some (key, Json.array ((first :: second :: rest).map _)) = some (key, .array _) ↔ _
      simp only [Option.some_inj, Prod.mk.injEq, true_and, Json.array.injEq]
      constructor
      · intro h
        refine ⟨hlength, fun value hvalue => ?_⟩
        rw [← h] at hvalue
        obtain ⟨other, -, rfl⟩ := List.mem_map.mp hvalue
        exact ⟨_, rfl⟩
      · rintro ⟨-, h⟩
        refine (List.map_congr_left fun value hvalue => ?_).trans (List.map_id _)
        obtain ⟨text, rfl⟩ := h value hvalue
        rfl
  | undefined => exact iff_of_false (fun h => nomatch htext.mp h) id
  | null => exact iff_of_false (fun h => nomatch htext.mp h) id
  | boolean value => exact iff_of_false (fun h => nomatch htext.mp h) id
  | number value => exact iff_of_false (fun h => nomatch htext.mp h) id
  | object fields => exact iff_of_false (fun h => nomatch htext.mp h) id

/-- All of the properties are read as they are, or something is different. -/
theorem filterMap_readBack_eq_iff {toText : Json → String} {entries : List (String × Json)} :
    entries.filterMap (readBack toText) = entries ↔ ∀ entry ∈ entries, entry.2.IsLegible := by
  induction entries with
  | nil => simp
  | cons entry entries ih =>
    have hentry : readBack toText entry = some entry ↔ entry.2.IsLegible := readBack_eq_some_iff
    rw [List.forall_mem_cons, ← ih, ← hentry]
    cases hread : readBack toText entry with
    | none =>
      rw [List.filterMap_cons_none hread]
      refine iff_of_false (fun h => ?_) fun h => nomatch h.1
      have hlength := List.length_filterMap_le (readBack toText) entries
      rw [h, List.length_cons] at hlength
      omega
    | some read =>
      rw [List.filterMap_cons_some hread, List.cons.injEq, Option.some_inj]

/-- A form that is read is the object that was written, with texts for its
values, without its empty lists, and with the value of a list that has one. -/
theorem formToJson_jsonToForm (toText : Json → String) (fields : Dict Json)
    (hnodup : fields.keys.Nodup) (hcount : (fields.flatMap (fieldPairs toText)).length ≤ 1000)
    {form : String} (hform : jsonToForm toText (.object fields) = .ok form) :
    (QueryString.decoder toText).formToJson form =
        .object (fields.filterMap (readBack toText)) ∧
      ((QueryString.decoder toText).formToJson form = .object fields ↔
        ∀ entry ∈ fields, entry.2.IsLegible) := by
  have hstringify : form = stringify toText fields := by
    unfold jsonToForm at hform
    dsimp only [Json.entries] at hform
    split at hform
    · exact (Except.ok.inj hform).symm
    · cases hform
  have hread : (QueryString.decoder toText).formToJson form =
      .object (fields.filterMap (readBack toText)) := by
    subst hstringify
    have hfields := foldl_fields toText fields Dict.empty hnodup fun _ _ => List.not_mem_nil
    exact (formToJson_stringify (QueryString.decoder_unescape_encodeURIComponent toText) _ _
      hcount).trans
      (congrArg Json.object hfields)
  refine ⟨hread, ?_⟩
  rw [hread, Json.object.injEq]
  exact filterMap_readBack_eq_iff

theorem formToJson_jsonToForm_space :
    (QueryString.decoder fun _ => "1").formToJson "c=sp%20ace&d=1&d=2&e=true" =
      .object [("c", .string "sp ace"), ("d", .array [.string "1", .string "2"]),
        ("e", .string "true")] :=
  (formToJson_jsonToForm (fun _ => "1") [("c", .string "sp ace"),
    ("d", .array [.string "1", .string "2"]), ("e", .boolean true)] (by decide) (by decide)
    rfl).1

end UserManagedAccess.Util
