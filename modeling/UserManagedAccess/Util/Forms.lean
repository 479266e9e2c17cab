/-
UserManagedAccess.Util.Forms — urlencoded bodies (`ConvertUtil.ts`), and what
a handler reads from a body.
-/
import UserManagedAccess.Lib.Dict
import UserManagedAccess.Util.ReType

namespace UserManagedAccess.Util

open UserManagedAccess.Lib

/-- `text.split(separator)`. -/
def split (separator : Char) (text : String) : List String :=
  (text.toList.splitOn separator).map String.ofList

/-- `if (value)`. -/
def Json.isTruthy : Json → Bool
  | .undefined | .null => false
  | .boolean value => value
  | .number value => value ≠ 0
  | .string value => value ≠ ""
  | .array _ | .object _ => true

/-- How a form spells a key or a value, and `String(value)`. -/
structure FormDecoder where
  unescape : String → String
  toText : Json → String
  /-- Only `%` and `+` stand for something else. -/
  unescape_plain : ∀ text, (∀ c ∈ text.toList, c ≠ '%' ∧ c ≠ '+') → unescape text = text

namespace FormDecoder

variable (decoder : FormDecoder)

/-- A part without `=` has an empty value. -/
def readPair (part : String) : String × String :=
  (decoder.unescape (String.ofList (part.toList.takeWhile (· ≠ '='))),
    decoder.unescape (String.ofList ((part.toList.dropWhile (· ≠ '=')).drop 1)))

/-- The values of a key that comes up again are an array. -/
def addPair (fields : Dict Json) (pair : String × String) : Dict Json :=
  match fields.get pair.1 with
  | none => fields.set pair.1 (.string pair.2)
  | some (.array values) => fields.set pair.1 (.array (values ++ [.string pair.2]))
  | some value => fields.set pair.1 (.array [value, .string pair.2])

/-- `parse` of `querystring`, which reads 1000 parts and leaves out those that
are empty. -/
def formToJson (form : String) : Json :=
  .object (((((split '&' form).take 1000).filter (· ≠ "")).map decoder.readPair).foldl addPair
    Dict.empty)

/-- `new URLSearchParams(record).get(name)`. -/
def searchParam (name : String) : Json → Option String
  | .object fields =>
    match fields.lookup name with
    | none => none
    | some (.string text) => some text
    | some value => some (decoder.toText value)
  | _ => none

end FormDecoder

/-- Nothing in the text is spelled differently in a form. -/
def FormPlain (text : String) : Prop := ∀ c ∈ text.toList, c ≠ '&' ∧ c ≠ '%' ∧ c ≠ '+'

instance (text : String) : Decidable (FormPlain text) :=
  List.decidableBAll (fun c => c ≠ '&' ∧ c ≠ '%' ∧ c ≠ '+') text.toList

end UserManagedAccess.Util
