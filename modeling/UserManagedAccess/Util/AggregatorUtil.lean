/-
UserManagedAccess.Util.AggregatorUtil — aggregate identifiers.

An internal identifier is encrypted under a key of the process and a random
initialisation vector. Decryption recovers it, and throws where a part of the
payload is missing or does not fit.
-/
import Mathlib.Data.List.Basic

namespace UserManagedAccess.Util

structure AggregateIdCodec where
  encodeAggregateId : (iv : String) → (id : String) → String
  decodeAggregateId : (payload : String) → Option String
  decode_encode : ∀ iv id, decodeAggregateId (encodeAggregateId iv id) = some id

namespace AggregateIdCodec

/-- The parts of a payload are separated by colons; here the first two are empty. -/
def decodeMarked (payload : String) : Option String :=
  match payload.toList with
  | ':' :: ':' :: id => some (String.ofList id)
  | _ => none

theorem decodeMarked_plain {payload : String} (h : ':' ∉ payload.toList) :
    decodeMarked payload = none := by
  unfold decodeMarked
  split
  · rename_i hlist
    rw [hlist] at h
    exact absurd List.mem_cons_self h
  · rfl

/-- A codec that only adds the colons. -/
def marked : AggregateIdCodec where
  encodeAggregateId _ id := String.ofList (':' :: ':' :: id.toList)
  decodeAggregateId := decodeMarked
  decode_encode _ id := by simp [decodeMarked]

end AggregateIdCodec

end UserManagedAccess.Util
