/-
UserManagedAccess.Util.Buffers — texts in base64.
-/
import UserManagedAccess.Lib.Base64
import UserManagedAccess.Lib.Utf8

namespace UserManagedAccess.Util

open UserManagedAccess.Lib

/-- `Buffer.from(text).toString('base64')`. -/
def toBase64 (text : String) : String := String.ofList (Base64.encode (Utf8.encode text.toList))

/-- `Buffer.from(text, 'base64').toString('utf8')`. -/
def fromBase64 (text : String) : String :=
  String.ofList (Utf8.decode none (Base64.decode text.toList))

@[simp] theorem fromBase64_toBase64 (text : String) : fromBase64 (toBase64 text) = text := by
  unfold fromBase64 toBase64
  rw [String.toList_ofList, Base64.decode_encode, Utf8.decode_encode, String.ofList_toList]

/-- What is not in the alphabet is not in the text. -/
theorem notMem_toBase64 {c : Char} (h : c ∉ Base64.alphabet) (hpadding : c ≠ '=')
    (text : String) : c ∉ (toBase64 text).toList := by
  intro hmem
  rw [toBase64, String.toList_ofList] at hmem
  exact (Base64.mem_encode hmem).elim h hpadding

end UserManagedAccess.Util
