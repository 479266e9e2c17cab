/-
UserManagedAccess.Credentials.UriComponents — the inverse of
`encodeURIComponent`.

`decodeURIComponent` reads one character after the other. An escaped one is as
many escaped bytes as its first byte says, and those must be a character in
UTF-8. It fails on any other escape.

* `decodeURIComponent_encodeURIComponent` — the round trip.
-/
import UserManagedAccess.Credentials.IriVerifierTheorems
import UserManagedAccess.Lib.Utf8

namespace UserManagedAccess.Credentials

open UserManagedAccess.Lib UserManagedAccess.Util

def hexValue (c : Char) : Option Nat :=
  if '0' ≤ c ∧ c ≤ '9' then some (c.toNat - '0'.toNat)
  else if 'a' ≤ c ∧ c ≤ 'f' then some (c.toNat - 'a'.toNat + 10)
  else if 'A' ≤ c ∧ c ≤ 'F' then some (c.toNat - 'A'.toNat + 10)
  else none

/-- The escaped byte the text begins with. -/
def readByte : List Char → Option (UInt8 × List Char)
  | '%' :: high :: low :: text => do
    let high ← hexValue high
    let low ← hexValue low
    return (UInt8.ofNat (high * 16 + low), text)
  | _ => none

def readBytes : Nat → List Char → Option (List UInt8 × List Char)
  | 0, text => some ([], text)
  | n + 1, text => do
    let (byte, text) ← readByte text
    let (bytes, text) ← readBytes n text
    return (byte :: bytes, text)

/-- How many bytes a character has that begins with this one. -/
def sequenceLength (byte : Nat) : Option Nat :=
  if byte < 0x80 then some 1
  else if byte < 0xc0 then none
  else if byte < 0xe0 then some 2
  else if byte < 0xf0 then some 3
  else if byte < 0xf8 then some 4
  else none

/-- The escaped character the text begins with. Where the bytes are not one
character, the UTF-8 reader finds more than one. -/
def readChar (text : List Char) : Option (Char × List Char) := do
  let (first, _) ← readByte text
  let n ← sequenceLength first.toNat
  let (bytes, rest) ← readBytes n text
  match Utf8.decode none bytes with
  | [c] => some (c, rest)
  | _ => none

/-- The first argument is larger than the length of the text. -/
def decodeFrom : Nat → List Char → Option (List Char)
  | 0, _ => none
  | _ + 1, [] => some []
  | fuel + 1, c :: text =>
    if c = '%' then
      match readChar (c :: text) with
      | none => none
      | some (d, rest) => (decodeFrom fuel rest).map (d :: ·)
    else (decodeFrom fuel text).map (c :: ·)

def decodeURIComponent (text : String) : Except HttpError String :=
  match decodeFrom (text.length + 1) text.toList with
  | none => .error (.error "URI malformed")
  | some decoded => .ok (String.ofList decoded)

/-! ## One character -/

theorem hexValue_hexDigit {n : Nat} (h : n < 16) : hexValue (hexDigit n) = some n := by
  have hall : ∀ n < 16, hexValue (hexDigit n) = some n := by decide
  exact hall n h

theorem readByte_percentByte (byte : UInt8) (text : List Char) :
    readByte (percentByte byte ++ text) = some (byte, text) := by
  have hbyte : byte.toNat < 256 := byte.toNat_lt
  have hvalue : byte.toNat / 16 * 16 + byte.toNat % 16 = byte.toNat := by omega
  show (do
    let high ← hexValue (hexDigit (byte.toNat / 16))
    let low ← hexValue (hexDigit (byte.toNat % 16))
    return (UInt8.ofNat (high * 16 + low), text)) = some (byte, text)
  rw [hexValue_hexDigit (by omega), hexValue_hexDigit (by omega)]
  show some (UInt8.ofNat (byte.toNat / 16 * 16 + byte.toNat % 16), text) = some (byte, text)
  rw [hvalue, UInt8.ofNat_toNat]

theorem readBytes_flatMap (bytes : List UInt8) (text : List Char) :
    readBytes bytes.length (bytes.flatMap percentByte ++ text) = some (bytes, text) := by
  induction bytes with
  | nil => rfl
  | cons byte bytes ih =>
    rw [List.flatMap_cons, List.append_assoc, List.length_cons, readBytes, readByte_percentByte]
    show (do
      let (bytes, text) ← readBytes bytes.length (bytes.flatMap percentByte ++ text)
      return (byte :: bytes, text)) = _
    rw [ih]
    rfl

/-- The first byte of a character says how many there are. -/
theorem sequenceLength_utf8EncodeChar (c : Char) : ∃ first bytes,
    String.utf8EncodeChar c = first :: bytes ∧
      sequenceLength first.toNat = some (String.utf8EncodeChar c).length := by
  have hvalid : c.val.toNat < 0xd800 ∨ 0xdfff < c.val.toNat ∧ c.val.toNat < 0x110000 := c.valid
  unfold String.utf8EncodeChar
  generalize c.val.toNat = v at hvalid
  have hnat : ∀ {n}, n < 256 → (UInt8.ofNat n).toNat = n := Utf8.toNat_ofNat
  by_cases hone : v ≤ 0x7f
  · refine ⟨UInt8.ofNat v, [], if_pos hone, ?_⟩
    rw [if_pos hone, hnat (by omega), sequenceLength, if_pos (by omega)]
    rfl
  by_cases htwo : v ≤ 0x7ff
  · simp only [if_neg hone, if_pos htwo]
    refine ⟨_, _, rfl, ?_⟩
    rw [hnat (by omega), sequenceLength, if_neg (by omega), if_neg (by omega), if_pos (by omega)]
    rfl
  by_cases hthree : v ≤ 0xffff
  · simp only [if_neg hone, if_neg htwo, if_pos hthree]
    refine ⟨_, _, rfl, ?_⟩
    rw [hnat (by omega), sequenceLength, if_neg (by omega), if_neg (by omega), if_neg (by omega),
      if_pos (by omega)]
    rfl
  · simp only [if_neg hone, if_neg htwo, if_neg hthree]
    refine ⟨_, _, rfl, ?_⟩
    rw [hnat (by omega), sequenceLength, if_neg (by omega), if_neg (by omega), if_neg (by omega),
      if_neg (by omega), if_pos (by omega)]
    rfl

theorem readChar_escaped (c : Char) (text : List Char) :
    readChar ((String.utf8EncodeChar c).flatMap percentByte ++ text) = some (c, text) := by
  obtain ⟨first, bytes, hbytes, hlength⟩ := sequenceLength_utf8EncodeChar c
  have hfirst : readByte ((String.utf8EncodeChar c).flatMap percentByte ++ text) =
      some (first, bytes.flatMap percentByte ++ text) := by
    rw [hbytes, List.flatMap_cons, List.append_assoc, readByte_percentByte]
  have hdecode : Utf8.decode none (String.utf8EncodeChar c) = [c] := by
    have happend := Utf8.decode_utf8EncodeChar c []
    rwa [List.append_nil] at happend
  unfold readChar
  rw [hfirst]
  show (do
    let n ← sequenceLength first.toNat
    let (bytes, rest) ← readBytes n ((String.utf8EncodeChar c).flatMap percentByte ++ text)
    match Utf8.decode none bytes with
    | [c] => some (c, rest)
    | _ => none) = _
  rw [hlength]
  show (do
    let (bytes, rest) ← readBytes (String.utf8EncodeChar c).length
      ((String.utf8EncodeChar c).flatMap percentByte ++ text)
    match Utf8.decode none bytes with
    | [c] => some (c, rest)
    | _ => none) = _
  rw [readBytes_flatMap]
  show (match Utf8.decode none (String.utf8EncodeChar c) with
    | [c] => some (c, text)
    | _ => none) = _
  rw [hdecode]

/-- A character is read back from what it is encoded as. -/
theorem decodeFrom_uriCode (fuel : Nat) (c : Char) (text : List Char) :
    decodeFrom (fuel + 1) (uriCode c ++ text) = (decodeFrom fuel text).map (c :: ·) := by
  unfold uriCode
  by_cases hc : isUnreserved c = true
  · have hpercent : c ≠ '%' := fun h => absurd (h ▸ hc) (by decide)
    rw [if_pos hc, List.singleton_append, decodeFrom, if_neg hpercent]
  · rw [if_neg hc]
    obtain ⟨first, bytes, hbytes, -⟩ := sequenceLength_utf8EncodeChar c
    have hread := readChar_escaped c text
    have hpercent : ∃ rest, (String.utf8EncodeChar c).flatMap percentByte ++ text = '%' :: rest := by
      rw [hbytes]
      exact ⟨_, rfl⟩
    obtain ⟨rest, hrest⟩ := hpercent
    rw [hrest] at hread ⊢
    rw [decodeFrom, if_pos rfl, hread]

/-! ## Texts -/

theorem decodeFrom_flatMap {fuel : Nat} {text : List Char} (h : text.length < fuel) :
    decodeFrom fuel (text.flatMap uriCode) = some text := by
  induction text generalizing fuel with
  | nil =>
    cases fuel with
    | zero => cases h
    | succ fuel => rfl
  | cons c text ih =>
    cases fuel with
    | zero => cases h
    | succ fuel =>
      rw [List.flatMap_cons, decodeFrom_uriCode, ih (Nat.lt_of_succ_lt_succ h)]
      rfl

theorem length_le_flatMap_uriCode (text : List Char) :
    text.length ≤ (text.flatMap uriCode).length := by
  induction text with
  | nil => exact Nat.le_refl _
  | cons c text ih =>
    have hpos := List.length_pos_iff.mpr (uriCode_prefixCode.nonempty c)
    rw [List.flatMap_cons, List.length_append, List.length_cons]
    omega

theorem decodeURIComponent_encodeURIComponent (text : String) :
    decodeURIComponent (encodeURIComponent text) = .ok text := by
  have hfuel : text.toList.length < (encodeURIComponent text).length + 1 := by
    rw [← String.length_toList, toList_encodeURIComponent]
    exact Nat.lt_succ_of_le (length_le_flatMap_uriCode text.toList)
  unfold decodeURIComponent
  rw [toList_encodeURIComponent, decodeFrom_flatMap hfuel]
  exact congrArg Except.ok String.ofList_toList

/-! ## What is not in an encoded text -/

/-- Besides letters and digits there are a few marks, and escapes. -/
theorem notMem_encodeURIComponent {c : Char} (hc : isUnreserved c = false)
    (hpercent : c ≠ '%') (hhex : ∀ n < 16, c ≠ hexDigit n) (text : String) :
    c ∉ (encodeURIComponent text).toList := by
  intro hmem
  rw [toList_encodeURIComponent] at hmem
  obtain ⟨d, -, hd⟩ := List.mem_flatMap.mp hmem
  unfold uriCode at hd
  split at hd
  · rename_i hunreserved
    rw [List.mem_singleton.mp hd, hunreserved] at hc
    cases hc
  · obtain ⟨byte, -, hbyte⟩ := List.mem_flatMap.mp hd
    have hlt : byte.toNat < 256 := byte.toNat_lt
    simp only [percentByte, List.mem_cons, List.not_mem_nil, or_false] at hbyte
    rcases hbyte with rfl | rfl | rfl
    · exact hpercent rfl
    · exact hhex _ (by omega) rfl
    · exact hhex _ (by omega) rfl

end UserManagedAccess.Credentials
