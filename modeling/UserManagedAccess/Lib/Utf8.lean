/-
UserManagedAccess.Lib.Utf8 — reading a text in UTF-8.

The reader never fails: where no character can be read it yields U+FFFD, and
goes on with the first byte that does not fit. `Pending` is a character whose
first bytes were read, with the bounds of the next byte.

* `decode_utf8EncodeChar` — a character is read back, whatever follows;
* `decode_encode` — so is a text.
-/
import Mathlib.Data.List.Basic

namespace UserManagedAccess.Lib.Utf8

def replacement : Char := Char.ofNat 0xfffd

structure Pending where
  needed : Nat
  codePoint : Nat
  lower : Nat := 0x80
  upper : Nat := 0xbf

/-- The first byte of a character: all of it, or what it leaves to read. -/
def begin (byte : Nat) : Char ⊕ Pending :=
  if byte ≤ 0x7f then .inl (Char.ofNat byte)
  else if byte < 0xc2 then .inl replacement
  else if byte ≤ 0xdf then .inr { needed := 1, codePoint := byte % 32 }
  else if byte ≤ 0xef then
    .inr { needed := 2, codePoint := byte % 16, lower := if byte = 0xe0 then 0xa0 else 0x80
           upper := if byte = 0xed then 0x9f else 0xbf }
  else if byte ≤ 0xf4 then
    .inr { needed := 3, codePoint := byte % 8, lower := if byte = 0xf0 then 0x90 else 0x80
           upper := if byte = 0xf4 then 0x8f else 0xbf }
  else .inl replacement

def decode : Option Pending → List UInt8 → List Char
  | none, [] => []
  | some _, [] => [replacement]
  | none, byte :: bytes =>
    match begin byte.toNat with
    | .inl c => c :: decode none bytes
    | .inr pending => decode (some pending) bytes
  | some pending, byte :: bytes =>
    if pending.lower ≤ byte.toNat ∧ byte.toNat ≤ pending.upper then
      let codePoint := pending.codePoint * 64 + byte.toNat % 64
      if pending.needed = 1 then Char.ofNat codePoint :: decode none bytes
      else decode (some { needed := pending.needed - 1, codePoint }) bytes
    else
      replacement :: match begin byte.toNat with
        | .inl c => c :: decode none bytes
        | .inr pending => decode (some pending) bytes

def encode (text : List Char) : List UInt8 := text.flatMap String.utf8EncodeChar

/-! ## The bytes of a character -/

theorem decode_begin {byte : UInt8} {pending : Pending} (h : begin byte.toNat = .inr pending)
    (bytes : List UInt8) : decode none (byte :: bytes) = decode (some pending) bytes := by
  rw [decode, h]

theorem decode_last {byte : UInt8} {codePoint lower upper : Nat}
    (hlower : lower ≤ byte.toNat) (hupper : byte.toNat ≤ upper) (bytes : List UInt8) :
    decode (some { needed := 1, codePoint, lower, upper }) (byte :: bytes) =
      Char.ofNat (codePoint * 64 + byte.toNat % 64) :: decode none bytes := by
  rw [decode, if_pos ⟨hlower, hupper⟩]
  rfl

theorem decode_continue {byte : UInt8} {needed codePoint lower upper : Nat}
    (hneeded : needed ≠ 0) (hlower : lower ≤ byte.toNat) (hupper : byte.toNat ≤ upper)
    (bytes : List UInt8) :
    decode (some { needed := needed + 1, codePoint, lower, upper }) (byte :: bytes) =
      decode (some { needed, codePoint := codePoint * 64 + byte.toNat % 64 }) bytes := by
  rw [decode, if_pos ⟨hlower, hupper⟩]
  simp [hneeded]

theorem toNat_ofNat {n : Nat} (h : n < 256) : (UInt8.ofNat n).toNat = n := by
  simpa using h

/-- A continuation byte carries six bits. -/
theorem toNat_continuation (n : Nat) : (UInt8.ofNat (n % 64 + 128)).toNat = n % 64 + 128 :=
  toNat_ofNat (by omega)

section Character

variable {v : Nat} (rest : List UInt8)

theorem decode_one (h : v ≤ 0x7f) :
    decode none (UInt8.ofNat v :: rest) = Char.ofNat v :: decode none rest := by
  have hbyte : (UInt8.ofNat v).toNat = v := toNat_ofNat (by omega)
  rw [decode, begin, hbyte, if_pos h]

theorem decode_two (hlow : 0x7f < v) (hhigh : v ≤ 0x7ff) :
    decode none (UInt8.ofNat (v / 64 % 32 + 192) :: UInt8.ofNat (v % 64 + 128) :: rest) =
      Char.ofNat v :: decode none rest := by
  have hfirst : (UInt8.ofNat (v / 64 % 32 + 192)).toNat = v / 64 + 192 := by
    rw [toNat_ofNat (by omega)]
    omega
  have hbegin : begin (v / 64 + 192) = .inr { needed := 1, codePoint := v / 64 } := by
    rw [begin, if_neg (by omega), if_neg (by omega), if_pos (by omega)]
    congr 2
    omega
  have hlast := toNat_continuation v
  have hvalue : v / 64 * 64 + (v % 64 + 128) % 64 = v := by omega
  rw [decode_begin (by rw [hfirst, hbegin]), decode_last (by omega) (by omega), hlast, hvalue]

theorem decode_three (hlow : 0x7ff < v) (hhigh : v ≤ 0xffff) (hvalid : v < 0xd800 ∨ 0xdfff < v) :
    decode none (UInt8.ofNat (v / 4096 % 16 + 224) :: UInt8.ofNat (v / 64 % 64 + 128) ::
        UInt8.ofNat (v % 64 + 128) :: rest) = Char.ofNat v :: decode none rest := by
  have hfirst : (UInt8.ofNat (v / 4096 % 16 + 224)).toNat = v / 4096 + 224 := by
    rw [toNat_ofNat (by omega)]
    omega
  -- the bounds of the second byte leave out overlong forms and surrogates
  have hbegin : begin (v / 4096 + 224) = .inr
      { needed := 2, codePoint := v / 4096
        lower := if v / 4096 + 224 = 0xe0 then 0xa0 else 0x80
        upper := if v / 4096 + 224 = 0xed then 0x9f else 0xbf } := by
    rw [begin, if_neg (by omega), if_neg (by omega), if_neg (by omega), if_pos (by omega)]
    congr 2
    omega
  have hsecond := toNat_continuation (v / 64)
  have hlast := toNat_continuation v
  have hvalue : (v / 4096 * 64 + (v / 64 % 64 + 128) % 64) * 64 + (v % 64 + 128) % 64 = v := by
    omega
  rw [decode_begin (by rw [hfirst, hbegin]),
    decode_continue Nat.one_ne_zero (by split <;> omega) (by split <;> omega),
    decode_last (by omega) (by omega), hsecond, hlast, hvalue]

theorem decode_four (hlow : 0xffff < v) (hhigh : v < 0x110000) :
    decode none (UInt8.ofNat (v / 262144 % 8 + 240) :: UInt8.ofNat (v / 4096 % 64 + 128) ::
        UInt8.ofNat (v / 64 % 64 + 128) :: UInt8.ofNat (v % 64 + 128) :: rest) =
      Char.ofNat v :: decode none rest := by
  have hfirst : (UInt8.ofNat (v / 262144 % 8 + 240)).toNat = v / 262144 + 240 := by
    rw [toNat_ofNat (by omega)]
    omega
  have hbegin : begin (v / 262144 + 240) = .inr
      { needed := 3, codePoint := v / 262144
        lower := if v / 262144 + 240 = 0xf0 then 0x90 else 0x80
        upper := if v / 262144 + 240 = 0xf4 then 0x8f else 0xbf } := by
    rw [begin, if_neg (by omega), if_neg (by omega), if_neg (by omega), if_neg (by omega),
      if_pos (by omega)]
    congr 2
    omega
  have hsecond := toNat_continuation (v / 4096)
  have hthird := toNat_continuation (v / 64)
  have hlast := toNat_continuation v
  have hvalue : ((v / 262144 * 64 + (v / 4096 % 64 + 128) % 64) * 64 +
      (v / 64 % 64 + 128) % 64) * 64 + (v % 64 + 128) % 64 = v := by omega
  rw [decode_begin (by rw [hfirst, hbegin]),
    decode_continue (by omega) (by split <;> omega) (by split <;> omega),
    decode_continue Nat.one_ne_zero (by omega) (by omega), decode_last (by omega) (by omega),
    hsecond, hthird, hlast, hvalue]

end Character

theorem decode_utf8EncodeChar (c : Char) (rest : List UInt8) :
    decode none (String.utf8EncodeChar c ++ rest) = c :: decode none rest := by
  have hvalid : c.val.toNat < 0xd800 ∨ 0xdfff < c.val.toNat ∧ c.val.toNat < 0x110000 := c.valid
  have hchar : Char.ofNat c.val.toNat = c := Char.ofNat_toNat c
  unfold String.utf8EncodeChar
  generalize c.val.toNat = v at hvalid hchar
  subst hchar
  by_cases hone : v ≤ 0x7f
  · rw [if_pos hone]
    exact decode_one rest hone
  rw [if_neg hone]
  by_cases htwo : v ≤ 0x7ff
  · rw [if_pos htwo]
    exact decode_two rest (by omega) htwo
  rw [if_neg htwo]
  by_cases hthree : v ≤ 0xffff
  · rw [if_pos hthree]
    exact decode_three rest (by omega) hthree (by omega)
  · rw [if_neg hthree]
    exact decode_four rest (by omega) (by omega)

theorem decode_encode (text : List Char) : decode none (encode text) = text := by
  induction text with
  | nil => rfl
  | cons c text ih =>
    rw [encode, List.flatMap_cons, decode_utf8EncodeChar]
    exact congrArg (List.cons c) ih

end UserManagedAccess.Lib.Utf8
