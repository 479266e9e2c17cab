/-
UserManagedAccess.Lib.Base64 — bytes as base64 text.

A reader takes both alphabets, skips what is in neither, and stops at the
padding.
-/
import Mathlib.Data.List.Basic

namespace UserManagedAccess.Lib.Base64

def alphabet : List Char :=
  "ABCDEFGHIJKLMNOPQRSTUVWXYZabcdefghijklmnopqrstuvwxyz0123456789+/".toList

def digit (n : Nat) : Char := alphabet.getD n '='

/-- Also that of URLs. -/
def value (c : Char) : Option Nat :=
  if c = '-' then some 62
  else if c = '_' then some 63
  else alphabet.idxOf? c

def encode : List UInt8 → List Char
  | [] => []
  | [a] => [digit (a.toNat / 4), digit (a.toNat % 4 * 16), '=', '=']
  | [a, b] => [digit (a.toNat / 4), digit (a.toNat % 4 * 16 + b.toNat / 16),
      digit (b.toNat % 16 * 4), '=']
  | a :: b :: c :: bytes =>
    digit (a.toNat / 4) :: digit (a.toNat % 4 * 16 + b.toNat / 16) ::
      digit (b.toNat % 16 * 4 + c.toNat / 64) :: digit (c.toNat % 64) :: encode bytes

/-- The bytes in groups of six bits. Less than a byte is dropped. -/
def collect : List Nat → List UInt8
  | a :: b :: c :: d :: values =>
    UInt8.ofNat (a * 4 + b / 16) :: UInt8.ofNat (b % 16 * 16 + c / 4) ::
      UInt8.ofNat (c % 4 * 64 + d) :: collect values
  | [a, b, c] => [UInt8.ofNat (a * 4 + b / 16), UInt8.ofNat (b % 16 * 16 + c / 4)]
  | [a, b] => [UInt8.ofNat (a * 4 + b / 16)]
  | _ => []

/-- The values of a text up to its padding. -/
def values (text : List Char) : List Nat := (text.takeWhile (· ≠ '=')).filterMap value

def decode (text : List Char) : List UInt8 := collect (values text)

/-! ## The round trip -/

theorem digit_ne_padding {n : Nat} (h : n < 64) : digit n ≠ '=' := by
  have hall : ∀ n < 64, digit n ≠ '=' := by decide +kernel
  exact hall n h

theorem value_digit {n : Nat} (h : n < 64) : value (digit n) = some n := by
  have hall : ∀ n < 64, value (digit n) = some n := by decide +kernel
  exact hall n h

theorem values_digit {n : Nat} (h : n < 64) (text : List Char) :
    values (digit n :: text) = n :: values text := by
  have hdigit : decide (digit n ≠ '=') = true := decide_eq_true (digit_ne_padding h)
  rw [values, List.takeWhile_cons, hdigit, if_pos rfl, List.filterMap_cons, value_digit h]
  rfl

theorem values_padding (text : List Char) : values ('=' :: text) = [] := rfl

theorem ofNat_eq {n : Nat} (byte : UInt8) (h : n = byte.toNat) : UInt8.ofNat n = byte := by
  rw [h, UInt8.ofNat_toNat]

theorem decode_encode (bytes : List UInt8) : decode (encode bytes) = bytes := by
  unfold decode
  induction bytes using encode.induct with
  | case1 => rfl
  | case2 a =>
    have ha := a.toNat_lt
    rw [encode, values_digit (by omega), values_digit (by omega), values_padding, collect]
    rw [ofNat_eq a (by omega)]
  | case3 a b =>
    have ha := a.toNat_lt
    have hb := b.toNat_lt
    rw [encode, values_digit (by omega), values_digit (by omega), values_digit (by omega),
      values_padding, collect]
    rw [ofNat_eq a (by omega), ofNat_eq b (by omega)]
  | case4 a b c bytes ih =>
    have ha := a.toNat_lt
    have hb := b.toNat_lt
    have hc := c.toNat_lt
    rw [encode, values_digit (by omega), values_digit (by omega), values_digit (by omega),
      values_digit (by omega), collect, ih]
    rw [ofNat_eq a (by omega), ofNat_eq b (by omega), ofNat_eq c (by omega)]

/-- What is written contains no other characters. -/
theorem mem_encode {bytes : List UInt8} {c : Char} (h : c ∈ encode bytes) :
    c ∈ alphabet ∨ c = '=' := by
  have hdigit : ∀ n, digit n ∈ alphabet ∨ digit n = '=' := by
    intro n
    rw [digit, List.getD_eq_getElem?_getD]
    cases hn : alphabet[n]? with
    | none => exact Or.inr rfl
    | some d => exact Or.inl (List.mem_of_getElem? hn)
  induction bytes using encode.induct with
  | case1 => cases h
  | case2 a =>
    simp only [encode, List.mem_cons, List.not_mem_nil, or_false] at h
    rcases h with rfl | rfl | rfl | rfl
    · exact hdigit _
    · exact hdigit _
    · exact Or.inr rfl
    · exact Or.inr rfl
  | case3 a b =>
    simp only [encode, List.mem_cons, List.not_mem_nil, or_false] at h
    rcases h with rfl | rfl | rfl | rfl
    · exact hdigit _
    · exact hdigit _
    · exact hdigit _
    · exact Or.inr rfl
  | case4 a b d bytes ih =>
    simp only [encode, List.mem_cons] at h
    rcases h with rfl | rfl | rfl | rfl | h
    · exact hdigit _
    · exact hdigit _
    · exact hdigit _
    · exact hdigit _
    · exact ih h

end UserManagedAccess.Lib.Base64
