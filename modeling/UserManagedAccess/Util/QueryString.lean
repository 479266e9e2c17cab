/-
UserManagedAccess.Util.QueryString — the reading of escaped texts by
`querystring` of Node.

A text without an escaped byte is taken as it is. Where the escaped bytes are
not UTF-8 the text is read byte by byte, and only the low half of every other
unit is kept.

* `unescape_encodeURIComponent` — what was encoded is read back.
-/
import UserManagedAccess.Credentials.UriComponents
import UserManagedAccess.Util.Forms

namespace UserManagedAccess.Util.QueryString

open UserManagedAccess.Lib UserManagedAccess.Util UserManagedAccess.Credentials

/-- The low bytes of the UTF-16 units of a character. -/
def lowBytes (c : Char) : List UInt8 :=
  if c.toNat < 0x10000 then [UInt8.ofNat c.toNat]
  else [UInt8.ofNat ((c.toNat - 0x10000) / 0x400), UInt8.ofNat ((c.toNat - 0x10000) % 0x400)]

def unescapeBuffer : List Char → List UInt8
  | '%' :: high :: low :: text =>
    match hexValue high, hexValue low with
    | some high, some low => UInt8.ofNat (high * 16 + low) :: unescapeBuffer text
    | _, _ => UInt8.ofNat '%'.toNat :: unescapeBuffer (high :: low :: text)
  | c :: text => lowBytes c ++ unescapeBuffer text
  | [] => []

/-- Whether there is an escaped byte. -/
def hasEscape : List Char → Bool
  | [] => false
  | c :: text => (readByte (c :: text)).isSome || hasEscape text

def unescape (text : String) : String :=
  let spaced := text.toList.map fun c => if c = '+' then ' ' else c
  if hasEscape spaced then
    match decodeURIComponent (String.ofList spaced) with
    | .ok decoded => decoded
    | .error _ => String.ofList (Utf8.decode none (unescapeBuffer spaced))
  else String.ofList spaced

theorem hasEscape_plain {text : List Char} (h : '%' ∉ text) : hasEscape text = false := by
  induction text with
  | nil => rfl
  | cons c text ih =>
    rw [List.mem_cons, not_or] at h
    have hread : readByte (c :: text) = none := by
      unfold readByte
      split
      · rename_i heq
        injection heq with hc
        exact absurd hc.symm h.1
      · rfl
    rw [hasEscape, hread, ih h.2]
    rfl

theorem spaced_eq {text : List Char} (h : '+' ∉ text) :
    (text.map fun c => if c = '+' then ' ' else c) = text := by
  refine (List.map_congr_left fun c hc => ?_).trans (List.map_id text)
  exact if_neg fun heq : c = '+' => h (heq ▸ hc)

theorem unescape_plain (text : String) (h : ∀ c ∈ text.toList, c ≠ '%' ∧ c ≠ '+') :
    unescape text = text := by
  unfold unescape
  rw [spaced_eq fun hmem => (h _ hmem).2 rfl]
  dsimp only
  rw [hasEscape_plain fun hmem => (h _ hmem).1 rfl, if_neg Bool.false_ne_true,
    String.ofList_toList]

/-- Encoding a text either leaves it as it is or escapes some byte. -/
theorem flatMap_uriCode_eq {text : List Char} (h : hasEscape (text.flatMap uriCode) = false) :
    text.flatMap uriCode = text := by
  induction text with
  | nil => rfl
  | cons c text ih =>
    rw [List.flatMap_cons] at h ⊢
    by_cases hc : isUnreserved c = true
    · have hcode : uriCode c = [c] := if_pos hc
      rw [hcode, List.singleton_append] at h ⊢
      rw [hasEscape, Bool.or_eq_false_iff] at h
      rw [ih h.2]
    · obtain ⟨first, bytes, hbytes, -⟩ := sequenceLength_utf8EncodeChar c
      have hread : readByte (uriCode c ++ text.flatMap uriCode) =
          some (first, bytes.flatMap percentByte ++ text.flatMap uriCode) := by
        rw [uriCode, if_neg hc, hbytes, List.flatMap_cons, List.append_assoc,
          readByte_percentByte]
      cases hall : uriCode c ++ text.flatMap uriCode with
      | nil =>
        rw [hall] at hread
        cases hread
      | cons d rest =>
        rw [hall] at h hread
        rw [hasEscape, hread] at h
        cases h

theorem unescape_encodeURIComponent (text : String) : unescape (encodeURIComponent text) = text := by
  have hplus : '+' ∉ (encodeURIComponent text).toList :=
    notMem_encodeURIComponent (by decide) (by decide) (by decide) text
  unfold unescape
  rw [spaced_eq hplus]
  dsimp only
  by_cases hescape : hasEscape (encodeURIComponent text).toList = true
  · rw [if_pos hescape, String.ofList_toList, decodeURIComponent_encodeURIComponent]
  · rw [if_neg hescape, toList_encodeURIComponent]
    rw [toList_encodeURIComponent] at hescape
    rw [flatMap_uriCode_eq (Bool.eq_false_iff.mpr hescape), String.ofList_toList]

/-- The forms of Node. -/
def decoder (toText : Json → String) : FormDecoder where
  unescape
  toText
  unescape_plain

theorem decoder_unescape (toText : Json → String) : (decoder toText).unescape = unescape := rfl

theorem decoder_unescape_encodeURIComponent (toText : Json → String) (text : String) :
    (decoder toText).unescape (encodeURIComponent text) = text := by
  rw [decoder_unescape, unescape_encodeURIComponent]

end UserManagedAccess.Util.QueryString
