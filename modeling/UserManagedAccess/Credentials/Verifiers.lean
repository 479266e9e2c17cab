/-
UserManagedAccess.Credentials.Verifiers — the verifiers around the token
store: `TypedVerifier`, `RefreshTokenVerifier` and `IriVerifier`.

A verifier may answer `undefined`: `RefreshTokenVerifier` does so for a record
that has no claims. `IriVerifier` reads the claims it is given, and throws on
that.
-/
import UserManagedAccess.Dialog.BaseNegotiator
import UserManagedAccess.Tokens.TokenStore
import UserManagedAccess.Util.ConvertUtil

namespace UserManagedAccess.Credentials

open UserManagedAccess.Lib UserManagedAccess.Util UserManagedAccess.Tokens
open UserManagedAccess.Dialog

def REFRESH_TOKEN : String := "urn:ietf:params:oauth:token-type:refresh_token"

/-- `Verifier.verify`. -/
abbrev Verify (τ : Type) := Credential → Async τ HttpError (Option ClaimSet)

/-! ## TypedVerifier and RefreshTokenVerifier -/

namespace TypedVerifier

/-- `verifiers` are the own properties of a plain object. -/
def verify {τ : Type} (verifiers : String → Option (Verify τ)) : Verify τ := fun credential =>
  match verifiers credential.format with
  | some verifier => verifier credential
  | none =>
    if credential.format ∈ inheritedProperties then
      throw (.error "verifier.verify is not a function")
    else throw (.badRequest "The provided \"claim_token_format\" is not supported.")

end TypedVerifier

namespace RefreshTokenVerifier

def verify (services : TokenServices) : Verify TokenState := fun credential =>
  if credential.format ≠ REFRESH_TOKEN then
    throw (.badRequest
      ("Token format " ++ credential.format ++ " does not match this processor's format."))
  else do
    let information ← services.get credential.token
    match information with
    | none => throw (.badRequest ("Unknown refresh token " ++ credential.token ++ "."))
    | some record => do
      let expired ← services.isExpired record
      if expired then do
        TokenServices.delete credential.token
        throw (.forbidden ("Expired refresh token " ++ credential.token))
      else return record.claims

end RefreshTokenVerifier

/-! ## IriVerifier -/

/-- The characters `encodeURIComponent` leaves alone. -/
def isUnreserved (c : Char) : Bool :=
  isAsciiLetter c || c.isDigit || ['-', '_', '.', '!', '~', '*', '\'', '(', ')'].contains c

def hexDigit (n : Nat) : Char := (Nat.digitChar n).toUpper

def encodeURIComponent (text : String) : String :=
  String.ofList (text.toList.flatMap fun c =>
    if isUnreserved c then [c]
    else (String.utf8EncodeChar c).flatMap fun byte =>
      ['%', hexDigit (byte.toNat / 16), hexDigit (byte.toNat % 16)])

/-- The base URL, and how a path is joined to it: the result is an IRI. -/
structure IriBase where
  baseUrl : String
  joinUrl : String → String → String
  isIri_joinUrl : ∀ entry, isIri (joinUrl baseUrl (encodeURIComponent entry)) = true

theorem isWhitespace_hexDigit {n : Nat} (h : n < 16) : isWhitespace (hexDigit n) = false := by
  have hall : ∀ n < 16, isWhitespace (hexDigit n) = false := by decide
  exact hall n h

theorem isWhitespace_of_unreserved {c : Char} (h : isUnreserved c = true) :
    isWhitespace c = false := by
  have hrange : 0x21 ≤ c.toNat ∧ c.toNat ≤ 0x7e := by
    simp only [isUnreserved, isAsciiLetter, Bool.or_eq_true] at h
    rcases h with ((h | h) | h) | h
    · obtain ⟨hfirst, hlast⟩ := Bool.and_eq_true_iff.mp h
      have hlow : 97 ≤ c.toNat := UInt32.le_iff_toNat_le.mp (of_decide_eq_true hfirst)
      have hhigh : c.toNat ≤ 122 := UInt32.le_iff_toNat_le.mp (of_decide_eq_true hlast)
      omega
    · obtain ⟨hfirst, hlast⟩ : c.val ≥ 'A'.val ∧ c.val ≤ 'Z'.val := of_decide_eq_true h
      have hlow : 65 ≤ c.toNat := UInt32.le_iff_toNat_le.mp hfirst
      have hhigh : c.toNat ≤ 90 := UInt32.le_iff_toNat_le.mp hlast
      omega
    · obtain ⟨hfirst, hlast⟩ := Bool.and_eq_true_iff.mp h
      have hlow : 48 ≤ c.toNat := UInt32.le_iff_toNat_le.mp (of_decide_eq_true hfirst)
      have hhigh : c.toNat ≤ 57 := UInt32.le_iff_toNat_le.mp (of_decide_eq_true hlast)
      omega
    · have hall : ['-', '_', '.', '!', '~', '*', '\'', '(', ')'].all
          (fun d => 0x21 ≤ d.toNat && d.toNat ≤ 0x7e) = true := by decide
      have hc := List.all_eq_true.mp hall c (List.contains_iff_mem.mp h)
      simpa using hc
  have hmem : ∀ n, 0x21 ≤ n → n ≤ 0x7e → ([0x9, 0xa, 0xb, 0xc, 0xd, 0x20, 0xa0, 0x1680, 0x2028,
    0x2029, 0x202f, 0x205f, 0x3000, 0xfeff].contains n || (0x2000 ≤ n && n ≤ 0x200a)) = false := by
    intro n hlow hhigh
    simp
    omega
  exact hmem c.toNat hrange.1 hrange.2

theorem encodeURIComponent_noWhitespace (text : String) :
    (encodeURIComponent text).toList.all (fun c => !isWhitespace c) = true := by
  rw [encodeURIComponent, String.toList_ofList, List.all_flatMap, List.all_eq_true]
  intro c _
  by_cases hc : isUnreserved c = true
  · simp [hc, isWhitespace_of_unreserved hc]
  · simp only [hc]
    rw [if_neg (by simp), List.all_flatMap, List.all_eq_true]
    intro byte _
    have hbyte : byte.toNat < 256 := byte.toNat_lt
    have hhigh : isWhitespace (hexDigit (byte.toNat / 16)) = false :=
      isWhitespace_hexDigit (by omega)
    have hlow : isWhitespace (hexDigit (byte.toNat % 16)) = false :=
      isWhitespace_hexDigit (by omega)
    have hpercent : isWhitespace '%' = false := by decide
    simp [hhigh, hlow, hpercent]

theorem isIri_of_scheme {input : String} {c : Char} {scheme rest : List Char}
    (hinput : input.toList = c :: (scheme ++ ':' :: rest)) (hc : isAsciiLetter c = true)
    (hscheme : ∀ d ∈ scheme, isSchemeChar d = true)
    (hrest : rest.all (fun d => !isWhitespace d) = true) : isIri input = true := by
  have hcolon : isSchemeChar ':' = false := by decide
  have hdrop : (scheme ++ ':' :: rest).dropWhile isSchemeChar = ':' :: rest := by
    rw [List.dropWhile_append_of_pos hscheme, List.dropWhile_cons_of_neg (by simp [hcolon])]
  simp only [isIri, hinput, hdrop, hc, hrest, Bool.and_self]

/-- A base to which paths are appended. -/
def IriBase.plain : IriBase where
  baseUrl := "http://example.com/id/"
  joinUrl baseUrl path := baseUrl ++ path
  isIri_joinUrl entry := by
    have hsplit : ("http://example.com/id/" ++ encodeURIComponent entry).toList =
        'h' :: (['t', 't', 'p'] ++
          ':' :: ("//example.com/id/".toList ++ (encodeURIComponent entry).toList)) := by
      rw [String.toList_append]
      rfl
    refine isIri_of_scheme hsplit (by decide) (List.all_eq_true.mp (by decide)) ?_
    rw [List.all_append, encodeURIComponent_noWhitespace]
    decide

namespace IriVerifier

variable (base : IriBase)

def toIri (entry : Json) : Json :=
  match entry with
  | .string text =>
    if isIri text then entry else .string (base.joinUrl base.baseUrl (encodeURIComponent text))
  | _ => entry

/-- One round of the loop over the two claim types. -/
def convertType (claims result : ClaimSet) (claimType original : String) : ClaimSet :=
  match claims.get claimType with
  | some entries => (result.set original entries).set claimType (entries.map (toIri base))
  | none => result

def convert (claims : ClaimSet) : ClaimSet :=
  convertType base claims (convertType base claims claims WEBID ORIGINAL_WEBID)
    CLIENTID ORIGINAL_CLIENTID

def verify {τ : Type} (verifier : Verify τ) (credential : Credential) :
    Async τ HttpError ClaimSet := do
  let claims ← verifier credential
  Async.yield
  match claims with
  | none => throw (.error ("Cannot read properties of undefined (reading '" ++ WEBID ++ "')"))
  | some claims => return convert base claims

end IriVerifier

end UserManagedAccess.Credentials
