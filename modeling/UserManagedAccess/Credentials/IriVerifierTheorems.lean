/-
UserManagedAccess.Credentials.IriVerifierTheorems — which users and clients
`IriVerifier` gives one name.

* `encodeURIComponent_inj` — different texts are encoded differently: the
  characters are told apart by what they are encoded as (`uriCode_prefixCode`);
* `toIri_eq_iff` — two values become one where one of them is the IRI that is
  made of the other, which is passed on as it is;
* `mapped_eq_iff` — the same of the values a verifier delivers.
-/
import UserManagedAccess.Credentials.IdentityClaims
import UserManagedAccess.Lib.PrefixCode

namespace UserManagedAccess.Credentials

open UserManagedAccess.Lib UserManagedAccess.Util UserManagedAccess.Tokens
open UserManagedAccess.Dialog

/-! ## The encoding -/

def percentByte (byte : UInt8) : List Char :=
  ['%', hexDigit (byte.toNat / 16), hexDigit (byte.toNat % 16)]

/-- What one character is encoded as. -/
def uriCode (c : Char) : List Char :=
  if isUnreserved c then [c] else (String.utf8EncodeChar c).flatMap percentByte

theorem toList_encodeURIComponent (text : String) :
    (encodeURIComponent text).toList = text.toList.flatMap uriCode := String.toList_ofList

theorem hexDigit_inj {m n : Nat} (hm : m < 16) (hn : n < 16) (h : hexDigit m = hexDigit n) :
    m = n := by
  have hall : ∀ m < 16, ∀ n < 16, hexDigit m = hexDigit n → m = n := by decide
  exact hall m hm n hn h

theorem percentByte_prefixCode : PrefixCode percentByte := by
  have hlength : ∀ byte, (percentByte byte).length = 3 := fun byte => rfl
  refine PrefixCode.of_length (by decide : 0 < 3) hlength fun byte byte' h => ?_
  have hbyte : byte.toNat < 256 := byte.toNat_lt
  have hbyte' : byte'.toNat < 256 := byte'.toNat_lt
  injection h with _ h
  injection h with hhigh h
  injection h with hlow _
  have hhigh := hexDigit_inj (by omega) (by omega) hhigh
  have hlow := hexDigit_inj (by omega) (by omega) hlow
  exact UInt8.toNat_inj.mp (by omega)

theorem utf8EncodeChar_prefixCode : PrefixCode String.utf8EncodeChar := by
  refine PrefixCode.of_decode (fun bytes => bytes.toByteArray.utf8DecodeChar? 0)
    (fun c hnil => ?_) fun c s => ?_
  · have hlength := String.length_utf8EncodeChar c
    have hpos := c.utf8Size_pos
    rw [hnil, List.length_nil] at hlength
    omega
  · rw [List.toByteArray_append]
    exact ByteArray.utf8DecodeChar?_utf8EncodeChar_append

theorem uriCode_prefixCode : PrefixCode uriCode := by
  refine PrefixCode.choose (fun {c d s t} _ _ h => ?_) (fun c => List.cons_ne_nil c [])
    (utf8EncodeChar_prefixCode.comp percentByte_prefixCode) fun {c d s t} hc h => ?_
  · injection h
  · -- What is encoded begins with a percent sign, which is itself not left alone.
    cases hbytes : String.utf8EncodeChar d with
    | nil => exact utf8EncodeChar_prefixCode.nonempty d hbytes
    | cons byte bytes =>
      rw [hbytes] at h
      injection h with hpercent _
      rw [hpercent] at hc
      exact absurd hc (by decide)

theorem encodeURIComponent_inj {text text' : String} :
    encodeURIComponent text = encodeURIComponent text' ↔ text = text' := by
  rw [← String.toList_inj, toList_encodeURIComponent, toList_encodeURIComponent,
    uriCode_prefixCode.flatMap_inj, String.toList_inj]

theorem encodeURIComponent_eq_empty {text : String} :
    encodeURIComponent text = "" ↔ text = "" :=
  @encodeURIComponent_inj text ""

/-! ## IRIs that are made of values -/

/-- How a path is joined to the base URL: what is encoded is put behind a root,
a slash being added where there is none, and without a path nothing is added. -/
structure IriBase.Appends (base : IriBase) (root : String) : Prop where
  join : ∀ text, text ≠ "" →
    base.joinUrl base.baseUrl (encodeURIComponent text) = root ++ encodeURIComponent text
  join_empty : (base.joinUrl base.baseUrl "").length ≤ root.length

theorem IriBase.plain_appends : IriBase.plain.Appends "http://example.com/id/" where
  join _ _ := rfl
  join_empty := by decide

theorem IriBase.Appends.joinUrl_inj {base : IriBase} {root : String} (h : base.Appends root)
    {text text' : String} :
    base.joinUrl base.baseUrl (encodeURIComponent text) =
      base.joinUrl base.baseUrl (encodeURIComponent text') ↔ text = text' := by
  have hlonger : ∀ {other}, other ≠ "" →
      base.joinUrl base.baseUrl (encodeURIComponent other) ≠
        base.joinUrl base.baseUrl (encodeURIComponent "") := by
    intro other hother heq
    rw [h.join other hother, encodeURIComponent_eq_empty.mpr rfl] at heq
    have hlength := congrArg String.length heq
    have hempty := h.join_empty
    have hpos : (encodeURIComponent other).length ≠ 0 := fun hzero =>
      hother (encodeURIComponent_eq_empty.mp (String.length_eq_zero_iff.mp hzero))
    rw [String.length_append] at hlength
    omega
  constructor
  · intro heq
    by_cases htext : text = ""
    · subst htext
      exact by_contra fun hne => hlonger (Ne.symm hne) heq.symm
    · by_cases htext' : text' = ""
      · subst htext'
        exact absurd heq (hlonger htext)
      · rw [h.join text htext, h.join text' htext', String.append_right_inj] at heq
        exact encodeURIComponent_inj.mp heq
  · exact fun heq => heq ▸ rfl

/-- The value is not an IRI, and this is the IRI that is made of it. -/
def MintedFor (base : IriBase) (entry iri : Json) : Prop :=
  ∃ text, entry = .string text ∧ isIri text = false ∧
    iri = .string (base.joinUrl base.baseUrl (encodeURIComponent text))

namespace IriVerifier

variable {base : IriBase}

/-- A value is passed on, or an IRI is made of it. -/
theorem toIri_cases (base : IriBase) (entry : Json) :
    toIri base entry = entry ∨ MintedFor base entry (toIri base entry) := by
  cases entry with
  | string text =>
    by_cases hiri : isIri text = true
    · exact Or.inl (if_pos hiri)
    · exact Or.inr ⟨text, rfl, Bool.eq_false_iff.mpr hiri, if_neg hiri⟩
  | _ => exact Or.inl rfl

theorem toIri_of_minted {entry iri : Json} (h : MintedFor base entry iri) :
    toIri base entry = iri ∧ toIri base iri = iri := by
  obtain ⟨text, rfl, hiri, rfl⟩ := h
  constructor
  · simp only [toIri, hiri, Bool.false_eq_true, if_false]
  · simp only [toIri, base.isIri_joinUrl text, if_true]

theorem toIri_eq_iff {root : String} (hroot : base.Appends root) {entry entry' : Json} :
    toIri base entry = toIri base entry' ↔
      entry = entry' ∨ MintedFor base entry entry' ∨ MintedFor base entry' entry := by
  constructor
  · intro heq
    rcases toIri_cases base entry with hself | hminted <;>
      rcases toIri_cases base entry' with hself' | hminted'
    · exact Or.inl (hself.symm.trans (heq.trans hself'))
    · rw [← heq, hself] at hminted'
      exact Or.inr (Or.inr hminted')
    · rw [heq, hself'] at hminted
      exact Or.inr (Or.inl hminted)
    · obtain ⟨text, rfl, -, hiri⟩ := hminted
      obtain ⟨text', rfl, -, hiri'⟩ := hminted'
      rw [hiri, hiri'] at heq
      exact Or.inl (congrArg Json.string (hroot.joinUrl_inj.mp (Json.string.inj heq)))
  · rintro (rfl | hminted | hminted)
    · rfl
    · rw [(toIri_of_minted hminted).1, (toIri_of_minted hminted).2]
    · rw [(toIri_of_minted hminted).1, (toIri_of_minted hminted).2]

/-! ## Values that are delivered -/

/-- In some state, for some credential, the wrapped verifier delivers the value
under this type, and the claims have the other one in its place. -/
def Maps {τ : Type} (base : IriBase) (verifier : Verify τ) (claimType : String)
    (entry claim : Json) : Prop :=
  ∃ (credential : Credential) (state state' : τ) (claims result : ClaimSet) (i : Nat),
    (verifier credential).run state = (.ok (some claims), state') ∧
      (verify base verifier credential).run state = (.ok result, state') ∧
        (claims.values claimType)[i]? = some entry ∧ (result.values claimType)[i]? = some claim

section

variable {τ : Type} {verifier : Verify τ} {credential : Credential} {state state' : τ}
  {claims : ClaimSet}

theorem run_verify (h : (verifier credential).run state = (.ok (some claims), state')) :
    (verify base verifier credential).run state = (.ok (convert base claims), state') := by
  rw [verify, Async.run_bind_of_ok h]
  rfl

theorem values_convert {claimType original : String}
    (htype : (claimType, original) ∈ identityTypes) (claims : ClaimSet) :
    (convert base claims).values claimType = (claims.values claimType).map (toIri base) := by
  rw [ClaimSet.values, ClaimSet.values, (get_convert htype claims).1]
  cases claims.get claimType with
  | none => rfl
  | some entries => rfl

theorem Maps.eq_toIri {claimType original : String}
    (htype : (claimType, original) ∈ identityTypes) {entry claim : Json}
    (h : Maps base verifier claimType entry claim) : claim = toIri base entry := by
  obtain ⟨credential, state, state', claims, result, i, hclaims, hresult, hentry, hclaim⟩ := h
  rw [run_verify hclaims] at hresult
  injection hresult with hresult _
  injection hresult with hresult
  rw [← hresult, values_convert htype, List.getElem?_map, hentry] at hclaim
  exact (Option.some_inj.mp hclaim).symm

/-- Users and clients get one name only where one of them is the IRI that is
made of the other. -/
theorem mapped_eq_iff {root : String} (hroot : base.Appends root) {claimType original : String}
    (htype : (claimType, original) ∈ identityTypes) {entry entry' claim claim' : Json}
    (h : Maps base verifier claimType entry claim)
    (h' : Maps base verifier claimType entry' claim') :
    claim = claim' ↔ entry = entry' ∨ MintedFor base entry entry' ∨ MintedFor base entry' entry := by
  rw [h.eq_toIri htype, h'.eq_toIri htype, toIri_eq_iff hroot]

end

/-! ## A user who picks the IRI of another -/

/-- The token names the user. -/
def tokenVerifier : Verify Unit := fun credential =>
  return some (Dict.empty.set WEBID [.string credential.token])

theorem webId_mem : (WEBID, ORIGINAL_WEBID) ∈ identityTypes := List.mem_cons_self

theorem tokenVerifier_maps (token : String) :
    Maps IriBase.plain tokenVerifier WEBID (.string token)
      (toIri IriBase.plain (.string token)) := by
  refine ⟨⟨token, ""⟩, (), (), Dict.empty.set WEBID [.string token], _, 0, rfl,
    run_verify rfl, rfl, ?_⟩
  rw [values_convert webId_mem]
  rfl

theorem alice_mintedFor :
    MintedFor IriBase.plain (.string "alice") (.string "http://example.com/id/alice") :=
  ⟨"alice", rfl, by decide, congrArg Json.string (by decide)⟩

theorem mapped_eq_iff_alice :
    IriBase.plain.Appends "http://example.com/id/" ∧
      (toIri IriBase.plain (.string "alice") = toIri IriBase.plain (.string "bob") ↔
        Json.string "alice" = .string "bob" ∨
          MintedFor IriBase.plain (.string "alice") (.string "bob") ∨
            MintedFor IriBase.plain (.string "bob") (.string "alice")) :=
  ⟨IriBase.plain_appends, mapped_eq_iff IriBase.plain_appends
    webId_mem (tokenVerifier_maps "alice") (tokenVerifier_maps "bob")⟩

theorem users_get_one_name :
    Json.string "alice" ≠ .string "http://example.com/id/alice" ∧
      ∃ claim, Maps IriBase.plain tokenVerifier WEBID (.string "alice") claim ∧
        Maps IriBase.plain tokenVerifier WEBID (.string "http://example.com/id/alice") claim := by
  refine ⟨fun h => absurd (Json.string.inj h) (by decide),
    toIri IriBase.plain (.string "alice"), tokenVerifier_maps "alice", ?_⟩
  rw [(toIri_of_minted alice_mintedFor).1, ← (toIri_of_minted alice_mintedFor).2]
  exact tokenVerifier_maps "http://example.com/id/alice"

end IriVerifier

end UserManagedAccess.Credentials
