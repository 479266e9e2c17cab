/-
UserManagedAccess.Tokens.TokenRoundTrip — what of an access token is read back from
the token that was minted for it.

* `SameToken` — the permissions, the contract, and the subject where it is written;
* `roundTrips_iff` — an opaque token always gives them back, and a JWT exactly if
  there is no contract to be forgotten;
* `spelledServices` — services that sign and verify, for the samples.

The services have to sign the token (`Signs`) and to verify what they have signed.
Token, draws, store and settings of the factory are arbitrary. `sameToken_iff` compares
the payload that is signed with what the factory makes of it again, field by field.
-/
import UserManagedAccess.Tokens.TokenFactories

namespace UserManagedAccess.Tokens

open UserManagedAccess.Lib UserManagedAccess.Util UserManagedAccess.Views

/-! ## The round trip -/

/-- The value of the field `contract`. -/
def AccessToken.contractValue (token : AccessToken) : Json := token.contract.getD .undefined

namespace TokenFactory

/-- The services sign the token. -/
def Signs (draws : MintDraws) (token : AccessToken) : TokenFactory → Prop
  | jwtTokens factory => ∃ key jwk jwt, factory.services.getPrivateKey = .ok key ∧
    factory.services.importJWK key = .ok jwk ∧
      factory.services.sign jwk (factory.payload draws token) = .ok jwt
  | opaqueTokens => True

/-- The factory is one that writes the subject. -/
def WritesSub : TokenFactory → Prop
  | jwtTokens factory => factory.addSub = true
  | opaqueTokens => True

structure SameToken (factory : TokenFactory) (token read : AccessToken) : Prop where
  permissions : read.permissions = token.permissions
  contract : read.contractValue = token.contractValue
  sub : factory.WritesSub → read.sub = token.sub

/-- A token is minted, and read back at the time `now`. -/
def RoundTrips (factory : TokenFactory) (draws : MintDraws) (token : AccessToken)
    (tokenStore : AccessTokenStore) (now : Nat) : Prop :=
  ∃ minted after read, factory.serialize draws token tokenStore = .ok (minted, after) ∧
    factory.deserialize now minted.token after = .ok read ∧ factory.SameToken token read

/-- A JWT is read back without a contract, and an empty subject is not written to it. -/
def Keeps (token : AccessToken) : TokenFactory → Prop
  | jwtTokens factory =>
    token.contractValue = .undefined ∧ (factory.addSub = true → token.sub ≠ some "")
  | opaqueTokens => True

end TokenFactory

/-! ## The subject of a JWT -/

namespace JwtTokenFactory

variable {factory : JwtTokenFactory} {draws : MintDraws} {token : AccessToken}

theorem subject_payload (haddSub : factory.addSub = true) :
    (factory.payload draws token).subject.asString? = token.sub.filter (· ≠ "") := by
  unfold payload
  rw [haddSub]
  cases hsub : token.sub.filter (· ≠ "") with
  | none => rfl
  | some sub => rfl

theorem filter_nonempty {sub : Option String} : sub.filter (· ≠ "") = sub ↔ sub ≠ some "" := by
  cases sub with
  | none => simp
  | some sub =>
    by_cases hempty : sub = ""
    · simp [hempty]
    · simp [hempty]

theorem serialize_ok (h : (TokenFactory.jwtTokens factory).Signs draws token)
    (tokenStore : AccessTokenStore) :
    ∃ minted after, factory.serialize draws token tokenStore = .ok (minted, after) := by
  obtain ⟨key, jwk, jwt, hkey, hjwk, hsign⟩ := h
  refine ⟨{ tokenType := "Bearer", token := jwt }, tokenStore.set jwt token, ?_⟩
  refine Except.bind_eq_ok.mpr ⟨key, hkey, Except.bind_eq_ok.mpr ⟨jwk, hjwk, ?_⟩⟩
  exact Except.bind_eq_ok.mpr ⟨jwt, hsign, rfl⟩

/-- What a JWT is read back as, compared with what was signed. -/
theorem sameToken_iff (factory : JwtTokenFactory) (draws : MintDraws) (token : AccessToken) :
    (TokenFactory.jwtTokens factory).SameToken token
        { permissions := token.permissions
          sub := (factory.payload draws token).subject.asString? } ↔
      (TokenFactory.jwtTokens factory).Keeps token := by
  constructor
  · intro h
    refine ⟨h.contract.symm, fun haddSub => ?_⟩
    have hsub : (factory.payload draws token).subject.asString? = token.sub := h.sub haddSub
    rw [subject_payload haddSub] at hsub
    exact filter_nonempty.mp hsub
  · intro ⟨hcontract, hsub⟩
    refine ⟨rfl, hcontract.symm, fun haddSub => ?_⟩
    rw [subject_payload haddSub]
    exact filter_nonempty.mpr (hsub haddSub)

end JwtTokenFactory

/-! ## Both factories -/

namespace TokenFactory

/-- Whatever the token: where the services sign it and verify what they have signed,
deserializing it before it expires gives it back if and only if the factory keeps it. -/
theorem roundTrips_iff (factory : TokenFactory) (draws : MintDraws) (token : AccessToken)
    (tokenStore : AccessTokenStore) (now : Nat) (hsigns : factory.Signs draws token)
    (hown : factory.VerifiesOwn) (hnow : factory.Unexpired draws.now now) :
    factory.RoundTrips draws token tokenStore now ↔ factory.Keeps token := by
  cases factory with
  | jwtTokens factory =>
    obtain ⟨minted, after, hminted⟩ := JwtTokenFactory.serialize_ok hsigns tokenStore
    have hread := JwtTokenFactory.deserialize_serialize hown hminted hnow
    rw [← JwtTokenFactory.sameToken_iff factory draws token]
    constructor
    · intro ⟨minted', after', read, hminted', hread', hsame⟩
      obtain ⟨rfl, rfl⟩ := Prod.mk.inj (Except.ok.inj (hminted.symm.trans hminted'))
      obtain rfl := Except.ok.inj (hread.symm.trans hread')
      exact hsame
    · exact fun hsame => ⟨minted, after, _, hminted, hread, hsame⟩
  | opaqueTokens =>
    refine ⟨fun _ => trivial, fun _ => ⟨_, _, token, rfl, ?_, rfl, rfl, fun _ => rfl⟩⟩
    have hget : (tokenStore.set draws.randomUUID token).get draws.randomUUID = some token := by
      rw [KeyValueStorage.get_set, if_pos rfl]
    simp only [deserialize, OpaqueTokenFactory.deserialize, hget]

end TokenFactory

/-! ### Samples -/

/-- Services with one key, which write a payload as a list of permissions: the first
one is not one of them, but has the other claims. -/
def spelledServices : JwtServices where
  getPrivateKey := .ok { alg := "ES256", kid := "1", key := "private" }
  getPublicKey := .ok { alg := "ES256", kid := "1", key := "public" }
  importJWK := .ok
  sign _ payload :=
    let claims : Permission :=
      { resourceId := payload.issuer
        resourceScopes := payload.audience ::
          String.ofList (List.replicate payload.expirationTime '.') ::
          payload.subject.asString?.toList }
    .ok (TokenCodec.spelled.serialize
      { permissions := claims :: permissionsOfJson payload.permissions }).token
  jwtVerify _ token issuer audience now :=
    match (TokenCodec.spelled.deserialize token).map AccessToken.permissions with
    | some ({ resourceId, resourceScopes := aud :: exp :: sub } :: permissions) =>
      if resourceId = issuer ∧ aud = audience ∧ now < exp.length then
        .ok {
          permissions := .array (permissions.map Permission.toJson)
          subject := (sub.head?.map Json.string).getD .undefined
          issuer
          audience
          issuedAt := 0
          expirationTime := exp.length
          jti := "" }
      else .error "unexpected claim value"
    | _ => .error "Invalid Compact JWS"

def sampleFactory (addSub : Bool) : JwtTokenFactory where
  services := spelledServices
  issuer := "https://as.example.com/uma"
  expirationTime := 1800
  audience := "solid"
  addSub

/-- The subject of a payload is a string, or there is none. -/
theorem subject_eq (factory : JwtTokenFactory) (draws : MintDraws) (token : AccessToken) :
    ((factory.payload draws token).subject.asString?.map Json.string).getD .undefined =
      (factory.payload draws token).subject := by
  unfold JwtTokenFactory.payload
  dsimp only
  split <;> rfl

theorem verifiesOwn_sampleFactory (addSub : Bool) : (sampleFactory addSub).VerifiesOwn := by
  refine ⟨⟨_, _, rfl, rfl⟩, ?_⟩
  intro privateKey privateJwk publicKey publicJwk draws token jwt now _ _ _ _ hsign hnow
  have hjwt := Except.ok.inj hsign
  have hpermissions : permissionsOfJson ((sampleFactory addSub).payload draws token).permissions =
      token.permissions := (permissions_accepted token.permissions).2
  rw [hpermissions] at hjwt
  have hread := TokenCodec.spelled.permissions_deserialize
    { permissions :=
        { resourceId := ((sampleFactory addSub).payload draws token).issuer
          resourceScopes := ((sampleFactory addSub).payload draws token).audience ::
            String.ofList (List.replicate
              ((sampleFactory addSub).payload draws token).expirationTime '.') ::
              ((sampleFactory addSub).payload draws token).subject.asString?.toList } ::
          token.permissions }
  rw [hjwt] at hread
  have hexpired : now < (String.ofList (List.replicate
      ((sampleFactory addSub).payload draws token).expirationTime '.')).length := by
    simpa using hnow
  have hverified : (sampleFactory addSub).services.jwtVerify publicJwk jwt
      (sampleFactory addSub).issuer (sampleFactory addSub).audience now = .ok {
        permissions := .array (token.permissions.map Permission.toJson)
        subject := (((sampleFactory addSub).payload draws token).subject.asString?.toList.head?.map
          Json.string).getD .undefined
        issuer := (sampleFactory addSub).issuer
        audience := (sampleFactory addSub).audience
        issuedAt := 0
        expirationTime := (String.ofList (List.replicate
          ((sampleFactory addSub).payload draws token).expirationTime '.')).length
        jti := "" } := by
    show spelledServices.jwtVerify _ _ _ _ _ = _
    simp only [spelledServices, hread]
    exact if_pos ⟨rfl, rfl, hexpired⟩
  refine ⟨_, hverified, rfl, ?_⟩
  rw [Option.head?_toList]
  exact subject_eq _ draws token

/-- Alice may read the document. -/
def sampleToken : AccessToken where
  permissions := [{ resourceId := "https://pod.example.com/doc", resourceScopes := ["urn:read"] }]
  sub := some "https://alice.example.com/"

def sampleContract : Json := .object [("uid", .string "urn:contract"), ("permission", .array [])]

def sampleDraws : MintDraws where
  now := 10
  randomUUID := "uuid"

theorem signs_sampleFactory (addSub : Bool) (draws : MintDraws) (token : AccessToken) :
    (TokenFactory.jwtTokens (sampleFactory addSub)).Signs draws token :=
  ⟨_, _, _, rfl, rfl, rfl⟩

/-- Without a contract, with its subject. -/
theorem sampleToken_roundTrips :
    (TokenFactory.jwtTokens (sampleFactory true)).RoundTrips sampleDraws sampleToken
      KeyValueStorage.empty 1000 :=
  (TokenFactory.roundTrips_iff (.jwtTokens (sampleFactory true)) sampleDraws sampleToken
    KeyValueStorage.empty 1000 (signs_sampleFactory true sampleDraws sampleToken)
    (verifiesOwn_sampleFactory true) (by decide : 1000 < 10 + 1800)).mpr ⟨rfl, by decide⟩

/-- The contract is signed, but it is not read back. -/
theorem contract_forgotten :
    (TokenFactory.jwtTokens (sampleFactory true)).Signs sampleDraws
        { sampleToken with contract := some sampleContract } ∧
      (sampleFactory true).VerifiesOwn ∧
      (TokenFactory.jwtTokens (sampleFactory true)).Unexpired sampleDraws.now 1000 ∧
      ((sampleFactory true).payload sampleDraws
        { sampleToken with contract := some sampleContract }).contract = sampleContract ∧
      ODRLContract sampleContract = .ok () ∧
      ¬ (TokenFactory.jwtTokens (sampleFactory true)).RoundTrips sampleDraws
        { sampleToken with contract := some sampleContract } KeyValueStorage.empty 1000 := by
  refine ⟨signs_sampleFactory true _ _, verifiesOwn_sampleFactory true,
    (by decide : 1000 < 10 + 1800), rfl, ?_, ?_⟩
  · rfl
  · intro ⟨minted, after, read, hminted, hread, hsame⟩
    have hforgotten := (JwtTokenFactory.deserialize_serialize (verifiesOwn_sampleFactory true)
      hminted (by decide)).symm.trans hread
    have hcontract : read.contractValue = .undefined := by
      rw [← Except.ok.inj hforgotten]
      rfl
    have hsigned : read.contractValue = sampleContract := hsame.contract
    rw [hsigned] at hcontract
    cases hcontract

end UserManagedAccess.Tokens
