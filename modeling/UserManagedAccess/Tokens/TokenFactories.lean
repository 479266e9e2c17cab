/-
UserManagedAccess.Tokens.TokenFactories — `JwtTokenFactory` and
`OpaqueTokenFactory`.

Both write the tokens they mint to a store; only `OpaqueTokenFactory` reads
them from there again. Times are in seconds.
-/
import UserManagedAccess.Lib.Except
import UserManagedAccess.Tokens.AccessToken
import UserManagedAccess.Util.Forms

namespace UserManagedAccess.Tokens

open UserManagedAccess.Lib UserManagedAccess.Util UserManagedAccess.Views

/-! ## Access tokens as JSON -/

/-- The fields of an access token; one that is absent is left out. -/
def AccessToken.toFields (token : AccessToken) : List (String × Json) :=
  [("permissions", .array (token.permissions.map Permission.toJson))] ++
    (token.sub.map fun sub => ("sub", Json.string sub)).toList ++
    (token.contract.map fun contract => ("contract", contract)).toList

/-! ## What the factories use -/

structure Jwk where
  alg : String
  kid : String
  key : String
  deriving DecidableEq

/-- The claims the server puts in a JWT; an absent one is `undefined`. -/
structure JwtPayload where
  permissions : Json := .undefined
  contract : Json := .undefined
  subject : Json := .undefined
  issuer : String
  audience : String
  issuedAt : Nat
  expirationTime : Nat
  jti : String

/-- The key generator and `jose`. `jwtVerify` is given the issuer, the audience
and the time. -/
structure JwtServices where
  getPrivateKey : Except HttpError Jwk
  getPublicKey : Except HttpError Jwk
  importJWK : Jwk → Except HttpError Jwk
  sign : Jwk → JwtPayload → Except HttpError String
  jwtVerify : Jwk → String → String → String → Nat → Except String JwtPayload

/-- What minting a token draws: the time and a random identifier. -/
structure MintDraws where
  now : Nat
  randomUUID : String

abbrev AccessTokenStore := KeyValueStorage String AccessToken

/-! ## JwtTokenFactory -/

structure JwtTokenFactory where
  services : JwtServices
  issuer : String
  /-- How long a token is valid. -/
  expirationTime : Nat
  audience : String
  addSub : Bool

namespace JwtTokenFactory

variable (factory : JwtTokenFactory)

def payload (draws : MintDraws) (token : AccessToken) : JwtPayload where
  permissions := .array (token.permissions.map Permission.toJson)
  contract := token.contract.getD .undefined
  -- an empty subject is not set
  subject :=
    match factory.addSub, token.sub.filter (· ≠ "") with
    | true, some sub => .string sub
    | _, _ => .undefined
  issuer := factory.issuer
  audience := factory.audience
  issuedAt := draws.now
  expirationTime := draws.now + factory.expirationTime
  jti := draws.randomUUID

def serialize (draws : MintDraws) (token : AccessToken) (tokenStore : AccessTokenStore) :
    Except HttpError (SerializedToken × AccessTokenStore) := do
  let key ← factory.services.getPrivateKey
  let jwk ← factory.services.importJWK key
  let jwt ← factory.services.sign jwk (factory.payload draws token)
  return ({ tokenType := "Bearer", token := jwt }, tokenStore.set jwt token)

/-- The access token in a payload that was verified. -/
def readPayload (payload : JwtPayload) : Except String AccessToken :=
  if !payload.permissions.isTruthy then .error "missing required \"permissions\" claim."
  else do
    ReType.array Permission.assertion payload.permissions
    return {
      permissions := permissionsOfJson payload.permissions
      sub := payload.subject.asString? }

def deserialize (now : Nat) (token : String) : Except HttpError AccessToken := do
  let key ← factory.services.getPublicKey
  let jwk ← factory.services.importJWK key
  let result := (factory.services.jwtVerify jwk token factory.issuer factory.audience now).bind
    readPayload
  match result with
  | .error message => throw (.badRequest
      ("Invalid Access Token provided, error while parsing: " ++ message))
  | .ok token => return token

/-- The services accept the tokens the factory has signed until they expire,
and give back what was signed. -/
structure VerifiesOwn : Prop where
  publicKey : ∃ key jwk, factory.services.getPublicKey = .ok key ∧
    factory.services.importJWK key = .ok jwk
  verifies : ∀ privateKey privateJwk publicKey publicJwk draws token jwt now,
    factory.services.getPrivateKey = .ok privateKey →
    factory.services.importJWK privateKey = .ok privateJwk →
    factory.services.getPublicKey = .ok publicKey →
    factory.services.importJWK publicKey = .ok publicJwk →
    factory.services.sign privateJwk (factory.payload draws token) = .ok jwt →
    now < (factory.payload draws token).expirationTime →
    ∃ verified,
      factory.services.jwtVerify publicJwk jwt factory.issuer factory.audience now =
        .ok verified ∧
      verified.permissions = (factory.payload draws token).permissions ∧
      verified.subject = (factory.payload draws token).subject

end JwtTokenFactory

/-! ## OpaqueTokenFactory -/

namespace OpaqueTokenFactory

def serialize (draws : MintDraws) (token : AccessToken) (tokenStore : AccessTokenStore) :
    Except HttpError (SerializedToken × AccessTokenStore) :=
  .ok ({ tokenType := "Bearer", token := draws.randomUUID },
    tokenStore.set draws.randomUUID token)

def deserialize (token : String) (tokenStore : AccessTokenStore) : Except HttpError AccessToken :=
  match tokenStore.get token with
  | some retrieved => .ok retrieved
  | none => .error (.error "Token string not recognized.")

end OpaqueTokenFactory

/-! ## TokenFactory -/

inductive TokenFactory where
  | jwtTokens (factory : JwtTokenFactory)
  | opaqueTokens

namespace TokenFactory

def serialize (draws : MintDraws) (token : AccessToken) (tokenStore : AccessTokenStore) :
    TokenFactory → Except HttpError (SerializedToken × AccessTokenStore)
  | jwtTokens factory => factory.serialize draws token tokenStore
  | opaqueTokens => OpaqueTokenFactory.serialize draws token tokenStore

def deserialize (now : Nat) (token : String) (tokenStore : AccessTokenStore) :
    TokenFactory → Except HttpError AccessToken
  | jwtTokens factory => factory.deserialize now token
  | opaqueTokens => OpaqueTokenFactory.deserialize token tokenStore

/-- A token minted at the first time is not expired at the second. -/
def Unexpired (minted now : Nat) : TokenFactory → Prop
  | jwtTokens factory => now < minted + factory.expirationTime
  | opaqueTokens => True

def VerifiesOwn : TokenFactory → Prop
  | jwtTokens factory => factory.VerifiesOwn
  | opaqueTokens => True

end TokenFactory

/-! ## Reading a token back -/

theorem readPayload_minted {permissions : List Permission} {payload : JwtPayload}
    (h : payload.permissions = .array (permissions.map Permission.toJson)) :
    JwtTokenFactory.readPayload payload =
      .ok { permissions, sub := payload.subject.asString? } := by
  obtain ⟨haccepted, hread⟩ := permissions_accepted permissions
  unfold JwtTokenFactory.readPayload
  rw [h]
  simp only [Json.isTruthy, haccepted, hread]
  rfl

namespace JwtTokenFactory

variable {factory : JwtTokenFactory} {draws : MintDraws} {token : AccessToken}
  {before after : AccessTokenStore} {minted : SerializedToken} {now : Nat}

/-- A JWT is read back with its permissions and its subject, but without the
contract. -/
theorem deserialize_serialize (hown : factory.VerifiesOwn)
    (hminted : factory.serialize draws token before = .ok (minted, after))
    (hnow : now < draws.now + factory.expirationTime) :
    factory.deserialize now minted.token = .ok
      { permissions := token.permissions
        sub := (factory.payload draws token).subject.asString? } := by
  obtain ⟨publicKey, publicJwk, hpublic, hpublicJwk⟩ := hown.publicKey
  obtain ⟨privateKey, hprivate, himport⟩ := Except.bind_eq_ok.mp hminted
  obtain ⟨privateJwk, hprivateJwk, hsigned⟩ := Except.bind_eq_ok.mp himport
  obtain ⟨jwt, hsign, hresult⟩ := Except.bind_eq_ok.mp hsigned
  cases hresult
  obtain ⟨verified, hverified, hpermissions, hsubject⟩ :=
    hown.verifies privateKey privateJwk publicKey publicJwk draws token jwt now hprivate
      hprivateJwk hpublic hpublicJwk hsign hnow
  refine Except.bind_eq_ok.mpr ⟨publicKey, hpublic, ?_⟩
  refine Except.bind_eq_ok.mpr ⟨publicJwk, hpublicJwk, ?_⟩
  simp only [hverified, Except.bind, readPayload_minted hpermissions, hsubject]
  rfl

end JwtTokenFactory

namespace TokenFactory

variable {factory : TokenFactory} {draws : MintDraws} {token : AccessToken}
  {before after later : AccessTokenStore} {minted : SerializedToken} {now : Nat}

/-- Both factories give the permissions back. -/
theorem permissions_deserialize (hown : factory.VerifiesOwn)
    (hminted : factory.serialize draws token before = .ok (minted, after))
    (hkept : later.get minted.token = after.get minted.token)
    (hnow : factory.Unexpired draws.now now) :
    ∃ read, factory.deserialize now minted.token later = .ok read ∧
      read.permissions = token.permissions := by
  cases factory with
  | jwtTokens factory =>
    exact ⟨_, JwtTokenFactory.deserialize_serialize hown hminted hnow, rfl⟩
  | opaqueTokens =>
    cases hminted
    have hget : later.get draws.randomUUID = some token := by
      rw [hkept, KeyValueStorage.get_set, if_pos rfl]
    exact ⟨token, by simp [deserialize, OpaqueTokenFactory.deserialize, hget], rfl⟩

end TokenFactory

end UserManagedAccess.Tokens
