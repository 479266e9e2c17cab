/-
UserManagedAccess.Tokens.TokenStore — the store of access and refresh tokens.

`JwtTokenFactory` keeps access tokens under their JWT and
`StoredRefreshTokenIssuer` keeps refresh tokens under a random identifier, in
one expiring store. A reader gets the record of either kind and reads its
fields without asking which it is.

The clock and `randomUUID` are sequences, and the state counts how many of
their values were used: a later reading of the clock is never earlier, and no
identifier comes up twice.
-/
import Mathlib.Order.Monotone.Basic
import UserManagedAccess.Tokens.AccessToken

namespace UserManagedAccess.Tokens

open UserManagedAccess.Lib UserManagedAccess.Util UserManagedAccess.Views
open UserManagedAccess.Credentials

/-! ## Records -/

/-- `RefreshInformation` of `RefreshTokenVerifier.ts`. -/
structure RefreshInformation where
  claims : ClaimSet
  permissions : List Permission
  expiration : Nat

inductive TokenRecord where
  | refresh (information : RefreshInformation)
  | access (token : AccessToken)

namespace TokenRecord

/-- The fields a refresh reads; an access token has only the permissions. -/
def claims : TokenRecord → Option ClaimSet
  | refresh information => some information.claims
  | access _ => none

def permissions : TokenRecord → List Permission
  | refresh information => information.permissions
  | access token => token.permissions

def expiration : TokenRecord → Option Nat
  | refresh information => some information.expiration
  | access _ => none

end TokenRecord

structure ExpiringRecord where
  record : TokenRecord
  expires : Nat

structure TokenState where
  store : KeyValueStorage String ExpiringRecord
  readings : Nat := 0
  uuids : Nat := 0

/-! ## Services -/

/-- The clock, `randomUUID`, the signing of JWTs, and the two durations. A JWT
has dots and an identifier has none, so the keys never collide. -/
structure TokenServices where
  clock : Nat → Nat
  clock_mono : Monotone clock
  randomUUID : Nat → String
  randomUUID_injective : Function.Injective randomUUID
  sign : AccessToken → (jti : String) → String
  deserialize : String → Option AccessToken
  permissions_deserialize : ∀ token jti,
    (deserialize (sign token jti)).map AccessToken.permissions = some token.permissions
  sign_ne_randomUUID : ∀ token jti n, sign token jti ≠ randomUUID n
  expirationTime : Nat
  refreshExpiration : Nat

/-- A clock that shows the number of the reading, identifiers of growing
length, and tokens that spell their permissions out. -/
def TokenServices.plain : TokenServices where
  clock n := n
  clock_mono := monotone_id
  randomUUID n := String.ofList (List.replicate (n + 1) 'u')
  randomUUID_injective m n h := by
    have hlength := congrArg (fun s => s.toList.length) h
    simp only [String.toList_ofList, List.length_replicate] at hlength
    omega
  sign token jti := String.ofList
    ('.' :: (token.permissions.flatMap TokenCodec.spellPermission ++ '!' :: jti.toList))
  deserialize text := some
    { permissions := (TokenCodec.unspell text.toList.tail).map TokenCodec.permissionOfWords }
  permissions_deserialize token jti := by
    rw [String.toList_ofList, List.tail_cons]
    have hread := TokenCodec.permissions_unspell token.permissions ('!' :: jti.toList)
    simp [hread, TokenCodec.unspell]
  sign_ne_randomUUID token jti n h := by
    have hchars := congrArg String.toList h
    rw [String.toList_ofList, String.toList_ofList, List.replicate_succ] at hchars
    injection hchars with hhead
    revert hhead
    decide
  expirationTime := 300000
  refreshExpiration := 604800000

namespace TokenServices

variable (services : TokenServices)

/-- `Date.now()`. -/
def now : Async TokenState HttpError Nat :=
  .act (fun s => { s with readings := s.readings + 1 }) fun s =>
    pure (services.clock s.readings)

def newUUID : Async TokenState HttpError String :=
  .act (fun s => { s with uuids := s.uuids + 1 }) fun s =>
    pure (services.randomUUID s.uuids)

/-- What is not expired at the next reading of the clock. -/
def lookup (t : TokenState) (key : String) : Option TokenRecord :=
  (t.store.get key).bind fun entry =>
    if entry.expires < services.clock t.readings then none else some entry.record

/-- `ExpiringStorage.get`: what has expired is not there. -/
def get (key : String) : Async TokenState HttpError (Option TokenRecord) :=
  .act (fun t => { t with readings := t.readings + 1 }) fun t => do
    Async.yield
    return services.lookup t key

def set (key : String) (record : TokenRecord) (duration : Nat) :
    Async TokenState HttpError Unit := do
  Async.modify fun t =>
    { t with
      store := t.store.set key { record, expires := services.clock t.readings + duration }
      readings := t.readings + 1 }
  Async.yield

def delete (key : String) : Async TokenState HttpError Unit := do
  Async.modify fun t => { t with store := t.store.delete key }
  Async.yield

/-- `Date.now() > information.expiration`, which is false of a record without
an expiration. -/
def isExpired (record : TokenRecord) : Async TokenState HttpError Bool := do
  let time ← services.now
  return record.expiration.any fun expiration => expiration < time

/-- `JwtTokenFactory.serialize`. -/
def serialize : Serialize TokenState := fun token => do
  Async.yield
  let jti ← services.newUUID
  Async.yield
  services.set (services.sign token jti) (.access token) services.expirationTime
  return { tokenType := "Bearer", token := services.sign token jti }

/-- The store with a new refresh token. There is no pause between the choice
of its identifier and the write. -/
def issued (claims : ClaimSet) (permissions : List Permission) (t : TokenState) : TokenState :=
  { store := t.store.set (services.randomUUID t.uuids)
      { record := .refresh
          { claims := claims
            permissions := permissions
            expiration := services.clock t.readings + services.refreshExpiration }
        expires := services.clock (t.readings + 1) + services.refreshExpiration }
    readings := t.readings + 2
    uuids := t.uuids + 1 }

/-- `StoredRefreshTokenIssuer.issue`. -/
def issue : IssueRefreshToken TokenState := fun claims permissions =>
  .act (services.issued claims permissions) fun t => do
    Async.yield
    return services.randomUUID t.uuids

end TokenServices

end UserManagedAccess.Tokens
