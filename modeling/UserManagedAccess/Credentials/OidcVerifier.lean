/-
UserManagedAccess.Credentials.OidcVerifier — the verifier of OIDC tokens and of
access tokens.

An access token gives access claims: its permissions to read a source of derived
data, if the derivation store knows the issuer of the token as the issuer of that
source. A source that the store does not know is logged as ignored, and then compared
with the issuer all the same.

* `accessPermissions_eq` — what the loop over the permissions answers;
* `solid_exact_iff`, `standard_exact_iff` — when the claims are exact, for the two
  kinds of tokens;
* `verify_exact_iff` — the two together, in every store.

These are results about tokens that are signed by a key of their issuer
(`ValidlySigned`): decoding one gives the payload that its verification gives.
What the Solid verifier says of a token is a parameter, and so are the key sets.
The proof evaluates `verify` on such a token once (`verify_signed`) and then only
compares outcomes.
-/
import UserManagedAccess.Dialog.BaseNegotiator
import UserManagedAccess.Lib.Except
import UserManagedAccess.Tokens.AccessToken
import UserManagedAccess.Util.Forms
import UserManagedAccess.Util.Vocabularies

namespace UserManagedAccess.Credentials

open UserManagedAccess.Lib UserManagedAccess.Util UserManagedAccess.Views
open UserManagedAccess.Tokens UserManagedAccess.Dialog

def OIDC : String := "http://openid.net/specs/openid-connect-core-1_0.html#IDToken"
def ACCESS_TOKEN : String := "urn:ietf:params:oauth:token-type:access_token"

/-- `jose`, the key sets of issuers and the verifier of Solid tokens: payloads, or the
message of what they throw. `jwtVerify` is given the options of the verifier, whose
`issuer` is `issuers`, and `toText` is what a message makes of a value. -/
structure OidcServices (JwkSet : Type) where
  decodeJwt : String → Except String Json
  getJwks : Json → Except String JwkSet
  jwtVerify : String → JwkSet → Except String Json
  verifyToken : String → Except String Json
  issuers : Option (List String)
  toText : Json → String

namespace OidcVerifier

variable {JwkSet : Type}

/-! ## The verifier -/

/-- A Solid OIDC token, and not a standard one. -/
def isSolidToken (unsafeDecoded : Json) : Bool :=
  let aud := unsafeDecoded.field "aud"
  (aud.isString "solid" || (aud.asArray?.getD []).any (Json.isString "solid")) &&
    (unsafeDecoded.field "webid").asString?.isSome

/-- `value ?? other`. -/
def orElse (value other : Json) : Json :=
  match value with
  | .undefined => other
  | .null => other
  | value => value

/-- The claims of a subject, with its client if there is one. -/
def identity (subject client : Json) : ClaimSet :=
  (WEBID, [subject]) :: (if client.isTruthy then [(CLIENTID, [client])] else [])

/-- The issuer of the claims is missing, or is not among those that are allowed. -/
def unsupportedIssuer (services : OidcServices JwkSet) (claims : Json) : Bool :=
  let iss := claims.field "iss"
  !iss.isTruthy || services.issuers.any fun allowed => !allowed.any fun i => iss.isString i

def verifySolidToken (services : OidcServices JwkSet) (token : String) :
    Except String ClaimSet := do
  let claims ← services.verifyToken ("Bearer " ++ token)
  if unsupportedIssuer services claims then throw "Unsupported issuer"
  return identity (claims.field "webid") (orElse (claims.field "azp") (claims.field "client_id"))

/-- `issuer === iss`, for what the derivation store has. -/
def sameIssuer (issuer : Option String) (iss : Json) : Bool :=
  match issuer, iss with
  | some issuer, .string iss => issuer = iss
  | none, .undefined => true
  | _, _ => false

/-- The message that rejects a token. -/
def invalidIssuer (services : OidcServices JwkSet) (id : String) (issuer : Option String)
    (iss : Json) : String :=
  "Invalid issuer for " ++ id ++ ", expected " ++ issuer.getD "undefined" ++ " but got " ++
    (match iss with
    | .undefined => "undefined"
    | .string iss => iss
    | iss => services.toText iss)

/-- The loop over the permissions. -/
def accessPermissions (services : OidcServices JwkSet)
    (derivationStore : KeyValueStorage String String) (iss : Json) :
    List Permission → Except String (List Permission)
  | [] => .ok []
  | { resourceId := id, resourceScopes := scopes } :: rest =>
    if scopes.contains UmaScopes.derivationRead then
      let issuer := derivationStore.get id
      -- nothing but a warning for an unknown identifier
      if sameIssuer issuer iss then do
        let permissions ← accessPermissions services derivationStore iss rest
        return { resourceId := id, resourceScopes := [UmaScopes.derivationRead] } :: permissions
      else .error (invalidIssuer services id issuer iss)
    else accessPermissions services derivationStore iss rest

def verifyStandardToken (services : OidcServices JwkSet)
    (derivationStore : KeyValueStorage String String) (token format : String) (issuer : Json) :
    Except String ClaimSet := do
  let jwkSet ← services.getJwks issuer
  let payload ← services.jwtVerify token jwkSet
  if format = OIDC then
    if !(payload.field "sub").isTruthy then
      throw "Invalid OIDC ID token: missing `sub` claim"
    return identity (payload.field "sub") (payload.field "azp")
  else if format = ACCESS_TOKEN then
    AccessToken.assertion payload
    let permissions ← accessPermissions services derivationStore (payload.field "iss")
      (permissionsOfJson (payload.field "permissions"))
    return [(ACCESS, permissions.map Permission.toJson)]
  else throw ("Unsupported claim format " ++ format)

def verify (services : OidcServices JwkSet) (derivationStore : KeyValueStorage String String)
    (credential : Credential) : Except HttpError ClaimSet :=
  if credential.format ≠ OIDC ∧ credential.format ≠ ACCESS_TOKEN then
    .error (.badRequest ("Token format " ++ credential.format ++
      " does not match this processor's format."))
  else
    match services.decodeJwt credential.token with
    | .error message => .error (.error message)
    | .ok unsafeDecoded =>
      let result :=
        if isSolidToken unsafeDecoded then verifySolidToken services credential.token
        else verifyStandardToken services derivationStore credential.token credential.format
          (unsafeDecoded.field "iss")
      result.mapError fun message => .badRequest ("Error verifying OIDC Token: " ++ message)

/-! ## Exact claims -/

/-- A permission to read derived data. -/
def readsDerived (permission : Permission) : Bool :=
  permission.resourceScopes.contains UmaScopes.derivationRead

/-- The permissions of a payload to read derived data. -/
def derivationReads (payload : Json) : List Permission :=
  (permissionsOfJson (payload.field "permissions")).filter readsDerived

/-- A permission, reduced to that. -/
def reduced (permission : Permission) : Permission :=
  { permission with resourceScopes := [UmaScopes.derivationRead] }

/-- The access claim of a token: what its issuer can give access to. -/
def expected (derivationStore : KeyValueStorage String String) (payload : Json) (iss : String) :
    List Json :=
  ((derivationReads payload).filter fun permission =>
    derivationStore.get permission.resourceId = some iss).map fun permission =>
      (reduced permission).toJson

/-- Some permission is for a source of another issuer. -/
def Mismatch (derivationStore : KeyValueStorage String String) (payload : Json) (iss : String) :
    Prop :=
  ∃ permission ∈ derivationReads payload, ∃ other,
    derivationStore.get permission.resourceId = some other ∧ other ≠ iss

/-- Success gives the access claim, and only a mismatch rejects, or a payload that is no
access token. -/
structure Exact (derivationStore : KeyValueStorage String String) (payload : Json) (iss : String)
    (outcome : Except HttpError ClaimSet) : Prop where
  granted : ∀ claims, outcome = .ok claims →
    claims.get ACCESS = some (expected derivationStore payload iss)
  rejected : (∃ e, outcome = .error e) ↔
    Mismatch derivationStore payload iss ∨ AccessToken.assertion payload ≠ .ok ()

/-- The token is signed by a key of its issuer: it decodes to the payload that is
verified. -/
structure ValidlySigned (services : OidcServices JwkSet) (token : String) (payload : Json)
    (iss : String) : Prop where
  decodes : services.decodeJwt token = .ok payload
  issuer : payload.field "iss" = .string iss
  verifies : ∃ jwkSet, services.getJwks (.string iss) = .ok jwkSet ∧
    services.jwtVerify token jwkSet = .ok payload

/-- Every permission to read derived data is for a source that the store knows. -/
def AllKnown (derivationStore : KeyValueStorage String String) (payload : Json) : Prop :=
  ∀ permission ∈ derivationReads payload, derivationStore.get permission.resourceId ≠ none

/-- The Solid verifier does not accept the token, or not for a supported issuer. -/
def SolidRefused (services : OidcServices JwkSet) (token : String) : Prop :=
  ∀ claims, services.verifyToken ("Bearer " ++ token) = .ok claims →
    unsupportedIssuer services claims = true

/-- A token whose claims come out exact: nothing of it is unknown, unless it is rejected
anyway; a Solid token gives no access claim, so it has to be refused, and to deserve it. -/
def Judged (services : OidcServices JwkSet) (derivationStore : KeyValueStorage String String)
    (token : String) (payload : Json) (iss : String) : Prop :=
  if isSolidToken payload then
    SolidRefused services token ∧
      (Mismatch derivationStore payload iss ∨ AccessToken.assertion payload ≠ .ok ())
  else
    AccessToken.assertion payload ≠ .ok () ∨ Mismatch derivationStore payload iss ∨
      AllKnown derivationStore payload

/-! ## The loop over the permissions -/

variable {services : OidcServices JwkSet} {derivationStore : KeyValueStorage String String}

@[simp] theorem sameIssuer_string {issuer : Option String} {iss : String} :
    sameIssuer issuer (.string iss) = true ↔ issuer = some iss := by
  cases issuer <;> simp [sameIssuer]

/-- The loop goes through when the store knows this issuer for each of the sources. -/
theorem accessPermissions_eq {iss : String} {permissions : List Permission}
    (h : ∀ permission ∈ permissions, readsDerived permission = true →
      derivationStore.get permission.resourceId = some iss) :
    accessPermissions services derivationStore (.string iss) permissions =
      .ok ((permissions.filter readsDerived).map reduced) := by
  induction permissions with
  | nil => rfl
  | cons permission rest ih =>
    obtain ⟨id, scopes⟩ := permission
    have hrest := ih fun p hp => h p (List.mem_cons_of_mem _ hp)
    unfold accessPermissions
    by_cases hread : scopes.contains UmaScopes.derivationRead = true
    · have hissuer := h ⟨id, scopes⟩ List.mem_cons_self hread
      have hfilter : (⟨id, scopes⟩ :: rest).filter readsDerived =
          ⟨id, scopes⟩ :: rest.filter readsDerived := List.filter_cons_of_pos hread
      dsimp only
      rw [if_pos hread, hfilter, if_pos (sameIssuer_string.mpr hissuer), hrest]
      rfl
    · have hfilter : (⟨id, scopes⟩ :: rest).filter readsDerived = rest.filter readsDerived :=
        List.filter_cons_of_neg hread
      rw [if_neg hread, hfilter, hrest]

theorem accessPermissions_error {iss : String} {permissions : List Permission}
    (h : ∃ permission ∈ permissions, readsDerived permission = true ∧
      derivationStore.get permission.resourceId ≠ some iss) :
    ∃ message, accessPermissions services derivationStore (.string iss) permissions =
      .error message := by
  induction permissions with
  | nil =>
    obtain ⟨_, hmem, _⟩ := h
    cases hmem
  | cons permission rest ih =>
    obtain ⟨id, scopes⟩ := permission
    unfold accessPermissions
    by_cases hread : scopes.contains UmaScopes.derivationRead = true
    · rw [if_pos hread]
      by_cases hissuer : derivationStore.get id = some iss
      · dsimp only
        rw [if_pos (sameIssuer_string.mpr hissuer)]
        obtain ⟨message, hmessage⟩ := ih (by
          obtain ⟨p, hp, hpread, hpissuer⟩ := h
          rcases List.mem_cons.mp hp with rfl | hp
          · exact absurd hissuer hpissuer
          · exact ⟨p, hp, hpread, hpissuer⟩)
        exact ⟨message, by rw [hmessage]; rfl⟩
      · dsimp only
        rw [if_neg (by rw [sameIssuer_string]; exact hissuer)]
        exact ⟨_, rfl⟩
    · rw [if_neg hread]
      refine ih ?_
      obtain ⟨p, hp, hpread, hpissuer⟩ := h
      rcases List.mem_cons.mp hp with rfl | hp
      · exact absurd hpread hread
      · exact ⟨p, hp, hpread, hpissuer⟩

/-! ## Verification -/

variable {token : String} {payload : Json} {iss : String}

/-- The outcome of a signed token, up to the wrapping of errors. -/
def outcome (services : OidcServices JwkSet) (derivationStore : KeyValueStorage String String)
    (token : String) (payload : Json) (iss : String) : Except String ClaimSet :=
  if isSolidToken payload then verifySolidToken services token
  else do
    AccessToken.assertion payload
    let permissions ← accessPermissions services derivationStore (.string iss)
      (permissionsOfJson (payload.field "permissions"))
    return [(ACCESS, permissions.map Permission.toJson)]

theorem verify_signed (h : ValidlySigned services token payload iss) :
    verify services derivationStore { token, format := ACCESS_TOKEN } =
      (outcome services derivationStore token payload iss).mapError fun message =>
        .badRequest ("Error verifying OIDC Token: " ++ message) := by
  obtain ⟨hdecodes, hissuer, jwkSet, hjwks, hverifies⟩ := h
  have hformat : ACCESS_TOKEN ≠ OIDC := by decide
  unfold verify outcome verifyStandardToken
  simp only [ne_eq, hformat, not_false_eq_true, not_true_eq_false, and_false, if_false, hdecodes,
    hissuer]
  split
  · rfl
  · simp only [hjwks, bind, Except.bind, hverifies, hissuer, if_true]

theorem exact_error {e : HttpError} : Exact derivationStore payload iss (.error e) ↔
    Mismatch derivationStore payload iss ∨ AccessToken.assertion payload ≠ .ok () := by
  constructor
  · rintro ⟨_, hrejected⟩
    exact hrejected.mp ⟨e, rfl⟩
  · intro hdeserved
    constructor
    · intro claims hclaims
      cases hclaims
    · exact ⟨fun _ => hdeserved, fun _ => ⟨e, rfl⟩⟩

theorem exact_ok {claims : ClaimSet} : Exact derivationStore payload iss (.ok claims) ↔
    claims.get ACCESS = some (expected derivationStore payload iss) ∧
      ¬ (Mismatch derivationStore payload iss ∨ AccessToken.assertion payload ≠ .ok ()) := by
  constructor
  · rintro ⟨hgranted, hrejected⟩
    refine ⟨hgranted claims rfl, fun hdeserved => ?_⟩
    obtain ⟨e, he⟩ := hrejected.mpr hdeserved
    cases he
  · rintro ⟨hgranted, hfine⟩
    constructor
    · intro claims' hclaims
      cases hclaims
      exact hgranted
    · refine ⟨?_, fun hdeserved => absurd hdeserved hfine⟩
      rintro ⟨e, he⟩
      cases he

/-- A Solid token is an identity, and never an access claim. -/
theorem solid_exact_iff (hsolid : isSolidToken payload = true) :
    Exact derivationStore payload iss
        ((outcome services derivationStore token payload iss).mapError fun message =>
          HttpError.badRequest ("Error verifying OIDC Token: " ++ message)) ↔
      SolidRefused services token ∧
        (Mismatch derivationStore payload iss ∨ AccessToken.assertion payload ≠ .ok ()) := by
  have hrefused : (∃ e, outcome services derivationStore token payload iss = .error e) ↔
      SolidRefused services token := by
    unfold outcome verifySolidToken SolidRefused
    rw [if_pos hsolid]
    cases services.verifyToken ("Bearer " ++ token) with
    | error message => simp [bind, Except.bind]
    | ok claims =>
      cases hissuer : unsupportedIssuer services claims <;>
        simp [bind, Except.bind, pure, Except.pure, hissuer, throw, throwThe,
          MonadExceptOf.throw]
  have hgranted : ∀ claims, outcome services derivationStore token payload iss = .ok claims →
      claims.get ACCESS = none := by
    intro claims hclaims
    unfold outcome verifySolidToken at hclaims
    rw [if_pos hsolid] at hclaims
    obtain ⟨solid, -, hclaims⟩ := Except.bind_eq_ok.mp hclaims
    cases hissuer : unsupportedIssuer services solid with
    | true => simp [hissuer, bind, Except.bind, throw, throwThe, MonadExceptOf.throw] at hclaims
    | false =>
      have hidentity : identity (solid.field "webid")
          (orElse (solid.field "azp") (solid.field "client_id")) = claims := by
        simpa [hissuer, bind, Except.bind, pure, Except.pure] using hclaims
      have hwebid : ACCESS ≠ WEBID := by decide
      have hclient : ACCESS ≠ CLIENTID := by decide
      rw [← hidentity]
      unfold identity
      split <;> simp [hwebid, hclient, Dict.get]
  cases hout : outcome services derivationStore token payload iss with
  | error e => exact exact_error.trans (and_iff_right (hrefused.mp ⟨e, hout⟩)).symm
  | ok claims =>
    constructor
    · intro hexact
      have hsome := (exact_ok.mp hexact).1
      rw [hgranted claims hout] at hsome
      cases hsome
    · rintro ⟨hsolidRefused, -⟩
      obtain ⟨e, he⟩ := hrefused.mpr hsolidRefused
      rw [hout] at he
      cases he

theorem mem_derivationReads {permission : Permission} :
    permission ∈ derivationReads payload ↔
      permission ∈ permissionsOfJson (payload.field "permissions") ∧
        readsDerived permission = true :=
  List.mem_filter

theorem outcome_standard (hstandard : isSolidToken payload = false) :
    outcome services derivationStore token payload iss = (do
      AccessToken.assertion payload
      let permissions ← accessPermissions services derivationStore (.string iss)
        (permissionsOfJson (payload.field "permissions"))
      return [(ACCESS, permissions.map Permission.toJson)]) := by
  unfold outcome
  rw [hstandard]
  rfl

theorem outcome_granted (hstandard : isSolidToken payload = false)
    (hassertion : AccessToken.assertion payload = .ok ())
    (hissued : ∀ permission ∈ derivationReads payload,
      derivationStore.get permission.resourceId = some iss) :
    outcome services derivationStore token payload iss =
      .ok [(ACCESS, expected derivationStore payload iss)] := by
  have hall : ∀ permission ∈ permissionsOfJson (payload.field "permissions"),
      readsDerived permission = true → derivationStore.get permission.resourceId = some iss :=
    fun permission hmem hread => hissued permission (mem_derivationReads.mpr ⟨hmem, hread⟩)
  have hfilter : ((derivationReads payload).filter fun permission =>
      derivationStore.get permission.resourceId = some iss) = derivationReads payload :=
    List.filter_eq_self.mpr fun permission hmem => by simp [hissued permission hmem]
  have hexpected : expected derivationStore payload iss =
      ((derivationReads payload).map reduced).map Permission.toJson := by
    rw [expected, hfilter, List.map_map]
    rfl
  rw [outcome_standard hstandard, hassertion, accessPermissions_eq hall, hexpected]
  rfl

theorem outcome_rejected (hstandard : isSolidToken payload = false)
    (hassertion : AccessToken.assertion payload = .ok ()) {permission : Permission}
    (hread : permission ∈ derivationReads payload)
    (hissuer : derivationStore.get permission.resourceId ≠ some iss) :
    ∃ message, outcome services derivationStore token payload iss = .error message := by
  have ⟨hmem, hreads⟩ := mem_derivationReads.mp hread
  obtain ⟨message, hmessage⟩ : ∃ message, accessPermissions services derivationStore
      (.string iss) (permissionsOfJson (payload.field "permissions")) = .error message :=
    accessPermissions_error ⟨permission, hmem, hreads, hissuer⟩
  refine ⟨message, ?_⟩
  rw [outcome_standard hstandard, hassertion, hmessage]
  rfl

/-- A standard token is rejected for an unknown source as for a wrong issuer. -/
theorem standard_exact_iff (hstandard : isSolidToken payload = false) :
    Exact derivationStore payload iss
        ((outcome services derivationStore token payload iss).mapError fun message =>
          HttpError.badRequest ("Error verifying OIDC Token: " ++ message)) ↔
      AccessToken.assertion payload ≠ .ok () ∨ Mismatch derivationStore payload iss ∨
        AllKnown derivationStore payload := by
  cases hassertion : AccessToken.assertion payload with
  | error message =>
    have hinvalid : AccessToken.assertion payload ≠ .ok () := by simp [hassertion]
    have hrejected : outcome services derivationStore token payload iss = .error message := by
      rw [outcome_standard hstandard, hassertion]
      rfl
    rw [hrejected]
    exact exact_error.trans (iff_of_true (Or.inr hinvalid) (Or.inl (by simp)))
  | ok accepted =>
    by_cases hissued : ∀ permission ∈ derivationReads payload,
        derivationStore.get permission.resourceId = some iss
    · have hknown : AllKnown derivationStore payload := by
        intro permission hmem
        rw [hissued permission hmem]
        exact Option.some_ne_none _
      rw [outcome_granted hstandard hassertion hissued]
      refine exact_ok.trans (iff_of_true ⟨by simp [Dict.get], ?_⟩ (Or.inr (Or.inr hknown)))
      rintro (⟨permission, hmem, other, hother, hne⟩ | hrefused)
      · rw [hissued permission hmem] at hother
        exact absurd (Option.some_inj.mp hother).symm hne
      · exact absurd hassertion hrefused
    · obtain ⟨permission, hread, hissuer⟩ : ∃ permission ∈ derivationReads payload,
          derivationStore.get permission.resourceId ≠ some iss := by
        simpa using hissued
      have hmismatch : AllKnown derivationStore payload →
          Mismatch derivationStore payload iss := by
        intro hknown
        obtain ⟨other, hother⟩ := Option.ne_none_iff_exists'.mp (hknown permission hread)
        refine ⟨permission, hread, other, hother, fun heq => hissuer ?_⟩
        rw [hother, heq]
      obtain ⟨message, hrejected⟩ :
          ∃ message, outcome services derivationStore token payload iss = .error message :=
        outcome_rejected hstandard hassertion hread hissuer
      rw [hrejected]
      refine exact_error.trans ⟨?_, ?_⟩
      · rintro (hwrong | hrefused)
        · exact Or.inr (Or.inl hwrong)
        · exact absurd hassertion hrefused
      · rintro (hrefused | hwrong | hknown)
        · exact absurd rfl hrefused
        · exact Or.inl hwrong
        · exact Or.inl (hmismatch hknown)

/-- The claims of a validly signed token are exact when nothing in it is unknown to the
store, or it is rejected for another reason. -/
theorem verify_exact_iff (services : OidcServices JwkSet)
    (derivationStore : KeyValueStorage String String) (token : String) (payload : Json)
    (iss : String) (h : ValidlySigned services token payload iss) :
    Exact derivationStore payload iss
        (verify services derivationStore { token, format := ACCESS_TOKEN }) ↔
      Judged services derivationStore token payload iss := by
  rw [verify_signed h]
  unfold Judged
  cases hsolid : isSolidToken payload with
  | true => exact solid_exact_iff hsolid
  | false => exact standard_exact_iff hsolid

/-! ## Sample tokens -/

/-- A token of one issuer that reads one source, next to a permission of another kind. -/
def samplePayload : Json :=
  .object [("iss", .string "http://example.org/issuer"),
    ("permissions", .array
      [Permission.toJson ⟨"id1", ["scope1", UmaScopes.derivationRead]⟩,
        Permission.toJson ⟨"id3", ["scope3"]⟩])]

/-- Services that know one token. -/
def sampleServices : OidcServices String where
  decodeJwt := fun token => if token = "token" then .ok samplePayload else .error "Invalid JWT"
  getJwks := fun issuer =>
    if issuer.isString "http://example.org/issuer" then .ok "keys" else .error "Issuer mismatch"
  jwtVerify := fun token _ => if token = "token" then .ok samplePayload else .error "Invalid JWT"
  verifyToken := fun _ => .error "not a Solid token"
  issuers := none
  toText := fun _ => ""

theorem sampleToken_signed :
    ValidlySigned sampleServices "token" samplePayload "http://example.org/issuer" :=
  ⟨rfl, rfl, "keys", rfl, rfl⟩

theorem known_source_exact :
    Exact (KeyValueStorage.empty.set "id1" "http://example.org/issuer") samplePayload
      "http://example.org/issuer"
      (verify sampleServices (KeyValueStorage.empty.set "id1" "http://example.org/issuer")
        { token := "token", format := ACCESS_TOKEN }) := by
  refine (verify_exact_iff sampleServices _ "token" samplePayload "http://example.org/issuer"
    sampleToken_signed).mpr (Or.inr (Or.inr ?_))
  intro permission hmem
  cases List.mem_singleton.mp hmem
  exact Option.some_ne_none "http://example.org/issuer"

/-- A source that the store does not know is not ignored. -/
theorem unknown_source_rejected :
    ValidlySigned sampleServices "token" samplePayload "http://example.org/issuer" ∧
      verify sampleServices KeyValueStorage.empty { token := "token", format := ACCESS_TOKEN } =
        .error (.badRequest ("Error verifying OIDC Token: Invalid issuer for id1, " ++
          "expected undefined but got http://example.org/issuer")) ∧
      ¬ Exact KeyValueStorage.empty samplePayload "http://example.org/issuer"
        (verify sampleServices KeyValueStorage.empty
          { token := "token", format := ACCESS_TOKEN }) := by
  refine ⟨sampleToken_signed, rfl, fun ⟨_, hrejected⟩ => ?_⟩
  rcases hrejected.mp ⟨_, rfl⟩ with ⟨permission, _, other, hother, _⟩ | hrefused
  · cases hother
  · exact hrefused rfl

end OidcVerifier

end UserManagedAccess.Credentials
