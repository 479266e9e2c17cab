/-
UserManagedAccess.Css.UmaTokenExtractorTheorems — which modes an access token
permits.

* `ofJson_claims` — the claims of a minted token, as the reader gets them;
* `verifyJwtToken_sound`, `verifyJwtToken_current` — a token is verified where
  an owner of the target has its issuer;
* `permits_iff` — a mode is permitted by the last permission of a token for the
  resource, from its issue to its expiration.
-/
import UserManagedAccess.Css.UmaTokenExtractor

namespace UserManagedAccess.Css

open UserManagedAccess.Lib UserManagedAccess.Util UserManagedAccess.Views
open UserManagedAccess.Tokens UserManagedAccess.Routes

/-! ## The claims of a minted token -/

/-- A permission without times. -/
def permissionClaim (permission : Permission) : UmaPermission where
  resourceId := permission.resourceId
  resourceScopes := permission.resourceScopes

/-- The claims of a minted token, as the reader gets them. -/
def JwtPayload.umaClaims (permissions : List Permission) (payload : JwtPayload) : UmaClaims where
  permissions := some (permissions.map permissionClaim)
  times := { iat := some payload.issuedAt, exp := some payload.expirationTime }

section Claims

variable (payload : JwtPayload)

theorem field_permissions : (claimsOf payload).field "permissions" = payload.permissions := rfl

theorem field_iss : (claimsOf payload).field "iss" = .string payload.issuer := rfl

theorem field_nbf : (claimsOf payload).field "nbf" = .undefined := by
  have hnone : List.lookup "nbf" ([("contract", payload.contract), ("sub", payload.subject)].filter
      fun field => isDefined field.2) = none := by
    refine List.lookup_eq_none_iff.mpr fun field hfield => ?_
    have hmem := List.mem_of_mem_filter hfield
    simp only [List.mem_cons, List.not_mem_nil, or_false] at hmem
    rcases hmem with rfl | rfl <;> rfl
  show (List.lookup "nbf" (List.filter _ _)).getD Json.undefined = _
  rw [hnone]
  rfl

end Claims

theorem permissionOfJson_toJson (permission : Permission) :
    UmaPermission.ofJson permission.toJson = some (permissionClaim permission) := by
  have hscopes : (permission.resourceScopes.map Json.string).mapM Json.asString? =
      some permission.resourceScopes :=
    mapM_eq_some_iff.mpr (by rw [List.map_map]; rfl)
  have hid : permission.toJson.field "resource_id" = .string permission.resourceId := rfl
  have hlist : permission.toJson.field "resource_scopes" =
      .array (permission.resourceScopes.map Json.string) := rfl
  have htimes : Times.ofJson permission.toJson = some {} := rfl
  unfold UmaPermission.ofJson
  rw [hid, hlist, htimes]
  simp only [Json.asString?, Json.asArray?, Option.bind_eq_bind, Option.bind_some]
  rw [show (permission.resourceScopes.map Json.string).mapM Json.asString? = _ from hscopes]
  rfl

theorem ofJson_claims {payload : JwtPayload} {permissions : List Permission}
    (h : payload.permissions = .array (permissions.map Permission.toJson)) :
    UmaClaims.ofJson (claimsOf payload) = some (JwtPayload.umaClaims permissions payload) := by
  have htimes : Times.ofJson (claimsOf payload) =
      some { iat := some payload.issuedAt, exp := some payload.expirationTime } := by
    unfold Times.ofJson
    rw [field_nbf]
    rfl
  have hlist : (permissions.map Permission.toJson).mapM UmaPermission.ofJson =
      some (permissions.map permissionClaim) := by
    refine mapM_eq_some_iff.mpr ?_
    rw [List.map_map, List.map_map]
    exact List.map_congr_left fun permission _ => permissionOfJson_toJson permission
  unfold UmaClaims.ofJson
  rw [htimes, field_permissions, h]
  simp only [Option.bind_eq_bind, Option.bind_some, hlist]
  rfl

/-- The last permission of a token for a resource. -/
def lastPermission (token : AccessToken) (resourceId : String) : Option Permission :=
  token.permissions.reverse.find? fun permission => permission.resourceId = resourceId

theorem mem_of_lastPermission {token : AccessToken} {resourceId : String} {last : Permission}
    (h : lastPermission token resourceId = some last) :
    last ∈ token.permissions ∧ last.resourceId = resourceId := by
  unfold lastPermission at h
  have hresource := List.find?_some h
  exact ⟨List.mem_reverse.mp (List.mem_of_find?_eq_some h), of_decide_eq_true hresource⟩

/-- With one permission for each resource, the last one is that one. -/
theorem lastPermission_of_distinct {token : AccessToken} {resourceId scope : String}
    (hdistinct : (token.permissions.map Permission.resourceId).Nodup)
    (hpair : (resourceId, scope) ∈ pairs token.permissions) :
    ∃ last, lastPermission token resourceId = some last ∧ scope ∈ last.resourceScopes := by
  obtain ⟨permission, hpermission, hid, hscope⟩ := hpair
  unfold lastPermission
  cases hfind : token.permissions.reverse.find? fun other => other.resourceId = resourceId with
  | none =>
    have hnone := List.find?_eq_none.mp hfind permission (List.mem_reverse.mpr hpermission)
    exact absurd (decide_eq_true hid) hnone
  | some last =>
    have hlast := List.find?_some hfind
    have hsame : last = permission := List.inj_on_of_nodup_map hdistinct
      (List.mem_reverse.mp (List.mem_of_find?_eq_some hfind)) hpermission
      ((of_decide_eq_true hlast).trans hid.symm)
    exact ⟨last, rfl, hsame ▸ hscope⟩

theorem lastEntry_umaClaims (permissions : List Permission) (payload : JwtPayload)
    (resourceId : String) :
    UmaPermissionReader.lastEntry (JwtPayload.umaClaims permissions payload) resourceId =
      (permissions.reverse.find? fun permission => permission.resourceId = resourceId).map
        permissionClaim := by
  show ((permissions.map permissionClaim).reverse.find? _) = _
  rw [← List.map_reverse, List.find?_map]
  rfl

/-! ## Verifying -/

theorem checkPermission_toJson (permission : Permission) :
    VerificationServices.checkPermission permission.toJson = .ok () := by
  have hscopes : (permission.resourceScopes.map Json.string).all
      (fun scope => scope.asString?.isSome) = true := by
    rw [List.all_map, List.all_eq_true]
    exact fun scope _ => rfl
  have hid : permission.toJson.field "resource_id" = .string permission.resourceId := rfl
  have hlist : permission.toJson.field "resource_scopes" =
      .array (permission.resourceScopes.map Json.string) := rfl
  have hobject : VerificationServices.isObject permission.toJson = true := rfl
  unfold VerificationServices.checkPermission
  simp only [hobject, hid, hlist, hscopes, Bool.not_true, Bool.false_eq_true, if_false, if_true]

theorem forM_checkPermission (permissions : List Permission) :
    (permissions.map Permission.toJson).forM VerificationServices.checkPermission = .ok () := by
  induction permissions with
  | nil => rfl
  | cons permission permissions ih =>
    rw [List.map_cons, List.forM_eq_forM, List.forM_cons, checkPermission_toJson]
    exact ih

/-- What is verified was verified by `jose`. -/
theorem verifyTokenData_verified {services : VerificationServices} {token payload : Json}
    {issuer jwks : String} (h : services.verifyTokenData token issuer jwks = .ok payload) :
    services.jwtVerify token jwks issuer "solid" = .ok payload := by
  obtain ⟨verified, hverified, h⟩ := Except.bind_eq_ok.mp h
  split at h
  · obtain ⟨-, -, h⟩ := Except.bind_eq_ok.mp h
    cases h
    exact hverified
  · cases h
    exact hverified

section Trusts

variable {client : TokenClient} {server : AuthorizationServer} {now : Moment}
  {minted : Issued} {issuers : List String}

/-- A token that is accepted was signed by the server, which is an issuer of
the target. -/
theorem verifyJwtToken_sound (htrusts : Trusts client server now) {token : String}
    {payload : Json} (h : client.verifyJwtToken token issuers = .ok payload) :
    server.factory.issuer ∈ issuers ∧
      ∃ minted ∈ server.issued, minted.jwt = token ∧ payload = server.claims minted := by
  unfold TokenClient.verifyJwtToken at h
  cases hconfig : client.issuerConfig token issuers with
  | error e =>
    rw [hconfig] at h
    cases h
  | ok config =>
    rw [hconfig] at h
    obtain ⟨decoded, hdecoded, hissuer⟩ := Except.bind_eq_ok.mp hconfig
    split at hissuer
    · cases hissuer
    · split at hissuer
      · rename_i issuer hfield
        split at hissuer
        · rename_i hvalid
          have hvalid : issuer ∈ issuers := by simpa using hvalid
          obtain ⟨minted, hminted, rfl, hpayload⟩ :=
            htrusts.genuine issuer config token payload hissuer (verifyTokenData_verified h)
          -- the issuer that was read is the one that signed
          rw [htrusts.decodes minted hminted] at hdecoded
          cases hdecoded
          have hsame : Json.string server.factory.issuer = .string issuer :=
            (field_iss (server.factory.payload minted.draws minted.token)).symm.trans hfield
          cases hsame
          exact ⟨hvalid, minted, hminted, rfl, hpayload⟩
        · cases hissuer
      · cases hissuer

/-- A current token is accepted where the server is an issuer of the target. -/
theorem verifyJwtToken_current (htrusts : Trusts client server now)
    (hissuer : server.factory.issuer ∈ issuers) (hminted : minted ∈ server.issued)
    (hcurrent : server.Current minted now) :
    client.verifyJwtToken minted.jwt issuers = .ok (server.claims minted) := by
  obtain ⟨config, hconfig, hsame, hverifies⟩ := htrusts.config
  have hread : client.issuerConfig minted.jwt issuers = .ok config := by
    refine Except.bind_eq_ok.mpr ⟨_, htrusts.decodes minted hminted, ?_⟩
    have hfield : (server.claims minted).field "iss" = .string server.factory.issuer :=
      field_iss (server.factory.payload minted.draws minted.token)
    have htruthy : (Json.string server.factory.issuer).isTruthy = true := by
      simp [Json.isTruthy, htrusts.issuer]
    have hcontains : issuers.contains server.factory.issuer = true := by simpa using hissuer
    simp only [hfield, htruthy, hcontains, Bool.not_true, Bool.false_eq_true, if_false]
    exact hconfig
  have hpermissions : (server.claims minted).field "permissions" =
      .array (minted.token.permissions.map Permission.toJson) :=
    field_permissions (server.factory.payload minted.draws minted.token)
  unfold TokenClient.verifyJwtToken
  rw [hread]
  refine Except.bind_eq_ok.mpr ⟨_, hverifies minted hminted hcurrent, ?_⟩
  simp only [hpermissions]
  exact Except.bind_eq_ok.mpr ⟨(), forM_checkPermission _, rfl⟩

/-! ## Permitting -/

/-- The request carries this token, and its target has an owner at the server. -/
structure Presents (extractor : UmaTokenExtractor) (server : AuthorizationServer)
    (request : HttpRequest) (minted : Issued) : Prop where
  issued : minted ∈ server.issued
  header : (request.headers.get "authorization").map PatRequestValidator.readToken =
    some minted.jwt
  nonempty : minted.jwt ≠ ""
  owner : ∃ target issuers, extractor.targetExtractor request = .ok target ∧
    extractor.validIssuers target = .ok issuers ∧ server.factory.issuer ∈ issuers

/-- What the reader permits by the claims of a minted token. -/
theorem permits_claims (hlifetime : 0 < server.factory.expirationTime)
    {resourceId : String} {mode : PERMISSIONS} :
    (∃ claims, UmaClaims.ofJson (server.claims minted) = some claims ∧
        UmaPermissionReader.Allows (UmaPermissionReader.handle now (some claims)) resourceId mode) ↔
      server.Current minted now ∧
        ∃ last, lastPermission minted.token resourceId = some last ∧
          modeMap mode ∈ last.resourceScopes := by
  have hofJson : UmaClaims.ofJson (server.claims minted) =
      some (JwtPayload.umaClaims minted.token.permissions
        (server.factory.payload minted.draws minted.token)) := ofJson_claims rfl
  have hnow := now.seconds_pos
  simp only [hofJson, Option.some.injEq, exists_eq_left', UmaPermissionReader.handle_allows,
    lastEntry_umaClaims]
  have htoken : (JwtPayload.umaClaims minted.token.permissions
      (server.factory.payload minted.draws minted.token)).times.checked now.seconds = true ↔
        server.Current minted now := by
    have hexpires : ((server.factory.payload minted.draws minted.token).expirationTime : Rat) ≠ 0 := by
      have hpositive : 0 < minted.draws.now + server.factory.expirationTime := by omega
      exact Nat.cast_ne_zero.mpr hpositive.ne'
    rw [Times.checked_eq_true]
    constructor
    · intro ⟨hiat, hexp, _⟩
      refine ⟨?_, hexp _ rfl hexpires⟩
      by_cases hzero : (minted.draws.now : Rat) = 0
      · rw [hzero]
        exact hnow
      · exact hiat _ rfl hzero
    · intro hcurrent
      refine ⟨fun iat hiat _ => ?_, fun exp hexp _ => ?_, fun nbf hnbf _ => ?_⟩
      · cases hiat
        exact hcurrent.started
      · cases hexp
        exact hcurrent.unexpired
      · cases hnbf
  rw [htoken]
  refine and_congr_right fun _ => ?_
  constructor
  · rintro ⟨last, hlast, hscope, -⟩
    obtain ⟨permission, hpermission, rfl⟩ := Option.map_eq_some_iff.mp hlast
    exact ⟨permission, hpermission, hscope⟩
  · rintro ⟨permission, hpermission, hscope⟩
    exact ⟨permissionClaim permission, Option.map_eq_some_iff.mpr ⟨permission, hpermission, rfl⟩,
      hscope, rfl⟩

/-- A mode is permitted exactly by a token of the server that is current and
whose last permission for the resource has the scope of the mode. -/
theorem permits_iff (extractor : UmaTokenExtractor) (server : AuthorizationServer) (now : Moment)
    (hjwt : extractor.introspect = false) (htrusts : Trusts extractor.client server now)
    (request : HttpRequest) (resourceId : String) (mode : PERMISSIONS) :
    extractor.Permits now request resourceId mode ↔
      ∃ minted, Presents extractor server request minted ∧ server.Current minted now ∧
        ∃ last, lastPermission minted.token resourceId = some last ∧
          modeMap mode ∈ last.resourceScopes := by
  constructor
  · rintro ⟨payload, claims, hhandle, hclaims, hallows⟩
    unfold UmaTokenExtractor.handle at hhandle
    split at hhandle
    · cases hhandle
    · rename_i token htoken
      obtain ⟨hheader, hnonempty⟩ := Option.filter_eq_some_iff.mp htoken
      cases hverify : extractor.verify request token with
      | error e =>
        rw [hverify] at hhandle
        cases hhandle
      | ok verified =>
        rw [hverify] at hhandle
        cases hhandle
        obtain ⟨target, htarget, hverify⟩ := Except.bind_eq_ok.mp hverify
        obtain ⟨issuers, hissuers, hverify⟩ := Except.bind_eq_ok.mp hverify
        rw [hjwt] at hverify
        obtain ⟨hissuer, minted, hminted, rfl, rfl⟩ := verifyJwtToken_sound htrusts hverify
        obtain ⟨hcurrent, hlast⟩ :=
          (permits_claims htrusts.lifetime).mp ⟨claims, hclaims, hallows⟩
        exact ⟨minted, ⟨hminted, hheader, of_decide_eq_true hnonempty,
          target, issuers, htarget, hissuers, hissuer⟩, hcurrent, hlast⟩
  · rintro ⟨minted, hpresents, hcurrent, hlast⟩
    obtain ⟨target, issuers, htarget, hissuers, hissuer⟩ := hpresents.owner
    obtain ⟨claims, hclaims, hallows⟩ :=
      (permits_claims htrusts.lifetime).mpr ⟨hcurrent, hlast⟩
    refine ⟨server.claims minted, claims, ?_, hclaims, hallows⟩
    have htoken : truthy ((request.headers.get "authorization").map
        PatRequestValidator.readToken) = some minted.jwt :=
      Option.filter_eq_some_iff.mpr ⟨hpresents.header, decide_eq_true hpresents.nonempty⟩
    have hverify : extractor.verify request minted.jwt = .ok (server.claims minted) := by
      refine Except.bind_eq_ok.mpr ⟨target, htarget, ?_⟩
      refine Except.bind_eq_ok.mpr ⟨issuers, hissuers, ?_⟩
      rw [hjwt]
      exact verifyJwtToken_current htrusts hissuer hpresents.issued hcurrent
    unfold UmaTokenExtractor.handle
    rw [htoken]
    simp only [hverify]

end Trusts

/-! ## A client that knows the tokens -/

section Known

variable (server : AuthorizationServer) (config : UmaConfig)

def knownClaims (jwt : String) : Except HttpError Json :=
  match server.issued.find? fun minted => minted.jwt = jwt with
  | some minted => .ok (server.claims minted)
  | none => .error (.error "signature verification failed")

/-- Verifies the tokens of one server by their text. -/
def knowingClient : TokenClient where
  fetchUmaConfig issuer :=
    if issuer = server.factory.issuer then .ok config
    else .error (.error ("Unable to retrieve UMA Configuration for Authorization Server " ++ issuer))
  fetch _ _ := .error (.error "fetch failed")
  jwtVerify token jwks issuer audience :=
    match token.asString? with
    | none => .error (.error "JWS must be a string")
    | some jwt =>
      if jwks = config.jwksUri ∧ issuer = server.factory.issuer ∧
        audience = server.factory.audience then knownClaims server jwt
      else .error (.error "signature verification failed")
  decodeJwt := knownClaims server

variable {server config}

theorem knownClaims_sound {jwt : String} {payload : Json}
    (h : knownClaims server jwt = .ok payload) :
    ∃ minted ∈ server.issued, minted.jwt = jwt ∧ payload = server.claims minted := by
  unfold knownClaims at h
  cases hfind : server.issued.find? fun minted => minted.jwt = jwt with
  | none =>
    rw [hfind] at h
    cases h
  | some minted =>
    rw [hfind] at h
    cases h
    have hjwt := List.find?_some hfind
    exact ⟨minted, List.mem_of_find?_eq_some hfind, of_decide_eq_true hjwt, rfl⟩

theorem knownClaims_issued (hdistinct : (server.issued.map Issued.jwt).Nodup) {minted : Issued}
    (hminted : minted ∈ server.issued) :
    knownClaims server minted.jwt = .ok (server.claims minted) := by
  unfold knownClaims
  cases hfind : server.issued.find? fun other => other.jwt = minted.jwt with
  | none =>
    have hnone := List.find?_eq_none.mp hfind minted hminted
    exact absurd (decide_eq_true rfl) hnone
  | some other =>
    have hjwt := List.find?_some hfind
    have hsame : other = minted := List.inj_on_of_nodup_map hdistinct
      (List.mem_of_find?_eq_some hfind) hminted (of_decide_eq_true hjwt)
    rw [hsame]

theorem trusts_knowingClient (haudience : server.factory.audience = "solid")
    (hlifetime : 0 < server.factory.expirationTime) (hissuer : server.factory.issuer ≠ "")
    (hconfig : config.issuer = server.factory.issuer)
    (hdistinct : (server.issued.map Issued.jwt).Nodup) (now : Moment) :
    Trusts (knowingClient server config) server now where
  audience := haudience
  lifetime := hlifetime
  issuer := hissuer
  config := by
    refine ⟨config, if_pos rfl, hconfig, fun minted hminted _ => ?_⟩
    show (if config.jwksUri = config.jwksUri ∧ config.issuer = server.factory.issuer ∧
      "solid" = server.factory.audience then knownClaims server minted.jwt else _) = _
    rw [if_pos ⟨rfl, hconfig, haudience.symm⟩]
    exact knownClaims_issued hdistinct hminted
  decodes minted hminted := knownClaims_issued hdistinct hminted
  genuine issuer found jwt payload _ h := by
    change (if found.jwksUri = config.jwksUri ∧ found.issuer = server.factory.issuer ∧
      "solid" = server.factory.audience then knownClaims server jwt else _) = _ at h
    split at h
    · exact knownClaims_sound h
    · cases h

end Known

end UserManagedAccess.Css
