/-
UserManagedAccess.Css.IntrospectionTheorems — introspection between the two
servers.

* `introspect_minted` — the endpoint knows every unexpired token of its
  factory, with the permissions it was minted with.
* `introspection_refused` — the client refuses each of these answers.
* `introspection_never_accepted` — it accepts no answer of the endpoint at all.
-/
import UserManagedAccess.Css.TokenVerification

namespace UserManagedAccess.Css

open UserManagedAccess.Lib UserManagedAccess.Util UserManagedAccess.Views
open UserManagedAccess.Routes UserManagedAccess.Tokens

/-! ## The request body -/

section Body

variable (decoder : FormDecoder)

theorem unescape_formPlain {text : String} (h : FormPlain text) : decoder.unescape text = text :=
  decoder.unescape_plain text fun c hc => ⟨(h c hc).2.1, (h c hc).2.2⟩

/-- A part of a form whose key and value are plain. -/
theorem readPair_plain {key value : String} (hkey : FormPlain key) (hvalue : FormPlain value)
    (hno : '=' ∉ key.toList) : decoder.readPair (key ++ "=" ++ value) = (key, value) := by
  have hsep : ∀ c ∈ key.toList, decide (c ≠ '=') = true := fun c hc =>
    decide_eq_true fun heq => hno (heq ▸ hc)
  have hchars : (key ++ "=" ++ value).toList = key.toList ++ '=' :: value.toList := by
    simp [String.toList_append]
  unfold FormDecoder.readPair
  rw [hchars, List.takeWhile_append_of_pos hsep, List.dropWhile_append_of_pos hsep]
  simp [unescape_formPlain decoder hkey, unescape_formPlain decoder hvalue]

theorem split_two {separator : Char} {first second : String} (hfirst : separator ∉ first.toList)
    (hsecond : separator ∉ second.toList) :
    split separator (first ++ String.ofList [separator] ++ second) = [first, second] := by
  have hchars : (first ++ String.ofList [separator] ++ second).toList =
      first.toList ++ separator :: second.toList := by
    simp [String.toList_append]
  unfold split
  rw [hchars, List.splitOn_append_cons_self_of_not_mem hfirst, List.splitOn_eq_singleton hsecond]
  simp

/-- The server reads the body the client writes. -/
theorem formToJson_introspection {token : String} (htoken : FormPlain token) :
    decoder.formToJson ("token_type_hint=access_token&token=" ++ token) =
      .object [("token_type_hint", .string "access_token"), ("token", .string token)] := by
  have hbody : "token_type_hint=access_token&token=" ++ token =
      ("token_type_hint" ++ "=" ++ "access_token") ++ String.ofList ['&'] ++
        ("token" ++ "=" ++ token) := by
    apply String.toList_injective
    simp [String.toList_append]
  have hno : '&' ∉ ("token" ++ "=" ++ token).toList := by
    simp only [String.toList_append, List.mem_append, not_or]
    exact ⟨⟨by decide, by decide⟩, fun hmem => (htoken _ hmem).1 rfl⟩
  have hnonempty : ("token" ++ "=" ++ token) ≠ "" := by
    intro heq
    have hlength := congrArg (fun s => s.toList.length) heq
    simp [String.toList_append] at hlength
  have hfirst : decoder.readPair ("token_type_hint" ++ "=" ++ "access_token") =
      ("token_type_hint", "access_token") :=
    readPair_plain decoder (by decide) (by decide) (by decide)
  have hsecond : decoder.readPair ("token" ++ "=" ++ token) = ("token", token) :=
    readPair_plain decoder (by decide) htoken (by decide)
  have hhint : ("token_type_hint" ++ "=" ++ "access_token") ≠ "" := by decide
  unfold FormDecoder.formToJson
  rw [hbody, split_two (by decide) hno]
  generalize "token_type_hint" ++ "=" ++ "access_token" = first at hfirst hhint
  generalize "token" ++ "=" ++ token = second at hsecond hnonempty
  have hfields : [("token_type_hint", "access_token"), ("token", token)].foldl
      FormDecoder.addPair Dict.empty =
        [("token_type_hint", .string "access_token"), ("token", .string token)] := rfl
  simp only [List.filter_cons, List.filter_nil, hhint, hnonempty, ne_eq, not_false_eq_true,
    decide_true, if_true, List.take_succ_cons, List.take_nil, List.map_cons, List.map_nil, hfirst,
    hsecond, hfields]

end Body

/-! ## The endpoint -/

section Endpoint

variable {handler : IntrospectionHandler} {draws : MintDraws} {content : AccessToken}
  {before after later : AccessTokenStore} {minted : SerializedToken} {now : Nat} {owner : String}

/-- The body of the request about a token. -/
def introspectionForm (token : String) : String := "token_type_hint=access_token&token=" ++ token

/-- The endpoint knows every unexpired token of its factory. -/
theorem introspect_minted (hown : handler.tokenFactory.VerifiesOwn)
    (hminted : handler.tokenFactory.serialize draws content before = .ok (minted, after))
    (hplain : FormPlain minted.token) (hnonempty : minted.token ≠ "")
    (hkept : later.get minted.token = after.get minted.token)
    (hnow : handler.tokenFactory.Unexpired draws.now now)
    (hcaller : handler.validator
      (introspectionRequest handler.decoder (introspectionForm minted.token)) = .ok owner) :
    ∃ unsignedToken, unsignedToken.permissions = content.permissions ∧
      introspect handler now later (introspectionForm minted.token) =
        { status := 200, body := some (IntrospectionHandler.activeToken unsignedToken) } := by
  obtain ⟨unsignedToken, hread, hpermissions⟩ :=
    TokenFactory.permissions_deserialize hown hminted hkept hnow
  refine ⟨unsignedToken, hpermissions, ?_⟩
  have hbody : (introspectionRequest handler.decoder (introspectionForm minted.token)).body =
      .object [("token_type_hint", .string "access_token"), ("token", .string minted.token)] :=
    formToJson_introspection handler.decoder hplain
  have hhandle : handler.handle now later
      (introspectionRequest handler.decoder (introspectionForm minted.token)) =
        .ok { status := 200, body := IntrospectionHandler.activeToken unsignedToken } := by
    refine Except.bind_eq_ok.mpr ⟨owner, hcaller, ?_⟩
    simp [hbody, Json.isTruthy, FormDecoder.searchParam, List.lookup_cons, Option.filter, hnonempty,
      hread, pure, Except.pure]
  unfold introspect
  rw [hhandle]

end Endpoint

/-! ## The client -/

theorem active_activeToken (unsignedToken : AccessToken) :
    (IntrospectionHandler.activeToken unsignedToken).field "active" = .boolean true := by
  obtain ⟨permissions, sub, contract⟩ := unsignedToken
  cases sub <;> cases contract <;> rfl

/-- An answer that says `active: true` is refused. -/
theorem verifyOpaqueToken_active {services : VerificationServices} {token issuer : String}
    {config : UmaConfig} {unsignedToken : AccessToken}
    (hconfig : services.fetchUmaConfig issuer = .ok config)
    (hfetch : services.fetch config.introspectionEndpoint (introspectionForm token) =
      .ok { status := 200, body := some (IntrospectionHandler.activeToken unsignedToken) }) :
    services.verifyOpaqueToken token issuer = .error VerificationServices.notActive := by
  have hactive := active_activeToken unsignedToken
  have hnot : (Json.boolean true).isString "true" = false := rfl
  obtain ⟨fields, hfields⟩ : ∃ fields,
      IntrospectionHandler.activeToken unsignedToken = .object fields := ⟨_, rfl⟩
  rw [hfields] at hactive hfetch
  unfold introspectionForm at hfetch
  unfold VerificationServices.verifyOpaqueToken
  rw [hconfig]
  simp only [bind, Except.bind, hfetch, hactive, hnot]
  rfl

/-- Introspection by a client whose endpoint is the handler over the factory
that minted the token: the handler finds the token active, with the permissions
it was minted with, and the client refuses the answer. -/
theorem introspection_refused {services : VerificationServices} {issuer : String}
    {config : UmaConfig} {handler : IntrospectionHandler} {draws : MintDraws}
    {content : AccessToken} {before after later : AccessTokenStore} {minted : SerializedToken}
    {now : Nat} {owner : String}
    (hconfig : services.fetchUmaConfig issuer = .ok config)
    (hendpoint : ∀ form, services.fetch config.introspectionEndpoint form =
      .ok (introspect handler now later form))
    (hown : handler.tokenFactory.VerifiesOwn)
    (hminted : handler.tokenFactory.serialize draws content before = .ok (minted, after))
    (hplain : FormPlain minted.token) (hnonempty : minted.token ≠ "")
    (hkept : later.get minted.token = after.get minted.token)
    (hnow : handler.tokenFactory.Unexpired draws.now now)
    (hcaller : ∀ request, handler.validator request = .ok owner) :
    (∃ unsignedToken, unsignedToken.permissions = content.permissions ∧
      introspect handler now later (introspectionForm minted.token) =
        { status := 200, body := some (IntrospectionHandler.activeToken unsignedToken) }) ∧
      services.verifyOpaqueToken minted.token issuer = .error VerificationServices.notActive := by
  obtain ⟨unsignedToken, hpermissions, hresponse⟩ :=
    introspect_minted hown hminted hplain hnonempty hkept hnow (hcaller _)
  refine ⟨⟨unsignedToken, hpermissions, hresponse⟩, ?_⟩
  have hfetch := hendpoint (introspectionForm minted.token)
  rw [hresponse] at hfetch
  exact verifyOpaqueToken_active hconfig hfetch

theorem introspection_handle_ok {handler : IntrospectionHandler} {now : Nat}
    {tokenStore : AccessTokenStore} {request : HttpHandlerRequest}
    {response : HttpHandlerResponse}
    (h : handler.handle now tokenStore request = .ok response) :
    ∃ unsignedToken, response =
      { status := 200, body := IntrospectionHandler.activeToken unsignedToken } := by
  obtain ⟨owner, -, hrest⟩ := Except.bind_eq_ok.mp h
  simp only at hrest
  split at hrest
  · cases hrest
  · split at hrest
    · cases hrest
    · split at hrest
      · cases hrest
      · rename_i unsignedToken _
        cases hrest
        exact ⟨unsignedToken, rfl⟩

theorem errorStatus_ge (e : HttpError) : errorStatus e ≥ 400 := by
  cases e <;> simp [errorStatus]

theorem verifyOpaqueToken_failed {services : VerificationServices} {token issuer : String}
    {config : UmaConfig} {response : Response}
    (hconfig : services.fetchUmaConfig issuer = .ok config)
    (hfetch : services.fetch config.introspectionEndpoint (introspectionForm token) = .ok response)
    (hstatus : response.status ≥ 400) (claims : Json) :
    services.verifyOpaqueToken token issuer ≠ .ok claims := by
  unfold introspectionForm at hfetch
  unfold VerificationServices.verifyOpaqueToken
  rw [hconfig]
  simp only [bind, Except.bind, hfetch, if_pos hstatus]
  exact fun h => nomatch h

/-- Whatever the factory, the token, the store and the time, a client whose
endpoint is the handler over the factory never accepts the token. -/
theorem introspection_never_accepted (services : VerificationServices) (issuer : String)
    (handler : IntrospectionHandler) (now : Nat) (tokenStore : AccessTokenStore)
    (hendpoint : ∀ config, services.fetchUmaConfig issuer = .ok config → ∀ form,
      services.fetch config.introspectionEndpoint form =
        .ok (introspect handler now tokenStore form))
    (token : String) (claims : Json) : services.verifyOpaqueToken token issuer ≠ .ok claims := by
  intro haccepted
  obtain ⟨config, hconfig, -⟩ := Except.bind_eq_ok.mp haccepted
  have hfetch := hendpoint config hconfig (introspectionForm token)
  unfold introspect at hfetch
  cases hhandle : handler.handle now tokenStore
      (introspectionRequest handler.decoder (introspectionForm token)) with
  | error e =>
    rw [hhandle] at hfetch
    exact verifyOpaqueToken_failed hconfig hfetch (errorStatus_ge e) claims haccepted
  | ok response =>
    obtain ⟨unsignedToken, rfl⟩ := introspection_handle_ok hhandle
    rw [hhandle] at hfetch
    rw [verifyOpaqueToken_active hconfig hfetch] at haccepted
    cases haccepted

/-! ### One token -/

/-- A decoder that is only given plain text. -/
def plainDecoder : FormDecoder where
  unescape text := text
  toText _ := ""
  unescape_plain _ _ := rfl

def photoToken : AccessToken := { permissions := [⟨"photo", ["urn:read"]⟩] }

def mintPhoto : MintDraws := { now := 0, randomUUID := "c9a2" }

/-- The store after the token was minted. -/
def photoStore : AccessTokenStore := KeyValueStorage.empty.set "c9a2" photoToken

def opaqueHandler : IntrospectionHandler where
  tokenFactory := .opaqueTokens
  validator _ := .ok "https://alice.example/profile/card#me"
  decoder := plainDecoder

def photoConfig : UmaConfig where
  jwksUri := "https://as.example/uma/keys"
  issuer := "https://as.example/uma"
  permissionEndpoint := "https://as.example/uma/ticket"
  introspectionEndpoint := "https://as.example/uma/introspect"
  resourceRegistrationEndpoint := "https://as.example/uma/resources/"
  tokenEndpoint := "https://as.example/uma/token"

/-- A JWT is a text. -/
def photoServices : VerificationServices where
  fetchUmaConfig _ := .ok photoConfig
  fetch _ form := .ok (introspect opaqueHandler 1 photoStore form)
  jwtVerify _ _ _ _ := .error (.error "Compact JWS must be a string or Uint8Array")

theorem introspection_never_accepted_photo :
    photoServices.verifyOpaqueToken "c9a2" "https://as.example/uma" ≠
      .ok (IntrospectionHandler.activeToken photoToken) :=
  introspection_never_accepted photoServices "https://as.example/uma" opaqueHandler 1
    photoStore (fun _ _ _ => rfl) "c9a2" (IntrospectionHandler.activeToken photoToken)

/-- The endpoint answers with the permissions of the token, which is active,
and the client refuses it. -/
theorem photo_refused :
    (∃ unsignedToken, unsignedToken.permissions = photoToken.permissions ∧
      introspect opaqueHandler 1 photoStore (introspectionForm "c9a2") =
        { status := 200, body := some (IntrospectionHandler.activeToken unsignedToken) }) ∧
      photoServices.verifyOpaqueToken "c9a2" "https://as.example/uma" =
        .error VerificationServices.notActive := by
  have hminted : opaqueHandler.tokenFactory.serialize mintPhoto photoToken KeyValueStorage.empty =
      .ok ({ tokenType := "Bearer", token := "c9a2" }, photoStore) := rfl
  have hconfig : photoServices.fetchUmaConfig "https://as.example/uma" = .ok photoConfig := rfl
  have hendpoint : ∀ form, photoServices.fetch photoConfig.introspectionEndpoint form =
      .ok (introspect opaqueHandler 1 photoStore form) := fun _ => rfl
  have hplain : FormPlain "c9a2" := by decide
  have hcaller : ∀ request, opaqueHandler.validator request =
      .ok "https://alice.example/profile/card#me" := fun _ => rfl
  have hrefused := introspection_refused hconfig hendpoint trivial hminted hplain (by decide) rfl
    trivial hcaller
  exact hrefused

end UserManagedAccess.Css
