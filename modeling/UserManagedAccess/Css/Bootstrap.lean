/-
UserManagedAccess.Css.Bootstrap — how the resource server of a user comes by a
PAT.

The resource server registers itself as a client of the user
(`generateClientCredentials`), keeps the credentials it gets as the header it
will send (`updateSettings`), and asks for a PAT with that (`getPat`). It reads
a response only if its status is 201.

* `readCredentials_clientCredentials` — the authorization server reads the
  header as the identifier and the secret it was made of;
* `bootstrap_accepted` — the PAT it ends up with is accepted for the user.
-/
import UserManagedAccess.Credentials.UnsecureVerifier
import UserManagedAccess.Css.Confinement
import UserManagedAccess.Css.IntrospectionTheorems
import UserManagedAccess.Routes.PatRequestTheorems
import UserManagedAccess.Util.Buffers
import UserManagedAccess.Util.QueryString

namespace UserManagedAccess.Css

open UserManagedAccess.Lib UserManagedAccess.Util UserManagedAccess.Credentials
open UserManagedAccess.Routes UserManagedAccess.Dialog

/-! ## What the resource server sends and stores -/

/-- The request of `generateClientCredentials`. -/
def registrationRequest (baseUrl webId : String) : HttpHandlerRequest where
  method := "POST"
  headers := [("authorization", webIdHeader webId), ("content-type", "application/json")]
  body := .object [("client_uri", .string baseUrl)]

/-- The header `updateSettings` stores. -/
def clientCredentials (id secret : String) : String :=
  "Basic " ++ toBase64 (encodeURIComponent id ++ ":" ++ encodeURIComponent secret)

/-- That header for the client in a response. -/
def storedCredentials (registration : Json) : String :=
  clientCredentials (UmaClient.display (registration.field "client_id"))
    (UmaClient.display (registration.field "client_secret"))

/-- The request of `getPat`. -/
def patRequest (decoder : FormDecoder) (credentials : String) : HttpHandlerRequest where
  method := "POST"
  headers := [("authorization", credentials),
    ("content-type", "application/x-www-form-urlencoded")]
  body := decoder.formToJson "grant_type=client_credentials&scope=uma_protection"

/-! ## The header with the credentials -/

theorem readCredentials_clientCredentials (server : UmaProtection) (id secret : String)
    (hbase64 : server.fromBase64 = fromBase64)
    (hdecode : server.decodeURIComponent = decodeURIComponent)
    (hbasic : server.isBasic (clientCredentials id secret) = true) :
    server.readCredentials (some (clientCredentials id secret)) = .ok (id, secret) := by
  have hheader : split ' ' (clientCredentials id secret) =
      ["Basic", toBase64 (encodeURIComponent id ++ ":" ++ encodeURIComponent secret)] := by
    have hscheme : "Basic " = "Basic" ++ String.ofList [' '] := by decide
    rw [clientCredentials, hscheme]
    exact split_two (by decide) (notMem_toBase64 (by decide) (by decide) _)
  have hparts : split ':' (encodeURIComponent id ++ ":" ++ encodeURIComponent secret) =
      [encodeURIComponent id, encodeURIComponent secret] := by
    have hcolon : ":" = String.ofList [':'] := by decide
    rw [hcolon]
    exact split_two (colon_notMem_encodeURIComponent id) (colon_notMem_encodeURIComponent secret)
  unfold UmaProtection.readCredentials
  dsimp only
  rw [hbasic, hheader, hbase64, hdecode]
  dsimp only [Bool.not_true, Bool.false_eq_true, if_false, List.getElem?_cons_succ,
    List.getElem?_cons_zero]
  rw [fromBase64_toBase64, hparts]
  dsimp only [List.getElem?_cons_succ, List.getElem?_cons_zero, Option.getD_some]
  rw [decodeURIComponent_encodeURIComponent, decodeURIComponent_encodeURIComponent]
  rfl

/-! ## The requests, one after the other -/

/-- A query that only what is new satisfies finds that. -/
theorem find_create {β : Type} {table : Table β} {id : Nat} {value : β} {query : β → Bool}
    (hold : ∀ entry ∈ table, query entry.value = false) (hnew : query value = true) :
    (table.create id value).find query = [⟨id, value⟩] := by
  have hnone : table.filter (fun entry => query entry.value) = [] :=
    List.filter_eq_nil_iff.mpr fun entry hentry =>
      Bool.eq_false_iff.mp (hold entry hentry)
  unfold Table.find Table.create
  rw [List.filter_append, hnone, List.nil_append]
  exact List.filter_cons_of_pos hnew

/-- The last object has the last identifier. -/
theorem find?_create {β : Type} {table : Table β} {id : Nat} {value : β}
    (hold : ∀ entry ∈ table, entry.id < id) :
    List.find? (fun entry => entry.id = id) (table.create id value) = some ⟨id, value⟩ := by
  have hnone : List.find? (fun entry => decide (entry.id = id)) table = none :=
    List.find?_eq_none.mpr fun entry hentry heq =>
      absurd (of_decide_eq_true heq) (Nat.ne_of_lt (hold entry hentry))
  unfold Table.create
  rw [List.find?_append, hnone]
  simp

theorem createPat_of_has {s : CredentialState} {value : Pat}
    (h : s.clientRegistrations.has value.registration = true) :
    CredentialState.createPat value s = (.ok (), { s with
      pats := s.pats.create s.created value
      created := s.created + 1 }) :=
  if_pos h

/-- What is stored for a registration. -/
def newClient (draws : Draws) (body : Json) (clientUri userId : String) : ClientRegistration where
  clientName := (body.field "client_name").asString?
  clientUri
  clientId := draws.randomUUID 0
  clientSecret := draws.randomBytes
  userId

section Runs

variable {s : CredentialState} {request : HttpHandlerRequest} (draws : Draws)

open ClientRegistrationRequestHandler in
theorem run_registerClient {userId clientUri : String}
    (hbody : ClientRegistrationInput request.body = .ok ())
    (huri : request.body.field "client_uri" = .string clientUri)
    (hnew : ∀ client ∈ s.clientRegistrations,
      ¬ (client.value.userId = userId ∧ client.value.clientUri = clientUri)) :
    (registerClient draws request userId).run s =
      (.ok (registered (newClient draws request.body clientUri userId)),
        (CredentialState.createClientRegistration
          (newClient draws request.body clientUri userId) s).2) := by
  have hnone : s.clientRegistrations.findIds (fun registration =>
      registration.userId = userId ∧ registration.clientUri = clientUri) = [] := by
    refine List.eq_nil_iff_forall_not_mem.mpr fun id hid => ?_
    obtain ⟨client, hclient, hquery, -⟩ := Table.mem_findIds.mp hid
    exact hnew client hclient (of_decide_eq_true hquery)
  unfold registerClient
  simp only [hbody, huri, Json.asString?, Option.getD_some, Async.run_bind, Async.run_call,
    CredentialState.findClientRegistrationIds, hnone]
  rfl

open ClientRegistrationRequestHandler in
theorem run_register {handler : ClientRegistrationRequestHandler} {credential : Credential}
    {claims : ClaimSet} {userId clientUri : String} {others : List String}
    (hcredential : handler.credentialParser request = .ok credential)
    (hclaims : handler.verifier credential = .ok claims)
    (huser : userIds claims = userId :: others) (hmethod : request.method = "POST")
    (hbody : ClientRegistrationInput request.body = .ok ())
    (huri : request.body.field "client_uri" = .string clientUri)
    (hnew : ∀ client ∈ s.clientRegistrations,
      ¬ (client.value.userId = userId ∧ client.value.clientUri = clientUri)) :
    (handler.handle draws request).run s =
      (.ok (registered (newClient draws request.body clientUri userId)),
        (CredentialState.createClientRegistration
          (newClient draws request.body clientUri userId) s).2) := by
  unfold handle
  simp only [hcredential, hclaims, huser, hmethod, Async.run_bind, Async.run_lift, Async.run_yield]
  exact run_registerClient draws hbody huri hnew

/-- The PAT that a request signs for a client. -/
def newPat (server : UmaProtection) (draws : Draws) (pat : String) (registration : Nat) : Pat where
  pat
  expiration := draws.now + server.tokenExpiration * 1000
  refreshToken := draws.randomUUID 0
  registration

open UmaProtection in
/-- The first PAT of a client. -/
theorem run_clientCredentials {server : UmaProtection} {authorization : Option String}
    (registration : Stored ClientRegistration) {key jwk : PrivateKey} {pat : String}
    (hcredentials : server.readCredentials authorization =
      .ok (registration.value.clientId, registration.value.clientSecret))
    (hfind : ∃ others, s.clientRegistrations.find (fun client =>
      client.clientId = registration.value.clientId ∧
        client.clientSecret = registration.value.clientSecret) = registration :: others)
    (hfirst : ∀ entry ∈ s.pats, entry.value.registration ≠ registration.id)
    (hkey : server.getPrivateKey = .ok key) (hjwk : server.importJWK key = .ok jwk)
    (hsign : server.sign jwk (server.payload draws registration.value) = .ok pat) :
    ∃ response, (server.handleClientCredentials draws authorization).run s =
        (.ok response,
          (CredentialState.createPat (newPat server draws pat registration.id) s).2) ∧
      response.status = 201 ∧ response.body.field "token_type" = .string "Bearer" ∧
      response.body.field "access_token" = .string pat := by
  obtain ⟨others, hfind⟩ := hfind
  have hnone : s.pats.findIds (fun entry => entry.registration = registration.id) = [] := by
    refine List.eq_nil_iff_forall_not_mem.mpr fun id hid => ?_
    obtain ⟨entry, hentry, hquery, -⟩ := Table.mem_findIds.mp hid
    exact hfirst entry hentry (of_decide_eq_true hquery)
  have hhas : s.clientRegistrations.has registration.id = true := by
    have hmem : registration ∈ s.clientRegistrations.find (fun client =>
        client.clientId = registration.value.clientId ∧
          client.clientSecret = registration.value.clientSecret) := by
      rw [hfind]
      exact List.mem_cons_self
    exact Table.has_iff.mpr ⟨registration, (Table.mem_find.mp hmem).1, rfl⟩
  have hcreate : CredentialState.createPat (newPat server draws pat registration.id) s =
      (.ok (), (CredentialState.createPat (newPat server draws pat registration.id) s).2) := by
    rw [createPat_of_has hhas]
  have hfound : (server.findRegistration authorization).run s = (.ok registration, s) := by
    unfold findRegistration
    simp only [hcredentials, Async.run_bind, Async.run_lift, Async.run_call,
      CredentialState.findClientRegistrations, hfind]
    rfl
  have htoken : (server.generateToken draws registration none).run s =
      (.ok (.object [("access_token", .string pat), ("refresh_token", .string (draws.randomUUID 0)),
          ("token_type", .string "Bearer"), ("expires_in", .number server.tokenExpiration)]),
        (CredentialState.createPat (newPat server draws pat registration.id) s).2) := by
    unfold generateToken
    simp only [hkey, hjwk, hsign, Async.run_bind, Async.run_lift, Async.run_yield, Async.run_call]
    unfold newPat at hcreate
    rw [hcreate]
    rfl
  refine ⟨{ status := 201, body := .object [("access_token", .string pat), ("refresh_token",
    .string (draws.randomUUID 0)), ("token_type", .string "Bearer"),
    ("expires_in", .number server.tokenExpiration)] }, ?_, rfl, rfl, rfl⟩
  unfold handleClientCredentials
  simp only [Async.run_bind, hfound, Async.run_call, CredentialState.findPatIds, hnone,
    List.head?_nil, htoken]
  rfl

/-- A PAT is accepted while it has not expired and its client is there. -/
theorem run_validate {now : Nat} {authorization : String} (pat : Stored Pat)
    (client : Stored ClientRegistration)
    (hheader : request.headers.get "authorization" = some authorization)
    (hbearer : PatRequestValidator.isBearer authorization = true)
    (hpat : ∃ others, s.pats.find (fun pat =>
      pat.pat = PatRequestValidator.readToken authorization) = pat :: others)
    (hnow : now ≤ pat.value.expiration)
    (hclient : List.find? (fun entry => entry.id = pat.value.registration)
      s.clientRegistrations = some client) :
    (PatRequestValidator.handle now request).run s = (.ok client.value.userId, s) := by
  obtain ⟨others, hpat⟩ := hpat
  have hnonempty : authorization ≠ "" := by
    rintro rfl
    exact absurd hbearer (by decide)
  have htruthy : DialogInput.truthy (some authorization) = some authorization := by
    simp [DialogInput.truthy, hnonempty]
  unfold PatRequestValidator.handle
  simp only [hheader, htruthy, hbearer, Bool.not_true, Bool.false_eq_true, if_false,
    Async.run_bind, Async.run_call, CredentialState.findPats, hpat]
  unfold PatRequestValidator.resolveOwner
  simp only [Nat.not_lt.mpr hnow, if_false, Async.run_bind, Async.run_call,
    CredentialState.getClientRegistration, hclient]
  rfl

end Runs

/-! ## The user the PAT is accepted for -/

/-- The body of the request for a PAT is the two parameters. -/
theorem formToJson_patRequest (decoder : FormDecoder) :
    decoder.formToJson "grant_type=client_credentials&scope=uma_protection" =
      .object [("grant_type", .string "client_credentials"), ("scope", .string "uma_protection")] := by
  have hparts : ((split '&' "grant_type=client_credentials&scope=uma_protection").take
      1000).filter (· ≠ "") =
        ["grant_type" ++ "=" ++ "client_credentials", "scope" ++ "=" ++ "uma_protection"] := by
    decide
  have hgrant : decoder.readPair ("grant_type" ++ "=" ++ "client_credentials") =
      ("grant_type", "client_credentials") :=
    readPair_plain decoder (by decide) (by decide) (by decide)
  have hscope : decoder.readPair ("scope" ++ "=" ++ "uma_protection") =
      ("scope", "uma_protection") :=
    readPair_plain decoder (by decide) (by decide) (by decide)
  unfold FormDecoder.formToJson
  rw [hparts, List.map_cons, List.map_singleton, hgrant, hscope]
  rfl

theorem isBearer_append (token : String) :
    PatRequestValidator.isBearer ("Bearer " ++ token) = true := by
  unfold PatRequestValidator.isBearer
  rw [String.toList_append]
  rfl

theorem readToken_append {token : String}
    (htoken : ∀ c ∈ token.toList.head?, isWhitespace c = false) :
    PatRequestValidator.readToken ("Bearer " ++ token) = token := by
  have hchars : ("Bearer " ++ token).toList = "Bearer".toList ++ ' ' :: token.toList := by
    rw [String.toList_append]
    rfl
  have hprefix : "Bearer".toList.isPrefixOf ("Bearer".toList ++ ' ' :: token.toList) = true := rfl
  have hrest : ("Bearer".toList ++ ' ' :: token.toList).drop 6 = ' ' :: token.toList := rfl
  have hspace : isWhitespace ' ' = true := by decide
  have hstays : token.toList.dropWhile isWhitespace = token.toList := by
    cases hcase : token.toList with
    | nil => rfl
    | cons c rest =>
      rw [hcase] at htoken
      rw [List.dropWhile_cons_of_neg]
      rw [htoken c rfl]
      exact Bool.false_ne_true
  unfold PatRequestValidator.readToken
  dsimp only
  rw [hchars, hprefix, if_pos rfl, hrest, List.dropWhile_cons_of_pos hspace, hstays,
    String.ofList_toList]

/-- The user a WebID is verified as. -/
theorem userIds_convert {base : IriBase} {iri : String} (hiri : isIri iri = true) :
    ClientRegistrationRequestHandler.userIds
      (IriVerifier.convert base [(WEBID, [.string iri])]) = [iri] := by
  have hget : ClaimSet.values (IriVerifier.convert base [(WEBID, [.string iri])]) WEBID =
      [.string iri] := by
    unfold ClaimSet.values
    rw [(IriVerifier.get_convert List.mem_cons_self _).1, Dict.get_cons, if_pos rfl]
    show ([.string iri] : List Json).map (IriVerifier.toIri base) = _
    rw [List.map_singleton, IriVerifier.toIri, if_pos hiri]
  unfold ClientRegistrationRequestHandler.userIds
  rw [hget]
  rfl

/-- A resource server that registers itself as a client of a user, and asks for
a PAT with the credentials it is given, gets one that is accepted for that user
until it expires. Both responses have the status the resource server looks for
before it reads them. -/
theorem bootstrap_accepted (server : CredentialServer) (decoder : FormDecoder)
    (newUrl : String → Except String String) (base : IriBase)
    (hparser : server.clientRegistration.credentialParser =
      MappedSchemeParser.handleSafe MappedSchemeParser.defaultSchemes)
    (hverifier : ∀ token, server.clientRegistration.verifier { token, format := UNSECURE } =
      (UnsecureVerifier.verify newUrl { token, format := UNSECURE }).map
        (IriVerifier.convert base))
    (hbasic : ∀ rest, server.umaProtection.isBasic ("Basic " ++ rest) = true)
    (hbase64 : server.umaProtection.fromBase64 = fromBase64)
    (hdecode : server.umaProtection.decodeURIComponent = decodeURIComponent)
    (webId : String) {iri : String} (hurl : newUrl webId = .ok iri) (hiri : isIri iri = true)
    (baseUrl : String) {s : CredentialState} (hs : s.Consistent)
    (hnumbered : ∀ client ∈ s.clientRegistrations, client.id < s.created)
    (hnew : ∀ client ∈ s.clientRegistrations,
      ¬ (client.value.userId = iri ∧ client.value.clientUri = baseUrl))
    (first second : Draws)
    (hfresh : ∀ client ∈ s.clientRegistrations, client.value.clientId ≠ first.randomUUID 0)
    {key jwk : PrivateKey} (hkey : server.umaProtection.getPrivateKey = .ok key)
    (hjwk : server.umaProtection.importJWK key = .ok jwk) {pat : String}
    (hsign : server.umaProtection.sign jwk (server.umaProtection.payload second
      (newClient first (registrationRequest baseUrl webId).body baseUrl iri)) = .ok pat)
    (hpat : ∀ entry ∈ s.pats, entry.value.pat ≠ pat)
    (hspace : ∀ c ∈ pat.toList.head?, isWhitespace c = false) :
    ∃ registration response t u,
      (server.clientRegistration.handle first (registrationRequest baseUrl webId)).run s =
        (.ok registration, t) ∧
      (server.umaProtection.handle second
        (patRequest decoder (storedCredentials registration.body))).run t = (.ok response, u) ∧
      registration.status = 201 ∧ response.status = 201 ∧
      ∀ (now : Nat) (request : HttpHandlerRequest),
        request.headers.get "authorization" = some (patHeader response.body) →
        now ≤ second.now + server.umaProtection.tokenExpiration * 1000 →
        (PatRequestValidator.handle now request).run u = (.ok iri, u) := by
  -- the registration
  have hcredential : server.clientRegistration.credentialParser
      (registrationRequest baseUrl webId) =
        .ok { token := encodeURIComponent webId, format := UNSECURE } := by
    rw [hparser]
    exact handleSafe_webIdHeader rfl (by decide) rfl
  have hclaims : server.clientRegistration.verifier
      { token := encodeURIComponent webId, format := UNSECURE } =
        .ok (IriVerifier.convert base [(WEBID, [.string iri])]) := by
    rw [hverifier, verify_webId hurl]
    rfl
  have hregister := run_register first hcredential hclaims (userIds_convert hiri) rfl rfl rfl hnew
  generalize hclient : newClient first (registrationRequest baseUrl webId).body baseUrl iri = client
    at hregister hsign
  have hid : client.clientId = first.randomUUID 0 := by rw [← hclient]; rfl
  have huser : client.userId = iri := by rw [← hclient]; rfl
  -- the PAT
  have hcredentials : server.umaProtection.readCredentials
      (some (clientCredentials client.clientId client.clientSecret)) =
        .ok (client.clientId, client.clientSecret) :=
    readCredentials_clientCredentials server.umaProtection _ _ hbase64 hdecode (hbasic _)
  have hfind : (CredentialState.createClientRegistration client s).2.clientRegistrations.find
      (fun entry => entry.clientId = client.clientId ∧ entry.clientSecret = client.clientSecret) =
        [⟨s.created, client⟩] := by
    refine find_create (fun entry hentry => decide_eq_false fun hsame => ?_)
      (decide_eq_true ⟨rfl, rfl⟩)
    exact hfresh entry hentry (hsame.1.trans hid)
  have hunused : ∀ entry ∈ s.pats, entry.value.registration ≠ s.created := by
    intro entry hentry heq
    obtain ⟨old, hold, hsame⟩ := Table.has_iff.mp (hs.refers entry hentry)
    have hlt := hnumbered old hold
    omega
  obtain ⟨response, hresponse, hstatus, htype, htoken⟩ := run_clientCredentials second
    ⟨s.created, client⟩ hcredentials ⟨[], hfind⟩ hunused hkey hjwk hsign
  refine ⟨_, response, _, (CredentialState.createPat
    (newPat server.umaProtection second pat s.created)
      (CredentialState.createClientRegistration client s).2).2, hregister, ?_, rfl, hstatus,
    fun now request hheader hnow => ?_⟩
  · have hbody := formToJson_patRequest decoder
    unfold UmaProtection.handle patRequest
    dsimp only
    rw [hbody]
    exact hresponse
  · -- the validation
    have hsent : patHeader response.body = "Bearer " ++ pat := by
      unfold patHeader
      rw [htype, htoken]
      rfl
    rw [hsent] at hheader
    rw [← huser]
    have hhas : Table.has (CredentialState.createClientRegistration client s).2.clientRegistrations
        s.created = true :=
      Table.has_iff.mpr ⟨⟨s.created, client⟩, Table.mem_create.mpr (Or.inr rfl), rfl⟩
    rw [createPat_of_has hhas]
    refine run_validate ⟨s.created + 1, newPat server.umaProtection second pat s.created⟩
      ⟨s.created, client⟩ hheader (isBearer_append pat) ⟨[], ?_⟩ hnow ?_
    · rw [readToken_append hspace]
      exact find_create (fun entry hentry => decide_eq_false (hpat entry hentry))
        (decide_eq_true rfl)
    · exact find?_create hnumbered

/-- The server of one user, with its header parsers. -/
def openServer : CredentialServer where
  clientRegistration :=
    { credentialParser := MappedSchemeParser.handleSafe MappedSchemeParser.defaultSchemes
      verifier := fun credential =>
        (UnsecureVerifier.verify .ok credential).map (IriVerifier.convert IriBase.plain) }
  umaProtection :=
    { CredentialServer.soleUser.umaProtection with
      fromBase64 := fromBase64
      decodeURIComponent := decodeURIComponent }

theorem bootstrap_accepted_alice : ∃ registration response t u,
    (openServer.clientRegistration.handle (CredentialServer.numberedDraws 0)
      (registrationRequest "https://rs.example/" "https://alice.example/profile/card#me")).run
        CredentialState.empty = (.ok registration, t) ∧
    (openServer.umaProtection.handle (CredentialServer.numberedDraws 1)
      (patRequest (QueryString.decoder UmaClient.display)
        (storedCredentials registration.body))).run t = (.ok response, u) ∧
    registration.status = 201 ∧ response.status = 201 ∧
    (PatRequestValidator.handle 1800000
      { headers := [("authorization", patHeader response.body)], body := .undefined }).run u =
        (.ok "https://alice.example/profile/card#me", u) := by
  obtain ⟨registration, response, t, u, hregister, hpat, hregistered, hgranted, hvalidate⟩ :=
    bootstrap_accepted openServer (QueryString.decoder UmaClient.display) .ok IriBase.plain rfl
      (fun _ => rfl) (fun rest => by
        show (("Basic " ++ rest).toList.take 6 == "Basic ".toList) = true
        rw [String.toList_append]
        rfl)
      rfl rfl "https://alice.example/profile/card#me" rfl (by decide)
      "https://rs.example/" CredentialState.consistent_empty (fun _ h => nomatch h)
      (fun _ h => nomatch h) (CredentialServer.numberedDraws 0) (CredentialServer.numberedDraws 1)
      (fun _ h => nomatch h) rfl rfl rfl (fun _ h => nomatch h)
      (fun _ hc => by cases hc; rfl)
  have hnow : 1800000 ≤ 0 + 1800 * 1000 := by omega
  exact ⟨registration, response, t, u, hregister, hpat, hregistered, hgranted,
    hvalidate _ _ rfl hnow⟩

end UserManagedAccess.Css
