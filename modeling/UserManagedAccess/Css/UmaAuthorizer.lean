/-
UserManagedAccess.Css.UmaAuthorizer — what becomes of a request that another
authorizer refuses.

The authorization server of the owner is asked for a ticket. Where it gives
one, the refusal names that server and the ticket; where it says that none is
needed, the request goes through.

What the client does for a ticket is `UmaClient.fetchTicket`, a call among
others of a client that many requests share. The authorizer only sees how the
call settles, and so has that as a parameter; `UsesClient` says that it is how
the calls of a run of the client settled.

* `requestTicket_eq_ok_iff` — who is asked, and what the header says;
* `handle_eq_ok_iff` — the requests that go through;
* `challenged` — every refusal carries a ticket of the only common owner;
* `challenges_given` — with the calls of a client, the permission endpoint that
  the owner's issuer announced gave that ticket for the scopes of the modes.
-/
import UserManagedAccess.Css.AuxiliaryModesExtractor
import UserManagedAccess.Css.Confinement
import UserManagedAccess.Css.OwnerUtil
import UserManagedAccess.Css.TokenVerification

namespace UserManagedAccess.Css

open UserManagedAccess.Lib UserManagedAccess.Util

/-- What is thrown, with the values its metadata has for `WWW_AUTH`. -/
structure Rejection where
  error : HttpError
  wwwAuth : List String := []

/-- A 401 or a 403. -/
def Rejection.isRefusal (rejection : Rejection) : Bool :=
  errorStatus rejection.error = 401 ∨ errorStatus rejection.error = 403

/-- `keys()` of an access map: one object for each path. -/
def identifiers {Mode : Type} (requestedModes : AccessMap Mode) : List ResourceIdentifier :=
  requestedModes.distinctKeys.zipIdx.map fun key => { object := key.2, path := key.1 }

structure UmaAuthorizer (Mode : Type) where
  authorizer : AccessMap Mode → Except Rejection Unit
  ownerUtil : OwnerUtil
  /-- How a call of `UmaClient.fetchTicket` settles; of what it throws only the
  message is used. -/
  fetchTicket : AccessMap Mode → (issuer : String) → (credentials : String) →
    Except String (Option String)

namespace UmaAuthorizer

variable {Mode : Type} (umaAuthorizer : UmaAuthorizer Mode)

def authHeader (issuer ticket : String) : String :=
  "UMA realm=\"solid\", as_uri=\"" ++ issuer ++ "\", ticket=\"" ++ ticket ++ "\""

def requestTicket (requestedModes : AccessMap Mode) : Except HttpError (Option String) := do
  let owner ← umaAuthorizer.ownerUtil.findCommonOwner (identifiers requestedModes) []
  let settings ← umaAuthorizer.ownerUtil.findUmaSettings owner
  match truthy settings.issuer, truthy settings.credentials with
  | some issuer, some credentials =>
    match umaAuthorizer.fetchTicket requestedModes issuer credentials with
    | .ok ticket => return (truthy ticket).map (authHeader issuer)
    | .error message => throw (.internalServer
        ("Error while requesting UMA header: " ++ message ++ "."))
  | _, _ => throw (.internalServer
      ("Credentials and/or issuer are not set for " ++ owner ++ "."))

def handle (requestedModes : AccessMap Mode) : Except Rejection Unit :=
  match umaAuthorizer.authorizer requestedModes with
  | .ok () => .ok ()
  | .error rejection =>
    if !rejection.isRefusal then .error rejection
    else
      match umaAuthorizer.requestTicket requestedModes with
      | .error e => .error { error := e }
      | .ok none => .ok ()
      | .ok (some authHeader) =>
        .error { rejection with wwwAuth := rejection.wwwAuth ++ [authHeader] }

end UmaAuthorizer

/-- `UmaTicketMetadataWriter.handle`: the `WWW-Authenticate` header of the
response. Metadata with two values for one predicate is an error. -/
def UmaTicketMetadataWriter.handle (rejection : Rejection) : Except HttpError (Option String) :=
  if !rejection.isRefusal then .ok none
  else
    match rejection.wwwAuth with
    | [] => .ok none
    | [authHeader] => .ok (truthy (some authHeader))
    | _ => .error (.internalServer "Multiple results for urn:css:http:headers:www-authenticate")

/-! ## The authorization server that is asked -/

/-- The only WebID that owns all of the requested resources. -/
structure SoleOwner {Mode : Type} (util : OwnerUtil) (requestedModes : AccessMap Mode)
    (webId : String) : Prop where
  owns : ∀ path ∈ requestedModes.distinctKeys, util.Owns webId path
  sole : ∀ other, (∀ path ∈ requestedModes.distinctKeys, util.Owns other path) → other = webId

/-- One account links the WebID, and has an issuer and credentials. -/
structure AccountOf (util : OwnerUtil) (webId issuer credentials : String) : Prop where
  found : ∃ accountId, util.find webId = [accountId] ∧
    util.getSetting accountId ACCOUNT_SETTINGS_AUTHZ_SERVER = some issuer ∧
    util.getSetting accountId ACCOUNT_SETTINGS_AS_TOKEN = some credentials
  issuer : issuer ≠ ""
  credentials : credentials ≠ ""

theorem findCommonOwner_identifiers {Mode : Type} {util : OwnerUtil}
    {requestedModes : AccessMap Mode} {webId : String} :
    util.findCommonOwner (identifiers requestedModes) [] = .ok webId ↔
      SoleOwner util requestedModes webId := by
  have hall : ∀ webId, (∀ r ∈ identifiers requestedModes, util.Owns webId r.path) ↔
      ∀ path ∈ requestedModes.distinctKeys, util.Owns webId path := by
    intro webId
    constructor
    · intro h path hpath
      obtain ⟨i, hi, hget⟩ := List.mem_iff_getElem.mp hpath
      refine h { object := i, path } (List.mem_map.mpr ⟨(path, i), ?_, rfl⟩)
      exact List.mem_zipIdx_iff_getElem?.mpr (List.getElem?_eq_some_iff.mpr ⟨hi, hget⟩)
    · intro h r hr
      obtain ⟨⟨path, i⟩, hkey, rfl⟩ := List.mem_map.mp hr
      exact h path (List.mem_of_getElem? (List.mem_zipIdx_iff_getElem?.mp hkey))
  have hdistinct : ∀ r ∈ identifiers requestedModes, ∀ r' ∈ identifiers requestedModes,
      r.path = r'.path → r = r' := by
    intro r hr r' hr' hpath
    obtain ⟨⟨path, i⟩, hkey, rfl⟩ := List.mem_map.mp hr
    obtain ⟨⟨path', i'⟩, hkey', rfl⟩ := List.mem_map.mp hr'
    have hpath : path = path' := hpath
    subst hpath
    have hi := List.mem_zipIdx_iff_getElem?.mp hkey
    have hi' := List.mem_zipIdx_iff_getElem?.mp hkey'
    obtain ⟨hlt, -⟩ := List.getElem?_eq_some_iff.mp hi
    have hnodup : requestedModes.distinctKeys.Nodup := requestedModes.distinct
    have hsame : i = i' := (List.getElem?_inj hlt hnodup).mp (hi.trans hi'.symm)
    rw [hsame]
  rw [OwnerUtil.findCommonOwner_eq_ok_iff]
  simp only [hall]
  exact ⟨fun h => ⟨h.2.1, h.2.2⟩, fun h => ⟨hdistinct, h.owns, h.sole⟩⟩

theorem truthy_eq_some_iff {value : Option String} {text : String} :
    truthy value = some text ↔ value = some text ∧ text ≠ "" := by
  simp [truthy, Option.filter_eq_some_iff]

namespace UmaAuthorizer

variable {Mode : Type} {umaAuthorizer : UmaAuthorizer Mode} {requestedModes : AccessMap Mode}

/-- The owner's authorization server gives this ticket, or none. -/
def Answers (umaAuthorizer : UmaAuthorizer Mode) (requestedModes : AccessMap Mode)
    (issuer : String) (ticket : Option String) : Prop :=
  ∃ webId credentials answer, SoleOwner umaAuthorizer.ownerUtil requestedModes webId ∧
    AccountOf umaAuthorizer.ownerUtil webId issuer credentials ∧
    umaAuthorizer.fetchTicket requestedModes issuer credentials = .ok answer ∧
    ticket = truthy answer

/-- The server that is asked is the one the only common owner has an account at. -/
theorem requestTicket_eq_ok_iff {header : Option String} :
    umaAuthorizer.requestTicket requestedModes = .ok header ↔
      ∃ issuer ticket, umaAuthorizer.Answers requestedModes issuer ticket ∧
        header = ticket.map (authHeader issuer) := by
  constructor
  · intro h
    obtain ⟨webId, howner, h⟩ := Except.bind_eq_ok.mp h
    obtain ⟨settings, hsettings, h⟩ := Except.bind_eq_ok.mp h
    have hsole := findCommonOwner_identifiers.mp howner
    unfold OwnerUtil.findUmaSettings at hsettings
    split at hsettings
    · cases hsettings
    · rename_i accountId hfind
      cases hsettings
      split at h
      · rename_i issuer credentials hissuer hcredentials
        obtain ⟨hissuer, hissuerText⟩ := truthy_eq_some_iff.mp hissuer
        obtain ⟨hcredentials, hcredentialsText⟩ := truthy_eq_some_iff.mp hcredentials
        split at h
        · rename_i answer hanswer
          cases h
          exact ⟨issuer, truthy answer, ⟨webId, credentials, answer, hsole,
            ⟨⟨accountId, hfind, hissuer, hcredentials⟩, hissuerText, hcredentialsText⟩,
            hanswer, rfl⟩, rfl⟩
        · cases h
      · cases h
    · cases hsettings
  · rintro ⟨issuer, ticket, ⟨webId, credentials, answer, hsole, haccount, hanswer, rfl⟩, rfl⟩
    obtain ⟨accountId, hfind, hissuer, hcredentials⟩ := haccount.found
    have hsettings : umaAuthorizer.ownerUtil.findUmaSettings webId =
        .ok { credentials := some credentials, issuer := some issuer } := by
      unfold OwnerUtil.findUmaSettings
      rw [hfind]
      simp only [hissuer, hcredentials]
    refine Except.bind_eq_ok.mpr ⟨webId, findCommonOwner_identifiers.mpr hsole, ?_⟩
    refine Except.bind_eq_ok.mpr ⟨_, hsettings, ?_⟩
    have hissuerText := truthy_eq_some_iff.mpr ⟨rfl, haccount.issuer⟩
    have hcredentialsText := truthy_eq_some_iff.mpr ⟨rfl, haccount.credentials⟩
    simp only [hissuerText, hcredentialsText, hanswer]
    rfl

/-- What asking for a ticket throws is no refusal. -/
theorem not_isRefusal_requestTicket {e : HttpError}
    (hstorage : ∀ path e, umaAuthorizer.ownerUtil.getStorageIdentifier path = .error e →
      ({ error := e } : Rejection).isRefusal = false)
    (h : umaAuthorizer.requestTicket requestedModes = .error e) :
    ({ error := e } : Rejection).isRefusal = false := by
  have hserver : (∃ message, e = .internalServer message) →
      ({ error := e } : Rejection).isRefusal = false := by
    rintro ⟨message, rfl⟩
    rfl
  rcases Except.bind_eq_error.mp h with howner | ⟨webId, -, h⟩
  · rcases OwnerUtil.findCommonOwner_error howner with hmessage | ⟨path, hpath⟩
    · exact hserver hmessage
    · exact hstorage path e hpath
  · rcases Except.bind_eq_error.mp h with hsettings | ⟨settings, -, h⟩
    · exact hserver (OwnerUtil.findUmaSettings_error hsettings)
    · split at h
      · split at h
        · cases h
        · exact hserver ⟨_, (Except.error.inj h).symm⟩
      · exact hserver ⟨_, (Except.error.inj h).symm⟩

/-! ## Requests that are refused -/

/-- What becomes of a refused request. -/
theorem handle_of_refusal {rejection : Rejection}
    (hrejects : umaAuthorizer.authorizer requestedModes = .error rejection)
    (hrefusal : rejection.isRefusal = true) :
    umaAuthorizer.handle requestedModes =
      match umaAuthorizer.requestTicket requestedModes with
      | .error e => .error { error := e }
      | .ok none => .ok ()
      | .ok (some authHeader) =>
        .error { rejection with wwwAuth := rejection.wwwAuth ++ [authHeader] } := by
  unfold handle
  simp only [hrejects, hrefusal, Bool.not_true, Bool.false_eq_true, if_false]

theorem handle_of_other {rejection : Rejection}
    (hrejects : umaAuthorizer.authorizer requestedModes = .error rejection)
    (hother : rejection.isRefusal = false) :
    umaAuthorizer.handle requestedModes = .error rejection := by
  unfold handle
  simp only [hrejects, hother, Bool.not_false, if_true]

/-- A request goes through if the authorizer allows it, or if it is refused
and the authorization server of the only common owner asks for no ticket. -/
theorem handle_eq_ok_iff :
    umaAuthorizer.handle requestedModes = .ok () ↔
      umaAuthorizer.authorizer requestedModes = .ok () ∨
        ∃ rejection issuer, umaAuthorizer.authorizer requestedModes = .error rejection ∧
          rejection.isRefusal = true ∧ umaAuthorizer.Answers requestedModes issuer none := by
  constructor
  · intro h
    cases hdecision : umaAuthorizer.authorizer requestedModes with
    | ok u => exact .inl rfl
    | error rejection =>
      cases hrefusal : rejection.isRefusal with
      | false =>
        rw [handle_of_other hdecision hrefusal] at h
        cases h
      | true =>
        rw [handle_of_refusal hdecision hrefusal] at h
        cases hticket : umaAuthorizer.requestTicket requestedModes with
        | error e =>
          rw [hticket] at h
          cases h
        | ok header =>
          cases header with
          | some header =>
            rw [hticket] at h
            cases h
          | none =>
            obtain ⟨issuer, ticket, hanswers, hheader⟩ := requestTicket_eq_ok_iff.mp hticket
            rw [Option.map_eq_none_iff.mp hheader.symm] at hanswers
            exact .inr ⟨rejection, issuer, rfl, hrefusal, hanswers⟩
  · rintro (hallowed | ⟨rejection, issuer, hrejects, hrefusal, hanswers⟩)
    · unfold handle
      rw [hallowed]
    · rw [handle_of_refusal hrejects hrefusal,
        requestTicket_eq_ok_iff.mpr ⟨issuer, none, hanswers, rfl⟩]
      rfl

theorem authHeader_ne_empty (issuer ticket : String) : authHeader issuer ticket ≠ "" := by
  intro h
  have hquote : "\"" = "" := (String.append_eq_empty_iff.mp h).2
  exact absurd hquote (by decide)

/-- A refusal names the server that was asked, and the ticket it gave. -/
theorem refused_of_handle
    (hinner : ∀ rejection, umaAuthorizer.authorizer requestedModes = .error rejection →
      rejection.wwwAuth = [])
    (hstorage : ∀ path e, umaAuthorizer.ownerUtil.getStorageIdentifier path = .error e →
      ({ error := e } : Rejection).isRefusal = false)
    {rejection : Rejection} (hhandle : umaAuthorizer.handle requestedModes = .error rejection)
    (hrefused : rejection.isRefusal = true) :
    ∃ issuer ticket, umaAuthorizer.Answers requestedModes issuer (some ticket) ∧
      umaAuthorizer.authorizer requestedModes = .error { error := rejection.error } ∧
      UmaTicketMetadataWriter.handle rejection = .ok (some (authHeader issuer ticket)) := by
  cases hdecision : umaAuthorizer.authorizer requestedModes with
  | ok u =>
    rw [handle_eq_ok_iff.mpr (.inl hdecision)] at hhandle
    cases hhandle
  | error original =>
    obtain ⟨error, wwwAuth⟩ := original
    have hempty : wwwAuth = [] := hinner _ hdecision
    subst hempty
    cases hrefusal : Rejection.isRefusal { error } with
    | false =>
      rw [handle_of_other hdecision hrefusal] at hhandle
      cases hhandle
      rw [hrefusal] at hrefused
      cases hrefused
    | true =>
      rw [handle_of_refusal hdecision hrefusal] at hhandle
      cases hticket : umaAuthorizer.requestTicket requestedModes with
      | error e =>
        rw [hticket] at hhandle
        cases hhandle
        rw [not_isRefusal_requestTicket hstorage hticket] at hrefused
        cases hrefused
      | ok header =>
        obtain ⟨issuer, ticket, hanswers, rfl⟩ := requestTicket_eq_ok_iff.mp hticket
        rw [hticket] at hhandle
        cases ticket with
        | none => cases hhandle
        | some ticket =>
          cases hhandle
          refine ⟨issuer, ticket, hanswers, rfl, ?_⟩
          have htext := truthy_eq_some_iff.mpr ⟨rfl, authHeader_ne_empty issuer ticket⟩
          unfold UmaTicketMetadataWriter.handle
          rw [hrefused]
          simp only [List.nil_append, htext]
          rfl

/-- Where the authorizer itself sets no header and finding a storage is never
refused: exactly the requests that need no ticket go through, and every
response with status 401 or 403 names the authorization server of the only
common owner and a ticket that server gave for the requested modes. -/
theorem challenged (umaAuthorizer : UmaAuthorizer Mode) (requestedModes : AccessMap Mode)
    (hinner : ∀ rejection, umaAuthorizer.authorizer requestedModes = .error rejection →
      rejection.wwwAuth = [])
    (hstorage : ∀ path e, umaAuthorizer.ownerUtil.getStorageIdentifier path = .error e →
      ({ error := e } : Rejection).isRefusal = false) :
    (umaAuthorizer.handle requestedModes = .ok () ↔
        umaAuthorizer.authorizer requestedModes = .ok () ∨
          ∃ rejection issuer, umaAuthorizer.authorizer requestedModes = .error rejection ∧
            rejection.isRefusal = true ∧ umaAuthorizer.Answers requestedModes issuer none) ∧
      ∀ rejection, umaAuthorizer.handle requestedModes = .error rejection →
        rejection.isRefusal = true →
          ∃ issuer ticket, umaAuthorizer.Answers requestedModes issuer (some ticket) ∧
            umaAuthorizer.authorizer requestedModes = .error { error := rejection.error } ∧
            UmaTicketMetadataWriter.handle rejection = .ok (some (authHeader issuer ticket)) :=
  ⟨handle_eq_ok_iff, fun _ hhandle hrefused =>
    refused_of_handle hinner hstorage hhandle hrefused⟩

/-- Two resources in the pods of two users, the second shared with the first user. -/
def sharedPods : OwnerUtil where
  getStorageIdentifier path := .ok (if path = "https://pods.example/alice/photo" then
    "https://pods.example/alice/" else "https://pods.example/bob/")
  findByBaseUrl storage := some storage
  getOwners pod := some (if pod = "https://pods.example/alice/" then ["alice"] else ["bob", "alice"])
  find webId := [webId]
  getSetting accountId _ := some ("https://as.example/" ++ accountId)

def bothPods : AccessMap String :=
  (SetMultiMap.empty.add "https://pods.example/bob/photo" {"read"}).add
    "https://pods.example/alice/photo" {"read"}

def refusing : UmaAuthorizer String where
  authorizer _ := .error { error := .unauthorized }
  ownerUtil := sharedPods
  fetchTicket _ _ _ := .ok (some "t1")

theorem challenged_both : ∃ rejection issuer ticket,
    refusing.handle bothPods = .error rejection ∧
      refusing.Answers bothPods issuer (some ticket) ∧
      UmaTicketMetadataWriter.handle rejection = .ok (some (authHeader issuer ticket)) := by
  have hhandle : refusing.handle bothPods = .error
      { error := .unauthorized, wwwAuth := [authHeader "https://as.example/alice" "t1"] } := rfl
  obtain ⟨-, hchallenge⟩ := challenged refusing bothPods
    (fun rejection h => by cases h; rfl) (fun path e h => by cases h)
  obtain ⟨issuer, ticket, hanswers, -, hheader⟩ := hchallenge _ hhandle rfl
  exact ⟨_, issuer, ticket, hhandle, hanswers, hheader⟩

/-! ## The client that is asked for tickets -/

/-- The entries of an access map, each set of modes in some order. -/
structure Lists (requestedModes : AccessMap String)
    (permissions : List (String × List String)) : Prop where
  targets : permissions.map Prod.fst = requestedModes.distinctKeys
  modes : ∀ permission ∈ permissions, permission.2.Nodup ∧
    permission.2.toFinset = requestedModes.values permission.1

/-- What the authorizer is given for a ticket is how a call of the client
settled, that asked for these modes with this account. -/
def UsesClient (umaAuthorizer : UmaAuthorizer String) (w : World UmaClient.platform) : Prop :=
  ∀ requestedModes issuer credentials ticket,
    umaAuthorizer.fetchTicket requestedModes issuer credentials = .ok ticket →
      ∃ i permissions, Lists requestedModes permissions ∧
        w.tasks i = some ⟨.fetchTicket permissions issuer credentials, .settled (.ok ticket)⟩

section Client

variable {setting : ClientSetting} {umaIdStore : KeyValueStorage String String}
  {events : List (LoopEvent UmaClient.platform)} {w : World UmaClient.platform}
  {umaAuthorizer : UmaAuthorizer String} {requestedModes : AccessMap String}

/-- In this run, the server of the only common owner gave this ticket for the
requested modes, or said that none is needed. -/
def Given (setting : ClientSetting) (umaIdStore : KeyValueStorage String String)
    (events : List (LoopEvent UmaClient.platform)) (util : OwnerUtil)
    (requestedModes : AccessMap String) (issuer : String) (ticket : Option String) : Prop :=
  ∃ webId credentials permissions, SoleOwner util requestedModes webId ∧
    AccountOf util webId issuer credentials ∧ Lists requestedModes permissions ∧
    (UmaClient.learnedIn setting umaIdStore events).Ticketed setting permissions issuer ticket

/-- An answer that is used is one that was given: no ticket is empty. -/
theorem given_of_answers
    (hpublic : ∀ call, .call call ∈ events → (UmaClient.Call.account call).isSome)
    (hrun : (UmaClient.system setting).run (UmaClient.newClient umaIdStore) events = some w)
    (hclient : umaAuthorizer.UsesClient w) {issuer : String} {ticket : Option String}
    (h : umaAuthorizer.Answers requestedModes issuer ticket) :
    Given setting umaIdStore events umaAuthorizer.ownerUtil requestedModes issuer ticket := by
  obtain ⟨webId, credentials, answer, hsole, haccount, hanswer, rfl⟩ := h
  obtain ⟨i, permissions, hlists, hsettled⟩ := hclient _ _ _ _ hanswer
  have hgiven := UmaClient.ticket_given hpublic hrun hsettled
  obtain ⟨config, entries, hconfig, hentries, pat, response, hanswered, hgives⟩ := id hgiven
  have hsame : truthy answer = answer := by
    cases hgives with
    | notNeeded => rfl
    | ticket _ _ hticket => exact truthy_eq_some_iff.mpr ⟨rfl, (truthy_eq_some_iff.mp hticket).2⟩
  rw [hsame]
  exact ⟨webId, credentials, permissions, hsole, haccount, hlists, hgiven⟩

/-- Whatever else the client does at the same time: a request that was refused
goes through only where the permission endpoint of the only common owner has
said that no ticket is needed for the requested modes, and every response with
status 401 or 403 names that owner's issuer and a ticket that its permission
endpoint gave for them. -/
theorem challenges_given (requestedModes : AccessMap String)
    (hpublic : ∀ call, .call call ∈ events → (UmaClient.Call.account call).isSome)
    (hrun : (UmaClient.system setting).run (UmaClient.newClient umaIdStore) events = some w)
    (hclient : umaAuthorizer.UsesClient w)
    (hinner : ∀ rejection, umaAuthorizer.authorizer requestedModes = .error rejection →
      rejection.wwwAuth = [])
    (hstorage : ∀ path e, umaAuthorizer.ownerUtil.getStorageIdentifier path = .error e →
      ({ error := e } : Rejection).isRefusal = false) :
    (umaAuthorizer.handle requestedModes = .ok () →
        umaAuthorizer.authorizer requestedModes = .ok () ∨ ∃ issuer,
          Given setting umaIdStore events umaAuthorizer.ownerUtil requestedModes issuer none) ∧
      ∀ rejection, umaAuthorizer.handle requestedModes = .error rejection →
        rejection.isRefusal = true → ∃ issuer ticket,
          Given setting umaIdStore events umaAuthorizer.ownerUtil requestedModes issuer
            (some ticket) ∧
          UmaTicketMetadataWriter.handle rejection = .ok (some (authHeader issuer ticket)) := by
  constructor
  · intro hhandle
    rcases handle_eq_ok_iff.mp hhandle with hallowed | ⟨_, issuer, -, -, hanswers⟩
    · exact .inl hallowed
    · exact .inr ⟨issuer, given_of_answers hpublic hrun hclient hanswers⟩
  · intro rejection hhandle hrefused
    obtain ⟨issuer, ticket, hanswers, -, hheader⟩ :=
      refused_of_handle hinner hstorage hhandle hrefused
    exact ⟨issuer, ticket, given_of_answers hpublic hrun hclient hanswers, hheader⟩

/-- A server that gives a ticket for everything it is asked. -/
def ticketing : (op : UmaClient.Op) → UmaClient.OpReply op
  | .fetch (.permission ..) => .ok ⟨201, some (.object [("ticket", .string "t1")])⟩
  | op => UmaClient.serving op

def served (i steps : Nat) : List (LoopEvent UmaClient.platform) :=
  List.replicate steps .advance ++ [.answer i ticketing, .resume i]

/-- The modes of both pods, at the server of the user who owns the two resources. -/
def bothEntries : List (String × List String) :=
  [("https://pods.example/bob/photo", ["read"]), ("https://pods.example/alice/photo", ["read"])]

/-- A client is asked for that ticket, and gets the configuration, the ids and a
PAT for it. -/
def asked : List (LoopEvent UmaClient.platform) :=
  .call (.fetchTicket bothEntries "https://as.example/alice" "https://as.example/alice") ::
    served 0 2 ++ served 0 1 ++ served 0 2 ++ served 0 1 ++ served 0 1 ++ served 1 6 ++
    served 1 1 ++ served 1 1 ++ List.replicate 4 .advance ++ .resume 0 :: served 0 1 ++
    served 0 1 ++ [.advance]

/-- What a call for a ticket settled with. -/
def settledTicket? : Option (Task UmaClient.platform) →
    Option (List (String × List String) × String × String × Option String)
  | some ⟨.fetchTicket permissions issuer credentials, .settled (.ok ticket)⟩ =>
    some (permissions, issuer, credentials, ticket)
  | _ => none

theorem tasks_of_settledTicket {task : Option (Task UmaClient.platform)}
    {permissions : List (String × List String)} {issuer credentials : String}
    {ticket : Option String}
    (h : settledTicket? task = some (permissions, issuer, credentials, ticket)) :
    task = some ⟨.fetchTicket permissions issuer credentials, .settled (.ok ticket)⟩ := by
  unfold settledTicket? at h
  split at h
  · cases h
    rfl
  · cases h

theorem settled_asked :
    ((UmaClient.system UmaClient.tree).run (UmaClient.newClient fun _ => some "id") asked).map
      (fun w => settledTicket? (w.tasks 0)) =
    some (some (bothEntries, "https://as.example/alice", "https://as.example/alice",
      some "t1")) := by
  decide +kernel

/-- How the call settled, for whoever asks the same. -/
def ticketForBoth (requestedModes : AccessMap String) (issuer credentials : String) :
    Except String (Option String) :=
  if requestedModes.entrySets = bothPods.entrySets ∧ issuer = "https://as.example/alice" ∧
      credentials = "https://as.example/alice" then .ok (some "t1")
  else .error "no such call"

theorem ticketForBoth_ok {requestedModes : AccessMap String} {issuer credentials : String}
    {ticket : Option String} (h : ticketForBoth requestedModes issuer credentials = .ok ticket) :
    requestedModes.entrySets = bothPods.entrySets ∧ issuer = "https://as.example/alice" ∧
      credentials = "https://as.example/alice" ∧ ticket = some "t1" := by
  unfold ticketForBoth at h
  split at h
  case isTrue hasked =>
    have hticket : some "t1" = ticket := Except.ok.inj h
    exact ⟨hasked.1, hasked.2.1, hasked.2.2, hticket.symm⟩
  case isFalse => cases h

def asking : UmaAuthorizer String := { refusing with fetchTicket := ticketForBoth }

theorem lists_bothEntries {requestedModes : AccessMap String}
    (h : requestedModes.entrySets = bothPods.entrySets) : Lists requestedModes bothEntries := by
  have hkeys : requestedModes.distinctKeys = bothPods.distinctKeys := congrArg Dict.keys h
  have hvalues : ∀ key, requestedModes.values key = bothPods.values key := fun key =>
    congrArg (fun entries : Dict (Finset String) => (entries.get key).getD ∅) h
  constructor
  · rw [hkeys]
    decide +kernel
  · intro permission hpermission
    rw [hvalues]
    revert permission
    decide +kernel

theorem challenges_given_both : ∃ rejection issuer ticket,
    asking.handle bothPods = .error rejection ∧
      Given UmaClient.tree (fun _ => some "id") asked sharedPods bothPods issuer (some ticket) ∧
      UmaTicketMetadataWriter.handle rejection = .ok (some (authHeader issuer ticket)) := by
  obtain ⟨w, hrun, hsettled⟩ := Option.map_eq_some_iff.mp settled_asked
  have hpublic : ∀ call, .call call ∈ asked → (UmaClient.Call.account call).isSome := by
    intro call hcall
    simp only [asked, served, List.mem_cons, List.mem_append, List.mem_replicate] at hcall
    simp at hcall
    subst hcall
    rfl
  have hclient : asking.UsesClient w := by
    intro requestedModes issuer credentials ticket hticket
    obtain ⟨hmodes, rfl, rfl, rfl⟩ := ticketForBoth_ok hticket
    exact ⟨0, bothEntries, lists_bothEntries hmodes, tasks_of_settledTicket hsettled⟩
  have hhandle : asking.handle bothPods = .error
      { error := .unauthorized, wwwAuth := [authHeader "https://as.example/alice" "t1"] } := rfl
  obtain ⟨-, hchallenges⟩ := challenges_given bothPods hpublic hrun hclient
    (fun rejection h => by cases h; rfl) (fun path e h => by cases h)
  obtain ⟨issuer, ticket, hgiven, hheader⟩ := hchallenges _ hhandle rfl
  exact ⟨_, issuer, ticket, hhandle, hgiven, hheader⟩

end Client

end UmaAuthorizer

end UserManagedAccess.Css
