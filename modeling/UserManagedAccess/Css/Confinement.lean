/-
UserManagedAccess.Css.Confinement — where credentials and PATs are sent.

The client gets an account (an issuer, and the credentials there) with every
call. It asks the issuer for its configuration, gets a PAT with the credentials
at the token endpoint of that, and keeps both. A PAT is kept for the
credentials alone.

`Learned` is what calls and answers can tell a client, and `Confined` what a
request may then be. The proof is a contract (`Lib.Contracts`): what is stored
was learned, every request is confined, a PAT and a ticket that a call returns
were given, and the outside may answer anything at any time. The parts of the
calls that neither send nor store are `Plain`, and every call is put together
from those with `andThen`; the runs are then `Contract.holds_run`.

Nothing is assumed of the answers. The credentials of two issuers may be the
same, and then a PAT of one of them is sent to the other
(`requests_confined_crossing`). Getting credentials in the first place and the
verification of tokens are not calls of this client: they ask other endpoints,
and use no PAT.

* `program_obeys` — the contract of each call;
* `requests_confined` — every request of every run is confined;
* `ticket_given` — what a settled `fetchTicket` returned was given by the
  endpoint of its issuer, for the scopes of the modes it asked for.
-/
import UserManagedAccess.Css.UmaClientTheorems
import UserManagedAccess.Lib.Contracts

namespace UserManagedAccess.Css

open UserManagedAccess.Lib UserManagedAccess.Util UserManagedAccess.Views

/-- The PAT in a response, as it is sent from then on. -/
def patHeader (response : Json) : String :=
  UmaClient.display (response.field "token_type") ++ " " ++
    UmaClient.display (response.field "access_token")

/-- The PAT that is sent along. -/
def Request.pat? : Request → Option String
  | .config _ => none
  | .token .. => none
  | .resource request => some request.pat
  | .unregister _ _ _ pat => some pat
  | .permission _ pat _ => some pat

namespace UmaClient

/-! ## What a client learns -/

/-- The answers to a request for a ticket that say what to do: none is needed,
or this one. -/
inductive Gives (response : Response) : Option String → Prop
  | notNeeded : response.status = 200 → Gives response none
  | ticket {body : Json} {ticket : String} : response.status = 201 →
      response.body = some body → truthy (body.field "ticket").asString? = some ticket →
      Gives response (some ticket)

/-- The accounts of the calls, and what servers answered: the configuration at
a URL, the PAT for credentials at an endpoint, and the ticket for entries. -/
structure Learned where
  account : String → String → Prop
  announced : String → UmaConfig → Prop
  granted : String → String → String → Prop
  ticketed : String → List TicketEntry → Option String → Prop

namespace Learned

variable (k : Learned)

/-- The issuer announced this configuration. -/
def Configured (issuer : String) (config : UmaConfig) : Prop :=
  k.announced (issuer ++ UMA_DISCOVERY) config

/-- An issuer of the credentials granted the PAT for them. -/
def Issued (issuer credentials pat : String) : Prop :=
  ∃ config, k.account issuer credentials ∧ k.Configured issuer config ∧
    k.granted config.tokenEndpoint credentials pat

/-- The permission endpoint of the issuer gave this ticket, or none, for the
scopes of these modes. -/
def Ticketed (setting : ClientSetting) (permissions : List (String × List String))
    (issuer : String) (ticket : Option String) : Prop :=
  ∃ config entries, k.Configured issuer config ∧
    List.Forall₂ (fun permission entry =>
      permission.2.mapM setting.toUmaScope = .ok entry.resourceScopes) permissions entries ∧
    k.ticketed config.permissionEndpoint entries ticket

/-- The request goes to where the issuer has announced it, with these
credentials if with any. -/
def AddressedTo (setting : ClientSetting) (issuer credentials : String) : Request → Prop
  | .config url => url = issuer ++ UMA_DISCOVERY
  | .token endpoint sent => sent = credentials ∧
      ∃ config, k.Configured issuer config ∧ endpoint = config.tokenEndpoint
  | .resource request => request.issuer = issuer ∧ ∃ config, k.Configured issuer config ∧
      request.endpoint = match request.knownUmaId with
        | some umaId => setting.joinUrl config.resourceRegistrationEndpoint
            (Credentials.encodeURIComponent umaId)
        | none => config.resourceRegistrationEndpoint
  | .unregister registry umaId url _ => registry = issuer ∧ ∃ config, k.Configured issuer config ∧
      url = setting.joinUrl config.resourceRegistrationEndpoint
        (Credentials.encodeURIComponent umaId)
  | .permission endpoint _ _ =>
      ∃ config, k.Configured issuer config ∧ endpoint = config.permissionEndpoint

/-- A request for an account, with a PAT for its credentials if with any. -/
def Confined (setting : ClientSetting) (request : Request) : Prop :=
  ∃ issuer credentials, k.account issuer credentials ∧
    k.AddressedTo setting issuer credentials request ∧
    ∀ pat ∈ request.pat?, ∃ other, k.Issued other credentials pat

/-- The answer tells what was learned. -/
def Hears : (op : Op) → OpReply op → Prop
  | .fetch (.config url), .ok response => response.status < 400 →
      ∀ body, response.body = some body → k.announced url (UmaConfig.ofJson body)
  | .fetch (.token endpoint credentials), .ok response => response.status = 201 →
      ∀ body, response.body = some body → k.granted endpoint credentials (patHeader body)
  | .fetch (.permission endpoint _ entries), .ok response => ∀ ticket,
      Gives response ticket → k.ticketed endpoint entries ticket
  | _, _ => True

def contract (setting : ClientSetting) : Contract platform where
  keeps s := (∀ credentials pat expiration,
      s.patStorage.get credentials = some (pat, expiration) →
        ∃ issuer, k.Issued issuer credentials pat) ∧
    ∀ issuer config expiration, s.configCache.get issuer = some (config, expiration) →
      k.Configured issuer config
  does
    | .storePat credentials pat _ => ∃ issuer, k.Issued issuer credentials pat
    | .cacheConfig issuer config => k.Configured issuer config
    | _ => True
  sees
    | .cachedPat credentials, reply => ∀ pat, reply = some pat →
        ∃ issuer, k.Issued issuer credentials pat
    | .cachedConfig issuer, reply => ∀ config, reply = some config → k.Configured issuer config
    | _, _ => True
  asks
    | .fetch request => k.Confined setting request
    | _ => True
  hears := k.Hears
  calls
    | .getPat issuer credentials => k.account issuer credentials
    | .fetchTicket _ issuer credentials => k.account issuer credentials
    | .registerResource _ issuer credentials => k.account issuer credentials
    | .registerAfterParent _ _ issuer credentials => k.account issuer credentials
    | .sendRegistration request => k.Confined setting (.resource request)
    | .deleteResource _ issuer credentials => k.account issuer credentials
  returns
    | .getPat _ credentials, value => ∃ pat issuer, value = some pat ∧
        k.Issued issuer credentials pat
    | .fetchTicket permissions issuer _, value => k.Ticketed setting permissions issuer value
    | _, _ => True

/-! ## The contract of each call -/

variable {k : Learned} {setting : ClientSetting} {started : List (Nat × Call)}
  {issuer credentials path : String}

/-- A part of a call that obeys whatever it returns. -/
abbrev Plain (k : Learned) (setting : ClientSetting) {α : Type} (p : Method α) : Prop :=
  ∀ started, (k.contract setting).Obeys started (fun _ _ => True) p

section Parts

variable {α : Type}

theorem plain_of {p : Method α} {S : α → Prop} (h : ∀ started,
    (k.contract setting).Obeys started (fun _ a => S a) p) : Plain k setting p :=
  fun started => (h started).mono fun _ _ _ => trivial

theorem plain_throw {e : HttpError} : Plain k setting (Body.done (.error e) : Method α) :=
  fun _ => .throw

theorem plain_perform {op : Op} {result : OpReply op → Except HttpError α}
    (h : (k.contract setting).asks op) :
    Plain k setting (Body.perform (P := platform) op fun reply => .done (result reply)) :=
  fun _ => ⟨h, fun _ _ _ _ => trivial⟩

end Parts

theorem obeys_fetch {request : Request} (h : k.Confined setting request) :
    (k.contract setting).Obeys started
      (fun _ response => k.Hears (.fetch request) (.ok response)) (fetch request) := by
  refine ⟨h, fun reply hreply response hresponse => ?_⟩
  subst hresponse
  exact hreply

theorem obeys_json {response : Response} : (k.contract setting).Obeys started
    (fun _ body => response.body = some body) (json response) := by
  refine ⟨trivial, fun reply _ => ?_⟩
  cases reply with
  | error e => exact .throw
  | ok u =>
    cases hbody : response.body with
    | none => exact .throw
    | some body => exact .pure rfl

theorem obeys_cachedConfig : (k.contract setting).Obeys started
    (fun _ reply => ∀ config, reply = some config → k.Configured issuer config)
    (cachedConfig issuer) := by
  refine ⟨trivial, fun reply hreply result hresult => ?_⟩
  cases hresult
  exact hreply

theorem obeys_cachedPat : (k.contract setting).Obeys started
    (fun _ reply => ∀ pat, reply = some pat → ∃ issuer, k.Issued issuer credentials pat)
    (cachedPat credentials) := by
  refine ⟨trivial, fun reply hreply result hresult => ?_⟩
  cases hresult
  exact hreply

theorem obeys_fetchUmaConfig (h : k.account issuer credentials) :
    (k.contract setting).Obeys started (fun _ config => k.Configured issuer config)
      (fetchUmaConfig issuer) := by
  refine .andThen obeys_cachedConfig fun started cached hcached => ?_
  cases cached with
  | some config => exact .pure (hcached config rfl)
  | none =>
    refine .andThen (obeys_fetch ⟨issuer, credentials, h, rfl, nofun⟩) fun started res hres => ?_
    refine .ite (fun _ => .throw) fun hstatus => ?_
    refine .andThen obeys_json fun started configuration hbody => ?_
    refine .ite (fun _ => .throw) fun _ => .ite (fun _ => .throw) fun _ => ?_
    have hconfigured : k.Configured issuer (UmaConfig.ofJson configuration) :=
      hres (Nat.lt_of_not_le hstatus) configuration hbody
    refine .andThen (S := fun _ => True) ⟨hconfigured, fun _ _ _ _ => trivial⟩ fun _ _ _ => ?_
    exact .pure hconfigured

/-! ### The PAT -/

theorem plain_leave {signal : Signal} : Plain k setting (leave signal) :=
  fun _ => ⟨trivial, fun _ _ _ _ => trivial⟩

theorem plain_tick : Plain k setting tick := plain_perform trivial

theorem plain_text {response : Response} : Plain k setting (text response) := plain_perform trivial

theorem plain_getId : Plain k setting (getId path) := plain_perform trivial

theorem plain_setId {umaId : String} : Plain k setting (setId path umaId) := plain_perform trivial

theorem plain_destructure {value : Json} : Plain k setting (destructure value) :=
  fun _ => .ite (fun _ => .throw) fun _ => .pure trivial

theorem getPat_obeys (h : k.account issuer credentials) :
    (k.contract setting).Obeys started
      (fun _ value => (k.contract setting).returns (.getPat issuer credentials) value)
      (getPat issuer credentials) := by
  refine .andThen obeys_cachedPat fun started cached hcached => ?_
  cases cached with
  | some pat =>
    obtain ⟨other, hissued⟩ := hcached pat rfl
    exact .pure ⟨pat, other, rfl, hissued⟩
  | none =>
    refine .andThen (S := fun _ => True) ⟨trivial, fun _ _ _ _ => trivial⟩ fun started entered _ =>
      .ite (fun _ => ?_) fun _ => ?_
    · -- somebody else is getting a PAT
      refine .andThen (S := fun _ => True) (fun _ _ _ => trivial) fun started _ _ => ?_
      exact .await h
    · refine .andThen (obeys_fetchUmaConfig h) fun started config hconfig => ?_
      refine .andThen (plain_tick started) fun started _ _ => ?_
      refine .andThen (obeys_fetch ⟨issuer, credentials, h, ⟨rfl, config, hconfig, rfl⟩, nofun⟩)
        fun started response hresponse => .ite (fun _ => ?_) fun hstatus => ?_
      · exact .andThen (plain_text started) fun _ _ _ => .throw
      · refine .andThen obeys_json fun started body hbody => ?_
        refine .andThen (plain_destructure started) fun started _ _ => ?_
        have hissued : k.Issued issuer credentials (patHeader body) :=
          ⟨config, h, hconfig, hresponse (not_not.mp hstatus) body hbody⟩
        refine .andThen (S := fun _ => True) ⟨⟨issuer, hissued⟩, fun _ _ _ _ => trivial⟩
          fun started _ _ => ?_
        refine .andThen (plain_leave started) fun _ _ _ => ?_
        exact .pure ⟨_, issuer, rfl, hissued⟩

theorem obeys_awaitPat (h : k.account issuer credentials) : (k.contract setting).Obeys started
    (fun _ pat => ∃ issuer, k.Issued issuer credentials pat) (awaitPat issuer credentials) := by
  refine .andThen (.await h) fun started value hvalue => ?_
  obtain ⟨pat, other, rfl, hissued⟩ := hvalue
  exact .pure ⟨other, hissued⟩

/-! ### Registrations -/

theorem plain_await {call : Call} (h : (k.contract setting).calls call) :
    Plain k setting (Body.await (P := platform) call) :=
  plain_of fun _ => Contract.Obeys.await h

theorem registerAfterParent_plain {parent : String} (h : k.account issuer credentials) :
    Plain k setting (registerAfterParent parent path issuer credentials) :=
  fun _ => .andThen (S := fun _ => True) (fun _ _ _ => trivial) fun started _ _ =>
    plain_await (by exact h) started

theorem sendRegistration_plain {request : ResourceRequest}
    (h : k.Confined setting (.resource request)) : Plain k setting (sendRegistration request) := by
  intro started
  have hleave : Plain k setting (do leave (.resource request.path); return (none : Option String)) :=
    fun started => .andThen (plain_leave started) fun _ _ _ => .pure trivial
  refine .andThen (obeys_fetch h) fun started resp _ => .ite (fun _ => .ite (fun _ => ?_) fun _ => ?_)
    fun _ => .ite (fun _ => ?_) fun _ => ?_
  · exact .andThen (plain_text started) fun _ _ _ => .throw
  · exact hleave started
  · exact .andThen (plain_text started) fun _ _ _ => .throw
  · refine .andThen obeys_json fun started body _ => .andThen (plain_destructure started) fun started _ _ => ?_
    cases (body.field "_id").asString? with
    | none => exact .throw
    | some umaId =>
      exact .andThen (plain_setId started) fun started _ _ => hleave started

theorem plain_start {call : Call} (h : (k.contract setting).calls call) :
    Plain k setting (start call) :=
  fun _ => ⟨h, fun _ _ _ => trivial⟩

theorem plain_isInProgress {signal : Signal} : Plain k setting (isInProgress signal) :=
  fun _ => ⟨trivial, fun _ _ _ _ => trivial⟩

theorem plain_relateToParent (h : k.account issuer credentials) :
    Plain k setting (relateToParent setting path issuer credentials) := by
  refine fun _ => .ite (fun _ => .pure trivial) fun _ => ?_
  refine .andThen (plain_getId _) fun started id _ => ?_
  cases truthy id with
  | some parentId => exact .pure trivial
  | none =>
    refine .andThen (plain_start (by exact h) _) fun started update _ => ?_
    refine .andThen (plain_isInProgress _) fun started waits _ => .ite (fun _ => .pure trivial) fun _ => ?_
    exact .andThen (plain_start (by exact h) _) fun started registration _ => .pure trivial

theorem registerResource_plain (h : k.account issuer credentials) :
    Plain k setting (registerResource setting path issuer credentials) := by
  refine fun _ => .andThen (S := fun _ => True) ⟨trivial, fun _ _ _ _ => trivial⟩
    fun started entered _ => .ite (fun _ => ?_) fun _ => ?_
  · exact .andThen (S := fun _ => True) (fun _ _ _ => trivial) fun started _ _ =>
      plain_await (by exact h) started
  · refine .andThen (obeys_fetchUmaConfig h) fun started config hconfig => ?_
    refine .andThen (plain_tick started) fun started _ _ => ?_
    refine .andThen (plain_getId started) fun started id _ => ?_
    refine .andThen (obeys_awaitPat h) fun started pat ⟨other, hissued⟩ => ?_
    refine .andThen (plain_relateToParent h started) fun started related _ => ?_
    refine .andThen (plain_start ?_ started) fun started fetchPromise _ => ?_
    · exact ⟨issuer, credentials, h, ⟨rfl, config, hconfig, rfl⟩, fun _ hpat =>
        ⟨other, Option.some_inj.mp hpat ▸ hissued⟩⟩
    · exact .andThen (S := fun _ => True) (fun _ _ _ _ => trivial) fun _ _ _ => .pure trivial

theorem deleteResource_plain (h : k.account issuer credentials) :
    Plain k setting (deleteResource setting path issuer credentials) := by
  refine fun _ => .andThen (obeys_fetchUmaConfig h) fun started config hconfig => ?_
  refine .andThen (plain_tick started) fun started _ _ => ?_
  refine .andThen (plain_getId started) fun started id _ => ?_
  cases truthy id with
  | none => exact .throw
  | some umaId =>
    refine .andThen (obeys_awaitPat h) fun started pat ⟨other, hissued⟩ => ?_
    refine .andThen (obeys_fetch ?_) fun _ _ _ => .pure trivial
    exact ⟨issuer, credentials, h, ⟨rfl, config, hconfig, rfl⟩, fun _ hpat =>
      ⟨other, Option.some_inj.mp hpat ▸ hissued⟩⟩

/-! ### Tickets -/

theorem Plain.bind {α β : Type} {p : Method α} {f : α → Method β} (hp : Plain k setting p)
    (hf : ∀ a, Plain k setting (f a)) : Plain k setting (p >>= f) :=
  fun started => .andThen (hp started) fun started a _ => hf a started

theorem Plain.ite {α : Type} {c : Prop} [Decidable c] {p q : Method α} (hp : Plain k setting p)
    (hq : Plain k setting q) : Plain k setting (if c then p else q) :=
  fun started => .ite (fun _ => hp started) fun _ => hq started

theorem plain_pure {α : Type} {a : α} : Plain k setting (pure a : Method α) := fun _ => .pure trivial

theorem plain_readId : Plain k setting (truthy <$> getId path) :=
  plain_getId.bind fun _ => plain_pure

/-- The target is registered now, unless its id is known. -/
theorem plain_registered {target : String} (h : k.account issuer credentials)
    {answer : Option String → Method String} (hanswer : ∀ known, Plain k setting (answer known))
    (known : Option String) : Plain k setting (do
      let known ←
        if known.isNone then do
          if ← hasResource target then
            let _ ← Body.await (P := platform) (.registerResource target issuer credentials)
            truthy <$> getId target
          else throw .notFound
        else pure known
      answer known) := by
  have hfound : Plain k setting (hasResource target) := plain_perform trivial
  refine .ite (hfound.bind fun found => .ite ?_ ?_) (plain_pure.bind hanswer)
  · exact (plain_await (by exact h)).bind fun _ => plain_readId.bind hanswer
  · exact plain_throw.bind hanswer

theorem plain_ticketId {target : String} (h : k.account issuer credentials) :
    Plain k setting (ticketId target issuer credentials) := by
  have honce : ∀ e, Plain k setting (onceOrTimeout (.resource target) e) := fun _ _ _ _ _ => trivial
  refine plain_getId.bind fun id => .ite
    (plain_isInProgress.bind fun waits => .ite
      ((honce _).bind fun _ => plain_readId.bind (plain_registered h ?_))
      (plain_pure.bind (plain_registered h ?_)))
    (plain_pure.bind fun waits => .ite
      ((honce _).bind fun _ => plain_readId.bind (plain_registered h ?_))
      (plain_pure.bind (plain_registered h ?_)))
  -- What is left is the answer, whether or not the id is known.
  all_goals rintro (_ | umaId)
  all_goals first | exact plain_throw | exact plain_pure

theorem obeys_ticketEntries (h : k.account issuer credentials)
    (permissions : List (String × List String)) : (k.contract setting).Obeys started
      (fun _ entries => List.Forall₂ (fun permission entry =>
        permission.2.mapM setting.toUmaScope = .ok entry.resourceScopes) permissions entries)
      (ticketEntries setting issuer credentials permissions) := by
  induction permissions generalizing started with
  | nil => exact .pure .nil
  | cons permission permissions ih =>
    refine .andThen (plain_ticketId h started) fun started umaId _ => ?_
    refine .andThen (S := fun scopes => permission.2.mapM setting.toUmaScope = .ok scopes)
      (.done fun _ hscopes => hscopes) fun started scopes hscopes => ?_
    exact .andThen ih fun _ _ hentries => .pure (.cons hscopes hentries)

theorem fetchTicket_obeys (h : k.account issuer credentials)
    (permissions : List (String × List String)) :
    (k.contract setting).Obeys started
      (fun _ value => (k.contract setting).returns (.fetchTicket permissions issuer credentials)
        value)
      (fetchTicket setting permissions issuer credentials) := by
  have hendpoint : (k.contract setting).Obeys started
      (fun _ endpoint => ∃ config, k.Configured issuer config ∧
        endpoint = config.permissionEndpoint)
      (Body.tryCatch (UmaConfig.permissionEndpoint <$> fetchUmaConfig issuer) fun e =>
        throw (.error ("Error while retrieving ticket: " ++ message e))) := by
    refine .tryCatch (.map ((obeys_fetchUmaConfig h).mono ?_)) fun _ _ => .throw
    exact fun _ config hconfig => ⟨config, hconfig, rfl⟩
  refine .andThen hendpoint fun started endpoint ⟨config, hconfig, hsame⟩ => ?_
  refine .andThen (plain_tick started) fun started _ _ => ?_
  refine .andThen (obeys_ticketEntries h permissions) fun started body hentries => ?_
  refine .andThen (obeys_awaitPat h) fun started pat ⟨other, hissued⟩ => ?_
  have hconfined : k.Confined setting (.permission endpoint pat body) :=
    ⟨issuer, credentials, h, ⟨config, hconfig, hsame⟩, fun _ hpat =>
      ⟨other, Option.some_inj.mp hpat ▸ hissued⟩⟩
  refine .andThen (obeys_fetch hconfined) fun started response hresponse => ?_
  have hgiven : ∀ ticket, Gives response ticket →
      k.Ticketed setting permissions issuer ticket := fun ticket hgives =>
    ⟨config, body, hconfig, hentries, hsame ▸ hresponse ticket hgives⟩
  refine .ite (fun hok => .pure (hgiven none (.notNeeded hok))) fun _ =>
    .ite (fun _ => .throw) fun hcreated => ?_
  refine .andThen obeys_json fun started answer hanswer => ?_
  refine .andThen (plain_destructure started) fun started _ _ => ?_
  cases hticket : truthy (answer.field "ticket").asString? with
  | none => exact .throw
  | some ticket =>
    exact .pure (hgiven (some ticket) (.ticket (not_not.mp hcreated) hanswer hticket))

/-! ### The client -/

theorem program_obeys (call : Call) (h : (k.contract setting).calls call) :
    (k.contract setting).Obeys [] (fun _ value => (k.contract setting).returns call value)
      (program setting call) := by
  cases call with
  | getPat issuer credentials => exact getPat_obeys h
  | fetchTicket permissions issuer credentials => exact fetchTicket_obeys h permissions
  | registerResource path issuer credentials => exact registerResource_plain h []
  | registerAfterParent parent path issuer credentials => exact registerAfterParent_plain h []
  | sendRegistration request => exact sendRegistration_plain h []
  | deleteResource path issuer credentials => exact deleteResource_plain h []

/-- What the actions return is what was stored, and what is stored was learned. -/
theorem keeps_act (action : Action) (s : ClientState) (hs : (k.contract setting).keeps s)
    (hdoes : (k.contract setting).does action) :
    (k.contract setting).sees action (action.run setting s).1 ∧
      (k.contract setting).keeps (action.run setting s).2 := by
  obtain ⟨hpats, hconfigs⟩ := hs
  cases action with
  | cachedPat credentials =>
    cases hget : s.patStorage.get credentials with
    | none =>
      simp only [Action.run, hget]
      exact ⟨fun _ hfound => (by cases hfound), hpats, hconfigs⟩
    | some entry =>
      obtain ⟨pat, expiration⟩ := entry
      cases expiration with
      | none =>
        simp only [Action.run, hget]
        exact ⟨fun _ hfound => (by cases hfound), hpats, hconfigs⟩
      | some expiration =>
        simp only [Action.run, hget]
        refine ⟨fun found hfound => ?_, hpats, hconfigs⟩
        split at hfound
        · cases hfound
          exact hpats _ _ _ hget
        · cases hfound
  | storePat credentials pat expiresIn =>
    refine ⟨trivial, fun other stored expiration hget => ?_, hconfigs⟩
    have hget := (KeyValueStorage.get_set _ _ _ _).symm.trans hget
    split at hget
    · rename_i heq
      cases hget
      exact heq ▸ hdoes
    · exact hpats _ _ _ hget
  | cachedConfig issuer =>
    cases hget : s.configCache.get issuer with
    | none =>
      simp only [Action.run, hget]
      exact ⟨fun _ hfound => (by cases hfound), hpats, hconfigs⟩
    | some entry =>
      simp only [Action.run, hget]
      refine ⟨fun found hfound => ?_, hpats, hconfigs⟩
      split at hfound
      · cases hfound
        exact hconfigs _ _ _ hget
      · cases hfound
  | cacheConfig issuer config =>
    refine ⟨trivial, hpats, fun other stored expiration hget => ?_⟩
    have hget := (KeyValueStorage.get_set _ _ _ _).symm.trans hget
    split at hget
    · rename_i heq
      cases hget
      exact heq ▸ hdoes
    · exact hconfigs _ _ _ hget
  | enter signal => exact ⟨trivial, hpats, hconfigs⟩
  | isInProgress signal => exact ⟨trivial, hpats, hconfigs⟩
  | leave signal => exact ⟨trivial, hpats, hconfigs⟩

theorem sound_client : (k.contract setting).Sound (system setting) where
  program := program_obeys
  acts := keeps_act
  effects op reply s hs _ _ := by
    obtain ⟨hpats, hconfigs⟩ := hs
    show (k.contract setting).keeps (op.effect reply s)
    unfold Op.effect
    split <;> exact ⟨hpats, hconfigs⟩

end Learned

/-! ## Runs -/

/-- The account of a call that others may make. -/
def Call.account : Call → Option (String × String)
  | .getPat issuer credentials => some (issuer, credentials)
  | .fetchTicket _ issuer credentials => some (issuer, credentials)
  | .registerResource _ issuer credentials => some (issuer, credentials)
  | .deleteResource _ issuer credentials => some (issuer, credentials)
  | .registerAfterParent .. => none
  | .sendRegistration _ => none

section Runs

variable (setting : ClientSetting) (umaIdStore : KeyValueStorage String String)
  (events : List (LoopEvent platform))

/-- In this run of a new client, an operation was answered. -/
def Answered (op : Op) (reply : OpReply op) : Prop :=
  ∃ before i replies later w, events = before ++ .answer i replies :: later ∧
    (system setting).run (newClient umaIdStore) before = some w ∧ w.awaits i = some op ∧
    replies op = reply

/-- What the client was told in this run. -/
def learnedIn : Learned where
  account issuer credentials := ∃ call, .call call ∈ events ∧
    call.account = some (issuer, credentials)
  announced url config := ∃ response body,
    Answered setting umaIdStore events (.fetch (.config url)) (.ok response) ∧
    response.status < 400 ∧ response.body = some body ∧ config = UmaConfig.ofJson body
  granted endpoint credentials pat := ∃ response body,
    Answered setting umaIdStore events (.fetch (.token endpoint credentials)) (.ok response) ∧
    response.status = 201 ∧ response.body = some body ∧ pat = patHeader body
  ticketed endpoint entries ticket := ∃ pat response,
    Answered setting umaIdStore events (.fetch (.permission endpoint pat entries))
      (.ok response) ∧ Gives response ticket

end Runs

def sentRequests (log : List (Nat × Entry platform)) : List Request :=
  log.filterMap fun
    | (_, .performed (.fetch request)) => some request
    | _ => none

section

variable {setting : ClientSetting} {umaIdStore : KeyValueStorage String String}
  {events : List (LoopEvent platform)}

theorem hears_answered {op : Op} {reply : OpReply op}
    (h : Answered setting umaIdStore events op reply) :
    (learnedIn setting umaIdStore events).Hears op reply := by
  unfold Learned.Hears
  split
  · exact fun hstatus body hbody => ⟨_, body, h, hstatus, hbody, rfl⟩
  · exact fun hstatus body hbody => ⟨_, body, h, hstatus, hbody, rfl⟩
  · exact fun ticket hgives => ⟨_, _, h, hgives⟩
  · trivial

theorem calls_account {call : Call} (hcall : .call call ∈ events)
    (hpublic : call.account.isSome) :
    ((learnedIn setting umaIdStore events).contract setting).calls call := by
  cases call with
  | getPat issuer credentials => exact ⟨_, hcall, rfl⟩
  | fetchTicket permissions issuer credentials => exact ⟨_, hcall, rfl⟩
  | registerResource path issuer credentials => exact ⟨_, hcall, rfl⟩
  | deleteResource path issuer credentials => exact ⟨_, hcall, rfl⟩
  | registerAfterParent => cases hpublic
  | sendRegistration => cases hpublic

/-- Every run of a new client keeps the contract of what it was told. -/
theorem holds_learned {w : World platform}
    (hpublic : ∀ call, .call call ∈ events → call.account.isSome)
    (hrun : (system setting).run (newClient umaIdStore) events = some w) :
    ((learnedIn setting umaIdStore events).contract setting).Holds w := by
  have hnew : ((learnedIn setting umaIdStore events).contract setting).keeps { umaIdStore } := by
    constructor
    · intro credentials pat expiration hget
      cases hget
    · intro issuer config expiration hget
      cases hget
  refine Contract.holds_run Learned.sound_client (Contract.holds_new hnew) ?_ hrun
  intro before e later v heq hv
  cases e with
  | call call =>
    have hcall : .call call ∈ events := heq ▸ List.mem_append_right _ List.mem_cons_self
    exact calls_account hcall (hpublic call hcall)
  | answer i reply =>
    exact fun op hawaits => hears_answered ⟨before, i, reply, later, v, heq, hv, hawaits, rfl⟩
  | advance => trivial
  | timeout i => trivial
  | resume i => trivial

/-- A call that returned a ticket was given it, and one that returned none was
told that none is needed. -/
theorem ticket_given {w : World platform}
    (hpublic : ∀ call, .call call ∈ events → call.account.isSome)
    (hrun : (system setting).run (newClient umaIdStore) events = some w) {i : Nat}
    {permissions : List (String × List String)} {issuer credentials : String}
    {ticket : Option String}
    (hsettled : w.tasks i =
      some ⟨.fetchTicket permissions issuer credentials, .settled (.ok ticket)⟩) :
    (learnedIn setting umaIdStore events).Ticketed setting permissions issuer ticket := by
  obtain ⟨started, -, hreturns⟩ := (holds_learned hpublic hrun).tasks i _ hsettled
  exact hreturns ticket rfl

/-- Whatever calls come in and whatever is answered, and when: a request goes to
a server for an account of the calls, where its issuer announced, and a PAT that
is sent along was granted for the credentials of that account. -/
theorem requests_confined {w : World platform}
    (hpublic : ∀ call, .call call ∈ events → call.account.isSome)
    (hrun : (system setting).run (newClient umaIdStore) events = some w) :
    ∀ request ∈ sentRequests w.log,
      (learnedIn setting umaIdStore events).Confined setting request := by
  have hholds := holds_learned hpublic hrun
  intro request hrequest
  obtain ⟨⟨i, entry⟩, hentry, hsent⟩ := List.mem_filterMap.mp hrequest
  split at hsent
  · rename_i heq
    cases heq
    cases hsent
    exact hholds.log _ hentry
  · cases hsent

end

/-! ### Two issuers with the same credentials -/

def metadataAt (url : String) : Json :=
  .object [("issuer", .string url), ("jwks_uri", .string (url ++ "/keys")),
    ("permission_endpoint", .string (url ++ "/ticket")),
    ("introspection_endpoint", .string (url ++ "/introspect")),
    ("resource_registration_endpoint", .string (url ++ "/resources/")),
    ("token_endpoint", .string (url ++ "/token"))]

/-- Each endpoint grants a PAT of its own. -/
def serving : (op : Op) → OpReply op
  | .fetch (.config url) => .ok ⟨200, some (metadataAt url)⟩
  | .fetch (.token endpoint _) => .ok ⟨201, some (.object [("token_type", .string "Bearer"),
      ("access_token", .string endpoint), ("expires_in", .number 1800)])⟩
  | .fetch _ => .ok ⟨204, none⟩
  | .json _ => .ok ()
  | .text _ => .ok ""
  | .getId _ => .ok (some "id")
  | .setId .. => .ok ()
  | .hasResource _ => .ok true
  | .tick => ()

/-- A call goes on, and awaits an answer. -/
def answered (i steps : Nat) : List (LoopEvent platform) :=
  List.replicate steps .advance ++ [.answer i serving, .resume i]

/-- A PAT is fetched from one issuer, and a registration is deleted at another. -/
def crossing : List (LoopEvent platform) :=
  .call (.getPat "a" "me") :: answered 0 4 ++ answered 0 1 ++ answered 0 2 ++ answered 0 1 ++
    answered 0 1 ++ List.replicate 4 .advance ++
    .call (.deleteResource "/x" "b" "me") :: answered 1 2 ++ answered 1 1 ++ answered 1 2 ++
    answered 1 1 ++ List.replicate 4 .advance ++ [.resume 1, .advance]

/-- The issuer, the URL and the PAT of a request that deletes a registration. -/
def deletion? : Request → Option (String × String × String)
  | .unregister issuer _ url pat => some (issuer, url, pat)
  | _ => none

/-- The client keeps the PAT for the credentials, and uses it at the other issuer. -/
theorem sent_crossing : ((system tree).run (newClient fun _ => some "id") crossing).map
    (fun w => (sentRequests w.log).filterMap deletion?) =
      some [("b", "b/.well-known/uma2-configuration/resources/id",
        "Bearer a/.well-known/uma2-configuration/token")] := by
  decide +kernel

theorem requests_confined_crossing : ∃ request,
    deletion? request = some ("b", "b/.well-known/uma2-configuration/resources/id",
      "Bearer a/.well-known/uma2-configuration/token") ∧
    (learnedIn tree (fun _ => some "id") crossing).Confined tree request := by
  obtain ⟨w, hrun, hsent⟩ := Option.map_eq_some_iff.mp sent_crossing
  have hpublic : ∀ call, .call call ∈ crossing → (Call.account call).isSome := by
    intro call hcall
    simp only [crossing, answered, List.mem_cons, List.mem_append, List.mem_replicate] at hcall
    simp at hcall
    rcases hcall with rfl | rfl <;> rfl
  obtain ⟨request, hrequest, hdeletion⟩ :=
    List.mem_filterMap.mp (hsent ▸ List.mem_singleton_self _)
  exact ⟨request, hdeletion, requests_confined hpublic hrun request hrequest⟩

end UmaClient

end UserManagedAccess.Css
