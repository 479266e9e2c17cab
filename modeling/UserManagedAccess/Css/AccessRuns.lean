/-
UserManagedAccess.Css.AccessRuns — from an accepted access request to a mode on
the resource server.

An authorization server gets requests at its access request endpoint, at its
permission endpoint and at its token endpoint, in any order. The last two decide
by the simple ODRL authorizer over the store that the first one writes, and
share the tickets; the tokens that are minted are JWTs. A resource server is
shown one of them later. It trusts this authorization server and no other
(`Trusts`): a token of a second server that it verified would not stem from this
run.

The requests are handled one after the other. The proof goes from the token back
to the acceptance: `permits_iff` gives the token that was shown, `backed_run` by
induction on the run the negotiation that minted it, and `accepted_of_mints`
what the authorizer granted there, by the access requests up to then.

* `policies_run` — the store is that of the access requests so far;
* `issued_negotiate` — one negotiation mints at most one token;
* `backed_run` — every token of a run stems from a negotiation of the run;
* `access_was_accepted` — whoever gets a mode had it accepted before.
-/
import Mathlib.Tactic.NormNum
import UserManagedAccess.Controller.AccessRequestDecisions
import UserManagedAccess.Css.UmaTokenExtractorTheorems
import UserManagedAccess.Dialog.BaseNegotiatorTheorems
import UserManagedAccess.Policies.Authorizers.SimpleOdrlQueryTheorems
import UserManagedAccess.Routes.Ticket

namespace UserManagedAccess.Css

open UserManagedAccess.Lib UserManagedAccess.Rdf UserManagedAccess.Util UserManagedAccess.Views
open UserManagedAccess.Tokens UserManagedAccess.Dialog UserManagedAccess.Ticketing
open UserManagedAccess.Credentials UserManagedAccess.Policies UserManagedAccess.Routes
open UserManagedAccess.Controller UserManagedAccess.Controller.AccessRequestController

/-! ## The authorization server -/

/-- The tokens that were minted, and the state of the other token services. -/
structure Minting (τ : Type) where
  tokenStore : AccessTokenStore
  issued : List Issued
  services : τ

namespace Minting

variable {τ : Type}

def setServices (services : τ) (s : Minting τ) : Minting τ := { s with services }

def onServices {α : Type} (p : Async τ HttpError α) : Async (Minting τ) HttpError α :=
  p.zoom Minting.services setServices

/-- `JwtTokenFactory.serialize`, where what it mints is noted. -/
def mint (factory : JwtTokenFactory) (draws : MintDraws) : Serialize (Minting τ) := fun token => do
  let s ← Async.get
  match factory.serialize draws token s.tokenStore with
  | .error e => throw e
  | .ok (minted, tokenStore) => do
    Async.modify fun s =>
      { s with tokenStore, issued := s.issued ++ [{ draws, token, jwt := minted.token }] }
    Async.yield
    return minted

end Minting

/-- A request to the token endpoint, and what is drawn for it. -/
structure Negotiation where
  env : SimpleOdrlAuthorizer.Environment
  draws : MintDraws
  ticketId : String
  input : Json

/-- A request to the permission endpoint, and what is drawn for it. -/
structure PermissionRequest where
  env : SimpleOdrlAuthorizer.Environment
  registrationStore : KeyValueStorage String Registration
  validator : RequestValidator
  ticketId : String
  request : HttpHandlerRequest

inductive AccessEvent where
  | manage (step : RequestStep)
  | permission (asked : PermissionRequest)
  | negotiate (negotiation : Negotiation)

structure AccessDeployment (τ : Type) where
  requests : AccessRequestEnvironment
  uuid : Nat → String
  verifier : Credential → Async τ HttpError ClaimSet
  /-- What the simple ODRL authorizer leaves to it. -/
  authorizer : Authorizer
  allowPartialSuccess : Bool
  factory : JwtTokenFactory
  refreshTokenIssuer : Option (IssueRefreshToken τ)

structure AccessState (τ : Type) where
  policies : Store
  requested : Nat
  negotiation : NegotiatorState (Minting τ)

namespace AccessDeployment

variable {τ : Type} (deployment : AccessDeployment τ)

def ticketingStrategy (policies : Store) (env : SimpleOdrlAuthorizer.Environment) :
    TicketingStrategy :=
  immediateAuthorizerStrategy (simpleOdrlAuthorizer env policies deployment.authorizer)
    deployment.allowPartialSuccess

def ticketHandler (policies : Store) (asked : PermissionRequest) : TicketRequestHandler where
  ticketingStrategy := deployment.ticketingStrategy policies asked.env
  registrationStore := asked.registrationStore
  validator := asked.validator

def negotiator (policies : Store) (negotiation : Negotiation) : BaseNegotiator (Minting τ) where
  verifier credential := Minting.onServices (deployment.verifier credential)
  ticketingStrategy := deployment.ticketingStrategy policies negotiation.env
  tokenFactory := Minting.mint deployment.factory negotiation.draws
  refreshTokenIssuer := deployment.refreshTokenIssuer.map fun issue claims permissions =>
    Minting.onServices (issue claims permissions)

def step (s : AccessState τ) : AccessEvent → AccessState τ
  | .manage step => { s with
      policies := nextStore deployment.requests deployment.uuid s.requested step s.policies
      requested := s.requested + 1 }
  | .permission asked => { s with
      negotiation := { s.negotiation with
        ticketStore := (((deployment.ticketHandler s.policies asked).handle asked.ticketId
          asked.request).run s.negotiation.ticketStore).2 } }
  | .negotiate negotiation => { s with
      negotiation := (((deployment.negotiator s.policies negotiation).negotiate
        negotiation.ticketId negotiation.input).run s.negotiation).2 }

/-- A new server, with no tokens and no tickets. -/
def start (services : τ) : AccessState τ where
  policies := Store.empty
  requested := 0
  negotiation := {
    ticketStore := KeyValueStorage.empty
    tokens := { tokenStore := KeyValueStorage.empty, issued := [], services } }

def run (services : τ) (events : List AccessEvent) : AccessState τ :=
  events.foldl deployment.step (start services)

/-- As the resource server sees it. -/
def server (services : τ) (events : List AccessEvent) : AuthorizationServer where
  factory := deployment.factory
  issued := (deployment.run services events).negotiation.tokens.issued

end AccessDeployment

/-- The requests to the access request endpoint. -/
def AccessEvent.requests (events : List AccessEvent) : List RequestStep :=
  events.filterMap fun
    | .manage step => some step
    | .permission _ | .negotiate _ => none

/-! ## One negotiation -/

namespace AccessDeployment

variable {τ : Type} (deployment : AccessDeployment τ) (policies : Store)
  (negotiation : Negotiation)

/-- What was minted, seen from the whole state. -/
abbrev issuedOf (s : NegotiatorState (Minting τ)) : List Issued := s.tokens.issued

theorem tokens_onTokens {α : Type} (p : Async (Minting τ) HttpError α)
    (s : NegotiatorState (Minting τ)) :
    ((BaseNegotiator.onTokens p).run s).2.tokens = (p.run s.tokens).2 := by
  rw [BaseNegotiator.run_onTokens]
  rfl

theorem frame_onServices {α : Type} (p : Async τ HttpError α) :
    Async.Frame issuedOf (BaseNegotiator.onTokens (Minting.onServices p)) := by
  have hput : ∀ services (s : Minting τ), (s.setServices services).issued = s.issued :=
    fun _ _ => rfl
  have hframe : Async.Frame Minting.issued (Minting.onServices p) := .zoom hput p
  intro s
  show ((BaseNegotiator.onTokens (Minting.onServices p)).run s).2.tokens.issued = _
  rw [tokens_onTokens]
  exact hframe s.tokens

theorem frame_getTicket (negotiator : BaseNegotiator (Minting τ)) (input : DialogInput) :
    Async.Frame issuedOf (negotiator.getTicket input) := by
  have hmodify : ∀ id, Async.Frame issuedOf (Async.modify fun s : NegotiatorState (Minting τ) =>
      { s with ticketStore := s.ticketStore.delete id } :
        Async (NegotiatorState (Minting τ)) HttpError Unit) := fun _ _ => rfl
  unfold BaseNegotiator.getTicket
  split
  · refine .bind .get fun s => .bind .yield fun _ => ?_
    split
    · exact .throw _
    · exact .bind (hmodify _) fun _ => .bind .yield fun _ => .pure _
  · split
    · exact .throw _
    · exact .bind (.lift _) fun _ => .bind .yield fun _ => .pure _

theorem frame_processCredentials (claims : List ClaimToken) (ticket : Ticket) :
    Async.Frame issuedOf
      ((deployment.negotiator policies negotiation).processCredentials claims ticket) := by
  induction claims generalizing ticket with
  | nil => exact .pure ticket
  | cons claim claims ih =>
    unfold BaseNegotiator.processCredentials
    split
    · exact .bind (frame_onServices _) fun verified => .bind (.lift _) fun ticket =>
        .bind .yield fun _ => ih ticket
    · exact .throw _

theorem frame_issueRefreshToken (provided : ClaimSet) (granted : List Permission) :
    Async.Frame issuedOf
      ((deployment.negotiator policies negotiation).issueRefreshToken provided granted) := by
  unfold BaseNegotiator.issueRefreshToken
  cases hissuer : (deployment.negotiator policies negotiation).refreshTokenIssuer with
  | none => exact .pure none
  | some issue =>
    obtain ⟨inner, -, rfl⟩ := Option.map_eq_some_iff.mp hissuer
    exact .bind (frame_onServices _) fun _ => .pure _

/-- Nothing was minted, or this token for this request. -/
def MintedFor (negotiation : Negotiation) (token : AccessToken) (issued issued' : List Issued) :
    Prop :=
  issued' = issued ∨ ∃ jwt, issued' = issued ++ [{ draws := negotiation.draws, token, jwt }]

theorem issued_mint (token : AccessToken) (s : NegotiatorState (Minting τ)) :
    MintedFor negotiation token (issuedOf s) (issuedOf ((BaseNegotiator.onTokens
      (Minting.mint deployment.factory negotiation.draws token)).run s).2) := by
  show MintedFor _ _ _ (((BaseNegotiator.onTokens
    (Minting.mint deployment.factory negotiation.draws token)).run s).2).tokens.issued
  rw [tokens_onTokens]
  unfold Minting.mint
  rw [Async.run_bind, Async.run_get]
  cases hminted : deployment.factory.serialize negotiation.draws token s.tokens.tokenStore with
  | error e =>
    simp only [hminted]
    exact .inl rfl
  | ok minted =>
    simp only [hminted]
    exact .inr ⟨minted.1.token, rfl⟩

theorem issued_grant (ticket : Ticket) (granted : List Permission)
    (s : NegotiatorState (Minting τ)) :
    MintedFor negotiation (BaseNegotiator.mintedToken ticket granted) (issuedOf s)
      (issuedOf (((deployment.negotiator policies negotiation).grant ticket granted).run s).2) := by
  have hmint : MintedFor negotiation (BaseNegotiator.mintedToken ticket granted) (issuedOf s)
      (issuedOf ((BaseNegotiator.onTokens
        ((deployment.negotiator policies negotiation).tokenFactory
          (BaseNegotiator.mintedToken ticket granted))).run s).2) :=
    issued_mint deployment negotiation _ s
  unfold BaseNegotiator.grant
  rw [Async.run_bind]
  rcases hrun : (BaseNegotiator.onTokens
      ((deployment.negotiator policies negotiation).tokenFactory
        (BaseNegotiator.mintedToken ticket granted))).run s with ⟨_ | serialized, t⟩
  · rw [hrun] at hmint
    exact hmint
  · rw [hrun] at hmint
    have hrest : ∀ make : Option String → DialogOutput, issuedOf
        ((((deployment.negotiator policies negotiation).issueRefreshToken ticket.provided granted)
          >>= fun refreshToken => pure (make refreshToken)).run t).2 = issuedOf t := fun make =>
      Async.Frame.bind (frame_issueRefreshToken deployment policies negotiation _ _) (fun _ => .pure _) t
    rcases hmint with hnone | ⟨jwt, hissued⟩
    · exact .inl ((hrest _).trans hnone)
    · exact .inr ⟨jwt, (hrest _).trans hissued⟩

/-- One negotiation mints nothing, or the token of its ticket. -/
theorem issued_negotiate (s : NegotiatorState (Minting τ)) :
    issuedOf (((deployment.negotiator policies negotiation).negotiate negotiation.ticketId
        negotiation.input).run s).2 = issuedOf s ∨
      ∃ ticket token jwt,
        (deployment.negotiator policies negotiation).Mints s (DialogInput.ofJson negotiation.input)
          ticket token ∧
        issuedOf (((deployment.negotiator policies negotiation).negotiate negotiation.ticketId
          negotiation.input).run s).2 =
            issuedOf s ++ [{ draws := negotiation.draws, token, jwt }] := by
  unfold BaseNegotiator.negotiate
  cases DialogInput.assertion negotiation.input with
  | error message => exact .inl rfl
  | ok u =>
    simp only [Async.run_bind]
    have hticket := frame_getTicket (deployment.negotiator policies negotiation)
      (DialogInput.ofJson negotiation.input) s
    rcases hget : ((deployment.negotiator policies negotiation).getTicket
      (DialogInput.ofJson negotiation.input)).run s with ⟨_ | ticket, s₁⟩ <;> rw [hget] at hticket
    · exact .inl hticket
    · have hclaims := frame_processCredentials deployment policies negotiation
        (DialogInput.ofJson negotiation.input).claimTokens ticket s₁
      rcases hprocess : ((deployment.negotiator policies negotiation).processCredentials
        (DialogInput.ofJson negotiation.input).claimTokens ticket).run s₁ with ⟨_ | updated, s₂⟩ <;>
        rw [hprocess] at hclaims <;> simp only [hprocess, Async.run_lift, Async.run_yield]
      · exact .inl (hclaims.trans hticket)
      · have hbefore : issuedOf s₂ = issuedOf s := hclaims.trans hticket
        cases hresolved : (deployment.negotiator policies
            negotiation).ticketingStrategy.resolveTicket updated with
        | error e => exact .inl hbefore
        | ok result =>
          cases result with
          | failure requirements =>
            refine .inl (Eq.trans ?_ hbefore)
            simp only [BaseNegotiator.denyRequest]
            split
            · rfl
            · rfl
          | success granted =>
            have hgrant := issued_grant deployment policies negotiation updated granted s₂
            rw [hbefore] at hgrant
            rcases hgrant with hnone | ⟨jwt, hissued⟩
            · exact .inl hnone
            · exact .inr ⟨ticket, _, jwt,
                ⟨updated, granted, s₁, s₂, hget, hprocess, hresolved, rfl⟩, hissued⟩

/-! ## Runs -/

variable {deployment} {services : τ} {events : List AccessEvent}

theorem run_concat (event : AccessEvent) :
    deployment.run services (events ++ [event]) =
      deployment.step (deployment.run services events) event := by
  unfold run
  rw [List.foldl_append]
  rfl

/-- The policies of a run are those of its access requests. -/
theorem policies_run (deployment : AccessDeployment τ) (services : τ) (events : List AccessEvent) :
    (deployment.run services events).policies =
        requestsAfter deployment.requests deployment.uuid (AccessEvent.requests events) ∧
      (deployment.run services events).requested = (AccessEvent.requests events).length := by
  induction events using List.reverseRecOn with
  | nil => exact ⟨rfl, rfl⟩
  | append_singleton events event ih =>
    obtain ⟨hpolicies, hrequested⟩ := ih
    rw [run_concat]
    cases event with
    | permission asked =>
      have hsame : AccessEvent.requests (events ++ [.permission asked]) =
          AccessEvent.requests events := by
        simp [AccessEvent.requests]
      rw [hsame]
      exact ⟨hpolicies, hrequested⟩
    | negotiate negotiation =>
      have hsame : AccessEvent.requests (events ++ [.negotiate negotiation]) =
          AccessEvent.requests events := by
        simp [AccessEvent.requests]
      rw [hsame]
      exact ⟨hpolicies, hrequested⟩
    | manage step =>
      have hmore : AccessEvent.requests (events ++ [.manage step]) =
          AccessEvent.requests events ++ [step] := by
        simp [AccessEvent.requests]
      rw [hmore, requestsAfter_concat, List.length_append, ← hpolicies, ← hrequested]
      exact ⟨rfl, rfl⟩

/-- The token was minted by a negotiation of the run. -/
def Backed (deployment : AccessDeployment τ) (services : τ) (events : List AccessEvent)
    (minted : Issued) : Prop :=
  ∃ before negotiation later ticket, events = before ++ .negotiate negotiation :: later ∧
    minted.draws = negotiation.draws ∧
    (deployment.negotiator (deployment.run services before).policies negotiation).Mints
      (deployment.run services before).negotiation (DialogInput.ofJson negotiation.input) ticket
      minted.token

theorem Backed.mono {minted : Issued} (h : deployment.Backed services events minted)
    (event : AccessEvent) : deployment.Backed services (events ++ [event]) minted := by
  obtain ⟨before, negotiation, later, ticket, rfl, hdraws, hmints⟩ := h
  exact ⟨before, negotiation, later ++ [event], ticket, by simp, hdraws, hmints⟩

theorem backed_run (deployment : AccessDeployment τ) (services : τ) (events : List AccessEvent) :
    ∀ minted ∈ issuedOf (deployment.run services events).negotiation,
      deployment.Backed services events minted := by
  induction events using List.reverseRecOn with
  | nil => exact fun _ hminted => absurd hminted List.not_mem_nil
  | append_singleton events event ih =>
    rw [run_concat]
    cases event with
    | manage step => exact fun minted hminted => (ih minted hminted).mono _
    | permission asked => exact fun minted hminted => (ih minted hminted).mono _
    | negotiate negotiation =>
      intro minted hminted
      have hstep : issuedOf (deployment.step (deployment.run services events)
          (.negotiate negotiation)).negotiation =
        issuedOf (((deployment.negotiator (deployment.run services events).policies
          negotiation).negotiate negotiation.ticketId negotiation.input).run
            (deployment.run services events).negotiation).2 := rfl
      rw [hstep] at hminted
      rcases issued_negotiate deployment (deployment.run services events).policies negotiation
        (deployment.run services events).negotiation with hsame | ⟨ticket, token, jwt, hmints, hnew⟩
      · rw [hsame] at hminted
        exact (ih minted hminted).mono _
      · rw [hnew] at hminted
        rcases List.mem_append.mp hminted with hold | hnew
        · exact (ih minted hold).mono _
        · cases List.mem_singleton.mp hnew
          exact ⟨events, negotiation, [], ticket, rfl, rfl, hmints⟩

/-! ## Access -/

/-- The claims a negotiation decides a ticket by. -/
def DecidesBy (negotiator : BaseNegotiator (Minting τ)) (s : NegotiatorState (Minting τ))
    (input : DialogInput) (ticket : Ticket) (claims : ClaimSet) : Prop :=
  ∃ updated s₁ s₂, (negotiator.getTicket input).run s = (.ok ticket, s₁) ∧
    (negotiator.processCredentials input.claimTokens ticket).run s₁ = (.ok updated, s₂) ∧
    updated.permissions = ticket.permissions ∧ updated.provided = claims

/-- An access request that covers the pair was accepted by an owner, and its
constraints hold for the claims. -/
def AcceptedFor (deployment : AccessDeployment τ) (steps : List RequestStep)
    (env : SimpleOdrlAuthorizer.Environment) (claims : ClaimSet) (resourceId scope : String) : Prop :=
  ∃ content, Accepted deployment.requests deployment.uuid steps content ∧
    content.Covers claims resourceId scope ∧ content.Holds env claims

/-- The authorizer of the rest granted the pair, as part of the whole ticket. -/
def Delegated (deployment : AccessDeployment τ) (ticket : Ticket) (claims : ClaimSet)
    (resourceId scope : String) : Prop :=
  ∃ granted, deployment.authorizer claims (fullQuery ticket.permissions) = .ok granted ∧
    (resourceId, scope) ∈ pairs granted

/-- What a minted token has was asked for and accepted, or delegated. -/
theorem accepted_of_mints {negotiation : Negotiation} {steps : List RequestStep}
    (hfresh : FreshUUIDs deployment.uuid steps.length)
    {s : NegotiatorState (Minting τ)} {input : DialogInput} {ticket : Ticket} {token : AccessToken}
    (hmints : (deployment.negotiator
      (requestsAfter deployment.requests deployment.uuid steps) negotiation).Mints s input ticket
        token)
    {resourceId scope : String} (hpair : (resourceId, scope) ∈ pairs token.permissions) :
    ∃ claims, DecidesBy (deployment.negotiator
        (requestsAfter deployment.requests deployment.uuid steps) negotiation) s input ticket
          claims ∧
      ((resourceId, scope) ∈ pairs ticket.permissions ∧
          deployment.AcceptedFor steps negotiation.env claims resourceId scope ∨
        deployment.Delegated ticket claims resourceId scope) := by
  obtain ⟨updated, granted, s₁, s₂, hget, hprocess, hresolved, rfl⟩ := hmints
  have hpermissions : updated.permissions = ticket.permissions :=
    BaseNegotiator.processCredentials_invariant (fun t => t.permissions = ticket.permissions)
      (fun t claims t' ht hvalid => by cases hvalid; exact ht) rfl hprocess
  refine ⟨updated.provided, ⟨updated, s₁, s₂, hget, hprocess, hpermissions, rfl⟩, ?_⟩
  obtain ⟨all, hall, rfl, -, -⟩ :=
    ImmediateAuthorizerStrategy.resolveTicket_success.mp hresolved
  have hgranted : (resourceId, scope) ∈ pairs all := by
    rw [← ImmediateAuthorizerStrategy.pairs_filter_scopes]
    exact hpair
  rw [hpermissions] at hall
  rcases simpleOdrl_granted hall with hself | hother
  · obtain ⟨hasked, haccepted⟩ := (hself resourceId scope).mp hgranted
    exact .inl ⟨hasked, (granted_iff_accepted hfresh).mp haccepted⟩
  · exact .inr ⟨all, hother, hgranted⟩

/-- In every run of the authorization server: whoever presents a token that
permits a mode on the resource server got it from a negotiation, and before
that negotiation an owner of the resource had accepted an access request that
covers the resource, the mode and a claim of the negotiation, and whose
constraints held; unless the authorizer of the rest granted it. -/
theorem access_was_accepted (deployment : AccessDeployment τ) (services : τ)
    (events : List AccessEvent)
    (hfresh : FreshUUIDs deployment.uuid (AccessEvent.requests events).length)
    (extractor : UmaTokenExtractor) (hjwt : extractor.introspect = false) (now : Moment)
    (htrusts : Trusts extractor.client (deployment.server services events) now)
    {request : HttpRequest} {resourceId : String} {mode : PERMISSIONS}
    (hpermits : extractor.Permits now request resourceId mode) :
    ∃ before negotiation later ticket claims,
      events = before ++ .negotiate negotiation :: later ∧
      (negotiation.draws.now : Rat) < now.seconds ∧
      now.seconds < (negotiation.draws.now + deployment.factory.expirationTime : Nat) ∧
      DecidesBy (deployment.negotiator (deployment.run services before).policies negotiation)
        (deployment.run services before).negotiation (DialogInput.ofJson negotiation.input) ticket
        claims ∧
      ((resourceId, modeMap mode) ∈ pairs ticket.permissions ∧
          deployment.AcceptedFor (AccessEvent.requests before) negotiation.env claims resourceId
            (modeMap mode) ∨
        deployment.Delegated ticket claims resourceId (modeMap mode)) := by
  obtain ⟨minted, hpresents, hcurrent, last, hlast, hscope⟩ :=
    (permits_iff extractor _ now hjwt htrusts request resourceId mode).mp hpermits
  obtain ⟨hmem, hresource⟩ := mem_of_lastPermission hlast
  have hpair : (resourceId, modeMap mode) ∈ pairs minted.token.permissions :=
    ⟨last, hmem, hresource, hscope⟩
  obtain ⟨before, negotiation, later, ticket, hevents, hdraws, hmints⟩ :=
    backed_run deployment services events minted hpresents.issued
  have hpolicies := (policies_run deployment services before).1
  have hbefore : FreshUUIDs deployment.uuid (AccessEvent.requests before).length := by
    refine hfresh.mono ?_
    rw [hevents, AccessEvent.requests, AccessEvent.requests, List.filterMap_append,
      List.length_append]
    exact Nat.le_add_right _ _
  have hstarted := hcurrent.started
  have hunexpired := hcurrent.unexpired
  rw [hdraws] at hstarted hunexpired
  rw [hpolicies] at hmints
  obtain ⟨claims, hdecides, hgranted⟩ := accepted_of_mints hbefore hmints hpair
  rw [← hpolicies] at hdecides
  exact ⟨before, negotiation, later, ticket, claims, hevents, hstarted, hunexpired, hdecides,
    hgranted⟩

/-! ## A photo that is shared -/

/-- Every credential is one of the researcher. -/
def photoDeployment : AccessDeployment Unit where
  requests := photoRequests
  uuid := twoUUIDs
  verifier _ := pure researcher
  authorizer _ _ := .ok []
  allowPartialSuccess := false
  factory := {
    services := {
      getPrivateKey := .ok ⟨"ES256", "k", "private"⟩
      getPublicKey := .ok ⟨"ES256", "k", "public"⟩
      importJWK := .ok
      sign := fun _ payload => .ok payload.jti
      jwtVerify := fun _ _ _ _ _ => .error "unused" }
    issuer := "https://as.example"
    expirationTime := 300
    audience := "solid"
    addSub := false }
  refreshTokenIssuer := none

/-- The resource server asks for a ticket for reading. -/
def photoAsked : PermissionRequest where
  env := ⟨0, fun _ => none, fun _ _ => .ok []⟩
  registrationStore := KeyValueStorage.empty.set "http://example.org/photo"
    ⟨"http://example.org/alice", { name := none, resourceScopes := [] }⟩
  validator _ := .ok "http://example.org/alice"
  ticketId := "first"
  request := { body := .array [.object [("resource_id", .string "http://example.org/photo"),
    ("resource_scopes", .array [.string "urn:example:css:modes:read"])]] }

def photoNegotiation : Negotiation where
  env := ⟨0, fun _ => none, fun _ _ => .ok []⟩
  draws := ⟨1000, "t1"⟩
  ticketId := "second"
  input := .object [("ticket", .string "first"), ("claim_token", .string "bob"),
    ("claim_token_format", .string "webid")]

/-- Bob asks Alice for the photo, tries to read it, is accepted by Alice, and
asks for a token. -/
def photoRead : List AccessEvent :=
  (photoShared.take 1).map .manage ++ .permission photoAsked ::
    ((photoShared.drop 1).map .manage ++ [.negotiate photoNegotiation])

def photoServer : AuthorizationServer := photoDeployment.server () photoRead

def photoConfig : UmaConfig where
  jwksUri := "https://as.example/keys"
  issuer := "https://as.example"
  permissionEndpoint := "https://as.example/ticket"
  introspectionEndpoint := "https://as.example/introspect"
  resourceRegistrationEndpoint := "https://as.example/resources"
  tokenEndpoint := "https://as.example/token"

def photoExtractor : UmaTokenExtractor where
  client := knowingClient photoServer photoConfig
  targetExtractor request := .ok request.url
  ownerUtil := {
    getStorageIdentifier := fun _ => .ok "http://example.org/"
    findByBaseUrl := fun _ => some "pod"
    getOwners := fun _ => some ["http://example.org/alice"]
    find := fun _ => ["account"]
    getSetting := fun _ _ => some "https://as.example" }
  introspect := false

def photoRequest : HttpRequest where
  headers := [("authorization", "Bearer t1")]
  url := "http://example.org/photo"

/-- A while before the token expires. -/
def photoTime : Moment where
  millis := 1100000
  past := by omega

theorem issued_photo :
    photoServer.issued.map (fun minted => (minted.draws.now, minted.token.permissions, minted.jwt)) =
      [(1000, [⟨"http://example.org/photo", ["urn:example:css:modes:read"]⟩], "t1")] := by
  decide +kernel

theorem trusts_photo (now : Moment) : Trusts photoExtractor.client photoServer now := by
  refine trusts_knowingClient rfl (by decide) (by decide) rfl ?_ now
  have hjwt : photoServer.issued.map Issued.jwt = ["t1"] := by
    have h := congrArg (List.map fun entry => entry.2.2) issued_photo
    rwa [List.map_map] at h
  rw [hjwt]
  exact List.nodup_singleton _

/-- Whoever presents the one token of the run has it in its header. -/
theorem presents_photo {minted : Issued} (hminted : minted ∈ photoServer.issued) :
    minted.token.permissions = [⟨"http://example.org/photo", ["urn:example:css:modes:read"]⟩] ∧
      Presents photoExtractor photoServer photoRequest minted ∧
      photoServer.Current minted photoTime := by
  have hentry := List.mem_map_of_mem (f := fun minted : Issued =>
    (minted.draws.now, minted.token.permissions, minted.jwt)) hminted
  rw [issued_photo, List.mem_singleton] at hentry
  simp only [Prod.mk.injEq] at hentry
  obtain ⟨hnow, hpermissions, hjwt⟩ := hentry
  refine ⟨hpermissions, ⟨hminted, ?_, ?_, ?_⟩, ⟨?_, ?_⟩⟩
  · rw [hjwt]
    decide +kernel
  · rw [hjwt]
    decide
  · exact ⟨_, ["https://as.example"], rfl, rfl, List.mem_singleton.mpr rfl⟩
  · rw [hnow]
    norm_num [Moment.seconds, photoTime]
  · rw [hnow]
    norm_num [Moment.seconds, photoTime, photoServer, server, photoDeployment]

theorem permits_photo :
    photoExtractor.Permits photoTime photoRequest "http://example.org/photo" .Read := by
  obtain ⟨minted, hminted⟩ : ∃ minted, minted ∈ photoServer.issued := by
    refine List.exists_mem_of_length_pos ?_
    have hlength := congrArg List.length issued_photo
    rw [List.length_map] at hlength
    rw [hlength]
    exact Nat.one_pos
  obtain ⟨hpermissions, hpresents, hcurrent⟩ := presents_photo hminted
  refine (permits_iff photoExtractor photoServer _ rfl (trusts_photo _) photoRequest _ _).mpr
    ⟨minted, hpresents, hcurrent, lastPermission_of_distinct ?_ ?_⟩
  · rw [hpermissions]
    exact List.nodup_singleton _
  · rw [hpermissions]
    exact ⟨_, List.mem_singleton.mpr rfl, rfl, List.mem_singleton.mpr rfl⟩

theorem access_was_accepted_photo :
    ∃ before negotiation later claims,
      photoRead = before ++ .negotiate negotiation :: later ∧
      photoDeployment.AcceptedFor (AccessEvent.requests before) negotiation.env claims
        "http://example.org/photo" "urn:example:css:modes:read" := by
  have hfresh : FreshUUIDs twoUUIDs (AccessEvent.requests photoRead).length :=
    ⟨by decide +kernel, by decide +kernel⟩
  obtain ⟨before, negotiation, later, ticket, claims, hevents, -, -, -, haccess⟩ :=
    access_was_accepted photoDeployment () photoRead hfresh photoExtractor rfl
      photoTime (trusts_photo _) permits_photo
  rcases haccess with ⟨-, haccepted⟩ | ⟨granted, hgranted, hpair⟩
  · exact ⟨before, negotiation, later, claims, hevents, haccepted⟩
  · cases hgranted
    obtain ⟨permission, hpermission, -⟩ := hpair
    cases hpermission

end AccessDeployment

end UserManagedAccess.Css
