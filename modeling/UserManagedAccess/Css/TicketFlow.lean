/-
UserManagedAccess.Css.TicketFlow — from a ticket to access.

A resource server that gets no token asks for a ticket. The client takes it to
the token endpoint, with claims, and comes back with a token. Between the two
the authorization server may have got any requests.

The ticket stays what it was by induction on these requests, as long as none of
them draws it again or uses it (`Avoids`). The negotiation is then evaluated to
its end, with the decision of the authorizer taken from the access requests that
were accepted, and what it minted stays known to the server.

* `ticket_kept` — a ticket stays as it was given until it is used;
* `negotiation_gives_access` — what was accepted gives access;
* `ticket_gives_access` — the two together.

The token services have to answer (`Ready`), the constraints of the accepted
requests have to be supported, the resources of the ticket to be distinct, and
the resource server to trust this authorization server and no other (`Trusts`).
-/
import UserManagedAccess.Css.AccessRuns

namespace UserManagedAccess.Css.AccessDeployment

open UserManagedAccess.Lib UserManagedAccess.Rdf UserManagedAccess.Util UserManagedAccess.Views
open UserManagedAccess.Tokens UserManagedAccess.Dialog UserManagedAccess.Ticketing
open UserManagedAccess.Credentials UserManagedAccess.Policies UserManagedAccess.Routes
open UserManagedAccess.Controller UserManagedAccess.Controller.AccessRequestController

variable {τ : Type} {deployment : AccessDeployment τ}

/-! ## Tickets -/

/-- The event neither draws this ticket nor uses it. -/
def Avoids (ticketId : String) : AccessEvent → Prop
  | .manage _ => True
  | .permission asked => asked.ticketId ≠ ticketId
  | .negotiate negotiation => negotiation.ticketId ≠ ticketId ∧
      (DialogInput.ofJson negotiation.input).ticket ≠ some ticketId

/-- The ticket of a request to the permission endpoint. -/
def askedTicket (asked : PermissionRequest) : Ticket where
  permissions := permissionsOfJson asked.request.body
  provided := Dict.empty

/-- What the permission endpoint does to the tickets. -/
theorem run_ticketHandler (deployment : AccessDeployment τ) (policies : Store) (asked : PermissionRequest)
    (ticketStore : KeyValueStorage String Ticket) :
    ((((deployment.ticketHandler policies asked).handle asked.ticketId asked.request).run
          ticketStore).2 = ticketStore ∧
        ∀ response, (((deployment.ticketHandler policies asked).handle asked.ticketId
          asked.request).run ticketStore).1 = .ok response → response.status ≠ 201) ∨
      (((deployment.ticketHandler policies asked).handle asked.ticketId asked.request).run
        ticketStore).2 = ticketStore.set asked.ticketId (askedTicket asked) := by
  unfold TicketRequestHandler.handle
  cases (deployment.ticketHandler policies asked).validator asked.request with
  | error e => exact .inl ⟨rfl, fun response h => by cases h⟩
  | ok owner =>
    cases htype : ReType.array Permission.assertion asked.request.body with
    | error message =>
      simp only [Async.run_bind, Async.run_lift]
      exact .inl ⟨rfl, fun response h => by cases h⟩
    | ok u =>
      simp only [Async.run_bind, Async.run_lift]
      cases (permissionsOfJson asked.request.body).find? (fun permission =>
          !(deployment.ticketHandler policies asked).registrationStore.has
            permission.resourceId) with
      | some permission =>
        refine .inl ⟨rfl, fun response h => ?_⟩
        cases h
        intro hstatus
        cases hstatus
      | none =>
        simp only [ticketHandler, ticketingStrategy, immediateAuthorizerStrategy, Async.run_bind,
          Async.run_lift, ImmediateAuthorizerStrategy.initializeTicket]
        cases ImmediateAuthorizerStrategy.resolveTicket
            (simpleOdrlAuthorizer asked.env policies deployment.authorizer)
            deployment.allowPartialSuccess
            { permissions := permissionsOfJson asked.request.body, provided := Dict.empty } with
        | error e => exact .inl ⟨rfl, fun response h => by cases h⟩
        | ok result =>
          cases result with
          | failure claims => exact .inr rfl
          | success granted =>
            refine .inl ⟨rfl, fun response h => ?_⟩
            cases h
            intro hstatus
            cases hstatus

/-- A negotiation only takes out the ticket it is for. -/
theorem ticket_getTicket (negotiator : BaseNegotiator (Minting τ)) {input : DialogInput}
    {ticketId : String} (s : NegotiatorState (Minting τ)) (hother : input.ticket ≠ some ticketId) :
    ((negotiator.getTicket input).run s).2.ticketStore.get ticketId =
      s.ticketStore.get ticketId := by
  unfold BaseNegotiator.getTicket
  cases hid : input.ticket with
  | some id =>
    have hne : ticketId ≠ id := fun h => hother (hid.trans (congrArg some h.symm))
    simp only [BaseNegotiator.takeTicket, Async.run_bind, Async.run_get, Async.run_yield]
    cases s.ticketStore.get id with
    | none => rfl
    | some stored =>
      show (s.ticketStore.delete id).get ticketId = _
      rw [KeyValueStorage.get_delete, if_neg hne]
  | none =>
    cases input.permissions with
    | none => rfl
    | some permissions =>
      simp only [Async.run_bind, Async.run_lift]
      cases negotiator.ticketingStrategy.initializeTicket permissions with
      | error e => rfl
      | ok ticket => rfl

theorem ticket_negotiate (negotiator : BaseNegotiator (Minting τ)) {randomUUID ticketId : String}
    {input : Json} (s : NegotiatorState (Minting τ)) (hdrawn : randomUUID ≠ ticketId)
    (hother : (DialogInput.ofJson input).ticket ≠ some ticketId) :
    ((negotiator.negotiate randomUUID input).run s).2.ticketStore.get ticketId =
      s.ticketStore.get ticketId := by
  have hticket := ticket_getTicket negotiator s hother
  unfold BaseNegotiator.negotiate
  cases DialogInput.assertion input with
  | error message => rfl
  | ok u =>
    simp only [Async.run_bind]
    rcases hget : (negotiator.getTicket (DialogInput.ofJson input)).run s with ⟨_ | ticket, s₁⟩ <;>
      rw [hget] at hticket
    · exact hticket
    · have hclaims := BaseNegotiator.frame_processCredentials negotiator
        (DialogInput.ofJson input).claimTokens ticket s₁
      rcases hprocess : (negotiator.processCredentials (DialogInput.ofJson input).claimTokens
        ticket).run s₁ with ⟨_ | updated, s₂⟩ <;> rw [hprocess] at hclaims <;>
        simp only [hprocess, Async.run_lift, Async.run_yield]
      · exact (congrArg (fun store => store.get ticketId) hclaims).trans hticket
      · have hbefore : s₂.ticketStore.get ticketId = s.ticketStore.get ticketId :=
          (congrArg (fun store => store.get ticketId) hclaims).trans hticket
        cases negotiator.ticketingStrategy.resolveTicket updated with
        | error e => exact hbefore
        | ok result =>
          cases result with
          | success granted =>
            exact (congrArg (fun store => store.get ticketId)
              (BaseNegotiator.frame_grant negotiator updated granted s₂)).trans hbefore
          | failure requirements =>
            simp only [BaseNegotiator.denyRequest]
            by_cases hnone : requirements.length = 0
            · rw [if_pos hnone]
              exact hbefore
            · rw [if_neg hnone]
              show (s₂.ticketStore.set randomUUID _).get ticketId = _
              rw [KeyValueStorage.get_set, if_neg hdrawn.symm]
              exact hbefore

theorem ticket_step {ticketId : String} {event : AccessEvent} (havoids : Avoids ticketId event)
    (s : AccessState τ) :
    (deployment.step s event).negotiation.ticketStore.get ticketId =
      s.negotiation.ticketStore.get ticketId := by
  cases event with
  | manage step => rfl
  | permission asked =>
    rcases run_ticketHandler deployment s.policies asked s.negotiation.ticketStore with ⟨hsame, -⟩ | hset
    · exact congrArg (fun store => store.get ticketId) hsame
    · refine (congrArg (fun store => store.get ticketId) hset).trans ?_
      rw [KeyValueStorage.get_set, if_neg havoids.symm]
  | negotiate negotiation => exact ticket_negotiate _ s.negotiation havoids.1 havoids.2

/-- A ticket is there until a request uses it. -/
theorem ticket_kept {ticketId : String} {between : List AccessEvent}
    (havoids : ∀ event ∈ between, Avoids ticketId event) (s : AccessState τ) :
    (between.foldl deployment.step s).negotiation.ticketStore.get ticketId =
      s.negotiation.ticketStore.get ticketId := by
  induction between generalizing s with
  | nil => rfl
  | cons event between ih =>
    exact (ih (fun other hother => havoids other (List.mem_cons_of_mem _ hother)) _).trans
      (ticket_step (havoids event List.mem_cons_self) s)

/-! ## Getting access -/

/-- The token services of a negotiation answer. -/
structure Ready (deployment : AccessDeployment τ) (negotiation : Negotiation) : Prop where
  mints : ∀ token tokenStore, ∃ minted,
    deployment.factory.serialize negotiation.draws token tokenStore = .ok minted
  refreshes : ∀ issue, deployment.refreshTokenIssuer = some issue →
    ∀ claims permissions s, ∃ token, ((issue claims permissions).run s).1 = .ok token

theorem run_onTokens_ok {α : Type} {p : Async (Minting τ) HttpError α}
    {s : NegotiatorState (Minting τ)} {a : α} (h : (p.run s.tokens).1 = .ok a) :
    ∃ s', (BaseNegotiator.onTokens p).run s = (.ok a, s') ∧
      s'.tokens = (p.run s.tokens).2 := by
  refine ⟨s.setTokens (p.run s.tokens).2, ?_, rfl⟩
  rw [BaseNegotiator.run_onTokens, h]

theorem run_issueRefreshToken {negotiation : Negotiation} (hready : deployment.Ready negotiation)
    (policies : Store) (provided : ClaimSet) (granted : List Permission)
    (s : NegotiatorState (Minting τ)) :
    ∃ refreshToken s', ((deployment.negotiator policies negotiation).issueRefreshToken provided
      granted).run s = (.ok refreshToken, s') := by
  unfold BaseNegotiator.issueRefreshToken
  cases hissuer : (deployment.negotiator policies negotiation).refreshTokenIssuer with
  | none => exact ⟨none, s, rfl⟩
  | some issue =>
    obtain ⟨inner, hinner, rfl⟩ := Option.map_eq_some_iff.mp hissuer
    obtain ⟨token, htoken⟩ := hready.refreshes inner hinner provided granted s.tokens.services
    have hzoom : ((Minting.onServices (inner provided granted)).run s.tokens).1 = .ok token :=
      (Async.run_zoom_fst (fun _ _ => rfl) _ _).trans htoken
    obtain ⟨s', hrun, -⟩ := run_onTokens_ok hzoom
    exact ⟨some token, s', Async.run_bind_of_ok hrun _⟩

theorem run_grant {negotiation : Negotiation} (hready : deployment.Ready negotiation)
    (policies : Store) (ticket : Ticket) (granted : List Permission)
    (s : NegotiatorState (Minting τ)) :
    ∃ output s', ((deployment.negotiator policies negotiation).grant ticket granted).run s =
        (.ok output, s') ∧
      ⟨negotiation.draws, BaseNegotiator.mintedToken ticket granted, output.accessToken⟩ ∈
        issuedOf s' := by
  obtain ⟨minted, hminted⟩ :=
    hready.mints (BaseNegotiator.mintedToken ticket granted) s.tokens.tokenStore
  have hserialize : (Minting.mint deployment.factory negotiation.draws
      (BaseNegotiator.mintedToken ticket granted)).run s.tokens =
        (.ok minted.1, ⟨minted.2, s.tokens.issued ++ [⟨negotiation.draws,
          BaseNegotiator.mintedToken ticket granted, minted.1.token⟩], s.tokens.services⟩) := by
    unfold Minting.mint
    rw [Async.run_bind, Async.run_get]
    simp only [hminted]
    rfl
  obtain ⟨s₁, hmint, htokens⟩ := run_onTokens_ok (congrArg Prod.fst hserialize)
  rw [hserialize] at htokens
  obtain ⟨refreshToken, s₂, hrefresh⟩ :=
    run_issueRefreshToken hready policies ticket.provided granted s₁
  have hframe : issuedOf s₂ = issuedOf s₁ := by
    have h := frame_issueRefreshToken deployment policies negotiation ticket.provided granted s₁
    rwa [hrefresh] at h
  refine ⟨_, s₂, (Async.run_bind_of_ok hmint _).trans (Async.run_bind_of_ok hrefresh _), ?_⟩
  rw [hframe]
  show _ ∈ s₁.tokens.issued
  rw [htokens]
  exact List.mem_append_right _ (List.mem_singleton.mpr rfl)

theorem run_negotiate {negotiation : Negotiation} (hready : deployment.Ready negotiation)
    {policies : Store} {s : NegotiatorState (Minting τ)}
    (hinput : DialogInput.assertion negotiation.input = .ok ()) {ticket updated : Ticket}
    {s₁ s₂ : NegotiatorState (Minting τ)} {granted : List Permission}
    (hget : ((deployment.negotiator policies negotiation).getTicket
      (DialogInput.ofJson negotiation.input)).run s = (.ok ticket, s₁))
    (hprocess : ((deployment.negotiator policies negotiation).processCredentials
      (DialogInput.ofJson negotiation.input).claimTokens ticket).run s₁ = (.ok updated, s₂))
    (hresolved : (deployment.negotiator policies negotiation).ticketingStrategy.resolveTicket
      updated = .ok (.success granted)) :
    ∃ output s', ((deployment.negotiator policies negotiation).negotiate negotiation.ticketId
        negotiation.input).run s = (.ok output, s') ∧
      ⟨negotiation.draws, BaseNegotiator.mintedToken updated granted, output.accessToken⟩ ∈
        issuedOf s' := by
  obtain ⟨output, s', hgrant, hissued⟩ := run_grant hready policies updated granted s₂
  refine ⟨output, s', ?_, hissued⟩
  unfold BaseNegotiator.negotiate
  rw [hinput]
  simp only [Async.run_bind_of_ok hget, Async.run_bind_of_ok hprocess, Async.run_bind,
    Async.run_lift, Async.run_yield, hresolved]
  exact hgrant

/-- What was minted stays known. -/
theorem issued_step (s : AccessState τ) (event : AccessEvent) {minted : Issued}
    (hminted : minted ∈ issuedOf s.negotiation) :
    minted ∈ issuedOf (deployment.step s event).negotiation := by
  cases event with
  | manage step => exact hminted
  | permission asked => exact hminted
  | negotiate negotiation =>
    rcases issued_negotiate deployment s.policies negotiation s.negotiation with
      hsame | ⟨ticket, token, jwt, -, hnew⟩
    · exact hsame.symm ▸ hminted
    · exact hnew.symm ▸ List.mem_append_left _ hminted

theorem issued_later (s : AccessState τ) (later : List AccessEvent) {minted : Issued}
    (hminted : minted ∈ issuedOf s.negotiation) :
    minted ∈ issuedOf (later.foldl deployment.step s).negotiation := by
  induction later generalizing s with
  | nil => exact hminted
  | cons event later ih => exact ih _ (issued_step s event hminted)

/-- The constraints of the accepted requests about a pair are supported. -/
def SupportedFor (deployment : AccessDeployment τ) (steps : List RequestStep)
    (env : SimpleOdrlAuthorizer.Environment) (claims : ClaimSet) (resourceId scope : String) : Prop :=
  ∀ content, Accepted deployment.requests deployment.uuid steps content →
    content.Covers claims resourceId scope → content.Supported env claims

theorem getPermissions_accepted {steps : List RequestStep}
    (hfresh : FreshUUIDs deployment.uuid steps.length) {env : SimpleOdrlAuthorizer.Environment}
    {claims : ClaimSet} {resourceId scope : String}
    (haccepted : deployment.AcceptedFor steps env claims resourceId scope)
    (hsupported : deployment.SupportedFor steps env claims resourceId scope) :
    SimpleOdrlAuthorizer.getPermissions env
      (requestsAfter deployment.requests deployment.uuid steps) claims resourceId scope =
        .ok (some [scope]) := by
  have hgranted : SimpleOdrlAuthorizer.Granted env
      (requestsAfter deployment.requests deployment.uuid steps) claims resourceId scope :=
    (granted_iff_accepted hfresh).mpr haccepted
  obtain ⟨result, hresult⟩ := answer_of_supported hfresh hsupported
  rcases (SimpleOdrlAuthorizer.getPermissions_answer hresult).2 with ⟨rfl, -⟩ | ⟨-, hnot⟩
  · exact hresult
  · exact absurd hgranted hnot

/-- A negotiation of which all is accepted gives a token that permits what was
asked for. -/
theorem negotiation_gives_access (deployment : AccessDeployment τ) (services : τ)
    (before later : List AccessEvent) (negotiation : Negotiation)
    (hfresh : FreshUUIDs deployment.uuid (AccessEvent.requests before).length)
    (hready : deployment.Ready negotiation)
    (hinput : DialogInput.assertion negotiation.input = .ok ()) (ticket : Ticket)
    (claims : ClaimSet)
    (hdecides : DecidesBy
      (deployment.negotiator (deployment.run services before).policies negotiation)
      (deployment.run services before).negotiation (DialogInput.ofJson negotiation.input) ticket
      claims)
    (hasked : ticket.permissions ≠ [])
    (hscopes : ∀ permission ∈ ticket.permissions, permission.resourceScopes ≠ [])
    (hdistinct : (ticket.permissions.map Permission.resourceId).Nodup)
    (haccepted : ∀ resourceId scope, (resourceId, scope) ∈ pairs ticket.permissions →
      deployment.AcceptedFor (AccessEvent.requests before) negotiation.env claims resourceId scope ∧
        deployment.SupportedFor (AccessEvent.requests before) negotiation.env claims resourceId
          scope) :
    ∃ output minted,
      (((deployment.negotiator (deployment.run services before).policies negotiation).negotiate
        negotiation.ticketId negotiation.input).run
          (deployment.run services before).negotiation).1 = .ok output ∧
      minted.jwt = output.accessToken ∧ minted.draws = negotiation.draws ∧
      minted ∈ (deployment.server services (before ++ .negotiate negotiation :: later)).issued ∧
      ∀ (extractor : UmaTokenExtractor) (now : Moment) (request : HttpRequest),
        extractor.introspect = false →
        Trusts extractor.client
          (deployment.server services (before ++ .negotiate negotiation :: later)) now →
        Presents extractor
          (deployment.server services (before ++ .negotiate negotiation :: later)) request minted →
        (deployment.server services (before ++ .negotiate negotiation :: later)).Current minted now →
        ∀ resourceId mode, (resourceId, modeMap mode) ∈ pairs ticket.permissions →
          extractor.Permits now request resourceId mode := by
  obtain ⟨updated, s₁, s₂, hget, hprocess, hpermissions, hprovided⟩ := hdecides
  have hpolicies := (policies_run deployment services before).1
  have hauthorized : simpleOdrlAuthorizer negotiation.env
      (deployment.run services before).policies deployment.authorizer updated.provided
        (fullQuery updated.permissions) = .ok updated.permissions := by
    rw [hpermissions, hprovided, hpolicies]
    refine simpleOdrl_all hscopes fun id scope hpair => ?_
    obtain ⟨haccept, hsupported⟩ := haccepted id scope hpair
    exact getPermissions_accepted hfresh haccept hsupported
  have hfilter : updated.permissions.filter (fun p => p.resourceScopes.length > 0) =
      updated.permissions := by
    refine List.filter_eq_self.mpr fun permission hpermission => decide_eq_true ?_
    rw [hpermissions] at hpermission
    exact List.length_pos_of_ne_nil (hscopes permission hpermission)
  have hresolved : (deployment.negotiator (deployment.run services before).policies
      negotiation).ticketingStrategy.resolveTicket updated = .ok (.success updated.permissions) := by
    refine ImmediateAuthorizerStrategy.resolveTicket_success.mpr
      ⟨_, hauthorized, hfilter.symm, ?_, .inr Set.Subset.rfl⟩
    rw [hpermissions]
    obtain ⟨permission, hpermission⟩ := List.exists_mem_of_ne_nil _ hasked
    obtain ⟨scope, hscope⟩ := List.exists_mem_of_ne_nil _ (hscopes permission hpermission)
    exact ⟨(permission.resourceId, scope), permission, hpermission, rfl, hscope⟩
  obtain ⟨output, s', hrun, hissued⟩ := run_negotiate hready hinput hget hprocess hresolved
  have hkept : ⟨negotiation.draws, BaseNegotiator.mintedToken updated updated.permissions,
      output.accessToken⟩ ∈
        (deployment.server services (before ++ .negotiate negotiation :: later)).issued := by
    unfold server run
    rw [List.foldl_append, List.foldl_cons]
    refine issued_later _ later ?_
    show _ ∈ issuedOf (((deployment.negotiator (deployment.run services before).policies
      negotiation).negotiate negotiation.ticketId negotiation.input).run
        (deployment.run services before).negotiation).2
    rw [hrun]
    exact hissued
  refine ⟨output, ⟨negotiation.draws, _, output.accessToken⟩, congrArg Prod.fst hrun, rfl, rfl,
    hkept, ?_⟩
  intro extractor now request hjwt htrusts hpresents hcurrent resourceId mode hpair
  refine (permits_iff extractor _ now hjwt htrusts request resourceId mode).mpr
    ⟨_, hpresents, hcurrent, lastPermission_of_distinct ?_ ?_⟩
  · show (updated.permissions.map Permission.resourceId).Nodup
    rwa [hpermissions]
  · show _ ∈ pairs updated.permissions
    rwa [hpermissions]

/-! ## The whole flow -/

/-- The claims that are pushed with a ticket, and those of the ticket. -/
def Proves (negotiator : BaseNegotiator (Minting τ)) (s : NegotiatorState (Minting τ))
    (claimTokens : List ClaimToken) (ticket : Ticket) (claims : ClaimSet) : Prop :=
  ∃ updated s', (negotiator.processCredentials claimTokens ticket).run s = (.ok updated, s') ∧
    updated.provided = claims

/-- The permission endpoint gave a ticket. -/
def GivesTicket (deployment : AccessDeployment τ) (s : AccessState τ) (asked : PermissionRequest) :
    Prop :=
  ∃ response, (((deployment.ticketHandler s.policies asked).handle asked.ticketId
    asked.request).run s.negotiation.ticketStore).1 = .ok response ∧ response.status = 201

theorem decidesBy_ticket {policies : Store} {negotiation : Negotiation}
    {s : NegotiatorState (Minting τ)} {input : DialogInput} {id : String} {ticket : Ticket}
    {claims : ClaimSet} (hid : input.ticket = some id) (hstored : s.ticketStore.get id = some ticket)
    (hproves : Proves (deployment.negotiator policies negotiation)
      { s with ticketStore := s.ticketStore.delete id } input.claimTokens ticket claims) :
    DecidesBy (deployment.negotiator policies negotiation) s input ticket claims := by
  obtain ⟨updated, s', hprocess, hprovided⟩ := hproves
  have hpermissions : updated.permissions = ticket.permissions :=
    BaseNegotiator.processCredentials_invariant (fun t => t.permissions = ticket.permissions)
      (fun t claims t' ht hvalid => by cases hvalid; exact ht) rfl hprocess
  refine ⟨updated, _, s', ?_, hprocess, hpermissions, hprovided⟩
  unfold BaseNegotiator.getTicket
  simp only [hid, BaseNegotiator.takeTicket, Async.run_bind, Async.run_get, Async.run_yield,
    hstored]
  rfl

/-- Where the permission endpoint gave a ticket, and then, whatever requests
came in between, owners have accepted requests for all it asks for, and their
constraints are supported and hold for the claims that are pushed with it: the
token endpoint gives a token for the ticket, and however the server goes on,
whoever presents the token in time is permitted the modes that were asked for
at the permission endpoint. -/
theorem ticket_gives_access (deployment : AccessDeployment τ) (services : τ)
    (before between events later : List AccessEvent) (asked : PermissionRequest)
    (negotiation : Negotiation) (hevents : events = before ++ .permission asked :: between)
    (hgiven : GivesTicket deployment (deployment.run services before) asked)
    (havoids : ∀ event ∈ between, Avoids asked.ticketId event)
    (hfresh : FreshUUIDs deployment.uuid (AccessEvent.requests events).length)
    (hready : deployment.Ready negotiation)
    (hinput : DialogInput.assertion negotiation.input = .ok ())
    (hticket : (DialogInput.ofJson negotiation.input).ticket = some asked.ticketId)
    (claims : ClaimSet)
    (hproves : Proves (deployment.negotiator (deployment.run services events).policies negotiation)
      { (deployment.run services events).negotiation with
        ticketStore :=
          (deployment.run services events).negotiation.ticketStore.delete asked.ticketId }
      (DialogInput.ofJson negotiation.input).claimTokens (askedTicket asked) claims)
    (hasked : permissionsOfJson asked.request.body ≠ [])
    (hscopes : ∀ permission ∈ permissionsOfJson asked.request.body,
      permission.resourceScopes ≠ [])
    (hdistinct : ((permissionsOfJson asked.request.body).map Permission.resourceId).Nodup)
    (haccepted : ∀ resourceId scope,
      (resourceId, scope) ∈ pairs (permissionsOfJson asked.request.body) →
      deployment.AcceptedFor (AccessEvent.requests events) negotiation.env claims resourceId
          scope ∧
        deployment.SupportedFor (AccessEvent.requests events) negotiation.env claims resourceId
          scope) :
    ∃ output minted,
      (((deployment.negotiator (deployment.run services events).policies negotiation).negotiate
          negotiation.ticketId negotiation.input).run
        (deployment.run services events).negotiation).1 = .ok output ∧
      minted.jwt = output.accessToken ∧ minted.draws = negotiation.draws ∧
      minted ∈ (deployment.server services (events ++ .negotiate negotiation :: later)).issued ∧
      ∀ (extractor : UmaTokenExtractor) (now : Moment) (request : HttpRequest),
        extractor.introspect = false →
        Trusts extractor.client
          (deployment.server services (events ++ .negotiate negotiation :: later)) now →
        Presents extractor
          (deployment.server services (events ++ .negotiate negotiation :: later)) request minted →
        (deployment.server services (events ++ .negotiate negotiation :: later)).Current minted now →
        ∀ resourceId mode,
          (resourceId, modeMap mode) ∈ pairs (permissionsOfJson asked.request.body) →
          extractor.Permits now request resourceId mode := by
  have hrun : deployment.run services events = between.foldl deployment.step
      (deployment.step (deployment.run services before) (.permission asked)) := by
    rw [hevents]
    unfold run
    rw [List.foldl_append, List.foldl_cons]
  have hstored : (deployment.run services events).negotiation.ticketStore.get asked.ticketId =
      some (askedTicket asked) := by
    rw [hrun, ticket_kept havoids]
    obtain ⟨response, hresponse, hstatus⟩ := hgiven
    rcases run_ticketHandler deployment (deployment.run services before).policies asked
      (deployment.run services before).negotiation.ticketStore with ⟨-, hnot⟩ | hset
    · exact absurd hstatus (hnot response hresponse)
    · refine (congrArg (fun store => store.get asked.ticketId) hset).trans ?_
      rw [KeyValueStorage.get_set, if_pos rfl]
  exact negotiation_gives_access deployment services events later negotiation hfresh hready hinput
    (askedTicket asked) claims (decidesBy_ticket hticket hstored hproves) hasked hscopes hdistinct
    haccepted

/-! ## The photo -/

theorem granted_photo :
    photoDeployment.AcceptedFor photoShared photoNegotiation.env researcher
        "http://example.org/photo" "urn:example:css:modes:read" ∧
      photoDeployment.SupportedFor photoShared photoNegotiation.env researcher
        "http://example.org/photo" "urn:example:css:modes:read" := by
  have hfresh : FreshUUIDs twoUUIDs photoShared.length := ⟨by decide +kernel, by decide +kernel⟩
  have hanswer : SimpleOdrlAuthorizer.getPermissions photoNegotiation.env
      (requestsAfter photoRequests twoUUIDs photoShared) researcher "http://example.org/photo"
      "urn:example:css:modes:read" = .ok (some ["urn:example:css:modes:read"]) := by decide +kernel
  have hrecords : ∀ record ∈ recordsAfter photoRequests twoUUIDs photoShared,
      ∀ terms ∈ record.content.constraints,
        SimpleOdrlAuthorizer.validateConstraint photoNegotiation.env researcher
          (operands terms) = .ok (some true) := by decide +kernel
  constructor
  · rcases (SimpleOdrlAuthorizer.getPermissions_answer hanswer).2 with ⟨-, hgranted⟩ | ⟨hnone, -⟩
    · exact (granted_iff_accepted hfresh).mp hgranted
    · cases hnone
  · intro content haccepted hcovers terms hterms
    obtain ⟨record, hrecord, n, clientID, -, rfl⟩ := (accepted_iff hfresh).mp haccepted
    exact ⟨true, hrecords record hrecord terms hterms⟩

theorem ticket_gives_access_photo :
    ∃ minted ∈ photoServer.issued,
      photoExtractor.Permits photoTime photoRequest "http://example.org/photo" .Read := by
  have hgiven : GivesTicket photoDeployment
      (photoDeployment.run () ((photoShared.take 1).map .manage)) photoAsked :=
    ⟨{ status := 201, body := .object [("ticket", .string "first")] }, rfl, rfl⟩
  have hfresh : FreshUUIDs twoUUIDs (AccessEvent.requests ((photoShared.take 1).map .manage ++
      .permission photoAsked :: (photoShared.drop 1).map .manage)).length :=
    ⟨by decide +kernel, by decide +kernel⟩
  have hready : photoDeployment.Ready photoNegotiation :=
    ⟨fun token tokenStore => ⟨_, rfl⟩, fun issue hissue => by cases hissue⟩
  have hinput : DialogInput.assertion photoNegotiation.input = .ok () := by decide +kernel
  obtain ⟨output, minted, -, -, -, hminted, hpermits⟩ := ticket_gives_access photoDeployment ()
    ((photoShared.take 1).map .manage) ((photoShared.drop 1).map .manage) _ [] photoAsked
    photoNegotiation rfl hgiven
    (fun event hevent => by cases List.mem_singleton.mp hevent; exact trivial)
    hfresh hready hinput rfl researcher
    ⟨{ askedTicket photoAsked with provided := researcher }, _, rfl, rfl⟩
    (List.cons_ne_nil _ _)
    (fun permission hpermission => by
      cases List.mem_singleton.mp hpermission
      exact List.cons_ne_nil _ _)
    (List.nodup_singleton _) (by
      rintro resourceId scope ⟨permission, hpermission, rfl, hscope⟩
      cases List.mem_singleton.mp hpermission
      cases List.mem_singleton.mp hscope
      exact granted_photo)
  obtain ⟨-, hpresents, hcurrent⟩ := presents_photo hminted
  exact ⟨minted, hminted, hpermits photoExtractor _ photoRequest rfl (trusts_photo _) hpresents
    hcurrent "http://example.org/photo" .Read
    ⟨_, List.mem_singleton.mpr rfl, rfl, List.mem_singleton.mpr rfl⟩⟩

end UserManagedAccess.Css.AccessDeployment
