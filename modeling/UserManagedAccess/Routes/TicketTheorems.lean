/-
UserManagedAccess.Routes.TicketTheorems — when the ticket endpoint answers
200, which a resource server reads as "the operation is public".

`handle_status_200` reads the answer off the strategy;
`publicStrategy_resolves` says what a success of the strategy means, alone
and wrapped in an aggregator. A wrapped strategy never succeeds on a fresh
ticket with sources: their requirements are outstanding.

* `handle_status_200` — the checks of the endpoint, and the strategy's answer;
* `publicStrategy_resolves` — when a fresh ticket resolves without claims;
* `answersPublic_sound_iff` — a 200 is right unless partial success is allowed and
  only a part of the request is public.

Requests, registrations, authorizer and both settings are arbitrary, and so is
the decryption of aggregate identifiers (`AggregatorIds`).
-/
import UserManagedAccess.Routes.Ticket
import UserManagedAccess.Ticketing.Strategy.AggregatorStrategyTheorems

namespace UserManagedAccess.Routes

open UserManagedAccess.Lib UserManagedAccess.Util UserManagedAccess.Views
open UserManagedAccess.Credentials UserManagedAccess.Policies UserManagedAccess.Ticketing

namespace TicketRequestHandler

/-! ## The answer and the strategy -/

/-- The endpoint answers 200. -/
def AnswersPublic (handler : TicketRequestHandler) (randomUUID : String)
    (request : HttpHandlerRequest) (ticketStore : KeyValueStorage String Ticket) : Prop :=
  ∃ response, ((handler.handle randomUUID request).run ticketStore).1 = .ok response ∧
    response.status = 200

/-- The request gets past the checks of the endpoint itself: its owner is
known, its body is a permission list, and every resource is registered. -/
def Accepts (handler : TicketRequestHandler) (request : HttpHandlerRequest) : Prop :=
  (∃ owner, handler.validator request = .ok owner) ∧
    ReType.array Permission.assertion request.body = .ok () ∧
    ∀ p ∈ permissionsOfJson request.body, handler.registrationStore.has p.resourceId = true

theorem handle_status_200 {handler : TicketRequestHandler} {randomUUID : String}
    {request : HttpHandlerRequest} {ticketStore : KeyValueStorage String Ticket} :
    handler.AnswersPublic randomUUID request ticketStore ↔
      handler.Accepts request ∧ ∃ ticket permissions,
        handler.ticketingStrategy.initializeTicket (permissionsOfJson request.body) =
          .ok ticket ∧
        handler.ticketingStrategy.resolveTicket ticket = .ok (.success permissions) := by
  unfold AnswersPublic Accepts handle
  cases hvalid : handler.validator request with
  | error e => simp [Async.run_bind]
  | ok owner =>
    cases htype : ReType.array Permission.assertion request.body with
    | error message => simp [Async.run_bind]
    | ok u =>
      cases hfind : (permissionsOfJson request.body).find?
          (fun p => !handler.registrationStore.has p.resourceId) with
      | some p =>
        have hmem := List.mem_of_find?_eq_some hfind
        have hhas : handler.registrationStore.has p.resourceId = false := by
          simpa using List.find?_some hfind
        have hnot : ¬ ∀ q ∈ permissionsOfJson request.body,
            handler.registrationStore.has q.resourceId = true := by
          intro hall
          rw [hall p hmem] at hhas
          cases hhas
        simp [Async.run_bind, hfind, unknownResource, hnot]
      | none =>
        have hall : ∀ q ∈ permissionsOfJson request.body,
            handler.registrationStore.has q.resourceId = true := by
          simpa using hfind
        cases hinit : handler.ticketingStrategy.initializeTicket
            (permissionsOfJson request.body) with
        | error e => simp [Async.run_bind, hfind, hinit]
        | ok ticket =>
          cases hres : handler.ticketingStrategy.resolveTicket ticket with
          | error e => simp [Async.run_bind, hfind, hinit, hres]
          | ok result =>
            cases result with
            | success permissions => simpa [Async.run_bind, hfind, hinit, hres] using hall
            | failure claims => simp [Async.run_bind, hfind, hinit, hres]

/-! ## The strategy of the endpoint -/

/-- The aggregator around the strategy, where there is one. -/
structure Aggregation where
  ids : AggregatorIds
  derivationStore : KeyValueStorage String String

/-- An immediate strategy, possibly wrapped in an aggregator. -/
def publicStrategy (authorizer : Authorizer) (allowPartialSuccess : Bool)
    (registrationStore : KeyValueStorage String Registration) :
    Option Aggregation → TicketingStrategy
  | none => immediateAuthorizerStrategy authorizer allowPartialSuccess
  | some aggregation =>
    aggregatorStrategy aggregation.ids
      (immediateAuthorizerStrategy authorizer allowPartialSuccess)
      registrationStore aggregation.derivationStore

/-- The internal identifier of one requested permission. -/
def decodeRequested (decodeAggregateId : String → Option String) (p : Permission) : Permission :=
  if hasDerivationRead p.resourceScopes then
    { p with resourceId := (decodeAggregateId p.resourceId).getD p.resourceId }
  else p

/-- What is requested, in internal identifiers. -/
def requested (permissions : List Permission) : Option Aggregation → List Permission
  | none => permissions
  | some aggregation => permissions.map (decodeRequested aggregation.ids.decodeAggregateId)

/-- Some requested resource is derived from others, which an aggregator
answers with requirements. -/
def HasSources (registrationStore : KeyValueStorage String Registration)
    (permissions : List Permission) : Option Aggregation → Prop
  | none => False
  | some _ => AggregatorStrategy.sources registrationStore permissions ≠ []

open AggregatorStrategy in
theorem decodeIds_initialTicket {ids : AggregatorIds}
    {registrationStore : KeyValueStorage String Registration}
    {permissions : List Permission} (h : sources registrationStore permissions = []) :
    (decodeIds ids (initialTicket registrationStore permissions)).1 =
      { derivedIds := some [], provided := [],
        permissions := permissions.map (decodeRequested ids.decodeAggregateId) } := by
  have hdecode : ∀ p : Permission,
      decodePermission ids (initialTicket registrationStore permissions) p =
        decodeRequested ids.decodeAggregateId p := by
    intro p
    have hder : (initialTicket registrationStore permissions).isDerived p.resourceId = false := by
      simp [initialTicket, h, Ticket.isDerived]
    unfold decodePermission decodedId decodeRequested
    by_cases hread : hasDerivationRead p.resourceScopes = true
    · cases hdec : ids.decodeAggregateId p.resourceId <;> simp [hder, hread]
    · simp [hder, hread]
  unfold decodeIds
  simp only [initialTicket, h, List.map_nil, List.append_nil]
  simp only [initialTicket, h, List.map_nil, List.append_nil] at hdecode
  rw [List.map_congr_left (fun p _ => hdecode p)]

/-- A fresh ticket resolves when it has no sources and the authorizer, given
no claims, grants something and (unless partial success is allowed) all. -/
theorem publicStrategy_resolves {authorizer : Authorizer} {allowPartialSuccess : Bool}
    {registrationStore : KeyValueStorage String Registration}
    {aggregation : Option Aggregation} {permissions : List Permission} :
    (∃ ticket value,
      (publicStrategy authorizer allowPartialSuccess registrationStore
        aggregation).initializeTicket permissions = .ok ticket ∧
      (publicStrategy authorizer allowPartialSuccess registrationStore
        aggregation).resolveTicket ticket = .ok (.success value)) ↔
      ¬ HasSources registrationStore permissions aggregation ∧
        ∃ granted, authorizer [] (fullQuery (requested permissions aggregation)) = .ok granted ∧
          (pairs granted).Nonempty ∧
          (allowPartialSuccess = true ∨
            pairs (requested permissions aggregation) ⊆ pairs granted) := by
  cases aggregation with
  | none =>
    simp only [publicStrategy, immediateAuthorizerStrategy, HasSources, not_false_eq_true,
      true_and, requested, ImmediateAuthorizerStrategy.initializeTicket, Except.ok.injEq,
      ImmediateAuthorizerStrategy.resolveTicket_success]
    constructor
    · rintro ⟨ticket, value, rfl, granted, hauth, -, hne, hall⟩
      exact ⟨granted, hauth, hne, hall⟩
    · rintro ⟨granted, hauth, hne, hall⟩
      exact ⟨_, _, rfl, granted, hauth, rfl, hne, hall⟩
  | some aggregation =>
    simp only [publicStrategy, aggregatorStrategy, HasSources, requested]
    simp only [AggregatorStrategy.initializeTicket_ok, AggregatorStrategy.resolveTicket_success]
    constructor
    · rintro ⟨ticket, value, ⟨hadm, rfl⟩, hout, granted, hres, -⟩
      have hnone : AggregatorStrategy.sources registrationStore permissions = [] := by
        by_contra hne
        obtain ⟨derived, hderived⟩ := List.exists_mem_of_ne_nil _ hne
        refine hout ⟨AggregatorStrategy.requirement derived, ?_, ?_, ?_⟩
        · exact List.mem_append_right _ (List.mem_map_of_mem hderived)
        · exact Ticket.isDerived_some.mpr (List.mem_map_of_mem hderived)
        · exact AggregatorStrategy.hasDerivationRead_requirement derived
      rw [decodeIds_initialTicket hnone] at hres
      obtain ⟨granted', hauth, -, hne, hall⟩ :=
        ImmediateAuthorizerStrategy.resolveTicket_success.mp hres
      exact ⟨not_not_intro hnone, granted', hauth, hne, hall⟩
    · rintro ⟨hnone, granted, hauth, hne, hall⟩
      have hnone := not_not.mp hnone
      have hadm : AggregatorStrategy.Admissible registrationStore permissions := by
        intro p hp hsources
        have hnil := List.flatMap_eq_nil_iff.mp hnone p hp
        exact absurd hnil hsources
      have hres : ImmediateAuthorizerStrategy.resolveTicket authorizer allowPartialSuccess
          { derivedIds := some [], provided := [],
            permissions := permissions.map (decodeRequested aggregation.ids.decodeAggregateId) } =
          .ok (.success _) :=
        ImmediateAuthorizerStrategy.resolveTicket_success.mpr
          ⟨granted, hauth, rfl, hne, hall⟩
      rw [← decodeIds_initialTicket hnone] at hres
      refine ⟨_, _, ⟨hadm, rfl⟩, ?_, _, hres, rfl⟩
      rintro ⟨p, -, hder, -⟩
      simp [AggregatorStrategy.initialTicket, hnone, Ticket.isDerived] at hder

/-! ## Public access -/

/-- Every requested (resource id, scope) pair is granted without claims. -/
def EveryPairPublic (authorizer : Authorizer) (permissions : List Permission) : Prop :=
  ∃ granted, authorizer [] (fullQuery permissions) = .ok granted ∧
    pairs permissions ⊆ pairs granted

/-- Without claims, the authorizer grants a part of the request that is
neither empty nor all of it. -/
def PartlyPublic (authorizer : Authorizer) (permissions : List Permission) : Prop :=
  ∃ granted, authorizer [] (fullQuery permissions) = .ok granted ∧
    (pairs granted).Nonempty ∧ ¬ pairs permissions ⊆ pairs granted

/-- A 200 means that everything requested is public, except exactly when
partial success is allowed and an acceptable request without sources is only
partly public. -/
theorem answersPublic_sound_iff (authorizer : Authorizer) (allowPartialSuccess : Bool)
    (registrationStore : KeyValueStorage String Registration)
    (aggregation : Option Aggregation) (validator : RequestValidator) (randomUUID : String)
    (request : HttpHandlerRequest) (ticketStore : KeyValueStorage String Ticket) :
    let handler : TicketRequestHandler :=
      { ticketingStrategy :=
          publicStrategy authorizer allowPartialSuccess registrationStore aggregation
        registrationStore, validator }
    let permissions := permissionsOfJson request.body
    (handler.AnswersPublic randomUUID request ticketStore →
        EveryPairPublic authorizer (requested permissions aggregation)) ↔
      ¬ (allowPartialSuccess = true ∧ handler.Accepts request ∧
        ¬ HasSources registrationStore permissions aggregation ∧
        PartlyPublic authorizer (requested permissions aggregation)) := by
  intro handler permissions
  rw [handle_status_200, publicStrategy_resolves]
  constructor
  · rintro hsound ⟨hallowed, haccepts, hsources, granted, hauth, hne, hnot⟩
    obtain ⟨granted', hauth', hall⟩ :=
      hsound ⟨haccepts, hsources, granted, hauth, hne, Or.inl hallowed⟩
    rw [hauth] at hauth'
    injection hauth' with heq
    exact hnot (heq ▸ hall)
  · rintro hnot ⟨haccepts, hsources, granted, hauth, hne, hall⟩
    refine ⟨granted, hauth, ?_⟩
    rcases hall with hallowed | hall
    · by_contra hsub
      exact hnot ⟨hallowed, haccepts, hsources, granted, hauth, hne, hsub⟩
    · exact hall

/-- Grants whatever is asked of one resource, to anyone. -/
def grantOnly (resourceId : String) : Authorizer := fun _ query =>
  .ok ((query.getD []).filterMap fun p =>
    if p.resourceId = some resourceId then
      some { resourceId, resourceScopes := p.resourceScopes.getD [] }
    else none)

/-- With partial success, asking for a public resource together with a
private one is answered 200. -/
theorem answersPublic_unsound :
    ¬ ∀ (authorizer : Authorizer) (allowPartialSuccess : Bool)
      (registrationStore : KeyValueStorage String Registration)
      (aggregation : Option Aggregation) (validator : RequestValidator) (randomUUID : String)
      (request : HttpHandlerRequest) (ticketStore : KeyValueStorage String Ticket),
      ({ ticketingStrategy :=
            publicStrategy authorizer allowPartialSuccess registrationStore aggregation
         registrationStore, validator } : TicketRequestHandler).AnswersPublic
          randomUUID request ticketStore →
        EveryPairPublic authorizer
          (requested (permissionsOfJson request.body) aggregation) := by
  intro hsound
  let asked : List Permission := [⟨"public", ["read"]⟩, ⟨"private", ["read"]⟩]
  have hpublic := hsound (grantOnly "public") true
    (fun _ => some { owner := "alice", description := {} }) none (fun _ => .ok "alice") "uuid"
    { body := .array (asked.map Permission.toJson) } KeyValueStorage.empty
    ⟨{ status := 200 }, rfl, rfl⟩
  obtain ⟨granted, hauth, hall⟩ := hpublic
  have hgranted : granted = [⟨"public", ["read"]⟩] := by
    injection hauth with hauth
    exact hauth.symm
  have hpair : ("private", "read") ∈ pairs granted := hall (by decide)
  rw [hgranted] at hpair
  revert hpair
  decide

end TicketRequestHandler

end UserManagedAccess.Routes
