/-
UserManagedAccess.Dialog.TicketRunTheorems — tickets over whole runs.

A `World` is the state of a run of ticket and token requests, with a record
of what every issued ticket was requested for (`issued`). `Honest` is the
invariant that the tickets in the store still say so: `honest_step` for one
request, `honest_run` for a run. With `Mints.exact` it gives that a token
obtained after any number of rounds has exactly the pairs that were asked for
in the first.

* `honest_run` — the tickets of the store, after any run;
* `grants_within_query_and_tokens_exact` — no tree of authorizers grants more
  than it is asked, by induction on the tree; and the tokens, by `honest_run`.

Each request can come with an authorizer tree, claims and policies of its own,
and requests are handled one after the other. The strategy is the one without
partial success, over which `Mints.exact` holds.
-/
import UserManagedAccess.Dialog.BaseNegotiatorTheorems
import UserManagedAccess.Routes.Ticket

namespace UserManagedAccess.Dialog

open UserManagedAccess.Lib UserManagedAccess.Util UserManagedAccess.Views
open UserManagedAccess.Credentials UserManagedAccess.Ticketing UserManagedAccess.Tokens
open UserManagedAccess.Policies UserManagedAccess.Routes

/-! ## Runs -/

/-- The requests that handle tickets, with the authorizer tree at the time of
each. -/
inductive TicketEvent (τ : Type) where
  | permissionRequest (tree : AuthorizerTree)
      (registrationStore : KeyValueStorage String Registration) (validator : RequestValidator)
      (randomUUID : String) (request : HttpHandlerRequest)
  | tokenRequest (tree : AuthorizerTree) (verifier : Credential → Async τ HttpError ClaimSet)
      (tokenFactory : Serialize τ) (refreshTokenIssuer : Option (IssueRefreshToken τ))
      (randomUUID : String) (input : Json)

/-- The state of a run, and what each issued ticket was requested for. -/
structure World (τ : Type) where
  state : NegotiatorState τ
  issued : List (String × List Permission)

namespace World

variable {τ : Type}

/-- The permissions a token request continues to ask for. -/
def requestedFor (w : World τ) (input : DialogInput) : List (List Permission) :=
  match input.ticket with
  | some id => (w.issued.filter (·.1 = id)).map Prod.snd
  | none => input.permissions.toList

def ticketHandler (tree : AuthorizerTree)
    (registrationStore : KeyValueStorage String Registration) (validator : RequestValidator) :
    TicketRequestHandler where
  ticketingStrategy := immediateAuthorizerStrategy tree.permissions false
  registrationStore
  validator

/-- A `BaseNegotiator` over a non-partial immediate strategy. -/
def negotiator (tree : AuthorizerTree) (verifier : Credential → Async τ HttpError ClaimSet)
    (tokenFactory : Serialize τ) (refreshTokenIssuer : Option (IssueRefreshToken τ)) :
    BaseNegotiator τ where
  verifier
  ticketingStrategy := immediateAuthorizerStrategy tree.permissions false
  tokenFactory
  refreshTokenIssuer

/-- One request, handled to its end. -/
def step (w : World τ) : TicketEvent τ → World τ
  | .permissionRequest tree registrationStore validator randomUUID request =>
    let (response, ticketStore) :=
      ((ticketHandler tree registrationStore validator).handle randomUUID request).run
        w.state.ticketStore
    let issued := match response with
      | .ok { status := 201, .. } => [(randomUUID, permissionsOfJson request.body)]
      | _ => []
    { state := { w.state with ticketStore }, issued := w.issued ++ issued }
  | .tokenRequest tree verifier tokenFactory refreshTokenIssuer randomUUID input =>
    let (output, state) :=
      ((negotiator tree verifier tokenFactory refreshTokenIssuer).negotiate randomUUID input).run
        w.state
    let issued := match output with
      | .error (.needInfo _ ticket _) =>
        (w.requestedFor (DialogInput.ofJson input)).map (fun permissions => (ticket, permissions))
      | _ => []
    { state, issued := w.issued ++ issued }

def start (tokens : τ) : World τ :=
  { state := { ticketStore := KeyValueStorage.empty, tokens }, issued := [] }

def run (tokens : τ) (events : List (TicketEvent τ)) : World τ :=
  events.foldl step (start tokens)

/-- Every stored ticket still has the permissions it was requested for. -/
def Honest (w : World τ) : Prop :=
  ∀ id ticket, w.state.ticketStore.get id = some ticket → (id, ticket.permissions) ∈ w.issued

/-- Taking tickets out leaves the others as honest as they were. -/
theorem Honest.of_takes {w : World τ} (h : w.Honest) {store : KeyValueStorage String Ticket}
    (htakes : BaseNegotiator.Takes w.state.ticketStore store) :
    ∀ id ticket, store.get id = some ticket → (id, ticket.permissions) ∈ w.issued := by
  intro id ticket hget
  rcases htakes with rfl | ⟨taken, rfl⟩
  · exact h id ticket hget
  · rw [KeyValueStorage.get_delete] at hget
    split at hget
    · cases hget
    · exact h id ticket hget

/-- The ticket of a token request is for what the request continues to ask. -/
theorem Honest.ticketFor {w : World τ} (h : w.Honest) {tree : AuthorizerTree}
    {n : BaseNegotiator τ}
    (hstrategy : n.ticketingStrategy = immediateAuthorizerStrategy tree.permissions false)
    {input : DialogInput} {ticket : Ticket} (hfor : n.TicketFor w.state input ticket) :
    ticket.permissions ∈ w.requestedFor input := by
  unfold BaseNegotiator.TicketFor at hfor
  unfold requestedFor
  cases hid : input.ticket with
  | some id =>
    rw [hid] at hfor
    have hmem := h id ticket hfor
    exact List.mem_map.mpr ⟨_, List.mem_filter.mpr ⟨hmem, by simp⟩, rfl⟩
  | none =>
    rw [hid] at hfor
    obtain ⟨permissions, hperms, hinit⟩ := hfor
    rw [hstrategy] at hinit
    injection hinit with hinit
    rw [hperms, ← hinit]
    simp

/-- What the ticket endpoint stores, and when. -/
theorem handle_tickets (tree : AuthorizerTree)
    (registrationStore : KeyValueStorage String Registration) (validator : RequestValidator)
    (randomUUID : String) (request : HttpHandlerRequest)
    (store : KeyValueStorage String Ticket) :
    (((ticketHandler tree registrationStore validator).handle randomUUID request).run store).2 =
        store ∨
      ∃ body ticket,
        ((ticketHandler tree registrationStore validator).handle randomUUID request).run store =
          (.ok { status := 201, body }, store.set randomUUID ticket) ∧
        ticket.permissions = permissionsOfJson request.body := by
  unfold TicketRequestHandler.handle
  cases (ticketHandler tree registrationStore validator).validator request with
  | error e => exact Or.inl rfl
  | ok owner =>
    cases htype : ReType.array Permission.assertion request.body with
    | error message =>
      simp only [Async.run_bind, Async.run_lift]
      exact Or.inl rfl
    | ok u =>
      simp only [Async.run_bind, Async.run_lift]
      split
      · exact Or.inl rfl
      · simp only [ticketHandler, immediateAuthorizerStrategy, Async.run_bind, Async.run_lift,
          ImmediateAuthorizerStrategy.initializeTicket]
        cases ImmediateAuthorizerStrategy.resolveTicket tree.permissions false
            { permissions := permissionsOfJson request.body, provided := Dict.empty } with
        | error e => exact Or.inl rfl
        | ok result =>
          cases result with
          | success granted => exact Or.inl rfl
          | failure claims => exact Or.inr ⟨_, _, rfl, rfl⟩

theorem honest_start (tokens : τ) : (start tokens).Honest := by
  intro id ticket hget
  cases hget

/-- A store with one more ticket, recorded for its permissions. -/
theorem honest_set {store : KeyValueStorage String Ticket} {issued : List (String × List Permission)}
    (h : ∀ id ticket, store.get id = some ticket → (id, ticket.permissions) ∈ issued)
    {id : String} {ticket : Ticket} (hmem : (id, ticket.permissions) ∈ issued) :
    ∀ other t, (store.set id ticket).get other = some t → (other, t.permissions) ∈ issued := by
  intro other t hget
  rw [KeyValueStorage.get_set] at hget
  split at hget
  · rename_i heq
    injection hget with hget
    rw [heq, ← hget]
    exact hmem
  · exact h other t hget

theorem honest_step {w : World τ} (h : w.Honest) (event : TicketEvent τ) :
    (w.step event).Honest := by
  cases event with
  | permissionRequest tree registrationStore validator randomUUID request =>
    rcases handle_tickets tree registrationStore validator randomUUID request
      w.state.ticketStore with hsame | ⟨body, ticket, hrun, hperms⟩
    · intro id ticket hget
      have hstore : (w.step (.permissionRequest tree registrationStore validator randomUUID
          request)).state.ticketStore = w.state.ticketStore := hsame
      rw [hstore] at hget
      exact List.mem_append_left _ (h id ticket hget)
    · simp only [Honest, step, hrun]
      refine honest_set (fun id t hget => List.mem_append_left _ (h id t hget)) ?_
      rw [hperms]
      exact List.mem_append_right _ (List.mem_singleton_self _)
  | tokenRequest tree verifier tokenFactory refreshTokenIssuer randomUUID input =>
    obtain ⟨store, htakes, hsame | ⟨ticket, provided, message, requirements, hout, hfor, hset⟩⟩ :=
      (negotiator tree verifier tokenFactory refreshTokenIssuer).negotiate_tickets randomUUID
        input w.state
    · intro id ticket hget
      have hstore : (w.step (.tokenRequest tree verifier tokenFactory refreshTokenIssuer
          randomUUID input)).state.ticketStore = store := hsame
      rw [hstore] at hget
      exact List.mem_append_left _ (h.of_takes htakes id ticket hget)
    · have hissued : (w.step (.tokenRequest tree verifier tokenFactory refreshTokenIssuer
          randomUUID input)).issued = w.issued ++ (w.requestedFor (DialogInput.ofJson input)).map
            (fun permissions => (randomUUID, permissions)) := by
        simp only [step, hout]
      intro id t hget
      have hstore : (w.step (.tokenRequest tree verifier tokenFactory refreshTokenIssuer
          randomUUID input)).state.ticketStore = store.set randomUUID { ticket with provided } :=
        hset
      rw [hstore] at hget
      rw [hissued]
      refine honest_set (fun id t hget => ?_) ?_ id t hget
      · exact List.mem_append_left _ (h.of_takes htakes id t hget)
      · exact List.mem_append_right _ (List.mem_map.mpr ⟨_, h.ticketFor rfl hfor, rfl⟩)

theorem honest_run (tokens : τ) (events : List (TicketEvent τ)) : (run tokens events).Honest := by
  have hgen : ∀ (events : List (TicketEvent τ)) (w : World τ), w.Honest →
      (events.foldl step w).Honest := by
    intro events
    induction events with
    | nil => exact fun w h => h
    | cons event events ih => exact fun w h => ih _ (honest_step h event)
  exact hgen events _ (honest_start tokens)

end World

/-! ## No over-grant and exact minting -/

/-- No tree of authorizers grants a pair outside its query; and after any run
of ticket and token requests, a token has exactly the pairs its ticket was
requested for. -/
theorem grants_within_query_and_tokens_exact :
    (∀ (tree : AuthorizerTree) (claims : ClaimSet) (permissions granted : List Permission),
      tree.permissions claims (fullQuery permissions) = .ok granted →
      pairs granted ⊆ pairs permissions) ∧
    ∀ (τ : Type) (tokens : τ) (events : List (TicketEvent τ)) (tree : AuthorizerTree)
      (verifier : Credential → Async τ HttpError ClaimSet) (tokenFactory : Serialize τ)
      (refreshTokenIssuer : Option (IssueRefreshToken τ)) (randomUUID : String) (input : Json)
      (output : DialogOutput),
      (((World.negotiator tree verifier tokenFactory refreshTokenIssuer).negotiate
        randomUUID input).run (World.run tokens events).state).1 = .ok output →
      ∃ ticket minted tokens',
        (World.negotiator tree verifier tokenFactory refreshTokenIssuer).Mints
          (World.run tokens events).state (DialogInput.ofJson input) ticket minted ∧
        ticket.permissions ∈
          (World.run tokens events).requestedFor (DialogInput.ofJson input) ∧
        ((tokenFactory minted).run tokens').1 = .ok ⟨output.tokenType, output.accessToken⟩ ∧
        pairs minted.permissions = pairs ticket.permissions := by
  constructor
  · intro tree claims permissions granted h
    exact tree.pairs_subset h
  · intro τ tokens events tree verifier tokenFactory refreshTokenIssuer randomUUID input output h
    have hstrategy : (World.negotiator tree verifier tokenFactory
        refreshTokenIssuer).ticketingStrategy =
          immediateAuthorizerStrategy tree.permissions false := rfl
    obtain ⟨ticket, minted, tokens', hmints, hserialize⟩ :=
      BaseNegotiator.negotiate_ok (Prod.ext h rfl)
    have hrequested := (World.honest_run tokens events).ticketFor hstrategy hmints.ticketFor
    exact ⟨ticket, minted, tokens', hmints, hrequested, hserialize, hmints.exact hstrategy⟩

/-- Alice asks for a ticket and exchanges it for a token. -/
theorem grants_within_query_and_tokens_exact_alice :
    let tree : AuthorizerTree := .webId ["alice"]
    let asked : List Permission := [⟨"r", ["read", "append"]⟩]
    let verifier : Credential → Async Unit HttpError ClaimSet :=
      fun credential => pure [(WEBID, [.string credential.token])]
    let tokenFactory : Serialize Unit := fun _ => pure ⟨"Bearer", "token"⟩
    let ticketRequest : TicketEvent Unit := .permissionRequest tree
      (fun _ => some { owner := "owner", description := {} }) (fun _ => .ok "owner") "uuid"
      { body := .array (asked.map Permission.toJson) }
    let input : Json := .object [("ticket", .string "uuid"),
      ("claim_token", .string "alice"), ("claim_token_format", .string "format")]
    pairs asked ⊆ pairs asked ∧
      ∃ ticket minted tokens',
        (World.negotiator tree verifier tokenFactory none).Mints
          (World.run () [ticketRequest]).state (DialogInput.ofJson input) ticket minted ∧
        ticket.permissions ∈
          (World.run () [ticketRequest]).requestedFor (DialogInput.ofJson input) ∧
        ((tokenFactory minted).run tokens').1 = .ok ⟨"Bearer", "token"⟩ ∧
        pairs minted.permissions = pairs ticket.permissions := by
  intro tree asked verifier tokenFactory ticketRequest input
  refine ⟨grants_within_query_and_tokens_exact.1 tree [(WEBID, [.string "alice"])] asked asked
    rfl, ?_⟩
  exact grants_within_query_and_tokens_exact.2 Unit () [ticketRequest] tree verifier tokenFactory
    none "uuid" input { accessToken := "token", tokenType := "Bearer" } rfl

end UserManagedAccess.Dialog
