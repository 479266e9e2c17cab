/-
UserManagedAccess.Dialog.BaseNegotiatorTheorems — what a negotiation does, as
one lemma for each of its parts.

* `getTicket_run`, `frame_processCredentials`, `frame_grant` — what happens
  to the ticket store on the way, put together in `negotiate_tickets`;
* `negotiate_ok` — what a token in the answer says about the way there;
* `Mints.exact` — over a non-partial immediate strategy the token has the
  pairs of the ticket, no more and no less;
* `isPartialResult_exact` — the flag of the answer compares entries, so it is
  right where the grant keeps the grouping of the request or lacks something.

Results about whole runs use these lemmas and do not unfold `negotiate` again. The
verifier, the strategy, the token factory and the token services are arbitrary, and
may fail.
-/
import UserManagedAccess.Dialog.BaseNegotiator
import UserManagedAccess.Policies.Authorizers.AuthorizerTreeTheorems
import UserManagedAccess.Ticketing.Strategy.ImmediateAuthorizerStrategyTheorems

namespace UserManagedAccess.Dialog

open UserManagedAccess.Lib UserManagedAccess.Util UserManagedAccess.Views
open UserManagedAccess.Credentials UserManagedAccess.Ticketing UserManagedAccess.Tokens
open UserManagedAccess.Policies

namespace BaseNegotiator

variable {τ : Type}

/-! ## The parts of a negotiation -/

theorem frame_onTokens {α : Type} (p : Async τ HttpError α) :
    Async.Frame NegotiatorState.ticketStore (onTokens p) := by
  have hput : ∀ (tokens : τ) (s : NegotiatorState τ),
      (s.setTokens tokens).ticketStore = s.ticketStore := fun _ _ => rfl
  exact .bind (.zoom hput p) fun a => .bind .yield fun _ => .pure a

theorem onTokens_ok {α : Type} {p : Async τ HttpError α} {s s' : NegotiatorState τ} {a : α}
    (h : (onTokens p).run s = (.ok a, s')) : (p.run s.tokens).1 = .ok a := by
  obtain ⟨a', s₁, hzoom, h⟩ := Async.run_bind_ok h
  obtain ⟨-, s₂, -, h⟩ := Async.run_bind_ok h
  injection h with h
  have hview : ∀ (tokens : τ) (s : NegotiatorState τ), (s.setTokens tokens).tokens = tokens :=
    fun _ _ => rfl
  rw [← Async.run_zoom_fst hview p s, hzoom, ← h]

/-- What a factory does is done to the tokens of the state. -/
theorem run_onTokens {α : Type} (p : Async τ HttpError α) (s : NegotiatorState τ) :
    (onTokens p).run s = ((p.run s.tokens).1, s.setTokens (p.run s.tokens).2) := by
  have hview : ∀ (tokens : τ) (s : NegotiatorState τ), (s.setTokens tokens).tokens = tokens :=
    fun _ _ => rfl
  have hset : ∀ (tokens tokens' : τ) (s : NegotiatorState τ),
      (s.setTokens tokens').setTokens tokens = s.setTokens tokens := fun _ _ _ => rfl
  have hself : ∀ s : NegotiatorState τ, s.setTokens s.tokens = s := fun _ => rfl
  unfold onTokens
  rw [Async.run_bind, Async.run_zoom hview hset hself]
  rcases p.run s.tokens with ⟨_ | a, tokens⟩ <;> rfl

/-- The ticket a negotiation works on: the stored one, or a fresh one. -/
def TicketFor (negotiator : BaseNegotiator τ) (s : NegotiatorState τ) (input : DialogInput)
    (ticket : Ticket) : Prop :=
  match input.ticket with
  | some id => s.ticketStore.get id = some ticket
  | none => ∃ permissions, input.permissions = some permissions ∧
      negotiator.ticketingStrategy.initializeTicket permissions = .ok ticket

/-- At most one ticket was taken out of the store. -/
def Takes (store store' : KeyValueStorage String Ticket) : Prop :=
  store' = store ∨ ∃ id, store' = store.delete id

theorem getTicket_run (negotiator : BaseNegotiator τ) (input : DialogInput)
    (s : NegotiatorState τ) :
    Takes s.ticketStore ((negotiator.getTicket input).run s).2.ticketStore ∧
      ∀ ticket, ((negotiator.getTicket input).run s).1 = .ok ticket →
        negotiator.TicketFor s input ticket := by
  unfold getTicket TicketFor
  cases input.ticket with
  | some id =>
    simp only [takeTicket, Async.run_bind, Async.run_get, Async.run_yield]
    cases hget : s.ticketStore.get id with
    | none => exact ⟨Or.inl rfl, fun ticket h => by cases h⟩
    | some stored =>
      refine ⟨Or.inr ⟨id, rfl⟩, fun ticket h => ?_⟩
      injection h with h
      rw [h]
  | none =>
    cases input.permissions with
    | none => exact ⟨Or.inl rfl, fun ticket h => by cases h⟩
    | some permissions =>
      simp only [Async.run_bind, Async.run_lift]
      cases hinit : negotiator.ticketingStrategy.initializeTicket permissions with
      | error e => exact ⟨Or.inl rfl, fun ticket h => by cases h⟩
      | ok fresh =>
        refine ⟨Or.inl rfl, fun ticket h => ?_⟩
        injection h with h
        exact ⟨permissions, rfl, h ▸ hinit⟩

theorem frame_processCredentials (negotiator : BaseNegotiator τ) (claims : List ClaimToken)
    (ticket : Ticket) :
    Async.Frame NegotiatorState.ticketStore (negotiator.processCredentials claims ticket) := by
  induction claims generalizing ticket with
  | nil => exact .pure ticket
  | cons claim claims ih =>
    unfold processCredentials
    split
    · exact .bind (frame_onTokens _) fun verified => .bind (.lift _) fun ticket =>
        .bind .yield fun _ => ih ticket
    · exact .throw _

/-- An invariant of `validateClaims` holds of the processed ticket. -/
theorem processCredentials_invariant {negotiator : BaseNegotiator τ} (inv : Ticket → Prop)
    (hstep : ∀ ticket claims ticket', inv ticket →
      negotiator.ticketingStrategy.validateClaims ticket claims = .ok ticket' → inv ticket')
    {claims : List ClaimToken} {ticket ticket' : Ticket} {s s' : NegotiatorState τ}
    (hinit : inv ticket)
    (h : (negotiator.processCredentials claims ticket).run s = (.ok ticket', s')) :
    inv ticket' := by
  induction claims generalizing ticket s with
  | nil =>
    injection h with h
    injection h with h
    exact h ▸ hinit
  | cons claim claims ih =>
    unfold processCredentials at h
    split at h
    · obtain ⟨verified, s₁, -, h⟩ := Async.run_bind_ok h
      obtain ⟨ticket₁, s₂, hvalid, h⟩ := Async.run_bind_ok h
      obtain ⟨-, s₃, -, h⟩ := Async.run_bind_ok h
      injection hvalid with hvalid
      exact ih (hstep _ _ _ hinit hvalid) h
    · injection h with h
      cases h

theorem frame_grant (negotiator : BaseNegotiator τ) (ticket : Ticket)
    (granted : List Permission) :
    Async.Frame NegotiatorState.ticketStore (negotiator.grant ticket granted) := by
  refine .bind (frame_onTokens _) fun serialized => .bind ?_ fun refreshToken => .pure _
  unfold issueRefreshToken
  split
  · exact .pure none
  · exact .bind (frame_onTokens _) fun refreshToken => .pure _

/-- What is returned is the serialization of the minted token. -/
theorem grant_ok {negotiator : BaseNegotiator τ} {ticket : Ticket} {granted : List Permission}
    {s s' : NegotiatorState τ} {output : DialogOutput}
    (h : (negotiator.grant ticket granted).run s = (.ok output, s')) :
    ((negotiator.tokenFactory (mintedToken ticket granted)).run s.tokens).1 =
      .ok ⟨output.tokenType, output.accessToken⟩ := by
  obtain ⟨serialized, s₁, hmint, h⟩ := Async.run_bind_ok h
  obtain ⟨refreshToken, s₂, -, h⟩ := Async.run_bind_ok h
  injection h with h
  injection h with h
  rw [onTokens_ok hmint, ← h]

/-- What a negotiation does to the ticket store: it takes its ticket out, and
when it asks for more information it stores that ticket under a new
identifier, with other claims. -/
theorem negotiate_tickets (negotiator : BaseNegotiator τ) (randomUUID : String) (input : Json)
    (s : NegotiatorState τ) :
    ∃ store, Takes s.ticketStore store ∧
      (((negotiator.negotiate randomUUID input).run s).2.ticketStore = store ∨
        ∃ ticket provided message requirements,
          ((negotiator.negotiate randomUUID input).run s).1 =
            .error (.needInfo message randomUUID requirements) ∧
          negotiator.TicketFor s (DialogInput.ofJson input) ticket ∧
          ((negotiator.negotiate randomUUID input).run s).2.ticketStore =
            store.set randomUUID { ticket with provided }) := by
  unfold negotiate
  cases DialogInput.assertion input with
  | error message => exact ⟨s.ticketStore, Or.inl rfl, Or.inl rfl⟩
  | ok u =>
    obtain ⟨htakes, hticket⟩ := getTicket_run negotiator (DialogInput.ofJson input) s
    simp only [Async.run_bind]
    rcases hget : (negotiator.getTicket (DialogInput.ofJson input)).run s
      with ⟨_ | ticket, s₁⟩ <;> rw [hget] at htakes hticket
    · exact ⟨_, htakes, Or.inl rfl⟩
    · have hfor := hticket ticket rfl
      refine ⟨s₁.ticketStore, htakes, ?_⟩
      have hstore := frame_processCredentials negotiator
        (DialogInput.ofJson input).claimTokens ticket s₁
      rcases hrun : (negotiator.processCredentials (DialogInput.ofJson input).claimTokens
        ticket).run s₁ with ⟨_ | updated, s₂⟩ <;> rw [hrun] at hstore <;>
        simp only [hrun, Async.run_lift, Async.run_yield]
      · exact Or.inl hstore
      · have hstore : s₂.ticketStore = s₁.ticketStore := hstore
        cases negotiator.ticketingStrategy.resolveTicket updated with
        | error e => exact Or.inl hstore
        | ok result =>
          cases result with
          | success granted =>
            exact Or.inl ((frame_grant negotiator updated granted s₂).trans hstore)
          | failure requirements =>
            simp only [denyRequest]
            by_cases hnone : requirements.length = 0
            · rw [if_pos hnone]
              exact Or.inl hstore
            · rw [if_neg hnone]
              refine Or.inr ⟨ticket, updated.provided, _, requirements, rfl, hfor, ?_⟩
              rw [← hstore]
              rfl

/-! ## Exact minting -/

/-- The negotiation works on `ticket` and mints `minted`: what it passes to
the token factory. -/
def Mints (negotiator : BaseNegotiator τ) (s : NegotiatorState τ) (input : DialogInput)
    (ticket : Ticket) (minted : AccessToken) : Prop :=
  ∃ updated granted s₁ s₂, (negotiator.getTicket input).run s = (.ok ticket, s₁) ∧
    (negotiator.processCredentials input.claimTokens ticket).run s₁ = (.ok updated, s₂) ∧
    negotiator.ticketingStrategy.resolveTicket updated = .ok (.success granted) ∧
    minted = mintedToken updated granted

theorem negotiate_ok {negotiator : BaseNegotiator τ} {randomUUID : String} {input : Json}
    {s s' : NegotiatorState τ} {output : DialogOutput}
    (h : (negotiator.negotiate randomUUID input).run s = (.ok output, s')) :
    ∃ ticket minted tokens, negotiator.Mints s (DialogInput.ofJson input) ticket minted ∧
      ((negotiator.tokenFactory minted).run tokens).1 =
        .ok ⟨output.tokenType, output.accessToken⟩ := by
  unfold negotiate at h
  split at h
  · injection h with h
    cases h
  · obtain ⟨ticket, s₁, hget, h⟩ := Async.run_bind_ok h
    obtain ⟨updated, s₂, hprocess, h⟩ := Async.run_bind_ok h
    obtain ⟨result, s₃, hresolve, h⟩ := Async.run_bind_ok h
    obtain ⟨-, s₄, -, h⟩ := Async.run_bind_ok h
    injection hresolve with hresolve
    cases result with
    | success granted =>
      exact ⟨ticket, _, _, ⟨updated, granted, s₁, s₂, hget, hprocess, hresolve, rfl⟩,
        grant_ok h⟩
    | failure requirements =>
      simp only [denyRequest] at h
      split at h
      · injection h with h
        cases h
      · injection h with h
        cases h

theorem Mints.ticketFor {negotiator : BaseNegotiator τ} {s : NegotiatorState τ}
    {input : DialogInput} {ticket : Ticket} {minted : AccessToken}
    (h : negotiator.Mints s input ticket minted) : negotiator.TicketFor s input ticket := by
  obtain ⟨updated, granted, s₁, s₂, hget, -⟩ := h
  exact (getTicket_run negotiator input s).2 ticket (congrArg Prod.fst hget)

/-- Over a non-partial immediate strategy, the pairs of the token are those
of the ticket the negotiation works on. -/
theorem Mints.exact {tree : AuthorizerTree} {negotiator : BaseNegotiator τ}
    {s : NegotiatorState τ} {input : DialogInput} {ticket : Ticket} {minted : AccessToken}
    (hstrategy : negotiator.ticketingStrategy =
      immediateAuthorizerStrategy tree.permissions false)
    (h : negotiator.Mints s input ticket minted) :
    pairs minted.permissions = pairs ticket.permissions := by
  obtain ⟨updated, granted, s₁, s₂, -, hprocess, hresolve, rfl⟩ := h
  have hperms : updated.permissions = ticket.permissions := by
    refine processCredentials_invariant (fun t => t.permissions = ticket.permissions) ?_ rfl
      hprocess
    intro t claims t' ht hvalid
    rw [hstrategy] at hvalid
    injection hvalid with hvalid
    rw [← hvalid]
    exact ht
  rw [hstrategy] at hresolve
  obtain ⟨given, hauth, hgranted, -, hall⟩ :=
    ImmediateAuthorizerStrategy.resolveTicket_success.mp hresolve
  have hsub := tree.pairs_subset hauth
  have hsup : pairs updated.permissions ⊆ pairs given := by
    rcases hall with hfalse | hall
    · cases hfalse
    · exact hall
  have hpairs : pairs (mintedToken updated granted).permissions = pairs given := by
    rw [mintedToken, hgranted, ImmediateAuthorizerStrategy.pairs_filter_scopes]
  rw [hpairs, ← hperms]
  exact Set.Subset.antisymm hsub hsup

/-! ## The partial flag -/

/-- As many entries are granted as were requested, and for every requested
entry there is a granted one that has its scopes in a list of the same length. -/
def KeepsGrouping (requested granted : List Permission) : Prop :=
  requested.length = granted.length ∧
    ∀ request ∈ requested, ∃ grant ∈ granted,
      grant.resourceId = request.resourceId ∧
        grant.resourceScopes.length = request.resourceScopes.length ∧
        ∀ scope ∈ request.resourceScopes, scope ∈ grant.resourceScopes

theorem isPartialResult_eq_false {requested granted : List Permission} :
    isPartialResult requested granted = false ↔ KeepsGrouping requested granted := by
  simp [isPartialResult, KeepsGrouping, and_assoc]

theorem KeepsGrouping.covers {requested granted : List Permission}
    (h : KeepsGrouping requested granted) : pairs requested ⊆ pairs granted := by
  rintro ⟨id, scope⟩ ⟨request, hrequest, hid, hscope⟩
  obtain ⟨grant, hgrant, hsame, -, hscopes⟩ := h.2 request hrequest
  exact ⟨grant, hgrant, hsame.trans hid, hscopes scope hscope⟩

/-- What lacks a requested pair is always marked. -/
theorem isPartialResult_of_missing {requested granted : List Permission}
    {x : String × String} (hx : x ∈ pairs requested) (hmissing : x ∉ pairs granted) :
    isPartialResult requested granted = true := by
  by_contra hflag
  have hkeeps := isPartialResult_eq_false.mp (Bool.not_eq_true _ ▸ hflag)
  exact hmissing (hkeeps.covers hx)

/-- The flag says whether a requested pair is missing, except for a complete
grant in another grouping, which is marked as partial, too. -/
theorem isPartialResult_exact (requested granted : List Permission) :
    (isPartialResult requested granted = true ↔
        ∃ x ∈ pairs requested, x ∉ pairs granted) ↔
      KeepsGrouping requested granted ∨ ∃ x ∈ pairs requested, x ∉ pairs granted := by
  constructor
  · intro hexact
    by_cases hflag : isPartialResult requested granted = true
    · exact Or.inr (hexact.mp hflag)
    · exact Or.inl (isPartialResult_eq_false.mp (Bool.not_eq_true _ ▸ hflag))
  · intro hcases
    constructor
    · intro hflag
      rcases hcases with hkeeps | hmissing
      · rw [isPartialResult_eq_false.mpr hkeeps] at hflag
        cases hflag
      · exact hmissing
    · intro ⟨x, hx, hmissing⟩
      exact isPartialResult_of_missing hx hmissing

/-- Two entries of one resource, granted as one. -/
theorem isPartialResult_regrouped :
    ¬ ∀ requested granted : List Permission, pairs granted ⊆ pairs requested →
      (isPartialResult requested granted = true ↔
        ∃ x ∈ pairs requested, x ∉ pairs granted) := by
  intro hclaim
  have hsub : pairs [⟨"a", ["read", "write"]⟩] ⊆ pairs [⟨"a", ["read"]⟩, ⟨"a", ["write"]⟩] := by
    rintro ⟨id, scope⟩ hx
    simp only [mem_pairs, List.mem_cons, List.not_mem_nil, or_false, exists_eq_or_imp,
      exists_eq_left] at hx ⊢
    grind
  obtain ⟨⟨id, scope⟩, hx, hmissing⟩ := (hclaim _ _ hsub).mp (by decide)
  simp only [mem_pairs, List.mem_cons, List.not_mem_nil, or_false, exists_eq_or_imp,
    exists_eq_left] at hx hmissing
  grind

end BaseNegotiator

end UserManagedAccess.Dialog
