/-
UserManagedAccess.Routes.RefreshTokenTheorems — what a negotiation and a
refresh do to the token store, as one lemma for each of them.

* `verify_refresh_ok` — which claims a refresh token stands for;
* `negotiate_cases` — a negotiation mints an access and a refresh token, or
  adds nothing to the store;
* `handle_cases` — a refresh is a negotiation for the permissions of a record
  with claims that is in time, and takes that record out.
-/
import UserManagedAccess.Dialog.BaseNegotiatorTheorems
import UserManagedAccess.Routes.RefreshToken
import UserManagedAccess.Tokens.TokenStoreTheorems

namespace UserManagedAccess.Routes

open UserManagedAccess.Lib UserManagedAccess.Util UserManagedAccess.Views
open UserManagedAccess.Credentials UserManagedAccess.Dialog UserManagedAccess.Tokens
open UserManagedAccess.Ticketing

/-! ## Calls on the token store -/

theorem run_zoomTokens {τ α : Type} (p : Async τ HttpError α) (s : NegotiatorState τ) :
    (p.zoom NegotiatorState.tokens NegotiatorState.setTokens).run s =
      ((p.run s.tokens).1, s.setTokens (p.run s.tokens).2) := by
  have hview : ∀ (t : τ) (s : NegotiatorState τ), (s.setTokens t).tokens = t := fun _ _ => rfl
  have hput : ∀ (t t' : τ) (s : NegotiatorState τ),
      (s.setTokens t').setTokens t = s.setTokens t := fun _ _ _ => rfl
  have hself : ∀ s : NegotiatorState τ, s.setTokens s.tokens = s := fun _ => rfl
  exact Async.run_zoom hview hput hself p s

theorem run_onTokens {τ α : Type} (p : Async τ HttpError α) (s : NegotiatorState τ) :
    (BaseNegotiator.onTokens p).run s =
      ((p.run s.tokens).1, s.setTokens (p.run s.tokens).2) := by
  unfold BaseNegotiator.onTokens
  rw [Async.run_bind, run_zoomTokens]
  rcases p.run s.tokens with ⟨e | a, t⟩
  · rfl
  · rfl

theorem run_onTokensNow {α : Type} (p : Async TokenState HttpError α)
    (s : NegotiatorState TokenState) :
    (RefreshTokenHandler.onTokensNow p).run s =
      ((p.run s.tokens).1, s.setTokens (p.run s.tokens).2) := run_zoomTokens p s

/-- A relation of the token states, on the whole state. -/
def OnTokens (G : TokenState → TokenState → Prop) (s s' : NegotiatorState TokenState) : Prop :=
  G s.tokens s'.tokens

theorem guarantees_onTokens {G : TokenState → TokenState → Prop} {α : Type}
    {p : Async TokenState HttpError α} (hp : Async.Guarantees G p) :
    Async.Guarantees (OnTokens G) (BaseNegotiator.onTokens p) := by
  have hput : ∀ (s : NegotiatorState TokenState) t, G s.tokens t → OnTokens G s (s.setTokens t) :=
    fun _ _ h => h
  exact .bind (.zoom hput hp) fun a => .bind .yield fun _ => .pure a

theorem guarantees_onTokensNow {G : TokenState → TokenState → Prop} {α : Type}
    {p : Async TokenState HttpError α} (hp : Async.Guarantees G p) :
    Async.Guarantees (OnTokens G) (RefreshTokenHandler.onTokensNow p) := by
  have hput : ∀ (s : NegotiatorState TokenState) t, G s.tokens t → OnTokens G s (s.setTokens t) :=
    fun _ _ h => h
  exact .zoom hput hp

/-! ## Verification -/

section

variable {services : TokenServices} {base : IriBase}
  {others : String → Option (Credential → Except HttpError (Option ClaimSet))}

theorem shrinks_verify (credential : Credential) :
    Async.Guarantees Shrinks (configuredVerifier services base others credential) := by
  have hinner : Async.Guarantees Shrinks (formatVerifier services others credential) := by
    unfold formatVerifier TypedVerifier.verify
    by_cases hformat : credential.format = REFRESH_TOKEN
    · simp only [hformat, if_true]
      unfold RefreshTokenVerifier.verify
      simp only [hformat, ne_eq, not_true_eq_false, if_false]
      refine .bind (shrinks_get services credential.token) fun information => ?_
      cases information with
      | none => exact .throw _
      | some record =>
        refine .bind (shrinks_isExpired services record) fun expired => ?_
        cases expired with
        | false => exact .pure _
        | true => exact .bind (shrinks_delete credential.token) fun _ => .throw _
    · simp only [hformat, if_false]
      cases others credential.format with
      | none =>
        dsimp only [Option.map_none]
        split
        · exact .throw _
        · exact .throw _
      | some verify => exact .lift _
  refine .bind hinner fun claims => .bind .yield fun _ => ?_
  cases claims with
  | none => exact .throw _
  | some claims => exact .pure _

/-- What `RefreshTokenVerifier` answers, where it answers. -/
theorem run_refreshTokenVerifier_ok {token : String} {t t' : TokenState}
    {verified : Option ClaimSet}
    (h : (RefreshTokenVerifier.verify services ⟨token, REFRESH_TOKEN⟩).run t =
      (.ok verified, t')) :
    ∃ record, services.lookup t token = some record ∧ verified = record.claims ∧
      record.expiration.any (fun expiration => expiration < services.clock (t.readings + 1)) =
        false ∧ t' = { t with readings := t.readings + 2 } := by
  unfold RefreshTokenVerifier.verify at h
  simp only [ne_eq, not_true_eq_false, if_false] at h
  rw [Async.run_bind_of_ok (TokenServices.run_get token t)] at h
  cases hlookup : services.lookup t token with
  | none =>
    rw [hlookup] at h
    cases h
  | some record =>
    rw [hlookup] at h
    dsimp only at h
    rw [Async.run_bind_of_ok (TokenServices.run_isExpired record _)] at h
    cases hexpired : record.expiration.any fun expiration =>
        expiration < services.clock (t.readings + 1) with
    | true =>
      simp only [hexpired, if_true] at h
      cases h
    | false =>
      simp only [hexpired] at h
      injection h with hverified ht
      injection hverified with hverified
      exact ⟨record, rfl, hverified.symm, hexpired, ht.symm⟩

/-- A refresh token is accepted as a claim where its record has claims and is
in time. -/
theorem verify_refresh_ok {token : String} {t t' : TokenState} {claims : ClaimSet}
    (h : (configuredVerifier services base others ⟨token, REFRESH_TOKEN⟩).run t =
      (.ok claims, t')) :
    ∃ information, services.lookup t token = some (.refresh information) ∧
      services.clock (t.readings + 1) ≤ information.expiration ∧
      claims = IriVerifier.convert base information.claims ∧
      t' = { t with readings := t.readings + 2 } := by
  obtain ⟨verified, t₁, hverify, h⟩ := Async.run_bind_ok h
  obtain ⟨_, t₂, hyield, h⟩ := Async.run_bind_ok h
  obtain ⟨record, hlookup, hverified, hexpired, ht₁⟩ := run_refreshTokenVerifier_ok hverify
  injection hyield with _ ht₂
  cases record with
  | access token =>
    rw [hverified] at h
    cases h
  | refresh information =>
    rw [hverified] at h
    injection h with hclaims ht'
    injection hclaims with hclaims
    refine ⟨information, hlookup, ?_, hclaims.symm, ?_⟩
    · simpa [TokenRecord.expiration] using hexpired
    · rw [← ht', ← ht₂, ht₁]

/-! ## Negotiation -/

variable {strategy : TicketingStrategy}

theorem shrinks_processCredentials (claims : List ClaimToken) (ticket : Ticket) :
    Async.Guarantees (OnTokens Shrinks)
      ((configuredNegotiator services base others strategy).processCredentials claims ticket) := by
  induction claims generalizing ticket with
  | nil => exact .pure ticket
  | cons claim claims ih =>
    unfold BaseNegotiator.processCredentials
    split
    · exact .bind (guarantees_onTokens (shrinks_verify _)) fun verified =>
        .bind (.lift _) fun ticket => .bind .yield fun _ => ih ticket
    · exact .throw _

theorem shrinks_getTicket (input : DialogInput) :
    Async.Guarantees (OnTokens Shrinks)
      ((configuredNegotiator services base others strategy).getTicket input) := by
  have hrefl : ∀ s : NegotiatorState TokenState, OnTokens Shrinks s s := fun s => .refl s.tokens
  unfold BaseNegotiator.getTicket
  cases input.ticket with
  | some id =>
    refine .bind (.get hrefl) fun s => .bind .yield fun _ => ?_
    cases s.ticketStore.get id with
    | none => exact .throw _
    | some stored =>
      exact .bind (.modify fun s => .refl s.tokens) fun _ => .bind .yield fun _ => .pure stored
  | none =>
    cases input.permissions with
    | none => exact .throw _
    | some permissions =>
      exact .bind (.lift _) fun ticket => .bind .yield fun _ => .pure ticket

/-- What a granted negotiation answers. -/
def grantedOutput (services : TokenServices) (ticket : Ticket) (granted : List Permission)
    (t : TokenState) : DialogOutput where
  accessToken := services.sign (BaseNegotiator.mintedToken ticket granted)
    (services.randomUUID t.uuids)
  tokenType := "Bearer"
  refreshToken := some (services.randomUUID (t.uuids + 1))
  isPartial := BaseNegotiator.isPartialResult ticket.permissions granted

/-- The store with both tokens of a granted negotiation. -/
def grantedTokens (services : TokenServices) (ticket : Ticket) (granted : List Permission)
    (t : TokenState) : TokenState :=
  services.issued ticket.provided granted
    (services.serialized (BaseNegotiator.mintedToken ticket granted) t)

theorem run_grant (ticket : Ticket) (granted : List Permission) (s : NegotiatorState TokenState) :
    ((configuredNegotiator services base others strategy).grant ticket granted).run s =
      (.ok (grantedOutput services ticket granted s.tokens),
        s.setTokens (grantedTokens services ticket granted s.tokens)) := rfl

/-- How a negotiation that mints tokens went. -/
structure Granted (services : TokenServices) (base : IriBase)
    (others : String → Option (Credential → Except HttpError (Option ClaimSet)))
    (strategy : TicketingStrategy) (input : Json) (s s' : NegotiatorState TokenState)
    (output : DialogOutput) (ticket updated : Ticket) (granted : List Permission)
    (t : TokenState) : Prop where
  processed : ∃ s₁ s₂, ((configuredNegotiator services base others strategy).getTicket
      (DialogInput.ofJson input)).run s = (.ok ticket, s₁) ∧
    ((configuredNegotiator services base others strategy).processCredentials
      (DialogInput.ofJson input).claimTokens ticket).run s₁ = (.ok updated, s₂) ∧ s₂.tokens = t
  resolved : strategy.resolveTicket updated = .ok (.success granted)
  shrinks : Shrinks s.tokens t
  output_eq : output = grantedOutput services updated granted t
  tokens_eq : s'.tokens = grantedTokens services updated granted t

/-- A negotiation mints tokens, or adds nothing to the store. -/
theorem negotiate_cases {randomUUID : String} {input : Json} {s s' : NegotiatorState TokenState}
    {answer : Except HttpError DialogOutput}
    (h : ((configuredNegotiator services base others strategy).negotiate randomUUID input).run s =
      (answer, s')) :
    (∃ e, answer = .error e ∧ Shrinks s.tokens s'.tokens) ∨
      ∃ output ticket updated granted t, answer = .ok output ∧
        Granted services base others strategy input s s' output ticket updated granted t := by
  have hrefl : ∀ s : NegotiatorState TokenState, OnTokens Shrinks s s := fun s => .refl s.tokens
  unfold BaseNegotiator.negotiate at h
  cases hassert : DialogInput.assertion input with
  | error message =>
    rw [hassert] at h
    injection h with hanswer hs
    exact Or.inl ⟨_, hanswer.symm, hs ▸ hrefl s⟩
  | ok u =>
    rw [hassert] at h
    dsimp only at h
    have hgetShrinks : OnTokens Shrinks s (((configuredNegotiator services base others
        strategy).getTicket (DialogInput.ofJson input)).run s).2 :=
      (shrinks_getTicket _).run hrefl Shrinks.trans s
    rcases hget : ((configuredNegotiator services base others strategy).getTicket
      (DialogInput.ofJson input)).run s with ⟨e | ticket, s₁⟩
    · rw [hget] at hgetShrinks
      rw [Async.run_bind_of_error hget] at h
      injection h with hanswer hs
      exact Or.inl ⟨e, hanswer.symm, hs ▸ hgetShrinks⟩
    rw [hget] at hgetShrinks
    rw [Async.run_bind_of_ok hget] at h
    have hprocessShrinks : OnTokens Shrinks s₁ (((configuredNegotiator services base others
        strategy).processCredentials (DialogInput.ofJson input).claimTokens ticket).run s₁).2 :=
      (shrinks_processCredentials _ ticket).run hrefl Shrinks.trans s₁
    rcases hprocess : ((configuredNegotiator services base others strategy).processCredentials
      (DialogInput.ofJson input).claimTokens ticket).run s₁ with ⟨e | updated, s₂⟩
    · rw [hprocess] at hprocessShrinks
      rw [Async.run_bind_of_error hprocess] at h
      injection h with hanswer hs
      exact Or.inl ⟨e, hanswer.symm, hs ▸ hgetShrinks.trans hprocessShrinks⟩
    rw [hprocess] at hprocessShrinks
    rw [Async.run_bind_of_ok hprocess] at h
    have hshrinks : Shrinks s.tokens s₂.tokens := hgetShrinks.trans hprocessShrinks
    rcases hresolve : strategy.resolveTicket updated with e | result
    · rw [Async.run_bind_of_error ((Async.run_lift _ s₂).trans (by rw [← hresolve]; rfl))] at h
      injection h with hanswer hs
      exact Or.inl ⟨e, hanswer.symm, hs ▸ hshrinks⟩
    rw [Async.run_bind_of_ok ((Async.run_lift _ s₂).trans (by rw [← hresolve]; rfl)),
      Async.run_bind_of_ok (Async.run_yield s₂)] at h
    cases result with
    | success granted =>
      dsimp only at h
      rw [run_grant] at h
      injection h with hanswer hs
      exact Or.inr ⟨_, ticket, updated, granted, s₂.tokens, hanswer.symm,
        ⟨s₁, s₂, hget, hprocess, rfl⟩, hresolve, hshrinks, rfl, hs ▸ rfl⟩
    | failure requirements =>
      dsimp only at h
      unfold BaseNegotiator.denyRequest at h
      split at h
      · injection h with hanswer hs
        exact Or.inl ⟨_, hanswer.symm, hs ▸ hshrinks⟩
      · injection h with hanswer hs
        exact Or.inl ⟨_, hanswer.symm, hs ▸ hshrinks⟩

/-! ## Refreshing -/

theorem ofJson_refreshDialog {token : String} (htoken : token ≠ "")
    (permissions : List Permission) :
    DialogInput.ofJson (RefreshTokenHandler.refreshDialog token permissions) =
      { ticket := none
        claimTokens := [{ claimToken := some token, claimTokenFormat := some REFRESH_TOKEN }]
        permissions := some permissions } := by
  have hread : permissionsOfJson (.array (permissions.map Permission.toJson)) = permissions :=
    (permissions_accepted permissions).2
  simp [DialogInput.ofJson, RefreshTokenHandler.refreshDialog, Json.field, List.lookup_cons,
    Json.asString?, DialogInput.truthy, DialogInput.readClaimTokens, htoken, hread]

theorem readRefreshToken_ne {params : Json} {token : String}
    (h : RefreshTokenHandler.readRefreshToken params = .ok token) : token ≠ "" := by
  unfold RefreshTokenHandler.readRefreshToken at h
  split at h
  · cases h
  split at h
  · split at h
    · cases h
    · rename_i hread
      injection h with h
      have hne := (Option.filter_eq_some_iff.mp hread).2
      rw [← h]
      exact of_decide_eq_true hne
  · cases h

/-- What a granted negotiation for a refresh has done. -/
theorem granted_refreshDialog {token : String} (htoken : token ≠ "")
    {permissions : List Permission} {s s' : NegotiatorState TokenState} {output : DialogOutput}
    {ticket updated : Ticket} {granted : List Permission} {t : TokenState}
    (h : Granted services base others strategy
      (RefreshTokenHandler.refreshDialog token permissions) s s' output ticket updated granted t) :
    strategy.initializeTicket permissions = .ok ticket ∧
      ∃ information, services.lookup s.tokens token = some (.refresh information) ∧
        strategy.validateClaims ticket (IriVerifier.convert base information.claims) =
          .ok updated := by
  obtain ⟨s₁, s₂, hget, hprocess, -⟩ := h.processed
  rw [ofJson_refreshDialog htoken] at hget hprocess
  obtain ⟨fresh, s₃, hinit, hrest⟩ := Async.run_bind_ok hget
  obtain ⟨_, s₄, hyield, hticket⟩ := Async.run_bind_ok hrest
  injection hinit with hinit hs₃
  injection hyield with _ hs₄
  injection hticket with hticket hs₁
  injection hticket with hticket
  subst hs₃ hs₄ hs₁ hticket
  refine ⟨hinit, ?_⟩
  have htruthy : DialogInput.truthy (some token) = some token := by
    simp [DialogInput.truthy, htoken]
  unfold BaseNegotiator.processCredentials at hprocess
  simp only [htruthy] at hprocess
  obtain ⟨verified, s₅, hverify, hprocess⟩ := Async.run_bind_ok hprocess
  obtain ⟨valid, s₆, hvalid, hprocess⟩ := Async.run_bind_ok hprocess
  obtain ⟨_, s₇, -, hprocess⟩ := Async.run_bind_ok hprocess
  injection hvalid with hvalid
  injection hprocess with hprocess
  injection hprocess with hprocess
  rw [run_onTokens] at hverify
  injection hverify with hverify
  obtain ⟨information, hfound, -, hclaims, -⟩ := verify_refresh_ok (Prod.ext hverify rfl)
  refine ⟨information, hfound, ?_⟩
  rw [← hclaims, ← hprocess]
  exact hvalid

/-- How a refresh that mints tokens went. -/
structure Refreshed (services : TokenServices) (base : IriBase) (strategy : TicketingStrategy)
    (params : Json) (s s' : NegotiatorState TokenState) (output : DialogOutput) (token : String)
    (information : RefreshInformation) (ticket updated : Ticket) (granted : List Permission)
    (t : TokenState) : Prop where
  read : RefreshTokenHandler.readRefreshToken params = .ok token
  found : services.lookup s.tokens token = some (.refresh information)
  inTime : services.clock (s.tokens.readings + 1) ≤ information.expiration
  initialized : strategy.initializeTicket information.permissions = .ok ticket
  validated : strategy.validateClaims ticket (IriVerifier.convert base information.claims) =
    .ok updated
  resolved : strategy.resolveTicket updated = .ok (.success granted)
  shrinks : Shrinks s.tokens t
  output_eq : output = grantedOutput services updated granted t
  tokens_eq : s'.tokens = { grantedTokens services updated granted t with
    store := (grantedTokens services updated granted t).store.delete token }

/-- A refresh mints tokens, or adds nothing to the store. -/
theorem handle_cases {randomUUID : String} {params : Json} {s s' : NegotiatorState TokenState}
    {answer : Except HttpError DialogOutput}
    (h : (RefreshTokenHandler.handle services
      ((configuredNegotiator services base others strategy).negotiate randomUUID) params).run s =
        (answer, s')) :
    (∃ e, answer = .error e ∧ Shrinks s.tokens s'.tokens) ∨
      ∃ output token information ticket updated granted t, answer = .ok output ∧
        Refreshed services base strategy params s s' output token information ticket updated
          granted t := by
  unfold RefreshTokenHandler.handle at h
  rcases hread : RefreshTokenHandler.readRefreshToken params with e | token
  · rw [hread] at h
    injection h with hanswer hs
    exact Or.inl ⟨e, hanswer.symm, hs ▸ .refl _⟩
  rw [hread] at h
  have hne : token ≠ "" := readRefreshToken_ne hread
  rw [Async.run_bind_of_ok (Async.run_lift _ s)] at h
  have hget : (BaseNegotiator.onTokens (services.get token)).run s =
      (.ok (services.lookup s.tokens token),
        s.setTokens { s.tokens with readings := s.tokens.readings + 1 }) := run_onTokens _ s
  rw [Async.run_bind_of_ok hget] at h
  cases hlookup : services.lookup s.tokens token with
  | none =>
    rw [hlookup] at h
    injection h with hanswer hs
    exact Or.inl ⟨_, hanswer.symm, hs ▸ .read _ 1⟩
  | some record =>
    rw [hlookup] at h
    dsimp only at h
    have hcheck : (RefreshTokenHandler.onTokensNow (services.isExpired record)).run
        (s.setTokens { s.tokens with readings := s.tokens.readings + 1 }) =
          (.ok (record.expiration.any fun expiration =>
            expiration < services.clock (s.tokens.readings + 1)),
            s.setTokens { s.tokens with readings := s.tokens.readings + 2 }) :=
      run_onTokensNow _ _
    rw [Async.run_bind_of_ok hcheck] at h
    cases hexpired : record.expiration.any fun expiration =>
        expiration < services.clock (s.tokens.readings + 1) with
    | true =>
      simp only [hexpired, if_true] at h
      rw [Async.run_bind_of_ok (run_onTokens _ _)] at h
      injection h with hanswer hs
      exact Or.inl ⟨_, hanswer.symm, hs ▸ (Shrinks.read _ 2).trans (.delete _ token)⟩
    | false =>
      simp only [hexpired] at h
      have hread2 : Shrinks s.tokens { s.tokens with readings := s.tokens.readings + 2 } :=
        .read _ 2
      rcases hrun : ((configuredNegotiator services base others strategy).negotiate randomUUID
        (RefreshTokenHandler.refreshDialog token record.permissions)).run
          (s.setTokens { s.tokens with readings := s.tokens.readings + 2 }) with ⟨result, s₂⟩
      cases negotiate_cases hrun with
      | inl hfailed =>
        obtain ⟨e, rfl, hshrinks⟩ := hfailed
        simp only [Bool.false_eq_true, if_false] at h
        rw [Async.run_bind_of_error hrun] at h
        injection h with hanswer hs
        exact Or.inl ⟨e, hanswer.symm, hs ▸ hread2.trans hshrinks⟩
      | inr hgranted =>
        obtain ⟨output, ticket, updated, granted, t, rfl, hgranted⟩ := hgranted
        simp only [Bool.false_eq_true, if_false] at h
        rw [Async.run_bind_of_ok hrun, Async.run_bind_of_ok (Async.run_yield s₂),
          Async.run_bind_of_ok (run_onTokens _ s₂)] at h
        injection h with hanswer hs
        obtain ⟨hinitialized, information, hfound, hvalidated⟩ :=
          granted_refreshDialog hne hgranted
        have hrecord : record = .refresh information :=
          TokenServices.lookup_unique (by rfl) hlookup hfound
        subst hrecord
        refine Or.inr ⟨output, token, information, ticket, updated, granted, t, hanswer.symm, ?_⟩
        exact
          { read := hread
            found := hlookup
            inTime := by simpa [TokenRecord.expiration] using hexpired
            initialized := hinitialized
            validated := hvalidated
            resolved := hgranted.resolved
            shrinks := hread2.trans hgranted.shrinks
            output_eq := hgranted.output_eq
            tokens_eq := by rw [← hs, ← hgranted.tokens_eq]; rfl }

end

end UserManagedAccess.Routes
