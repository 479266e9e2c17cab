/-
UserManagedAccess.Routes.TokenHistoryTheorems — which refreshes succeed, and
with what.

`exchange_cases` says what an exchange does to the token store, for both
grants. From it follow, for every history, where the refresh tokens in the
store come from (`Accounted`), and that they stand for the permissions of the
token they were handed out with.

* `exchange_cases` — nothing new is stored, or the two tokens of one answer;
* `accounted_of_history` — every stored refresh token was handed out, by
  induction on the history;
* `permissions_of_refresh` — a refresh mints the permissions of that answer;
* `refresh_never_escalates` — so do the refreshes along a chain.

Requests are handled one after the other, each with a verifier and authorizers of
its own; the strategies have no partial success (`NonPartial`). Access tokens and
refresh tokens share the keys of the store. UUIDs are taken to be different, and
no access token to be one.
-/
import Mathlib.Logic.Relation
import UserManagedAccess.Policies.Authorizers.AuthorizerTreeTheorems
import UserManagedAccess.Routes.RefreshTokenTheorems
import UserManagedAccess.Routes.TokenHistory

namespace UserManagedAccess.Routes

open UserManagedAccess.Lib UserManagedAccess.Util UserManagedAccess.Views
open UserManagedAccess.Credentials UserManagedAccess.Dialog UserManagedAccess.Tokens
open UserManagedAccess.Ticketing UserManagedAccess.Policies

variable {services : TokenServices} {base : IriBase}

/-! ## Both tokens of an answer -/

theorem permissionsOf_grantedOutput (ticket : Ticket) (granted : List Permission)
    (t : TokenState) :
    permissionsOf services (grantedOutput services ticket granted t) = granted := by
  have hread := services.permissions_deserialize (BaseNegotiator.mintedToken ticket granted)
    (services.randomUUID t.uuids)
  show ((services.deserialize (services.sign _ _)).map AccessToken.permissions).getD [] = granted
  rw [hread]
  rfl

/-- The refresh tokens of the store are the old ones and the new one. -/
theorem get_grantedTokens {ticket : Ticket} {granted : List Permission} {t : TokenState}
    {key : String} {entry : ExpiringRecord} {information : RefreshInformation}
    (h : (grantedTokens services ticket granted t).store.get key = some entry)
    (hrecord : entry.record = .refresh information) :
    (key = services.randomUUID (t.uuids + 1) ∧ information =
      { claims := ticket.provided
        permissions := granted
        expiration := services.clock (t.readings + 1) + services.refreshExpiration }) ∨
      (key ≠ services.randomUUID (t.uuids + 1) ∧ t.store.get key = some entry) := by
  change (KeyValueStorage.set _ (services.randomUUID (t.uuids + 1)) _).get key = some entry at h
  rw [KeyValueStorage.get_set] at h
  split at h
  · rename_i hkey
    injection h with h
    rw [← h] at hrecord
    injection hrecord with hrecord
    exact Or.inl ⟨hkey, hrecord.symm⟩
  · rename_i hkey
    refine Or.inr ⟨hkey, ?_⟩
    change (t.store.set _ _).get key = some entry at h
    rw [KeyValueStorage.get_set] at h
    split at h
    · injection h with h
      rw [← h] at hrecord
      cases hrecord
    · exact h

/-! ## One exchange -/

/-- What an exchange does to the token store. -/
theorem exchange_cases (request : TokenRequest) (s : NegotiatorState TokenState) :
    (∃ e, (exchange services base request s).answer = .error e ∧
      Shrinks s.tokens (exchange services base request s).after.tokens) ∨
    ∃ output ticket updated granted t, (exchange services base request s).answer = .ok output ∧
      request.strategy.resolveTicket updated = .ok (.success granted) ∧
      Shrinks s.tokens t ∧ output = grantedOutput services updated granted t ∧
      Shrinks (grantedTokens services updated granted t)
        (exchange services base request s).after.tokens ∧
      (∀ params, request.grant = .refresh params → ∃ token information,
        Refreshed services base request.strategy params s
          (exchange services base request s).after output token information ticket updated granted
          t) := by
  cases hgrant : request.grant with
  | negotiate input =>
    have hrun : ((configuredNegotiator services base request.others request.strategy).negotiate
        request.randomUUID input).run s =
          ((exchange services base request s).answer, (exchange services base request s).after) :=
      by simp only [exchange, TokenRequest.handle, hgrant]
    cases negotiate_cases hrun with
    | inl hfailed => exact Or.inl hfailed
    | inr hgranted =>
      obtain ⟨output, ticket, updated, granted, t, hanswer, hgranted⟩ := hgranted
      refine Or.inr ⟨output, ticket, updated, granted, t, hanswer, hgranted.resolved,
        hgranted.shrinks, hgranted.output_eq, ?_, fun params hparams => by cases hparams⟩
      rw [hgranted.tokens_eq]
      exact .refl _
  | refresh params =>
    have hrun : (RefreshTokenHandler.handle services ((configuredNegotiator services base
        request.others request.strategy).negotiate request.randomUUID) params).run s =
          ((exchange services base request s).answer, (exchange services base request s).after) :=
      by simp only [exchange, TokenRequest.handle, hgrant]
    cases handle_cases hrun with
    | inl hfailed => exact Or.inl hfailed
    | inr hrefreshed =>
      obtain ⟨output, token, information, ticket, updated, granted, t, hanswer, hrefreshed⟩ :=
        hrefreshed
      refine Or.inr ⟨output, ticket, updated, granted, t, hanswer, hrefreshed.resolved,
        hrefreshed.shrinks, hrefreshed.output_eq, ?_, fun params' hparams => ?_⟩
      · rw [hrefreshed.tokens_eq]
        exact .delete _ token
      · injection hparams with hparams
        exact ⟨token, information, hparams ▸ hrefreshed⟩

/-! ## Where the refresh tokens come from -/

/-- The exchange handed out this refresh token, for the permissions of the
access token next to it. -/
def Issued (services : TokenServices) (e : Exchange) (token : String)
    (information : RefreshInformation) : Prop :=
  ∃ output issuedAt, e.answer = .ok output ∧ output.refreshToken = some token ∧
    information.permissions = permissionsOf services output ∧
    e.before.tokens.readings ≤ issuedAt ∧ issuedAt < e.after.tokens.readings ∧
    information.expiration = services.clock issuedAt + services.refreshExpiration

/-- The answer hands out this refresh token. -/
def HandsOut (e : Exchange) (output : DialogOutput) (token : String) : Prop :=
  e.answer = .ok output ∧ output.refreshToken = some token

structure Accounted (services : TokenServices) (exchanges : List Exchange)
    (s : NegotiatorState TokenState) : Prop where
  /-- Every refresh token in the store was handed out. -/
  issued : ∀ {key entry information}, s.tokens.store.get key = some entry →
    entry.record = .refresh information → ∃ e ∈ exchanges, Issued services e key information
  /-- What was handed out is an identifier that was used. -/
  used : ∀ e ∈ exchanges, ∀ output token, HandsOut e output token →
    ∃ n < s.tokens.uuids, token = services.randomUUID n
  /-- No two answers hand out one refresh token. -/
  unique : ∀ e ∈ exchanges, ∀ e' ∈ exchanges, ∀ output output' token,
    HandsOut e output token → HandsOut e' output' token → output = output'

namespace Accounted

variable {exchanges : List Exchange} {s : NegotiatorState TokenState}

/-- Nothing new in the store, and nothing handed out. -/
theorem shrink {s' : NegotiatorState TokenState} (h : Accounted services exchanges s)
    (hshrinks : Shrinks s.tokens s'.tokens) : Accounted services exchanges s' where
  issued hentry hrecord := h.issued (hshrinks.store hentry) hrecord
  used e he output token hout := by
    rw [hshrinks.uuids]
    exact h.used e he output token hout
  unique := h.unique

/-- A request that failed hands nothing out. -/
theorem fail {e : Exchange} (h : Accounted services exchanges s) {error : HttpError}
    (hanswer : e.answer = .error error) : Accounted services (exchanges ++ [e]) s := by
  have hold : ∀ {e' output token}, e' ∈ exchanges ++ [e] → HandsOut e' output token →
      e' ∈ exchanges := by
    intro e' output token he' hout
    rcases List.mem_append.mp he' with he' | he'
    · exact he'
    · have hok := hout.1
      rw [List.mem_singleton.mp he', hanswer] at hok
      cases hok
  refine ⟨fun hentry hrecord => ?_, fun e' he' output token hout => ?_,
    fun e₁ he₁ e₂ he₂ output output' token hout hout' => ?_⟩
  · obtain ⟨e', he', hissued⟩ := h.issued hentry hrecord
    exact ⟨e', List.mem_append_left _ he', hissued⟩
  · exact h.used e' (hold he' hout) output token hout
  · exact h.unique e₁ (hold he₁ hout) e₂ (hold he₂ hout') output output' token hout hout'

/-- A request that minted two tokens. -/
theorem grant {e : Exchange} {updated : Ticket} {granted : List Permission} {t : TokenState}
    (h : Accounted services exchanges e.before) (hshrinks : Shrinks e.before.tokens t)
    (hanswer : e.answer = .ok (grantedOutput services updated granted t))
    (hafter : Shrinks (grantedTokens services updated granted t) e.after.tokens) :
    Accounted services (exchanges ++ [e]) e.after := by
  have huuids : e.after.tokens.uuids = e.before.tokens.uuids + 2 := by
    rw [hafter.uuids, ← hshrinks.uuids]
    rfl
  have ht : t.uuids = e.before.tokens.uuids := hshrinks.uuids
  have hreadings : t.readings + 3 ≤ e.after.tokens.readings := hafter.readings
  have hbefore : e.before.tokens.readings ≤ t.readings := hshrinks.readings
  have hnew : ∀ {output token}, HandsOut e output token →
      output = grantedOutput services updated granted t ∧
        token = services.randomUUID (t.uuids + 1) := by
    rintro output token ⟨hok, htoken⟩
    rw [hanswer] at hok
    injection hok with hok
    rw [← hok] at htoken
    injection htoken with htoken
    exact ⟨hok.symm, htoken.symm⟩
  -- an old token is a smaller identifier than the new one
  have hapart : ∀ {e' output output' token}, e' ∈ exchanges → HandsOut e' output token →
      HandsOut e output' token → False := by
    intro e' output output' token he' hout hout'
    obtain ⟨n, hn, htoken⟩ := h.used e' he' output token hout
    obtain ⟨-, htoken'⟩ := hnew hout'
    have hsame : n = t.uuids + 1 := services.randomUUID_injective (htoken.symm.trans htoken')
    omega
  refine ⟨fun {key entry information} hentry hrecord => ?_, fun e' he' output token hout => ?_,
    fun e₁ he₁ e₂ he₂ output output' token hout hout' => ?_⟩
  · rcases get_grantedTokens (hafter.store hentry) hrecord with ⟨hkey, hinformation⟩ | ⟨-, hold⟩
    · refine ⟨e, List.mem_append_right _ (List.mem_singleton_self e), _, t.readings + 1, hanswer,
        by rw [hkey]; rfl, ?_, by omega, by omega, by rw [hinformation]⟩
      rw [hinformation, permissionsOf_grantedOutput]
    · obtain ⟨e', he', hissued⟩ := h.issued (hshrinks.store hold) hrecord
      exact ⟨e', List.mem_append_left _ he', hissued⟩
  · rcases List.mem_append.mp he' with he' | he'
    · obtain ⟨n, hn, htoken⟩ := h.used e' he' output token hout
      exact ⟨n, by omega, htoken⟩
    · rw [List.mem_singleton.mp he'] at hout
      exact ⟨t.uuids + 1, by omega, (hnew hout).2⟩
  · rcases List.mem_append.mp he₁ with he₁ | he₁ <;> rcases List.mem_append.mp he₂ with he₂ | he₂
    · exact h.unique e₁ he₁ e₂ he₂ output output' token hout hout'
    · rw [List.mem_singleton.mp he₂] at hout'
      exact (hapart he₁ hout hout').elim
    · rw [List.mem_singleton.mp he₁] at hout
      exact (hapart he₂ hout' hout).elim
    · rw [List.mem_singleton.mp he₁] at hout
      rw [List.mem_singleton.mp he₂] at hout'
      rw [(hnew hout).1, (hnew hout').1]

theorem serve (h : Accounted services exchanges s) (request : TokenRequest) :
    Accounted services (exchanges ++ [exchange services base request s])
      (exchange services base request s).after := by
  cases exchange_cases request s with
  | inl hfailed =>
    obtain ⟨e, hanswer, hshrinks⟩ := hfailed
    exact (h.shrink hshrinks).fail hanswer
  | inr hgranted =>
    obtain ⟨output, ticket, updated, granted, t, hanswer, -, hshrinks, houtput, hafter, -⟩ :=
      hgranted
    exact grant h hshrinks (houtput ▸ hanswer) hafter

end Accounted

theorem accounted_of_history {exchanges : List Exchange} {s : NegotiatorState TokenState}
    (h : History services base exchanges s) : Accounted services exchanges s := by
  induction h with
  | start hempty =>
    refine ⟨fun {key entry information} hentry => ?_, fun e he => absurd he List.not_mem_nil,
      fun e he => absurd he List.not_mem_nil⟩
    rw [hempty] at hentry
    cases hentry
  | serve request _ ih => exact ih.serve request
  | elsewhere ticketStore _ ih => exact ih.shrink (.refl _)

/-- Every exchange starts in the state the ones before it led to. -/
theorem History.at {exchanges : List Exchange} {s : NegotiatorState TokenState}
    (h : History services base exchanges s) {earlier later : List Exchange} {e : Exchange}
    (hsplit : exchanges = earlier ++ e :: later) :
    History services base earlier e.before ∧
      e = exchange services base e.request e.before := by
  induction h generalizing later with
  | start hempty => simp at hsplit
  | elsewhere ticketStore _ ih => exact ih hsplit
  | @serve exchanges s request hhistory ih =>
    rcases List.eq_nil_or_concat later with rfl | ⟨later, last, rfl⟩
    · obtain ⟨hearlier, hlast⟩ := List.append_inj' hsplit rfl
      injection hlast with hlast
      rw [← hearlier, ← hlast]
      exact ⟨hhistory, rfl⟩
    · have hparts : exchanges ++ [exchange services base request s] =
          (earlier ++ e :: later) ++ [last] := by
        rw [hsplit]
        simp
      exact ih (List.append_inj' hparts rfl).1

/-! ## Refreshing -/

/-- `ImmediateAuthorizerStrategy` over authorizers of the server, without
partial success. -/
def NonPartial (strategy : TicketingStrategy) : Prop :=
  ∃ tree : AuthorizerTree, strategy = immediateAuthorizerStrategy tree.permissions false

/-- What such a strategy grants on resolution is what the ticket asks for. -/
theorem NonPartial.pairs_eq {strategy : TicketingStrategy} (h : NonPartial strategy)
    {ticket : Ticket} {granted : List Permission}
    (hresolve : strategy.resolveTicket ticket = .ok (.success granted)) :
    pairs granted = pairs ticket.permissions := by
  obtain ⟨tree, rfl⟩ := h
  obtain ⟨given, hauth, hgranted, -, hall⟩ :=
    ImmediateAuthorizerStrategy.resolveTicket_success.mp hresolve
  have hsub := tree.pairs_subset hauth
  have hsup : pairs ticket.permissions ⊆ pairs given := hall.resolve_left (by decide)
  rw [hgranted, ImmediateAuthorizerStrategy.pairs_filter_scopes]
  exact Set.Subset.antisymm hsub hsup

/-- The token presented was handed out before, and is in time. -/
def Presents (services : TokenServices) (earlier : List Exchange) (e : Exchange)
    (token : String) : Prop :=
  ∃ e' ∈ earlier, ∃ output issuedAt presentedAt, HandsOut e' output token ∧
    e'.before.tokens.readings ≤ issuedAt ∧ issuedAt < e'.after.tokens.readings ∧
    e.before.tokens.readings ≤ presentedAt ∧ presentedAt < e.after.tokens.readings ∧
    services.clock presentedAt ≤ services.clock issuedAt + services.refreshExpiration

section

variable {exchanges : List Exchange} {s : NegotiatorState TokenState} {request : TokenRequest}
  {params : Json} {output : DialogOutput} {token : String}

/-- A refresh that succeeds, as an exchange. -/
theorem refreshed_of_ok (hgrant : request.grant = .refresh params)
    (hread : RefreshTokenHandler.readRefreshToken params = .ok token)
    (hanswer : (exchange services base request s).answer = .ok output) :
    ∃ information ticket updated granted t,
      Refreshed services base request.strategy params s
        (exchange services base request s).after output token information ticket updated granted
        t ∧
      Shrinks (grantedTokens services updated granted t)
        (exchange services base request s).after.tokens := by
  cases exchange_cases request s with
  | inl hfailed =>
    obtain ⟨e, herror, -⟩ := hfailed
    rw [hanswer] at herror
    cases herror
  | inr hgranted =>
    obtain ⟨output', ticket, updated, granted, t, hanswer', -, -, -, hafter, hrefreshed⟩ :=
      hgranted
    rw [hanswer] at hanswer'
    injection hanswer' with houtput
    obtain ⟨token', information, hrefreshed⟩ := hrefreshed params hgrant
    have htoken := hrefreshed.read
    rw [hread] at htoken
    injection htoken with htoken
    subst houtput htoken
    exact ⟨information, ticket, updated, granted, t, hrefreshed, hafter⟩

/-- A refresh succeeds only with a refresh token handed out before, in time. -/
theorem presents_of_ok (hhistory : History services base exchanges s)
    (hgrant : request.grant = .refresh params)
    (hread : RefreshTokenHandler.readRefreshToken params = .ok token)
    (hanswer : (exchange services base request s).answer = .ok output) :
    Presents services exchanges (exchange services base request s) token := by
  obtain ⟨information, ticket, updated, granted, t, hrefreshed, hafter⟩ :=
    refreshed_of_ok hgrant hread hanswer
  obtain ⟨entry, hentry, hrecord, -⟩ := TokenServices.lookup_some hrefreshed.found
  obtain ⟨e', he', output', issuedAt, hok, htoken, -, hfrom, hto, hexpiration⟩ :=
    (accounted_of_history hhistory).issued hentry hrecord
  have hreadings : t.readings + 3 ≤
      (exchange services base request s).after.tokens.readings := hafter.readings
  have hbefore : s.tokens.readings ≤ t.readings := hrefreshed.shrinks.readings
  refine ⟨e', he', output', issuedAt, s.tokens.readings + 1, ⟨hok, htoken⟩, hfrom, hto,
    Nat.le_succ _, by omega, ?_⟩
  rw [← hexpiration]
  exact hrefreshed.inTime

/-- It mints the permissions of the answer that handed the refresh token out. -/
theorem permissions_of_refresh (hhistory : History services base exchanges s)
    (hgrant : request.grant = .refresh params)
    (hread : RefreshTokenHandler.readRefreshToken params = .ok token)
    (hanswer : (exchange services base request s).answer = .ok output)
    (hstrategy : NonPartial request.strategy) :
    ∃ e' ∈ exchanges, ∃ output', HandsOut e' output' token ∧
      pairs (permissionsOf services output) = pairs (permissionsOf services output') := by
  obtain ⟨information, ticket, updated, granted, t, hrefreshed, -⟩ :=
    refreshed_of_ok hgrant hread hanswer
  obtain ⟨entry, hentry, hrecord, -⟩ := TokenServices.lookup_some hrefreshed.found
  obtain ⟨e', he', output', -, hok, htoken, hpermissions, -⟩ :=
    (accounted_of_history hhistory).issued hentry hrecord
  refine ⟨e', he', output', ⟨hok, htoken⟩, ?_⟩
  have hupdated : updated.permissions = information.permissions := by
    obtain ⟨tree, htree⟩ := hstrategy
    have hinitialized := hrefreshed.initialized
    have hvalidated := hrefreshed.validated
    rw [htree] at hinitialized hvalidated
    injection hinitialized with hinitialized
    injection hvalidated with hvalidated
    rw [← hvalidated, ← hinitialized]
  rw [hrefreshed.output_eq, permissionsOf_grantedOutput, ← hpermissions, ← hupdated]
  exact hstrategy.pairs_eq hrefreshed.resolved

/-- Access tokens are never the identifier of a refresh token. -/
theorem accessToken_ne (hhistory : History services base exchanges s) {e e' : Exchange}
    {output output' : DialogOutput} (he : e ∈ exchanges) (he' : e' ∈ exchanges)
    (hout : HandsOut e output token) (hanswer : e'.answer = .ok output') :
    output'.accessToken ≠ token := by
  obtain ⟨n, -, htoken⟩ := (accounted_of_history hhistory).used e he output token hout
  obtain ⟨earlier, later, hsplit⟩ := List.append_of_mem he'
  obtain ⟨-, hexchange⟩ := hhistory.at hsplit
  rw [hexchange] at hanswer
  cases exchange_cases e'.request e'.before with
  | inl hfailed =>
    obtain ⟨error, herror, -⟩ := hfailed
    rw [hanswer] at herror
    cases herror
  | inr hgranted =>
    obtain ⟨output₁, ticket, updated, granted, t, hanswer₁, -, -, houtput, -⟩ := hgranted
    rw [hanswer] at hanswer₁
    injection hanswer₁ with hsame
    rw [hsame, houtput, htoken]
    exact services.sign_ne_randomUUID _ _ _

end

/-- Over every history, a refresh succeeds only with a refresh token that was
handed out and has not expired, never with an access token, and every token
along a chain of refreshes has the same pairs. -/
theorem refresh_never_escalates (services : TokenServices) (base : IriBase)
    (exchanges : List Exchange) (s : NegotiatorState TokenState)
    (hhistory : History services base exchanges s)
    (hstrategy : ∀ e ∈ exchanges, NonPartial e.request.strategy) :
    (∀ earlier e later params output token, exchanges = earlier ++ e :: later →
      e.request.grant = .refresh params →
      RefreshTokenHandler.readRefreshToken params = .ok token → e.answer = .ok output →
      Presents services earlier e token ∧
        ∀ e' ∈ exchanges, ∀ output', e'.answer = .ok output' → output'.accessToken ≠ token) ∧
    ∀ first last output output', Relation.ReflTransGen (Refreshes exchanges) first last →
      first.answer = .ok output → last.answer = .ok output' →
      pairs (permissionsOf services output) = pairs (permissionsOf services output') := by
  have hmem : ∀ {earlier e later}, exchanges = earlier ++ e :: later → ∀ e' ∈ earlier,
      e' ∈ exchanges := fun hsplit e' he' => hsplit ▸ List.mem_append_left _ he'
  constructor
  · intro earlier e later params output token hsplit hgrant hread hanswer
    obtain ⟨hearlier, hexchange⟩ := hhistory.at hsplit
    have hpresents : Presents services earlier e token := by
      rw [hexchange] at hanswer ⊢
      exact presents_of_ok hearlier hgrant hread hanswer
    refine ⟨hpresents, fun e' he' output' hanswer' => ?_⟩
    obtain ⟨issuer, hissuer, issued, -, -, hout, -⟩ := hpresents
    exact accessToken_ne hhistory (hmem hsplit issuer hissuer) he' hout hanswer'
  · intro first last output output' hchain hfirst hlast
    induction hchain generalizing output' with
    | refl =>
      rw [hfirst] at hlast
      injection hlast with hlast
      rw [hlast]
    | @tail middle last _ hrefreshes ih =>
      obtain ⟨hmiddle, hmemLast, outputMiddle, _, params, token, hanswer, htoken, hgrant, hread,
        -⟩ := hrefreshes
      obtain ⟨earlier, later, hsplit⟩ := List.append_of_mem hmemLast
      obtain ⟨hearlier, hexchange⟩ := hhistory.at hsplit
      rw [hexchange] at hlast
      obtain ⟨issuer, hissuer, issued, hout, hpairs⟩ :=
        permissions_of_refresh hearlier hgrant hread hlast (hstrategy last hmemLast)
      have hsame : outputMiddle = issued := (accounted_of_history hhistory).unique middle hmiddle
        issuer (hmem hsplit issuer hissuer) outputMiddle issued token ⟨hanswer, htoken⟩ hout
      rw [ih outputMiddle hanswer, hpairs, hsame]

/-- A verifier that takes the token for the WebID. -/
def webIdFormat (format : String) : Option (Credential → Except HttpError (Option ClaimSet)) :=
  if format = "urn:solidlab:uma:claims:formats:webid" then
    some fun credential => .ok (some [(WEBID, [.string credential.token])])
  else none

/-- A dialog about read access to an album. -/
def albumDialog (webId : String) : Json :=
  .object [("permissions", .array [Permission.toJson ⟨"album", ["urn:example:read"]⟩]),
    ("claim_token", .string webId),
    ("claim_token_format", .string "urn:solidlab:uma:claims:formats:webid")]

def refreshParams : Json :=
  .object [("grant_type", .string "refresh_token"), ("refresh_token", .string "uu")]

/-- Alice asks for read access, -/
def albumRequest : TokenRequest where
  grant := .negotiate (albumDialog "http://example.org/alice")
  randomUUID := "ticket"
  others := webIdFormat
  strategy := immediateAuthorizerStrategy AuthorizerTree.all.permissions false

/-- and refreshes her token. -/
def albumRefresh : TokenRequest where
  grant := .refresh refreshParams
  randomUUID := "ticket2"
  others := webIdFormat
  strategy := immediateAuthorizerStrategy AuthorizerTree.all.permissions false

def noTokens : NegotiatorState TokenState where
  ticketStore := KeyValueStorage.empty
  tokens := { store := KeyValueStorage.empty }

def albumExchange : Exchange :=
  exchange TokenServices.plain IriBase.plain albumRequest noTokens

def albumRefreshed : Exchange :=
  exchange TokenServices.plain IriBase.plain albumRefresh albumExchange.after

theorem exists_output {answer : Except HttpError DialogOutput} {token : String}
    (h : answer.toOption.bind DialogOutput.refreshToken = some token) :
    ∃ output, answer = .ok output ∧ output.refreshToken = some token := by
  obtain ⟨output, hoption, htoken⟩ := Option.bind_eq_some_iff.mp h
  refine ⟨output, ?_, htoken⟩
  cases answer with
  | error error => cases hoption
  | ok answered =>
    injection hoption with hoption
    rw [hoption]

/-- The refreshed token stands for what the first one did. -/
theorem album_read_refreshed : ∃ output output', albumExchange.answer = .ok output ∧
    albumRefreshed.answer = .ok output' ∧
    pairs (permissionsOf TokenServices.plain output) =
      pairs (permissionsOf TokenServices.plain output') := by
  obtain ⟨output, hout⟩ : ∃ output, HandsOut albumExchange output "uu" :=
    exists_output (by decide +kernel)
  obtain ⟨output', hout'⟩ : ∃ output, HandsOut albumRefreshed output "uuuu" :=
    exists_output (by decide +kernel)
  have hhistory : History TokenServices.plain IriBase.plain [albumExchange, albumRefreshed]
      albumRefreshed.after :=
    .serve albumRefresh (.serve albumRequest (.start rfl))
  have hstrategy : ∀ e ∈ [albumExchange, albumRefreshed], NonPartial e.request.strategy := by
    intro e he
    rcases List.mem_pair.mp he with rfl | rfl
    · exact ⟨.all, rfl⟩
    · exact ⟨.all, rfl⟩
  have hrefreshes : Refreshes [albumExchange, albumRefreshed] albumExchange albumRefreshed :=
    ⟨by simp, by simp, output, output', _, "uu", hout.1, hout.2, rfl, by decide +kernel, hout'.1⟩
  exact ⟨output, output', hout.1, hout'.1, (refresh_never_escalates TokenServices.plain
    IriBase.plain [albumExchange, albumRefreshed] albumRefreshed.after hhistory hstrategy).2
      albumExchange albumRefreshed output output' (.single hrefreshes) hout.1 hout'.1⟩

end UserManagedAccess.Routes
