/-
UserManagedAccess.Routes.RefreshIdentity — whom the tokens of a chain of
refreshes are for.

A chain starts with a negotiation and goes on with refreshes, each of the
refresh token before it; anything may happen in between that leaves that
token's record alone. A refresh verifies the stored claims once more, where
`WEBID` and `CLIENTID` already hold IRIs: these become the original values.

* `holds_of_negotiated`, `holds_of_refreshed` — how a chain starts and goes on;
* `afterRefresh_provide` — what becomes of the claims when they are verified
  again: after the first time, nothing any more;
* `RefreshChain.invariant` — the claims along a chain, by induction on it;
* `identity_kept_iff` — they name the same user and client exactly where the
  dialog named them by IRIs.

The verifiers are the configured ones behind `IriVerifier`; what they make of a
credential is arbitrary, as are the strategy and the number of rounds.
-/
import UserManagedAccess.Credentials.IdentityClaims
import UserManagedAccess.Routes.TokenHistoryTheorems
import UserManagedAccess.Ticketing.Strategy.CollectingStrategy

namespace UserManagedAccess.Routes

open UserManagedAccess.Lib UserManagedAccess.Util UserManagedAccess.Views
open UserManagedAccess.Credentials UserManagedAccess.Dialog UserManagedAccess.Tokens
open UserManagedAccess.Ticketing UserManagedAccess.Policies

/-! ## Chains -/

/-- The claims a token was minted for, and its subject. -/
structure MintedToken where
  claims : ClaimSet
  sub : Option String

/-- The store has both tokens of the output, for these claims and subject. -/
def Holds (s : NegotiatorState TokenState) (output : DialogOutput) (minted : MintedToken) : Prop :=
  ∃ refreshToken entry information accessEntry token,
    output.refreshToken = some refreshToken ∧
    s.tokens.store.get refreshToken = some entry ∧ entry.record = .refresh information ∧
    information.claims = minted.claims ∧
    s.tokens.store.get output.accessToken = some accessEntry ∧
    accessEntry.record = .access token ∧ token.sub = minted.sub

def MintedToken.SameIdentity (first token : MintedToken) : Prop :=
  token.sub = first.sub ∧ ∀ pair ∈ identityTypes,
    token.claims.get pair.1 = first.claims.get pair.1 ∧
      token.claims.get pair.2 = first.claims.get pair.2

/-- The pushed claims are verified, one after the other, as these claim sets,
which are then made IRIs. -/
inductive Verifies (services : TokenServices)
    (others : String → Option (Credential → Except HttpError (Option ClaimSet))) :
    List ClaimToken → TokenState → List ClaimSet → Prop
  | nil (t : TokenState) : Verifies services others [] t []
  | cons {claim rest token format t t' claims verified}
      (htoken : DialogInput.truthy claim.claimToken = some token)
      (hformat : DialogInput.truthy claim.claimTokenFormat = some format)
      (hrun : (formatVerifier services others ⟨token, format⟩).run t = (.ok (some claims), t'))
      (hrest : Verifies services others rest t' verified) :
      Verifies services others (claim :: rest) t (claims :: verified)

/-- The claim sets verified in the dialog that this request ends: those of
earlier rounds, which the ticket carries, and those it pushes. -/
def DialogClaims (services : TokenServices) (base : IriBase)
    (others : String → Option (Credential → Except HttpError (Option ClaimSet)))
    (strategy : TicketingStrategy) (input : Json) (s : NegotiatorState TokenState)
    (verified : List ClaimSet) : Prop :=
  ∃ ticket s₁ earlier pushed,
    ((configuredNegotiator services base others strategy).getTicket
      (DialogInput.ofJson input)).run s = (.ok ticket, s₁) ∧
    ticket.provided = collected base earlier ∧
    Verifies services others (DialogInput.ofJson input).claimTokens s₁.tokens pushed ∧
    verified = earlier ++ pushed

/-- The first token of a chain, those refreshed from it, and the last output. -/
inductive RefreshChain (services : TokenServices) (base : IriBase) (verified : List ClaimSet) :
    MintedToken → List MintedToken → DialogOutput → NegotiatorState TokenState → Prop
  | negotiated {others randomUUID input s s' output first} (strategy : CollectingStrategy)
      (hrun : ((configuredNegotiator services base others strategy.toTicketingStrategy).negotiate
        randomUUID input).run s = (.ok output, s'))
      (hverified : DialogClaims services base others strategy.toTicketingStrategy input s verified)
      (hholds : Holds s' output first) :
      RefreshChain services base verified first [] output s'
  | meanwhile {first later output s t} (hchain : RefreshChain services base verified first later
        output s)
      (hkept : ∀ token, output.refreshToken = some token →
        t.tokens.store.get token = s.tokens.store.get token) :
      RefreshChain services base verified first later output t
  | refreshed {first later output s others randomUUID params token output' s' minted}
      (strategy : CollectingStrategy)
      (hchain : RefreshChain services base verified first later output s)
      (htoken : output.refreshToken = some token)
      (hread : RefreshTokenHandler.readRefreshToken params = .ok token)
      (hrun : (RefreshTokenHandler.handle services ((configuredNegotiator services base others
        strategy.toTicketingStrategy).negotiate randomUUID) params).run s = (.ok output', s'))
      (hholds : Holds s' output' minted) :
      RefreshChain services base verified first (later ++ [minted]) output' s'

/-! ## What is minted -/

section

variable {services : TokenServices} {base : IriBase} {verified : List ClaimSet}
  {others : String → Option (Credential → Except HttpError (Option ClaimSet))}
  {strategy : CollectingStrategy}

/-- Both tokens of a granted negotiation are for the provided claims. -/
theorem holds_granted {s' : NegotiatorState TokenState} {updated : Ticket}
    {granted : List Permission} {t : TokenState} {minted : MintedToken}
    (hstore : ∀ {key entry}, s'.tokens.store.get key = some entry →
      (grantedTokens services updated granted t).store.get key = some entry)
    (h : Holds s' (grantedOutput services updated granted t) minted) :
    minted.claims = updated.provided ∧ minted.sub = BaseNegotiator.tokenSub updated.provided := by
  obtain ⟨refreshToken, entry, information, accessEntry, token, htoken, hentry, hrecord, hclaims,
    haccess, haccessRecord, hsub⟩ := h
  injection htoken with htoken
  have hrefresh := hstore hentry
  change (KeyValueStorage.set _ (services.randomUUID (t.uuids + 1)) _).get refreshToken =
    some entry at hrefresh
  rw [KeyValueStorage.get_set, if_pos htoken.symm] at hrefresh
  injection hrefresh with hrefresh
  have hminted := hstore haccess
  change (KeyValueStorage.set (KeyValueStorage.set _ (services.sign _ _) _)
    (services.randomUUID (t.uuids + 1)) _).get (services.sign _ _) = some accessEntry at hminted
  rw [KeyValueStorage.get_set, if_neg (services.sign_ne_randomUUID _ _ _),
    KeyValueStorage.get_set, if_pos rfl] at hminted
  injection hminted with hminted
  rw [← hrefresh] at hrecord
  injection hrecord with hrecord
  rw [← hminted] at haccessRecord
  injection haccessRecord with haccessRecord
  constructor
  · rw [← hclaims, ← hrecord]
  · rw [← hsub, ← haccessRecord]
    rfl

/-- A store with both tokens of a granted negotiation. -/
theorem holds_of_get {s' : NegotiatorState TokenState} {updated : Ticket}
    {granted : List Permission} {t : TokenState}
    (hstore : ∀ key, (key = services.randomUUID (t.uuids + 1) ∨
        ∃ token jti, key = services.sign token jti) →
      s'.tokens.store.get key = (grantedTokens services updated granted t).store.get key) :
    Holds s' (grantedOutput services updated granted t)
      ⟨updated.provided, BaseNegotiator.tokenSub updated.provided⟩ := by
  have hrefresh : (grantedTokens services updated granted t).store.get
      (services.randomUUID (t.uuids + 1)) = some
        { record := .refresh
            { claims := updated.provided
              permissions := granted
              expiration := services.clock (t.readings + 1) + services.refreshExpiration }
          expires := services.clock (t.readings + 2) + services.refreshExpiration } :=
    (KeyValueStorage.get_set _ _ _ _).trans (if_pos rfl)
  have haccess : (grantedTokens services updated granted t).store.get
      (grantedOutput services updated granted t).accessToken = some
        { record := .access (BaseNegotiator.mintedToken updated granted)
          expires := services.clock t.readings + services.expirationTime } := by
    change (KeyValueStorage.set (KeyValueStorage.set _ (services.sign _ _) _)
      (services.randomUUID (t.uuids + 1)) _).get (services.sign _ _) = _
    rw [KeyValueStorage.get_set, if_neg (services.sign_ne_randomUUID _ _ _)]
    exact (KeyValueStorage.get_set _ _ _ _).trans (if_pos rfl)
  exact ⟨_, _, _, _, _, rfl, (hstore _ (Or.inl rfl)).trans hrefresh, rfl, rfl,
    (hstore _ (Or.inr ⟨_, _, rfl⟩)).trans haccess, rfl, rfl⟩

/-- Every negotiation that mints tokens starts a chain, -/
theorem holds_of_negotiated {randomUUID : String} {input : Json}
    {s s' : NegotiatorState TokenState} {output : DialogOutput}
    (hrun : ((configuredNegotiator services base others strategy.toTicketingStrategy).negotiate
      randomUUID input).run s = (.ok output, s')) : ∃ minted, Holds s' output minted := by
  cases negotiate_cases hrun with
  | inl hfailed =>
    obtain ⟨e, herror, -⟩ := hfailed
    cases herror
  | inr hgranted =>
    obtain ⟨output', ticket, updated, granted, t, hok, hgranted⟩ := hgranted
    injection hok with hok
    rw [hok, hgranted.output_eq]
    exact ⟨_, holds_of_get fun key _ => by rw [hgranted.tokens_eq]⟩

/-- and every refresh of a token that was handed out goes on with it. -/
theorem holds_of_refreshed {randomUUID : String} {params : Json}
    {s s' : NegotiatorState TokenState} {output : DialogOutput} {n : Nat}
    (hread : RefreshTokenHandler.readRefreshToken params = .ok (services.randomUUID n))
    (hn : n < s.tokens.uuids)
    (hrun : (RefreshTokenHandler.handle services ((configuredNegotiator services base others
      strategy.toTicketingStrategy).negotiate randomUUID) params).run s = (.ok output, s')) :
    ∃ minted, Holds s' output minted := by
  cases handle_cases hrun with
  | inl hfailed =>
    obtain ⟨e, herror, -⟩ := hfailed
    cases herror
  | inr hrefreshed =>
    obtain ⟨output', token, information, ticket, updated, granted, t, hok, hrefreshed⟩ :=
      hrefreshed
    injection hok with hok
    have htoken := hrefreshed.read
    rw [hread] at htoken
    injection htoken with htoken
    rw [hok, hrefreshed.output_eq]
    refine ⟨_, holds_of_get fun key hkey => ?_⟩
    rw [hrefreshed.tokens_eq, ← htoken]
    refine (KeyValueStorage.get_delete _ _ _).trans (if_neg fun hsame => ?_)
    rcases hkey with hkey | ⟨minted, jti, hkey⟩
    · have hindex : n = t.uuids + 1 := services.randomUUID_injective (hsame.symm.trans hkey)
      have huuids : t.uuids = s.tokens.uuids := hrefreshed.shrinks.uuids
      omega
    · exact services.sign_ne_randomUUID minted jti n (hkey.symm.trans hsame)

theorem run_configuredVerifier {credential : Credential} {t t' : TokenState} {claims : ClaimSet}
    (hrun : (formatVerifier services others credential).run t = (.ok (some claims), t')) :
    (configuredVerifier services base others credential).run t =
      (.ok (IriVerifier.convert base claims), t') := by
  unfold configuredVerifier IriVerifier.verify
  rw [Async.run_bind_of_ok hrun, Async.run_bind_of_ok (Async.run_yield t')]
  rfl

/-- The pushed claims are added to those the ticket has. -/
theorem provided_processCredentials {claims : List ClaimToken} {ticket updated : Ticket}
    {s s' : NegotiatorState TokenState} {pushed : List ClaimSet}
    (hverifies : Verifies services others claims s.tokens pushed)
    (hrun : ((configuredNegotiator services base others
      strategy.toTicketingStrategy).processCredentials claims ticket).run s = (.ok updated, s')) :
    updated.provided = collect base ticket.provided pushed := by
  generalize ht : s.tokens = t at hverifies
  induction hverifies generalizing ticket s with
  | nil t =>
    injection hrun with hrun
    injection hrun with hrun
    rw [← hrun]
    rfl
  | @cons claim rest token format t t' claims verified htoken hformat hinner hrest ih =>
    subst ht
    unfold BaseNegotiator.processCredentials at hrun
    simp only [htoken, hformat] at hrun
    have hverify : (BaseNegotiator.onTokens ((configuredNegotiator services base others
        strategy.toTicketingStrategy).verifier ⟨token, format⟩)).run s =
          (.ok (IriVerifier.convert base claims), s.setTokens t') := by
      rw [run_onTokens]
      change (((configuredVerifier services base others _).run _).1,
        s.setTokens ((configuredVerifier services base others _).run _).2) = _
      rw [run_configuredVerifier hinner]
    rw [Async.run_bind_of_ok hverify] at hrun
    obtain ⟨ticket', s₁, hvalid, hrun⟩ := Async.run_bind_ok hrun
    obtain ⟨_, s₂, hyield, hrun⟩ := Async.run_bind_ok hrun
    injection hvalid with hvalid hs₁
    injection hyield with _ hs₂
    have htokens : s₂.tokens = t' := by rw [← hs₂, ← hs₁]; rfl
    rw [ih hrun htokens, strategy.provided_validateClaims hvalid]
    rfl

end

/-! ## What a refresh does to the claims -/

/-- The claims that name the user and the client, after a refresh. -/
def AfterRefresh (first claims : ClaimSet) : Prop :=
  ∀ pair ∈ identityTypes, claims.get pair.1 = first.get pair.1 ∧
    claims.get pair.2 = (first.get pair.1).or (first.get pair.2)

theorem tokenSub_congr {claims claims' : ClaimSet} (hsame : ∀ pair ∈ identityTypes,
    claims.get pair.1 = claims'.get pair.1 ∧ claims.get pair.2 = claims'.get pair.2) :
    BaseNegotiator.tokenSub claims = BaseNegotiator.tokenSub claims' := by
  obtain ⟨hwebId, horiginal⟩ := hsame (WEBID, ORIGINAL_WEBID) (by simp [identityTypes])
  unfold BaseNegotiator.tokenSub ClaimSet.values
  rw [hwebId, horiginal]

section

variable {services : TokenServices} {base : IriBase} {verified : List ClaimSet}

/-- Verifying stored claims once more: those of the first token, or those of a
token refreshed from it. -/
theorem afterRefresh_provide (hobjects : ∀ claims ∈ verified, claims.keys.Nodup)
    {claims : ClaimSet} (hnodup : claims.keys.Nodup)
    (h : claims = collected base verified ∨ AfterRefresh (collected base verified) claims) :
    AfterRefresh (collected base verified)
      (ImmediateAuthorizerStrategy.provide Dict.empty (IriVerifier.convert base claims)) := by
  intro pair hpair
  have hsame : claims.get pair.1 = (collected base verified).get pair.1 ∧
      (claims.get pair.1).or (claims.get pair.2) =
        ((collected base verified).get pair.1).or ((collected base verified).get pair.2) := by
    cases h with
    | inl hfirst => rw [hfirst]; exact ⟨rfl, rfl⟩
    | inr hafter =>
      obtain ⟨htype, horiginal⟩ := hafter pair hpair
      rw [htype, horiginal]
      refine ⟨rfl, ?_⟩
      cases (collected base verified).get pair.1 <;> rfl
  have hconvert : (IriVerifier.convert base claims).keys.Nodup :=
    IriVerifier.nodup_keys_convert hnodup
  rw [get_provide_empty hconvert, get_provide_empty hconvert,
    (IriVerifier.get_convert hpair claims).1, (IriVerifier.get_convert hpair claims).2, hsame.1,
    map_toIri_collected hpair hobjects]
  exact ⟨rfl, hsame.1 ▸ hsame.2⟩

theorem claims_of_holds {s : NegotiatorState TokenState} {output : DialogOutput}
    {minted : MintedToken} (h : Holds s output minted) {refreshToken : String}
    {entry : ExpiringRecord} {information : RefreshInformation}
    (htoken : output.refreshToken = some refreshToken)
    (hentry : s.tokens.store.get refreshToken = some entry)
    (hrecord : entry.record = .refresh information) : information.claims = minted.claims := by
  obtain ⟨refreshToken', entry', information', -, -, htoken', hentry', hrecord', hclaims, -⟩ := h
  rw [htoken] at htoken'
  injection htoken' with htoken'
  rw [← htoken', hentry] at hentry'
  injection hentry' with hentry'
  rw [← hentry', hrecord] at hrecord'
  injection hrecord' with hrecord'
  rw [hrecord', hclaims]

/-- What a chain keeps: the first token is for the claims of its dialog, and
the stored claims are those or what a refresh makes of them. -/
structure ChainInvariant (base : IriBase) (verified : List ClaimSet) (first : MintedToken)
    (later : List MintedToken) (output : DialogOutput) (s : NegotiatorState TokenState) :
    Prop where
  first_claims : first.claims = collected base verified
  first_sub : first.sub = BaseNegotiator.tokenSub first.claims
  later : ∀ token ∈ later, AfterRefresh first.claims token.claims ∧
    token.sub = BaseNegotiator.tokenSub token.claims
  stored : ∀ {refreshToken entry information}, output.refreshToken = some refreshToken →
    s.tokens.store.get refreshToken = some entry → entry.record = .refresh information →
    information.claims.keys.Nodup ∧
      (information.claims = first.claims ∨ AfterRefresh first.claims information.claims)

theorem nodup_keys_collected (verified : List ClaimSet) :
    (collected base verified).keys.Nodup :=
  nodup_keys_collect List.nodup_nil

theorem chainInvariant_negotiated
    {others : String → Option (Credential → Except HttpError (Option ClaimSet))}
    {strategy : CollectingStrategy} {randomUUID : String} {input : Json}
    {s s' : NegotiatorState TokenState} {output : DialogOutput} {first : MintedToken}
    (hrun : ((configuredNegotiator services base others strategy.toTicketingStrategy).negotiate
      randomUUID input).run s = (.ok output, s'))
    (hverified : DialogClaims services base others strategy.toTicketingStrategy input s verified)
    (hholds : Holds s' output first) : ChainInvariant base verified first [] output s' := by
  cases negotiate_cases hrun with
  | inl hfailed =>
    obtain ⟨e, herror, -⟩ := hfailed
    cases herror
  | inr hgranted =>
    obtain ⟨output', ticket, updated, granted, t, hok, hgranted⟩ := hgranted
    injection hok with hok
    subst hok
    obtain ⟨ticket', s₁, earlier, pushed, hticket, hearlier, hverifies, rfl⟩ := hverified
    obtain ⟨s₁', s₂, hget, hprocess, -⟩ := hgranted.processed
    rw [hticket] at hget
    injection hget with hget hs₁
    injection hget with hget
    subst hget hs₁
    have hprovided := provided_processCredentials hverifies hprocess
    rw [hearlier, collect_collected] at hprovided
    have houtput := hgranted.output_eq
    subst houtput
    have hminted := holds_granted (fun hentry => by rw [← hgranted.tokens_eq]; exact hentry) hholds
    refine ⟨hminted.1.trans hprovided, ?_, fun token htoken => absurd htoken List.not_mem_nil,
      fun htoken hentry hrecord => ?_⟩
    · rw [hminted.1, hminted.2]
    · have hclaims := claims_of_holds hholds htoken hentry hrecord
      refine ⟨?_, Or.inl hclaims⟩
      rw [hclaims, hminted.1, hprovided]
      exact nodup_keys_collected _

theorem chainInvariant_refreshed (hobjects : ∀ claims ∈ verified, claims.keys.Nodup)
    {others : String → Option (Credential → Except HttpError (Option ClaimSet))}
    {strategy : CollectingStrategy} {randomUUID : String} {params : Json} {token : String}
    {first minted : MintedToken} {later : List MintedToken} {output output' : DialogOutput}
    {s s' : NegotiatorState TokenState}
    (hchain : ChainInvariant base verified first later output s)
    (htoken : output.refreshToken = some token)
    (hread : RefreshTokenHandler.readRefreshToken params = .ok token)
    (hrun : (RefreshTokenHandler.handle services ((configuredNegotiator services base others
      strategy.toTicketingStrategy).negotiate randomUUID) params).run s = (.ok output', s'))
    (hholds : Holds s' output' minted) :
    ChainInvariant base verified first (later ++ [minted]) output' s' := by
  cases handle_cases hrun with
  | inl hfailed =>
    obtain ⟨e, herror, -⟩ := hfailed
    cases herror
  | inr hrefreshed =>
    obtain ⟨output₁, token', information, ticket, updated, granted, t, hok, hrefreshed⟩ :=
      hrefreshed
    injection hok with hok
    subst hok
    have hsame := hrefreshed.read
    rw [hread] at hsame
    injection hsame with hsame
    subst hsame
    obtain ⟨entry, hentry, hrecord, -⟩ := TokenServices.lookup_some hrefreshed.found
    obtain ⟨hnodup, hclaims⟩ := hchain.stored htoken hentry hrecord
    have hprovided : updated.provided =
        ImmediateAuthorizerStrategy.provide Dict.empty
          (IriVerifier.convert base information.claims) := by
      rw [strategy.provided_validateClaims hrefreshed.validated,
        strategy.provided_initializeTicket hrefreshed.initialized]
    have houtput := hrefreshed.output_eq
    subst houtput
    have hminted : minted.claims = updated.provided ∧
        minted.sub = BaseNegotiator.tokenSub updated.provided := by
      refine holds_granted (fun {key entry} hkept => ?_) hholds
      rw [hrefreshed.tokens_eq] at hkept
      exact (Shrinks.delete _ token).store hkept
    have hafter : AfterRefresh first.claims minted.claims := by
      rw [hminted.1, hprovided, hchain.first_claims]
      refine afterRefresh_provide hobjects hnodup ?_
      rw [← hchain.first_claims]
      exact hclaims
    refine ⟨hchain.first_claims, hchain.first_sub, fun token htoken => ?_,
      fun htoken hentry hrecord => ?_⟩
    · rcases List.mem_append.mp htoken with htoken | htoken
      · exact hchain.later token htoken
      · rw [List.mem_singleton.mp htoken]
        exact ⟨hafter, by rw [hminted.1, hminted.2]⟩
    · have hstored := claims_of_holds hholds htoken hentry hrecord
      rw [hstored]
      refine ⟨?_, Or.inr hafter⟩
      rw [hminted.1, hprovided]
      exact nodup_keys_collected [information.claims]

theorem RefreshChain.invariant (hobjects : ∀ claims ∈ verified, claims.keys.Nodup)
    {first : MintedToken} {later : List MintedToken} {output : DialogOutput}
    {s : NegotiatorState TokenState}
    (hchain : RefreshChain services base verified first later output s) :
    ChainInvariant base verified first later output s := by
  induction hchain with
  | negotiated strategy hrun hverified hholds =>
    exact chainInvariant_negotiated hrun hverified hholds
  | meanwhile _ hkept ih =>
    exact { ih with
      stored := fun htoken hentry hrecord => ih.stored htoken (hkept _ htoken ▸ hentry) hrecord }
  | refreshed strategy _ htoken hread hrun hholds ih =>
    exact chainInvariant_refreshed hobjects ih htoken hread hrun hholds

end

/-- Along a chain of refreshes the subject and the four claims stay those of
the first token exactly where its dialog named users and clients by IRIs. -/
theorem identity_kept_iff (services : TokenServices) (base : IriBase) (verified : List ClaimSet)
    (hobjects : ∀ claims ∈ verified, claims.keys.Nodup) (first : MintedToken)
    (later : List MintedToken) (output : DialogOutput) (s : NegotiatorState TokenState)
    (hchain : RefreshChain services base verified first later output s) :
    (∀ token ∈ later, first.SameIdentity token) ↔
      later = [] ∨ ∀ pair ∈ identityTypes, OriginalKept verified pair.1 pair.2 := by
  have hinvariant := hchain.invariant hobjects
  have hkept : ∀ pair ∈ identityTypes, OriginalKept verified pair.1 pair.2 ↔
      (first.claims.get pair.1).or (first.claims.get pair.2) = first.claims.get pair.2 := by
    intro pair hpair
    rw [hinvariant.first_claims]
    exact (original_kept_iff hpair hobjects).symm
  constructor
  · intro hsame
    cases later with
    | nil => exact Or.inl rfl
    | cons token later =>
      refine Or.inr fun pair hpair => ?_
      obtain ⟨hafter, -⟩ := hinvariant.later token List.mem_cons_self
      rw [hkept pair hpair, ← (hafter pair hpair).2]
      exact ((hsame token List.mem_cons_self).2 pair hpair).2
  · rintro (rfl | horiginal) token htoken
    · exact absurd htoken List.not_mem_nil
    · obtain ⟨hafter, hsub⟩ := hinvariant.later token htoken
      have hsame : ∀ pair ∈ identityTypes, token.claims.get pair.1 = first.claims.get pair.1 ∧
          token.claims.get pair.2 = first.claims.get pair.2 := by
        intro pair hpair
        obtain ⟨htype, hafterOriginal⟩ := hafter pair hpair
        exact ⟨htype, hafterOriginal.trans ((hkept pair hpair).mp (horiginal pair hpair))⟩
      refine ⟨?_, hsame⟩
      rw [hsub, hinvariant.first_sub]
      exact tokenSub_congr hsame

/-! ## Two chains -/

def albumNegotiator : BaseNegotiator TokenState :=
  configuredNegotiator TokenServices.plain IriBase.plain webIdFormat
    (CollectingStrategy.immediate AuthorizerTree.all.permissions false).toTicketingStrategy

def albumState (webId : String) : NegotiatorState TokenState :=
  ((albumNegotiator.negotiate "ticket" (albumDialog webId)).run noTokens).2

/-- Read access to the album, refreshed once. -/
theorem exists_chain {webId : String} (hwebId : webId ≠ "")
    (hfirst : (((albumNegotiator.negotiate "ticket" (albumDialog webId)).run
      noTokens).1).toOption.bind DialogOutput.refreshToken = some "uu")
    (hsecond : (((RefreshTokenHandler.handle TokenServices.plain
      (albumNegotiator.negotiate "next-ticket") refreshParams).run
        (albumState webId)).1).toOption.bind DialogOutput.refreshToken = some "uuuu") :
    ∃ first token output s, RefreshChain TokenServices.plain IriBase.plain
      [[(WEBID, [.string webId])]] first [token] output s := by
  have hclaims : (DialogInput.ofJson (albumDialog webId)).claimTokens =
      [⟨some webId, some "urn:solidlab:uma:claims:formats:webid"⟩] := by
    simp [DialogInput.ofJson, albumDialog, DialogInput.readClaimTokens, Json.field,
      List.lookup_cons, Json.asString?, DialogInput.truthy, hwebId]
  obtain ⟨output, hanswer, htoken⟩ := exists_output hfirst
  obtain ⟨output', hanswer', -⟩ := exists_output hsecond
  have hrun : (albumNegotiator.negotiate "ticket" (albumDialog webId)).run noTokens =
      (.ok output, albumState webId) := Prod.ext hanswer rfl
  have hrefresh : (RefreshTokenHandler.handle TokenServices.plain
      (albumNegotiator.negotiate "next-ticket") refreshParams).run (albumState webId) =
        (.ok output', _) := Prod.ext hanswer' rfl
  obtain ⟨first, hholds⟩ := holds_of_negotiated hrun
  have hread : RefreshTokenHandler.readRefreshToken refreshParams =
      .ok (TokenServices.plain.randomUUID 1) := by decide +kernel
  have huuids : 1 < (albumState webId).tokens.uuids := by
    cases negotiate_cases hrun with
    | inl hfailed =>
      obtain ⟨e, herror, -⟩ := hfailed
      cases herror
    | inr hgranted =>
      obtain ⟨_, _, updated, granted, t, -, hgranted⟩ := hgranted
      rw [hgranted.tokens_eq]
      show 1 < t.uuids + 1 + 1
      omega
  obtain ⟨token, hholds'⟩ := holds_of_refreshed hread huuids hrefresh
  have hverified : DialogClaims TokenServices.plain IriBase.plain webIdFormat
      (CollectingStrategy.immediate AuthorizerTree.all.permissions false).toTicketingStrategy
      (albumDialog webId) noTokens [[(WEBID, [.string webId])]] := by
    refine ⟨_, noTokens, [], [[(WEBID, [.string webId])]], rfl, rfl, ?_, rfl⟩
    rw [hclaims]
    have htruthy : DialogInput.truthy (some webId) = some webId := by
      simp [DialogInput.truthy, hwebId]
    exact .cons htruthy rfl rfl (.nil _)
  have htoken' : output.refreshToken = some (TokenServices.plain.randomUUID 1) := htoken
  exact ⟨first, token, output', _, .refreshed _ (.negotiated _ hrun hverified hholds) htoken'
    hread hrefresh hholds'⟩

/-- The chain of a user who is named by an IRI keeps it. -/
theorem alice_kept : ∃ first later output s,
    RefreshChain TokenServices.plain IriBase.plain
      [[(WEBID, [.string "http://example.org/alice"])]] first later output s ∧ later ≠ [] ∧
    ∀ token ∈ later, first.SameIdentity token := by
  obtain ⟨first, token, output, s, hchain⟩ :=
    @exists_chain "http://example.org/alice" (by decide) (by decide +kernel) (by decide +kernel)
  refine ⟨first, [token], output, s, hchain, List.cons_ne_nil _ _, ?_⟩
  refine (identity_kept_iff TokenServices.plain IriBase.plain
    [[(WEBID, [.string "http://example.org/alice"])]] (by decide) first [token] output s
      hchain).mpr (Or.inr ?_)
  intro pair hpair
  rcases List.mem_pair.mp hpair with rfl | rfl
  · refine Or.inr fun claims hclaims => ?_
    rw [List.mem_singleton.mp hclaims]
    refine ⟨fun text htext => ?_, fun hnone => by cases hnone⟩
    injection List.mem_singleton.mp htext with htext
    rw [htext]
    decide +kernel
  · refine Or.inl fun claims hclaims => ?_
    rw [List.mem_singleton.mp hclaims]
    decide

/-- The chain of a user who is not loses the name. -/
theorem alice_lost : ∃ first later output s,
    RefreshChain TokenServices.plain IriBase.plain [[(WEBID, [.string "alice"])]] first later
      output s ∧ ¬ ∀ token ∈ later, first.SameIdentity token := by
  obtain ⟨first, token, output, s, hchain⟩ :=
    @exists_chain "alice" (by decide) (by decide +kernel) (by decide +kernel)
  refine ⟨first, [token], output, s, hchain, fun hsame => ?_⟩
  have hobjects : ∀ claims ∈ [[(WEBID, [Json.string "alice"])]],
      (Dict.keys claims).Nodup := by decide
  have hpair : (WEBID, ORIGINAL_WEBID) ∈ identityTypes := by decide
  have hinvariant := hchain.invariant hobjects
  obtain ⟨hafter, -⟩ := hinvariant.later token (List.mem_singleton_self token)
  have hkept := ((hafter _ hpair).2).symm.trans
    ((hsame token (List.mem_singleton_self token)).2 _ hpair).2
  rw [hinvariant.first_claims] at hkept
  rcases (original_kept_iff hpair hobjects).mp hkept with hnobody | hiri
  · have hnone := hnobody _ (List.mem_singleton_self _)
    cases hnone
  · have halice := (hiri _ (List.mem_singleton_self _)).1 "alice" (List.mem_singleton_self _)
    revert halice
    decide +kernel

end UserManagedAccess.Routes
