/-
UserManagedAccess.Routes.ConcurrentRefreshTheorems — when a refresh token
counts for at most one success.

No request brings a refresh token back that is gone (`Evolves`). A refresh
grant that succeeds leaves its token gone (`wp_refresh`), and a request that
presents a token that is gone fails (`wp_presents_gone`). These are triples over
what the others may do in between; in a safe run any two requests that use one
token are related by them (`Exclusive`), and `exclusive_step` keeps that relation
whichever request moves.

* `evolves_handle` — what any request does to the token store;
* `wp_refresh`, `wp_presents_gone` — the two ends of a token;
* `refreshesOnce_step` — the invariant of the pool;
* `singleUse_of_safeRefreshes` — no token counts for two successes.

A request uses the token it refreshes, those it pushes as claims, and those
pushed with the ticket it continues, which shares its claims with the earlier
rounds (`SharesTicket`). The condition is needed: `RefreshTokenVerifier` leaves
the token it accepts in the store, and the refresh grant deletes it only after
its negotiation. Identifiers that were not used yet are not in the store
(`Fresh`).
-/
import UserManagedAccess.Routes.ConcurrentRefreshes
import UserManagedAccess.Routes.TokenHistoryTheorems

namespace UserManagedAccess.Routes

open UserManagedAccess.Lib UserManagedAccess.Util UserManagedAccess.Views
open UserManagedAccess.Credentials UserManagedAccess.Dialog UserManagedAccess.Tokens
open UserManagedAccess.Ticketing UserManagedAccess.Policies

/-! ## What any request does to the token store -/

/-- Identifiers that were not used yet are not in the store. -/
def Fresh (services : TokenServices) (t : TokenState) : Prop :=
  ∀ n, t.uuids ≤ n → t.store.get (services.randomUUID n) = none

/-- The identifier was used, and is not in the store. -/
def Gone (services : TokenServices) (n : Nat) (t : TokenState) : Prop :=
  n < t.uuids ∧ t.store.get (services.randomUUID n) = none

structure Evolves (services : TokenServices) (t t' : TokenState) : Prop where
  fresh : Fresh services t → Fresh services t'
  uuids : t.uuids ≤ t'.uuids
  gone : ∀ n, n < t.uuids → t.store.get (services.randomUUID n) = none →
    t'.store.get (services.randomUUID n) = none

variable {services : TokenServices} {base : IriBase}

namespace Evolves

theorem refl (t : TokenState) : Evolves services t t :=
  ⟨fun h => h, Nat.le_refl _, fun _ _ h => h⟩

theorem trans {t t' t'' : TokenState} (h : Evolves services t t') (h' : Evolves services t' t'') :
    Evolves services t t'' :=
  ⟨fun hfresh => h'.fresh (h.fresh hfresh), Nat.le_trans h.uuids h'.uuids, fun n hn hnone =>
    h'.gone n (Nat.lt_of_lt_of_le hn h.uuids) (h.gone n hn hnone)⟩

theorem of_shrinks {t t' : TokenState} (h : Shrinks t t') : Evolves services t t' := by
  have hnone : ∀ key, t.store.get key = none → t'.store.get key = none := by
    intro key hkey
    cases hget : t'.store.get key with
    | none => rfl
    | some entry =>
      rw [h.store hget] at hkey
      cases hkey
  refine ⟨fun hfresh n hn => hnone _ (hfresh n ?_), Nat.le_of_eq h.uuids.symm,
    fun n _ hn => hnone _ hn⟩
  rw [← h.uuids]
  exact hn

/-- A write under a new identifier. -/
theorem set_new (t : TokenState) (entry : ExpiringRecord) (readings : Nat) :
    Evolves services t { store := t.store.set (services.randomUUID t.uuids) entry
                         readings, uuids := t.uuids + 1 } := by
  have hother : ∀ n, n ≠ t.uuids → (t.store.set (services.randomUUID t.uuids) entry).get
      (services.randomUUID n) = t.store.get (services.randomUUID n) := by
    intro n hn
    refine (KeyValueStorage.get_set _ _ _ _).trans (if_neg fun hsame => ?_)
    exact hn (services.randomUUID_injective hsame)
  refine ⟨fun hfresh n hn => ?_, Nat.le_succ _, fun n hn hnone => ?_⟩
  · have hn : t.uuids + 1 ≤ n := hn
    exact (hother n (by omega)).trans (hfresh n (by omega))
  · exact (hother n (by omega)).trans hnone

/-- A write under a JWT. -/
theorem set_jwt (t : TokenState) (token : AccessToken) (jti : String) (entry : ExpiringRecord)
    (readings : Nat) :
    Evolves services t { t with store := t.store.set (services.sign token jti) entry
                                readings } := by
  have hother : ∀ n, (t.store.set (services.sign token jti) entry).get
      (services.randomUUID n) = t.store.get (services.randomUUID n) := by
    intro n
    refine (KeyValueStorage.get_set _ _ _ _).trans (if_neg fun hsame => ?_)
    exact services.sign_ne_randomUUID token jti n hsame.symm
  exact ⟨fun hfresh n hn => (hother n).trans (hfresh n hn), Nat.le_refl _,
    fun n _ hnone => (hother n).trans hnone⟩

theorem newUUID (t : TokenState) : Evolves services t { t with uuids := t.uuids + 1 } := by
  refine ⟨fun hfresh n hn => hfresh n ?_, Nat.le_succ _, fun _ _ hnone => hnone⟩
  have hn : t.uuids + 1 ≤ n := hn
  omega

end Evolves

abbrev EvolvesState (services : TokenServices) :
    NegotiatorState TokenState → NegotiatorState TokenState → Prop :=
  OnTokens (Evolves services)

theorem evolvesState_refl (s : NegotiatorState TokenState) : EvolvesState services s s :=
  .refl s.tokens

theorem evolvesState_trans {s t u : NegotiatorState TokenState}
    (h : EvolvesState services s t) (h' : EvolvesState services t u) :
    EvolvesState services s u := Evolves.trans h h'

section

variable {others : String → Option (Credential → Except HttpError (Option ClaimSet))}
  {strategy : TicketingStrategy}

theorem evolves_serialize (token : AccessToken) :
    Async.Guarantees (Evolves services) (services.serialize token) := by
  refine .bind .yield fun _ => .bind (fun t => ⟨Evolves.newUUID t, trivial⟩) fun jti =>
    .bind .yield fun _ => .bind (.bind (.modify fun t => ?_) fun _ => .yield) fun _ => .pure _
  exact Evolves.set_jwt t token jti _ (t.readings + 1)

theorem evolves_issue (claims : ClaimSet) (permissions : List Permission) :
    Async.Guarantees (Evolves services) (services.issue claims permissions) :=
  fun t => ⟨Evolves.set_new t _ (t.readings + 2), trivial⟩

theorem evolves_of_shrinks {α : Type} {p : Async (NegotiatorState TokenState) HttpError α}
    (hp : Async.Guarantees (OnTokens Shrinks) p) : Async.Guarantees (EvolvesState services) p :=
  hp.mono fun _ _ h => Evolves.of_shrinks h

theorem evolves_grant (ticket : Ticket) (granted : List Permission) :
    Async.Guarantees (EvolvesState services)
      ((configuredNegotiator services base others strategy).grant ticket granted) := by
  refine .bind (guarantees_onTokens (evolves_serialize _)) fun serialized => .bind ?_ fun _ =>
    .pure _
  exact .bind (guarantees_onTokens (evolves_issue _ _)) fun refreshToken => .pure _

theorem evolves_negotiate (randomUUID : String) (input : Json) :
    Async.Guarantees (EvolvesState services)
      ((configuredNegotiator services base others strategy).negotiate randomUUID input) := by
  unfold BaseNegotiator.negotiate
  cases DialogInput.assertion input with
  | error message => exact .throw _
  | ok u =>
    refine .bind (evolves_of_shrinks (shrinks_getTicket _)) fun ticket =>
      .bind (evolves_of_shrinks (shrinks_processCredentials _ ticket)) fun updated =>
        .bind (.lift _) fun result => .bind .yield fun _ => ?_
    cases result with
    | success granted => exact evolves_grant updated granted
    | failure requirements =>
      dsimp only
      unfold BaseNegotiator.denyRequest
      by_cases hnone : requirements.length = 0
      · rw [if_pos hnone]
        exact .throw _
      · rw [if_neg hnone]
        exact .bind (.modify fun s => evolvesState_refl s) fun _ => .throw _

theorem evolves_handle (request : TokenRequest) :
    Async.Guarantees (EvolvesState services) (request.handle services base) := by
  unfold TokenRequest.handle
  cases request.grant with
  | negotiate input => exact evolves_negotiate _ input
  | refresh params =>
    have hget : ∀ token, Async.Guarantees (OnTokens Shrinks)
        (BaseNegotiator.onTokens (services.get token)) :=
      fun token => guarantees_onTokens (shrinks_get services token)
    have hexpired : ∀ record, Async.Guarantees (OnTokens Shrinks)
        (RefreshTokenHandler.onTokensNow (services.isExpired record)) :=
      fun record => guarantees_onTokensNow (shrinks_isExpired services record)
    have hdelete : ∀ token, Async.Guarantees (OnTokens Shrinks)
        (BaseNegotiator.onTokens (TokenServices.delete token)) :=
      fun token => guarantees_onTokens (shrinks_delete token)
    refine .bind (.lift _) fun token => .bind (evolves_of_shrinks (hget token)) fun found => ?_
    cases found with
    | none => exact .throw _
    | some record =>
      refine .bind (evolves_of_shrinks (hexpired record)) fun expired => ?_
      cases expired with
      | true => exact .bind (evolves_of_shrinks (hdelete token)) fun _ => .throw _
      | false =>
        exact .bind (evolves_negotiate _ _) fun response => .bind .yield fun _ =>
          .bind (evolves_of_shrinks (hdelete token)) fun _ => .pure response

end

/-! ## What becomes of a token -/

/-- Every result but an error comes with the token gone. -/
def LeavesGone (services : TokenServices) (n : Nat) (r : Except HttpError DialogOutput)
    (s : NegotiatorState TokenState) : Prop :=
  ∀ output, r = .ok output → Gone services n s.tokens

def IsError (r : Except HttpError DialogOutput) (_ : NegotiatorState TokenState) : Prop :=
  ∃ e, r = .error e

theorem gone_later {n : Nat} {s t : NegotiatorState TokenState} (h : EvolvesState services s t)
    (hgone : Gone services n s.tokens) : Gone services n t.tokens :=
  ⟨Nat.lt_of_lt_of_le hgone.1 h.uuids, h.gone n hgone.1 hgone.2⟩

theorem lookup_gone {n : Nat} {t : TokenState} (hgone : Gone services n t) :
    services.lookup t (services.randomUUID n) = none :=
  TokenServices.lookup_none hgone.2

/-- A token that is found was used as an identifier. -/
theorem used_of_lookup {n : Nat} {t : TokenState} {record : TokenRecord}
    (hfresh : Fresh services t)
    (h : services.lookup t (services.randomUUID n) = some record) : n < t.uuids := by
  by_contra hn
  obtain ⟨entry, hentry, -⟩ := TokenServices.lookup_some h
  rw [hfresh n (by omega)] at hentry
  cases hentry

/-- A read of the token store. -/
theorem wp_get {β : Type} {token : String} {s : NegotiatorState TokenState}
    {f : Option TokenRecord → Async (NegotiatorState TokenState) HttpError β}
    {Q : Except HttpError β → NegotiatorState TokenState → Prop}
    (h : ∀ t, EvolvesState services s t →
      Async.Wp (EvolvesState services) (f (services.lookup s.tokens token)) Q t) :
    Async.Wp (EvolvesState services) (BaseNegotiator.onTokens (services.get token) >>= f) Q s := by
  refine Async.wp_bind fun s₁ hs₁ s₂ hs₂ => h s₂ ?_
  have hread : EvolvesState services s
      (s.setTokens { s.tokens with readings := s.tokens.readings + 1 }) :=
    Evolves.of_shrinks (.read s.tokens 1)
  exact evolvesState_trans (evolvesState_trans hread hs₁) hs₂

/-- A look at the clock. -/
theorem wp_isExpired {β : Type} {record : TokenRecord} {s : NegotiatorState TokenState}
    {f : Bool → Async (NegotiatorState TokenState) HttpError β}
    {Q : Except HttpError β → NegotiatorState TokenState → Prop}
    (h : ∀ expired t, EvolvesState services s t →
      Async.Wp (EvolvesState services) (f expired) Q t) :
    Async.Wp (EvolvesState services)
      (RefreshTokenHandler.onTokensNow (services.isExpired record) >>= f) Q s := by
  have hread : EvolvesState services s
      (s.setTokens { s.tokens with readings := s.tokens.readings + 1 }) :=
    Evolves.of_shrinks (.read s.tokens 1)
  exact h _ _ hread

/-- A refresh grant that succeeds leaves its token gone. -/
theorem wp_refresh {request : TokenRequest} {n : Nat}
    (hrefresh : request.Refreshes (services.randomUUID n)) {s : NegotiatorState TokenState}
    (hfresh : Fresh services s.tokens) :
    Async.Wp (EvolvesState services) (request.handle services base) (LeavesGone services n) s := by
  obtain ⟨params, hgrant, hread⟩ := hrefresh
  have herror : ∀ (e : HttpError) (t : NegotiatorState TokenState),
      LeavesGone services n (.error e) t := fun e t output h => by cases h
  simp only [TokenRequest.handle, hgrant, RefreshTokenHandler.handle]
  rw [hread]
  refine wp_get fun t ht => ?_
  cases hlookup : services.lookup s.tokens (services.randomUUID n) with
  | none => exact herror _ t
  | some record =>
    have hused : n < t.tokens.uuids := Nat.lt_of_lt_of_le (used_of_lookup hfresh hlookup) ht.uuids
    refine wp_isExpired fun expired u hu => ?_
    cases expired with
    | true => exact fun _ _ v _ => herror _ v
    | false =>
      refine Async.wp_bind (Async.wp_of_guarantees evolvesState_refl evolvesState_trans
        (evolves_negotiate _ _) fun r v hv => ?_)
      cases r with
      | error e => exact herror e v
      | ok response =>
        intro w hw x hx y hy output _
        have hlater : n < w.tokens.uuids := by
          have huv := hu.uuids
          have hvv := hv.uuids
          have hvw := hw.uuids
          omega
        refine gone_later (evolvesState_trans hx hy) ⟨hlater, ?_⟩
        exact (KeyValueStorage.get_delete _ _ _).trans (if_pos rfl)

/-- A token that is gone is not verified. -/
theorem wp_verify_gone
    {others : String → Option (Credential → Except HttpError (Option ClaimSet))} {n : Nat}
    {s : NegotiatorState TokenState} (hgone : Gone services n s.tokens) :
    Async.Wp (EvolvesState services)
      (BaseNegotiator.onTokens (configuredVerifier services base others
        ⟨services.randomUUID n, REFRESH_TOKEN⟩)) (fun r _ => ∃ e, r = .error e) s := by
  have hread : services.lookup s.tokens (services.randomUUID n) = none := lookup_gone hgone
  unfold configuredVerifier IriVerifier.verify formatVerifier TypedVerifier.verify
  simp only [if_true]
  unfold RefreshTokenVerifier.verify
  simp only [ne_eq, not_true_eq_false, if_false]
  intro t ht
  rw [hread]
  exact ⟨_, rfl⟩

/-- The claims of a request that presents a token that is gone are refused. -/
theorem wp_processCredentials_gone
    {others : String → Option (Credential → Except HttpError (Option ClaimSet))}
    {strategy : TicketingStrategy} {n : Nat} {claims : List ClaimToken}
    (hclaim : ∃ claim ∈ claims,
      DialogInput.truthy claim.claimToken = some (services.randomUUID n) ∧
      DialogInput.truthy claim.claimTokenFormat = some REFRESH_TOKEN)
    (ticket : Ticket) {s : NegotiatorState TokenState} (hgone : Gone services n s.tokens) :
    Async.Wp (EvolvesState services) ((configuredNegotiator services base others
      strategy).processCredentials claims ticket) (fun r _ => ∃ e, r = .error e) s := by
  induction claims generalizing ticket s with
  | nil =>
    obtain ⟨claim, hmem, -⟩ := hclaim
    cases hmem
  | cons claim claims ih =>
    unfold BaseNegotiator.processCredentials
    split
    case _ token format htoken hformat =>
      by_cases hhere : token = services.randomUUID n ∧ format = REFRESH_TOKEN
      · obtain ⟨rfl, rfl⟩ := hhere
        refine Async.wp_bind (Async.wp_mono ?_ (wp_verify_gone hgone))
        rintro r t ⟨e, rfl⟩
        exact ⟨e, rfl⟩
      · have hlater : ∃ claim ∈ claims,
            DialogInput.truthy claim.claimToken = some (services.randomUUID n) ∧
            DialogInput.truthy claim.claimTokenFormat = some REFRESH_TOKEN := by
          obtain ⟨other, hmem, hother, hotherFormat⟩ := hclaim
          rcases List.mem_cons.mp hmem with rfl | hmem
          · rw [htoken] at hother
            rw [hformat] at hotherFormat
            exact absurd ⟨Option.some.inj hother, Option.some.inj hotherFormat⟩ hhere
          · exact ⟨other, hmem, hother, hotherFormat⟩
        refine Async.wp_bind (Async.wp_of_guarantees evolvesState_refl evolvesState_trans
          (evolves_of_shrinks (guarantees_onTokens (shrinks_verify _))) fun r t ht => ?_)
        cases r with
        | error e => exact ⟨e, rfl⟩
        | ok verified =>
          show Async.Wp _ (liftM (strategy.validateClaims ticket verified) >>= _) _ t
          cases strategy.validateClaims ticket verified with
          | error e => exact ⟨e, rfl⟩
          | ok ticket =>
            intro u hu
            exact ih hlater ticket (gone_later (evolvesState_trans ht hu) hgone)
    case _ => exact ⟨_, rfl⟩

/-- A request that presents a token that is gone fails. -/
theorem wp_presents_gone {request : TokenRequest} {n : Nat}
    (hpresents : request.Refreshes (services.randomUUID n) ∨
      request.Pushes (services.randomUUID n))
    {s : NegotiatorState TokenState} (hgone : Gone services n s.tokens) :
    Async.Wp (EvolvesState services) (request.handle services base) IsError s := by
  rcases hpresents with ⟨params, hgrant, hread⟩ | ⟨input, hgrant, hclaim⟩
  · simp only [TokenRequest.handle, hgrant, RefreshTokenHandler.handle]
    rw [hread]
    refine wp_get fun t ht => ?_
    rw [lookup_gone hgone]
    exact ⟨_, rfl⟩
  · simp only [TokenRequest.handle, hgrant]
    unfold BaseNegotiator.negotiate
    cases DialogInput.assertion input with
    | error message => exact ⟨_, rfl⟩
    | ok u =>
      refine Async.wp_bind (Async.wp_of_guarantees evolvesState_refl evolvesState_trans
        (evolves_of_shrinks (shrinks_getTicket _)) fun r t ht => ?_)
      cases r with
      | error e => exact ⟨e, rfl⟩
      | ok ticket =>
        refine Async.wp_bind (Async.wp_mono ?_ (wp_processCredentials_gone hclaim ticket
          (gone_later ht hgone)))
        rintro r v ⟨e, rfl⟩
        exact ⟨e, rfl⟩

/-! ## Nothing is answered before the first step -/

/-- The procedure does not succeed at once. -/
def Pending {σ ε α : Type} (p : Async σ ε α) : Prop := ∀ a, p ≠ .done (.ok a)

theorem pending_bind {σ ε α β : Type} {p : Async σ ε α} {f : α → Async σ ε β}
    (hf : ∀ a, Pending (f a)) : Pending (p >>= f) := by
  intro b h
  cases p with
  | done r =>
    cases r with
    | ok a => exact hf a b h
    | error e => cases h
  | act update next => cases h
  | pause next => cases h

theorem pending_handle (request : TokenRequest) : Pending (request.handle services base) := by
  unfold TokenRequest.handle
  cases request.grant with
  | refresh params =>
    refine pending_bind fun token => ?_
    intro output h
    cases h
  | negotiate input =>
    dsimp only
    unfold BaseNegotiator.negotiate
    cases DialogInput.assertion input with
    | error message =>
      intro output h
      cases h
    | ok u =>
      refine pending_bind fun ticket => pending_bind fun updated => pending_bind fun result => ?_
      intro output h
      cases h

/-! ## Safe runs -/

section

variable {ι : Type} {requests : ι → TokenRequest}

/-- The request `i` started when `j` had finished the token for good. -/
def Follows (services : TokenServices) (requests : ι → TokenRequest) (pool : TokenPool ι)
    (n : Nat) (i j : ι) : Prop :=
  pool.Succeeded j ∧ (requests j).Refreshes (services.randomUUID n) ∧
    Async.Awaits (EvolvesState services) (pool.processes i) IsError pool.state

def Exclusive (services : TokenServices) (requests : ι → TokenRequest) (pool : TokenPool ι)
    (n : Nat) (i j : ι) : Prop :=
  pool.Failed i ∨ pool.Failed j ∨ Follows services requests pool n i j ∨
    Follows services requests pool n j i

structure RefreshesOnce (services : TokenServices) (base : IriBase)
    (requests : ι → TokenRequest) (pool : TokenPool ι) : Prop where
  guard : ∀ i, Async.Guarantees (EvolvesState services) (pool.processes i)
  fresh : Fresh services pool.state.tokens
  waiting : ∀ i, ¬ pool.Started i → pool.processes i = (requests i).handle services base
  leaves : ∀ i n, (requests i).Refreshes (services.randomUUID n) →
    Async.Awaits (EvolvesState services) (pool.processes i) (LeavesGone services n) pool.state
  exclusive : ∀ n i j, i ≠ j → Uses requests (services.randomUUID n) i →
    Uses requests (services.randomUUID n) j → pool.Started i → pool.Started j →
      Exclusive services requests pool n i j

theorem leavesGone_stable (n : Nat) (r : Except HttpError DialogOutput)
    (s t : NegotiatorState TokenState) (h : EvolvesState services s t)
    (hr : LeavesGone services n r s) : LeavesGone services n r t :=
  fun output hok => gone_later h (hr output hok)

theorem isError_stable (r : Except HttpError DialogOutput) (s t : NegotiatorState TokenState)
    (_ : EvolvesState services s t) (hr : IsError r s) : IsError r t := hr

theorem refreshesOnce_start {s : NegotiatorState TokenState} (hfresh : Fresh services s.tokens) :
    RefreshesOnce services base requests (TokenPool.start services base requests s) where
  guard i := evolves_handle (requests i)
  fresh := hfresh
  waiting _ _ := rfl
  leaves _ _ hrefresh := fun _ ht => wp_refresh hrefresh (ht.fresh hfresh)
  exclusive _ _ _ _ _ _ hi _ := absurd rfl hi

variable {pool : TokenPool ι}

theorem Exclusive.symm {n : Nat} {i j : ι} (h : Exclusive services requests pool n i j) :
    Exclusive services requests pool n j i := by
  rcases h with hi | hj | hij | hji
  · exact Or.inr (Or.inl hi)
  · exact Or.inl hj
  · exact Or.inr (Or.inr (Or.inr hij))
  · exact Or.inr (Or.inr (Or.inl hji))

/-- In a pool that keeps the invariant no token counts twice. -/
theorem RefreshesOnce.singleUse (h : RefreshesOnce services base requests pool) :
    pool.SingleUse services requests := by
  rintro n i j hij hi hj ⟨⟨output, hiDone⟩, ⟨output', hjDone⟩⟩
  have hstarted : ∀ k output, pool.processes k = .done (.ok output) → pool.Started k := by
    intro k output hdone
    by_contra hk
    rw [h.waiting k hk] at hdone
    exact pending_handle (requests k) output hdone
  have herror : ∀ k output, pool.processes k = .done (.ok output) →
      ¬ Async.Awaits (EvolvesState services) (pool.processes k) IsError pool.state := by
    intro k output hdone hawaits
    rw [hdone] at hawaits
    obtain ⟨e, he⟩ := hawaits pool.state (evolvesState_refl _)
    cases he
  rcases h.exclusive n i j hij hi hj (hstarted i output hiDone) (hstarted j output' hjDone) with
    ⟨e, hfailed⟩ | ⟨e, hfailed⟩ | hfollows | hfollows
  · rw [hiDone] at hfailed
    cases hfailed
  · rw [hjDone] at hfailed
    cases hfailed
  · exact herror i output hiDone hfollows.2.2
  · exact herror j output' hjDone hfollows.2.2

variable [DecidableEq ι]

theorem started_of_step {i k : ι} (h : TokenPool.Started (pool.step k) i) :
    pool.Started i ∨ i = k := by
  by_cases hi : i = k
  · exact Or.inr hi
  · refine Or.inl fun hempty => h ?_
    simp only [Pool.step, Function.update_of_ne hi]
    exact hempty

theorem started_step (k : ι) : TokenPool.Started (pool.step k) k := by
  intro hempty
  simp only [Pool.step, Function.update_self] at hempty
  cases hlist : pool.seen k with
  | nil =>
    rw [hlist] at hempty
    cases hempty
  | cons s seen =>
    rw [hlist] at hempty
    cases hempty

theorem follows_step (h : RefreshesOnce services base requests pool) {n : Nat} {i j : ι}
    (hfollows : Follows services requests pool n i j) (k : ι) :
    Follows services requests (pool.step k) n i j := by
  obtain ⟨⟨output, hdone⟩, hrefreshes, hawaits⟩ := hfollows
  refine ⟨⟨output, Pool.done_step hdone k⟩, hrefreshes, ?_⟩
  exact Pool.awaits_step evolvesState_refl evolvesState_trans h.guard isError_stable hawaits k

theorem exclusive_step (h : RefreshesOnce services base requests pool) {n : Nat} {i j : ι}
    (hexclusive : Exclusive services requests pool n i j) (k : ι) :
    Exclusive services requests (pool.step k) n i j := by
  rcases hexclusive with ⟨e, hi⟩ | ⟨e, hj⟩ | hij | hji
  · exact Or.inl ⟨e, Pool.done_step hi k⟩
  · exact Or.inr (Or.inl ⟨e, Pool.done_step hj k⟩)
  · exact Or.inr (Or.inr (Or.inl (follows_step h hij k)))
  · exact Or.inr (Or.inr (Or.inr (follows_step h hji k)))

/-- A request that starts in a safe step fails, or what used its token before
failed. -/
theorem exclusive_first (h : RefreshesOnce services base requests pool) {k j : ι}
    (hsafe : pool.SafeStep services requests k) {n : Nat} (hjk : j ≠ k)
    (hk : ¬ pool.Started k) (hj : pool.Started j)
    (huses : Uses requests (services.randomUUID n) k)
    (husesOther : Uses requests (services.randomUUID n) j) :
    Exclusive services requests (pool.step k) n k j := by
  rcases hsafe hk n j hjk huses husesOther hj with
    ⟨e, hfailed⟩ | ⟨⟨output, hdone⟩, hrefreshes, hpresents⟩
  · exact Or.inr (Or.inl ⟨e, Pool.done_step hfailed k⟩)
  · have hgone : Gone services n pool.state.tokens := by
      have hleaves := h.leaves j n hrefreshes pool.state (evolvesState_refl _)
      rw [hdone] at hleaves
      exact hleaves output rfl
    have hawaits : Async.Awaits (EvolvesState services) (pool.processes k) IsError
        pool.state := by
      rw [h.waiting k hk]
      exact fun t ht => wp_presents_gone hpresents (gone_later ht hgone)
    exact Or.inr (Or.inr (Or.inl (follows_step h ⟨⟨output, hdone⟩, hrefreshes, hawaits⟩ k)))

theorem refreshesOnce_step (h : RefreshesOnce services base requests pool) {k : ι}
    (hsafe : pool.SafeStep services requests k) :
    RefreshesOnce services base requests (pool.step k) where
  guard := Pool.guarantees_step evolvesState_refl evolvesState_trans h.guard k
  fresh := (Pool.step_related evolvesState_refl evolvesState_trans h.guard k).fresh h.fresh
  waiting i hi := by
    have hne : i ≠ k := by
      rintro rfl
      exact hi (started_step i)
    have hseen : ¬ pool.Started i := by
      intro hstarted
      apply hi
      intro hempty
      simp only [Pool.step, Function.update_of_ne hne] at hempty
      exact hstarted hempty
    simp only [Pool.step, Function.update_of_ne hne]
    exact h.waiting i hseen
  leaves i n hrefreshes :=
    Pool.awaits_step evolvesState_refl evolvesState_trans h.guard (leavesGone_stable n)
      (h.leaves i n hrefreshes) k
  exclusive n i j hij hi hj hiStarted hjStarted := by
    by_cases hiBefore : pool.Started i
    · by_cases hjBefore : pool.Started j
      · exact exclusive_step h (h.exclusive n i j hij hi hj hiBefore hjBefore) k
      · have hjk : j = k := (started_of_step hjStarted).resolve_left hjBefore
        subst hjk
        exact (exclusive_first h hsafe hij hjBefore hiBefore hj hi).symm
    · have hik : i = k := (started_of_step hiStarted).resolve_left hiBefore
      subst hik
      have hjBefore : pool.Started j := (started_of_step hjStarted).resolve_right hij.symm
      exact exclusive_first h hsafe hij.symm hiBefore hjBefore hi hj

/-- In a safe run no refresh token counts for two requests that succeed. -/
theorem singleUse_of_safeRefreshes (services : TokenServices) (base : IriBase)
    (requests : ι → TokenRequest) (s : NegotiatorState TokenState)
    (hfresh : Fresh services s.tokens) (schedule : List ι)
    (hsafe : SafeRefreshes services base requests s schedule) :
    TokenPool.SingleUse (Pool.run (TokenPool.start services base requests s) schedule)
      services requests := by
  refine @RefreshesOnce.singleUse _ base _ requests _ ?_
  refine Pool.run_invariant (RefreshesOnce services base requests) (refreshesOnce_start hfresh) ?_
  intro before i later hsplit h
  exact refreshesOnce_step h (hsafe before i later hsplit)

end

/-! ## Taking turns -/

section

variable {ι : Type} [DecidableEq ι] {requests : ι → TokenRequest} {s : NegotiatorState TokenState}

theorem safeRefreshes_nil : SafeRefreshes services base requests s [] := by
  intro before i later hsplit
  cases before <;> cases hsplit

theorem safeRefreshes_concat {schedule : List ι} {k : ι}
    (h : SafeRefreshes services base requests s schedule)
    (hstep : TokenPool.SafeStep (Pool.run (TokenPool.start services base requests s) schedule)
      services requests k) : SafeRefreshes services base requests s (schedule ++ [k]) := by
  intro before i later hsplit
  rcases List.eq_nil_or_concat' later with rfl | ⟨later, last, rfl⟩
  · obtain ⟨rfl, hlast⟩ := List.append_inj' hsplit rfl
    cases hlast
    exact hstep
  · have hassoc : before ++ i :: (later ++ [last]) = (before ++ i :: later) ++ [last] := by simp
    rw [hassoc] at hsplit
    exact h before i later (List.append_inj' hsplit rfl).1

/-- A request that starts in a safe step runs on. -/
theorem safeRefreshes_turn {schedule : List ι} {k : ι}
    (h : SafeRefreshes services base requests s schedule)
    (hstep : TokenPool.SafeStep (Pool.run (TokenPool.start services base requests s) schedule)
      services requests k) (steps : Nat) :
    SafeRefreshes services base requests s (schedule ++ List.replicate steps k) := by
  induction steps with
  | zero => simpa using h
  | succ steps ih =>
    rw [List.replicate_succ', ← List.append_assoc]
    refine safeRefreshes_concat ih ?_
    cases steps with
    | zero => simpa using hstep
    | succ steps =>
      intro hwaiting
      refine absurd ?_ hwaiting
      rw [List.replicate_succ', ← List.append_assoc, Pool.run_append]
      exact started_step k

end

/-! ## Alice's token, used once and replayed -/

/-- Without a ticket, only what a request presents counts for it. -/
theorem not_sharesTicket {request other : TokenRequest} (h : ∀ id, ¬ request.HasTicket id)
    (hother : ∀ id, ¬ other.HasTicket id) : ¬ request.SharesTicket other := by
  rintro (hcontinues | hcontinues | ⟨id, hticket, -⟩)
  · exact h _ hcontinues
  · exact hother _ hcontinues
  · exact h id hticket

/-- Alice refreshes twice with the same token. -/
def refreshTwice (i : Fin 3) : TokenRequest := if i = 0 then albumRequest else albumRefresh

theorem refreshTwice_no_ticket (i : Fin 3) (id : String) : ¬ (refreshTwice i).HasTicket id := by
  rintro ⟨input, hgrant, hticket⟩
  unfold refreshTwice at hgrant
  split at hgrant
  · injection hgrant with hinput
    subst hinput
    have hnone : (DialogInput.ofJson (albumDialog "http://example.org/alice")).ticket = none := by
      decide +kernel
    rw [hnone] at hticket
    cases hticket
  · cases hgrant

/-- The request for the album presents no refresh token, -/
theorem not_uses_album (token : String) : ¬ Uses refreshTwice token 0 := by
  intro h
  cases h with
  | refreshes h =>
    obtain ⟨params, hgrant, -⟩ := h
    cases hgrant
  | pushes h =>
    obtain ⟨input, hgrant, claim, hmem, -, hformat⟩ := h
    injection hgrant with hinput
    subst hinput
    have hall : ∀ claim ∈ (DialogInput.ofJson (albumDialog
        "http://example.org/alice")).claimTokens,
        DialogInput.truthy claim.claimTokenFormat ≠ some REFRESH_TOKEN := by decide +kernel
    exact hall claim hmem hformat
  | shares h _ =>
    exact not_sharesTicket (refreshTwice_no_ticket 0) (refreshTwice_no_ticket _) h

/-- and the refresh presents it for the refresh grant. -/
theorem refreshes_of_uses_album {i : Fin 3} (hi : i ≠ 0) {token : String}
    (h : Uses refreshTwice token i) : (refreshTwice i).Refreshes token := by
  have hrequest : refreshTwice i = albumRefresh := if_neg hi
  cases h with
  | refreshes h => exact h
  | pushes h =>
    obtain ⟨input, hgrant, -⟩ := h
    rw [hrequest] at hgrant
    cases hgrant
  | shares h _ =>
    exact absurd h (not_sharesTicket (refreshTwice_no_ticket i) (refreshTwice_no_ticket _))

def refreshTwicePool : List (Fin 3) → TokenPool (Fin 3) :=
  Pool.run (TokenPool.start TokenServices.plain IriBase.plain refreshTwice noTokens)

def isSucceeded (pool : TokenPool (Fin 3)) (i : Fin 3) : Bool :=
  match pool.processes i with
  | .done (.ok _) => true
  | _ => false

theorem succeeded_of_eq_true {pool : TokenPool (Fin 3)} {i : Fin 3}
    (h : isSucceeded pool i = true) : pool.Succeeded i := by
  unfold isSucceeded at h
  split at h
  case _ output hdone => exact ⟨output, hdone⟩
  case _ => cases h

theorem fresh_noTokens : Fresh TokenServices.plain noTokens.tokens := fun _ _ => rfl

/-- One after the other, the second refresh fails. -/
theorem refreshTwice_singleUse : TokenPool.SingleUse
    (refreshTwicePool (List.replicate 20 0 ++ List.replicate 20 1 ++ List.replicate 20 2))
      TokenServices.plain refreshTwice := by
  refine singleUse_of_safeRefreshes TokenServices.plain IriBase.plain refreshTwice noTokens
    fresh_noTokens _ (safeRefreshes_turn (safeRefreshes_turn ?_ ?_ 20) ?_ 20)
  · refine safeRefreshes_turn safeRefreshes_nil (k := 0) ?_ 20
    intro _ n j _ huses _ _
    exact absurd huses (not_uses_album _)
  · intro _ n j hj _ huses hstarted
    match j, hj with
    | 0, _ => exact absurd huses (not_uses_album _)
    | 2, _ =>
      have hwaiting : ((refreshTwicePool (List.replicate 20 0)).seen 2).isEmpty = true := by
        decide +kernel
      exact absurd (List.isEmpty_iff.mp hwaiting) hstarted
  · intro _ n j hj huses husesOther _
    match j, hj with
    | 0, _ => exact absurd husesOther (not_uses_album _)
    | 1, _ =>
      have hdone : isSucceeded (refreshTwicePool (List.replicate 20 0 ++ List.replicate 20 1)) 1 =
          true := by decide +kernel
      exact Or.inr ⟨succeeded_of_eq_true hdone,
        refreshes_of_uses_album (by decide) husesOther,
        Or.inl (refreshes_of_uses_album (by decide) huses)⟩

/-- The token pushed as a claim. -/
def replayRequest : TokenRequest where
  grant := .negotiate (.object [
    ("permissions", .array [Permission.toJson ⟨"album", ["urn:example:read"]⟩]),
    ("claim_token", .string "uu"), ("claim_token_format", .string REFRESH_TOKEN)])
  randomUUID := "ticket2"
  others := webIdFormat
  strategy := immediateAuthorizerStrategy AuthorizerTree.all.permissions false

def replays (i : Fin 3) : TokenRequest := if i = 0 then albumRequest else replayRequest

theorem pushes_replay : replayRequest.Pushes (TokenServices.plain.randomUUID 1) :=
  ⟨_, rfl, _, List.mem_cons_self, by decide +kernel, by decide +kernel⟩

/-- A token pushed as a claim twice counts twice. -/
theorem refresh_token_replayed :
    ¬ ∀ (ι : Type) [DecidableEq ι] (services : TokenServices) (base : IriBase)
      (requests : ι → TokenRequest) (s : NegotiatorState TokenState),
      Fresh services s.tokens → ∀ schedule : List ι,
        TokenPool.SingleUse (Pool.run (TokenPool.start services base requests s) schedule)
          services requests := by
  intro hclaim
  have hsingle := hclaim (Fin 3) TokenServices.plain IriBase.plain replays noTokens fresh_noTokens
    (List.replicate 20 0 ++ List.replicate 20 1 ++ List.replicate 20 2)
  refine hsingle 1 1 2 (by decide) (.pushes pushes_replay) (.pushes pushes_replay) ⟨?_, ?_⟩
  · exact succeeded_of_eq_true (by decide +kernel)
  · exact succeeded_of_eq_true (by decide +kernel)

end UserManagedAccess.Routes
