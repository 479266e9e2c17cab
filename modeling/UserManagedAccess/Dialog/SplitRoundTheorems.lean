/-
UserManagedAccess.Dialog.SplitRoundTheorems — when supplying claims over
several rounds ends like supplying all of them at once.

* `foldlM_pushClaim` — the claims of a round lead to the ticket they are
  `supplied` to;
* `rounds_granted` — a dialog ends like a last round on the ticket to which
  only the claims, but not the derivations, of the earlier rounds were added;
* `permissions_supplied_of_notRenamed` — without a renamed entry, what claims
  leave of a ticket is what they do not cover;
* `splitRounds_granted` — hence a dialog ends the same when the last round leaves
  what all claims leave, or nothing is granted anyway; without a renamed entry,
  the last round has to cover again what the earlier ones did.

The claims provided are the same in both cases, and so is what a ticket resolves
to, once its entries are.
-/
import UserManagedAccess.Dialog.SplitRounds

namespace UserManagedAccess.Dialog

open UserManagedAccess.Lib UserManagedAccess.Util UserManagedAccess.Views
open UserManagedAccess.Credentials UserManagedAccess.Ticketing UserManagedAccess.Tokens
open UserManagedAccess.Policies AggregatorStrategy

namespace DialogSetting

variable {setting : DialogSetting}

/-! ## The claims of a round -/

/-- The strategy leaves of a ticket what a claim does. -/
theorem validateClaims_eq_supply (ticket : Ticket) (claims : ClaimSet) :
    setting.strategy.validateClaims ticket claims =
      (derivedReadIds (claims.values ACCESS)).map fun readIds =>
        setting.supply ticket { claims, readIds } := by
  show validateClaims setting.ids (immediateAuthorizerStrategy setting.authorizer
    setting.allowPartialSuccess) ticket claims = _
  cases hread : derivedReadIds (claims.values ACCESS) with
  | error e =>
    unfold validateClaims
    rw [hread]
    rfl
  | ok readIds => exact validateClaims_ok.mpr ⟨readIds, hread, rfl⟩

/-- Pushing claims supplies the ticket with them. -/
theorem foldlM_pushClaim (ticket : Ticket) (claims : List ClaimToken) :
    claims.foldlM (PlainNegotiator.pushClaim setting.verify setting.strategy) ticket =
      (setting.readClaims claims).map (setting.supplied ticket) := by
  unfold readClaims
  induction claims generalizing ticket with
  | nil => rfl
  | cons claim claims ih =>
    rw [List.foldlM_cons, List.mapM_cons]
    cases hverify : PlainNegotiator.verifyClaim setting.verify claim with
    | error e => simp [PlainNegotiator.pushClaim, readClaim, hverify, bind, Except.bind, Except.map]
    | ok verified =>
      have hpush : PlainNegotiator.pushClaim setting.verify setting.strategy ticket claim =
          setting.strategy.validateClaims ticket verified := by
        simp [PlainNegotiator.pushClaim, hverify, bind, Except.bind]
      rw [hpush, validateClaims_eq_supply]
      cases hread : derivedReadIds (verified.values ACCESS) with
      | error e => simp [readClaim, hverify, hread, bind, Except.bind, Except.map]
      | ok readIds =>
        have hclaim : setting.readClaim claim = .ok { claims := verified, readIds } := by
          simp [readClaim, hverify, hread, bind, Except.bind, pure, Except.pure]
        refine (ih (setting.supply ticket { claims := verified, readIds })).trans ?_
        rw [hclaim]
        cases claims.mapM setting.readClaim with
        | error e => rfl
        | ok evidence => rfl

/-! ## What is provided, and what is left -/

theorem provided_supplied (ticket : Ticket) (evidence : List Evidence) :
    (setting.supplied ticket evidence).provided = (provideOnly ticket evidence).provided := by
  induction evidence generalizing ticket with
  | nil => rfl
  | cons e evidence ih => exact ih (setting.supply ticket e)

theorem derivedIds_supplied (ticket : Ticket) (evidence : List Evidence) :
    (setting.supplied ticket evidence).derivedIds = ticket.derivedIds := by
  induction evidence generalizing ticket with
  | nil => rfl
  | cons e evidence ih => exact ih (setting.supply ticket e)

/-- What is left of the entries does not depend on what was provided before. -/
theorem permissions_supplied_provided (ticket : Ticket) (provided : ClaimSet)
    (evidence : List Evidence) :
    (setting.supplied { ticket with provided } evidence).permissions =
      (setting.supplied ticket evidence).permissions := by
  induction evidence generalizing ticket provided with
  | nil => rfl
  | cons e evidence ih =>
    exact ih (setting.supply ticket e) (ImmediateAuthorizerStrategy.provide provided e.claims)

theorem provideOnly_append (ticket : Ticket) (first second : List Evidence) :
    provideOnly (provideOnly ticket first) second = provideOnly ticket (first ++ second) := by
  simp [provideOnly, List.foldl_append]

/-- The ticket of a last round is the one of all claims where they leave the same
entries. -/
theorem supplied_provideOnly {ticket : Ticket} {evidence more : List Evidence}
    (h : (setting.supplied ticket more).permissions =
      (setting.supplied ticket (evidence ++ more)).permissions) :
    setting.supplied (provideOnly ticket evidence) more =
      setting.supplied ticket (evidence ++ more) := by
  have hpermissions : (setting.supplied (provideOnly ticket evidence) more).permissions =
      (setting.supplied ticket (evidence ++ more)).permissions :=
    (permissions_supplied_provided ticket _ more).trans h
  have hprovided : (setting.supplied (provideOnly ticket evidence) more).provided =
      (setting.supplied ticket (evidence ++ more)).provided := by
    rw [provided_supplied, provided_supplied, provideOnly_append]
  have hderived : (setting.supplied (provideOnly ticket evidence) more).derivedIds =
      (setting.supplied ticket (evidence ++ more)).derivedIds := by
    rw [derivedIds_supplied, derivedIds_supplied]
    rfl
  revert hpermissions hprovided hderived
  generalize setting.supplied (provideOnly ticket evidence) more = first
  generalize setting.supplied ticket (evidence ++ more) = second
  intro hpermissions hprovided hderived
  cases first
  cases second
  cases hpermissions
  cases hprovided
  cases hderived
  rfl

/-! ## One round -/

/-- What a ticket is granted with some more claims. -/
def resolvesTo (setting : DialogSetting) (ticket : Ticket) (claims : List ClaimToken) :
    Option (List Permission) :=
  match setting.readClaims claims with
  | .error _ => none
  | .ok evidence =>
    match setting.strategy.resolveTicket (setting.supplied ticket evidence) with
    | .ok (.success granted) => some granted
    | _ => none

section

variable {round : Round} {id : String} {s : NegotiatorState Unit} {ticket : Ticket}

theorem granted_negotiate (huses : round.Uses id)
    (hstored : s.ticketStore.get id = some ticket) :
    setting.grantedPermissions (setting.negotiate round s).1 =
      setting.resolvesTo ticket round.claimTokens := by
  unfold negotiate
  rw [PlainNegotiator.run_negotiate huses.accepted huses.ticket hstored, foldlM_pushClaim]
  unfold resolvesTo Round.claimTokens
  cases setting.readClaims (DialogInput.ofJson round.input).claimTokens with
  | error e => rfl
  | ok evidence =>
    simp only [Except.map]
    rcases setting.strategy.resolveTicket (setting.supplied ticket evidence) with e | result
    · rfl
    cases result with
    | success granted =>
      exact setting.codec.permissions_deserialize
        (BaseNegotiator.mintedToken (setting.supplied ticket evidence) granted)
    | failure requirements =>
      simp only [PlainNegotiator.ending]
      split <;> rfl

/-- A round that asks for more keeps the claims. -/
theorem stored_of_needInfo (huses : round.Uses id) (hstored : s.ticketStore.get id = some ticket)
    {message next : String} {requirements : List RequiredClaim}
    {s' : NegotiatorState Unit}
    (hrun : setting.negotiate round s = (.error (.needInfo message next requirements), s'))
    (hfresh : s.ticketStore.get next = none) (hnext : (s'.ticketStore.get next).isSome) :
    ∃ evidence, setting.readClaims round.claimTokens = .ok evidence ∧
      s'.ticketStore.get next = some (provideOnly ticket evidence) := by
  -- an error of the verifier or the authorizer leaves no ticket
  have hthrown : ∀ e, (Except.error e, PlainNegotiator.taken s id) ≠
      ((Except.error (.needInfo message next requirements) : Except HttpError DialogOutput),
        s') := by
    intro e hsame
    injection hsame with _ hs
    rw [← hs] at hnext
    simp [PlainNegotiator.taken, KeyValueStorage.get_delete, hfresh] at hnext
  unfold negotiate at hrun
  rw [PlainNegotiator.run_negotiate huses.accepted huses.ticket hstored, foldlM_pushClaim]
    at hrun
  unfold Round.claimTokens
  cases hread : setting.readClaims (DialogInput.ofJson round.input).claimTokens with
  | error e =>
    rw [hread] at hrun
    exact absurd hrun (hthrown e)
  | ok evidence =>
    rw [hread] at hrun
    simp only [Except.map] at hrun
    refine ⟨evidence, rfl, ?_⟩
    rcases hresolve : setting.strategy.resolveTicket (setting.supplied ticket evidence) with e | result
    · rw [hresolve] at hrun
      exact absurd hrun (hthrown e)
    rw [hresolve] at hrun
    cases result with
    | success granted =>
      injection hrun with hanswer _
      cases hanswer
    | failure requirements' =>
      simp only [PlainNegotiator.ending] at hrun
      split at hrun
      · exact absurd hrun (hthrown _)
      · injection hrun with hanswer hs
        injection hanswer with hneed
        injection hneed with _ hnextEq _
        rw [← hs, ← hnextEq]
        simp [KeyValueStorage.get_set, provideOnly, provided_supplied]

end

/-! ## A dialog -/

def claimsOf (rounds : List Round) : List ClaimToken := rounds.flatMap Round.claimTokens

theorem readClaims_append (setting : DialogSetting) (first second : List ClaimToken) :
    setting.readClaims (first ++ second) = do
      let evidence ← setting.readClaims first
      let more ← setting.readClaims second
      return evidence ++ more := by
  unfold readClaims
  rw [List.mapM_append]

/-- A dialog ends as its last round does with the claims of the others
provided. -/
theorem rounds_granted {id : String} {s : NegotiatorState Unit} {rounds : List Round}
    {answer : Except HttpError DialogOutput} (hrounds : setting.Rounds id s rounds answer)
    {ticket : Ticket} (hstored : s.ticketStore.get id = some ticket) {earlier : List Round} {last : Round}
    (hsplit : rounds = earlier ++ [last]) :
    ∃ evidence, setting.readClaims (claimsOf earlier) = .ok evidence ∧
      setting.grantedPermissions answer =
        setting.resolvesTo (provideOnly ticket evidence) last.claimTokens := by
  induction hrounds generalizing ticket earlier with
  | last huses =>
    cases earlier with
    | nil =>
      injection hsplit with hlast _
      subst hlast
      exact ⟨[], rfl, granted_negotiate huses hstored⟩
    | cons first earlier =>
      injection hsplit with _ hnil
      exact absurd hnil.symm (by simp)
  | @next id s round message next requirements s' rounds answer huses hrun hfresh hnext hrest
      ih =>
    obtain ⟨evidence, hread, hget⟩ := stored_of_needInfo huses hstored hrun hfresh hnext
    cases earlier with
    | nil =>
      injection hsplit with _ hnil
      subst hnil
      cases hrest
    | cons first earlier =>
      injection hsplit with hround hsplit
      subst hround
      obtain ⟨more, hmore, hgranted⟩ := ih hget hsplit
      refine ⟨evidence ++ more, ?_, ?_⟩
      · have hclaims : claimsOf (round :: earlier) = round.claimTokens ++ claimsOf earlier := rfl
        rw [hclaims, readClaims_append, hread, hmore]
        rfl
      · rw [hgranted, provideOnly_append]

/-! ## Covered requirements -/

theorem covers_iff {claims : List ClaimToken} {evidence : List Evidence}
    (hread : setting.readClaims claims = .ok evidence) {id : String} :
    setting.Covers claims id ↔ id ∈ evidence.flatMap Evidence.readIds := by
  unfold readClaims at hread
  induction claims generalizing evidence with
  | nil =>
    injection hread with hread
    subst hread
    simp [Covers]
  | cons claim claims ih =>
    rw [List.mapM_cons, Except.bind_eq_ok] at hread
    obtain ⟨e, hclaim, hread⟩ := hread
    rw [Except.bind_eq_ok] at hread
    obtain ⟨rest, hrest, hread⟩ := hread
    injection hread with hread
    subst hread
    have hfirst : (∃ verified, PlainNegotiator.verifyClaim setting.verify claim = .ok verified ∧
        GrantsDerivationRead verified id) ↔ id ∈ e.readIds := by
      unfold readClaim at hclaim
      rw [Except.bind_eq_ok] at hclaim
      obtain ⟨verified, hverified, hclaim⟩ := hclaim
      rw [Except.bind_eq_ok] at hclaim
      obtain ⟨readIds, hids, hclaim⟩ := hclaim
      injection hclaim with hclaim
      subst hclaim
      rw [hverified]
      simp only [Except.ok.injEq, exists_eq_left']
      exact (mem_derivedReadIds hids).symm
    unfold Covers
    rw [List.exists_mem_cons_iff, hfirst, List.flatMap_cons, List.mem_append]
    exact or_congr Iff.rfl (ih hrest)

/-- A strategy that succeeds has nothing outstanding, and the authorizer grants
the rest. -/
theorem strategy_success {ticket : Ticket} :
    (∃ granted, setting.strategy.resolveTicket ticket = .ok (.success granted)) ↔
      ¬ Outstanding ticket ∧
      ∃ granted, setting.authorizer ticket.provided
          (fullQuery (decodeIds setting.ids ticket).1.permissions) = .ok granted ∧
        (pairs granted).Nonempty ∧
        (setting.allowPartialSuccess = true ∨
          pairs (decodeIds setting.ids ticket).1.permissions ⊆ pairs granted) := by
  have hstrategy : setting.strategy.resolveTicket ticket =
      resolveTicket setting.ids (immediateAuthorizerStrategy setting.authorizer
        setting.allowPartialSuccess) setting.derivationStore ticket := rfl
  simp only [hstrategy, resolveTicket_success]
  constructor
  · rintro ⟨value, hout, results, hresolve, -⟩
    obtain ⟨granted, hauthorizer, -, hnonempty, hall⟩ :=
      ImmediateAuthorizerStrategy.resolveTicket_success.mp hresolve
    exact ⟨hout, granted, hauthorizer, hnonempty, hall⟩
  · rintro ⟨hout, granted, hauthorizer, hnonempty, hall⟩
    exact ⟨_, hout, _, ImmediateAuthorizerStrategy.resolveTicket_success.mpr
      ⟨granted, hauthorizer, rfl, hnonempty, hall⟩, rfl⟩

theorem resolvesTo_of_ok {ticket : Ticket} {claims : List ClaimToken} {evidence : List Evidence}
    (hread : setting.readClaims claims = .ok evidence) (granted : List Permission) :
    setting.resolvesTo ticket claims = some granted ↔
      setting.strategy.resolveTicket (setting.supplied ticket evidence) = .ok (.success granted) := by
  unfold resolvesTo
  rw [hread]
  dsimp only
  rcases setting.strategy.resolveTicket (setting.supplied ticket evidence) with e | result
  · simp
  · cases result <;> simp

theorem resolvesTo_isSome {ticket : Ticket} {claims : List ClaimToken} :
    (setting.resolvesTo ticket claims).isSome ↔ setting.GrantsAll ticket claims := by
  rw [Option.isSome_iff_exists]
  cases hread : setting.readClaims claims with
  | error e => simp [resolvesTo, GrantsAll, hread]
  | ok evidence =>
    simp only [resolvesTo_of_ok hread, strategy_success, GrantsAll, hread, Except.ok.injEq,
      exists_eq_left']

/-! ## Tickets without renamed entries -/

/-- What was kept for some identifiers is kept for more. -/
theorem keptTicket_keptTicket (ticket : Ticket) (first second : List String) :
    keptTicket (keptTicket ticket first) second = keptTicket ticket (first ++ second) := by
  have hremove : ∀ p, (removeDerivationRead ticket first p).bind
      (removeDerivationRead (keptTicket ticket first) second) =
        removeDerivationRead ticket (first ++ second) p := by
    intro p
    have hsame : removeDerivationRead (keptTicket ticket first) second =
        removeDerivationRead ticket second := rfl
    rw [hsame]
    simp only [removeDerivationRead, List.mem_append]
    by_cases hd : ticket.isDerived p.resourceId = true
    · by_cases hr : hasDerivationRead p.resourceScopes = true
      · by_cases hf : p.resourceId ∈ first
        · simp only [hd, hr, hf, and_self, true_or, if_true]
          split
          · simp [removeDerivationRead, hasDerivationRead]
          · rfl
        · simp [removeDerivationRead, hd, hr, hf]
      · simp [removeDerivationRead, hr]
    · simp [removeDerivationRead, hd]
  have hpermissions : (ticket.permissions.filterMap (removeDerivationRead ticket first)).filterMap
      (removeDerivationRead (keptTicket ticket first) second) =
        ticket.permissions.filterMap (removeDerivationRead ticket (first ++ second)) := by
    rw [List.filterMap_filterMap]
    congr 1
    funext p
    exact hremove p
  exact congrArg (fun permissions => { ticket with permissions }) hpermissions

/-- Where no entry is renamed, claims only remove requirements. -/
theorem supply_of_notRenamed {ticket : Ticket} (h : setting.NotRenamed ticket) (e : Evidence) :
    setting.supply ticket e =
      { keptTicket ticket e.readIds with
        provided := ImmediateAuthorizerStrategy.provide ticket.provided e.claims } := by
  have hsame : (keptTicket ticket e.readIds).permissions.map
      (roundTrip setting.ids (keptTicket ticket e.readIds)) =
        (keptTicket ticket e.readIds).permissions := by
    conv_rhs => rw [← List.map_id (keptTicket ticket e.readIds).permissions]
    exact List.map_congr_left fun p hp => roundTrip_eq_self_iff.mpr
      (encodedId_eq_self (h.1.keptTicket e.readIds) (h.2.keptTicket e.readIds) hp)
  unfold supply
  rw [hsame]
  rfl

theorem permissions_supplied_of_notRenamed {ticket : Ticket} (h : setting.NotRenamed ticket)
    (evidence : List Evidence) :
    (setting.supplied ticket evidence).permissions =
      (keptTicket ticket (evidence.flatMap Evidence.readIds)).permissions := by
  induction evidence generalizing ticket with
  | nil =>
    refine (List.filterMap_some.symm.trans ?_)
    refine List.filterMap_congr fun p _ => ?_
    exact (removeDerivationRead_of_uncovered fun hboth => List.not_mem_nil hboth.2).symm
  | cons e evidence ih =>
    have hkept : setting.NotRenamed (keptTicket ticket e.readIds) :=
      ⟨h.1.keptTicket e.readIds, h.2.keptTicket e.readIds⟩
    have hrest := ih hkept
    rw [keptTicket_keptTicket] at hrest
    refine Eq.trans ?_ hrest
    have hstep : setting.supplied ticket (e :: evidence) =
        setting.supplied (setting.supply ticket e) evidence := rfl
    rw [hstep, supply_of_notRenamed h, permissions_supplied_provided]

/-- A requirement that only the earlier rounds cover is outstanding. -/
theorem outstanding_of_not_coversAgain {ticket : Ticket} (hnames : setting.NotRenamed ticket)
    {earlier last : List ClaimToken} {evidence more : List Evidence}
    (hlast : setting.readClaims last = .ok more)
    (h : ¬ setting.CoversAgain ticket earlier last) :
    Outstanding (setting.supplied (provideOnly ticket evidence) more) := by
  simp only [CoversAgain, not_forall] at h
  obtain ⟨p, hp, hderived, hread, -, huncovered⟩ := h
  rw [covers_iff hlast] at huncovered
  refine ⟨p, ?_, ?_, hread⟩
  · rw [provideOnly, permissions_supplied_provided, permissions_supplied_of_notRenamed hnames]
    exact mem_keptTicket.mpr ⟨p, hp, removeDerivationRead_of_uncovered fun hboth =>
      huncovered hboth.2⟩
  · unfold Ticket.isDerived
    rw [derivedIds_supplied]
    exact hderived

/-- Where the last round covers everything again, nothing of the earlier ones
is missing. -/
theorem leavesAlike_of_coversAgain {ticket : Ticket} (hnames : setting.NotRenamed ticket)
    {earlier last : List ClaimToken} (h : setting.CoversAgain ticket earlier last) :
    setting.LeavesAlike ticket earlier last := by
  intro evidence more hearlier hlast
  rw [permissions_supplied_of_notRenamed hnames, permissions_supplied_of_notRenamed hnames]
  refine List.filterMap_congr fun p hp => ?_
  unfold removeDerivationRead
  by_cases hderived : ticket.isDerived p.resourceId = true ∧
      hasDerivationRead p.resourceScopes = true
  · have hsame : p.resourceId ∈ more.flatMap Evidence.readIds ↔
        p.resourceId ∈ (evidence ++ more).flatMap Evidence.readIds := by
      rw [List.flatMap_append, List.mem_append]
      refine ⟨Or.inr, fun hmem => hmem.elim (fun hbefore => ?_) id⟩
      exact (covers_iff hlast).mp (h p hp hderived.1 hderived.2
        ((covers_iff hearlier).mpr hbefore))
    simp only [hsame]
  · have hnot : ∀ ids : List String, ¬ (ticket.isDerived p.resourceId = true ∧
        p.resourceId ∈ ids ∧ hasDerivationRead p.resourceScopes = true) :=
      fun ids hall => hderived ⟨hall.1, hall.2.2⟩
    rw [if_neg (hnot _), if_neg (hnot _)]

/-! ## The two ways to supply claims -/

section

variable {s : NegotiatorState Unit} {id : String} {ticket : Ticket} {earlier : List Round}
  {last atOnce : Round} {answer : Except HttpError DialogOutput}

/-- Both ways, as resolutions of a ticket. -/
theorem granted_both (hstored : s.ticketStore.get id = some ticket)
    (hrounds : setting.Rounds id s (earlier ++ [last]) answer) (huses : atOnce.Uses id)
    (hclaims : atOnce.claimTokens = claimsOf (earlier ++ [last])) :
    ∃ evidence, setting.readClaims (claimsOf earlier) = .ok evidence ∧
      setting.grantedPermissions answer =
        setting.resolvesTo (provideOnly ticket evidence) last.claimTokens ∧
      setting.grantedPermissions (setting.negotiate atOnce s).1 =
        setting.resolvesTo ticket (claimsOf earlier ++ last.claimTokens) := by
  obtain ⟨evidence, hearlier, hgranted⟩ := rounds_granted hrounds hstored rfl
  refine ⟨evidence, hearlier, hgranted, ?_⟩
  have hsplit : claimsOf (earlier ++ [last]) = claimsOf earlier ++ last.claimTokens := by
    simp [claimsOf]
  rw [granted_negotiate huses hstored, hclaims, hsplit]

/-- Claims that leave the same entries lead to the same. -/
theorem resolvesTo_of_leavesAlike {earlier last : List ClaimToken} {evidence : List Evidence}
    (hearlier : setting.readClaims earlier = .ok evidence)
    (h : setting.LeavesAlike ticket earlier last) :
    setting.resolvesTo (provideOnly ticket evidence) last =
      setting.resolvesTo ticket (earlier ++ last) := by
  have hread := readClaims_append setting earlier last
  rw [hearlier] at hread
  cases hlast : setting.readClaims last with
  | error e =>
    rw [hlast] at hread
    simp only [resolvesTo, hlast, hread, bind, Except.bind]
  | ok more =>
    rw [hlast] at hread
    have hread : setting.readClaims (earlier ++ last) = .ok (evidence ++ more) := hread
    simp only [resolvesTo, hlast, hread, supplied_provideOnly (h evidence more hearlier hlast)]

/-- Without a renamed entry, a requirement that only the earlier rounds cover is
in the way of the last one. -/
theorem not_grantsLast {earlier last : List ClaimToken} (hnames : setting.NotRenamed ticket)
    (h : ¬ setting.CoversAgain ticket earlier last) :
    ¬ setting.GrantsLast ticket earlier last := by
  rintro ⟨evidence, -, more, hlast, hout, -⟩
  exact hout (outstanding_of_not_coversAgain hnames hlast h)

end

/-- Over several rounds the claims lead to the same success or failure, with the
same permissions, as in one request, where the last round leaves of the entries of
the ticket what all claims leave, or its claims are not enough as all of them are
not. A ticket without a renamed entry leads to the same exactly when the last round
covers again every derivation that the earlier ones covered, or the claims are not
enough even together. -/
theorem splitRounds_granted (setting : DialogSetting) (s : NegotiatorState Unit) (id : String)
    (ticket : Ticket) (hstored : s.ticketStore.get id = some ticket)
    (earlier : List Round) (last : Round)
    (answer : Except HttpError DialogOutput)
    (hrounds : setting.Rounds id s (earlier ++ [last]) answer) (atOnce : Round)
    (huses : atOnce.Uses id) (hclaims : atOnce.claimTokens = claimsOf (earlier ++ [last])) :
    (setting.LeavesAlike ticket (claimsOf earlier) last.claimTokens ∨
        ¬ setting.GrantsLast ticket (claimsOf earlier) last.claimTokens ∧
          ¬ setting.GrantsAll ticket (claimsOf earlier ++ last.claimTokens) →
      setting.grantedPermissions answer =
        setting.grantedPermissions (setting.negotiate atOnce s).1) ∧
    (setting.NotRenamed ticket →
      (setting.grantedPermissions answer =
          setting.grantedPermissions (setting.negotiate atOnce s).1 ↔
        setting.CoversAgain ticket (claimsOf earlier) last.claimTokens ∨
          ¬ setting.GrantsAll ticket (claimsOf earlier ++ last.claimTokens))) := by
  obtain ⟨evidence, hearlier, hgranted, hatOnce⟩ := granted_both hstored hrounds huses hclaims
  have hnone : ¬ setting.GrantsLast ticket (claimsOf earlier) last.claimTokens →
      setting.resolvesTo (provideOnly ticket evidence) last.claimTokens = none := by
    intro hlast
    rw [← Option.not_isSome_iff_eq_none, resolvesTo_isSome]
    exact fun hall => hlast ⟨evidence, hearlier, hall⟩
  have hsame : setting.LeavesAlike ticket (claimsOf earlier) last.claimTokens ∨
        ¬ setting.GrantsLast ticket (claimsOf earlier) last.claimTokens ∧
          ¬ setting.GrantsAll ticket (claimsOf earlier ++ last.claimTokens) →
      setting.grantedPermissions answer =
        setting.grantedPermissions (setting.negotiate atOnce s).1 := by
    rw [hgranted, hatOnce]
    rintro (halike | ⟨hlast, hall⟩)
    · exact resolvesTo_of_leavesAlike hearlier halike
    · rw [← resolvesTo_isSome, Option.not_isSome_iff_eq_none] at hall
      rw [hnone hlast, hall]
  refine ⟨hsame, fun hnames => ⟨fun heq => ?_, ?_⟩⟩
  · refine or_iff_not_imp_left.mpr fun hcovers => ?_
    rw [hgranted, hatOnce, hnone (not_grantsLast hnames hcovers)] at heq
    rw [← resolvesTo_isSome, ← heq]
    simp
  · rintro (hcovers | hall)
    · exact hsame (.inl (leavesAlike_of_coversAgain hnames hcovers))
    · by_cases hcovers : setting.CoversAgain ticket (claimsOf earlier) last.claimTokens
      · exact hsame (.inl (leavesAlike_of_coversAgain hnames hcovers))
      · exact hsame (.inr ⟨not_grantsLast hnames hcovers, hall⟩)

/-! ## A report that is derived from two sources -/

/-- A verifier that takes a token for access to what it names. -/
def reportSetting : DialogSetting where
  verify credential := .ok (accessClaims [credential.token])
  codec := TokenCodec.spelled
  ids := .marked
  authorizer := allAuthorizer
  registrationStore := KeyValueStorage.empty
  derivationStore _ := some "https://as.example"

def reportTicket : Ticket where
  derivedIds := some ["one", "two"]
  permissions := [⟨"report", [ODRL.read.value]⟩, derivationReadOn "one", derivationReadOn "two"]
  provided := Dict.empty

def reportState : NegotiatorState Unit where
  ticketStore := KeyValueStorage.empty.set "ticket" reportTicket
  tokens := ()

/-- A round with access tokens for these sources. -/
def accessRound (ticket randomUUID : String) (sources : List String) : Round where
  input := .object [("ticket", .string ticket),
    ("claim_token", .array (sources.map fun source =>
      .object [("claim_token", .string source), ("claim_token_format", .string "access")]))]
  randomUUID

theorem reportTicket_notRenamed : reportSetting.NotRenamed reportTicket := by
  constructor
  · intro p _ q hq hid
    have hnone : ∀ q ∈ reportTicket.permissions,
        decodedId reportSetting.ids reportTicket q = none := by decide +kernel
    rw [hnone q hq] at hid
    cases hid
  · intro p hp hname
    have hown : ∀ p ∈ reportTicket.permissions,
        internalId reportSetting.ids reportTicket p ∉ inheritedProperties := by decide +kernel
    exact absurd hname (hown p hp)

/-- The ticket a round that failed hands out. -/
def handedOut : Except HttpError DialogOutput → Option String
  | .error (.needInfo _ ticket _) => some ticket
  | _ => none

theorem rounds_pair {setting : DialogSetting} {id ticket : String} {s : NegotiatorState Unit}
    {first second : Round} (hfirst : first.Uses id) (hsecond : second.Uses ticket)
    (hfresh : s.ticketStore.get ticket = none)
    (hout : handedOut (setting.negotiate first s).1 = some ticket)
    (hstored : ((setting.negotiate first s).2.ticketStore.get ticket).isSome) :
    setting.Rounds id s ([first] ++ [second])
      (setting.negotiate second (setting.negotiate first s).2).1 := by
  unfold handedOut at hout
  split at hout
  case h_1 answer message next requirements hanswer =>
    injection hout with hout
    subst hout
    exact .next hfirst (Prod.ext hanswer rfl) hfresh hstored (.last hsecond)
  case h_2 => cases hout

/-- The round after the one with access to the first source. -/
def afterOne (sources : List String) : Except HttpError DialogOutput :=
  (reportSetting.negotiate (accessRound "ticket2" "ticket3" sources)
    (reportSetting.negotiate (accessRound "ticket" "ticket2" ["one"]) reportState).2).1

theorem rounds_afterOne {sources : List String}
    (huses : (accessRound "ticket2" "ticket3" sources).Uses "ticket2") :
    reportSetting.Rounds "ticket" reportState
      ([accessRound "ticket" "ticket2" ["one"]] ++ [accessRound "ticket2" "ticket3" sources])
      (afterOne sources) :=
  rounds_pair ⟨by decide +kernel, by decide +kernel⟩ huses rfl (by decide +kernel)
    (by decide +kernel)

/-- With both tokens in the last round the report is granted as at once. -/
theorem report_granted :
    reportSetting.grantedPermissions (afterOne ["one", "two"]) =
      reportSetting.grantedPermissions
        (reportSetting.negotiate (accessRound "ticket" "ticket2" ["one", "one", "two"])
          reportState).1 := by
  refine ((splitRounds_granted reportSetting reportState "ticket" reportTicket rfl
    [accessRound "ticket" "ticket2" ["one"]]
    (accessRound "ticket2" "ticket3" ["one", "two"]) (afterOne ["one", "two"])
    (rounds_afterOne ⟨by decide +kernel, by decide +kernel⟩)
    (accessRound "ticket" "ticket2" ["one", "one", "two"])
    ⟨by decide +kernel, by decide +kernel⟩ rfl).2 reportTicket_notRenamed).mpr (Or.inl ?_)
  intro p _ _ _ hcovers
  obtain ⟨claim, hmem, hverified⟩ := hcovers
  refine ⟨claim, ?_, hverified⟩
  have hone : claimsOf [accessRound "ticket" "ticket2" ["one"]] =
      [{ claimToken := some "one", claimTokenFormat := some "access" }] := rfl
  rw [hone, List.mem_singleton] at hmem
  subst hmem
  exact List.mem_cons_self

/-- One token in each of two rounds: the second round has lost what the first
one showed. -/
theorem derivation_progress_lost :
    ¬ ∀ (setting : DialogSetting) (s : NegotiatorState Unit) (id : String) (ticket : Ticket),
      s.ticketStore.get id = some ticket → ∀ (rounds : List Round)
      (answer : Except HttpError DialogOutput), setting.Rounds id s rounds answer →
      ∀ atOnce : Round, atOnce.Uses id → atOnce.claimTokens = claimsOf rounds →
        setting.grantedPermissions answer =
          setting.grantedPermissions (setting.negotiate atOnce s).1 := by
  intro hclaim
  have hsame := hclaim reportSetting reportState "ticket" reportTicket rfl _ _
    (@rounds_afterOne ["two"] ⟨by decide +kernel, by decide +kernel⟩)
    (accessRound "ticket" "ticket2" ["one", "two"]) ⟨by decide +kernel, by decide +kernel⟩ rfl
  have hsplit : (reportSetting.grantedPermissions (afterOne ["two"])).isSome = false := by
    decide +kernel
  have hatOnce : (reportSetting.grantedPermissions (reportSetting.negotiate
      (accessRound "ticket" "ticket2" ["one", "two"]) reportState).1).isSome = true := by
    decide +kernel
  rw [hsame, hatOnce] at hsplit
  cases hsplit

end DialogSetting

end UserManagedAccess.Dialog
