/-
UserManagedAccess.Dialog.AggregatorNegotiatorTheorems — when a handed out
derivation identifier is backed by the token next to it.

The wrapper adds `derivation-creation` to the ticket and relies on the success
of the wrapped negotiation. That is enough when a success means that all of
the ticket was granted; with partial success it depends on the authorizer.

* `negotiate_derivation` — an answer with a derivation identifier stems from a
  stored ticket with one permission, whose negotiation succeeded;
* `LeftOut.not_derivationBacked`, `derivationBacked_of_granted` — the two cases;
* `derivationBacked_iff` — the identifier is backed exactly unless the authorizer
  leaves the scope out.

Of the encryption only that decoding undoes encoding is used. The tokens are read
back by the codec that wrote them; verifier, authorizer, tickets and claims are
arbitrary.
-/
import UserManagedAccess.Dialog.AggregatorNegotiator
import UserManagedAccess.Dialog.PlainNegotiator
import UserManagedAccess.Ticketing.Strategy.ImmediateAuthorizerStrategyTheorems
import UserManagedAccess.Util.AggregatorUtil

namespace UserManagedAccess.Dialog

open UserManagedAccess.Lib UserManagedAccess.Util UserManagedAccess.Views
open UserManagedAccess.Credentials UserManagedAccess.Ticketing UserManagedAccess.Tokens
open UserManagedAccess.Policies

/-! ## Claims over an immediate strategy -/

namespace PlainNegotiator

/-- The claims provided after some more were pushed. -/
def gather (verify : Credential → Except HttpError ClaimSet) (provided : ClaimSet)
    (claims : List ClaimToken) : Except HttpError ClaimSet :=
  claims.foldlM (fun provided claim => do
    let verified ← verifyClaim verify claim
    return ImmediateAuthorizerStrategy.provide provided verified) provided

/-- Pushing claims to an immediate strategy only changes what is provided. -/
theorem pushClaims_immediate (verify : Credential → Except HttpError ClaimSet)
    (authorizer : Authorizer) (allowPartialSuccess : Bool) (claims : List ClaimToken)
    (ticket : Ticket) :
    claims.foldlM (pushClaim verify (immediateAuthorizerStrategy authorizer allowPartialSuccess))
        ticket =
      (gather verify ticket.provided claims).map (fun provided => { ticket with provided }) := by
  unfold gather
  induction claims generalizing ticket with
  | nil => rfl
  | cons claim claims ih =>
    rw [List.foldlM_cons, List.foldlM_cons]
    rcases hverify : verifyClaim verify claim with e | verified
    · simp [pushClaim, hverify, bind, Except.bind, Except.map]
    · have hpush : pushClaim verify (immediateAuthorizerStrategy authorizer allowPartialSuccess)
          ticket claim = .ok { ticket with
            provided := ImmediateAuthorizerStrategy.provide ticket.provided verified } := by
        simp [pushClaim, hverify, bind, Except.bind, immediateAuthorizerStrategy,
          ImmediateAuthorizerStrategy.validateClaims]
      rw [hpush]
      exact ih _

/-- A negotiation on a stored ticket that ends in a token: the claims were
accepted, and the strategy resolved the ticket with all of them. -/
theorem negotiate_ok_immediate {verify : Credential → Except HttpError ClaimSet}
    {codec : TokenCodec} {authorizer : Authorizer} {allowPartialSuccess : Bool}
    {s s' : NegotiatorState Unit} {input : Json} {randomUUID id : String} {ticket : Ticket}
    {result : DialogOutput} (hid : (DialogInput.ofJson input).ticket = some id)
    (hstored : s.ticketStore.get id = some ticket)
    (hrun : ((plainNegotiator verify codec (immediateAuthorizerStrategy authorizer
      allowPartialSuccess)).negotiate randomUUID input).run s = (.ok result, s')) :
    ∃ provided granted, DialogInput.assertion input = .ok () ∧
      gather verify ticket.provided (DialogInput.ofJson input).claimTokens = .ok provided ∧
      ImmediateAuthorizerStrategy.resolveTicket authorizer allowPartialSuccess
        { ticket with provided } = .ok (.success granted) ∧
      result = output codec { ticket with provided } granted := by
  have haccepted : DialogInput.assertion input = .ok () := by
    cases hassert : DialogInput.assertion input with
    | error message =>
      unfold BaseNegotiator.negotiate at hrun
      rw [hassert] at hrun
      cases hrun
    | ok u => rfl
  rw [run_negotiate haccepted hid hstored, pushClaims_immediate] at hrun
  rcases hgather : gather verify ticket.provided (DialogInput.ofJson input).claimTokens
    with e | provided
  · rw [hgather] at hrun
    cases hrun
  rw [hgather] at hrun
  simp only [Except.map, immediateAuthorizerStrategy] at hrun
  rcases hresolve : ImmediateAuthorizerStrategy.resolveTicket authorizer allowPartialSuccess
    { ticket with provided } with e | resolved
  · rw [hresolve] at hrun
    cases hrun
  rw [hresolve] at hrun
  cases resolved with
  | success granted =>
    injection hrun with hrun
    injection hrun with hrun
    exact ⟨provided, granted, haccepted, rfl, hresolve, hrun.symm⟩
  | failure requirements =>
    simp only [ending] at hrun
    split at hrun
    · cases hrun
    · cases hrun

end PlainNegotiator

namespace AggregatorNegotiator

/-! ## The negotiation -/

/-- Over a `BaseNegotiator` with an immediate strategy. -/
def plainAggregator (verify : Credential → Except HttpError ClaimSet) (codec : TokenCodec)
    (authorizer : Authorizer) (allowPartialSuccess : Bool) (ids : AggregateIdCodec)
    (randomUUID iv : String) : AggregatorNegotiator Unit where
  negotiator := (plainNegotiator verify codec
    (immediateAuthorizerStrategy authorizer allowPartialSuccess)).negotiate randomUUID
  encodeAggregateId := ids.encodeAggregateId iv

/-- A derivation identifier in the answer is that of a resource the token in
the answer grants `derivation-creation` on. -/
def DerivationBacked (codec : TokenCodec) (ids : AggregateIdCodec)
    (answer : Except HttpError DialogOutput) : Prop :=
  ∀ output derivationId, answer = .ok output →
    output.derivationResourceId = some derivationId →
      ∃ id token, ids.decodeAggregateId derivationId = some id ∧
        codec.deserialize output.accessToken = some token ∧
        (id, UmaScopes.derivationCreation) ∈ pairs token.permissions

/-- A derivation-creation request for which the authorizer grants something,
but not that. -/
structure LeftOut (verify : Credential → Except HttpError ClaimSet) (authorizer : Authorizer)
    (s : NegotiatorState Unit) (input : Json) (ticket : Ticket) (permission : Permission)
    (provided : ClaimSet) (granted : List Permission) : Prop where
  accepted : DialogInput.assertion input = .ok ()
  requested : UmaScopes.derivationCreation ∈ requestedScopes input
  stored : ∃ id, (DialogInput.ofJson input).ticket = some id ∧
    s.ticketStore.get id = some ticket
  single : ticket.permissions = [permission]
  gathered : PlainNegotiator.gather verify ticket.provided (DialogInput.ofJson input).claimTokens =
    .ok provided
  answered : authorizer provided
    (fullQuery (withDerivationCreation ticket permission).permissions) = .ok granted
  nonempty : (pairs granted).Nonempty
  leftOut : (permission.resourceId, UmaScopes.derivationCreation) ∉ pairs granted

section

variable {verify : Credential → Except HttpError ClaimSet} {codec : TokenCodec}
  {authorizer : Authorizer} {allowPartialSuccess : Bool} {ids : AggregateIdCodec}
  {randomUUID iv : String} {s : NegotiatorState Unit} {input : Json}

/-- The wrapped negotiation hands out no derivation identifiers. -/
theorem derivationResourceId_negotiate {τ : Type} {negotiator : BaseNegotiator τ}
    {s s' : NegotiatorState τ} {output : DialogOutput}
    (hrun : (negotiator.negotiate randomUUID input).run s = (.ok output, s')) :
    output.derivationResourceId = none := by
  unfold BaseNegotiator.negotiate at hrun
  cases hassert : DialogInput.assertion input with
  | error message =>
    rw [hassert] at hrun
    cases hrun
  | ok u =>
    rw [hassert] at hrun
    obtain ⟨ticket, s₁, -, hrun⟩ := Async.run_bind_ok hrun
    obtain ⟨updated, s₂, -, hrun⟩ := Async.run_bind_ok hrun
    obtain ⟨result, s₃, -, hrun⟩ := Async.run_bind_ok hrun
    obtain ⟨-, s₄, -, hrun⟩ := Async.run_bind_ok hrun
    cases result with
    | success granted =>
      obtain ⟨serialized, s₅, -, hrun⟩ := Async.run_bind_ok hrun
      obtain ⟨refreshToken, s₆, -, hrun⟩ := Async.run_bind_ok hrun
      injection hrun with hrun
      injection hrun with hrun
      rw [← hrun]
    | failure requirements =>
      simp only [BaseNegotiator.denyRequest] at hrun
      split at hrun
      · cases hrun
      · cases hrun

/-- The ticket of the request, as it is stored. -/
theorem getTicket_ok {τ : Type} {s s' : NegotiatorState τ} {id : String} {ticket : Ticket}
    (hrun : (getTicket input).run s = (.ok (id, ticket), s')) :
    s' = s ∧ (DialogInput.ofJson input).ticket = some id ∧
      s.ticketStore.get id = some ticket := by
  unfold getTicket at hrun
  cases hticket : (DialogInput.ofJson input).ticket with
  | none =>
    rw [hticket] at hrun
    cases hrun
  | some requested =>
    rw [hticket] at hrun
    rw [Async.run_bind_of_ok (Async.run_get s), Async.run_bind_of_ok (Async.run_yield s)] at hrun
    cases hget : s.ticketStore.get requested with
    | none =>
      rw [hget] at hrun
      cases hrun
    | some stored =>
      rw [hget] at hrun
      injection hrun with hout hs
      injection hout with hout
      injection hout with hid hstored
      subst hs hid hstored
      exact ⟨rfl, rfl, hget⟩

/-- An answer with a derivation identifier comes from a stored ticket with one
permission, whose negotiation succeeded. -/
theorem negotiate_derivation {output : DialogOutput} {derivationId : String}
    {s' : NegotiatorState Unit}
    (hrun : ((plainAggregator verify codec authorizer allowPartialSuccess ids randomUUID
      iv).negotiate input).run s = (.ok output, s'))
    (hid : output.derivationResourceId = some derivationId) :
    ∃ id ticket permission inner s₁ s₂, UmaScopes.derivationCreation ∈ requestedScopes input ∧
      (DialogInput.ofJson input).ticket = some id ∧ s.ticketStore.get id = some ticket ∧
      ticket.permissions = [permission] ∧
      s₁.ticketStore.get id = some (withDerivationCreation ticket permission) ∧
      ((plainNegotiator verify codec (immediateAuthorizerStrategy authorizer
        allowPartialSuccess)).negotiate randomUUID input).run s₁ = (.ok inner, s₂) ∧
      output = { inner with derivationResourceId := some derivationId } ∧
      derivationId = ids.encodeAggregateId iv permission.resourceId := by
  unfold negotiate at hrun
  by_cases hscope : (requestedScopes input).contains UmaScopes.derivationCreation
  · rw [if_pos hscope] at hrun
    obtain ⟨⟨id, ticket⟩, s₀, hget, hbody⟩ := Async.run_bind_ok hrun
    obtain ⟨rfl, hticket, hstored⟩ := getTicket_ok hget
    dsimp only at hbody
    rcases hperms : ticket.permissions with _ | ⟨permission, _ | ⟨other, others⟩⟩
    · rw [hperms] at hbody
      cases hbody
    · rw [hperms] at hbody
      obtain ⟨_, s₁, hset, hnext⟩ := Async.run_bind_ok hbody
      obtain ⟨_, s₁', hyield, hnext⟩ := Async.run_bind_ok hnext
      obtain ⟨inner, s₂, hinner, hnext⟩ := Async.run_bind_ok hnext
      obtain ⟨-, s₃, -, hout⟩ := Async.run_bind_ok hnext
      injection hset with _ hset
      injection hyield with _ hyield
      injection hout with hout
      injection hout with hout
      subst hset hyield hout
      injection hid with hid
      refine ⟨id, ticket, permission, inner, _, s₂, List.contains_iff_mem.mp hscope, hticket,
        hstored, hperms, ?_, hinner, ?_, hid.symm⟩
      · exact (KeyValueStorage.get_set _ _ _ _).trans (if_pos rfl)
      · rw [← hid]
    · rw [hperms] at hbody
      cases hbody
  · rw [if_neg hscope] at hrun
    rw [derivationResourceId_negotiate hrun] at hid
    cases hid

/-- The token of an output reads back with the granted permissions. -/
theorem deserialize_output (codec : TokenCodec) (updated : Ticket)
    (granted : List Permission) :
    ∃ token, codec.deserialize (PlainNegotiator.output codec updated granted).accessToken =
      some token ∧ token.permissions = granted :=
  Option.map_eq_some_iff.mp
    (codec.permissions_deserialize (BaseNegotiator.mintedToken updated granted))

/-- A derivation-creation request on a stored ticket, where the authorizer
grants enough for the wrapped negotiation to succeed. -/
theorem run_negotiate_derivation (codec : TokenCodec) (ids : AggregateIdCodec)
    (randomUUID iv : String) {id : String} {ticket : Ticket} {permission : Permission}
    {provided : ClaimSet} {granted : List Permission}
    (haccepted : DialogInput.assertion input = .ok ())
    (hrequested : UmaScopes.derivationCreation ∈ requestedScopes input)
    (hid : (DialogInput.ofJson input).ticket = some id)
    (hstored : s.ticketStore.get id = some ticket) (hsingle : ticket.permissions = [permission])
    (hgather : PlainNegotiator.gather verify ticket.provided
      (DialogInput.ofJson input).claimTokens = .ok provided)
    (hresolve : ImmediateAuthorizerStrategy.resolveTicket authorizer allowPartialSuccess
      { withDerivationCreation ticket permission with provided } = .ok (.success granted)) :
    (((plainAggregator verify codec authorizer allowPartialSuccess ids randomUUID
      iv).negotiate input).run s).1 = .ok
        { PlainNegotiator.output codec { withDerivationCreation ticket permission with provided }
            granted with
          derivationResourceId := some (ids.encodeAggregateId iv permission.resourceId) } := by
  let edited : NegotiatorState Unit := { s with
    ticketStore := s.ticketStore.set id (withDerivationCreation ticket permission) }
  have hget : (getTicket input).run s = (.ok (id, ticket), s) := by
    unfold getTicket
    rw [hid]
    rw [Async.run_bind_of_ok (Async.run_get s), Async.run_bind_of_ok (Async.run_yield s),
      hstored]
    rfl
  have hedited : edited.ticketStore.get id = some (withDerivationCreation ticket permission) :=
    (KeyValueStorage.get_set _ _ _ _).trans (if_pos rfl)
  have hinner : ((plainNegotiator verify codec (immediateAuthorizerStrategy authorizer
      allowPartialSuccess)).negotiate randomUUID input).run edited =
        (.ok (PlainNegotiator.output codec
          { withDerivationCreation ticket permission with provided } granted),
          PlainNegotiator.taken edited id) := by
    rw [PlainNegotiator.run_negotiate haccepted hid hedited,
      PlainNegotiator.pushClaims_immediate]
    have hgather' : PlainNegotiator.gather verify
        (withDerivationCreation ticket permission).provided
        (DialogInput.ofJson input).claimTokens = .ok provided := hgather
    rw [hgather']
    simp only [Except.map, immediateAuthorizerStrategy, hresolve, PlainNegotiator.ending]
  unfold negotiate
  rw [if_pos (List.contains_iff_mem.mpr hrequested)]
  unfold negotiateDerivationCreation
  rw [Async.run_bind_of_ok hget]
  simp only [hsingle]
  rw [Async.run_bind_of_ok (Async.run_modify _ s), Async.run_bind_of_ok (Async.run_yield _)]
  exact congrArg Prod.fst (Async.run_bind_of_ok hinner _)

/-- Where the authorizer leaves the scope out, partial success hands out the
identifier all the same. -/
theorem LeftOut.not_derivationBacked {ticket : Ticket} {permission : Permission}
    {provided : ClaimSet} {granted : List Permission}
    (hleft : LeftOut verify authorizer s input ticket permission provided granted)
    (codec : TokenCodec) (ids : AggregateIdCodec) (randomUUID iv : String) :
    ¬ DerivationBacked codec ids (((plainAggregator verify codec authorizer true ids randomUUID
      iv).negotiate input).run s).1 := by
  intro hbacked
  obtain ⟨id, hid, hstored⟩ := hleft.stored
  have hresolve : ImmediateAuthorizerStrategy.resolveTicket authorizer true
      { withDerivationCreation ticket permission with provided } =
        .ok (.success (granted.filter fun p => p.resourceScopes.length > 0)) :=
    ImmediateAuthorizerStrategy.resolveTicket_success.mpr
      ⟨granted, hleft.answered, rfl, hleft.nonempty, Or.inl rfl⟩
  have hrun := run_negotiate_derivation codec ids randomUUID iv hleft.accepted hleft.requested hid
    hstored hleft.single hleft.gathered hresolve
  obtain ⟨resource, token, hdecode, htoken, hpair⟩ := hbacked _ _ hrun rfl
  rw [ids.decode_encode] at hdecode
  injection hdecode with hdecode
  subst hdecode
  obtain ⟨minted, hminted, hpermissions⟩ := deserialize_output codec
    { withDerivationCreation ticket permission with provided }
    (granted.filter fun p => p.resourceScopes.length > 0)
  have hsame : minted = token := by
    rw [hminted] at htoken
    injection htoken
  rw [← hsame, hpermissions, ImmediateAuthorizerStrategy.pairs_filter_scopes] at hpair
  exact hleft.leftOut hpair

/-- Without partial success, or where the authorizer leaves nothing out. -/
theorem derivationBacked_of_granted
    (hfull : ¬ (allowPartialSuccess = true ∧ ∃ ticket permission provided granted,
      LeftOut verify authorizer s input ticket permission provided granted)) :
    DerivationBacked codec ids (((plainAggregator verify codec authorizer allowPartialSuccess
      ids randomUUID iv).negotiate input).run s).1 := by
  intro result derivationId hresult hid
  obtain ⟨id, ticket, permission, inner, s₁, s₂, hrequested, hticket, hstored, hsingle, hedited,
    hinner, hinnerResult, hderivation⟩ := negotiate_derivation (Prod.ext hresult rfl) hid
  obtain ⟨provided, granted, haccepted, hgather, hresolve, houtput⟩ :=
    PlainNegotiator.negotiate_ok_immediate hticket hedited hinner
  obtain ⟨given, hanswer, hgranted, hnonempty, hall⟩ :=
    ImmediateAuthorizerStrategy.resolveTicket_success.mp hresolve
  have htoken : ∃ token, codec.deserialize result.accessToken = some token ∧
      token.permissions = granted := by
    rw [hinnerResult, houtput]
    exact deserialize_output _ _ _
  obtain ⟨token, hdeserialize, hpermissions⟩ := htoken
  refine ⟨permission.resourceId, token, ?_, hdeserialize, ?_⟩
  · rw [hderivation]
    exact ids.decode_encode _ _
  rw [hpermissions, hgranted, ImmediateAuthorizerStrategy.pairs_filter_scopes]
  by_contra hleft
  cases hall with
  | inl hallow =>
    exact hfull ⟨hallow, ticket, permission, provided, given,
      { accepted := haccepted, requested := hrequested, stored := ⟨id, hticket, hstored⟩,
        single := hsingle, gathered := hgather, answered := hanswer, nonempty := hnonempty,
        leftOut := hleft }⟩
  | inr hsubset =>
    refine hleft (hsubset ?_)
    simp [withDerivationCreation, mem_pairs]

/-- A derivation identifier is handed out without the scope it stands for
exactly when partial success is allowed and the authorizer, granting
something on the ticket, leaves that scope out. -/
theorem derivationBacked_iff (verify : Credential → Except HttpError ClaimSet)
    (codec : TokenCodec) (authorizer : Authorizer) (allowPartialSuccess : Bool)
    (ids : AggregateIdCodec) (randomUUID iv : String) (s : NegotiatorState Unit) (input : Json) :
    DerivationBacked codec ids (((plainAggregator verify codec authorizer allowPartialSuccess
        ids randomUUID iv).negotiate input).run s).1 ↔
      ¬ (allowPartialSuccess = true ∧ ∃ ticket permission provided granted,
        LeftOut verify authorizer s input ticket permission provided granted) := by
  constructor
  · rintro hbacked ⟨rfl, ticket, permission, provided, granted, hleft⟩
    exact hleft.not_derivationBacked codec ids randomUUID iv hbacked
  · exact derivationBacked_of_granted

end

/-- With partial success, a request for a derivation of an album that may only
be read gets its derivation identifier. -/
theorem derivation_not_granted :
    ¬ DerivationBacked TokenCodec.spelled AggregateIdCodec.marked
      (((plainAggregator (fun _ => .ok Dict.empty) TokenCodec.spelled
        (fun _ _ => .ok [⟨"album", ["urn:example:read"]⟩]) true AggregateIdCodec.marked
        "next-ticket" "iv").negotiate
          (.object [("ticket", .string "ticket"),
            ("scope", .string UmaScopes.derivationCreation)])).run
        { ticketStore := KeyValueStorage.empty.set "ticket"
            { permissions := [⟨"album", ["urn:example:read"]⟩], provided := Dict.empty }
          tokens := () }).1 := by
  let ticket : Ticket :=
    { permissions := [⟨"album", ["urn:example:read"]⟩], provided := Dict.empty }
  let s : NegotiatorState Unit :=
    { ticketStore := KeyValueStorage.empty.set "ticket" ticket, tokens := () }
  have hleft : LeftOut (fun _ => .ok Dict.empty)
      (fun _ _ => .ok [⟨"album", ["urn:example:read"]⟩]) s
      (.object [("ticket", .string "ticket"), ("scope", .string UmaScopes.derivationCreation)])
      ticket ⟨"album", ["urn:example:read"]⟩ Dict.empty [⟨"album", ["urn:example:read"]⟩] :=
    { accepted := by decide +kernel
      requested := by decide +kernel
      stored := ⟨"ticket", by decide +kernel, rfl⟩
      single := rfl
      gathered := rfl
      answered := rfl
      nonempty := ⟨("album", "urn:example:read"), by decide +kernel⟩
      leftOut := by decide +kernel }
  exact hleft.not_derivationBacked TokenCodec.spelled AggregateIdCodec.marked "next-ticket" "iv"

end AggregatorNegotiator

end UserManagedAccess.Dialog
