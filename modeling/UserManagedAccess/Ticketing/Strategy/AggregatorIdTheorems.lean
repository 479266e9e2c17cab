/-
UserManagedAccess.Ticketing.Strategy.AggregatorIdTheorems — which identifiers
come out of the aggregator strategy.

The strategy replaces aggregate identifiers while the wrapped strategy runs,
and puts them back by the internal identifier. Every entry gets its own
identifier back when entries that stand for one internal identifier, with one of
them decoded to it, have the same identifier (`KeepsIds`), and an entry that
stands for the name of an inherited property finds it remembered, or no
identifier is remembered at all (`KeepsNames`). Resolution looks inherited names
up in any case, so they have to be remembered or granted never (`GrantsNoName`).

* `encodedId_eq_iff` — decoding and encoding the entries of a ticket;
* `validateClaims_exact` — the entries after one set of claims;
* `resolveTicket_carries` — the pairs of a success;
* `inherited_unremembered` — conversely, a name that is granted comes out wrong;
* `aggregate_ids_exact` — all of it, for every set of claims and authorizer.
-/
import UserManagedAccess.Policies.Authorizers.AuthorizerTreeTheorems
import UserManagedAccess.Ticketing.Strategy.AggregatorDerivationTheorems

namespace UserManagedAccess.Ticketing

open UserManagedAccess.Lib UserManagedAccess.Util UserManagedAccess.Views
open UserManagedAccess.Credentials UserManagedAccess.Policies

namespace AggregatorStrategy

section

variable (ids : AggregatorIds)

/-- The identifier the wrapped strategy sees for an entry. -/
def internalId (ticket : Ticket) (permission : Permission) : String :=
  (decodePermission ids ticket permission).resourceId

/-- Two entries with different identifiers never stand for one internal
identifier that one of them was decoded to. -/
def KeepsIds (ticket : Ticket) : Prop :=
  ∀ p ∈ ticket.permissions, ∀ q ∈ ticket.permissions,
    decodedId ids ticket q = some (internalId ids ticket p) → q.resourceId = p.resourceId

/-- An inherited name is remembered, unless nothing is and nothing was decoded. -/
def KeepsNames (ticket : Ticket) : Prop :=
  ∀ p ∈ ticket.permissions, internalId ids ticket p ∈ inheritedProperties →
    Remembered ids ticket (internalId ids ticket p) ∨
      ((∀ id, ¬ Remembered ids ticket id) ∧ internalId ids ticket p = p.resourceId)

/-- An inherited name that is not remembered cannot be granted: there is no scope
to grant, or a requirement is in the way of a success. -/
def GrantsNoName (ticket : Ticket) : Prop :=
  ∀ p ∈ ticket.permissions, internalId ids ticket p ∈ inheritedProperties →
    Remembered ids ticket (internalId ids ticket p) ∨ p.resourceScopes = [] ∨ Outstanding ticket

/-- The pairs of a ticket whose internal pair is granted. -/
def carriedPairs (ticket : Ticket) (granted : List Permission) : Set (String × String) :=
  {x | ∃ p ∈ ticket.permissions, p.resourceId = x.1 ∧ x.2 ∈ p.resourceScopes ∧
    (internalId ids ticket p, x.2) ∈ pairs granted}

end

section

variable {ids : AggregatorIds} {ticket : Ticket}

theorem internalId_eq (p : Permission) :
    internalId ids ticket p = (decodedId ids ticket p).getD p.resourceId := by
  unfold internalId decodePermission
  cases decodedId ids ticket p <;> rfl

theorem resourceScopes_decodePermission (p : Permission) :
    (decodePermission ids ticket p).resourceScopes = p.resourceScopes := by
  unfold decodePermission
  cases decodedId ids ticket p <;> rfl

/-! ## There and back -/

/-- The identifier remembered for an internal one. -/
theorem KeepsIds.eq_of_get (h : KeepsIds ids ticket) {p : Permission}
    (hp : p ∈ ticket.permissions) {encoded : String}
    (hget : (decodeIds ids ticket).2.get (internalId ids ticket p) = some encoded) :
    encoded = p.resourceId := by
  obtain ⟨-, q, hq, rfl, hdecoded⟩ := get_decodedIds hget
  exact h p hp q hq hdecoded

/-- An entry with a way back to nothing was not decoded, unless to an inherited
name. -/
theorem internalId_of_forgotten {p : Permission} (hp : p ∈ ticket.permissions)
    (hforgotten : ¬ Remembered ids ticket (internalId ids ticket p))
    (hname : internalId ids ticket p ∉ inheritedProperties) :
    internalId ids ticket p = p.resourceId := by
  rcases decoded_cases ids ticket p with hdecoded | ⟨-, hsame⟩
  · refine absurd ⟨fun hproto => hname ?_, p, hp, hdecoded⟩ hforgotten
    rw [hproto]
    decide
  · exact hsame

/-- Entries that keep their identifiers get them back. -/
theorem encodedId_eq_self (hkeeps : KeepsIds ids ticket) (hnames : KeepsNames ids ticket)
    {p : Permission} (hp : p ∈ ticket.permissions) :
    encodedId ids (decodeIds ids ticket).2 (internalId ids ticket p) = p.resourceId := by
  rcases encodedId_cases ids (decodeIds ids ticket).2 (internalId ids ticket p) with
    hget | ⟨hget, hne, hname, -⟩ | ⟨hget, -, heq⟩
  · exact hkeeps.eq_of_get hp hget
  · rcases hnames p hp hname with hremembered | ⟨hnone, -⟩
    · obtain ⟨encoded, hencoded⟩ := hremembered.get
      rw [hget] at hencoded
      cases hencoded
    · exact absurd (decodedIds_eq_nil.mpr hnone) hne
  · have hforgotten : ¬ Remembered ids ticket (internalId ids ticket p) := by
      intro hremembered
      obtain ⟨encoded, hencoded⟩ := hremembered.get
      rw [hget] at hencoded
      cases hencoded
    rw [heq]
    by_cases hname : internalId ids ticket p ∈ inheritedProperties
    · exact ((hnames p hp hname).resolve_left hforgotten).2
    · exact internalId_of_forgotten hp hforgotten hname

/-- Every entry gets its own identifier back. -/
theorem encodedId_eq_iff (hfresh : ∀ name, ∀ p ∈ ticket.permissions,
      ids.inheritedId name ≠ p.resourceId) :
    (∀ p ∈ ticket.permissions,
        encodedId ids (decodeIds ids ticket).2 (internalId ids ticket p) = p.resourceId) ↔
      KeepsIds ids ticket ∧ KeepsNames ids ticket := by
  constructor
  · intro hself
    constructor
    · intro p hp q hq hdecoded
      have hid : internalId ids ticket q = internalId ids ticket p := by
        rw [internalId_eq, hdecoded, Option.getD_some]
      rw [← hself q hq, ← hself p hp, hid]
    · intro p hp hname
      refine or_iff_not_imp_left.mpr fun hforgotten => ?_
      rcases encodedId_cases ids (decodeIds ids ticket).2 (internalId ids ticket p) with
        hget | ⟨-, -, -, heq⟩ | ⟨-, hmissing, heq⟩
      · exact absurd (remembered_of_get hget) hforgotten
      · exact absurd (heq.symm.trans (hself p hp)) (hfresh _ p hp)
      · exact ⟨decodedIds_eq_nil.mp (hmissing.resolve_right (not_not_intro hname)),
          heq.symm.trans (hself p hp)⟩
  · rintro ⟨hkeeps, hnames⟩ p hp
    exact encodedId_eq_self hkeeps hnames hp

/-! ## Claims -/

/-- What one set of claims leaves of a ticket. -/
theorem validateClaims_permissions {authorizer : Authorizer} {allowPartialSuccess : Bool}
    {claims : ClaimSet} {readIds : List String} {ticket' : Ticket}
    (hread : derivedReadIds (claims.values ACCESS) = .ok readIds)
    (h : validateClaims ids
      (immediateAuthorizerStrategy authorizer allowPartialSuccess) ticket claims = .ok ticket') :
    ticket'.permissions =
      (keptTicket ticket readIds).permissions.map (roundTrip ids (keptTicket ticket readIds)) := by
  obtain ⟨readIds', hread', rfl⟩ := validateClaims_ok.mp h
  rw [hread] at hread'
  injection hread' with hread'
  rw [hread']

theorem roundTrip_eq_self_iff {p : Permission} :
    roundTrip ids ticket p = p ↔
      encodedId ids (decodeIds ids ticket).2 (internalId ids ticket p) = p.resourceId := by
  constructor
  · exact fun h => congrArg Permission.resourceId h
  · intro h
    exact congrArg₂ Permission.mk h (resourceScopes_roundTrip ticket p)

/-- The entries left after one set of claims keep their identifiers. -/
theorem validateClaims_exact {authorizer : Authorizer} {allowPartialSuccess : Bool}
    {claims : ClaimSet} {readIds : List String} {ticket' : Ticket}
    (hread : derivedReadIds (claims.values ACCESS) = .ok readIds)
    (hfresh : ∀ name, ∀ p ∈ (keptTicket ticket readIds).permissions,
      ids.inheritedId name ≠ p.resourceId)
    (h : validateClaims ids
      (immediateAuthorizerStrategy authorizer allowPartialSuccess) ticket claims = .ok ticket') :
    ticket'.permissions = (keptTicket ticket readIds).permissions ↔
      KeepsIds ids (keptTicket ticket readIds) ∧ KeepsNames ids (keptTicket ticket readIds) := by
  rw [validateClaims_permissions hread h, ← encodedId_eq_iff hfresh]
  conv => lhs; rhs; rw [← List.map_id (keptTicket ticket readIds).permissions]
  rw [List.map_inj_left]
  exact forall₂_congr fun p hp => roundTrip_eq_self_iff

/-- An entry that is left was in the ticket, with the same identifier; one
that is not derived was not touched. -/
theorem kept_was_in {readIds : List String} {p : Permission}
    (h : p ∈ (keptTicket ticket readIds).permissions) :
    ∃ q ∈ ticket.permissions, q.resourceId = p.resourceId ∧
      (ticket.isDerived p.resourceId = false → q = p) := by
  obtain ⟨q, hq, hleft⟩ := mem_keptTicket.mp h
  unfold removeDerivationRead at hleft
  split at hleft
  · rename_i hremoved
    dsimp only at hleft
    split at hleft
    · injection hleft with hleft
      subst hleft
      exact ⟨q, hq, rfl, fun hderived => by rw [hderived] at hremoved; cases hremoved.1⟩
    · cases hleft
  · injection hleft with hleft
    exact ⟨q, hq, congrArg Permission.resourceId hleft, fun _ => hleft⟩

theorem decodedId_keptTicket {readIds : List String} (p : Permission) :
    decodedId ids (keptTicket ticket readIds) p = decodedId ids ticket p := rfl

/-- Removing requirements forgets nothing. -/
theorem remembered_keptTicket {readIds : List String} {id : String} :
    Remembered ids (keptTicket ticket readIds) id ↔ Remembered ids ticket id := by
  refine and_congr_right fun _ => ⟨?_, ?_⟩
  · rintro ⟨p, hp, hdecoded⟩
    rw [decodedId_keptTicket] at hdecoded
    obtain ⟨q, hq, -, heq⟩ := kept_was_in hp
    have hsame := heq (decodedId_eq_some.mp hdecoded).1
    subst hsame
    exact ⟨q, hq, hdecoded⟩
  · rintro ⟨p, hp, hdecoded⟩
    have hderived := (decodedId_eq_some.mp hdecoded).1
    refine ⟨p, mem_keptTicket.mpr ⟨p, hp, removeDerivationRead_of_uncovered fun hboth => ?_⟩,
      hdecoded⟩
    rw [hderived] at hboth
    cases hboth.1

/-- An entry that is left stands for what the entry it was stood for. -/
theorem internalId_keptTicket {readIds : List String} {p : Permission}
    (h : p ∈ (keptTicket ticket readIds).permissions) :
    ∃ q ∈ ticket.permissions, q.resourceId = p.resourceId ∧
      internalId ids ticket q = internalId ids (keptTicket ticket readIds) p := by
  obtain ⟨q, hq, hid, heq⟩ := kept_was_in h
  refine ⟨q, hq, hid, ?_⟩
  rw [internalId_eq, internalId_eq, decodedId_keptTicket]
  cases hderived : ticket.isDerived p.resourceId with
  | false => rw [heq hderived]
  | true =>
    have hnone : ∀ r : Permission, r.resourceId = p.resourceId → decodedId ids ticket r = none := by
      intro r hr
      unfold decodedId
      rw [hr, if_neg fun hnot => hnot.1 hderived]
    rw [hnone q hid, hnone p rfl, Option.getD_none, Option.getD_none, hid]

theorem KeepsIds.keptTicket (h : KeepsIds ids ticket) (readIds : List String) :
    KeepsIds ids (keptTicket ticket readIds) := by
  intro p hp q hq hdecoded
  obtain ⟨p', hp', hpid, hinternal⟩ := internalId_keptTicket hp
  rw [decodedId_keptTicket, ← hinternal] at hdecoded
  obtain ⟨q', hq', -, heq⟩ := kept_was_in hq
  have hsame := heq (decodedId_eq_some.mp hdecoded).1
  subst hsame
  rw [← hpid]
  exact h p' hp' q' hq' hdecoded

theorem KeepsNames.keptTicket (h : KeepsNames ids ticket) (readIds : List String) :
    KeepsNames ids (keptTicket ticket readIds) := by
  intro p hp hname
  obtain ⟨q, hq, hid, hinternal⟩ := internalId_keptTicket hp
  simp only [remembered_keptTicket]
  rw [← hinternal] at hname ⊢
  rw [← hid]
  exact h q hq hname

/-! ## Resolving -/

/-- A granted internal pair comes out with the identifier it was asked with. -/
theorem encodeGranted_eq (hkeeps : KeepsIds ids ticket) (hnames : GrantsNoName ids ticket)
    (hout : ¬ Outstanding ticket) {p : Permission} (hp : p ∈ ticket.permissions)
    (hscopes : p.resourceScopes ≠ []) {g : Permission}
    (hg : g.resourceId = internalId ids ticket p) :
    encodeGranted ids (decodeIds ids ticket).2 g = { g with resourceId := p.resourceId } := by
  unfold encodeGranted
  rw [hg]
  cases hget : (decodeIds ids ticket).2.get (internalId ids ticket p) with
  | some encoded =>
    have hne : encoded ≠ "" := by
      obtain ⟨-, q, -, hqid, hdecoded⟩ := get_decodedIds hget
      rintro rfl
      rw [decodedId_eq_some, hqid, ids.decode_plain (by decide)] at hdecoded
      cases hdecoded.2.2
    rw [Dict.property_of_get hget, hkeeps.eq_of_get hp hget]
    rw [hkeeps.eq_of_get hp hget] at hne
    split
    · rename_i heq
      injection heq with heq
      exact absurd heq hne
    · rename_i heq
      injection heq with heq
      rw [heq]
    · rename_i heq
      cases heq
    · rename_i heq
      cases heq
  | none =>
    have hforgotten : ¬ Remembered ids ticket (internalId ids ticket p) := by
      intro hremembered
      obtain ⟨encoded, hencoded⟩ := hremembered.get
      rw [hget] at hencoded
      cases hencoded
    have hname : internalId ids ticket p ∉ inheritedProperties := by
      intro hname
      rcases hnames p hp hname with hremembered | hnil | houtstanding
      · exact hforgotten hremembered
      · exact hscopes hnil
      · exact hout houtstanding
    rw [Dict.property_missing hget hname, ← internalId_of_forgotten hp hforgotten hname, ← hg]

@[simp] theorem resourceScopes_encodeGranted (decodedIds : Dict String) (g : Permission) :
    (encodeGranted ids decodedIds g).resourceScopes = g.resourceScopes := by
  unfold encodeGranted
  split <;> rfl

/-- A success of the wrapped immediate strategy has the granted pairs of the
ticket. -/
theorem resolveTicket_carries (hkeeps : KeepsIds ids ticket) (hnames : GrantsNoName ids ticket)
    {tree : AuthorizerTree} {allowPartialSuccess : Bool}
    {derivationStore : KeyValueStorage String String} {value : List Permission}
    (hresolve : resolveTicket ids
      (immediateAuthorizerStrategy tree.permissions allowPartialSuccess) derivationStore ticket =
        .ok (.success value)) :
    ∃ granted, tree.permissions ticket.provided
        (fullQuery (decodeIds ids ticket).1.permissions) = .ok granted ∧
      pairs value = carriedPairs ids ticket granted := by
  obtain ⟨hout, kept, hinner, rfl⟩ := resolveTicket_success.mp hresolve
  obtain ⟨granted, hgranted, rfl, -, -⟩ :=
    ImmediateAuthorizerStrategy.resolveTicket_success.mp hinner
  refine ⟨granted, hgranted, ?_⟩
  have hasked := tree.pairs_subset hgranted
  ext ⟨id, scope⟩
  constructor
  · rintro ⟨_, hmem, rfl, hscope⟩
    obtain ⟨g, hg, rfl⟩ := List.mem_map.mp hmem
    rw [resourceScopes_encodeGranted] at hscope
    have hpair : (g.resourceId, scope) ∈ pairs granted := by
      rw [← ImmediateAuthorizerStrategy.pairs_filter_scopes]
      exact ⟨g, hg, rfl, hscope⟩
    obtain ⟨r, hr, hid, hrscope⟩ := hasked hpair
    obtain ⟨p, hp, rfl⟩ := List.mem_map.mp hr
    rw [resourceScopes_decodePermission] at hrscope
    rw [encodeGranted_eq hkeeps hnames hout hp (List.ne_nil_of_mem hrscope) hid.symm]
    refine ⟨p, hp, rfl, hrscope, ?_⟩
    rwa [internalId, hid]
  · rintro ⟨p, hp, rfl, hpscope, hpair⟩
    rw [← ImmediateAuthorizerStrategy.pairs_filter_scopes] at hpair
    obtain ⟨g, hg, hid, hgscope⟩ := hpair
    refine ⟨_, List.mem_map_of_mem hg, ?_, ?_⟩
    · rw [encodeGranted_eq hkeeps hnames hout hp (List.ne_nil_of_mem hpscope) hid]
    · rw [resourceScopes_encodeGranted]
      exact hgscope

/-! ## Every set of claims -/

/-- What the strategy is to do with the identifiers of a ticket. -/
structure IdsSurvive (ids : AggregatorIds) (tree : AuthorizerTree)
    (allowPartialSuccess : Bool) (derivationStore : KeyValueStorage String String)
    (ticket : Ticket) : Prop where
  validated : ∀ claims readIds ticket', derivedReadIds (claims.values ACCESS) = .ok readIds →
    validateClaims ids
      (immediateAuthorizerStrategy tree.permissions allowPartialSuccess) ticket claims =
        .ok ticket' →
    ticket'.permissions = (keptTicket ticket readIds).permissions
  resolved : ∀ value, resolveTicket ids
      (immediateAuthorizerStrategy tree.permissions allowPartialSuccess) derivationStore ticket =
        .ok (.success value) →
    ∃ granted, tree.permissions ticket.provided
        (fullQuery (decodeIds ids ticket).1.permissions) = .ok granted ∧
      pairs value = carriedPairs ids ticket granted

/-- The authorizer that grants everything: a name it grants has to be remembered. -/
theorem inherited_unremembered (hfresh : ∀ name, ∀ p ∈ ticket.permissions,
      ids.inheritedId name ≠ p.resourceId)
    {derivationStore : KeyValueStorage String String}
    (h : IdsSurvive ids .all false derivationStore ticket) : GrantsNoName ids ticket := by
  intro p hp hname
  by_contra hnot
  rw [not_or, not_or] at hnot
  obtain ⟨hforgotten, hscopes, hout⟩ := hnot
  obtain ⟨scope, hscope⟩ := List.exists_mem_of_ne_nil _ hscopes
  let decoded := (decodeIds ids ticket).1
  have hpair : (internalId ids ticket p, scope) ∈ pairs decoded.permissions :=
    ⟨decodePermission ids ticket p, List.mem_map_of_mem hp, rfl,
      by rw [resourceScopes_decodePermission]; exact hscope⟩
  have hinner : ImmediateAuthorizerStrategy.resolveTicket allAuthorizer false decoded =
      .ok (.success _) := ImmediateAuthorizerStrategy.resolveTicket_success.mpr
    ⟨decoded.permissions, allAuthorizer_fullQuery _ _, rfl, ⟨_, hpair⟩,
      Or.inr (Set.Subset.refl (pairs decoded.permissions))⟩
  obtain ⟨granted, -, hcarried⟩ := h.resolved _ (resolveTicket_success.mpr ⟨hout, _, hinner, rfl⟩)
  -- the granted name comes out as an inherited property, which no entry asked for
  have hmem : (ids.inheritedId (internalId ids ticket p), scope) ∈
      carriedPairs ids ticket granted := by
    rw [← hcarried]
    rw [← ImmediateAuthorizerStrategy.pairs_filter_scopes] at hpair
    obtain ⟨g, hg, hgid, hgscope⟩ := hpair
    refine ⟨_, List.mem_map_of_mem hg, ?_, by rw [resourceScopes_encodeGranted]; exact hgscope⟩
    unfold encodeGranted
    rw [hgid, Dict.property_inherited (get_decodedIds_eq_none hforgotten) hname]
  obtain ⟨q, hq, hid, -⟩ := hmem
  exact hfresh _ q hq hid.symm

/-- The identifiers of a ticket survive every set of claims, and resolution,
exactly when its entries do not share an internal identifier, and no inherited
name among those gets lost. -/
theorem aggregate_ids_exact (ids : AggregatorIds) (ticket : Ticket)
    (hfresh : ∀ name, ∀ p ∈ ticket.permissions, ids.inheritedId name ≠ p.resourceId) :
    (∀ tree allowPartialSuccess derivationStore,
      IdsSurvive ids tree allowPartialSuccess derivationStore ticket) ↔
    KeepsIds ids ticket ∧ KeepsNames ids ticket ∧ GrantsNoName ids ticket := by
  constructor
  · intro h
    have hkept : keptTicket ticket [] = ticket := by
      have hsame : ticket.permissions.filterMap (removeDerivationRead ticket []) =
          ticket.permissions.filterMap some :=
        List.filterMap_congr fun p _ =>
          removeDerivationRead_of_uncovered fun hboth => List.not_mem_nil hboth.2
      rw [keptTicket, hsame, List.filterMap_some]
    -- no access claims: nothing is removed, and the wrapped strategy succeeds
    have hread : derivedReadIds (ClaimSet.values Dict.empty ACCESS) = .ok [] := rfl
    obtain ⟨ticket', hvalidate⟩ : ∃ ticket', validateClaims ids
        (immediateAuthorizerStrategy allAuthorizer false) ticket Dict.empty = .ok ticket' :=
      ⟨_, rfl⟩
    have hall := h .all false KeyValueStorage.empty
    have hsame := hall.validated Dict.empty [] ticket' hread hvalidate
    rw [validateClaims_exact hread (by rwa [hkept]) hvalidate, hkept] at hsame
    exact ⟨hsame.1, hsame.2, inherited_unremembered hfresh hall⟩
  · rintro ⟨hkeeps, hnames, hgrants⟩ tree allowPartialSuccess derivationStore
    constructor
    · intro claims readIds ticket' hread hvalidate
      refine (validateClaims_exact hread (fun name p hp => ?_) hvalidate).mpr
        ⟨hkeeps.keptTicket readIds, hnames.keptTicket readIds⟩
      obtain ⟨q, hq, hid, -⟩ := kept_was_in hp
      rw [← hid]
      exact hfresh name q hq
    · intro value hresolve
      exact resolveTicket_carries hkeeps hgrants hresolve

/-- A resource asked for with its own identifier, and another one with an
aggregate identifier. -/
theorem aggregate_ids_exact_marked :
    (∀ tree allowPartialSuccess derivationStore,
      IdsSurvive .marked tree allowPartialSuccess derivationStore
        { permissions := [⟨"a", ["read"]⟩, ⟨"::b", [UmaScopes.derivationRead]⟩]
          provided := Dict.empty }) ↔
    KeepsIds .marked
        { permissions := [⟨"a", ["read"]⟩, ⟨"::b", [UmaScopes.derivationRead]⟩]
          provided := Dict.empty } ∧
      KeepsNames .marked
        { permissions := [⟨"a", ["read"]⟩, ⟨"::b", [UmaScopes.derivationRead]⟩]
          provided := Dict.empty } ∧
      GrantsNoName .marked
        { permissions := [⟨"a", ["read"]⟩, ⟨"::b", [UmaScopes.derivationRead]⟩]
          provided := Dict.empty } := by
  refine aggregate_ids_exact .marked _ fun name p hp => ?_
  rcases List.mem_cons.mp hp with rfl | hp
  · exact AggregatorIds.inheritedId_marked_ne (by decide) name
  · rw [List.mem_singleton.mp hp]
    exact AggregatorIds.inheritedId_marked_ne (by decide) name

/-- A resource asked for with its own identifier and with an aggregate one. -/
theorem plain_id_renamed :
    ¬ ∀ ids tree allowPartialSuccess derivationStore ticket,
      IdsSurvive ids tree allowPartialSuccess derivationStore ticket := by
  intro hclaim
  let ticket : Ticket :=
    { permissions := [⟨"a", ["read"]⟩, ⟨"::a", [UmaScopes.derivationRead]⟩]
      provided := Dict.empty }
  obtain ⟨ticket', hvalidate⟩ : ∃ ticket', validateClaims .marked
      (immediateAuthorizerStrategy AuthorizerTree.all.permissions false) ticket Dict.empty =
        .ok ticket' := ⟨_, rfl⟩
  have hsurvive := (hclaim .marked .all false KeyValueStorage.empty ticket).validated _ [] ticket'
    rfl hvalidate
  rw [validateClaims_permissions rfl hvalidate] at hsurvive
  revert hsurvive
  decide +kernel

end

end AggregatorStrategy

end UserManagedAccess.Ticketing
