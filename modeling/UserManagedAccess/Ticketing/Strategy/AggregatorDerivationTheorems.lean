/-
UserManagedAccess.Ticketing.Strategy.AggregatorDerivationTheorems — whether a
derived resource can be accessed without access to its sources.

A source leaves one requirement in the ticket. `validateClaims` removes it
when the claims cover it, and otherwise keeps it, unless the renaming around
the wrapped strategy captures it: if the client also asks for an aggregate
identifier that decodes to the identifier of the source, `encodeIds` renames
the requirement too, and it is no longer recognised as one. With any aggregate
identifier in the request, this happens to a source that has the name of an
inherited property as well.

* `Guarded` — the invariant: no entry decodes to a source, and none decodes at
  all where a source has such a name;
* `guarded_step`, `requires_step` — one round keeps it, and every
  requirement its claims do not cover;
* `derivation_safe_iff` — hence requests are safe exactly when they do not
  start with such an entry.
-/
import UserManagedAccess.Lib.Except
import UserManagedAccess.Policies.Authorizers.BasicAuthorizers
import UserManagedAccess.Ticketing.Strategy.AggregatorStrategyTheorems
import UserManagedAccess.Util.AggregatorUtil

namespace UserManagedAccess.Ticketing

open UserManagedAccess.Lib UserManagedAccess.Util UserManagedAccess.Views
open UserManagedAccess.Credentials UserManagedAccess.Policies

namespace AggregatorStrategy

/-! ## Access claims -/

/-- A claim set contains an access permission for `id` with `derivation-read`. -/
def GrantsDerivationRead (claims : ClaimSet) (id : String) : Prop :=
  ∃ access ∈ claims.values ACCESS, access.field "resource_id" = .string id ∧
    includes (access.field "resource_scopes") UmaScopes.derivationRead = .ok true

theorem mem_derivedReadIds {accesses : List Json} {ids : List String}
    (h : derivedReadIds accesses = .ok ids) {id : String} :
    id ∈ ids ↔ ∃ access ∈ accesses, access.field "resource_id" = .string id ∧
      includes (access.field "resource_scopes") UmaScopes.derivationRead = .ok true := by
  induction accesses generalizing ids with
  | nil =>
    injection h with h
    simp [← h]
  | cons access accesses ih =>
    rw [derivedReadIds, Except.bind_eq_ok] at h
    obtain ⟨included, hincluded, h⟩ := h
    rw [Except.bind_eq_ok] at h
    obtain ⟨rest, hrest, h⟩ := h
    rw [List.exists_mem_cons_iff, ← ih hrest, hincluded]
    cases included with
    | false =>
      have heq : rest = ids := by simpa [pure, Except.pure] using h
      simp [heq]
    | true =>
      cases hfield : access.field "resource_id" <;> rw [hfield] at h <;>
        simp only [pure, Except.pure, Except.ok.injEq] at h <;>
        simp [← h, eq_comm]

/-- The permission an access claim for a source consists of. -/
def derivationReadOn (id : String) : Permission :=
  { resourceId := id, resourceScopes := [UmaScopes.derivationRead] }

/-- The claim set that grants `derivation-read` on a list of identifiers. -/
def accessClaims (ids : List String) : ClaimSet :=
  [(ACCESS, ids.map fun id => (derivationReadOn id).toJson)]

theorem derivedReadIds_accessClaims (ids : List String) :
    derivedReadIds ((accessClaims ids).values ACCESS) = .ok ids := by
  have hvalues : (accessClaims ids).values ACCESS =
      ids.map fun id => (derivationReadOn id).toJson := by
    simp [accessClaims, ClaimSet.values]
  rw [hvalues]
  clear hvalues
  induction ids with
  | nil => rfl
  | cons id ids ih =>
    have hincludes : includes ((derivationReadOn id).toJson.field "resource_scopes")
        UmaScopes.derivationRead = .ok true := by
      simp [includes, derivationReadOn, Permission.toJson, Json.field, List.lookup_cons]
    have hid : (derivationReadOn id).toJson.field "resource_id" = .string id := by
      simp [derivationReadOn, Permission.toJson, Json.field]
    simp only [List.map_cons, derivedReadIds, hincludes, ih, hid]
    rfl

/-! ## One round -/

/-- The entries a round keeps before decoding. -/
def keptTicket (ticket : Ticket) (readIds : List String) : Ticket :=
  { ticket with
    permissions := ticket.permissions.filterMap (removeDerivationRead ticket readIds) }

section

variable {ids : AggregatorIds}
variable {authorizer : Authorizer} {allowPartialSuccess : Bool}

/-- What a round leaves of a kept entry. -/
def roundTrip (ids : AggregatorIds) (kept : Ticket) (permission : Permission) : Permission :=
  let decoded := decodePermission ids kept permission
  { decoded with resourceId := encodedId ids (decodeIds ids kept).2 decoded.resourceId }

theorem validateClaims_ok {ticket ticket' : Ticket} {claims : ClaimSet} :
    validateClaims ids
        (immediateAuthorizerStrategy authorizer allowPartialSuccess) ticket claims =
      .ok ticket' ↔
      ∃ readIds, derivedReadIds (claims.values ACCESS) = .ok readIds ∧
        ticket' =
          { derivedIds := ticket.derivedIds
            provided := ImmediateAuthorizerStrategy.provide ticket.provided claims
            permissions := (keptTicket ticket readIds).permissions.map
              (roundTrip ids (keptTicket ticket readIds)) } := by
  have hround : ∀ readIds,
      encodeIds ids { (decodeIds ids (keptTicket ticket readIds)).1 with
          provided := ImmediateAuthorizerStrategy.provide ticket.provided claims }
        (decodeIds ids (keptTicket ticket readIds)).2 =
      { derivedIds := ticket.derivedIds
        provided := ImmediateAuthorizerStrategy.provide ticket.provided claims
        permissions := (keptTicket ticket readIds).permissions.map
          (roundTrip ids (keptTicket ticket readIds)) } := by
    intro readIds
    rw [Ticket.mk.injEq]
    refine ⟨derivedIds_encodeIds _ _, ?_, provided_encodeIds _ _⟩
    rw [permissions_encodeIds]
    simp only [decodeIds, List.map_map]
    rfl
  unfold validateClaims
  simp only [Except.bind_eq_ok]
  constructor
  · rintro ⟨readIds, hread, sourceTicket, hsource, hticket⟩
    injection hsource with hsource
    injection hticket with hticket
    exact ⟨readIds, hread, by rw [← hticket, ← hsource]; exact hround readIds⟩
  · rintro ⟨readIds, hread, rfl⟩
    refine ⟨readIds, hread, _, rfl, ?_⟩
    exact congrArg Except.ok (hround readIds)

@[simp] theorem resourceScopes_roundTrip (kept : Ticket) (p : Permission) :
    (roundTrip ids kept p).resourceScopes = p.resourceScopes := by
  unfold roundTrip decodePermission
  dsimp only
  split <;> rfl

/-- A kept entry with `derivation-read` is an entry of the ticket that the
claims do not cover. -/
theorem removeDerivationRead_keeps {ticket : Ticket} {readIds : List String}
    {p q : Permission} (h : removeDerivationRead ticket readIds p = some q)
    (hq : hasDerivationRead q.resourceScopes = true) :
    q = p ∧ ¬ (ticket.isDerived p.resourceId = true ∧ p.resourceId ∈ readIds) := by
  unfold removeDerivationRead at h
  split at h
  · rename_i hcovered
    simp only at h
    split at h
    · injection h with h
      exfalso
      simp [← h, hasDerivationRead] at hq
    · cases h
  · rename_i hcovered
    injection h with h
    subst h
    exact ⟨rfl, fun hboth => hcovered ⟨hboth.1, hboth.2, hq⟩⟩

theorem removeDerivationRead_of_uncovered {ticket : Ticket} {readIds : List String}
    {p : Permission}
    (h : ¬ (ticket.isDerived p.resourceId = true ∧ p.resourceId ∈ readIds)) :
    removeDerivationRead ticket readIds p = some p := by
  unfold removeDerivationRead
  rw [if_neg]
  rintro ⟨hder, hmem, -⟩
  exact h ⟨hder, hmem⟩

/-! ## The invariant -/

/-- An entry the client asks `derivation-read` for does not decode to one of
the identifiers, and where it decodes at all, none of them is an inherited name.
Only `__proto__` cannot be remembered. -/
def DecodesApart (ids : AggregatorIds) (needed : List String) (p : Permission) : Prop :=
  hasDerivationRead p.resourceScopes = true → p.resourceId ∉ needed →
    ∀ id, ids.decodeAggregateId p.resourceId = some id → id ≠ "__proto__" →
      id ∉ needed ∧ ∀ source ∈ needed, source ∉ inheritedProperties

structure Guarded (ids : AggregatorIds) (needed : List String)
    (ticket : Ticket) : Prop where
  derivedIds : ticket.derivedIds = some needed
  decodesApart : ∀ p ∈ ticket.permissions, DecodesApart ids needed p

/-- The requirement of the source `id` is in the ticket. -/
def Requires (ticket : Ticket) (id : String) : Prop :=
  ∃ p ∈ ticket.permissions, p.resourceId = id ∧ hasDerivationRead p.resourceScopes = true

theorem isDerived_iff {ticket : Ticket} {needed : List String}
    (h : ticket.derivedIds = some needed) {id : String} :
    ticket.isDerived id = true ↔ id ∈ needed := by
  simp [Ticket.isDerived, h]

/-- What is remembered comes from an entry that is not a source, and decodes to
the identifier. -/
theorem remembered_apart {kept : Ticket} {needed : List String}
    (hids : kept.derivedIds = some needed) {id : String} (h : Remembered ids kept id) :
    id ≠ "__proto__" ∧ ∃ p ∈ kept.permissions, p.resourceId ∉ needed ∧
      hasDerivationRead p.resourceScopes = true ∧
        ids.decodeAggregateId p.resourceId = some id := by
  obtain ⟨hproto, p, hp, hdecoded⟩ := h
  obtain ⟨hder, hread, hdecode⟩ := decodedId_eq_some.mp hdecoded
  refine ⟨hproto, p, hp, fun hmem => ?_, hread, hdecode⟩
  rw [(isDerived_iff hids).mpr hmem] at hder
  cases hder

/-- An identifier `decodedIds` leads to decodes to where it was found. -/
theorem get_decodedIds_decodes {kept : Ticket} {needed : List String}
    (hids : kept.derivedIds = some needed) {id encoded : String}
    (h : (decodeIds ids kept).2.get id = some encoded) :
    encoded ∉ needed ∧ ids.decodeAggregateId encoded = some id := by
  obtain ⟨-, p, -, rfl, hdecoded⟩ := get_decodedIds h
  obtain ⟨hder, -, hdecode⟩ := decodedId_eq_some.mp hdecoded
  refine ⟨fun hmem => ?_, hdecode⟩
  rw [(isDerived_iff hids).mpr hmem] at hder
  cases hder

/-- The internal identifier of an entry, which is decoded or its own. -/
theorem decoded_cases (ids : AggregatorIds) (kept : Ticket) (p : Permission) :
    decodedId ids kept p = some (decodePermission ids kept p).resourceId ∨
      (decodedId ids kept p = none ∧
        (decodePermission ids kept p).resourceId = p.resourceId) := by
  unfold decodePermission
  cases decodedId ids kept p with
  | some id => exact .inl rfl
  | none => exact .inr ⟨rfl, rfl⟩

theorem mem_keptTicket {ticket : Ticket} {readIds : List String} {q : Permission} :
    q ∈ (keptTicket ticket readIds).permissions ↔
      ∃ p ∈ ticket.permissions, removeDerivationRead ticket readIds p = some q := by
  rw [keptTicket, List.mem_filterMap]

/-- Of a guarded ticket, nothing is remembered that would touch a source. -/
theorem Guarded.remembered {needed readIds : List String} {ticket : Ticket}
    (h : Guarded ids needed ticket) {id : String}
    (hid : Remembered ids (keptTicket ticket readIds) id) :
    id ∉ needed ∧ ∀ source ∈ needed, source ∉ inheritedProperties := by
  have hderived : (keptTicket ticket readIds).derivedIds = some needed := h.derivedIds
  obtain ⟨hproto, p, hp, hapart, hread, hdecode⟩ := remembered_apart hderived hid
  obtain ⟨r, hr, hkept⟩ := mem_keptTicket.mp hp
  obtain ⟨rfl, -⟩ := removeDerivationRead_keeps hkept hread
  exact h.decodesApart p hr hread hapart id hdecode hproto

/-- One round keeps the guard. -/
theorem guarded_step {needed : List String} {ticket ticket' : Ticket} {claims : ClaimSet}
    (h : Guarded ids needed ticket)
    (hstep : validateClaims ids
      (immediateAuthorizerStrategy authorizer allowPartialSuccess) ticket claims =
        .ok ticket') : Guarded ids needed ticket' := by
  obtain ⟨readIds, -, rfl⟩ := validateClaims_ok.mp hstep
  have hderived : (keptTicket ticket readIds).derivedIds = some needed := h.derivedIds
  refine ⟨h.derivedIds, ?_⟩
  intro q hq hread hapart id hdecode hproto
  obtain ⟨p, hp, rfl⟩ := List.mem_map.mp hq
  rw [resourceScopes_roundTrip] at hread
  unfold roundTrip at hapart hdecode
  dsimp only at hapart hdecode
  rcases encodedId_cases ids (decodeIds ids (keptTicket ticket readIds)).2
    (decodePermission ids (keptTicket ticket readIds) p).resourceId with
    hget | ⟨-, -, -, heq⟩ | ⟨hnone, -, heq⟩
  · -- an identifier that was decoded
    obtain ⟨-, hdecode'⟩ := get_decodedIds_decodes hderived hget
    rw [hdecode, Option.some_inj] at hdecode'
    exact h.remembered (hdecode' ▸ remembered_of_get hget)
  · rw [heq, ids.decode_inheritedId] at hdecode
    cases hdecode
  · rw [heq] at hapart hdecode
    rcases decoded_cases ids (keptTicket ticket readIds) p with hsome | ⟨-, hsame⟩
    · -- what is decoded is remembered, `__proto__` apart
      by_cases hinternal : (decodePermission ids (keptTicket ticket readIds) p).resourceId =
          "__proto__"
      · rw [hinternal, ids.decode_plain (by decide)] at hdecode
        cases hdecode
      · obtain ⟨encoded, hencoded⟩ := Remembered.get ⟨hinternal, p, hp, hsome⟩
        rw [hnone] at hencoded
        cases hencoded
    · obtain ⟨r, hr, hkept⟩ := mem_keptTicket.mp hp
      obtain ⟨rfl, -⟩ := removeDerivationRead_keeps hkept hread
      rw [hsame] at hapart hdecode
      exact h.decodesApart p hr hread hapart id hdecode hproto

/-- One round keeps every requirement its claims do not cover. -/
theorem requires_step {needed : List String} {ticket ticket' : Ticket} {claims : ClaimSet}
    (h : Guarded ids needed ticket)
    (hstep : validateClaims ids
      (immediateAuthorizerStrategy authorizer allowPartialSuccess) ticket claims =
        .ok ticket')
    {id : String} (hid : id ∈ needed) (hclaims : ¬ GrantsDerivationRead claims id)
    (hreq : Requires ticket id) : Requires ticket' id := by
  obtain ⟨readIds, hreads, rfl⟩ := validateClaims_ok.mp hstep
  obtain ⟨p, hp, rfl, hread⟩ := hreq
  have hderived : (keptTicket ticket readIds).derivedIds = some needed := h.derivedIds
  have hout : p.resourceId ∉ readIds :=
    fun hmem => hclaims ((mem_derivedReadIds hreads).mp hmem)
  have hkept : p ∈ (keptTicket ticket readIds).permissions :=
    mem_keptTicket.mpr ⟨p, hp, removeDerivationRead_of_uncovered (fun hboth => hout hboth.2)⟩
  refine ⟨roundTrip ids (keptTicket ticket readIds) p,
    List.mem_map_of_mem hkept, ?_, by rw [resourceScopes_roundTrip]; exact hread⟩
  -- a source is never decoded
  have hsame : (decodePermission ids (keptTicket ticket readIds) p).resourceId =
      p.resourceId := by
    rcases decoded_cases ids (keptTicket ticket readIds) p with hsome | ⟨-, hsame⟩
    · have hder := (decodedId_eq_some.mp hsome).1
      rw [(isDerived_iff hderived).mpr hid] at hder
      cases hder
    · exact hsame
  unfold roundTrip
  dsimp only
  rw [hsame]
  rcases encodedId_cases ids (decodeIds ids (keptTicket ticket readIds)).2 p.resourceId with
    hget | ⟨-, hne, hinherited, -⟩ | ⟨-, -, heq⟩
  · exact absurd hid (h.remembered (remembered_of_get hget)).1
  · rw [ne_eq, decodedIds_eq_nil, not_forall] at hne
    obtain ⟨other, hother⟩ := hne
    exact absurd hinherited ((h.remembered (not_not.mp hother)).2 _ hid)
  · exact heq

/-! ## Whole runs -/

/-- A request, rounds of claims, and a resolution that succeeds. -/
def Resolves (strategy : TicketingStrategy) (permissions : List Permission)
    (claimSets : List ClaimSet) : Prop :=
  ∃ ticket ticket' value, strategy.initializeTicket permissions = .ok ticket ∧
    claimSets.foldlM strategy.validateClaims ticket = .ok ticket' ∧
    strategy.resolveTicket ticket' = .ok (.success value)

/-- Every source of every requested resource was covered by some claim set. -/
def Covered (registrationStore : KeyValueStorage String Registration)
    (permissions : List Permission) (claimSets : List ClaimSet) : Prop :=
  ∀ p ∈ permissions, ∀ derived ∈ derivedFrom registrationStore p.resourceId,
    ∃ claims ∈ claimSets, GrantsDerivationRead claims derived.derivationResourceId

/-- The identifiers of the sources of the requested resources. -/
def sourceIds (registrationStore : KeyValueStorage String Registration)
    (permissions : List Permission) : List String :=
  (sources registrationStore permissions).map DerivedFrom.derivationResourceId

theorem mem_sourceIds {registrationStore : KeyValueStorage String Registration}
    {permissions : List Permission} {id : String} :
    id ∈ sourceIds registrationStore permissions ↔
      ∃ p ∈ permissions, ∃ derived ∈ derivedFrom registrationStore p.resourceId,
        derived.derivationResourceId = id := by
  simp only [sourceIds, sources, List.mem_map, List.mem_flatMap]
  constructor
  · rintro ⟨derived, ⟨p, hp, hderived⟩, hid⟩
    exact ⟨p, hp, derived, hderived, hid⟩
  · rintro ⟨p, hp, derived, hderived, hid⟩
    exact ⟨derived, ⟨p, hp, hderived⟩, hid⟩

/-- The request asks for `derivation-read` on an identifier that decodes to
that of a source. -/
def RequestsEncodedSource (ids : AggregatorIds)
    (registrationStore : KeyValueStorage String Registration)
    (permissions : List Permission) : Prop :=
  ∃ p ∈ permissions, ¬ DecodesApart ids
    (sourceIds registrationStore permissions) p

theorem guarded_initialTicket {registrationStore : KeyValueStorage String Registration}
    {permissions : List Permission}
    (h : ¬ RequestsEncodedSource ids registrationStore permissions) :
    Guarded ids (sourceIds registrationStore permissions)
      (initialTicket registrationStore permissions) := by
  refine ⟨rfl, ?_⟩
  intro p hp
  rcases List.mem_append.mp hp with hp | hp
  · by_contra hnot
    exact h ⟨p, hp, hnot⟩
  · obtain ⟨derived, hderived, rfl⟩ := List.mem_map.mp hp
    exact fun _ hapart => absurd (List.mem_map_of_mem hderived) hapart

/-- A run that starts guarded covers every source before it resolves. -/
theorem covered_of_resolves {registrationStore : KeyValueStorage String Registration}
    {derivationStore : KeyValueStorage String String} {permissions : List Permission}
    {claimSets : List ClaimSet}
    (hguard : ¬ RequestsEncodedSource ids registrationStore permissions)
    (hrun : Resolves (aggregatorStrategy ids
      (immediateAuthorizerStrategy authorizer allowPartialSuccess)
      registrationStore derivationStore) permissions claimSets) :
    Covered registrationStore permissions claimSets := by
  obtain ⟨ticket, ticket', value, hinit, hrounds, hres⟩ := hrun
  obtain ⟨-, rfl⟩ := initializeTicket_ok.mp hinit
  let needed := sourceIds registrationStore permissions
  -- every source is covered by the claims seen so far, or still required
  let inv : List ClaimSet → Ticket → Prop := fun seen t =>
    Guarded ids needed t ∧ ∀ id ∈ needed,
      (∃ claims ∈ seen, GrantsDerivationRead claims id) ∨ Requires t id
  have hstart : inv [] (initialTicket registrationStore permissions) := by
    refine ⟨guarded_initialTicket hguard, ?_⟩
    intro id hid
    obtain ⟨derived, hderived, rfl⟩ := List.mem_map.mp hid
    exact Or.inr ⟨requirement derived,
      List.mem_append_right _ (List.mem_map_of_mem hderived), rfl,
      hasDerivationRead_requirement derived⟩
  have hend : inv claimSets ticket' := by
    refine foldlM_invariant inv ?_ hstart hrounds
    rintro seen t claims t' ⟨hg, hcov⟩ hstep
    refine ⟨guarded_step hg hstep, ?_⟩
    intro id hid
    rcases hcov id hid with ⟨c, hc, hgrants⟩ | hreq
    · exact Or.inl ⟨c, List.mem_append_left _ hc, hgrants⟩
    · by_cases hgrants : GrantsDerivationRead claims id
      · exact Or.inl ⟨claims, List.mem_append_right _ (List.mem_singleton_self _), hgrants⟩
      · exact Or.inr (requires_step hg hstep hid hgrants hreq)
  obtain ⟨hg, hcov⟩ := hend
  intro p hp derived hderived
  have hid : derived.derivationResourceId ∈ needed :=
    mem_sourceIds.mpr ⟨p, hp, derived, hderived, rfl⟩
  rcases hcov _ hid with hgrants | ⟨q, hq, hqid, hread⟩
  · exact hgrants
  · have hout := (resolveTicket_success.mp hres).1
    exact absurd ⟨q, hq, (isDerived_iff hg.derivedIds).mpr (hqid ▸ hid), hread⟩ hout

/-- Once something is remembered, an entry that is a source is none after the
round if its identifier is remembered or an inherited name. -/
theorem roundTrip_apart {kept : Ticket} {needed : List String}
    (hids : kept.derivedIds = some needed) (hfresh : ∀ name, ids.inheritedId name ∉ needed)
    (hne : (decodeIds ids kept).2 ≠ []) {q : Permission} (hq : q ∈ kept.permissions)
    (hlost : q.resourceId ∈ needed →
      Remembered ids kept q.resourceId ∨ q.resourceId ∈ inheritedProperties) :
    (roundTrip ids kept q).resourceId ∉ needed := by
  unfold roundTrip
  dsimp only
  rcases encodedId_cases ids (decodeIds ids kept).2 (decodePermission ids kept q).resourceId with
    hget | ⟨-, -, -, heq⟩ | ⟨hnone, hmissing, heq⟩
  · exact (get_decodedIds_decodes hids hget).1
  · rw [heq]
    exact hfresh _
  · have hown : (decodePermission ids kept q).resourceId ∉ inheritedProperties :=
      hmissing.resolve_left hne
    have hforgotten : ¬ Remembered ids kept (decodePermission ids kept q).resourceId := by
      intro hremembered
      obtain ⟨encoded, hencoded⟩ := hremembered.get
      rw [hnone] at hencoded
      cases hencoded
    rw [heq]
    rcases decoded_cases ids kept q with hsome | ⟨-, hsame⟩
    · -- a decoded identifier that is not remembered is `__proto__`, which is inherited
      refine absurd ⟨fun hproto => hown ?_, q, hq, hsome⟩ hforgotten
      rw [hproto]
      decide
    · rw [hsame] at hown hforgotten ⊢
      exact fun hmem => (hlost hmem).elim hforgotten hown

/-- The run that shows the defect: one round with access to every source but
one whose encoding was requested, or whose identifier is an inherited name. -/
theorem resolves_of_requestsEncodedSource
    {registrationStore : KeyValueStorage String Registration}
    {permissions : List Permission} {p : Permission} {id source : String}
    (hfresh : ∀ name, ids.inheritedId name ∉ sourceIds registrationStore permissions)
    (hadm : Admissible registrationStore permissions) (hp : p ∈ permissions)
    (hread : hasDerivationRead p.resourceScopes = true)
    (hapart : p.resourceId ∉ sourceIds registrationStore permissions)
    (hdecode : ids.decodeAggregateId p.resourceId = some id) (hproto : id ≠ "__proto__")
    (hlost : source = id ∨ source ∈ inheritedProperties) :
    Resolves (aggregatorStrategy ids
        (immediateAuthorizerStrategy allAuthorizer false)
        registrationStore KeyValueStorage.empty) permissions
      [accessClaims ((sourceIds registrationStore permissions).filter (· ≠ source))] := by
  let needed := sourceIds registrationStore permissions
  let readIds := needed.filter (· ≠ source)
  let start := initialTicket registrationStore permissions
  let kept := keptTicket start readIds
  have hids : kept.derivedIds = some needed := rfl
  have hder : ∀ q : Permission, start.isDerived q.resourceId = true ↔ q.resourceId ∈ needed :=
    fun q => isDerived_iff rfl
  have hpkept : p ∈ kept.permissions :=
    mem_keptTicket.mpr ⟨p, List.mem_append_left _ hp,
      removeDerivationRead_of_uncovered fun hboth => hapart ((hder p).mp hboth.1)⟩
  have hpdecoded : decodedId ids kept p = some id := by
    refine decodedId_eq_some.mpr ⟨?_, hread, hdecode⟩
    have hnot : ¬ kept.isDerived p.resourceId = true := fun h => hapart ((hder p).mp h)
    simpa using hnot
  have hremembered : Remembered ids kept id := ⟨hproto, p, hpkept, hpdecoded⟩
  have hne : (decodeIds ids kept).2 ≠ [] := fun hnil => decodedIds_eq_nil.mp hnil id hremembered
  -- what the round leaves: nothing outstanding, and the encoded entry
  let finish : Ticket :=
    { derivedIds := start.derivedIds
      provided := ImmediateAuthorizerStrategy.provide start.provided (accessClaims readIds)
      permissions := kept.permissions.map (roundTrip ids kept) }
  have hround : validateClaims ids
      (immediateAuthorizerStrategy allAuthorizer false) start (accessClaims readIds) =
        .ok finish :=
    validateClaims_ok.mpr ⟨readIds, derivedReadIds_accessClaims readIds, rfl⟩
  have hout : ¬ Outstanding finish := by
    rintro ⟨q', hq', hq'der, hq'read⟩
    obtain ⟨q, hq, rfl⟩ := List.mem_map.mp hq'
    rw [resourceScopes_roundTrip] at hq'read
    refine roundTrip_apart hids hfresh hne hq (fun hqid => ?_) ((isDerived_iff rfl).mp hq'der)
    obtain ⟨r, hr, hkeep⟩ := mem_keptTicket.mp hq
    obtain ⟨rfl, hunread⟩ := removeDerivationRead_keeps hkeep hq'read
    have hqread : q.resourceId ∉ readIds := fun h => hunread ⟨(hder q).mpr hqid, h⟩
    have heq : q.resourceId = source := by
      by_contra hother
      exact hqread (List.mem_filter.mpr ⟨hqid, by simpa using hother⟩)
    rw [heq]
    rcases hlost with rfl | hinherited
    · exact .inl hremembered
    · exact .inr hinherited
  let decoded := (decodeIds ids finish).1
  have hgranted : (pairs decoded.permissions).Nonempty := by
    refine ⟨(_, UmaScopes.derivationRead), decodePermission ids finish
      (roundTrip ids kept p),
      List.mem_map_of_mem (List.mem_map_of_mem hpkept), rfl, ?_⟩
    have hscopes : (decodePermission ids finish
        (roundTrip ids kept p)).resourceScopes = p.resourceScopes := by
      unfold decodePermission
      split <;> simp
    rw [hscopes]
    simpa [hasDerivationRead] using hread
  have hresolve : ImmediateAuthorizerStrategy.resolveTicket allAuthorizer false decoded =
      .ok (.success _) := ImmediateAuthorizerStrategy.resolveTicket_success.mpr
    ⟨decoded.permissions, allAuthorizer_fullQuery _ _, rfl, hgranted,
      Or.inr (Set.Subset.refl (pairs decoded.permissions))⟩
  refine ⟨start, finish, _, initializeTicket_ok.mpr ⟨hadm, rfl⟩, ?_,
    resolveTicket_success.mpr ⟨hout, _, hresolve, rfl⟩⟩
  rw [List.foldlM_cons, Except.bind_eq_ok]
  exact ⟨finish, hround, rfl⟩

/-- A source whose requirement gets lost in such a request. -/
theorem RequestsEncodedSource.source {registrationStore : KeyValueStorage String Registration}
    {permissions : List Permission}
    (h : RequestsEncodedSource ids registrationStore permissions) :
    ∃ p ∈ permissions, hasDerivationRead p.resourceScopes = true ∧
      p.resourceId ∉ sourceIds registrationStore permissions ∧
      ∃ id, ids.decodeAggregateId p.resourceId = some id ∧ id ≠ "__proto__" ∧
        ∃ source ∈ sourceIds registrationStore permissions,
          source = id ∨ source ∈ inheritedProperties := by
  obtain ⟨p, hp, hclash⟩ := h
  simp only [DecodesApart, not_forall] at hclash
  obtain ⟨hread, hapart, id, hdecode, hproto, hclash⟩ := hclash
  refine ⟨p, hp, hread, hapart, id, hdecode, hproto, ?_⟩
  by_cases hid : id ∈ sourceIds registrationStore permissions
  · exact ⟨id, hid, .inl rfl⟩
  · by_contra hnone
    exact hclash ⟨hid, fun source hsource hinherited =>
      hnone ⟨source, hsource, .inr hinherited⟩⟩

end

/-- Access to a derived resource implies access to its sources, except
exactly when an admissible request asks for `derivation-read` on an aggregate
identifier, and that one stands for one of the sources it needs, or one of those
has the name of an inherited property. -/
theorem derivation_safe_iff (ids : AggregatorIds)
    (registrationStore : KeyValueStorage String Registration)
    (permissions : List Permission)
    (hfresh : ∀ name, ids.inheritedId name ∉ sourceIds registrationStore permissions) :
    (∀ (authorizer : Authorizer) (allowPartialSuccess : Bool)
        (derivationStore : KeyValueStorage String String) (claimSets : List ClaimSet),
      Resolves (aggregatorStrategy ids
        (immediateAuthorizerStrategy authorizer allowPartialSuccess)
        registrationStore derivationStore) permissions claimSets →
      Covered registrationStore permissions claimSets) ↔
    ¬ (Admissible registrationStore permissions ∧
      RequestsEncodedSource ids registrationStore permissions) := by
  constructor
  · rintro hsafe ⟨hadm, hclash⟩
    obtain ⟨p, hp, hread, hapart, id, hdecode, hproto, source, hsource, hlost⟩ := hclash.source
    obtain ⟨q, hq, derived, hderived, rfl⟩ := mem_sourceIds.mp hsource
    obtain ⟨claims, hclaims, hgrants⟩ := hsafe _ _ _ _
      (resolves_of_requestsEncodedSource hfresh hadm hp hread hapart hdecode hproto hlost)
      q hq derived hderived
    rw [List.mem_singleton] at hclaims
    subst hclaims
    have hmem := (mem_derivedReadIds (derivedReadIds_accessClaims _)).mpr hgrants
    simpa using (List.mem_filter.mp hmem).2
  · intro hnot authorizer allowPartialSuccess derivationStore claimSets hrun
    by_cases hclash : RequestsEncodedSource ids registrationStore permissions
    · obtain ⟨ticket, ticket', value, hinit, -⟩ := hrun
      exact absurd ⟨(initializeTicket_ok.mp hinit).1, hclash⟩ hnot
    · exact covered_of_resolves hclash hrun

/-- A store in which `r` is derived from one source. -/
def storeOf (source : String) : KeyValueStorage String Registration := fun id =>
  let derived : DerivedFrom := { issuer := "https://as.example", derivationResourceId := source }
  if id = "r" then some { owner := "alice", description := { derivedFrom := some [derived] } }
  else none

/-- A request to read `r` together with an aggregate identifier. -/
def askFor (encoded : String) : List Permission :=
  [{ resourceId := "r", resourceScopes := [ODRL.read.value] }, derivationReadOn encoded]

/-- With the name of an inherited property as the source of `r`, any aggregate
identifier will do. -/
theorem derivation_safe_iff_constructor :
    ¬ ∀ (authorizer : Authorizer) (allowPartialSuccess : Bool)
        (derivationStore : KeyValueStorage String String) (claimSets : List ClaimSet),
      Resolves (aggregatorStrategy .marked
        (immediateAuthorizerStrategy authorizer allowPartialSuccess)
        (storeOf "constructor") derivationStore) (askFor "::t") claimSets →
      Covered (storeOf "constructor") (askFor "::t") claimSets := by
  have hsources : sourceIds (storeOf "constructor") (askFor "::t") = ["constructor"] := rfl
  have hfresh : ∀ name, AggregatorIds.marked.inheritedId name ∉
      sourceIds (storeOf "constructor") (askFor "::t") := by
    intro name
    rw [hsources, List.mem_singleton]
    exact AggregatorIds.inheritedId_marked_ne (by decide) name
  have hadm : Admissible (storeOf "constructor") (askFor "::t") := by
    unfold Admissible
    decide
  refine fun hsafe => (derivation_safe_iff .marked (storeOf "constructor") (askFor "::t")
    hfresh).mp hsafe ⟨hadm, derivationReadOn "::t", List.mem_cons_of_mem _ List.mem_cons_self, ?_⟩
  intro hapart
  have hinherited := (hapart (by decide) (by rw [hsources]; decide) "t" (by decide) (by decide)).2
    "constructor" (by rw [hsources]; decide)
  exact hinherited (by decide)

/-- A client that may read `::s` asks for `r`, which is derived from `s`, and
for the aggregate identifier `::s`: it gets both without access to `s`. -/
theorem derivation_unsafe :
    ¬ ∀ (ids : AggregatorIds) (registrationStore : KeyValueStorage String Registration)
      (permissions : List Permission) (authorizer : Authorizer) (allowPartialSuccess : Bool)
      (derivationStore : KeyValueStorage String String) (claimSets : List ClaimSet),
      Resolves (aggregatorStrategy ids
        (immediateAuthorizerStrategy authorizer allowPartialSuccess)
        registrationStore derivationStore) permissions claimSets →
      Covered registrationStore permissions claimSets := by
  intro hsafe
  have hsources : sourceIds (storeOf "s") (askFor "::s") = ["s"] := by decide
  have hfresh : ∀ name, AggregatorIds.marked.inheritedId name ∉
      sourceIds (storeOf "s") (askFor "::s") := by
    intro name
    rw [hsources, List.mem_singleton]
    exact AggregatorIds.inheritedId_marked_ne (by decide) name
  have hadm : Admissible (storeOf "s") (askFor "::s") := by
    unfold Admissible
    decide
  have hrun : Resolves (aggregatorStrategy .marked (immediateAuthorizerStrategy allAuthorizer false)
        (storeOf "s") KeyValueStorage.empty) (askFor "::s")
      [accessClaims ((sourceIds (storeOf "s") (askFor "::s")).filter (· ≠ "s"))] :=
    resolves_of_requestsEncodedSource hfresh hadm
      (List.mem_cons_of_mem _ List.mem_cons_self) (by decide) (by rw [hsources]; decide)
      (by decide) (by decide) (.inl rfl)
  rw [hsources] at hrun
  obtain ⟨claims, hclaims, access, haccess, -⟩ :=
    hsafe .marked (storeOf "s") (askFor "::s") _ _ _ _ hrun _ List.mem_cons_self
      _ List.mem_cons_self
  rw [List.mem_singleton] at hclaims
  have hnone : claims.values ACCESS = [] := by
    rw [hclaims]
    rfl
  rw [hnone] at haccess
  exact List.not_mem_nil haccess

end AggregatorStrategy

end UserManagedAccess.Ticketing
