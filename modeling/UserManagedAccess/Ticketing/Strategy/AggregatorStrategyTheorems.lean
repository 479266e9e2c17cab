/-
UserManagedAccess.Ticketing.Strategy.AggregatorStrategyTheorems — what each
operation of the aggregator strategy does, as one lemma each.

* `derivationRequirements` — succeeds exactly on an `Admissible` request, with
  one requirement for every source (`requirement`);
* `decodeIds` / `encodeIds` — `decodedIds` only maps an internal identifier
  back to an entry of the ticket it came from (`get_decodedIds`), and where it
  maps something, an inherited name is replaced, too (`encodedId_cases`);
* `requiredClaims` — empty exactly when nothing is `Outstanding`;
* `resolveTicket` — succeeds when nothing is outstanding and the wrapped
  strategy succeeds on the decoded ticket.
-/
import UserManagedAccess.Ticketing.Strategy.AggregatorStrategy
import UserManagedAccess.Ticketing.Strategy.ImmediateAuthorizerStrategyTheorems

namespace UserManagedAccess.Ticketing

open UserManagedAccess.Lib UserManagedAccess.Util UserManagedAccess.Views
open UserManagedAccess.Credentials UserManagedAccess.Policies

namespace AggregatorStrategy

/-! ## Initialisation -/

/-- Every requested resource that has sources is requested to be read. -/
def Admissible (registrationStore : KeyValueStorage String Registration)
    (permissions : List Permission) : Prop :=
  ∀ p ∈ permissions, derivedFrom registrationStore p.resourceId ≠ [] →
    onlyReads p.resourceScopes = true

/-- All sources of the requested resources. -/
def sources (registrationStore : KeyValueStorage String Registration)
    (permissions : List Permission) : List DerivedFrom :=
  permissions.flatMap (fun p => derivedFrom registrationStore p.resourceId)

/-- The permission a source adds to a ticket. -/
def requirement (derived : DerivedFrom) : Permission :=
  { resourceId := derived.derivationResourceId, resourceScopes := [UmaScopes.derivationRead] }

@[simp] theorem hasDerivationRead_requirement (derived : DerivedFrom) :
    hasDerivationRead (requirement derived).resourceScopes = true := by
  simp [hasDerivationRead, requirement]

theorem derivationRequirements_ok {registrationStore : KeyValueStorage String Registration}
    {permissions : List Permission} (h : Admissible registrationStore permissions) :
    derivationRequirements registrationStore permissions =
      .ok ((sources registrationStore permissions).map requirement,
        (sources registrationStore permissions).map DerivedFrom.derivationResourceId) := by
  induction permissions with
  | nil => rfl
  | cons p ps ih =>
    have hps : Admissible registrationStore ps :=
      fun q hq => h q (List.mem_cons_of_mem _ hq)
    have hp : ¬ ((derivedFrom registrationStore p.resourceId).length > 0 ∧
        ¬ onlyReads p.resourceScopes = true) := by
      rintro ⟨hlen, honly⟩
      exact honly (h p List.mem_cons_self (List.length_pos_iff.mp hlen))
    simp only [derivationRequirements, hp, ih hps, if_false, sources, List.flatMap_cons,
      List.map_append]
    rfl

theorem derivationRequirements_error {registrationStore : KeyValueStorage String Registration}
    {permissions : List Permission} (h : ¬ Admissible registrationStore permissions) :
    ∃ message, derivationRequirements registrationStore permissions =
      .error (.badRequest message) := by
  induction permissions with
  | nil => exact absurd (fun p hp => absurd hp List.not_mem_nil) h
  | cons p ps ih =>
    by_cases hp : (derivedFrom registrationStore p.resourceId).length > 0 ∧
        ¬ onlyReads p.resourceScopes = true
    · simp only [derivationRequirements, hp]
      exact ⟨_, rfl⟩
    · have hps : ¬ Admissible registrationStore ps := by
        intro hps
        refine h (fun q hq hsources => ?_)
        rcases List.mem_cons.mp hq with rfl | hq
        · by_contra honly
          exact hp ⟨List.length_pos_iff.mpr hsources, honly⟩
        · exact hps q hq hsources
      obtain ⟨message, hmessage⟩ := ih hps
      simp only [derivationRequirements, hp, hmessage, if_false]
      exact ⟨message, rfl⟩

/-- The ticket an admissible request starts with. -/
def initialTicket (registrationStore : KeyValueStorage String Registration)
    (permissions : List Permission) : Ticket where
  derivedIds := some ((sources registrationStore permissions).map
    DerivedFrom.derivationResourceId)
  permissions := permissions ++ (sources registrationStore permissions).map requirement
  provided := []

/-- Over the immediate strategy, initialisation succeeds on admissible
requests only, with the initial ticket. -/
theorem initializeTicket_ok {authorizer : Authorizer} {allowPartialSuccess : Bool}
    {registrationStore : KeyValueStorage String Registration}
    {permissions : List Permission} {ticket : Ticket} :
    initializeTicket (immediateAuthorizerStrategy authorizer allowPartialSuccess)
        registrationStore permissions = .ok ticket ↔
      Admissible registrationStore permissions ∧
        ticket = initialTicket registrationStore permissions := by
  by_cases h : Admissible registrationStore permissions
  · have hrun : initializeTicket (immediateAuthorizerStrategy authorizer allowPartialSuccess)
        registrationStore permissions = .ok (initialTicket registrationStore permissions) := by
      unfold initializeTicket
      rw [derivationRequirements_ok h]
      simp [bind, Except.bind, pure, Except.pure, immediateAuthorizerStrategy,
        ImmediateAuthorizerStrategy.initializeTicket, initialTicket, Dict.empty]
    rw [hrun]
    simp only [Except.ok.injEq, h, true_and]
    exact eq_comm
  · obtain ⟨message, hmessage⟩ := derivationRequirements_error h
    unfold initializeTicket
    rw [hmessage]
    simp [bind, Except.bind, h]

/-! ## Decoding and encoding -/

section

variable {ids : AggregatorIds}

theorem decodedId_eq_some {ticket : Ticket} {p : Permission} {id : String} :
    decodedId ids ticket p = some id ↔
      ticket.isDerived p.resourceId = false ∧ hasDerivationRead p.resourceScopes = true ∧
        ids.decodeAggregateId p.resourceId = some id := by
  unfold decodedId
  by_cases hd : ticket.isDerived p.resourceId = true
  · simp [hd]
  · by_cases hr : hasDerivationRead p.resourceScopes = true <;> simp [hd, hr]

/-- There is a way back from the internal identifier. -/
def Remembered (ids : AggregatorIds) (ticket : Ticket) (id : String) : Prop :=
  id ≠ "__proto__" ∧ ∃ p ∈ ticket.permissions, decodedId ids ticket p = some id

theorem get_remember (decodedIds : Dict String) (id encoded other : String) :
    (remember decodedIds id encoded).get other =
      if other = id ∧ id ≠ "__proto__" then some encoded else decodedIds.get other := by
  unfold remember
  by_cases hproto : id = "__proto__"
  · simp [hproto]
  · simp [hproto, Dict.get_set]

/-- What is remembered is a fold over the entries that were decoded. -/
theorem decodedIds_eq_foldl (ticket : Ticket) :
    (decodeIds ids ticket).2 = ticket.permissions.foldl
      (fun decodedIds permission => (decodedId ids ticket permission).elim decodedIds
        (fun id => remember decodedIds id permission.resourceId)) Dict.empty := by
  unfold decodeIds
  dsimp only
  congr 1
  funext decodedIds permission
  cases decodedId ids ticket permission <;> rfl

/-- `decodedIds` sends an identifier to the identifier of an entry that was
decoded to it. -/
theorem get_decodedIds {ticket : Ticket} {id encoded : String}
    (h : (decodeIds ids ticket).2.get id = some encoded) :
    id ≠ "__proto__" ∧ ∃ p ∈ ticket.permissions, p.resourceId = encoded ∧
      decodedId ids ticket p = some id := by
  have hfold : ∀ (ps : List Permission) (d : Dict String),
      (ps.foldl (fun decodedIds permission => (decodedId ids ticket permission).elim decodedIds
          (fun id => remember decodedIds id permission.resourceId)) d).get id = some encoded →
      d.get id = some encoded ∨ (id ≠ "__proto__" ∧ ∃ p ∈ ps, p.resourceId = encoded ∧
        decodedId ids ticket p = some id) := by
    intro ps
    induction ps with
    | nil => intro d hd; exact Or.inl hd
    | cons p ps ih =>
      intro d hd
      rw [List.foldl_cons] at hd
      rcases ih _ hd with hstep | ⟨hproto, q, hq, hqid⟩
      · cases hp : decodedId ids ticket p with
        | none =>
          rw [hp] at hstep
          exact Or.inl hstep
        | some decoded =>
          simp only [hp, Option.elim_some, get_remember] at hstep
          by_cases hid : id = decoded ∧ decoded ≠ "__proto__"
          · rw [if_pos hid, Option.some_inj] at hstep
            exact Or.inr ⟨hid.1 ▸ hid.2, p, List.mem_cons_self, hstep, hid.1 ▸ hp⟩
          · rw [if_neg hid] at hstep
            exact Or.inl hstep
      · exact Or.inr ⟨hproto, q, List.mem_cons_of_mem _ hq, hqid⟩
  rw [decodedIds_eq_foldl] at h
  rcases hfold ticket.permissions Dict.empty h with h | h
  · simp at h
  · exact h

/-- Every decoded entry leaves a way back. -/
theorem Remembered.get {ticket : Ticket} {id : String} (h : Remembered ids ticket id) :
    ∃ encoded, (decodeIds ids ticket).2.get id = some encoded := by
  obtain ⟨hproto, p, hp, hid⟩ := h
  have hfold : ∀ (ps : List Permission) (d : Dict String),
      (p ∈ ps ∨ ∃ encoded, d.get id = some encoded) →
      ∃ encoded, (ps.foldl (fun decodedIds permission =>
        (decodedId ids ticket permission).elim decodedIds
          (fun id => remember decodedIds id permission.resourceId)) d).get id = some encoded := by
    intro ps
    induction ps with
    | nil =>
      rintro d (hmem | hd)
      · exact absurd hmem List.not_mem_nil
      · exact hd
    | cons q ps ih =>
      intro d hd
      rw [List.foldl_cons]
      refine ih _ ?_
      rcases hd with hmem | ⟨encoded, hd⟩
      · rcases List.mem_cons.mp hmem with rfl | hmem
        · exact Or.inr ⟨p.resourceId, by simp [hid, get_remember, hproto]⟩
        · exact Or.inl hmem
      · right
        cases hq : decodedId ids ticket q with
        | none => exact ⟨encoded, hd⟩
        | some decoded =>
          simp only [Option.elim_some, get_remember]
          by_cases hdec : id = decoded ∧ decoded ≠ "__proto__"
          · exact ⟨q.resourceId, if_pos hdec⟩
          · exact ⟨encoded, by rw [if_neg hdec]; exact hd⟩
  rw [decodedIds_eq_foldl]
  exact hfold ticket.permissions Dict.empty (Or.inl hp)

theorem remembered_of_get {ticket : Ticket} {id encoded : String}
    (h : (decodeIds ids ticket).2.get id = some encoded) : Remembered ids ticket id := by
  obtain ⟨hproto, p, hp, -, hdecoded⟩ := get_decodedIds h
  exact ⟨hproto, p, hp, hdecoded⟩

theorem get_decodedIds_eq_none {ticket : Ticket} {id : String} (h : ¬ Remembered ids ticket id) :
    (decodeIds ids ticket).2.get id = none :=
  Option.eq_none_iff_forall_ne_some.mpr fun _ hget => h (remembered_of_get hget)

theorem decodedIds_eq_nil {ticket : Ticket} :
    (decodeIds ids ticket).2 = [] ↔ ∀ id, ¬ Remembered ids ticket id := by
  constructor
  · intro hnil id hremembered
    obtain ⟨encoded, hget⟩ := hremembered.get
    rw [hnil] at hget
    cases hget
  · intro hnone
    cases hentries : (decodeIds ids ticket).2 with
    | nil => rfl
    | cons entry rest =>
      have hget : (decodeIds ids ticket).2.get entry.1 = some entry.2 := by
        rw [hentries]
        exact (Dict.get_cons entry.1 entry.2 rest entry.1).trans (if_pos rfl)
      exact absurd (remembered_of_get hget) (hnone entry.1)

/-- The identifier an entry with this internal one comes out with. -/
def encodedId (ids : AggregatorIds) (decodedIds : Dict String) (id : String) : String :=
  if decodedIds = [] then id
  else
    match decodedIds.property id with
    | .own encoded => encoded
    | .inherited => ids.inheritedId id
    | .missing => id

theorem encodedId_of_get {decodedIds : Dict String} {id encoded : String}
    (h : decodedIds.get id = some encoded) : encodedId ids decodedIds id = encoded := by
  have hne : decodedIds ≠ [] := by
    rintro rfl
    cases h
  rw [encodedId, if_neg hne, Dict.property_of_get h]

theorem encodedId_of_nil (id : String) : encodedId ids [] id = id := if_pos rfl

theorem encodedId_inherited {decodedIds : Dict String} {id : String} (hne : decodedIds ≠ [])
    (hget : decodedIds.get id = none) (hid : id ∈ inheritedProperties) :
    encodedId ids decodedIds id = ids.inheritedId id := by
  rw [encodedId, if_neg hne, Dict.property_inherited hget hid]

theorem encodedId_missing {decodedIds : Dict String} {id : String}
    (hget : decodedIds.get id = none) (hid : id ∉ inheritedProperties) :
    encodedId ids decodedIds id = id := by
  unfold encodedId
  split
  · rfl
  · rw [Dict.property_missing hget hid]

/-- What becomes of an identifier. -/
theorem encodedId_cases (ids : AggregatorIds) (decodedIds : Dict String) (id : String) :
    decodedIds.get id = some (encodedId ids decodedIds id) ∨
      (decodedIds.get id = none ∧ decodedIds ≠ [] ∧ id ∈ inheritedProperties ∧
        encodedId ids decodedIds id = ids.inheritedId id) ∨
      (decodedIds.get id = none ∧ (decodedIds = [] ∨ id ∉ inheritedProperties) ∧
        encodedId ids decodedIds id = id) := by
  cases hget : decodedIds.get id with
  | some encoded => exact .inl (by rw [encodedId_of_get hget])
  | none =>
    by_cases hnil : decodedIds = []
    · subst hnil
      exact .inr (.inr ⟨rfl, .inl rfl, encodedId_of_nil id⟩)
    · by_cases hid : id ∈ inheritedProperties
      · exact .inr (.inl ⟨rfl, hnil, hid, encodedId_inherited hnil hget hid⟩)
      · exact .inr (.inr ⟨rfl, .inr hid, encodedId_missing hget hid⟩)

/-- Encoding, with the shortcut for an empty dictionary. -/
theorem permissions_encodeIds (ticket : Ticket) (decodedIds : Dict String) :
    (encodeIds ids ticket decodedIds).permissions = ticket.permissions.map fun p =>
      { p with resourceId := encodedId ids decodedIds p.resourceId } := by
  unfold encodeIds
  split
  · rename_i h
    have hnil : decodedIds = [] := by simpa [Dict.keys] using h
    rw [hnil]
    exact (List.map_id ticket.permissions).symm.trans
      (List.map_congr_left fun p _ => by rw [encodedId_of_nil]; rfl)
  · rename_i h
    have hne : decodedIds ≠ [] := by simpa [Dict.keys] using h
    refine List.map_congr_left fun p _ => ?_
    rw [encodePermission, encodedId, if_neg hne]
    cases decodedIds.property p.resourceId <;> rfl

@[simp] theorem derivedIds_encodeIds (ticket : Ticket) (decodedIds : Dict String) :
    (encodeIds ids ticket decodedIds).derivedIds = ticket.derivedIds := by
  unfold encodeIds
  split <;> rfl

@[simp] theorem provided_encodeIds (ticket : Ticket) (decodedIds : Dict String) :
    (encodeIds ids ticket decodedIds).provided = ticket.provided := by
  unfold encodeIds
  split <;> rfl

/-! ## Requirements and resolution -/

/-- A derivation requirement is still in the ticket. -/
def Outstanding (ticket : Ticket) : Prop :=
  ∃ p ∈ ticket.permissions,
    ticket.isDerived p.resourceId = true ∧ hasDerivationRead p.resourceScopes = true

theorem requiredClaims_eq_nil {derivationStore : KeyValueStorage String String}
    {ticket : Ticket} {permissions : List Permission} :
    requiredClaims derivationStore ticket permissions = .ok [] ↔
      ∀ p ∈ permissions, ¬ (ticket.isDerived p.resourceId = true ∧
        hasDerivationRead p.resourceScopes = true) := by
  induction permissions with
  | nil => simp [requiredClaims]
  | cons p ps ih =>
    rw [List.forall_mem_cons, ← ih, requiredClaims]
    by_cases hp : ticket.isDerived p.resourceId = true ∧
        hasDerivationRead p.resourceScopes = true
    · simp only [hp, and_self, if_true, not_true_eq_false, false_and, iff_false]
      intro h
      split at h
      · cases h
      · cases hrest : requiredClaims derivationStore ticket ps with
        | error e => simp [hrest, bind, Except.bind] at h
        | ok claims => simp [hrest, bind, Except.bind, pure, Except.pure] at h
    · simp only [hp, if_false, not_false_eq_true, true_and]

theorem resolveTicket_success {strategy : TicketingStrategy}
    {derivationStore : KeyValueStorage String String} {ticket : Ticket}
    {value : List Permission} :
    resolveTicket ids strategy derivationStore ticket = .ok (.success value) ↔
      ¬ Outstanding ticket ∧ ∃ granted,
        strategy.resolveTicket (decodeIds ids ticket).1 = .ok (.success granted) ∧
        value = granted.map (encodeGranted ids (decodeIds ids ticket).2) := by
  have hout : ¬ Outstanding ticket ↔
      requiredClaims derivationStore ticket ticket.permissions = .ok [] := by
    rw [requiredClaims_eq_nil]
    simp only [Outstanding, not_exists, not_and]
  rw [hout]
  unfold resolveTicket
  cases hreq : requiredClaims derivationStore ticket ticket.permissions with
  | error e => simp [bind, Except.bind]
  | ok required =>
    cases hres : strategy.resolveTicket (decodeIds ids ticket).1 with
    | error e => simp [hres, bind, Except.bind]
    | ok result =>
      cases result with
      | failure claims => simp [hres, bind, Except.bind, pure, Except.pure]
      | success granted =>
        by_cases hnil : required = []
        · simp [hres, hnil, bind, Except.bind, pure, Except.pure, eq_comm]
        · have hpos : required.length > 0 := List.length_pos_iff.mpr hnil
          simp [hres, hnil, hpos, bind, Except.bind, pure, Except.pure]

end

end AggregatorStrategy

end UserManagedAccess.Ticketing
