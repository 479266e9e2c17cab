/-
UserManagedAccess.Routes.DerivationStoreTheorems — the derivation store as an
index of the registered descriptions.

The store is keyed by derivation id only, updated by POST and PUT from the
difference of two descriptions of one resource, and not touched by DELETE. It
is the index it is meant to be as long as no request names an id in a
conflicting way or drops one that is (`TracksDerivations`).

* `get_storeIssuers`, `get_deleteIssuers` — what the two loops of an update
  leave under an id;
* `indexed_withMetadata`, `indexed_withoutResource` — the two kinds of effects;
* `derivationsIndexed_of_tracked` — the index, in every run whose requests keep
  it, from empty stores.

`TracksDerivations` looks at the description in the body of a request and at the
registrations before it, not at the derivation store. Random identifiers are
taken to be new ones (`FreshIdentifier`).
-/
import UserManagedAccess.Routes.RegistrationRuns

namespace UserManagedAccess.Routes

open UserManagedAccess.Lib UserManagedAccess.Rdf UserManagedAccess.Util
open UserManagedAccess.Views UserManagedAccess.Ucp

namespace ResourceRegistrationRequestHandler

/-! ## The property -/

/-- The description names the derivation id. -/
def NamesDerivation (description : ResourceDescription) (derivation : String) : Prop :=
  ∃ entry ∈ derivedEntries description, entry.derivationResourceId = derivation

/-- The issuers of all registered descriptions are stored, and nothing else is. -/
structure DerivationsIndexed (s : ServerState) : Prop where
  stored : ∀ id registration, s.registrationStore.get id = some registration →
    ∀ entry ∈ derivedEntries registration.description,
      s.derivationStore.get entry.derivationResourceId = some entry.issuer
  named : ∀ derivation issuer, s.derivationStore.get derivation = some issuer →
    ∃ id registration, s.registrationStore.get id = some registration ∧
      NamesDerivation registration.description derivation

/-! ## Requests that keep it -/

/-- The ids of the description have one issuer each, the one every other
resource that names them has, and the ids it drops are not named elsewhere. -/
structure ConsistentDerivations (s : ServerState) (id : String)
    (description : ResourceDescription) (previous : Option ResourceDescription) : Prop where
  sameIssuer : ∀ entry ∈ derivedEntries description, ∀ other ∈ derivedEntries description,
    entry.derivationResourceId = other.derivationResourceId → entry.issuer = other.issuer
  agrees : ∀ entry ∈ derivedEntries description, ∀ otherId registration, otherId ≠ id →
    s.registrationStore.get otherId = some registration →
      ∀ other ∈ derivedEntries registration.description,
        entry.derivationResourceId = other.derivationResourceId → entry.issuer = other.issuer
  dropped : ∀ old ∈ previous, ∀ derivation, NamesDerivation old derivation →
    ¬ NamesDerivation description derivation →
      ∀ otherId registration, otherId ≠ id →
        s.registrationStore.get otherId = some registration →
          ¬ NamesDerivation registration.description derivation

/-- The condition on a request: what a POST or PUT names is consistent, and a
DELETE leaves no id without a resource that names it. -/
structure TracksDerivations (env : RegistrationEnvironment) (n : Nat) (r : RegistrationRequest)
    (s : ServerState) : Prop where
  posted : r.request.method = "POST" → ∀ id, IsNewResource env n s (described r.request) id →
    ConsistentDerivations s id (described r.request) none
  updated : r.request.method = "PUT" → ∀ id registration,
    r.request.parameters.get "id" = some id → s.registrationStore.get id = some registration →
      ConsistentDerivations s id (described r.request) (some registration.description)
  deleted : r.request.method = "DELETE" → ∀ id registration,
    r.request.parameters.get "id" = some id → s.registrationStore.get id = some registration →
      ∀ derivation, NamesDerivation registration.description derivation →
        ∃ otherId other, otherId ≠ id ∧ s.registrationStore.get otherId = some other ∧
          NamesDerivation other.description derivation

/-! ## Updating the store -/

theorem get_storeIssuers_of_not_named {entries : List DerivedFrom} {derivation : String}
    (h : ∀ entry ∈ entries, entry.derivationResourceId ≠ derivation)
    (store : KeyValueStorage String String) :
    (storeIssuers entries store).get derivation = store.get derivation := by
  induction entries generalizing store with
  | nil => rfl
  | cons first entries ih =>
    have hrest : ∀ entry ∈ entries, entry.derivationResourceId ≠ derivation :=
      fun entry hentry => h entry (List.mem_cons_of_mem _ hentry)
    have hstep : storeIssuers (first :: entries) store =
        storeIssuers entries (store.set first.derivationResourceId first.issuer) := rfl
    rw [hstep, ih hrest, KeyValueStorage.get_set, if_neg (h first List.mem_cons_self).symm]

/-- Where an id has one issuer, that issuer is stored. -/
theorem get_storeIssuers {entries : List DerivedFrom}
    (hsame : ∀ entry ∈ entries, ∀ other ∈ entries,
      entry.derivationResourceId = other.derivationResourceId → entry.issuer = other.issuer)
    {entry : DerivedFrom} (hentry : entry ∈ entries) (store : KeyValueStorage String String) :
    (storeIssuers entries store).get entry.derivationResourceId = some entry.issuer := by
  induction entries generalizing store entry with
  | nil => exact absurd hentry List.not_mem_nil
  | cons first entries ih =>
    have hstep : storeIssuers (first :: entries) store =
        storeIssuers entries (store.set first.derivationResourceId first.issuer) := rfl
    rw [hstep]
    by_cases hlater : ∃ later ∈ entries,
        later.derivationResourceId = entry.derivationResourceId
    · obtain ⟨later, hlater, hid⟩ := hlater
      have hissuer : later.issuer = entry.issuer :=
        hsame later (List.mem_cons_of_mem _ hlater) entry hentry hid
      rw [← hid, ← hissuer]
      refine ih ?_ hlater _
      intro one hone other hother
      exact hsame one (List.mem_cons_of_mem _ hone) other (List.mem_cons_of_mem _ hother)
    · have hnone : ∀ later ∈ entries,
          later.derivationResourceId ≠ entry.derivationResourceId :=
        fun later hmem hid => hlater ⟨later, hmem, hid⟩
      rcases List.mem_cons.mp hentry with rfl | hmem
      · rw [get_storeIssuers_of_not_named hnone, KeyValueStorage.get_set, if_pos rfl]
      · exact absurd rfl (hnone entry hmem)

theorem get_deleteIssuers (ids : List String) (store : KeyValueStorage String String)
    (derivation : String) :
    (deleteIssuers ids store).get derivation =
      if derivation ∈ ids then none else store.get derivation := by
  induction ids generalizing store with
  | nil => rfl
  | cons id ids ih =>
    have hstep : deleteIssuers (id :: ids) store = deleteIssuers ids (store.delete id) := rfl
    rw [hstep, ih, KeyValueStorage.get_delete]
    by_cases hmem : derivation ∈ ids
    · simp [hmem]
    · by_cases hid : derivation = id <;> simp [hmem, hid]

theorem mem_removedDerivedIds {description : ResourceDescription}
    {previous : Option ResourceDescription} {derivation : String} :
    derivation ∈ removedDerivedIds description previous ↔
      (∃ old ∈ previous, NamesDerivation old derivation) ∧
        ¬ NamesDerivation description derivation := by
  have hnew : ((derivedEntries description).map DerivedFrom.derivationResourceId).contains
      derivation = true ↔ NamesDerivation description derivation := by
    rw [List.contains_iff_mem, List.mem_map]
    rfl
  have hold : derivation ∈ ((previous.map derivedEntries).getD []).map
      DerivedFrom.derivationResourceId ↔ ∃ old ∈ previous, NamesDerivation old derivation := by
    cases previous with
    | none => simp
    | some old =>
      rw [List.mem_map]
      exact ⟨fun h => ⟨old, rfl, h⟩, fun ⟨_, heq, h⟩ => by cases heq; exact h⟩
  rw [removedDerivedIds, List.mem_filter, List.mem_eraseDups, hold, Bool.not_eq_true',
    Bool.eq_false_iff, ne_eq, hnew]

theorem get_updateDerivations_of_not_named {description : ResourceDescription}
    {previous : Option ResourceDescription} {derivation : String}
    (hnew : ¬ NamesDerivation description derivation)
    (hold : ∀ old ∈ previous, ¬ NamesDerivation old derivation)
    (store : KeyValueStorage String String) :
    (updateDerivations description previous store).get derivation = store.get derivation := by
  have hkept : derivation ∉ removedDerivedIds description previous := by
    rw [mem_removedDerivedIds]
    rintro ⟨⟨old, hmem, hnamed⟩, -⟩
    exact hold old hmem hnamed
  rw [updateDerivations, get_deleteIssuers, if_neg hkept]
  exact get_storeIssuers_of_not_named (fun entry hentry hid => hnew ⟨entry, hentry, hid⟩) store

theorem get_updateDerivations_of_dropped {description : ResourceDescription}
    {previous : Option ResourceDescription} {derivation : String}
    (hnew : ¬ NamesDerivation description derivation)
    (hold : ∃ old ∈ previous, NamesDerivation old derivation)
    (store : KeyValueStorage String String) :
    (updateDerivations description previous store).get derivation = none := by
  rw [updateDerivations, get_deleteIssuers, if_pos (mem_removedDerivedIds.mpr ⟨hold, hnew⟩)]

theorem get_updateDerivations {description : ResourceDescription}
    {previous : Option ResourceDescription}
    (hsame : ∀ entry ∈ derivedEntries description, ∀ other ∈ derivedEntries description,
      entry.derivationResourceId = other.derivationResourceId → entry.issuer = other.issuer)
    {entry : DerivedFrom} (hentry : entry ∈ derivedEntries description)
    (store : KeyValueStorage String String) :
    (updateDerivations description previous store).get entry.derivationResourceId =
      some entry.issuer := by
  have hkept : entry.derivationResourceId ∉ removedDerivedIds description previous := by
    rw [mem_removedDerivedIds]
    exact fun h => h.2 ⟨entry, hentry, rfl⟩
  rw [updateDerivations, get_deleteIssuers, if_neg hkept]
  exact get_storeIssuers hsame hentry store

/-! ## Steps and runs -/

section Steps

variable {id owner : String} {description : ResourceDescription}
  {previous : Option ResourceDescription} {change : QuadChange} {s : ServerState}

/-- Registering a consistent description, over the one it replaces. -/
theorem indexed_withMetadata (hindexed : DerivationsIndexed s)
    (hprevious : (s.registrationStore.get id).map Registration.description = previous)
    (hconsistent : ConsistentDerivations s id description previous) :
    DerivationsIndexed (withMetadata id owner description previous change s) where
  stored := by
    intro otherId registration hget entry hentry
    rw [registrationStore_withMetadata] at hget
    show (updateDerivations description previous s.derivationStore).get _ = _
    by_cases hid : otherId = id
    · rw [if_pos hid, Option.some_inj] at hget
      subst hget
      exact get_updateDerivations hconsistent.sameIssuer hentry _
    · rw [if_neg hid] at hget
      by_cases hnamed : NamesDerivation description entry.derivationResourceId
      · obtain ⟨new, hnew, hsame⟩ := hnamed
        have hissuer : new.issuer = entry.issuer :=
          hconsistent.agrees new hnew otherId registration hid hget entry hentry hsame
        rw [← hsame, ← hissuer]
        exact get_updateDerivations hconsistent.sameIssuer hnew _
      · have hold : ∀ old ∈ previous, ¬ NamesDerivation old entry.derivationResourceId :=
          fun old hmem hold => hconsistent.dropped old hmem _ hold hnamed otherId registration
            hid hget ⟨entry, hentry, rfl⟩
        rw [get_updateDerivations_of_not_named hnamed hold]
        exact hindexed.stored otherId registration hget entry hentry
  named := by
    intro derivation issuer hget
    have hget : (updateDerivations description previous s.derivationStore).get derivation =
      some issuer := hget
    by_cases hnamed : NamesDerivation description derivation
    · exact ⟨id, { owner, description }, by simp, hnamed⟩
    · by_cases hold : ∃ old ∈ previous, NamesDerivation old derivation
      · rw [get_updateDerivations_of_dropped hnamed hold] at hget
        cases hget
      · have hnone : ∀ old ∈ previous, ¬ NamesDerivation old derivation :=
          fun old hmem h => hold ⟨old, hmem, h⟩
        rw [get_updateDerivations_of_not_named hnamed hnone] at hget
        obtain ⟨otherId, registration, hother, hnames⟩ := hindexed.named derivation issuer hget
        refine ⟨otherId, registration, ?_, hnames⟩
        rw [registrationStore_withMetadata, if_neg]
        · exact hother
        · rintro rfl
          rw [hother] at hprevious
          exact hnone _ hprevious.symm hnames

theorem indexed_withoutResource (hindexed : DerivationsIndexed s)
    (hnamed : ∀ registration, s.registrationStore.get id = some registration →
      ∀ derivation, NamesDerivation registration.description derivation →
        ∃ otherId other, otherId ≠ id ∧ s.registrationStore.get otherId = some other ∧
          NamesDerivation other.description derivation) :
    DerivationsIndexed (withoutResource id owner s) where
  stored := by
    intro otherId registration hget entry hentry
    rw [registrationStore_withoutResource] at hget
    by_cases hid : otherId = id
    · rw [if_pos hid] at hget
      cases hget
    · rw [if_neg hid] at hget
      exact hindexed.stored otherId registration hget entry hentry
  named := by
    intro derivation issuer hget
    obtain ⟨otherId, registration, hother, hnames⟩ := hindexed.named derivation issuer hget
    by_cases hid : otherId = id
    · subst hid
      obtain ⟨third, other, hne, hthird, hnames'⟩ := hnamed registration hother derivation hnames
      refine ⟨third, other, ?_, hnames'⟩
      rw [registrationStore_withoutResource, if_neg hne]
      exact hthird
    · refine ⟨otherId, registration, ?_, hnames⟩
      rw [registrationStore_withoutResource, if_neg hid]
      exact hother

theorem indexed_step {env : RegistrationEnvironment} {n : Nat} {r : RegistrationRequest}
    (hindexed : DerivationsIndexed s) (hfresh : FreshIdentifier env n r s)
    (htracks : TracksDerivations env n r s) : DerivationsIndexed (step env n r s) := by
  have heffect := step_effect env n r s
  generalize step env n r s = s' at heffect ⊢
  cases heffect with
  | read => exact hindexed
  | posted id change hmethod hnew hchange =>
    have hnone := hnew.unregistered hfresh
    have hupdated : DerivationsIndexed
        (withMetadata id r.owner (described r.request) none change s) :=
      indexed_withMetadata hindexed (by rw [hnone]; rfl) (htracks.posted hmethod id hnew)
    exact ⟨hupdated.stored, hupdated.named⟩
  | updated id previous change hmethod hid hentry hchange =>
    exact indexed_withMetadata hindexed (by rw [hentry]; rfl)
      (htracks.updated hmethod id _ hid hentry)
  | deleted id previous hmethod hid hentry =>
    exact indexed_withoutResource hindexed
      (fun registration hget => htracks.deleted hmethod id registration hid hget)

end Steps

/-- In a run whose requests keep it, the store is the index. -/
theorem derivationsIndexed_of_tracked (env : RegistrationEnvironment)
    (requests : List RegistrationRequest)
    (hfresh : Throughout (step env) (FreshIdentifier env) 0 requests ServerState.empty)
    (htracks : Throughout (step env) (TracksDerivations env) 0 requests ServerState.empty) :
    DerivationsIndexed (runAll env requests) := by
  have hempty : DerivationsIndexed ServerState.empty := by
    refine ⟨?_, ?_⟩
    · intro id registration hget
      cases hget
    · intro derivation issuer hget
      cases hget
  exact runFrom_invariant (fun _ => DerivationsIndexed)
    (fun n r s hindexed hboth => indexed_step hindexed hboth.1 hboth.2) hempty
    (hfresh.and htracks)

/-! ## Examples -/

def sampleEnvironment : RegistrationEnvironment where
  randomUUID n := "uuid-" ++ toString n
  blankNode n k := "b" ++ toString n ++ "-" ++ toString k
  toString _ := ""

/-- A resource derived from one with the given derivation id. -/
def derivedResource (method derivation : String) : RegistrationRequest where
  owner := "http://example.org/alice"
  request :=
    { method, parameters := [("id", "http://example.org/r")]
      body := .object [("resource_scopes", .array []), ("name", .string "http://example.org/r"),
        ("derived_from", .array [.object [("issuer", .string "http://example.org/as"),
          ("derivation_resource_id", .string derivation)]])] }

/-- Registering a derived resource, and deriving it from another one later. -/
theorem derivationsIndexed_of_tracked_put : DerivationsIndexed (runAll sampleEnvironment
    [derivedResource "POST" "d1", derivedResource "PUT" "d2"]) := by
  refine derivationsIndexed_of_tracked sampleEnvironment _ ⟨rfl, rfl, trivial⟩ ⟨?_, ?_, trivial⟩
  · refine ⟨fun _ id _ => ⟨?_, ?_, ?_⟩, fun h => absurd h (by decide), fun h => absurd h (by decide)⟩
    · intro entry hentry other hother _
      rw [List.mem_singleton.mp hentry, List.mem_singleton.mp hother]
    · intro _ _ otherId registration _ hget
      cases hget
    · intro old hold
      cases hold
  · refine ⟨fun h => absurd h (by decide), fun _ id registration hid hentry => ?_,
      fun h => absurd h (by decide)⟩
    have honly : ∀ otherId other, (step sampleEnvironment 0 (derivedResource "POST" "d1")
        ServerState.empty).registrationStore.get otherId = some other →
          otherId = "http://example.org/r" := by
      intro otherId other hget
      by_contra hne
      have hnone : (step sampleEnvironment 0 (derivedResource "POST" "d1")
          ServerState.empty).registrationStore.get otherId = none := if_neg hne
      rw [hnone] at hget
      cases hget
    have hid : id = "http://example.org/r" := honly id registration hentry
    refine ⟨?_, ?_, ?_⟩
    · intro entry hentry other hother _
      rw [List.mem_singleton.mp hentry, List.mem_singleton.mp hother]
    · intro _ _ otherId other hne hget
      exact absurd ((honly otherId other hget).trans hid.symm) hne
    · intro _ _ _ _ _ otherId other hne hget
      exact absurd ((honly otherId other hget).trans hid.symm) hne

/-- A deleted resource leaves its derivation id behind. -/
theorem derivation_outlives_resource : ¬ ∀ env requests,
    Throughout (step env) (FreshIdentifier env) 0 requests ServerState.empty →
      DerivationsIndexed (runAll env requests) := by
  intro hclaim
  have hindexed := hclaim sampleEnvironment
    [derivedResource "POST" "d1", derivedResource "DELETE" "d1"] ⟨rfl, rfl, trivial⟩
  obtain ⟨id, registration, hget, -⟩ := hindexed.named "d1" "http://example.org/as" rfl
  have hnone : (runAll sampleEnvironment [derivedResource "POST" "d1",
      derivedResource "DELETE" "d1"]).registrationStore.get id = none := by
    show (if id = "http://example.org/r" then none
      else if id = "http://example.org/r" then some _ else none) = none
    by_cases hid : id = "http://example.org/r"
    · rw [if_pos hid]
    · rw [if_neg hid, if_neg hid]
  rw [hnone] at hget
  cases hget

end ResourceRegistrationRequestHandler

end UserManagedAccess.Routes
