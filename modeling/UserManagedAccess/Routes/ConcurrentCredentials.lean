/-
UserManagedAccess.Routes.ConcurrentCredentials — client registrations, client
deletions and PAT requests that run at the same time on an empty storage.

A registration and a PAT request look for an object before they create one,
and other requests may run in between. `SafeStep` says that what is created is
still missing then.
-/
import UserManagedAccess.Routes.UmaProtection

namespace UserManagedAccess.Routes

open UserManagedAccess.Lib UserManagedAccess.Util

/-- At most one client registration for each user and client URI, and at most
one PAT for each client registration. -/
structure UniqueCredentials (s : CredentialState) : Prop where
  clients : s.clientRegistrations.UniqueBy fun registration =>
    (registration.userId, registration.clientUri)
  pats : s.pats.UniqueBy Pat.registration

/-! ## Requests -/

structure CredentialServer where
  clientRegistration : ClientRegistrationRequestHandler
  umaProtection : UmaProtection

inductive CredentialRequest where
  | client (request : HttpHandlerRequest)
  | pat (request : HttpHandlerRequest)

namespace CredentialServer

def respond (server : CredentialServer) (draws : Draws) :
    CredentialRequest → Async CredentialState HttpError HttpHandlerResponse
  | .client request => server.clientRegistration.handle draws request
  | .pat request => server.umaProtection.handle draws request

variable {ι : Type} [DecidableEq ι]

/-- The requests after a schedule. -/
def poolAfter (server : CredentialServer) (draws : ι → Draws)
    (requests : ι → CredentialRequest) (schedule : List ι) :
    Pool ι CredentialState HttpError HttpHandlerResponse :=
  (Pool.start (fun i => server.respond (draws i) (requests i)) CredentialState.empty).run schedule

end CredentialServer

/-! ## Steps that create an object -/

/-- The next step of the procedure makes this call. -/
def Performs {α β : Type} (p : Async CredentialState HttpError α)
    (operation : CredentialState.Call β) : Prop :=
  p.nextUpdate = fun s => (operation s).2

/-- What the step creates is still missing, where `p` is left of the request. -/
structure SafeStep {α : Type} (p : Async CredentialState HttpError α) (s : CredentialState) :
    Prop where
  registers : ∀ value, Performs p (CredentialState.createClientRegistration value) →
    ∀ entry ∈ s.clientRegistrations,
      (entry.value.userId, entry.value.clientUri) ≠ (value.userId, value.clientUri)
  issues : ∀ value, Performs p (CredentialState.createPat value) →
    ∀ entry ∈ s.pats, entry.value.registration ≠ value.registration

/-- Every step of the schedule is safe. -/
def CredentialServer.SafeRun {ι : Type} [DecidableEq ι] (server : CredentialServer)
    (draws : ι → Draws) (requests : ι → CredentialRequest) (schedule : List ι) : Prop :=
  ∀ before i later, schedule = before ++ i :: later →
    SafeStep ((server.poolAfter draws requests before).processes i)
      (server.poolAfter draws requests before).state

/-! ## What the storage keeps -/

namespace CredentialState

/-- Each PAT has an identifier of its own, and its client registration is
there. -/
structure Consistent (s : CredentialState) : Prop where
  numbered : ∀ entry ∈ s.pats, entry.id < s.created
  distinct : (s.pats.map Stored.id).Nodup
  refers : ∀ entry ∈ s.pats, s.clientRegistrations.has entry.value.registration = true

theorem consistent_empty : empty.Consistent where
  numbered _ h := nomatch h
  distinct := List.nodup_nil
  refers _ h := nomatch h

/-- An identifier a PAT of the registration got: it never belongs to a PAT of
another one. -/
def Belongs (id registration : Nat) (s : CredentialState) : Prop :=
  id < s.created ∧ ∀ entry ∈ s.pats, entry.id = id → entry.value.registration = registration

/-- The calls of the requests, where they happen. -/
inductive Write : (CredentialState → CredentialState) → CredentialState → Prop
  | reads (s) : Write id s
  | registers (value s) : Write (fun s => (createClientRegistration value s).2) s
  | unregisters (id s) : Write (fun s => (deleteClientRegistration id s).2) s
  | issues (value s) : Write (fun s => (createPat value s).2) s
  | renews (id value s) (h : Belongs id value.registration s) :
      Write (fun s => (setPat id value s).2) s

/-- What the calls of others do to a storage: they create no PAT with an
identifier that was used, and change the registration of none. -/
def Evolves (s t : CredentialState) : Prop :=
  s.Consistent → t.Consistent ∧ s.created ≤ t.created ∧
    ∀ entry ∈ t.pats, entry.id < s.created →
      ∃ old ∈ s.pats, old.id = entry.id ∧ old.value.registration = entry.value.registration

theorem evolves_refl (s : CredentialState) : Evolves s s := fun h =>
  ⟨h, Nat.le_refl _, fun entry hentry _ => ⟨entry, hentry, rfl, rfl⟩⟩

theorem evolves_trans {s t u : CredentialState} (hst : Evolves s t) (htu : Evolves t u) :
    Evolves s u := by
  intro hs
  obtain ⟨ht, hle, hold⟩ := hst hs
  obtain ⟨hu, hle', hold'⟩ := htu ht
  refine ⟨hu, Nat.le_trans hle hle', fun entry hentry hid => ?_⟩
  obtain ⟨middle, hmiddle, hmid, hmreg⟩ := hold' entry hentry (by omega)
  obtain ⟨old, hmem, hoid, horeg⟩ := hold middle hmiddle (by omega)
  exact ⟨old, hmem, hoid.trans hmid, horeg.trans hmreg⟩

/-- An identifier keeps its registration whatever others do. -/
theorem Belongs.evolves {id registration : Nat} {s t : CredentialState} (hs : s.Consistent)
    (h : Belongs id registration s) (hst : Evolves s t) : Belongs id registration t := by
  obtain ⟨-, hle, hold⟩ := hst hs
  refine ⟨by have := h.1; omega, fun entry hentry hid => ?_⟩
  obtain ⟨old, hmem, hoid, horeg⟩ := hold entry hentry (by have := h.1; omega)
  exact horeg.symm.trans (h.2 old hmem (hoid.trans hid))

theorem Consistent.belongs {s : CredentialState} (hs : s.Consistent) {entry : Stored Pat}
    (hentry : entry ∈ s.pats) : Belongs entry.id entry.value.registration s := by
  refine ⟨hs.numbered entry hentry, fun other hother hid => ?_⟩
  have heq : other = entry := List.inj_on_of_nodup_map hs.distinct hother hentry hid
  rw [heq]

/-! ### Each call -/

theorem evolves_register (value : ClientRegistration) (s : CredentialState) :
    Evolves s (createClientRegistration value s).2 := by
  intro hs
  have hconsistent : (createClientRegistration value s).2.Consistent := by
    refine ⟨fun entry hentry => ?_, hs.distinct, fun entry hentry => ?_⟩
    · exact Nat.lt_succ_of_lt (hs.numbered entry hentry)
    · obtain ⟨client, hclient, hid⟩ := Table.has_iff.mp (hs.refers entry hentry)
      exact Table.has_iff.mpr ⟨client, Table.mem_create.mpr (Or.inl hclient), hid⟩
  exact ⟨hconsistent, Nat.le_succ _, fun entry hentry _ => ⟨entry, hentry, rfl, rfl⟩⟩

theorem mem_pats_delete {id : Nat} {s : CredentialState} {entry : Stored Pat} :
    entry ∈ (deleteClientRegistration id s).2.pats ↔
      entry ∈ s.pats ∧ entry.value.registration ≠ id := by
  show entry ∈ s.pats.deleteAll (fun pat => pat.registration = id) ↔ _
  simp [Table.mem_deleteAll]

theorem evolves_unregister (id : Nat) (s : CredentialState) :
    Evolves s (deleteClientRegistration id s).2 := by
  intro hs
  have hconsistent : (deleteClientRegistration id s).2.Consistent := by
    refine ⟨fun entry hentry => ?_, ?_, fun entry hentry => ?_⟩
    · exact hs.numbered entry (mem_pats_delete.mp hentry).1
    · exact hs.distinct.sublist (List.filter_sublist.map _)
    · obtain ⟨hmem, hother⟩ := mem_pats_delete.mp hentry
      obtain ⟨client, hclient, hid⟩ := Table.has_iff.mp (hs.refers entry hmem)
      refine Table.has_iff.mpr ⟨client, List.mem_filter.mpr ⟨hclient, ?_⟩, hid⟩
      simpa [hid] using hother
  exact ⟨hconsistent, Nat.le_refl _, fun entry hentry _ =>
    ⟨entry, (mem_pats_delete.mp hentry).1, rfl, rfl⟩⟩

theorem evolves_issue (value : Pat) (s : CredentialState) : Evolves s (createPat value s).2 := by
  intro hs
  unfold createPat
  by_cases hhas : s.clientRegistrations.has value.registration = true
  · simp only [hhas, if_true]
    refine ⟨⟨fun entry hentry => ?_, ?_, fun entry hentry => ?_⟩, Nat.le_succ _,
      fun entry hentry hid => ?_⟩
    · rcases Table.mem_create.mp hentry with hold | rfl
      · exact Nat.lt_succ_of_lt (hs.numbered entry hold)
      · exact Nat.lt_succ_self _
    · have hfresh : ∀ entry ∈ s.pats, entry.id ≠ s.created := fun entry hentry =>
        Nat.ne_of_lt (hs.numbered entry hentry)
      simpa [Table.create, List.nodup_append, hs.distinct] using hfresh
    · rcases Table.mem_create.mp hentry with hold | rfl
      · exact hs.refers entry hold
      · exact hhas
    · rcases Table.mem_create.mp hentry with hold | rfl
      · exact ⟨entry, hold, rfl, rfl⟩
      · exact absurd hid (Nat.lt_irrefl _)
  · simp only [hhas]
    exact evolves_refl s hs

theorem evolves_renew {id : Nat} {value : Pat} {s : CredentialState}
    (h : Belongs id value.registration s) : Evolves s (setPat id value s).2 := by
  intro hs
  unfold setPat
  by_cases hhas : s.pats.has id = true
  · simp only [hhas, if_true]
    have hsame : ∀ entry ∈ s.pats.set id value, ∃ old ∈ s.pats,
        old.id = entry.id ∧ old.value.registration = entry.value.registration := by
      intro entry hentry
      rcases Table.mem_of_mem_set hentry with hold | ⟨rfl, old, hold, hid⟩
      · exact ⟨entry, hold, rfl, rfl⟩
      · exact ⟨old, hold, hid, h.2 old hold hid⟩
    refine ⟨⟨fun entry hentry => ?_, ?_, fun entry hentry => ?_⟩, Nat.le_refl _,
      fun entry hentry _ => hsame entry hentry⟩
    · obtain ⟨old, hold, hid, -⟩ := hsame entry hentry
      exact hid ▸ hs.numbered old hold
    · have hids : (s.pats.set id value).map Stored.id = s.pats.map Stored.id := by
        unfold Table.set
        rw [List.map_map]
        refine List.map_congr_left fun entry _ => ?_
        by_cases hid : entry.id = id <;> simp [hid]
      rw [hids]
      exact hs.distinct
    · obtain ⟨old, hold, -, hreg⟩ := hsame entry hentry
      exact hreg ▸ hs.refers old hold
  · simp only [hhas]
    exact evolves_refl s hs

theorem Write.evolves {update : CredentialState → CredentialState} {s : CredentialState}
    (h : Write update s) : Evolves s (update s) := by
  cases h with
  | reads => exact evolves_refl s
  | registers value => exact evolves_register value s
  | unregisters id => exact evolves_unregister id s
  | issues value => exact evolves_issue value s
  | renews id value _ hbelongs => exact evolves_renew hbelongs

end CredentialState

end UserManagedAccess.Routes
