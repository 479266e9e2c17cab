/-
UserManagedAccess.Routes.ConcurrentCredentialTheorems — when credentials stay
unique.

The storage handles one call at a time, so a step of a request is one call on it
and then a pause. What it relies on (that the client is not there yet, that no
PAT was made for it meanwhile) was read in an earlier step. `SafeStep` says that
it still holds, and this is exact: a step keeps the credentials unique if and
only if it creates what is missing, one call at a time.

* `steps_respond` — every step of a request is one call on the storage;
* `uniqueCredentials_step`, `safeStep_of_unique` — the two directions for a step;
* `uniqueCredentials_exact` — the credentials are unique at every moment of a
  run exactly when every step creates what is missing;
* `credentials_duplicated` — two requests of the same client that overlap.

Requests, schedule and the random values are arbitrary: nothing here rests on
UUIDs being different.
-/
import Mathlib.Data.List.Induction
import UserManagedAccess.Routes.ConcurrentCredentials

namespace UserManagedAccess.Routes

open UserManagedAccess.Lib UserManagedAccess.Util UserManagedAccess.Credentials
open UserManagedAccess.Dialog
open CredentialState (Write Evolves Belongs)

/-! ## The steps of a request -/

section Steps

variable {α : Type} {s : CredentialState}

/-- Each step of the procedure is one call on the storage. -/
abbrev OneCall (p : Async CredentialState HttpError α) (s : CredentialState) : Prop :=
  Async.Steps Evolves Write (fun _ _ _ => True) true p s

theorem OneCall.yield {f : Unit → Async CredentialState HttpError α}
    (hs : s.Consistent) (hf : ∀ t, Evolves s t → t.Consistent → OneCall (f ()) t) :
    OneCall (Async.yield >>= f) s :=
  fun t ht => hf t ht (ht hs).1

theorem OneCall.call {β : Type} {operation : CredentialState.Call β}
    {f : β → Async CredentialState HttpError α} (hs : s.Consistent)
    (hwrite : Write (fun s => (operation s).2) s)
    (hf : ∀ b t, (operation s).1 = .ok b → Evolves s t → t.Consistent → OneCall (f b) t) :
    OneCall (Async.call operation >>= f) s := by
  refine Async.Steps.call hwrite (fun _ _ => trivial) fun b t hb ht => ?_
  have hst : Evolves s t := CredentialState.evolves_trans hwrite.evolves ht
  exact hf b t hb hst (hst hs).1

theorem OneCall.lift {β : Type} {r : Except HttpError β}
    {f : β → Async CredentialState HttpError α} (hf : ∀ b, r = .ok b → OneCall (f b) s) :
    OneCall ((liftM r : Async CredentialState HttpError β) >>= f) s :=
  Async.Steps.lift (fun _ => trivial) hf

theorem OneCall.done {r : Except HttpError α} : OneCall (.done r) s := trivial

end Steps

namespace ClientRegistrationRequestHandler

variable {draws : Draws} {request : HttpHandlerRequest} {userId : String} {s : CredentialState}

theorem steps_getClients (hs : s.Consistent) : OneCall (getClients userId) s :=
  OneCall.call hs (Write.reads s) fun _ _ _ _ _ => OneCall.done

theorem steps_registerClient (hs : s.Consistent) :
    OneCall (registerClient draws request userId) s := by
  unfold registerClient
  cases ClientRegistrationInput request.body with
  | error message => exact OneCall.done
  | ok u =>
    refine OneCall.call hs (Write.reads s) fun matched t _ _ ht => ?_
    by_cases hmatched : matched.length > 0
    · rw [if_pos hmatched]
      exact OneCall.done
    · rw [if_neg hmatched]
      exact OneCall.call ht (Write.registers _ t) fun _ _ _ _ _ => OneCall.done

theorem steps_deleteClient (hs : s.Consistent) : OneCall (deleteClient request userId) s := by
  unfold deleteClient
  cases request.parameters.get "id" with
  | none => exact OneCall.done
  | some id =>
    refine OneCall.call hs (Write.reads s) fun matched t _ _ ht => ?_
    cases matched with
    | nil => exact OneCall.done
    | cons first rest =>
      by_cases howner : first.value.userId ≠ userId
      · simp only [if_pos howner]
        exact OneCall.done
      · simp only [if_neg howner]
        exact OneCall.call ht (Write.unregisters first.id t) fun _ _ _ _ _ => OneCall.done

theorem steps_handle (handler : ClientRegistrationRequestHandler) (hs : s.Consistent) :
    OneCall (handler.handle draws request) s := by
  refine OneCall.lift fun credential _ => OneCall.yield hs fun t _ ht => ?_
  refine OneCall.lift fun claims _ => OneCall.yield ht fun u _ hu => ?_
  cases userIds claims with
  | nil => exact OneCall.done
  | cons userId rest =>
    simp only
    split
    · exact steps_getClients hu
    · exact steps_registerClient hu
    · exact steps_deleteClient hu
    · exact OneCall.done

end ClientRegistrationRequestHandler

namespace UmaProtection

variable {server : UmaProtection} {draws : Draws} {s : CredentialState}
  {authorization : Option String}

theorem steps_findRegistration {α : Type} {f : Stored ClientRegistration →
    Async CredentialState HttpError α} (hs : s.Consistent)
    (hf : ∀ registration t, Evolves s t → t.Consistent → OneCall (f registration) t) :
    OneCall (server.findRegistration authorization >>= f) s := by
  unfold findRegistration
  rw [Async.bind_assoc]
  refine OneCall.lift fun credentials _ => ?_
  rw [Async.bind_assoc]
  refine OneCall.call hs (Write.reads s) fun matched t _ hst ht => ?_
  cases matched with
  | nil => exact OneCall.done
  | cons first rest => exact hf first t hst ht

/-- A token replaces an entry of its own registration. -/
theorem steps_generateToken {registration : Stored ClientRegistration} {id : Option Nat}
    {f : Json → Async CredentialState HttpError HttpHandlerResponse}
    (hs : s.Consistent) (hid : ∀ n, id = some n → Belongs n registration.id s)
    (hf : ∀ body t, OneCall (f body) t) :
    OneCall (server.generateToken draws registration id >>= f) s := by
  unfold generateToken
  simp only [Async.bind_assoc]
  refine OneCall.lift fun key _ => OneCall.yield hs fun t hst ht => ?_
  refine OneCall.lift fun jwk _ => OneCall.yield ht fun u htu hu => ?_
  refine OneCall.lift fun pat _ => OneCall.yield hu fun v huv hv => ?_
  cases id with
  | none =>
    simp only [Async.bind_assoc]
    exact OneCall.call hv (Write.issues _ v) fun _ w _ _ _ => hf _ w
  | some n =>
    have hsv : Evolves s v :=
      CredentialState.evolves_trans hst (CredentialState.evolves_trans htu huv)
    have hbelongs : Belongs n registration.id v := (hid n rfl).evolves hs hsv
    simp only [Async.bind_assoc]
    exact OneCall.call hv (Write.renews n (Pat.mk pat _ _ registration.id) v hbelongs)
      fun _ w _ _ _ => hf _ w

theorem steps_handleClientCredentials (hs : s.Consistent) :
    OneCall (server.handleClientCredentials draws authorization) s := by
  refine steps_findRegistration hs fun registration t _ ht => ?_
  refine OneCall.call ht (Write.reads t) fun matched u hmatched htu hu => ?_
  refine steps_generateToken hu (fun n hn => ?_) fun _ _ => OneCall.done
  have hfound : n ∈ t.pats.findIds fun pat => pat.registration = registration.id := by
    cases hmatched
    exact List.mem_of_mem_head? hn
  obtain ⟨entry, hentry, hregistration, rfl⟩ := Table.mem_findIds.mp hfound
  have hbelongs : Belongs entry.id entry.value.registration t := ht.belongs hentry
  rw [of_decide_eq_true hregistration] at hbelongs
  exact hbelongs.evolves ht htu

theorem steps_handleRefreshToken {refreshToken : Option String} (hs : s.Consistent) :
    OneCall (server.handleRefreshToken draws refreshToken authorization) s := by
  unfold handleRefreshToken
  cases DialogInput.truthy refreshToken with
  | none => exact OneCall.done
  | some token =>
    refine OneCall.call hs (Write.reads s) fun pats t hpats hst ht => ?_
    cases pats with
    | nil => exact OneCall.done
    | cons first rest =>
      have hfound : first ∈ s.pats.find fun pat => pat.refreshToken = token := by
        rw [Except.ok.inj hpats]
        exact List.mem_cons_self
      have hbelongs : Belongs first.id first.value.registration s :=
        hs.belongs (Table.mem_find.mp hfound).1
      refine steps_findRegistration ht fun registration u htu hu => ?_
      by_cases hregistration : registration.id ≠ first.value.registration
      · simp only [if_pos hregistration]
        exact OneCall.done
      · simp only [if_neg hregistration]
        refine steps_generateToken hu (fun n hn => ?_) fun _ _ => OneCall.done
        cases hn
        rw [not_not.mp hregistration]
        exact hbelongs.evolves hs (CredentialState.evolves_trans hst htu)

theorem steps_handle {request : HttpHandlerRequest} (hs : s.Consistent) :
    OneCall (server.handle draws request) s := by
  simp only [handle]
  cases DialogInput.assertion request.body with
  | error message => exact OneCall.done
  | ok u =>
    simp only
    split
    · exact OneCall.done
    · split
      · exact steps_handleClientCredentials hs
      · exact steps_handleRefreshToken hs
      · exact OneCall.done

end UmaProtection

/-! ## Runs -/

namespace CredentialServer

variable {ι : Type} [DecidableEq ι] {server : CredentialServer} {draws : ι → Draws}
  {requests : ι → CredentialRequest}

/-- Every step of a request is one call on the storage. -/
theorem steps_respond {draws : Draws} {request : CredentialRequest} {s : CredentialState}
    (hs : s.Consistent) : OneCall (server.respond draws request) s := by
  cases request with
  | client request => exact ClientRegistrationRequestHandler.steps_handle _ hs
  | pat request => exact UmaProtection.steps_handle hs

theorem calls_poolAfter (server : CredentialServer) (draws : ι → Draws)
    (requests : ι → CredentialRequest) (schedule : List ι) :
    (server.poolAfter draws requests schedule).Calls Evolves Write ∧
      (server.poolAfter draws requests schedule).state.Consistent := by
  refine Pool.run_invariant (fun pool => pool.Calls Evolves Write ∧ pool.state.Consistent)
    ⟨fun i t ht => ?_, CredentialState.consistent_empty⟩ fun before i later _ hbefore => ?_
  · exact steps_respond (ht CredentialState.consistent_empty).1
  · obtain ⟨hcalls, hconsistent⟩ := hbefore
    obtain ⟨hwrite, hstate⟩ :=
      Pool.step_of_calls CredentialState.evolves_refl Write.reads hcalls i
    refine ⟨Pool.calls_step CredentialState.evolves_refl CredentialState.evolves_trans
      Write.reads (fun _ _ => Write.evolves) hcalls i, ?_⟩
    rw [hstate]
    exact (hwrite.evolves hconsistent).1

/-! ## Unique credentials -/

section Step

variable {α : Type} {p : Async CredentialState HttpError α} {s : CredentialState}

/-- A safe step keeps the credentials unique. -/
theorem uniqueCredentials_step (hwrite : Write p.nextUpdate s) (hsafe : SafeStep p s)
    (h : UniqueCredentials s) : UniqueCredentials (p.nextUpdate s) := by
  generalize hupdate : p.nextUpdate = update at hwrite
  cases hwrite with
  | reads => exact h
  | registers value =>
    exact ⟨Table.UniqueBy.create_iff.mpr ⟨h.clients, hsafe.registers value hupdate⟩, h.pats⟩
  | unregisters id => exact ⟨h.clients.filter _, h.pats.filter _⟩
  | issues value =>
    have hcreated : (s.pats.create s.created value).UniqueBy Pat.registration :=
      Table.UniqueBy.create_iff.mpr ⟨h.pats, hsafe.issues value hupdate⟩
    show UniqueCredentials (CredentialState.createPat value s).2
    unfold CredentialState.createPat
    split
    · exact ⟨h.clients, hcreated⟩
    · exact h
  | renews id value _ hbelongs =>
    have hset : (s.pats.set id value).UniqueBy Pat.registration :=
      (Table.UniqueBy.set_iff hbelongs.2).mpr h.pats
    show UniqueCredentials (CredentialState.setPat id value s).2
    unfold CredentialState.setPat
    split
    · exact ⟨h.clients, hset⟩
    · exact h

/-- A step after which the credentials are unique was safe. -/
theorem safeStep_of_unique (hs : s.Consistent) (h : UniqueCredentials (p.nextUpdate s)) :
    SafeStep p s := by
  constructor
  · intro value hperforms
    rw [hperforms] at h
    exact (Table.UniqueBy.create_iff.mp h.clients).2
  · intro value hperforms entry hentry hregistration
    have hhas : s.clientRegistrations.has value.registration = true :=
      hregistration ▸ hs.refers entry hentry
    rw [hperforms] at h
    simp only [CredentialState.createPat, hhas, if_true] at h
    exact (Table.UniqueBy.create_iff.mp h.pats).2 entry hentry hregistration

end Step

theorem poolAfter_snoc (before : List ι) (i : ι) :
    server.poolAfter draws requests (before ++ [i]) =
      (server.poolAfter draws requests before).step i :=
  Pool.run_append _ before [i]

/-- The credentials are unique at every moment of a run exactly when every
step of it creates what is missing. -/
theorem uniqueCredentials_exact (server : CredentialServer) (draws : ι → Draws)
    (requests : ι → CredentialRequest) (schedule : List ι) :
    (∀ before later, schedule = before ++ later →
      UniqueCredentials (server.poolAfter draws requests before).state) ↔
    server.SafeRun draws requests schedule := by
  constructor
  · intro h before i later hsplit
    obtain ⟨hcalls, hconsistent⟩ := calls_poolAfter server draws requests before
    have hunique := h (before ++ [i]) later (by rw [hsplit, List.append_assoc]; rfl)
    rw [poolAfter_snoc,
      (Pool.step_of_calls CredentialState.evolves_refl Write.reads hcalls i).2] at hunique
    exact safeStep_of_unique hconsistent hunique
  · intro hsafe before
    induction before using List.reverseRecOn with
    | nil => exact fun _ _ => ⟨Table.UniqueBy.nil, Table.UniqueBy.nil⟩
    | append_singleton before i ih =>
      intro later hsplit
      have hsplit' : schedule = before ++ i :: later := by
        rw [hsplit, List.append_assoc]
        rfl
      obtain ⟨hwrite, hstate⟩ := Pool.step_of_calls CredentialState.evolves_refl Write.reads
        (calls_poolAfter server draws requests before).1 i
      rw [poolAfter_snoc, hstate]
      exact uniqueCredentials_step hwrite (hsafe before i later hsplit') (ih _ hsplit')

/-! ### Requests that overlap -/

/-- A server where one user has logged in, and every client presents the
credentials of the first registration. -/
def soleUser : CredentialServer where
  clientRegistration :=
    { credentialParser := fun _ => .ok { token := "token", format := "format" }
      verifier := fun _ => .ok [(WEBID, [.string "https://alice.example/profile/card#me"])] }
  umaProtection :=
    { tokenExpiration := 1800
      baseUrl := "https://as.example/uma"
      getPrivateKey := .ok { alg := "ES256", kid := "key", secret := "secret" }
      importJWK := .ok
      sign := fun _ payload => .ok payload.jti
      isBasic := fun authorization => authorization.toList.take 6 == "Basic ".toList
      fromBase64 := fun _ => "a0:secret"
      decodeURIComponent := .ok }

def numberedDraws (n : Nat) : Draws where
  randomUUID k := String.ofList ['a'.toNat + k |> Char.ofNat, '0'.toNat + n |> Char.ofNat]
  randomBytes := "secret"
  now := 0

/-- Two registrations of one client, and then two requests for its PAT. -/
def overlappingRequests : Nat → CredentialRequest
  | 0 | 1 => .client
      { method := "POST", body := .object [("client_uri", .string "https://rs.example/")] }
  | _ => .pat
      { method := "POST", headers := [("authorization", "Basic YTA6c2VjcmV0")]
        body := .object [("grant_type", .string "client_credentials"),
          ("scope", .string UMA_PROTECTION_SCOPE)] }

/-- Each time both look before either creates. -/
def overlapped : CredentialState :=
  (soleUser.poolAfter numberedDraws overlappingRequests
    [0, 1, 0, 1, 0, 1, 0, 1, 2, 3, 2, 3, 2, 3, 2, 3, 2, 3, 2, 3]).state

/-- The user has the client twice, and its first registration has two refresh
tokens. -/
theorem credentials_duplicated :
    ¬ (overlapped.clientRegistrations.UniqueBy fun registration =>
        (registration.userId, registration.clientUri)) ∧
      ¬ overlapped.pats.UniqueBy Pat.registration ∧
      overlapped.pats.map (fun entry => (entry.value.registration, entry.value.refreshToken)) =
        [(0, "a2"), (0, "a3")] := by
  decide +kernel

end CredentialServer

end UserManagedAccess.Routes
