/-
UserManagedAccess.Routes.PatRequestTheorems — whom a PAT stands for.

The requests run at the same time on one storage. `Genuine` is what the
storage keeps: every client in it was registered, and every PAT in it was
signed for its client by a request with the credentials of that client. What a
request has read it still relies on in later steps, so that `Acts` carries along
what the others cannot change meanwhile: a client that was found stays the only
one with its identifier (`Known`, `Progress`).

* `callsBy_protectionAfter` — every step of a request is one call it may make,
  and the storage stays genuine;
* `accepted_minted` — a PAT is only accepted for the user who registered the
  client it was signed for;
* `revoked_refused` — a PAT that is gone is never accepted again: the one request
  that stores it writes once, and was through with that (`silent_or_absent`).

`accepted_minted` takes nothing for granted: keys, clocks, random values and the
schedule are arbitrary. For `revoked_refused` no two requests sign the same
token, as their `jti`s are different UUIDs.
-/
import UserManagedAccess.Lib.Authors
import UserManagedAccess.Routes.ConcurrentCredentialTheorems
import UserManagedAccess.Routes.PatRequestValidator

namespace UserManagedAccess.Routes

open UserManagedAccess.Lib UserManagedAccess.Util UserManagedAccess.Dialog
open UserManagedAccess.Credentials
open CredentialState (Write Evolves Belongs)

namespace CredentialServer

variable {ι : Type} {server : CredentialServer} {draws : ι → Draws}
  {requests : ι → ProtectionRequest} {s t : CredentialState} {i : ι}

/-! ## What the storage keeps -/

section

variable (server : CredentialServer) (draws : ι → Draws) (requests : ι → ProtectionRequest)

structure Genuine (s : CredentialState) : Prop where
  consistent : s.Consistent
  numbered : ∀ client ∈ s.clientRegistrations, client.id < s.created
  distinct : (s.clientRegistrations.map Stored.id).Nodup
  registered : ∀ client ∈ s.clientRegistrations, Registered server draws requests client.value
  minted : ∀ pat ∈ s.pats, ∀ client ∈ s.clientRegistrations, client.id = pat.value.registration →
    ∃ j, Minted server draws requests j client.value pat.value

/-- What the calls of others do to a storage: they change no client. -/
structure Progress (s t : CredentialState) : Prop where
  genuine : Genuine server draws requests t
  evolves : Evolves s t
  clients : ∀ client ∈ t.clientRegistrations, client.id < s.created →
    client ∈ s.clientRegistrations

def Progresses (s t : CredentialState) : Prop :=
  Genuine server draws requests s → Progress server draws requests s t

/-- The calls of the request, where they happen. -/
inductive WriteBy (i : ι) : (CredentialState → CredentialState) → CredentialState → Prop
  | reads (s : CredentialState) : WriteBy i id s
  | registers (value) (s : CredentialState) (h : Registered server draws requests value) :
      WriteBy i (fun s => (CredentialState.createClientRegistration value s).2) s
  | unregisters (id) (s : CredentialState) : WriteBy i (fun s => (CredentialState.deleteClientRegistration id s).2) s
  | issues (value : Pat) (s : CredentialState) (h : ∀ client ∈ s.clientRegistrations, client.id = value.registration →
        Minted server draws requests i client.value value) :
      WriteBy i (fun s => (CredentialState.createPat value s).2) s
  | renews (id) (value : Pat) (s : CredentialState) (hid : Belongs id value.registration s)
      (h : ∀ client ∈ s.clientRegistrations, client.id = value.registration →
        Minted server draws requests i client.value value) :
      WriteBy i (fun s => (CredentialState.setPat id value s).2) s

end

theorem genuine_empty : Genuine server draws requests CredentialState.empty where
  consistent := CredentialState.consistent_empty
  numbered _ h := nomatch h
  distinct := List.nodup_nil
  registered _ h := nomatch h
  minted _ h := nomatch h

theorem Genuine.client_unique (h : Genuine server draws requests s) {a b : Stored ClientRegistration}
    (ha : a ∈ s.clientRegistrations) (hb : b ∈ s.clientRegistrations) (hid : a.id = b.id) : a = b :=
  List.inj_on_of_nodup_map h.distinct ha hb hid

theorem progresses_refl (s : CredentialState) : Progresses server draws requests s s := fun h =>
  ⟨h, CredentialState.evolves_refl s, fun _ hclient _ => hclient⟩

theorem progresses_trans {u : CredentialState} (hst : Progresses server draws requests s t)
    (htu : Progresses server draws requests t u) : Progresses server draws requests s u := by
  intro hs
  have ht := hst hs
  have hu := htu ht.genuine
  refine ⟨hu.genuine, CredentialState.evolves_trans ht.evolves hu.evolves,
    fun client hclient hid => ?_⟩
  have hle : s.created ≤ t.created := (ht.evolves hs.consistent).2.1
  exact ht.clients client (hu.clients client hclient (by omega)) hid

theorem WriteBy.write {update : CredentialState → CredentialState}
    (h : WriteBy server draws requests i update s) : Write update s := by
  cases h with
  | reads => exact .reads s
  | registers value => exact .registers value s
  | unregisters id => exact .unregisters id s
  | issues value => exact .issues value s
  | renews id value _ hid => exact .renews id value s hid

/-! ### Each call -/

theorem genuine_registers {value : ClientRegistration} (h : Genuine server draws requests s)
    (hvalue : Registered server draws requests value) :
    Genuine server draws requests (CredentialState.createClientRegistration value s).2 where
  consistent := (CredentialState.evolves_register value s h.consistent).1
  numbered client hclient := by
    rcases Table.mem_create.mp hclient with hold | rfl
    · exact Nat.lt_succ_of_lt (h.numbered client hold)
    · exact Nat.lt_succ_self _
  distinct := by
    have hfresh : ∀ client ∈ s.clientRegistrations, client.id ≠ s.created := fun client hclient =>
      Nat.ne_of_lt (h.numbered client hclient)
    simpa [CredentialState.createClientRegistration, Table.create, List.nodup_append, h.distinct]
      using hfresh
  registered client hclient := by
    rcases Table.mem_create.mp hclient with hold | rfl
    · exact h.registered client hold
    · exact hvalue
  minted pat hpat client hclient hid := by
    rcases Table.mem_create.mp hclient with hold | rfl
    · exact h.minted pat hpat client hold hid
    · -- a PAT refers to a client that was there before
      obtain ⟨old, hold, hreg⟩ := Table.has_iff.mp (h.consistent.refers pat hpat)
      have hlt := h.numbered old hold
      have hnew : s.created = pat.value.registration := hid
      omega

theorem mem_clients_delete {id : Nat} {client : Stored ClientRegistration} :
    client ∈ (CredentialState.deleteClientRegistration id s).2.clientRegistrations ↔
      client ∈ s.clientRegistrations ∧ client.id ≠ id := by
  show client ∈ s.clientRegistrations.delete id ↔ _
  simp [Table.delete]

theorem genuine_unregisters {id : Nat} (h : Genuine server draws requests s) :
    Genuine server draws requests (CredentialState.deleteClientRegistration id s).2 where
  consistent := (CredentialState.evolves_unregister id s h.consistent).1
  numbered client hclient := h.numbered client (mem_clients_delete.mp hclient).1
  distinct := h.distinct.sublist (List.filter_sublist.map _)
  registered client hclient := h.registered client (mem_clients_delete.mp hclient).1
  minted pat hpat client hclient hid :=
    h.minted pat (CredentialState.mem_pats_delete.mp hpat).1 client
      (mem_clients_delete.mp hclient).1 hid

/-- A storage with the same clients, and only PATs that were there or are
signed for theirs. -/
theorem genuine_pats (h : Genuine server draws requests s) (hconsistent : t.Consistent)
    (hclients : t.clientRegistrations = s.clientRegistrations) (hcreated : s.created ≤ t.created)
    (hpats : ∀ pat ∈ t.pats, pat ∈ s.pats ∨
      ∀ client ∈ s.clientRegistrations, client.id = pat.value.registration →
        ∃ j, Minted server draws requests j client.value pat.value) :
    Genuine server draws requests t where
  consistent := hconsistent
  numbered client hclient :=
    Nat.lt_of_lt_of_le (h.numbered client (hclients ▸ hclient)) hcreated
  distinct := hclients ▸ h.distinct
  registered client hclient := h.registered client (hclients ▸ hclient)
  minted pat hpat client hclient hid := by
    rw [hclients] at hclient
    rcases hpats pat hpat with hold | hminted
    · exact h.minted pat hold client hclient hid
    · exact hminted client hclient hid

theorem clients_createPat (value : Pat) (s : CredentialState) :
    (CredentialState.createPat value s).2.clientRegistrations = s.clientRegistrations := by
  unfold CredentialState.createPat
  split <;> rfl

theorem clients_setPat (id : Nat) (value : Pat) (s : CredentialState) :
    (CredentialState.setPat id value s).2.clientRegistrations = s.clientRegistrations := by
  unfold CredentialState.setPat
  split <;> rfl

theorem mem_pats_createPat {value : Pat} {pat : Stored Pat}
    (h : pat ∈ (CredentialState.createPat value s).2.pats) :
    pat ∈ s.pats ∨ pat.value = value ∧ s.clientRegistrations.has value.registration = true := by
  unfold CredentialState.createPat at h
  split at h
  · rename_i hhas
    rcases Table.mem_create.mp h with hold | rfl
    · exact Or.inl hold
    · exact Or.inr ⟨rfl, hhas⟩
  · exact Or.inl h

theorem mem_pats_setPat {id : Nat} {value : Pat} {pat : Stored Pat}
    (h : pat ∈ (CredentialState.setPat id value s).2.pats) :
    pat ∈ s.pats ∨ pat.value = value ∧ ∃ old ∈ s.pats, old.id = id := by
  unfold CredentialState.setPat at h
  split at h
  · rcases Table.mem_of_mem_set h with hold | ⟨rfl, hreplaced⟩
    · exact Or.inl hold
    · exact Or.inr ⟨rfl, hreplaced⟩
  · exact Or.inl h

theorem WriteBy.progresses {update : CredentialState → CredentialState}
    (h : WriteBy server draws requests i update s) :
    Progresses server draws requests s (update s) := by
  intro hs
  have hevolves : Evolves s (update s) := h.write.evolves
  obtain ⟨hconsistent, hcreated, -⟩ := hevolves hs.consistent
  refine ⟨?_, hevolves, ?_⟩
  · cases h with
    | reads => exact hs
    | registers value _ hvalue => exact genuine_registers hs hvalue
    | unregisters id => exact genuine_unregisters hs
    | issues value _ hminted =>
      refine genuine_pats hs hconsistent (clients_createPat value s) hcreated fun pat hpat => ?_
      refine (mem_pats_createPat hpat).imp_right fun ⟨hvalue, _⟩ client hclient hid => ⟨i, ?_⟩
      rw [hvalue] at hid ⊢
      exact hminted client hclient hid
    | renews id value _ _ hminted =>
      refine genuine_pats hs hconsistent (clients_setPat id value s) hcreated fun pat hpat => ?_
      refine (mem_pats_setPat hpat).imp_right fun ⟨hvalue, _⟩ client hclient hid => ⟨i, ?_⟩
      rw [hvalue] at hid ⊢
      exact hminted client hclient hid
  · intro client hclient hid
    cases h with
    | reads => exact hclient
    | registers value =>
      rcases Table.mem_create.mp hclient with hold | rfl
      · exact hold
      · exact absurd hid (Nat.lt_irrefl _)
    | unregisters id => exact (mem_clients_delete.mp hclient).1
    | issues value =>
      have hsame := clients_createPat value s
      exact hsame ▸ hclient
    | renews id value =>
      have hsame := clients_setPat id value s
      exact hsame ▸ hclient

/-- What a request stores, it signed. -/
theorem minted_of_write {update : CredentialState → CredentialState} {pat : Stored Pat}
    (hs : Genuine server draws requests s) (h : WriteBy server draws requests i update s)
    (hpat : pat ∈ (update s).pats) :
    pat ∈ s.pats ∨ ∃ client, Minted server draws requests i client pat.value := by
  cases h with
  | reads => exact Or.inl hpat
  | registers value => exact Or.inl hpat
  | unregisters id => exact Or.inl (CredentialState.mem_pats_delete.mp hpat).1
  | issues value _ hminted =>
    refine (mem_pats_createPat hpat).imp_right fun ⟨hvalue, hhas⟩ => ?_
    obtain ⟨client, hclient, hid⟩ := Table.has_iff.mp hhas
    exact ⟨client.value, hvalue ▸ hminted client hclient hid⟩
  | renews id value _ hbelongs hminted =>
    refine (mem_pats_setPat hpat).imp_right fun ⟨hvalue, old, hold, hid⟩ => ?_
    obtain ⟨client, hclient, hsame⟩ := Table.has_iff.mp (hs.consistent.refers old hold)
    rw [hbelongs.2 old hold hid] at hsame
    exact ⟨client.value, hvalue ▸ hminted client hclient hsame⟩

/-! ## The steps of a request -/

section Steps

variable (server draws requests i)

/-- Each step of the procedure is a call the request may make. -/
abbrev Acts {α : Type} (p : Async CredentialState HttpError α) (s : CredentialState) : Prop :=
  Async.Steps (Progresses server draws requests) (WriteBy server draws requests i)
    (fun _ _ _ => True) true p s

end Steps

section Acts

variable {α β : Type}

theorem Acts.yield {f : Unit → Async CredentialState HttpError α}
    (hs : Genuine server draws requests s)
    (hf : ∀ t, Progress server draws requests s t → Acts server draws requests i (f ()) t) :
    Acts server draws requests i (Async.yield >>= f) s :=
  fun t ht => hf t (ht hs)

theorem Acts.call {operation : CredentialState.Call β}
    {f : β → Async CredentialState HttpError α} (hs : Genuine server draws requests s)
    (hwrite : WriteBy server draws requests i (fun s => (operation s).2) s)
    (hf : ∀ b t, (operation s).1 = .ok b → Progress server draws requests s t →
      Acts server draws requests i (f b) t) :
    Acts server draws requests i (Async.call operation >>= f) s :=
  Async.Steps.call hwrite (fun _ _ => trivial) fun b t hb ht =>
    hf b t hb (progresses_trans hwrite.progresses ht hs)

theorem Acts.lift {r : Except HttpError β} {f : β → Async CredentialState HttpError α}
    (hf : ∀ b, r = .ok b → Acts server draws requests i (f b) s) :
    Acts server draws requests i ((liftM r : Async CredentialState HttpError β) >>= f) s :=
  Async.Steps.lift (fun _ => trivial) hf

theorem Acts.done {r : Except HttpError α} : Acts server draws requests i (.done r) s := trivial

end Acts

/-! ### Client registrations -/

section Client

variable {request : HttpHandlerRequest} {userId : String}

open ClientRegistrationRequestHandler

theorem acts_registerClient (hs : Genuine server draws requests s)
    (hregistered : ∀ client : ClientRegistration, client.userId = userId →
      client.clientId = (draws i).randomUUID 0 → client.clientSecret = (draws i).randomBytes →
      Registered server draws requests client) :
    Acts server draws requests i (registerClient (draws i) request userId) s := by
  unfold registerClient
  cases ClientRegistrationInput request.body with
  | error message => exact Acts.done
  | ok u =>
    refine Acts.call hs (.reads s) fun matched t _ ht => ?_
    by_cases hmatched : matched.length > 0
    · rw [if_pos hmatched]
      exact Acts.done
    · rw [if_neg hmatched]
      exact Acts.call ht.genuine (.registers _ t (hregistered _ rfl rfl rfl)) fun _ _ _ _ =>
        Acts.done

theorem acts_deleteClient (hs : Genuine server draws requests s) :
    Acts server draws requests i (deleteClient request userId) s := by
  unfold deleteClient
  cases request.parameters.get "id" with
  | none => exact Acts.done
  | some id =>
    refine Acts.call hs (.reads s) fun matched t _ ht => ?_
    cases matched with
    | nil => exact Acts.done
    | cons first rest =>
      by_cases howner : first.value.userId ≠ userId
      · simp only [if_pos howner]
        exact Acts.done
      · simp only [if_neg howner]
        exact Acts.call ht.genuine (.unregisters first.id t) fun _ _ _ _ => Acts.done

theorem acts_client (hrequest : requests i = .credentials (.client request))
    (hs : Genuine server draws requests s) :
    Acts server draws requests i (server.clientRegistration.handle (draws i) request) s := by
  refine Acts.lift fun credential hcredential => Acts.yield hs fun t ht => ?_
  refine Acts.lift fun claims hclaims => Acts.yield ht.genuine fun u hu => ?_
  cases huser : userIds claims with
  | nil => exact Acts.done
  | cons userId rest =>
    simp only
    split
    · exact Acts.call hu.genuine (.reads u) fun _ _ _ _ => Acts.done
    · rename_i hpost
      refine acts_registerClient hu.genuine fun client hclient hid hsecret => ?_
      exact ⟨i, request, credential, claims, hrequest, hpost, hcredential, hclaims,
        by rw [huser, hclient]; rfl, hid, hsecret⟩
    · exact acts_deleteClient hu.genuine
    · exact Acts.done

end Client

/-! ### PATs -/

/-- The storage has at most this client with its identifier. -/
def Known (registration : Stored ClientRegistration) (s : CredentialState) : Prop :=
  registration.id < s.created ∧ ∀ client ∈ s.clientRegistrations, client.id = registration.id →
    client = registration

theorem Genuine.known (h : Genuine server draws requests s)
    {registration : Stored ClientRegistration} (hmem : registration ∈ s.clientRegistrations) :
    Known registration s :=
  ⟨h.numbered registration hmem, fun _ hclient hid => h.client_unique hclient hmem hid⟩

theorem Known.progress {registration : Stored ClientRegistration} (h : Known registration s)
    (hs : Genuine server draws requests s) (ht : Progress server draws requests s t) :
    Known registration t := by
  have hle : s.created ≤ t.created := (ht.evolves hs.consistent).2.1
  refine ⟨Nat.lt_of_lt_of_le h.1 hle, fun client hclient hid => ?_⟩
  exact h.2 client (ht.clients client hclient (hid ▸ h.1)) hid

section Pat

variable {authorization : Option String} {request : HttpHandlerRequest}

open UmaProtection

theorem acts_findRegistration {α : Type} {f : Stored ClientRegistration →
    Async CredentialState HttpError α} (hs : Genuine server draws requests s)
    (hf : ∀ registration t, Progress server draws requests s t → Known registration t →
      server.umaProtection.readCredentials authorization =
        .ok (registration.value.clientId, registration.value.clientSecret) →
      Acts server draws requests i (f registration) t) :
    Acts server draws requests i
      (server.umaProtection.findRegistration authorization >>= f) s := by
  unfold findRegistration
  rw [Async.bind_assoc]
  refine Acts.lift fun credentials hcredentials => ?_
  rw [Async.bind_assoc]
  refine Acts.call hs (.reads s) fun matched t hmatched ht => ?_
  cases matched with
  | nil => exact Acts.done
  | cons first rest =>
    have hfirst : first ∈ s.clientRegistrations.find fun registration =>
        registration.clientId = credentials.1 ∧ registration.clientSecret = credentials.2 := by
      rw [Except.ok.inj hmatched]
      exact List.mem_cons_self
    obtain ⟨hmem, hquery⟩ := Table.mem_find.mp hfirst
    obtain ⟨hid, hsecret⟩ := of_decide_eq_true hquery
    refine hf first t ht ((hs.known hmem).progress hs ht) ?_
    rw [hcredentials, hid, hsecret]

/-- A token is signed for the client it is stored with. -/
theorem acts_generateToken (hrequest : requests i = .credentials (.pat request))
    {registration : Stored ClientRegistration} {id : Option Nat}
    {f : Json → Async CredentialState HttpError HttpHandlerResponse}
    (hcredentials : server.umaProtection.readCredentials (request.headers.get "authorization") =
      .ok (registration.value.clientId, registration.value.clientSecret))
    (hs : Genuine server draws requests s) (hknown : Known registration s)
    (hid : ∀ n, id = some n → Belongs n registration.id s)
    (hf : ∀ body t, Acts server draws requests i (f body) t) :
    Acts server draws requests i
      (server.umaProtection.generateToken (draws i) registration id >>= f) s := by
  unfold generateToken
  simp only [Async.bind_assoc]
  refine Acts.lift fun key hkey => Acts.yield hs fun t ht => ?_
  refine Acts.lift fun jwk hjwk => Acts.yield ht.genuine fun u hu => ?_
  refine Acts.lift fun pat hpat => Acts.yield hu.genuine fun v hv => ?_
  have hminted : ∀ refreshToken, ∀ client ∈ v.clientRegistrations, client.id = registration.id →
      Minted server draws requests i client.value ⟨pat, (draws i).now +
        server.umaProtection.tokenExpiration * 1000, refreshToken, registration.id⟩ := by
    intro refreshToken client hclient hsame
    have hlater := ((hknown.progress hs ht).progress ht.genuine hu).progress hu.genuine hv
    rw [hlater.2 client hclient hsame]
    exact ⟨request, key, jwk, hrequest, hcredentials, hkey, hjwk, hpat, rfl⟩
  cases id with
  | none =>
    simp only [Async.bind_assoc]
    exact Acts.call hv.genuine (.issues _ v (hminted _)) fun _ w _ _ => hf _ w
  | some n =>
    have hsv : Evolves s v := CredentialState.evolves_trans ht.evolves
      (CredentialState.evolves_trans hu.evolves hv.evolves)
    have hbelongs : Belongs n registration.id v := (hid n rfl).evolves hs.consistent hsv
    simp only [Async.bind_assoc]
    exact Acts.call hv.genuine (.renews n _ v hbelongs (hminted _)) fun _ w _ _ => hf _ w

theorem acts_handleClientCredentials (hrequest : requests i = .credentials (.pat request))
    (hs : Genuine server draws requests s) :
    Acts server draws requests i (server.umaProtection.handleClientCredentials (draws i)
      (request.headers.get "authorization")) s := by
  refine acts_findRegistration hs fun registration t ht hknown hcredentials => ?_
  refine Acts.call ht.genuine (.reads t) fun matched u hmatched hu => ?_
  refine acts_generateToken hrequest hcredentials hu.genuine (hknown.progress ht.genuine hu)
    (fun n hn => ?_) fun _ _ => Acts.done
  have hfound : n ∈ t.pats.findIds fun pat => pat.registration = registration.id := by
    cases hmatched
    exact List.mem_of_mem_head? hn
  obtain ⟨entry, hentry, hregistration, rfl⟩ := Table.mem_findIds.mp hfound
  have hbelongs : Belongs entry.id entry.value.registration t :=
    ht.genuine.consistent.belongs hentry
  rw [of_decide_eq_true hregistration] at hbelongs
  exact hbelongs.evolves ht.genuine.consistent hu.evolves

theorem acts_handleRefreshToken {refreshToken : Option String}
    (hrequest : requests i = .credentials (.pat request))
    (hs : Genuine server draws requests s) :
    Acts server draws requests i (server.umaProtection.handleRefreshToken (draws i) refreshToken
      (request.headers.get "authorization")) s := by
  unfold handleRefreshToken
  cases DialogInput.truthy refreshToken with
  | none => exact Acts.done
  | some token =>
    refine Acts.call hs (.reads s) fun pats t hpats ht => ?_
    cases pats with
    | nil => exact Acts.done
    | cons first rest =>
      have hfound : first ∈ s.pats.find fun pat => pat.refreshToken = token := by
        rw [Except.ok.inj hpats]
        exact List.mem_cons_self
      have hbelongs : Belongs first.id first.value.registration s :=
        hs.consistent.belongs (Table.mem_find.mp hfound).1
      refine acts_findRegistration ht.genuine fun registration u hu hknown hcredentials => ?_
      by_cases hregistration : registration.id ≠ first.value.registration
      · simp only [if_pos hregistration]
        exact Acts.done
      · simp only [if_neg hregistration]
        refine acts_generateToken hrequest hcredentials hu.genuine hknown (fun n hn => ?_)
          fun _ _ => Acts.done
        cases hn
        rw [not_not.mp hregistration]
        exact hbelongs.evolves hs.consistent (CredentialState.evolves_trans ht.evolves hu.evolves)

theorem acts_pat (hrequest : requests i = .credentials (.pat request))
    (hs : Genuine server draws requests s) :
    Acts server draws requests i (server.umaProtection.handle (draws i) request) s := by
  simp only [handle]
  cases DialogInput.assertion request.body with
  | error message => exact Acts.done
  | ok u =>
    simp only
    split
    · exact Acts.done
    · split
      · exact acts_handleClientCredentials hrequest hs
      · exact acts_handleRefreshToken hrequest hs
      · exact Acts.done

end Pat

theorem acts_validate {now : Nat} {request : HttpHandlerRequest}
    (hs : Genuine server draws requests s) :
    Acts server draws requests i (PatRequestValidator.handle now request) s := by
  unfold PatRequestValidator.handle
  split
  · exact Acts.done
  · split
    · exact Acts.done
    · refine Acts.call hs (.reads s) fun patEntries t _ ht => ?_
      unfold PatRequestValidator.resolveOwner
      split
      · exact Acts.done
      · split
        · exact Acts.done
        · refine Acts.call ht.genuine (.reads t) fun registration u _ _ => ?_
          cases registration with
          | none => exact Acts.done
          | some registration => exact Acts.done

theorem acts_protect (hs : Genuine server draws requests s) :
    Acts server draws requests i (server.protect (draws i) (requests i)) s := by
  cases hrequest : requests i with
  | credentials request =>
    cases request with
    | client request => exact (acts_client hrequest hs).map ProtectionAnswer.response
    | pat request => exact (acts_pat hrequest hs).map ProtectionAnswer.response
  | validate request => exact (acts_validate hs).map ProtectionAnswer.owner

/-! ## Runs -/

variable [DecidableEq ι] {schedule : List ι}

/-- Every step of a request is one call it may make, and the storage stays
genuine. -/
theorem callsBy_protectionAfter (server : CredentialServer) (draws : ι → Draws)
    (requests : ι → ProtectionRequest) (schedule : List ι) :
    (server.protectionAfter draws requests schedule).CallsBy
        (Progresses server draws requests) (WriteBy server draws requests) ∧
      Genuine server draws requests (server.protectionAfter draws requests schedule).state := by
  obtain ⟨hcalls, hprogress⟩ := Pool.callsBy_run progresses_refl
    (fun i s => WriteBy.reads s) progresses_trans (fun i update s h => h.progresses)
    (fun i t ht => acts_protect (ht genuine_empty).genuine :
      (Pool.start (fun i => server.protect (draws i) (requests i)) CredentialState.empty).CallsBy
        (Progresses server draws requests) (WriteBy server draws requests)) schedule
  exact ⟨hcalls, (hprogress genuine_empty).genuine⟩

theorem protectionAfter_append (before later : List ι) :
    server.protectionAfter draws requests (before ++ later) =
      (server.protectionAfter draws requests before).run later :=
  Pool.run_append _ before later

theorem protectionAfter_concat (before : List ι) (k : ι) :
    server.protectionAfter draws requests (before ++ [k]) =
      (server.protectionAfter draws requests before).step k :=
  protectionAfter_append before [k]

/-- The storage later in the run. -/
theorem progress_protectionAfter (schedule later : List ι) :
    Progress server draws requests (server.protectionAfter draws requests schedule).state
      (server.protectionAfter draws requests (schedule ++ later)).state := by
  obtain ⟨hcalls, hgenuine⟩ := callsBy_protectionAfter server draws requests schedule
  have hrun := (Pool.callsBy_run progresses_refl (fun i s => WriteBy.reads s) progresses_trans
    (fun i update s h => h.progresses) hcalls later).2
  rw [protectionAfter_append]
  exact hrun hgenuine

/-! ## What is accepted -/

/-- A request that ended with an owner found a PAT, and later its client. -/
theorem reads_of_owner {request : HttpHandlerRequest} {userId : String}
    (hrequest : requests i = .validate request)
    (hdone : (server.protectionAfter draws requests schedule).processes i =
      .done (.ok (.owner userId))) :
    ∃ authorization looked resolved later pat client,
      request.headers.get "authorization" = some authorization ∧
      schedule = looked ++ i :: (resolved ++ i :: later) ∧ i ∉ looked ∧
      pat ∈ (server.protectionAfter draws requests looked).state.pats ∧
      pat.value.pat = PatRequestValidator.readToken authorization ∧
      (draws i).now ≤ pat.value.expiration ∧
      client ∈ (server.protectionAfter draws requests
        (looked ++ i :: resolved)).state.clientRegistrations ∧
      client.id = pat.value.registration ∧ client.value.userId = userId := by
  have hprogram : (Pool.start (fun i => server.protect (draws i) (requests i))
      CredentialState.empty).processes i =
        (PatRequestValidator.handle (draws i).now request >>= fun userId =>
          pure (.owner userId)) := by
    show server.protect (draws i) (requests i) = _
    rw [hrequest]
    rfl
  -- no process that ended with an error is done with an owner
  have hfails : ∀ {pool : Pool ι CredentialState HttpError ProtectionAnswer} {e : HttpError}
      {later : List ι}, pool.processes i = .done (.error e) →
      (pool.run later).processes i ≠ .done (.ok (.owner userId)) := by
    intro pool e later herror howner
    rw [Pool.done_run herror later] at howner
    cases howner
  unfold PatRequestValidator.handle at hprogram
  split at hprogram
  · exact absurd hdone (hfails hprogram)
  rename_i authorization hauthorization
  split at hprogram
  · exact absurd hdone (hfails hprogram)
  -- the look-up of the token
  obtain ⟨looked, rest, rfl, hmem, hlooked⟩ :=
    Pool.exists_resume (by rw [hprogram]; rfl) hdone
  rw [hprogram] at hlooked
  have hfirst : ((server.protectionAfter draws requests looked).step i).processes i =
      (PatRequestValidator.resolveOwner (draws i).now
        ((server.protectionAfter draws requests looked).state.pats.find fun pat =>
          pat.pat = PatRequestValidator.readToken authorization) >>= fun userId =>
        pure (.owner userId)) := hlooked
  have hrest : (((server.protectionAfter draws requests looked).step i).run rest).processes i =
      .done (.ok (.owner userId)) := by
    rw [protectionAfter_append] at hdone
    exact hdone
  cases hfind : (server.protectionAfter draws requests looked).state.pats.find fun pat =>
      pat.pat = PatRequestValidator.readToken authorization with
  | nil =>
    rw [hfind] at hfirst
    exact absurd hrest (hfails hfirst)
  | cons pat others =>
    have hpat : pat ∈ (server.protectionAfter draws requests looked).state.pats.find fun pat =>
        pat.pat = PatRequestValidator.readToken authorization := by
      rw [hfind]
      exact List.mem_cons_self
    obtain ⟨hstored, htoken⟩ := Table.mem_find.mp hpat
    rw [hfind, PatRequestValidator.resolveOwner] at hfirst
    split at hfirst
    · exact absurd hrest (hfails hfirst)
    rename_i hunexpired
    -- the look-up of its client
    obtain ⟨resolved, later, rfl, -, hresolved⟩ :=
      Pool.exists_resume (by rw [hfirst]; rfl) hrest
    rw [hfirst] at hresolved
    have hstate : ((server.protectionAfter draws requests looked).step i).run resolved =
        server.protectionAfter draws requests (looked ++ i :: resolved) :=
      (protectionAfter_append looked (i :: resolved)).symm
    rw [hstate] at hresolved
    have hlater : (((server.protectionAfter draws requests (looked ++ i :: resolved)).step i).run
        later).processes i = .done (.ok (.owner userId)) := by
      rw [Pool.run_append, hstate] at hrest
      exact hrest
    rw [Async.resume_call_bind, CredentialState.getClientRegistration] at hresolved
    cases hclient : List.find? (fun entry => entry.id = pat.value.registration)
        (server.protectionAfter draws requests
          (looked ++ i :: resolved)).state.clientRegistrations with
    | none =>
      rw [hclient] at hresolved
      exact absurd hlater (hfails hresolved)
    | some client =>
      rw [hclient] at hresolved
      have howner := (Pool.done_run hresolved later).symm.trans hlater
      cases howner
      have hid : client.id = pat.value.registration := by simpa using List.find?_some hclient
      exact ⟨authorization, looked, resolved, later, pat, client,
        (Option.filter_eq_some_iff.mp hauthorization).1, rfl, hmem, hstored,
        of_decide_eq_true htoken, Nat.le_of_not_lt hunexpired, List.mem_of_find?_eq_some hclient,
        hid, rfl⟩

/-- A PAT is accepted for the user who registered its client, and while that
client is registered; it was signed for a request with its credentials. -/
theorem accepted_minted (server : CredentialServer) (draws : ι → Draws)
    (requests : ι → ProtectionRequest) (schedule : List ι) {request : HttpHandlerRequest}
    {userId : String} (hrequest : requests i = .validate request)
    (hdone : (server.protectionAfter draws requests schedule).processes i =
      .done (.ok (.owner userId))) :
    ∃ authorization pat client j, request.headers.get "authorization" = some authorization ∧
      pat.pat = PatRequestValidator.readToken authorization ∧
      (draws i).now ≤ pat.expiration ∧ client.userId = userId ∧
      Registered server draws requests client ∧ Minted server draws requests j client pat ∧
      ∃ looked resolved later id, schedule = looked ++ i :: (resolved ++ i :: later) ∧ i ∉ looked ∧
        ⟨id, pat⟩ ∈ (server.protectionAfter draws requests looked).state.pats ∧
        ⟨pat.registration, client⟩ ∈ (server.protectionAfter draws requests
          (looked ++ i :: resolved)).state.clientRegistrations := by
  obtain ⟨authorization, looked, resolved, later, pat, client, hheader, rfl, hmem, hpat, htoken,
    hunexpired, hclient, hid, huser⟩ := reads_of_owner hrequest hdone
  have hlooked := (callsBy_protectionAfter server draws requests looked).2
  have hresolved : Progress server draws requests
      (server.protectionAfter draws requests looked).state
      (server.protectionAfter draws requests (looked ++ i :: resolved)).state :=
    progress_protectionAfter looked (i :: resolved)
  -- the client was there when the token was looked up
  have hbefore : client ∈ (server.protectionAfter draws requests looked).state.clientRegistrations := by
    refine hresolved.clients client hclient ?_
    obtain ⟨old, hold, hsame⟩ := Table.has_iff.mp (hlooked.consistent.refers pat hpat)
    rw [hid, ← hsame]
    exact hlooked.numbered old hold
  obtain ⟨j, hminted⟩ := hlooked.minted pat hpat client hbefore hid
  exact ⟨authorization, pat.value, client.value, j, hheader, htoken, hunexpired, huser,
    hlooked.registered client hbefore, hminted, looked, resolved, later, pat.id, rfl, hmem, hpat,
    hid ▸ hclient⟩

/-- A client is registered, gets two PATs, and presents the first. -/
def protectedRequests (n : Fin 4) : ProtectionRequest :=
  if n = 3 then .validate { headers := [("authorization", "Bearer b1")], body := .undefined }
  else .credentials (overlappingRequests (if n = 0 then 0 else 2))

def fourDraws (n : Fin 4) : Draws := numberedDraws n

/-- The first PAT is accepted before there is a second. -/
theorem accepted_minted_first :
    ∃ pat client, pat.pat = "b1" ∧ client.userId = "https://alice.example/profile/card#me" ∧
      Registered soleUser fourDraws protectedRequests client ∧
      ∃ j, Minted soleUser fourDraws protectedRequests j client pat := by
  have hdone : (soleUser.protectionAfter fourDraws protectedRequests
      [0, 0, 0, 0, 1, 1, 1, 1, 1, 1, 1, 3, 3, 3]).processes 3 =
        .done (.ok (.owner "https://alice.example/profile/card#me")) := by rfl
  obtain ⟨authorization, pat, client, j, hheader, htoken, -, huser, hregistered, hminted, -⟩ :=
    accepted_minted soleUser fourDraws protectedRequests _ rfl hdone
  cases hheader
  exact ⟨pat, client, htoken, huser, hregistered, j, hminted⟩

/-! ## What is gone

A request for a PAT stores one token, and then stores nothing more. -/

section Once

variable {server : UmaProtection} {draws : Draws} {authorization : Option String}

open UmaProtection

theorem writesOnce_generateToken {registration : Stored ClientRegistration} {id : Option Nat}
    {f : Json → Async CredentialState HttpError HttpHandlerResponse}
    (hf : ∀ body, (f body).Silent) :
    (server.generateToken draws registration id >>= f).WritesOnce := by
  unfold generateToken
  simp only [Async.bind_assoc]
  refine .lift fun key _ => .yield (.lift fun jwk _ => .yield (.lift fun pat _ => .yield ?_))
  cases id with
  | none =>
    simp only [Async.bind_assoc]
    exact .write fun _ => hf _
  | some n =>
    simp only [Async.bind_assoc]
    exact .write fun _ => hf _

theorem writesOnce_findRegistration
    {f : Stored ClientRegistration → Async CredentialState HttpError HttpHandlerResponse}
    (hf : ∀ registration, (f registration).WritesOnce) :
    (server.findRegistration authorization >>= f).WritesOnce := by
  unfold findRegistration
  rw [Async.bind_assoc]
  refine .lift fun credentials _ => ?_
  rw [Async.bind_assoc]
  refine .read (fun _ => rfl) fun matched => ?_
  cases matched with
  | nil => trivial
  | cons first rest => exact hf first

theorem writesOnce_pat {request : HttpHandlerRequest} :
    (server.handle draws request).WritesOnce := by
  simp only [handle]
  cases DialogInput.assertion request.body with
  | error message => trivial
  | ok u =>
    simp only
    split
    · trivial
    · split
      · exact writesOnce_findRegistration fun registration =>
          .read (fun _ => rfl) fun matched => writesOnce_generateToken fun _ => trivial
      · unfold handleRefreshToken
        split
        · trivial
        · refine .read (fun _ => rfl) fun pats => ?_
          cases pats with
          | nil => trivial
          | cons first rest =>
            refine writesOnce_findRegistration fun registration => ?_
            split
            · trivial
            · exact writesOnce_generateToken fun _ => trivial
      · trivial

end Once

/-- No PAT of the storage is this token. -/
def Absent (token : String) (s : CredentialState) : Prop := ∀ pat ∈ s.pats, pat.value.pat ≠ token

section Revoked

variable {token : String} {j : ι}
  (honly : ∀ i client pat, Minted server draws requests i client pat → pat.pat = token → i = j)

include honly

/-- Only one request stores the token. -/
theorem absent_step {k : ι} (hk : k ≠ j)
    (habsent : Absent token (server.protectionAfter draws requests schedule).state) :
    Absent token ((server.protectionAfter draws requests schedule).step k).state := by
  obtain ⟨hcalls, hgenuine⟩ := callsBy_protectionAfter server draws requests schedule
  obtain ⟨hwrite, hstate⟩ :=
    Pool.step_of_callsBy progresses_refl (fun i s => WriteBy.reads s) hcalls k
  intro pat hpat htoken
  rw [hstate] at hpat
  rcases minted_of_write hgenuine hwrite hpat with hold | ⟨client, hminted⟩
  · exact habsent pat hold htoken
  · exact hk (honly k client pat.value hminted htoken)

/-- The request that stores the token has not stored it yet, or is silent. -/
theorem silent_or_absent {request : HttpHandlerRequest}
    (hrequest : requests j = .credentials (.pat request)) (schedule : List ι) :
    ((server.protectionAfter draws requests schedule).processes j).Silent ∨
      ((server.protectionAfter draws requests schedule).processes j).WritesOnce ∧
        Absent token (server.protectionAfter draws requests schedule).state := by
  induction schedule using List.reverseRecOn with
  | nil =>
    refine Or.inr ⟨?_, fun pat hpat => nomatch hpat⟩
    show (server.protect (draws j) (requests j)).WritesOnce
    rw [hrequest]
    exact writesOnce_pat.map ProtectionAnswer.response
  | append_singleton schedule k ih =>
    rw [protectionAfter_concat]
    by_cases hk : k = j
    · subst hk
      simp only [Pool.step, Function.update_self]
      rcases ih with hsilent | ⟨honce, habsent⟩
      · exact Or.inl (hsilent.resume _).2
      · rcases honce.resume (server.protectionAfter draws requests schedule).state with
          hsilent | ⟨hstate, hrest⟩
        · exact Or.inl hsilent
        · rw [hstate]
          exact Or.inr ⟨hrest, habsent⟩
    · have hsame : ((server.protectionAfter draws requests schedule).step k).processes j =
          (server.protectionAfter draws requests schedule).processes j :=
        Function.update_of_ne (Ne.symm hk) _ _
      rw [hsame]
      exact ih.imp_right fun h => ⟨h.1, absent_step honly hk h.2⟩

omit honly in
theorem silent_append
    (hsilent : ((server.protectionAfter draws requests schedule).processes j).Silent)
    (later : List ι) :
    ((server.protectionAfter draws requests (schedule ++ later)).processes j).Silent := by
  rw [protectionAfter_append]
  refine Pool.run_invariant (fun pool => (pool.processes j).Silent) hsilent
    fun before k _ _ hbefore => ?_
  by_cases hk : k = j
  · subst hk
    simp only [Pool.step, Function.update_self]
    exact (hbefore.resume _).2
  · simp only [Pool.step, Function.update_of_ne (Ne.symm hk)]
    exact hbefore

/-- Once the request is silent, a token that is gone stays away. -/
theorem absent_append
    (hsilent : ((server.protectionAfter draws requests schedule).processes j).Silent)
    (habsent : Absent token (server.protectionAfter draws requests schedule).state)
    (later : List ι) :
    Absent token (server.protectionAfter draws requests (schedule ++ later)).state := by
  induction later using List.reverseRecOn with
  | nil =>
    rw [List.append_nil]
    exact habsent
  | append_singleton later k ih =>
    rw [← List.append_assoc, protectionAfter_concat]
    by_cases hk : k = j
    · subst hk
      simp only [Pool.step]
      rw [((silent_append hsilent later).resume _).1]
      exact ih
    · exact absent_step honly hk ih

end Revoked

/-- A token that was stored and is gone is not accepted from a request that
comes later, whatever else happens. -/
theorem revoked_refused (server : CredentialServer) (draws : ι → Draws)
    (requests : ι → ProtectionRequest)
    (hsign : ∀ jwk jwk' payload payload' token,
      server.umaProtection.sign jwk payload = .ok token →
      server.umaProtection.sign jwk' payload' = .ok token → payload.jti = payload'.jti)
    (hfresh : ∀ i j, (draws i).randomUUID 1 = (draws j).randomUUID 1 → i = j)
    (issued revoked later : List ι) {token : String}
    (hissued : ∃ pat ∈ (server.protectionAfter draws requests issued).state.pats,
      pat.value.pat = token)
    (hrevoked : ∀ pat ∈ (server.protectionAfter draws requests (issued ++ revoked)).state.pats,
      pat.value.pat ≠ token)
    {request : HttpHandlerRequest} (hrequest : requests i = .validate request)
    (htoken : ∀ authorization, request.headers.get "authorization" = some authorization →
      PatRequestValidator.readToken authorization = token)
    (hlater : i ∉ issued ++ revoked) (userId : String) :
    (server.protectionAfter draws requests (issued ++ revoked ++ later)).processes i ≠
      .done (.ok (.owner userId)) := by
  intro hdone
  obtain ⟨stored, hstored, rfl⟩ := hissued
  -- the one request that signed the token
  obtain ⟨-, hgenuine⟩ := callsBy_protectionAfter server draws requests issued
  obtain ⟨client, hclient, hid⟩ := Table.has_iff.mp (hgenuine.consistent.refers stored hstored)
  obtain ⟨j, patRequest, -, jwk, hpat, -, -, -, hsigned, -⟩ :=
    hgenuine.minted stored hstored client hclient hid
  have honly : ∀ i client pat, Minted server draws requests i client pat →
      pat.pat = stored.value.pat → i = j := by
    rintro i client' pat ⟨-, -, jwk', -, -, -, -, hsigned', -⟩ hsame
    rw [hsame] at hsigned'
    exact hfresh i j (hsign jwk' jwk _ _ _ hsigned' hsigned)
  have hsilent : ((server.protectionAfter draws requests issued).processes j).Silent :=
    (silent_or_absent honly hpat issued).resolve_right fun h => h.2 stored hstored rfl
  have hstays : ((server.protectionAfter draws requests (issued ++ revoked)).processes j).Silent :=
    silent_append hsilent revoked
  -- the look-up of the validation comes after the token is gone
  obtain ⟨authorization, looked, resolved, rest, pat, -, hheader, hschedule, -, hpat, hsame, -⟩ :=
    reads_of_owner hrequest hdone
  have hprefix : ∃ between, looked = issued ++ revoked ++ between := by
    rcases List.append_eq_append_iff.mp hschedule with ⟨between, hlooked, -⟩ | ⟨between, hgone, hi⟩
    · exact ⟨between, hlooked⟩
    · cases between with
      | nil => exact ⟨[], by simp [hgone]⟩
      | cons k between =>
        have hk : i = k := (List.cons.inj hi).1
        refine absurd ?_ hlater
        rw [hgone, hk]
        simp
  obtain ⟨between, rfl⟩ := hprefix
  refine absent_append honly hstays hrevoked between pat hpat ?_
  rw [hsame, htoken authorization hheader]

/-- The second PAT replaces the first. -/
theorem revoked_refused_second :
    (soleUser.protectionAfter fourDraws protectedRequests
      ([0, 0, 0, 0, 1, 1, 1, 1, 1, 1, 1] ++ [2, 2, 2, 2, 2, 2, 2] ++ [3, 3, 3])).processes 3 ≠
        .done (.ok (.owner "https://alice.example/profile/card#me")) := by
  have hissued : ∃ pat ∈ (soleUser.protectionAfter fourDraws protectedRequests
      [0, 0, 0, 0, 1, 1, 1, 1, 1, 1, 1]).state.pats, pat.value.pat = "b1" := by decide +kernel
  have hrevoked : ∀ pat ∈ (soleUser.protectionAfter fourDraws protectedRequests
      ([0, 0, 0, 0, 1, 1, 1, 1, 1, 1, 1] ++ [2, 2, 2, 2, 2, 2, 2])).state.pats,
      pat.value.pat ≠ "b1" := by decide +kernel
  refine revoked_refused soleUser fourDraws protectedRequests ?_ (by decide +kernel) _ _ _ hissued
    hrevoked rfl ?_ (by decide) _
  · intro jwk jwk' payload payload' token hsigned hsigned'
    exact Except.ok.inj (hsigned.trans hsigned'.symm)
  · intro authorization hheader
    cases hheader
    decide +kernel

end CredentialServer

end UserManagedAccess.Routes
