/-
UserManagedAccess.Routes.CollectionIdentifiers — when the collections that
registrations create have identifiers of their own.

The identifier is the source and the relation joined by a `:`, in an order that
tells the direction. IRIs have colons, and what is the source of one collection
can be the relation of another.

* `collectionId_eq_iff` — which triples are given one identifier;
* `registers_or_not` — what a request does to the collections;
* `collectionsApart_iff` — over a whole run: identifiers are not given twice
  exactly where the descriptions that were stored name no two triples that can
  be confused.
-/
import Mathlib.Data.List.Induction
import UserManagedAccess.Lib.Separated
import UserManagedAccess.Routes.MembershipTheorems

namespace UserManagedAccess.Routes

open UserManagedAccess.Lib UserManagedAccess.Rdf UserManagedAccess.Util
open UserManagedAccess.Views UserManagedAccess.Ucp

namespace ResourceRegistrationRequestHandler

/-! ## Identifiers that are shared -/

/-- The two IRIs of an identifier, in the order of its direction. -/
def identifierParts (e : CollectionMetadata) : String × String :=
  if e.reverse then (e.relation, e.source) else (e.source, e.relation)

/-- The source of each is the relation of the other, of which it is the
reverse; or one of the identifiers splits at a later colon. -/
def Confusable (e e' : CollectionMetadata) : Prop :=
  (e.reverse ≠ e'.reverse ∧ e.source = e'.relation ∧ e.relation = e'.source) ∨
    SplitsLater ":" (identifierParts e) (identifierParts e') ∨
      SplitsLater ":" (identifierParts e') (identifierParts e)

theorem collectionId_eq (e : CollectionMetadata) :
    collectionId e =
      .namedNode ("collection:" ++ ((identifierParts e).1 ++ ":" ++ (identifierParts e).2)) := by
  unfold collectionId identifierParts
  split <;> rfl

theorem identifierParts_eq_iff {e e' : CollectionMetadata} :
    ((identifierParts e).1 = (identifierParts e').1 ∧
      (identifierParts e).2 = (identifierParts e').2) ↔
      e = e' ∨ e.reverse ≠ e'.reverse ∧ e.source = e'.relation ∧ e.relation = e'.source := by
  obtain ⟨relation, source, reverse⟩ := e
  obtain ⟨relation', source', reverse'⟩ := e'
  cases reverse <;> cases reverse' <;>
    simp [identifierParts, CollectionMetadata.mk.injEq, and_comm]

theorem collectionId_eq_iff {e e' : CollectionMetadata} :
    collectionId e = collectionId e' ↔ e = e' ∨ Confusable e e' := by
  rw [collectionId_eq, collectionId_eq, Term.namedNode.injEq, String.append_right_inj,
    joined_eq_iff (c := ':') rfl, identifierParts_eq_iff, Confusable, or_assoc]

theorem Confusable.ne {e e' : CollectionMetadata} (h : Confusable e e') : e ≠ e' := by
  rintro rfl
  rcases h with ⟨hreverse, -⟩ | hlater | hlater
  · exact hreverse rfl
  · exact SplitsLater.ne (c := ':') rfl hlater rfl
  · exact SplitsLater.ne (c := ':') rfl hlater rfl

/-! ## What a request registers -/

/-- The request is a POST or a PUT that is answered with this resource. -/
def Registers (env : RegistrationEnvironment) (n : Nat) (r : RegistrationRequest)
    (s : ServerState) (id : String) : Prop :=
  (r.request.method = "POST" ∨ r.request.method = "PUT") ∧
    ∃ response, ((respond env n r.request r.owner).run s).1 = .ok response ∧
      response.body = registered id

/-- The description that a PUT replaces. -/
def previousOf (r : RegistrationRequest) (s : ServerState) (id : String) :
    Option ResourceDescription :=
  if r.request.method = "PUT" then (s.registrationStore.get id).map Registration.description
  else none

theorem Registers.unique {env : RegistrationEnvironment} {n : Nat} {r : RegistrationRequest}
    {s : ServerState} {id id' : String} (h : Registers env n r s id)
    (h' : Registers env n r s id') : id = id' := by
  obtain ⟨-, response, hok, hbody⟩ := h
  obtain ⟨-, response', hok', hbody'⟩ := h'
  rw [hok] at hok'
  injection hok' with hresponse
  have hregistered : registered id = registered id' := by rw [← hbody, ← hbody', hresponse]
  simpa [registered] using hregistered

/-- The state after a request that registers the resource. -/
structure Registered (env : RegistrationEnvironment) (n : Nat) (r : RegistrationRequest)
    (s s' : ServerState) (id : String) (change : QuadChange) : Prop where
  registers : Registers env n r s id
  computed : metadataChange env n s.policies id r.owner (described r.request)
    (previousOf r s id) = .ok change
  policies : s'.policies = updatePolicies change s.policies
  registrations : ∀ other, s'.registrationStore.get other =
    if other = id then some { owner := r.owner, description := described r.request }
    else s.registrationStore.get other

/-- The state after any other request: memberships and registrations may be gone. -/
structure Unregistered (env : RegistrationEnvironment) (n : Nat) (r : RegistrationRequest)
    (s s' : ServerState) : Prop where
  not_registers : ∀ id, ¬ Registers env n r s id
  policies : ∀ q ∈ s'.policies, q ∈ s.policies
  linked : ∀ a p x, p ≠ ODRL.partOf → (s'.policies.Linked a p x ↔ s.policies.Linked a p x)
  registrations : ∀ id registration, s'.registrationStore.get id = some registration →
    s.registrationStore.get id = some registration

section

variable {env : RegistrationEnvironment} {n : Nat} {r : RegistrationRequest} {s : ServerState}

theorem unregistered_self (h : ∀ id, ¬ Registers env n r s id) : Unregistered env n r s s :=
  ⟨h, fun _ hq => hq, fun _ _ _ _ => Iff.rfl, fun _ _ hget => hget⟩

theorem unregistered_of_refused {e : HttpError}
    (h : (respond env n r.request r.owner).run s = (.error e, s)) :
    Unregistered env n r s (step env n r s) := by
  have hstep : step env n r s = s := by rw [step, h]
  rw [hstep]
  refine unregistered_self fun id hregisters => ?_
  obtain ⟨-, response, hok, -⟩ := hregisters
  rw [h] at hok
  cases hok

/-- One of the two holds of every request. -/
theorem registers_or_not (env : RegistrationEnvironment) (n : Nat) (r : RegistrationRequest)
    (s : ServerState) :
    (∃ id change, Registered env n r s (step env n r s) id change) ∨
      Unregistered env n r s (step env n r s) := by
  by_cases hpost : r.request.method = "POST"
  · have hrespond : respond env n r.request r.owner = handlePost env n r.request r.owner :=
      respond_post hpost
    have hprevious : ∀ id, previousOf r s id = none := by
      intro id
      rw [previousOf, if_neg (by simp [hpost])]
    rcases run_handlePost env n r.request r.owner s with
      ⟨e, hrefused⟩ | ⟨id, change, -, hchange, hrun⟩
    · exact Or.inr (unregistered_of_refused (hrespond ▸ hrefused))
    · refine Or.inl ⟨id, change, ⟨Or.inl hpost, _, by rw [hrespond, hrun], rfl⟩, ?_, ?_, ?_⟩
      · rw [hprevious]
        exact hchange
      · rw [step, hrespond, hrun]
        rfl
      · intro other
        rw [step, hrespond, hrun]
        exact KeyValueStorage.get_set _ _ _ _
  · by_cases hput : r.request.method = "PUT"
    · have hrespond : respond env n r.request r.owner = handlePut env n r.request r.owner :=
        respond_put hput
      rcases run_handlePut env n r.request r.owner s with
        ⟨e, hrefused⟩ | ⟨id, previous, change, -, hentry, hchange, hrun⟩
      · exact Or.inr (unregistered_of_refused (hrespond ▸ hrefused))
      · refine Or.inl ⟨id, change, ⟨Or.inr hput, _, by rw [hrespond, hrun], rfl⟩, ?_, ?_, ?_⟩
        · rw [previousOf, if_pos hput, hentry]
          exact hchange
        · rw [step, hrespond, hrun]
          rfl
        · intro other
          rw [step, hrespond, hrun]
          exact KeyValueStorage.get_set _ _ _ _
    · have hnot : ∀ id, ¬ Registers env n r s id := fun id h => h.1.elim hpost hput
      have heffect := step_effect env n r s
      generalize step env n r s = s' at heffect ⊢
      cases heffect with
      | read => exact Or.inr (unregistered_self hnot)
      | posted id change hmethod hnew hchange => exact absurd hmethod hpost
      | updated id previous change hmethod hid hentry hchange => exact absurd hmethod hput
      | deleted id previous hmethod hid hentry =>
        refine Or.inr ⟨hnot, fun q hq => (mem_withoutResource.mp hq).1, ?_, ?_⟩
        · exact fun a p x hp => linked_withoutResource_of_ne hp
        · intro other registration hget
          rw [registrationStore_withoutResource] at hget
          by_cases hother : other = id
          · rw [if_pos hother] at hget
            cases hget
          · rw [if_neg hother] at hget
            exact hget

end

/-! ## Collections that are created -/

/-- The collections an update creates, with their identifiers: one for each new
default there is none for. -/
def created (env : RegistrationEnvironment) (s : Store) (id : String)
    (description : ResourceDescription) (previous : Option ResourceDescription) :
    List (CollectionMetadata × Term) :=
  match getCollectionMetadata env .resource_defaults (some description) id,
    getCollectionMetadata env .resource_defaults previous id with
  | .ok add, .ok remove =>
    (((filterRelationEntries add remove).1.map Prod.snd).filter fun e =>
      (findCollectionIds e s).length = 0).map fun e => (e, collectionId e)
  | _, _ => []

/-- The request creates a collection for the triple, under this identifier. -/
def Creates (env : RegistrationEnvironment) (n : Nat) (r : RegistrationRequest)
    (s : ServerState) (e : CollectionMetadata) (c : Term) : Prop :=
  ∃ id, Registers env n r s id ∧
    (e, c) ∈ created env s.policies id (described r.request) (previousOf r s id)

/-- The triple is a default of a stored description. -/
def Declared (env : RegistrationEnvironment) (s : ServerState) (e : CollectionMetadata) : Prop :=
  ∃ id registration, s.registrationStore.get id = some registration ∧
    e ∈ defaults env (some registration.description) id

section

variable {env : RegistrationEnvironment} {n : Nat} {s : Store} {id owner : String}
  {description : ResourceDescription} {previous : Option ResourceDescription}
  {change : QuadChange} {e : CollectionMetadata} {c : Term}

theorem mem_created
    (h : metadataChange env n s id owner description previous = .ok change) :
    (e, c) ∈ created env s id description previous ↔
      (e ∈ defaults env (some description) id ∧ e ∉ defaults env previous id) ∧
        findCollectionIds e s = [] ∧ c = collectionId e := by
  obtain ⟨collections, hcollections, -⟩ := Except.bind_eq_ok.mp h
  obtain ⟨add, hadd, hcollections⟩ := Except.bind_eq_ok.mp hcollections
  obtain ⟨remove, hremove, -⟩ := Except.bind_eq_ok.mp hcollections
  unfold created
  rw [hadd, hremove]
  dsimp only
  have hnew : e ∈ (filterRelationEntries add remove).1.map Prod.snd ↔
      e ∈ defaults env (some description) id ∧ e ∉ defaults env previous id :=
    mem_added (getCollectionMetadata_ok hadd) (getCollectionMetadata_ok hremove)
      (distinctKeys_defaults env (some description) previous id)
  rw [← hnew, List.mem_map]
  constructor
  · rintro ⟨e', he', heq⟩
    injection heq with he hc
    subst he
    obtain ⟨hmem, hnone⟩ := List.mem_filter.mp he'
    exact ⟨hmem, List.length_eq_zero_iff.mp (of_decide_eq_true hnone), hc.symm⟩
  · rintro ⟨hmem, hnone, rfl⟩
    exact ⟨e, List.mem_filter.mpr ⟨hmem, decide_eq_true (List.length_eq_zero_iff.mpr hnone)⟩, rfl⟩

/-- The quads an update adds, apart from memberships, are those of the collections
it creates. -/
theorem added_iff_created {env : RegistrationEnvironment} {n : Nat} {s : Store}
    (h : metadataChange env n s id owner description previous = .ok change) :
    ∃ entries, Compares env id description previous entries ∧
      Change env n s id owner entries change ∧
        ∀ e c, (∃ k, entries.Creates s k e ∧ c = collectionId e) ↔
          (e, c) ∈ created env s id description previous := by
  obtain ⟨entries, hcompares, hchange⟩ := metadataChange_ok h
  refine ⟨entries, hcompares, hchange, fun e c => ?_⟩
  rw [mem_created h, ← hcompares.added, List.mem_iff_getElem?]
  constructor
  · rintro ⟨k, ⟨hk, hnone⟩, hc⟩
    exact ⟨⟨k, hk⟩, hnone, hc⟩
  · rintro ⟨⟨k, hk⟩, hnone, hc⟩
    exact ⟨k, ⟨hk, hnone⟩, hc⟩

end

section

variable {env : RegistrationEnvironment} {n : Nat} {r : RegistrationRequest} {s : ServerState}
  {e : CollectionMetadata} {c : Term}

theorem Registered.creates_iff {s' : ServerState} {id : String} {change : QuadChange}
    (h : Registered env n r s s' id change) :
    Creates env n r s e c ↔
      (e, c) ∈ created env s.policies id (described r.request) (previousOf r s id) := by
  constructor
  · rintro ⟨id', hregisters, hcreated⟩
    rw [h.registers.unique hregisters]
    exact hcreated
  · exact fun hcreated => ⟨id, h.registers, hcreated⟩

/-- What a request creates a collection for is declared then. -/
theorem Creates.declared (h : Creates env n r s e c) :
    c = collectionId e ∧ Declared env (step env n r s) e := by
  rcases registers_or_not env n r s with ⟨id, change, hregistered⟩ | hnot
  · obtain ⟨⟨hdefault, -⟩, -, hc⟩ :=
      (mem_created hregistered.computed).mp (hregistered.creates_iff.mp h)
    refine ⟨hc, id, { owner := r.owner, description := described r.request }, ?_, hdefault⟩
    rw [hregistered.registrations, if_pos rfl]
  · obtain ⟨id, hregisters, -⟩ := h
    exact absurd hregisters (hnot.not_registers id)

end

/-! ## Runs -/

/-- The state is that after some first part of the requests. -/
def Reached (env : RegistrationEnvironment) (requests : List RegistrationRequest)
    (s : ServerState) : Prop :=
  ∃ before after, requests = before ++ after ∧ s = runAll env before

/-- One of the requests creates the collection. -/
def CreatedDuring (env : RegistrationEnvironment) (requests : List RegistrationRequest)
    (e : CollectionMetadata) (c : Term) : Prop :=
  ∃ before r after, requests = before ++ r :: after ∧
    Creates env before.length r (runAll env before) e c

/-- A description that is stored at some time declares the triple. -/
def DeclaredDuring (env : RegistrationEnvironment) (requests : List RegistrationRequest)
    (e : CollectionMetadata) : Prop :=
  ∃ s, Reached env requests s ∧ Declared env s e

/-- No identifier is given to collections for two triples. -/
def DistinctIdentifiers (env : RegistrationEnvironment) (requests : List RegistrationRequest) :
    Prop :=
  ∀ e e' c, CreatedDuring env requests e c → CreatedDuring env requests e' c → e = e'

/-- Nor does any node ever serve as the collection of two triples, so that what
applies to its members applies to those of one collection. -/
structure CollectionsApart (env : RegistrationEnvironment)
    (requests : List RegistrationRequest) : Prop where
  identifiers : DistinctIdentifiers env requests
  serves : ∀ s, Reached env requests s → ∀ c e e', c ∈ findCollectionIds e s.policies →
    c ∈ findCollectionIds e' s.policies → e = e'

section

variable {env : RegistrationEnvironment} {requests : List RegistrationRequest}
  {r : RegistrationRequest} {e : CollectionMetadata} {c : Term}

theorem runAll_append_singleton :
    runAll env (requests ++ [r]) = step env requests.length r (runAll env requests) := by
  unfold runAll
  rw [runFrom_append, Nat.zero_add]
  rfl

theorem reached_append_singleton {s : ServerState} :
    Reached env (requests ++ [r]) s ↔
      Reached env requests s ∨ s = step env requests.length r (runAll env requests) := by
  constructor
  · rintro ⟨before, after, hrequests, rfl⟩
    rcases List.append_eq_append_iff.mp hrequests with ⟨middle, hbefore, hr⟩ | ⟨middle, hafter, -⟩
    · rcases List.cons_eq_append_iff.mp hr with ⟨rfl, -⟩ | ⟨rest, rfl, hrest⟩
      · exact Or.inl ⟨requests, [], by simp, by rw [hbefore, List.append_nil]⟩
      · have hnil := (List.append_eq_nil_iff.mp hrest.symm).1
        subst hnil
        rw [hbefore, runAll_append_singleton]
        exact Or.inr rfl
    · exact Or.inl ⟨before, middle, hafter, rfl⟩
  · rintro (⟨before, after, hrequests, hs⟩ | hs)
    · exact ⟨before, after ++ [r], by rw [hrequests, List.append_assoc], hs⟩
    · exact ⟨requests ++ [r], [], by simp, by rw [hs, runAll_append_singleton]⟩

theorem createdDuring_append_singleton :
    CreatedDuring env (requests ++ [r]) e c ↔ CreatedDuring env requests e c ∨
      Creates env requests.length r (runAll env requests) e c := by
  constructor
  · rintro ⟨before, r', after, hrequests, hcreates⟩
    rcases append_cons_eq_append_cons_iff.mp hrequests with
      ⟨rfl, rfl, -⟩ | ⟨middle, -, hnil⟩ | ⟨middle, hbefore, hafter⟩
    · exact Or.inr hcreates
    · cases middle <;> cases hnil
    · exact Or.inl ⟨before, r', middle, hbefore, hcreates⟩
  · rintro (⟨before, r', after, hrequests, hcreates⟩ | hcreates)
    · exact ⟨before, r', after ++ [r], by rw [hrequests, List.append_assoc]; rfl, hcreates⟩
    · exact ⟨requests, r, [], rfl, hcreates⟩

theorem CreatedDuring.append {after : List RegistrationRequest}
    (h : CreatedDuring env requests e c) : CreatedDuring env (requests ++ after) e c := by
  obtain ⟨before, r, rest, rfl, hcreates⟩ := h
  exact ⟨before, r, rest ++ after, by simp, hcreates⟩

theorem CreatedDuring.declared (h : CreatedDuring env requests e c) :
    c = collectionId e ∧ DeclaredDuring env requests e := by
  obtain ⟨before, r, after, hrequests, hcreates⟩ := h
  obtain ⟨hc, hdeclared⟩ := hcreates.declared
  refine ⟨hc, step env before.length r (runAll env before), ?_, hdeclared⟩
  exact ⟨before ++ [r], after, by rw [hrequests]; simp, runAll_append_singleton.symm⟩

end

/-! ## What holds where identifiers are distinct -/

/-- What is linked as a collection was created for one triple, which it serves;
and what is declared had a collection created for it. -/
structure Traced (env : RegistrationEnvironment) (requests : List RegistrationRequest) : Prop where
  tidy : Tidy env requests.length (runAll env requests).policies
  dedicated : ∀ c x, (runAll env requests).policies.Linked c ODRL.source x ∨
    (runAll env requests).policies.Linked c ODRL_P.relation x →
      ∃ e, CreatedDuring env requests e c ∧ OnlyFor (runAll env requests).policies c e
  declared : ∀ e, DeclaredDuring env requests e → CreatedDuring env requests e (collectionId e)

section

variable {env : RegistrationEnvironment} {requests : List RegistrationRequest}
  {r : RegistrationRequest} {e e' : CollectionMetadata} {c : Term}

/-- A collection that is found for a triple was created for it. -/
theorem Traced.of_found (h : Traced env requests)
    (hfound : c ∈ findCollectionIds e (runAll env requests).policies) :
    CreatedDuring env requests e c := by
  have hsource := ((mem_findCollectionIds h.tidy.plain).mp hfound).1
  obtain ⟨e', hcreated, honly⟩ := h.dedicated c _ (Or.inl hsource)
  rw [honly.unique h.tidy hfound]
  exact hcreated

/-- Also of identifiers that the next request gives. -/
theorem Traced.onlyFor (h : Traced env requests)
    (hdistinct : DistinctIdentifiers env (requests ++ [r]))
    (hcreated : CreatedDuring env (requests ++ [r]) e c) :
    OnlyFor (runAll env requests).policies c e := by
  have honly : ∀ x, (runAll env requests).policies.Linked c ODRL.source x ∨
      (runAll env requests).policies.Linked c ODRL_P.relation x →
        OnlyFor (runAll env requests).policies c e := by
    intro x hx
    obtain ⟨e', hcreated', honly⟩ := h.dedicated c x hx
    have hsame : e = e' := hdistinct e e' c hcreated hcreated'.append
    rw [hsame]
    exact honly
  exact ⟨fun x hx => (honly x (Or.inl hx)).source x hx,
    fun x hx => (honly x (Or.inr hx)).relation x hx⟩

theorem declared_of_unregistered {n : Nat} {s s' : ServerState}
    (h : Unregistered env n r s s') (hdeclared : Declared env s' e) : Declared env s e := by
  obtain ⟨id, registration, hget, he⟩ := hdeclared
  exact ⟨id, registration, h.registrations id registration hget, he⟩

/-- What is declared after a request was declared, or is new. -/
theorem Registered.declared {n : Nat} {s s' : ServerState} {id : String} {change : QuadChange}
    (h : Registered env n r s s' id change) (hdeclared : Declared env s' e) :
    Declared env s e ∨ (e ∈ defaults env (some (described r.request)) id ∧
      e ∉ defaults env (previousOf r s id) id) := by
  obtain ⟨other, registration, hget, he⟩ := hdeclared
  rw [h.registrations] at hget
  by_cases hother : other = id
  · subst hother
    rw [if_pos rfl] at hget
    injection hget with hget
    subst hget
    by_cases hold : e ∈ defaults env (previousOf r s other) other
    · refine Or.inl ?_
      unfold previousOf at hold
      split at hold
      · cases hstored : s.registrationStore.get other with
        | none =>
          rw [hstored] at hold
          cases hold
        | some previous =>
          rw [hstored] at hold
          exact ⟨other, previous, hstored, hold⟩
      · cases hold
    · exact Or.inr ⟨he, hold⟩
  · rw [if_neg hother] at hget
    exact Or.inl ⟨other, registration, hget, he⟩

theorem traced_unregistered (h : Traced env requests)
    (hstep : Unregistered env requests.length r (runAll env requests)
      (step env requests.length r (runAll env requests))) : Traced env (requests ++ [r]) := by
  refine ⟨?_, ?_, ?_⟩
  · rw [runAll_append_singleton, List.length_append, List.length_singleton]
    exact ⟨fun q hq => h.tidy.plain q (hstep.policies q hq),
      fun q hq => h.tidy.aged.mono (Nat.le_succ _) q (hstep.policies q hq),
      fun a x hx => h.tidy.inverses a x ((hstep.linked a _ x (by decide)).mp hx)⟩
  · intro c x hx
    rw [runAll_append_singleton] at hx ⊢
    rw [hstep.linked c _ x (by decide), hstep.linked c _ x (by decide)] at hx
    obtain ⟨e, hcreated, honly⟩ := h.dedicated c x hx
    exact ⟨e, hcreated.append, onlyFor_congr hstep.linked honly⟩
  · rintro e ⟨s, hreached, hdeclared⟩
    rcases reached_append_singleton.mp hreached with hold | rfl
    · exact (h.declared e ⟨s, hold, hdeclared⟩).append
    · exact (h.declared e ⟨_, ⟨requests, [], by simp, rfl⟩,
        declared_of_unregistered hstep hdeclared⟩).append

theorem traced_registered (hblank : FreshBlankNodes env) (h : Traced env requests)
    (hdistinct : DistinctIdentifiers env (requests ++ [r])) {id : String} {change : QuadChange}
    (hstep : Registered env requests.length r (runAll env requests)
      (step env requests.length r (runAll env requests)) id change) :
    Traced env (requests ++ [r]) := by
  obtain ⟨entries, hcompares, hchange, hcreates⟩ := added_iff_created hstep.computed
  have hnew : ∀ {k e}, entries.Creates (runAll env requests).policies k e →
      CreatedDuring env (requests ++ [r]) e (collectionId e) := fun {k e} hk =>
    createdDuring_append_singleton.mpr
      (Or.inr (hstep.creates_iff.mpr ((hcreates e _).mp ⟨k, hk, rfl⟩)))
  have honly : ∀ {e c}, CreatedDuring env (requests ++ [r]) e c →
      OnlyFor (updatePolicies change (runAll env requests).policies) c e := by
    intro e c hcreated
    refine onlyFor_update hchange hblank h.tidy (h.onlyFor hdistinct hcreated) ?_
    rintro k e' hk rfl
    exact hdistinct e' e _ (hnew hk) hcreated
  refine ⟨?_, ?_, ?_⟩
  · rw [runAll_append_singleton, hstep.policies, List.length_append, List.length_singleton]
    exact tidy_update hchange hblank h.tidy
  · intro c x hx
    rw [runAll_append_singleton, hstep.policies] at hx ⊢
    suffices hcreated : ∃ e, CreatedDuring env (requests ++ [r]) e c by
      obtain ⟨e, hcreated⟩ := hcreated
      exact ⟨e, hcreated, honly hcreated⟩
    have hold : (runAll env requests).policies.Linked c ODRL.source x ∨
        (runAll env requests).policies.Linked c ODRL_P.relation x →
          ∃ e, CreatedDuring env (requests ++ [r]) e c := by
      intro hlinked
      obtain ⟨e, hcreated, -⟩ := h.dedicated c x hlinked
      exact ⟨e, hcreated.append⟩
    rcases hx with hx | hx
    · rcases ((hchange.linked_source h.tidy.plain).mp hx).1 with hlinked | ⟨k, e, hk, rfl, -⟩
      · exact hold (Or.inl hlinked)
      · exact ⟨e, hnew hk⟩
    · rcases ((hchange.linked_relation h.tidy.plain hblank h.tidy.aged).mp hx).1 with
        hlinked | ⟨k, e, hk, rfl, -⟩
      · exact hold (Or.inr hlinked)
      · exact ⟨e, hnew hk⟩
  · rintro e ⟨s, hreached, hdeclared⟩
    rcases reached_append_singleton.mp hreached with hold | rfl
    · exact (h.declared e ⟨s, hold, hdeclared⟩).append
    · rcases hstep.declared hdeclared with hbefore | hadded
      · exact (h.declared e ⟨_, ⟨requests, [], by simp, rfl⟩, hbefore⟩).append
      · -- A collection was found for the new default, or is created for it.
        cases hfound : findCollectionIds e (runAll env requests).policies with
        | nil =>
          refine createdDuring_append_singleton.mpr (Or.inr (hstep.creates_iff.mpr ?_))
          exact (mem_created hstep.computed).mpr ⟨hadded, hfound, rfl⟩
        | cons c cs =>
          have hcreated := h.of_found (e := e) (c := c) (by rw [hfound]; exact List.mem_cons_self)
          have hc := hcreated.declared.1
          subst hc
          exact hcreated.append

theorem DistinctIdentifiers.of_append {after : List RegistrationRequest}
    (h : DistinctIdentifiers env (requests ++ after)) : DistinctIdentifiers env requests :=
  fun e e' c hcreated hcreated' => h e e' c hcreated.append hcreated'.append

theorem traced_nil : Traced env [] := by
  have hnone : ∀ a p x, ¬ (runAll env []).policies.Linked a p x := by
    rintro a p x ⟨q, hq, -⟩
    exact Store.not_mem_empty q hq
  refine ⟨(mirrored_empty env).tidy, ?_, ?_⟩
  · rintro c x (hx | hx)
    · exact absurd hx (hnone c _ x)
    · exact absurd hx (hnone c _ x)
  · rintro e ⟨s, ⟨before, after, hrequests, rfl⟩, id, registration, hget, -⟩
    rw [(List.append_eq_nil_iff.mp hrequests.symm).1] at hget
    cases hget

/-- By induction on the requests, the last of which is taken off. -/
theorem traced (hblank : FreshBlankNodes env) (requests : List RegistrationRequest)
    (h : DistinctIdentifiers env requests) : Traced env requests := by
  induction requests using List.reverseRecOn with
  | nil => exact traced_nil
  | append_singleton requests r ih =>
    have hbefore := ih h.of_append
    rcases registers_or_not env requests.length r (runAll env requests) with
      ⟨id, change, hregistered⟩ | hunregistered
    · exact traced_registered hblank hbefore h hregistered
    · exact traced_unregistered hbefore hunregistered

end

/-! ## Runs in which identifiers are distinct -/

section

variable {env : RegistrationEnvironment} {requests : List RegistrationRequest}

/-- A node is found for one triple only. -/
theorem DistinctIdentifiers.serves (hblank : FreshBlankNodes env)
    (h : DistinctIdentifiers env requests) {s : ServerState} (hreached : Reached env requests s)
    {c : Term} {e e' : CollectionMetadata} (hfound : c ∈ findCollectionIds e s.policies)
    (hfound' : c ∈ findCollectionIds e' s.policies) : e = e' := by
  obtain ⟨before, after, rfl, rfl⟩ := hreached
  have htraced := traced hblank before h.of_append
  have hcreated := htraced.of_found hfound
  have hcreated' := htraced.of_found hfound'
  exact h.of_append e e' c hcreated hcreated'

theorem distinctIdentifiers_iff (hblank : FreshBlankNodes env) :
    DistinctIdentifiers env requests ↔ ∀ e e', DeclaredDuring env requests e →
      DeclaredDuring env requests e' → ¬ Confusable e e' := by
  constructor
  · intro h e e' hdeclared hdeclared' hconfusable
    have htraced := traced hblank requests h
    have hcreated := htraced.declared e hdeclared
    have hcreated' := htraced.declared e' hdeclared'
    rw [← collectionId_eq_iff.mpr (Or.inr hconfusable)] at hcreated'
    exact hconfusable.ne (h e e' _ hcreated hcreated')
  · intro h e e' c hcreated hcreated'
    obtain ⟨hc, hdeclared⟩ := hcreated.declared
    obtain ⟨hc', hdeclared'⟩ := hcreated'.declared
    exact (collectionId_eq_iff.mp (hc.symm.trans hc')).resolve_right (h e e' hdeclared hdeclared')

end

/-- The collections of a run are kept apart exactly where no two defaults of the
descriptions it stores can be confused. -/
theorem collectionsApart_iff (env : RegistrationEnvironment) (hblank : FreshBlankNodes env)
    (requests : List RegistrationRequest) :
    CollectionsApart env requests ↔ ∀ e e', DeclaredDuring env requests e →
      DeclaredDuring env requests e' → ¬ Confusable e e' := by
  rw [← distinctIdentifiers_iff hblank]
  constructor
  · exact fun h => h.identifiers
  · exact fun h => ⟨h, fun s hreached c e e' hfound hfound' =>
      h.serves hblank hreached hfound hfound'⟩

/-! ## Sample runs -/

/-- A container of Bob, next to that of Alice. -/
def bobsContainerRequest : RegistrationRequest :=
  relationRequest bob "POST" "http://example.org/bob/" ("resource_defaults",
    .object [("http://www.w3.org/ns/ldp#contains", .array [.string "read"])])

def bobsContainment : CollectionMetadata where
  relation := "http://www.w3.org/ns/ldp#contains"
  source := "http://example.org/bob/"
  reverse := false

/-- The descriptions stored in the run of both declare these two collections. -/
theorem declared_containers {e : CollectionMetadata} (h : DeclaredDuring countedBlankNodes
      [containerRequest alice "POST", bobsContainerRequest] e) :
    e = containment ∨ e = bobsContainment := by
  obtain ⟨s, hreached, id, registration, hget, he⟩ := h
  have hfirst : (runAll countedBlankNodes [containerRequest alice "POST"]).registrationStore.get
      id = if id = "http://example.org/"
        then some ⟨alice, described (containerRequest alice "POST").request⟩ else none :=
    KeyValueStorage.get_set _ _ _ _
  have hsecond : (step countedBlankNodes 1 bobsContainerRequest
      (runAll countedBlankNodes [containerRequest alice "POST"])).registrationStore.get id =
        if id = "http://example.org/bob/" then some ⟨bob, described bobsContainerRequest.request⟩
        else (runAll countedBlankNodes [containerRequest alice "POST"]).registrationStore.get id :=
    KeyValueStorage.get_set _ _ _ _
  have hcontainer : (runAll countedBlankNodes [containerRequest alice "POST"]).registrationStore.get
      id = some registration → e = containment := by
    intro hstored
    rw [hfirst] at hstored
    split at hstored
    · rename_i hid
      injection hstored with hregistration
      subst hid hregistration
      exact List.mem_singleton.mp he
    · cases hstored
  rcases reached_append_singleton.mp (show Reached _ ([_] ++ [_]) s from hreached) with
    hreached | rfl
  · rcases reached_append_singleton.mp (show Reached _ ([] ++ [_]) s from hreached) with
      ⟨before, after, hrequests, rfl⟩ | rfl
    · rw [(List.append_eq_nil_iff.mp hrequests.symm).1] at hget
      cases hget
    · exact Or.inl (hcontainer hget)
  · have hstored := hsecond.symm.trans hget
    split at hstored
    · rename_i hid
      injection hstored with hregistration
      subst hid hregistration
      exact Or.inr (List.mem_singleton.mp he)
    · exact Or.inl (hcontainer hstored)

theorem collectionsApart_iff_container :
    CollectionsApart countedBlankNodes [containerRequest alice "POST", bobsContainerRequest] := by
  refine (collectionsApart_iff countedBlankNodes countedBlankNodes_fresh _).mpr ?_
  intro e e' h h' hconfusable
  have hne := hconfusable.ne
  have hsame : collectionId e = collectionId e' := collectionId_eq_iff.mpr (Or.inr hconfusable)
  rcases declared_containers h with rfl | rfl <;> rcases declared_containers h' with rfl | rfl
  · exact hne rfl
  · exact absurd hsame (by decide)
  · exact absurd hsame (by decide)
  · exact hne rfl

/-- A resource named as the relation is, with a reverse default for a relation
named as the container is. -/
def reversedRequest (owner : String) : RegistrationRequest :=
  relationRequest owner "POST" "http://www.w3.org/ns/ldp#contains" ("resource_defaults",
    .object [("@reverse", .object [("http://example.org/", .array [.string "read"])])])

def reversedContainment : CollectionMetadata where
  relation := "http://example.org/"
  source := "http://www.w3.org/ns/ldp#contains"
  reverse := true

theorem one_identifier_for_two : ¬ ∀ env requests, FreshBlankNodes env →
    CollectionsApart env requests := by
  intro hclaim
  have hapart := hclaim countedBlankNodes [containerRequest alice "POST", reversedRequest bob]
    countedBlankNodes_fresh
  have hfirst : CreatedDuring countedBlankNodes
      [containerRequest alice "POST", reversedRequest bob] containment
        (collectionId containment) :=
    ⟨[], _, _, rfl, "http://example.org/", ⟨Or.inl rfl, _, rfl, rfl⟩, by decide +kernel⟩
  have hsecond : CreatedDuring countedBlankNodes
      [containerRequest alice "POST", reversedRequest bob] reversedContainment
        (collectionId containment) :=
    ⟨[containerRequest alice "POST"], _, _, rfl, "http://www.w3.org/ns/ldp#contains",
      ⟨Or.inl rfl, _, rfl, rfl⟩, by decide +kernel⟩
  exact absurd (hapart.identifiers _ _ _ hfirst hsecond) (by decide)

end ResourceRegistrationRequestHandler

end UserManagedAccess.Routes
