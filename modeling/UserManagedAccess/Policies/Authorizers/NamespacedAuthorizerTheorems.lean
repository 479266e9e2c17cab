/-
UserManagedAccess.Policies.Authorizers.NamespacedAuthorizerTheorems — when the
authorizer that delegates by namespace answers.

The registration endpoint accepts every string as the name of a resource. The
authorizer takes a name for a URL, and the namespace in it for a key of its own
authorizers, so it throws on a name that is no URL, and on one whose namespace is
a property that every object inherits.

* `answers_iff` — it answers a query exactly when the names of all the registered
  resources in it are usable;
* `registered_answers_iff` — it answers every query with a resource that was just
  registered exactly when all names of the store are usable, the new one included.
-/
import UserManagedAccess.Policies.Authorizers.AuthorizerTreeTheorems
import UserManagedAccess.Routes.RegistrationRuns

namespace UserManagedAccess.Policies

open UserManagedAccess.Lib UserManagedAccess.Util UserManagedAccess.Views
open UserManagedAccess.Credentials UserManagedAccess.Routes

namespace NamespacedAuthorizer

/-! ## Names -/

/-- The authorizer can use the name of the resource: it has none, or one that is a
URL, whose namespace has an authorizer or is no inherited property. -/
def Usable (settings : Settings) (description : ResourceDescription) : Prop :=
  ∀ name, description.name = some name → name ≠ "" →
    ∃ pathname, settings.urlPathname name = some pathname ∧
      (segment settings pathname ∈ inheritedProperties →
        (settings.authorizers.get (segment settings pathname)).isSome)

/-- Every query of these entries is answered, whatever the claims, if the delegates
answer. -/
def Answers (settings : Settings) (query : List PartialPermission) : Prop :=
  ∀ (delegate : Nat → Authorizer) (claims : ClaimSet),
    (∀ handle group, ∃ granted, delegate handle claims (some group) = .ok granted) →
      ∃ granted, namespacedAuthorizer settings delegate claims (some query) = .ok granted

/-! ## Routes -/

variable {settings : Settings}

theorem empty_not_inherited : "" ∉ inheritedProperties := by decide

theorem lookup_authorizer (key : String) :
    (∃ handle, (lookup settings key).getD (.authorizer settings.fallback) =
        .authorizer handle) ↔
      (key ∈ inheritedProperties → (settings.authorizers.get key).isSome) := by
  unfold lookup
  cases hget : settings.authorizers.get key with
  | some handle =>
    rw [Dict.property_of_get hget]
    exact ⟨fun _ _ => rfl, fun _ => ⟨handle, rfl⟩⟩
  | none =>
    by_cases hinherited : key ∈ inheritedProperties
    · rw [Dict.property_inherited hget hinherited]
      constructor
      · rintro ⟨handle, h⟩
        cases h
      · intro h
        cases h hinherited
    · rw [Dict.property_missing hget hinherited]
      exact ⟨fun _ hin => absurd hin hinherited, fun _ => ⟨settings.fallback, rfl⟩⟩

/-- A namespace goes to an authorizer, unless only the prototype has that key. -/
theorem namespace_authorizer (ns : Option String) :
    (∃ handle, ((ns.filter (· ≠ "")).bind (lookup settings)).getD
        (.authorizer settings.fallback) = .authorizer handle) ↔
      ∀ key, ns = some key → key ∈ inheritedProperties →
        (settings.authorizers.get key).isSome := by
  cases ns with
  | none => exact ⟨fun _ _ h => absurd h (by simp), fun _ => ⟨_, rfl⟩⟩
  | some key =>
    have hkey : (∀ k, some key = some k → k ∈ inheritedProperties →
        (settings.authorizers.get k).isSome) ↔
          (key ∈ inheritedProperties → (settings.authorizers.get key).isSome) := by simp
    rw [hkey]
    by_cases hempty : key = ""
    · subst hempty
      exact ⟨fun _ hin => absurd hin empty_not_inherited, fun _ => ⟨settings.fallback, rfl⟩⟩
    · have hfilter : (some key).filter (fun k => decide (k ≠ "")) = some key := by simp [hempty]
      rw [hfilter]
      exact lookup_authorizer key

theorem findNamespace_usable {id : String} :
    (∃ ns, findNamespace settings id = .ok ns ∧
        ∀ key, ns = some key → key ∈ inheritedProperties →
          (settings.authorizers.get key).isSome) ↔
      ∀ registration, settings.registrationStore.get id = some registration →
        Usable settings registration.description := by
  unfold findNamespace
  cases hget : settings.registrationStore.get id with
  | none => simp
  | some registration =>
    dsimp only
    have hone : (∀ r, some registration = some r → Usable settings r.description) ↔
        Usable settings registration.description := by simp
    rw [hone]
    unfold Usable
    cases hname : registration.description.name.filter (· ≠ "") with
    | none =>
      have hnone : ∀ name, registration.description.name = some name → name = "" := by
        simpa [Option.filter_eq_none_iff] using hname
      refine ⟨fun _ name hsome hne => absurd (hnone name hsome) hne, fun _ => ⟨none, rfl, ?_⟩⟩
      intro key hkey
      cases hkey
    | some name =>
      obtain ⟨hsome, hne⟩ := Option.filter_eq_some_iff.mp hname
      have hne : name ≠ "" := by simpa using hne
      rw [hsome]
      dsimp only
      cases hpath : settings.urlPathname name with
      | none =>
        constructor
        · intro ⟨ns, h, _⟩
          cases h
        · intro h
          obtain ⟨pathname, hpathname, _⟩ := h name rfl hne
          rw [hpath] at hpathname
          cases hpathname
      | some pathname =>
        constructor
        · intro ⟨ns, h, hkey⟩ other hother _
          injection h with h
          injection hother with hother
          subst hother
          exact ⟨pathname, hpath, hkey _ h.symm⟩
        · intro h
          obtain ⟨other, hother, hkey⟩ := h name rfl hne
          rw [hpath] at hother
          injection hother with hother
          subst hother
          refine ⟨_, rfl, fun key heq => ?_⟩
          injection heq with heq
          exact heq ▸ hkey

/-- An entry goes to an authorizer exactly when the name of its resource is usable. -/
theorem route_authorizer {permission : PartialPermission} :
    (∃ handle, route settings permission = .ok (.authorizer handle)) ↔
      ∀ id, permission.resourceId = some id → id ≠ "" →
        ∀ registration, settings.registrationStore.get id = some registration →
          Usable settings registration.description := by
  have hroute : ∀ (search : Except HttpError (Option String)),
      (∃ handle, (do
          let ns ← search
          return ((ns.filter (· ≠ "")).bind (lookup settings)).getD
            (.authorizer settings.fallback) : Except HttpError Target) =
              .ok (.authorizer handle)) ↔
        ∃ ns, search = .ok ns ∧ ∀ key, ns = some key → key ∈ inheritedProperties →
          (settings.authorizers.get key).isSome := by
    intro search
    simp only [Except.bind_eq_ok, ← namespace_authorizer]
    constructor
    · intro ⟨handle, ns, hns, htarget⟩
      injection htarget with htarget
      exact ⟨ns, hns, handle, htarget⟩
    · intro ⟨ns, hns, handle, htarget⟩
      exact ⟨handle, ns, hns, congrArg Except.ok htarget⟩
  unfold route
  cases hid : permission.resourceId.filter (· ≠ "") with
  | none =>
    dsimp only
    rw [hroute]
    have hnone : ∀ id, permission.resourceId = some id → id = "" := by
      simpa [Option.filter_eq_none_iff] using hid
    refine ⟨fun _ id hsome hne => absurd (hnone id hsome) hne, fun _ => ⟨none, rfl, ?_⟩⟩
    intro key hkey
    cases hkey
  | some id =>
    obtain ⟨hsome, hne⟩ := Option.filter_eq_some_iff.mp hid
    have hne : id ≠ "" := by simpa using hne
    dsimp only
    rw [hroute, findNamespace_usable]
    constructor
    · intro h other hother _
      rw [hsome] at hother
      injection hother with hother
      exact hother ▸ h
    · intro h
      exact h id hsome hne

/-! ## Queries -/

theorem target_addToGroup {target other : Target} {permission : PartialPermission}
    {groups : List (Target × List PartialPermission)} :
    (∃ group ∈ addToGroup target permission groups, group.1 = other) ↔
      (∃ group ∈ groups, group.1 = other) ∨ target = other := by
  induction groups with
  | nil => simp [addToGroup]
  | cons first groups ih =>
    obtain ⟨t, entries⟩ := first
    unfold addToGroup
    split
    · rename_i htarget
      subst htarget
      simp only [List.exists_mem_cons_iff]
      exact ⟨Or.inl, fun h => h.elim id Or.inl⟩
    · simp only [List.exists_mem_cons_iff, ih, or_assoc]

/-- There is a group for every target of an entry, and for no other. -/
theorem target_groupQuery {query : List PartialPermission}
    {groups : List (Target × List PartialPermission)}
    (h : groupQuery settings query = .ok groups) :
    (∀ permission ∈ query, ∃ group ∈ groups, route settings permission = .ok group.1) ∧
      ∀ group ∈ groups, ∃ permission ∈ query, route settings permission = .ok group.1 := by
  refine foldlM_invariant
    (fun seen groups =>
      (∀ permission ∈ seen, ∃ group ∈ groups, route settings permission = .ok group.1) ∧
        ∀ group ∈ groups, ∃ permission ∈ seen, route settings permission = .ok group.1)
    ?_ ⟨fun _ h => absurd h List.not_mem_nil, fun _ h => absurd h List.not_mem_nil⟩ h
  intro seen groups permission groups' ⟨hseen, hgroups⟩ hstep
  obtain ⟨target, htarget, hstep⟩ := Except.bind_eq_ok.mp hstep
  injection hstep with hstep
  subst hstep
  constructor
  · intro other hother
    rcases List.mem_append.mp hother with hother | hother
    · obtain ⟨group, hgroup, hroute⟩ := hseen other hother
      obtain ⟨group', hgroup', hsame⟩ := target_addToGroup.mpr (Or.inl ⟨group, hgroup, rfl⟩)
      exact ⟨group', hgroup', hsame ▸ hroute⟩
    · rw [List.mem_singleton.mp hother]
      obtain ⟨group, hgroup, hsame⟩ := target_addToGroup.mpr (Or.inr rfl)
      exact ⟨group, hgroup, hsame ▸ htarget⟩
  · intro group hgroup
    rcases target_addToGroup.mp ⟨group, hgroup, rfl⟩ with ⟨old, hold, hsame⟩ | hsame
    · obtain ⟨other, hother, hroute⟩ := hgroups old hold
      exact ⟨other, List.mem_append_left _ hother, hsame ▸ hroute⟩
    · exact ⟨permission, List.mem_append_right _ (List.mem_singleton_self _), hsame ▸ htarget⟩

theorem exists_callee {group : Target × List PartialPermission} :
    (∃ call, callee group = .ok call) ↔ ∃ handle, group.1 = .authorizer handle := by
  obtain ⟨target, entries⟩ := group
  cases target with
  | authorizer handle => exact ⟨fun _ => ⟨handle, rfl⟩, fun _ => ⟨_, rfl⟩⟩
  | inherited property =>
    constructor
    · intro ⟨_, h⟩
      cases h
    · intro ⟨_, h⟩
      cases h

/-- The authorizer answers exactly when every entry goes to an authorizer. -/
theorem answers_iff_route {query : List PartialPermission} :
    Answers settings query ↔
      ∀ permission ∈ query, ∃ handle,
        route settings permission = .ok (.authorizer handle) := by
  cases query with
  | nil => exact ⟨fun _ _ h => absurd h List.not_mem_nil, fun _ _ _ _ => ⟨[], rfl⟩⟩
  | cons entry query =>
    constructor
    · intro h
      obtain ⟨granted, hgranted⟩ := h (fun _ => noneAuthorizer) [] fun _ _ => ⟨[], rfl⟩
      obtain ⟨groups, hgroups, hgranted⟩ := Except.bind_eq_ok.mp hgranted
      obtain ⟨calls, hcalls, -⟩ := Except.bind_eq_ok.mp hgranted
      intro permission hpermission
      obtain ⟨group, hgroup, hroute⟩ := (target_groupQuery hgroups).1 permission hpermission
      obtain ⟨handle, hhandle⟩ :=
        exists_callee.mp (exists_mapM_ok.mp ⟨calls, hcalls⟩ group hgroup)
      exact ⟨handle, hhandle ▸ hroute⟩
    · intro h delegate claims hdelegate
      obtain ⟨groups, hgroups⟩ : ∃ groups, groupQuery settings (entry :: query) = .ok groups := by
        refine exists_foldlM_ok (fun permission hpermission groups => ?_) []
        obtain ⟨handle, hroute⟩ := h permission hpermission
        exact ⟨_, Except.bind_eq_ok.mpr ⟨_, hroute, rfl⟩⟩
      obtain ⟨calls, hcalls⟩ : ∃ calls, groups.mapM callee = .ok calls := by
        refine exists_mapM_ok.mpr fun group hgroup => exists_callee.mpr ?_
        obtain ⟨permission, hpermission, hroute⟩ := (target_groupQuery hgroups).2 group hgroup
        obtain ⟨handle, hhandle⟩ := h permission hpermission
        rw [hroute] at hhandle
        injection hhandle with hhandle
        exact ⟨handle, hhandle⟩
      obtain ⟨sets, hsets⟩ : ∃ sets, (calls.mapM fun call =>
          delegate call.1 claims (some call.2)) = .ok sets :=
        exists_mapM_ok.mpr fun call _ => hdelegate call.1 call.2
      exact ⟨sets.flatten, Except.bind_eq_ok.mpr ⟨groups, hgroups,
        Except.bind_eq_ok.mpr ⟨calls, hcalls, Except.bind_eq_ok.mpr ⟨sets, hsets, rfl⟩⟩⟩⟩

/-- It answers exactly when the registered names in the query are usable. -/
theorem answers_iff {query : List PartialPermission} :
    Answers settings query ↔
      ∀ permission ∈ query, ∀ id, permission.resourceId = some id → id ≠ "" →
        ∀ registration, settings.registrationStore.get id = some registration →
          Usable settings registration.description := by
  rw [answers_iff_route]
  exact forall₂_congr fun permission _ => route_authorizer

/-! ## Registered resources -/

/-- The settings, with this registration store. -/
def Settings.over (settings : Settings) (store : KeyValueStorage String Registration) :
    Settings :=
  { settings with registrationStore := store }

/-- All names in the store are usable. -/
def NamesUsable (settings : Settings) (store : KeyValueStorage String Registration) : Prop :=
  ∀ id registration, id ≠ "" → store.get id = some registration →
    Usable settings registration.description

/-- A query with a resource can have any other one next to it. -/
theorem answers_with_iff {store : KeyValueStorage String Registration} {id : String} :
    (∀ query, (∃ permission ∈ query, permission.resourceId = some id) →
        Answers (settings.over store) query) ↔
      NamesUsable settings store := by
  constructor
  · intro h other registration hne hget
    have hanswers := h [{ resourceId := some id }, { resourceId := some other }]
      ⟨_, List.mem_cons_self, rfl⟩
    exact answers_iff.mp hanswers { resourceId := some other } (by simp) other rfl hne
      registration hget
  · intro h query _
    refine answers_iff.mpr fun permission _ other _ hne registration hget => ?_
    exact h other registration hne hget

open ResourceRegistrationRequestHandler in
/-- After an accepted registration, every query with the resource is answered exactly
when the names of the store are usable, with that of the request put into it. -/
theorem registered_answers_iff (settings : Settings) (env : RegistrationEnvironment) (n : Nat)
    (r : RegistrationRequest) (s : ServerState) (response : HttpHandlerResponse) (id : String)
    (hmethod : r.request.method = "POST" ∨ r.request.method = "PUT")
    (hok : ((respond env n r.request r.owner).run s).1 = .ok response)
    (hbody : response.body = registered id) :
    (∀ query, (∃ permission ∈ query, permission.resourceId = some id) →
        Answers (settings.over (step env n r s).registrationStore) query) ↔
      NamesUsable settings
        (s.registrationStore.set id
          { owner := r.owner, description := described r.request }) := by
  rw [answers_with_iff, step_registers hmethod hok hbody]

/-! ## Sample names -/

/-- The namespaces of the default configuration, and two URLs. -/
def sampleSettings : Settings where
  authorizers := [("profile", 1), ("public", 1), ("credentials", 2), ("settings", 2)]
  fallback := 0
  registrationStore := KeyValueStorage.empty
  namespacePosition := 2
  urlPathname := fun name =>
    if name = "http://localhost:3000/alice/notes/a" then some "/alice/notes/a"
    else if name = "http://localhost:3000/alice/constructor/a" then some "/alice/constructor/a"
    else none

/-- A registration with nothing but a name. -/
def namedRequest (name : String) : RegistrationRequest where
  owner := ResourceRegistrationRequestHandler.alice
  request :=
    { method := "POST"
      body := .object [("resource_scopes", .array []), ("name", .string name)] }

open ResourceRegistrationRequestHandler in
theorem notes_answered :
    ((respond countedBlankNodes 0 (namedRequest "http://localhost:3000/alice/notes/a").request
        ResourceRegistrationRequestHandler.alice).run ServerState.empty).1 =
      .ok { status := 201, body := registered "http://localhost:3000/alice/notes/a" } ∧
    ∀ query, (∃ permission ∈ query,
        permission.resourceId = some "http://localhost:3000/alice/notes/a") →
      Answers
        (sampleSettings.over
          (step countedBlankNodes 0 (namedRequest "http://localhost:3000/alice/notes/a")
            ServerState.empty).registrationStore) query := by
  refine ⟨rfl, (registered_answers_iff sampleSettings countedBlankNodes 0
    (namedRequest "http://localhost:3000/alice/notes/a") ServerState.empty
    { status := 201, body := registered "http://localhost:3000/alice/notes/a" }
    "http://localhost:3000/alice/notes/a" (Or.inl rfl) rfl rfl).mpr ?_⟩
  intro id registration _ hget name hname _
  rw [KeyValueStorage.get_set] at hget
  split at hget
  · injection hget with hget
    subst hget
    have hsame : name = "http://localhost:3000/alice/notes/a" := by
      injection hname with hname
      exact hname.symm
    subst hsame
    refine ⟨"/alice/notes/a", by decide +kernel, fun hinherited => ?_⟩
    exact absurd hinherited (by decide +kernel)
  · cases hget

open ResourceRegistrationRequestHandler in
/-- The name is accepted for a resource, and then a query with the resource throws. -/
def AcceptedNotAnswered (name : String) : Prop :=
  ((respond countedBlankNodes 0 (namedRequest name).request
      (namedRequest name).owner).run ServerState.empty).1 =
    .ok { status := 201, body := registered name } ∧
  ¬ Answers
    (sampleSettings.over
      (step countedBlankNodes 0 (namedRequest name) ServerState.empty).registrationStore)
    [{ resourceId := some name }]

/-- A name that is no URL, and one with an inherited property for its namespace. -/
theorem names_not_answered :
    AcceptedNotAnswered "my thesis" ∧
      AcceptedNotAnswered "http://localhost:3000/alice/constructor/a" := by
  have hthrows : ∀ settings name,
      (∀ handle, route settings { resourceId := some name } ≠ .ok (.authorizer handle)) →
        ¬ Answers settings [{ resourceId := some name }] := by
    intro settings name hroute hanswers
    obtain ⟨handle, h⟩ := answers_iff_route.mp hanswers _ List.mem_cons_self
    exact hroute handle h
  constructor
  · refine ⟨rfl, hthrows _ _ fun handle h => ?_⟩
    cases h
  · refine ⟨rfl, hthrows _ _ fun handle h => ?_⟩
    cases h

end NamespacedAuthorizer

end UserManagedAccess.Policies
