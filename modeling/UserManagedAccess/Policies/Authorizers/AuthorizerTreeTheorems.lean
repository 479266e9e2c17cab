/-
UserManagedAccess.Policies.Authorizers.AuthorizerTreeTheorems — no authorizer
grants what was not asked.

Each kind of authorizer gets one lemma: what it grants on a query of full
permissions are (resource id, scope) pairs of the query. The ones that
delegate assume it of their delegates, and `noOverGrant` is the induction
over the tree.
-/
import UserManagedAccess.Policies.Authorizers.AuthorizerTree

namespace UserManagedAccess.Policies

open UserManagedAccess.Lib UserManagedAccess.Rdf UserManagedAccess.Util
open UserManagedAccess.Views UserManagedAccess.Credentials

/-! ## Pairs of a query -/

/-- The (resource id, scope) pairs a query asks for. -/
def asked (query : List PartialPermission) : Set (String × String) :=
  {x | ∃ p ∈ query, p.resourceId = some x.1 ∧ ∃ scopes, p.resourceScopes = some scopes ∧
    x.2 ∈ scopes}

/-- Both fields are present. -/
def IsFull (p : PartialPermission) : Prop :=
  ∃ resourceId resourceScopes, p = ⟨some resourceId, some resourceScopes⟩

def NoOverGrant (authorizer : Authorizer) : Prop :=
  ∀ claims query granted, (∀ p ∈ query, IsFull p) → authorizer claims (some query) = .ok granted →
    pairs granted ⊆ asked query

theorem asked_mono {query query' : List PartialPermission} (h : ∀ p ∈ query, p ∈ query') :
    asked query ⊆ asked query' :=
  fun _ ⟨p, hp, hx⟩ => ⟨p, h p hp, hx⟩

theorem asked_toPartial (permissions : List Permission) :
    asked (permissions.map Permission.toPartial) = pairs permissions := by
  ext ⟨id, scope⟩
  constructor
  · rintro ⟨q, hq, hid, scopes, hscopes, hscope⟩
    obtain ⟨p, hp, rfl⟩ := List.mem_map.mp hq
    injection hid with hid
    injection hscopes with hscopes
    exact ⟨p, hp, hid, hscopes ▸ hscope⟩
  · rintro ⟨p, hp, hid, hscope⟩
    exact ⟨p.toPartial, List.mem_map_of_mem hp, congrArg some hid, _, rfl, hscope⟩

theorem isFull_toPartial (permissions : List Permission) :
    ∀ p ∈ permissions.map Permission.toPartial, IsFull p := by
  intro q hq
  obtain ⟨p, -, rfl⟩ := List.mem_map.mp hq
  exact ⟨p.resourceId, p.resourceScopes, rfl⟩

theorem pairs_map_grantAsked {query : List PartialPermission} (h : ∀ p ∈ query, IsFull p) :
    pairs (query.map grantAsked) ⊆ asked query := by
  rintro ⟨id, scope⟩ ⟨q, hq, hid, hscope⟩
  obtain ⟨p, hp, rfl⟩ := List.mem_map.mp hq
  obtain ⟨resourceId, resourceScopes, rfl⟩ := h p hp
  exact ⟨_, hp, congrArg some hid, resourceScopes, rfl, hscope⟩

/-! ## Authorizers without policies -/

theorem allAuthorizer_noOverGrant : NoOverGrant allAuthorizer := by
  intro claims query granted hfull h
  injection h with h
  rw [← h]
  exact pairs_map_grantAsked hfull

theorem noneAuthorizer_noOverGrant : NoOverGrant noneAuthorizer := by
  intro claims query granted _ h
  injection h with h
  rw [← h]
  rintro x ⟨p, hp, -⟩
  exact absurd hp List.not_mem_nil

theorem webIdAuthorizer_noOverGrant (webids : List String) :
    NoOverGrant (webIdAuthorizer webids) := by
  intro claims query granted hfull h
  unfold webIdAuthorizer at h
  split at h
  · injection h with h
    rw [← h]
    exact pairs_map_grantAsked hfull
  · exact noneAuthorizer_noOverGrant claims query granted hfull h

/-! ## The simple ODRL authorizer -/

namespace SimpleOdrlAuthorizer

theorem judge_subset {policies : Store} {scope : String} {rules : List Term}
    {result : List String} (h : judge policies scope rules = some result) :
    ∀ s ∈ result, s = scope := by
  induction rules with
  | nil =>
    injection h with h
    intro s hs
    rw [← h] at hs
    exact List.mem_singleton.mp hs
  | cons rule rules ih =>
    simp only [judge] at h
    split at h
    · cases h
    · split at h
      · injection h with h
        intro s hs
        rw [← h] at hs
        exact absurd hs List.not_mem_nil
      · split at h
        · cases h
        · exact ih h

/-- The answer for a scope is that scope or nothing. -/
theorem getPermissions_subset {env : Environment} {policies : Store} {claims : ClaimSet}
    {resource scope : String} {result : List String}
    (h : getPermissions env policies claims resource scope = .ok (some result)) :
    ∀ s ∈ result, s = scope := by
  have hnil : ∀ {r : List String}, (.ok (some []) : Except HttpError _) = .ok (some r) →
      ∀ s ∈ r, s = scope := by
    intro r hr s hs
    injection hr with hr
    injection hr with hr
    rw [← hr] at hs
    exact absurd hs List.not_mem_nil
  unfold getPermissions at h
  simp only at h
  split at h
  · exact hnil h
  · split at h
    · exact hnil h
    · split at h
      · exact hnil h
      · obtain ⟨valid, -, h⟩ := Except.bind_eq_ok.mp h
        split at h
        · cases h
        · exact hnil h
        · injection h with h
          exact judge_subset h

theorem allowedScopes_subset {env : Environment} {policies : Store} {claims : ClaimSet}
    {resource : String} {scopes result : List String}
    (h : allowedScopes env policies claims resource scopes = .ok (some result)) :
    ∀ s ∈ result, s ∈ scopes := by
  induction scopes generalizing result with
  | nil =>
    injection h with h
    injection h with h
    intro s hs
    rw [← h] at hs
    exact hs
  | cons scope scopes ih =>
    obtain ⟨first, hfirst, h⟩ := Except.bind_eq_ok.mp h
    cases first with
    | none => cases h
    | some first =>
      obtain ⟨rest, hrest, h⟩ := Except.bind_eq_ok.mp h
      cases rest with
      | none => cases h
      | some rest =>
        injection h with h
        injection h with h
        intro s hs
        rw [← h] at hs
        rcases List.mem_append.mp hs with hs | hs
        · rw [getPermissions_subset hfirst s hs]
          exact List.mem_cons_self
        · exact List.mem_cons_of_mem _ (ih hrest s hs)

theorem grantedBySelf_subset {env : Environment} {policies : Store} {claims : ClaimSet}
    {query : List PartialPermission} {granted : List Permission}
    (h : grantedBySelf env policies claims query = .ok (some granted)) :
    pairs granted ⊆ asked query := by
  induction query generalizing granted with
  | nil =>
    injection h with h
    injection h with h
    rw [← h]
    rintro x ⟨p, hp, -⟩
    exact absurd hp List.not_mem_nil
  | cons entry query ih =>
    obtain ⟨resourceId, resourceScopes⟩ := entry
    cases resourceId with
    | none => cases h
    | some resourceId =>
      cases resourceScopes with
      | none => cases h
      | some scopes =>
        obtain ⟨allowed, hallowed, h⟩ := Except.bind_eq_ok.mp h
        cases allowed with
        | none => cases h
        | some allowed =>
          obtain ⟨rest, hrest, h⟩ := Except.bind_eq_ok.mp h
          have hcons : asked query ⊆ asked (⟨some resourceId, some scopes⟩ :: query) :=
            asked_mono fun p hp => List.mem_cons_of_mem _ hp
          split at h
          · cases rest with
            | none => cases h
            | some rest =>
              injection h with h
              injection h with h
              rw [← h, pairs_cons]
              refine Set.union_subset ?_ ((ih hrest).trans hcons)
              rintro ⟨id, scope⟩ hx
              obtain ⟨rfl, hscope⟩ := mem_pairs_singleton.mp hx
              exact ⟨_, List.mem_cons_self, rfl, scopes, rfl,
                allowedScopes_subset hallowed scope hscope⟩
          · injection h with h
            subst h
            exact (ih hrest).trans hcons

end SimpleOdrlAuthorizer

theorem simpleOdrlAuthorizer_noOverGrant {env : SimpleOdrlAuthorizer.Environment}
    {policies : Store} {authorizer : Authorizer} (hauth : NoOverGrant authorizer) :
    NoOverGrant (simpleOdrlAuthorizer env policies authorizer) := by
  intro claims query granted hfull h
  obtain ⟨self, hself, h⟩ := Except.bind_eq_ok.mp h
  cases self with
  | none => exact hauth claims query granted hfull h
  | some self =>
    injection h with h
    exact h ▸ SimpleOdrlAuthorizer.grantedBySelf_subset hself

/-! ## The full ODRL authorizer -/

namespace OdrlAuthorizer

/-- Every scope recorded for a resource was asked for it. -/
def OnlyAsked (query : List PartialPermission) (granted : Dict (List String)) : Prop :=
  ∀ entry ∈ granted, ∀ scope ∈ entry.2, (entry.1, scope) ∈ asked query

theorem OnlyAsked.assign {query : List PartialPermission} {granted : Dict (List String)}
    (h : OnlyAsked query granted) {resource : String} {scopes : List String}
    (hscopes : ∀ scope ∈ scopes, (resource, scope) ∈ asked query) :
    OnlyAsked query (assign granted resource scopes) := by
  unfold OdrlAuthorizer.assign
  split
  · exact h
  · intro entry hentry scope hscope
    rcases Dict.mem_set hentry with rfl | hentry
    · exact hscopes scope hscope
    · exact h entry hentry scope hscope

variable {engine : OdrlEngine} {env : Environment} {policies : Store} {claims : ClaimSet}

theorem grantScopes_onlyAsked {query : List PartialPermission} {resource : String}
    {scopes : List String} {state state' : Nat × Dict (List String)}
    (hscopes : ∀ scope ∈ scopes, (resource, scope) ∈ asked query)
    (hstate : OnlyAsked query state.2)
    (h : grantScopes engine env policies claims resource scopes state = .ok state') :
    OnlyAsked query state'.2 := by
  induction scopes generalizing state with
  | nil =>
    injection h with h
    exact h ▸ hstate
  | cons scope scopes ih =>
    obtain ⟨n, granted⟩ := state
    obtain ⟨allow, -, h⟩ := Except.bind_eq_ok.mp h
    refine ih (fun s hs => hscopes s (List.mem_cons_of_mem _ hs)) ?_ h
    cases allow with
    | false => exact hstate
    | true =>
      refine hstate.assign (fun s hs => ?_)
      rcases List.mem_append.mp hs with hs | hs
      · cases hget : granted.get resource with
        | none => simp [hget] at hs
        | some before =>
          rw [hget, Option.getD_some] at hs
          exact hstate _ (Dict.mem_of_get hget) s hs
      · rw [List.mem_singleton.mp hs]
        exact hscopes scope List.mem_cons_self

theorem grantAll_onlyAsked {asking query : List PartialPermission}
    {state state' : Nat × Dict (List String)} (hquery : ∀ p ∈ query, p ∈ asking)
    (hstate : OnlyAsked asking state.2)
    (h : grantAll engine env policies claims query state = .ok state') :
    OnlyAsked asking state'.2 := by
  induction query generalizing state with
  | nil =>
    injection h with h
    exact h ▸ hstate
  | cons entry query ih =>
    obtain ⟨n, granted⟩ := state
    obtain ⟨resourceId, resourceScopes⟩ := entry
    cases resourceId with
    | none => cases h
    | some resource =>
      cases resourceScopes with
      | none => cases h
      | some scopes =>
        obtain ⟨next, hnext, h⟩ := Except.bind_eq_ok.mp h
        have hentry := hquery _ List.mem_cons_self
        refine ih (fun p hp => hquery p (List.mem_cons_of_mem _ hp)) ?_ h
        refine grantScopes_onlyAsked (fun scope hscope => ?_) ?_ hnext
        · exact ⟨_, hentry, rfl, scopes, rfl, hscope⟩
        · exact OnlyAsked.assign hstate (fun s hs => absurd hs List.not_mem_nil)

end OdrlAuthorizer

theorem odrlAuthorizer_noOverGrant {engine : OdrlEngine} {env : OdrlAuthorizer.Environment}
    {policies : Store} : NoOverGrant (odrlAuthorizer engine env policies) := by
  intro claims query granted _ h
  obtain ⟨⟨n, dict⟩, hdict, h⟩ := Except.bind_eq_ok.mp h
  injection h with h
  have honly : OdrlAuthorizer.OnlyAsked query dict :=
    OdrlAuthorizer.grantAll_onlyAsked (fun p hp => hp)
      (fun entry hentry => absurd hentry List.not_mem_nil) hdict
  rw [← h]
  rintro ⟨id, scope⟩ ⟨p, hp, rfl, hscope⟩
  obtain ⟨entry, hentry, rfl⟩ := List.mem_map.mp hp
  exact honly entry hentry scope hscope

/-! ## Delegation by namespace -/

namespace NamespacedAuthorizer

theorem mem_addToGroup {target : Target} {permission : PartialPermission}
    {groups : List (Target × List PartialPermission)}
    {group : Target × List PartialPermission}
    (h : group ∈ addToGroup target permission groups) {p : PartialPermission}
    (hp : p ∈ group.2) : p = permission ∨ ∃ g ∈ groups, p ∈ g.2 := by
  induction groups with
  | nil =>
    rw [List.mem_singleton.mp h] at hp
    exact Or.inl (List.mem_singleton.mp hp)
  | cons first groups ih =>
    obtain ⟨k, entries⟩ := first
    unfold addToGroup at h
    split at h
    · rcases List.mem_cons.mp h with rfl | h
      · rcases List.mem_append.mp hp with hp | hp
        · exact Or.inr ⟨_, List.mem_cons_self, hp⟩
        · exact Or.inl (List.mem_singleton.mp hp)
      · exact Or.inr ⟨group, List.mem_cons_of_mem _ h, hp⟩
    · rcases List.mem_cons.mp h with rfl | h
      · exact Or.inr ⟨_, List.mem_cons_self, hp⟩
      · exact (ih h).imp_right fun ⟨g, hg, hpg⟩ => ⟨g, List.mem_cons_of_mem _ hg, hpg⟩

/-- The groups only hold entries of the query. -/
theorem groupQuery_subset {settings : Settings} {query : List PartialPermission}
    {groups : List (Target × List PartialPermission)}
    (h : groupQuery settings query = .ok groups) :
    ∀ group ∈ groups, ∀ p ∈ group.2, p ∈ query := by
  refine foldlM_invariant (fun seen groups => ∀ group ∈ groups, ∀ p ∈ group.2, p ∈ seen)
    ?_ (fun group hgroup => absurd hgroup List.not_mem_nil) h
  intro seen groups permission groups' hseen hstep group hgroup p hp
  obtain ⟨target, -, hstep⟩ := Except.bind_eq_ok.mp hstep
  injection hstep with hstep
  rw [← hstep] at hgroup
  rcases mem_addToGroup hgroup hp with rfl | ⟨g, hg, hpg⟩
  · exact List.mem_append_right _ (List.mem_singleton_self _)
  · exact List.mem_append_left _ (hseen g hg p hpg)

theorem callee_ok {group : Target × List PartialPermission}
    {call : Nat × List PartialPermission} (h : callee group = .ok call) :
    group.1 = .authorizer call.1 ∧ group.2 = call.2 := by
  obtain ⟨target, entries⟩ := group
  cases target with
  | authorizer handle =>
    injection h with h
    rw [← h]
    exact ⟨rfl, rfl⟩
  | inherited property => cases h

end NamespacedAuthorizer

theorem namespacedAuthorizer_noOverGrant {settings : NamespacedAuthorizer.Settings}
    {delegate : Nat → Authorizer} (hdelegate : ∀ handle, NoOverGrant (delegate handle)) :
    NoOverGrant (namespacedAuthorizer settings delegate) := by
  intro claims query granted hfull h
  cases query with
  | nil => exact noneAuthorizer_noOverGrant claims [] granted hfull h
  | cons entry query =>
    obtain ⟨groups, hgroups, h⟩ := Except.bind_eq_ok.mp h
    obtain ⟨calls, hcalls, h⟩ := Except.bind_eq_ok.mp h
    obtain ⟨sets, hsets, h⟩ := Except.bind_eq_ok.mp h
    injection h with h
    rw [← h]
    have hsub := NamespacedAuthorizer.groupQuery_subset hgroups
    rintro ⟨id, scope⟩ ⟨p, hp, hid, hscope⟩
    obtain ⟨set, hset, hpset⟩ := List.mem_flatten.mp hp
    obtain ⟨⟨handle, entries⟩, hcall, hrun⟩ := mem_of_mapM_ok hsets set hset
    obtain ⟨group, hgroup, hcallee⟩ := mem_of_mapM_ok hcalls _ hcall
    have hentries : group.2 = entries := (NamespacedAuthorizer.callee_ok hcallee).2
    have hasked : ∀ q ∈ entries, q ∈ entry :: query := hentries ▸ hsub group hgroup
    have hin := hdelegate handle claims entries set
      (fun q hq => hfull q (hasked q hq)) hrun ⟨p, hpset, hid, hscope⟩
    exact asked_mono hasked hin

/-! ## The whole tree -/

theorem AuthorizerTree.noOverGrant (tree : AuthorizerTree) : NoOverGrant tree.permissions := by
  induction tree with
  | all => exact allAuthorizer_noOverGrant
  | none => exact noneAuthorizer_noOverGrant
  | webId webids => exact webIdAuthorizer_noOverGrant webids
  | simpleOdrl env policies authorizer ih => exact simpleOdrlAuthorizer_noOverGrant ih
  | odrl engine env policies => exact odrlAuthorizer_noOverGrant
  | namespaced settings objects ih => exact namespacedAuthorizer_noOverGrant ih

/-- What a tree grants on a list of permissions is among their pairs. -/
theorem AuthorizerTree.pairs_subset (tree : AuthorizerTree) {claims : ClaimSet}
    {permissions granted : List Permission}
    (h : tree.permissions claims (fullQuery permissions) = .ok granted) :
    pairs granted ⊆ pairs permissions := by
  have hsub := tree.noOverGrant claims _ granted (isFull_toPartial permissions) h
  rwa [asked_toPartial] at hsub

end UserManagedAccess.Policies
