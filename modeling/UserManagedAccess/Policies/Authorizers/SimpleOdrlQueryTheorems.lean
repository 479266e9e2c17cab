/-
UserManagedAccess.Policies.Authorizers.SimpleOdrlQueryTheorems — whole queries
to the simple ODRL authorizer.

* `mem_allowedScopes` — the scopes of one entry that are granted;
* `mem_grantedBySelf` — what is granted of a query are its granted pairs;
* `simpleOdrl_granted` — the other authorizer is asked for everything or for
  nothing;
* `simpleOdrl_all` — a query of granted pairs is granted as it was asked.
-/
import UserManagedAccess.Policies.Authorizers.AuthorizerTreeTheorems
import UserManagedAccess.Policies.Authorizers.SimpleOdrlAuthorizerTheorems

namespace UserManagedAccess.Policies

open UserManagedAccess.Lib UserManagedAccess.Rdf UserManagedAccess.Util
open UserManagedAccess.Views UserManagedAccess.Credentials

namespace SimpleOdrlAuthorizer

variable {env : Environment} {policies : Store} {claims : ClaimSet}

theorem mem_allowedScopes {resource : String} {scopes result : List String}
    (h : allowedScopes env policies claims resource scopes = .ok (some result)) (scope : String) :
    scope ∈ result ↔ scope ∈ scopes ∧ Granted env policies claims resource scope := by
  induction scopes generalizing result with
  | nil =>
    cases h
    simp
  | cons first scopes ih =>
    obtain ⟨answer, hanswer, h⟩ := Except.bind_eq_ok.mp h
    cases answer with
    | none => cases h
    | some answer =>
      obtain ⟨rest, hrest, h⟩ := Except.bind_eq_ok.mp h
      cases rest with
      | none => cases h
      | some rest =>
        cases h
        rw [List.mem_append, ih hrest, List.mem_cons]
        rcases (getPermissions_answer hanswer).2 with ⟨rfl, hgranted⟩ | ⟨rfl, hnot⟩
        · constructor
          · rintro (hfirst | ⟨hmem, hscope⟩)
            · rw [List.mem_singleton.mp hfirst]
              exact ⟨.inl rfl, hgranted⟩
            · exact ⟨.inr hmem, hscope⟩
          · rintro ⟨rfl | hmem, hscope⟩
            · exact .inl (List.mem_singleton.mpr rfl)
            · exact .inr ⟨hmem, hscope⟩
        · constructor
          · rintro (hfirst | ⟨hmem, hscope⟩)
            · exact absurd hfirst List.not_mem_nil
            · exact ⟨.inr hmem, hscope⟩
          · rintro ⟨rfl | hmem, hscope⟩
            · exact absurd hscope hnot
            · exact .inr ⟨hmem, hscope⟩

theorem mem_asked_cons {resource : String} {scopes : List String}
    {query : List PartialPermission} {id scope : String} :
    (id, scope) ∈ asked (⟨some resource, some scopes⟩ :: query) ↔
      (id = resource ∧ scope ∈ scopes) ∨ (id, scope) ∈ asked query := by
  constructor
  · rintro ⟨p, hp, hid, scopes', hscopes, hscope⟩
    rcases List.mem_cons.mp hp with rfl | hp
    · cases hid
      cases hscopes
      exact .inl ⟨rfl, hscope⟩
    · exact .inr ⟨p, hp, hid, scopes', hscopes, hscope⟩
  · rintro (⟨rfl, hscope⟩ | ⟨p, hp, hid, scopes', hscopes, hscope⟩)
    · exact ⟨_, List.mem_cons_self, rfl, scopes, rfl, hscope⟩
    · exact ⟨p, List.mem_cons_of_mem _ hp, hid, scopes', hscopes, hscope⟩

/-- The pairs that are granted are those of the query that the policies grant. -/
theorem mem_grantedBySelf {query : List PartialPermission} {granted : List Permission}
    (h : grantedBySelf env policies claims query = .ok (some granted)) (id scope : String) :
    (id, scope) ∈ pairs granted ↔
      (id, scope) ∈ asked query ∧ Granted env policies claims id scope := by
  induction query generalizing granted with
  | nil =>
    cases h
    simp [pairs, asked]
  | cons entry query ih =>
    obtain ⟨resource, scopes⟩ := entry
    cases resource with
    | none => cases h
    | some resource =>
      cases scopes with
      | none => cases h
      | some scopes =>
        obtain ⟨allowed, hallowed, h⟩ := Except.bind_eq_ok.mp h
        cases allowed with
        | none => cases h
        | some allowed =>
          obtain ⟨rest, hrest, h⟩ := Except.bind_eq_ok.mp h
          have hscopes := mem_allowedScopes hallowed scope
          -- an entry without allowed scopes has no pairs, so it may be left out
          have hpairs : rest = none ∨ ∃ others, rest = some others ∧
              ((id, scope) ∈ pairs granted ↔
                (id = resource ∧ scope ∈ allowed) ∨ (id, scope) ∈ pairs others) := by
            split at h
            · cases rest with
              | none => exact .inl rfl
              | some others =>
                cases h
                refine .inr ⟨others, rfl, ?_⟩
                rw [pairs_cons, Set.mem_union, mem_pairs_singleton]
                exact or_congr_left (and_congr_left fun _ => eq_comm)
            · rename_i hempty
              cases h
              refine .inr ⟨granted, rfl, ?_⟩
              rw [List.length_eq_zero_iff.mp (Nat.eq_zero_of_not_pos hempty)]
              simp
          rcases hpairs with rfl | ⟨others, rfl, hpairs⟩
          · split at h <;> cases h
          · rw [hpairs, ih hrest, mem_asked_cons, hscopes]
            constructor
            · rintro (⟨rfl, hscope, hgranted⟩ | ⟨hasked, hgranted⟩)
              · exact ⟨.inl ⟨rfl, hscope⟩, hgranted⟩
              · exact ⟨.inr hasked, hgranted⟩
            · rintro ⟨⟨rfl, hscope⟩ | hasked, hgranted⟩
              · exact .inl ⟨rfl, hscope, hgranted⟩
              · exact .inr ⟨hasked, hgranted⟩

theorem allowedScopes_all {resource : String} {scopes : List String}
    (h : ∀ scope ∈ scopes, getPermissions env policies claims resource scope = .ok (some [scope])) :
    allowedScopes env policies claims resource scopes = .ok (some scopes) := by
  induction scopes with
  | nil => rfl
  | cons scope scopes ih =>
    refine Except.bind_eq_ok.mpr ⟨_, h scope List.mem_cons_self, ?_⟩
    exact Except.bind_eq_ok.mpr ⟨_, ih fun other hother => h other (List.mem_cons_of_mem _ hother),
      rfl⟩

theorem grantedBySelf_all {permissions : List Permission}
    (hscopes : ∀ permission ∈ permissions, permission.resourceScopes ≠ [])
    (h : ∀ id scope, (id, scope) ∈ pairs permissions →
      getPermissions env policies claims id scope = .ok (some [scope])) :
    grantedBySelf env policies claims (permissions.map Permission.toPartial) =
      .ok (some permissions) := by
  induction permissions with
  | nil => rfl
  | cons permission permissions ih =>
    have hallowed := allowedScopes_all fun scope hscope =>
      h permission.resourceId scope ⟨permission, List.mem_cons_self, rfl, hscope⟩
    have hrest := ih (fun other hother => hscopes other (List.mem_cons_of_mem _ hother))
      fun id scope hpair => h id scope (by
        rw [pairs_cons]
        exact .inr hpair)
    have hlength : permission.resourceScopes.length > 0 :=
      List.length_pos_of_ne_nil (hscopes permission List.mem_cons_self)
    refine Except.bind_eq_ok.mpr ⟨_, hallowed, Except.bind_eq_ok.mpr ⟨_, hrest, ?_⟩⟩
    rw [if_pos hlength]
    rfl

end SimpleOdrlAuthorizer

/-- What is granted for a ticket is asked for and granted by the policies, or
all of it is what the other authorizer grants. -/
theorem simpleOdrl_granted {env : SimpleOdrlAuthorizer.Environment} {policies : Store}
    {authorizer : Authorizer} {claims : ClaimSet} {permissions granted : List Permission}
    (h : simpleOdrlAuthorizer env policies authorizer claims (fullQuery permissions) =
      .ok granted) :
    (∀ id scope, (id, scope) ∈ pairs granted ↔ (id, scope) ∈ pairs permissions ∧
        SimpleOdrlAuthorizer.Granted env policies claims id scope) ∨
      authorizer claims (fullQuery permissions) = .ok granted := by
  obtain ⟨self, hself, h⟩ := Except.bind_eq_ok.mp h
  cases self with
  | none => exact .inr h
  | some self =>
    cases h
    refine .inl fun id scope => ?_
    rw [SimpleOdrlAuthorizer.mem_grantedBySelf hself, asked_toPartial]

theorem simpleOdrl_all {env : SimpleOdrlAuthorizer.Environment} {policies : Store}
    {authorizer : Authorizer} {claims : ClaimSet} {permissions : List Permission}
    (hscopes : ∀ permission ∈ permissions, permission.resourceScopes ≠ [])
    (h : ∀ id scope, (id, scope) ∈ pairs permissions →
      SimpleOdrlAuthorizer.getPermissions env policies claims id scope = .ok (some [scope])) :
    simpleOdrlAuthorizer env policies authorizer claims (fullQuery permissions) =
      .ok permissions :=
  Except.bind_eq_ok.mpr ⟨_, SimpleOdrlAuthorizer.grantedBySelf_all hscopes h, rfl⟩

end UserManagedAccess.Policies
