/-
UserManagedAccess.Policies.Authorizers.OdrlAuthorizerTheorems — what the
result of the full ODRL authorizer says about a query.

Every scope of every entry is a request of its own, and the evaluator may
answer each of them differently: `EntryAllows` is about the requests of one
entry. The result is an object with the resources as keys, which each entry
starts anew.

* `grantAll_scopes` — a resource has what its last entry was allowed;
* `permissions_exact` — when that is what the whole query was allowed.
-/
import UserManagedAccess.Policies.Authorizers.OdrlAuthorizer
import UserManagedAccess.Lib.Except

namespace UserManagedAccess.Policies

open UserManagedAccess.Lib UserManagedAccess.Rdf UserManagedAccess.Util
open UserManagedAccess.Views UserManagedAccess.Credentials

namespace OdrlAuthorizer

variable {engine : OdrlEngine} {env : Environment} {policies : Store} {claims : ClaimSet}

/-! ## The requests of a query -/

/-- The entries of a query, each with the number of its first request. -/
def numbered : Nat → List Permission → List (Nat × Permission)
  | _, [] => []
  | n, permission :: query =>
    (n, permission) :: numbered (n + permission.resourceScopes.length) query

/-- The entry requests the scope, and the strategy allows that request. -/
def EntryAllows (engine : OdrlEngine) (env : Environment) (policies : Store) (claims : ClaimSet)
    (entry : Nat × Permission) (scope : String) : Prop :=
  ∃ i, entry.2.resourceScopes[i]? = some scope ∧
    allowed engine env policies claims (entry.1 + i) entry.2.resourceId scope = .ok true

/-- The pairs for which some request of the query is allowed. -/
def allowedPairs (engine : OdrlEngine) (env : Environment) (policies : Store) (claims : ClaimSet)
    (query : List Permission) : Set (String × String) :=
  {x | ∃ entry ∈ numbered 0 query, entry.2.resourceId = x.1 ∧
    EntryAllows engine env policies claims entry x.2}

/-- The last entry for a resource. -/
def lastEntry (n : Nat) (query : List Permission) (resource : String) :
    Option (Nat × Permission) :=
  (numbered n query).reverse.find? fun entry => entry.2.resourceId = resource

theorem lastEntry_cons (n : Nat) (permission : Permission) (query : List Permission)
    (resource : String) :
    lastEntry n (permission :: query) resource =
      (lastEntry (n + permission.resourceScopes.length) query resource).or
        (if permission.resourceId = resource then some (n, permission) else none) := by
  by_cases h : permission.resourceId = resource <;>
    simp [lastEntry, numbered, List.find?_append, h]

theorem lastEntry_some {n : Nat} {query : List Permission} {resource : String}
    {entry : Nat × Permission} (h : lastEntry n query resource = some entry) :
    entry ∈ numbered n query ∧ entry.2.resourceId = resource := by
  have hid := List.find?_some h
  exact ⟨List.mem_reverse.mp (List.mem_of_find?_eq_some h), of_decide_eq_true hid⟩

/-! ## The loops -/

/-- The scopes a resource has so far. -/
def scopesOf (granted : Dict (List String)) (resource : String) : List String :=
  (granted.get resource).getD []

theorem scopesOf_assign (granted : Dict (List String)) (resource other : String)
    (scopes : List String) :
    scopesOf (assign granted resource scopes) other =
      if other = resource ∧ resource ≠ "__proto__" then scopes else scopesOf granted other := by
  unfold scopesOf assign
  by_cases hproto : resource = "__proto__"
  · simp [hproto]
  · by_cases hother : other = resource <;> simp [hproto, hother, Dict.get_set]

theorem nodup_assign {granted : Dict (List String)} (h : granted.keys.Nodup) (resource : String)
    (scopes : List String) : (assign granted resource scopes).keys.Nodup := by
  unfold assign
  split
  · exact h
  · exact Dict.nodup_keys_set h resource scopes

/-- The loop over the scopes of one entry. -/
structure EntryGranted (engine : OdrlEngine) (env : Environment) (policies : Store)
    (claims : ClaimSet) (entry : Nat × Permission) (granted : Dict (List String))
    (state : Nat × Dict (List String)) : Prop where
  number : state.1 = entry.1 + entry.2.resourceScopes.length
  nodup : granted.keys.Nodup → state.2.keys.Nodup
  other : ∀ resource, resource ≠ entry.2.resourceId →
    scopesOf state.2 resource = scopesOf granted resource
  proto : entry.2.resourceId = "__proto__" →
    scopesOf state.2 entry.2.resourceId = scopesOf granted entry.2.resourceId
  scopes : entry.2.resourceId ≠ "__proto__" → ∀ scope,
    scope ∈ scopesOf state.2 entry.2.resourceId ↔
      scope ∈ scopesOf granted entry.2.resourceId ∨
        EntryAllows engine env policies claims entry scope

theorem entryAllows_cons {n : Nat} {resource scope other : String} {scopes : List String} :
    EntryAllows engine env policies claims (n, ⟨resource, scope :: scopes⟩) other ↔
      (other = scope ∧ allowed engine env policies claims n resource scope = .ok true) ∨
        EntryAllows engine env policies claims (n + 1, ⟨resource, scopes⟩) other := by
  unfold EntryAllows
  constructor
  · intro ⟨i, hscope, hallowed⟩
    cases i with
    | zero =>
      injection hscope with hscope
      exact Or.inl ⟨hscope.symm, hscope ▸ hallowed⟩
    | succ i =>
      refine Or.inr ⟨i, hscope, ?_⟩
      rw [Nat.add_assoc, Nat.add_comm 1 i]
      exact hallowed
  · intro h
    rcases h with ⟨rfl, hallowed⟩ | ⟨i, hscope, hallowed⟩
    · exact ⟨0, rfl, hallowed⟩
    · refine ⟨i + 1, hscope, ?_⟩
      rw [Nat.add_comm i 1, ← Nat.add_assoc]
      exact hallowed

theorem grantScopes_granted {n : Nat} {resource : String} {scopes : List String}
    {granted : Dict (List String)} {state : Nat × Dict (List String)}
    (h : grantScopes engine env policies claims resource scopes (n, granted) = .ok state) :
    EntryGranted engine env policies claims (n, ⟨resource, scopes⟩) granted state := by
  induction scopes generalizing n granted with
  | nil =>
    injection h with h
    subst h
    have hnone : ∀ scope, ¬ EntryAllows engine env policies claims (n, ⟨resource, []⟩) scope :=
      fun scope ⟨i, hi, _⟩ => nomatch hi
    exact ⟨rfl, fun h => h, fun _ _ => rfl, fun _ => rfl, fun _ scope => by simp [hnone]⟩
  | cons scope scopes ih =>
    obtain ⟨allow, hallow, hrest⟩ := Except.bind_eq_ok.mp h
    have hgranted := ih hrest
    have hnumber : n + 1 + scopes.length = n + (scopes.length + 1) := by omega
    cases allow with
    | false =>
      refine ⟨hgranted.number.trans hnumber, hgranted.nodup, hgranted.other, hgranted.proto,
        fun hproto other => ?_⟩
      rw [hgranted.scopes hproto, entryAllows_cons, hallow]
      simp
    | true =>
      have hassign := scopesOf_assign granted resource
      constructor
      · exact hgranted.number.trans hnumber
      · exact fun hnodup => hgranted.nodup (nodup_assign hnodup _ _)
      · intro other hother
        rw [hgranted.other other hother, if_pos rfl, hassign, if_neg fun h => hother h.1]
      · intro hproto
        rw [hgranted.proto hproto, if_pos rfl, hassign, if_neg fun h => h.2 hproto]
      · intro hproto other
        rw [hgranted.scopes hproto, if_pos rfl, hassign, if_pos ⟨rfl, hproto⟩, entryAllows_cons,
          hallow]
        simp [scopesOf, or_assoc]

/-- After the query a resource has what its last entry was allowed. -/
theorem grantAll_scopes {n : Nat} {query : List Permission} {granted : Dict (List String)}
    {state : Nat × Dict (List String)}
    (h : grantAll engine env policies claims (query.map Permission.toPartial) (n, granted) =
      .ok state) :
    (granted.keys.Nodup → state.2.keys.Nodup) ∧ ∀ resource scope,
      scope ∈ scopesOf state.2 resource ↔
        if resource = "__proto__" then scope ∈ scopesOf granted resource
        else
          (∃ entry, lastEntry n query resource = some entry ∧
            EntryAllows engine env policies claims entry scope) ∨
          lastEntry n query resource = none ∧ scope ∈ scopesOf granted resource := by
  induction query generalizing n granted with
  | nil =>
    injection h with h
    subst h
    exact ⟨fun h => h, fun resource scope => by simp [lastEntry, numbered]⟩
  | cons permission query ih =>
    obtain ⟨next, hnext, hrest⟩ := Except.bind_eq_ok.mp h
    have hentry := grantScopes_granted hnext
    obtain ⟨m, after⟩ := next
    obtain ⟨hnodup, hscopes⟩ := ih hrest
    have hm : m = n + permission.resourceScopes.length := hentry.number
    subst hm
    refine ⟨fun h => hnodup (hentry.nodup (nodup_assign h _ _)), fun resource scope => ?_⟩
    rw [hscopes, lastEntry_cons]
    have hassign := scopesOf_assign granted permission.resourceId resource []
    by_cases hproto : resource = "__proto__"
    · rw [if_pos hproto, if_pos hproto]
      by_cases hid : resource = permission.resourceId
      · subst hid
        rw [hentry.proto hproto, hassign, if_neg fun h => h.2 hproto]
      · rw [hentry.other resource hid, hassign, if_neg fun h => hid h.1]
    · rw [if_neg hproto, if_neg hproto]
      cases hlast : lastEntry (n + permission.resourceScopes.length) query resource with
      | some entry => simp
      | none =>
        by_cases hid : permission.resourceId = resource
        · subst hid
          have hown := hentry.scopes hproto scope
          rw [hassign, if_pos ⟨rfl, hproto⟩] at hown
          simpa using hown
        · have hother := hentry.other resource (Ne.symm hid)
          rw [hassign, if_neg fun h => hid h.1.symm] at hother
          simp [hid, hother]

/-! ## The result -/

/-- What some entry is allowed, the last entry for its resource is allowed as
well, and the resource can be a key. -/
def LastRepeats (engine : OdrlEngine) (env : Environment) (policies : Store) (claims : ClaimSet)
    (query : List Permission) : Prop :=
  ∀ entry ∈ numbered 0 query, ∀ scope,
    EntryAllows engine env policies claims entry scope →
      entry.2.resourceId ≠ "__proto__" ∧
        ∃ last, lastEntry 0 query entry.2.resourceId = some last ∧
          EntryAllows engine env policies claims last scope

/-- The pairs granted are those allowed for the last entry of a resource. -/
theorem mem_pairs_permissions {query : List Permission} {granted : List Permission}
    (h : odrlAuthorizer engine env policies claims (fullQuery query) = .ok granted)
    {resource scope : String} :
    (resource, scope) ∈ pairs granted ↔
      resource ≠ "__proto__" ∧ ∃ entry, lastEntry 0 query resource = some entry ∧
        EntryAllows engine env policies claims entry scope := by
  obtain ⟨state, hstate, h⟩ := Except.bind_eq_ok.mp h
  obtain ⟨hnodup, hscopes⟩ := grantAll_scopes hstate
  have hnodup := hnodup List.nodup_nil
  injection h with h
  have hpairs : (resource, scope) ∈ pairs granted ↔ scope ∈ scopesOf state.2 resource := by
    subst h
    rw [mem_pairs]
    constructor
    · rintro ⟨p, hp, rfl, hscope⟩
      obtain ⟨⟨key, scopes⟩, hentry, rfl⟩ := List.mem_map.mp hp
      rw [scopesOf, Dict.get_of_mem hnodup hentry]
      exact hscope
    · intro hscope
      cases hget : state.2.get resource with
      | none =>
        rw [scopesOf, hget] at hscope
        cases hscope
      | some scopes =>
        rw [scopesOf, hget] at hscope
        exact ⟨_, List.mem_map_of_mem (Dict.mem_of_get hget), rfl, hscope⟩
  rw [hpairs, hscopes]
  by_cases hproto : resource = "__proto__" <;> simp [hproto, scopesOf]

/-- The whole query is answered where a later entry for a resource repeats what
the earlier ones were allowed. -/
theorem permissions_exact {query : List Permission} {granted : List Permission}
    (h : odrlAuthorizer engine env policies claims (fullQuery query) = .ok granted) :
    (∀ resource scope, (resource, scope) ∈ pairs granted ↔
        (resource, scope) ∈ allowedPairs engine env policies claims query) ↔
      LastRepeats engine env policies claims query := by
  constructor
  · intro hexact entry hentry scope hallows
    have hmem := (hexact entry.2.resourceId scope).mpr ⟨entry, hentry, rfl, hallows⟩
    exact (mem_pairs_permissions h).mp hmem
  · intro hrepeats resource scope
    rw [mem_pairs_permissions h]
    constructor
    · rintro ⟨-, entry, hlast, hallows⟩
      obtain ⟨hmem, hid⟩ := lastEntry_some hlast
      exact ⟨entry, hmem, hid, hallows⟩
    · rintro ⟨entry, hmem, rfl, hallows⟩
      exact hrepeats entry hmem scope hallows

/-! ## An engine that permits everything -/

/-- One active report on the permission of every request it is given. -/
def permissiveEngine : OdrlEngine where
  evaluate _ request _ := .ok ((request.filter fun q => q.object = ODRL.Request).flatMap fun q =>
    [quad (.blankNode "report") RDF.type (.namedNode "urn:PolicyReport"),
      quad (.blankNode "report") (.namedNode "urn:policyRequest") q.subject])
  parseComplianceReport node reports :=
    match reports.getObjects node (some (.namedNode "urn:policyRequest")) none with
    | request :: _ => .ok (request, reports.quads)
    | [] => .error (.error "No request found")
  resolve reports := .ok (.blankNode "result",
    [quad (.blankNode "result") (.namedNode "urn:conclusion")
      (.namedNode (if reports.isEmpty then "urn:Deny" else "urn:Allow"))])
  policyReport := .namedNode "urn:PolicyReport"
  conclusion := .namedNode "urn:conclusion"
  allow := "urn:Allow"

def plainEnvironment : Environment where
  now := 0
  toISOString _ := "1970-01-01T00:00:00.000Z"
  randomUUID n := String.ofList (List.replicate n 'u')
  blankNode n := String.ofList (List.replicate n 'b')

theorem permissions_exact_once :
    (∀ resource scope,
        (resource, scope) ∈ pairs [⟨"urn:a", ["urn:read"]⟩, ⟨"urn:b", ["urn:write"]⟩] ↔
          (resource, scope) ∈ allowedPairs permissiveEngine plainEnvironment Store.empty Dict.empty
            [⟨"urn:a", ["urn:read"]⟩, ⟨"urn:b", ["urn:write"]⟩]) ↔
      LastRepeats permissiveEngine plainEnvironment Store.empty Dict.empty
        [⟨"urn:a", ["urn:read"]⟩, ⟨"urn:b", ["urn:write"]⟩] :=
  permissions_exact (by decide +kernel)

/-- The second entry for a resource starts it anew. -/
theorem permissions_repeated :
    ¬ ∀ engine env policies claims query granted,
      odrlAuthorizer engine env policies claims (fullQuery query) = .ok granted →
        ∀ resource scope, (resource, scope) ∈ pairs granted ↔
          (resource, scope) ∈ allowedPairs engine env policies claims query := by
  intro hclaim
  have hgranted : odrlAuthorizer permissiveEngine plainEnvironment Store.empty Dict.empty
      (fullQuery [⟨"urn:a", ["urn:read"]⟩, ⟨"urn:a", ["urn:write"]⟩]) =
        .ok [⟨"urn:a", ["urn:write"]⟩] := by decide +kernel
  have hallows : EntryAllows permissiveEngine plainEnvironment Store.empty Dict.empty
      (0, ⟨"urn:a", ["urn:read"]⟩) "urn:read" := ⟨0, rfl, by decide +kernel⟩
  have hmem := (hclaim _ _ _ _ _ _ hgranted "urn:a" "urn:read").mpr
    ⟨_, List.mem_cons_self, rfl, hallows⟩
  obtain ⟨hid, hscope⟩ := mem_pairs_singleton.mp hmem
  revert hscope
  decide

end OdrlAuthorizer

end UserManagedAccess.Policies
