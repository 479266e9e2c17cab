/-
UserManagedAccess.Ticketing.Strategy.ImmediateAuthorizerStrategyTheorems —
when resolution succeeds, and with what.

The bookkeeping of `resolveTicket` (a dictionary of scopes for each required
permission) decides inclusion of (resource id, scope) pairs:
`mem_unmatchedScopes` says so for one permission, `resolveTicket_success` for
the whole ticket. What follows about the strategy uses only the latter.
-/
import UserManagedAccess.Ticketing.Strategy.ImmediateAuthorizerStrategy

namespace UserManagedAccess.Ticketing

open UserManagedAccess.Lib UserManagedAccess.Util UserManagedAccess.Views
open UserManagedAccess.Credentials UserManagedAccess.Policies

namespace ImmediateAuthorizerStrategy

/-! ## The dictionary of matched scopes -/

theorem get_scopeMatch (required : Permission) (results : List Permission) (scope : String) :
    (scopeMatch required results).get scope =
      if (required.resourceId, scope) ∈ pairs results then some true
      else if scope ∈ required.resourceScopes then some false else none := by
  have hfold : ∀ (d : Dict Bool),
      (results.foldl
        (fun matched result =>
          if required.resourceId ≠ result.resourceId then matched
          else result.resourceScopes.foldl (fun matched scope => matched.set scope true)
            matched) d).get scope =
        if (required.resourceId, scope) ∈ pairs results then some true else d.get scope := by
    induction results with
    | nil => intro d; simp [pairs]
    | cons result results ih =>
      intro d
      have hcons : (required.resourceId, scope) ∈ pairs (result :: results) ↔
          (required.resourceId = result.resourceId ∧ scope ∈ result.resourceScopes) ∨
            (required.resourceId, scope) ∈ pairs results := by
        rw [pairs_cons, Set.mem_union, mem_pairs_singleton, eq_comm]
      rw [List.foldl_cons, ih]
      simp only [hcons]
      by_cases hmem : (required.resourceId, scope) ∈ pairs results
      · rw [if_pos hmem, if_pos (Or.inr hmem)]
      · rw [if_neg hmem]
        by_cases hid : required.resourceId = result.resourceId
        · rw [if_neg (not_not_intro hid), Dict.get_foldl_set]
          simp [hid, hid ▸ hmem]
        · rw [if_pos hid]
          simp [hid, hmem]
  rw [scopeMatch, hfold, Dict.get_fromEntries_const]

theorem mem_unmatchedScopes {required : Permission} {results : List Permission}
    {scope : String} :
    scope ∈ unmatchedScopes required results ↔
      scope ∈ required.resourceScopes ∧ (required.resourceId, scope) ∉ pairs results := by
  rw [unmatchedScopes, List.mem_filter, Dict.mem_keys_iff, get_scopeMatch]
  by_cases hpair : (required.resourceId, scope) ∈ pairs results
  · simp [hpair]
  · by_cases hscope : scope ∈ required.resourceScopes <;> simp [hpair, hscope]

theorem unmatchedPermissions_eq_nil {ticket : Ticket} {results : List Permission} :
    unmatchedPermissions ticket results = [] ↔
      pairs ticket.permissions ⊆ pairs results := by
  rw [unmatchedPermissions, List.filterMap_eq_nil_iff]
  constructor
  · rintro h ⟨id, scope⟩ ⟨required, hrequired, hid, hscope⟩
    have hnone := h required hrequired
    by_contra hpair
    have hmem : scope ∈ unmatchedScopes required results :=
      mem_unmatchedScopes.mpr ⟨hscope, hid ▸ hpair⟩
    have hpos : (unmatchedScopes required results).length > 0 :=
      List.length_pos_of_mem hmem
    simp [hpos] at hnone
  · intro h required hrequired
    have hnil : unmatchedScopes required results = [] := by
      rw [List.eq_nil_iff_forall_not_mem]
      intro scope hscope
      obtain ⟨hin, hout⟩ := mem_unmatchedScopes.mp hscope
      exact hout (h ⟨required, hrequired, rfl, hin⟩)
    simp [hnil]

/-! ## Resolution -/

/-- Dropping the entries without scopes drops no pair. -/
theorem pairs_filter_scopes (permissions : List Permission) :
    pairs (permissions.filter fun p => p.resourceScopes.length > 0) = pairs permissions := by
  ext ⟨id, scope⟩
  simp only [mem_pairs, List.mem_filter, decide_eq_true_eq]
  constructor
  · rintro ⟨p, ⟨hp, -⟩, hid, hscope⟩
    exact ⟨p, hp, hid, hscope⟩
  · rintro ⟨p, hp, hid, hscope⟩
    exact ⟨p, ⟨hp, List.length_pos_of_mem hscope⟩, hid, hscope⟩

theorem filter_scopes_ne_nil {permissions : List Permission} :
    (permissions.filter fun p => p.resourceScopes.length > 0) ≠ [] ↔
      (pairs permissions).Nonempty := by
  rw [← pairs_filter_scopes]
  constructor
  · intro h
    obtain ⟨p, hp⟩ := List.exists_mem_of_ne_nil _ h
    have hpos : 0 < p.resourceScopes.length := by simpa using (List.mem_filter.mp hp).2
    obtain ⟨scope, hscope⟩ := List.exists_mem_of_length_pos hpos
    exact ⟨(p.resourceId, scope), p, hp, rfl, hscope⟩
  · rintro ⟨x, p, hp, -⟩
    exact List.ne_nil_of_mem hp

/-- Resolution succeeds when the authorizer grants something and, unless
partial success is allowed, everything; the result is what it grants. -/
theorem resolveTicket_success {authorizer : Authorizer} {allowPartialSuccess : Bool}
    {ticket : Ticket} {permissions : List Permission} :
    resolveTicket authorizer allowPartialSuccess ticket = .ok (.success permissions) ↔
      ∃ granted, authorizer ticket.provided (fullQuery ticket.permissions) = .ok granted ∧
        permissions = granted.filter (fun p => p.resourceScopes.length > 0) ∧
        (pairs granted).Nonempty ∧
        (allowPartialSuccess = true ∨ pairs ticket.permissions ⊆ pairs granted) := by
  cases hauth : authorizer ticket.provided (fullQuery ticket.permissions) with
  | error e => simp [resolveTicket, calculatePermissions, hauth, bind, Except.bind]
  | ok granted =>
    have hcalc : calculatePermissions authorizer ticket =
        .ok (granted.filter fun p => p.resourceScopes.length > 0) := by
      rw [calculatePermissions, hauth]; rfl
    have hsub : unmatchedPermissions ticket
        (granted.filter fun p => p.resourceScopes.length > 0) = [] ↔
          pairs ticket.permissions ⊆ pairs granted := by
      rw [unmatchedPermissions_eq_nil, pairs_filter_scopes]
    simp only [Except.ok.injEq, exists_eq_left']
    rw [← filter_scopes_ne_nil, ← hsub]
    generalize hresults : granted.filter (fun p => decide (p.resourceScopes.length > 0)) =
      results at hcalc ⊢
    have hrun : resolveTicket authorizer allowPartialSuccess ticket =
        if results = [] then .ok (.failure [])
        else if allowPartialSuccess = true ∨ unmatchedPermissions ticket results = [] then
          .ok (.success results)
        else .ok (.failure ((unmatchedPermissions ticket results).map
          fun p => { resourceScopes := some p.resourceScopes })) := by
      unfold resolveTicket
      rw [hcalc]
      by_cases hnil : results = []
      · simp [hnil, bind, Except.bind, pure, Except.pure]
      · cases allowPartialSuccess with
        | true => simp [hnil, bind, Except.bind, pure, Except.pure]
        | false =>
          by_cases hun : unmatchedPermissions ticket results = [] <;>
            simp [hnil, hun, List.length_pos_iff, bind, Except.bind, pure, Except.pure]
    rw [hrun]
    by_cases hnil : results = []
    · simp [hnil]
    · rw [if_neg hnil]
      by_cases hall : allowPartialSuccess = true ∨ unmatchedPermissions ticket results = []
      · rw [if_pos hall]
        constructor
        · intro h
          injection h with h
          injection h with h
          exact ⟨h.symm, hnil, hall⟩
        · rintro ⟨rfl, -, -⟩
          rfl
      · rw [if_neg hall]
        constructor
        · intro h
          injection h with h
          cases h
        · rintro ⟨-, -, h⟩
          exact absurd h hall

end ImmediateAuthorizerStrategy

end UserManagedAccess.Ticketing
