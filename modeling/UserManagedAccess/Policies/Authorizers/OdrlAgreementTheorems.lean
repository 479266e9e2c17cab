/-
UserManagedAccess.Policies.Authorizers.OdrlAgreementTheorems — the simple ODRL
authorizer against the full one.

Where the simple authorizer answers itself, it grants by the verdict over the
rules it takes for valid (`ValidFor`). The full authorizer, with a standard
engine, grants by the verdict over the active rules (`ActiveFor`), to the last
entry of a resource. The rules on which the two readings differ are the
overrated and the overlooked ones.

* `mem_pairs_grantedBySelf` — what the simple authorizer grants;
* `mem_pairs_standard` — what the full one grants;
* `fastPath_agrees_iff` — they grant the same exactly when no overrated or
  overlooked rule tips a verdict, and no entry that grants something is
  overwritten.

## What is taken for granted

The engine is standard, it reads the current time as the clock has it, the two
authorizers run at one time, and fresh blank nodes differ.
-/
import UserManagedAccess.Policies.Authorizers.OdrlAuthorizerTheorems
import UserManagedAccess.Policies.Authorizers.ProhibitionTheorems
import UserManagedAccess.Policies.Authorizers.RuleDifferences

namespace UserManagedAccess.Policies

open UserManagedAccess.Lib UserManagedAccess.Rdf UserManagedAccess.Util
open UserManagedAccess.Views UserManagedAccess.Credentials

/-! ## The simple authorizer -/

namespace SimpleOdrlAuthorizer

variable {env : Environment} {policies : Store} {claims : ClaimSet} {resource scope : String}

/-- The verdict over the rules found valid. -/
def Grants (env : Environment) (policies : Store) (claims : ClaimSet)
    (resource scope : String) : Prop :=
  Verdict (Permitted policies) (Prohibited policies) (ValidFor env policies claims resource scope)

/-- A scope is only let through by rules linked as permissions. -/
theorem judge_permitted {rules result : List _} (h : judge policies scope rules = some result)
    (hresult : result ≠ []) : ∀ rule ∈ rules, Permitted policies rule := by
  induction rules with
  | nil => exact fun rule hrule => absurd hrule List.not_mem_nil
  | cons rule rules ih =>
    rw [judge_cons] at h
    split at h
    · cases h
    split at h
    · injection h with h
      exact absurd h.symm hresult
    split at h
    · cases h
    rename_i hpermission
    have hmem : ODRL.permission ∈ policies.getPredicates none rule none := by
      simpa using hpermission
    exact List.forall_mem_cons.mpr ⟨mem_getPredicates_object.mp hmem, ih h⟩

/-- When the simple authorizer answers, it answers by the verdict. -/
theorem getPermissions_grants {result : List String}
    (h : getPermissions env policies claims resource scope = .ok (some result)) (other : String) :
    other ∈ result ↔ other = scope ∧ Grants env policies claims resource scope := by
  have hanswer := (getPermissions_answer h).2
  rw [getPermissions_eq] at h
  rcases hanswer with ⟨rfl, hgranted⟩ | ⟨rfl, hrefused⟩
  · rw [List.mem_singleton]
    refine (and_iff_left ?_).symm
    obtain ⟨⟨rule, hcandidate, hvalid⟩, hnone⟩ := hgranted
    refine ⟨⟨rule, ?_, hcandidate, hvalid⟩, fun f hf ⟨hcand, hv⟩ => hnone f hcand hv hf⟩
    rcases hrules : validRules env policies claims (candidateRules policies claims resource scope)
      with e | _ | valid
    · rw [hrules] at h
      cases h
    · rw [hrules] at h
      cases h
    have hmem : rule ∈ valid := by
      rw [(validRules_eq_some.mp hrules).2, List.mem_filter, isValid_iff]
      exact ⟨hcandidate, hvalid⟩
    rw [hrules] at h
    cases valid with
    | nil => exact absurd hmem List.not_mem_nil
    | cons first valid =>
      injection h with h
      exact judge_permitted h (List.cons_ne_nil _ _) rule hmem
  · refine iff_of_false List.not_mem_nil ?_
    rintro ⟨-, ⟨rule, -, hcandidate, hvalid⟩, hnone⟩
    exact hrefused ⟨⟨rule, hcandidate, hvalid⟩, fun f hcand hv hf => hnone f hf ⟨hcand, hv⟩⟩

theorem allowedScopes_grants {scopes allowed : List String}
    (h : allowedScopes env policies claims resource scopes = .ok (some allowed)) (other : String) :
    other ∈ allowed ↔ other ∈ scopes ∧ Grants env policies claims resource other := by
  induction scopes generalizing allowed with
  | nil =>
    injection h with h
    injection h with h
    simp [← h]
  | cons scope scopes ih =>
    obtain ⟨answer, hanswer, h⟩ := Except.bind_eq_ok.mp h
    cases answer with
    | none => cases h
    | some result =>
      obtain ⟨rest, hrest, h⟩ := Except.bind_eq_ok.mp h
      cases rest with
      | none => cases h
      | some rest =>
        injection h with h
        injection h with h
        rw [← h, List.mem_append, getPermissions_grants hanswer, ih hrest, List.mem_cons,
          or_and_right]
        refine or_congr_left (and_congr_right fun heq => ?_)
        rw [heq]

/-- What the simple authorizer grants when it answers itself. -/
theorem mem_pairs_grantedBySelf {query granted : List Permission}
    (h : grantedBySelf env policies claims (query.map Permission.toPartial) = .ok (some granted)) :
    (resource, scope) ∈ pairs granted ↔
      (resource, scope) ∈ pairs query ∧ Grants env policies claims resource scope := by
  induction query generalizing granted with
  | nil =>
    injection h with h
    injection h with h
    subst h
    simp [mem_pairs]
  | cons permission query ih =>
    obtain ⟨answer, hanswer, h⟩ := Except.bind_eq_ok.mp h
    cases answer with
    | none => cases h
    | some allowed =>
      obtain ⟨rest, hrest, h⟩ := Except.bind_eq_ok.mp h
      cases rest with
      | none => split at h <;> cases h
      | some rest =>
        have hallowed := allowedScopes_grants hanswer
        have hgranted : (resource, scope) ∈ pairs granted ↔
            (permission.resourceId = resource ∧ scope ∈ allowed) ∨
              (resource, scope) ∈ pairs rest := by
          split at h
          · injection h with h
            injection h with h
            rw [← h, pairs_cons, Set.mem_union, mem_pairs_singleton]
          · rename_i hempty
            injection h with h
            injection h with h
            have hnil : allowed = [] := List.length_eq_zero_iff.mp (by omega)
            simp [← h, hnil]
        rw [hgranted, ih hrest, pairs_cons, Set.mem_union, mem_pairs_singleton, hallowed,
          or_and_right, and_assoc]
        refine or_congr_left (and_congr_right fun hid => ?_)
        rw [hid]

end SimpleOdrlAuthorizer

/-! ## The full authorizer -/

namespace OdrlAuthorizer

open SimpleOdrlAuthorizer (Permitted Prohibited)

variable {engine : OdrlEngine} {reading : OdrlReading} {env : Environment} {policies : Store}
  {claims : ClaimSet} {resource scope : String}

/-- Every request of the authorizer is answered. -/
def Answers (engine : OdrlEngine) (env : Environment) (policies : Store) (claims : ClaimSet) :
    Prop :=
  ∀ n resource scope, ∃ allow, allowed engine env policies claims n resource scope = .ok allow

theorem grantScopes_isOk (h : Answers engine env policies claims) (resource : String)
    (scopes : List String) (state : Nat × Dict (List String)) :
    ∃ after, grantScopes engine env policies claims resource scopes state = .ok after := by
  induction scopes generalizing state with
  | nil => exact ⟨state, rfl⟩
  | cons scope scopes ih =>
    obtain ⟨n, granted⟩ := state
    obtain ⟨allow, hallow⟩ := h n resource scope
    obtain ⟨after, hafter⟩ := ih (n + 1,
      if allow then assign granted resource ((granted.get resource).getD [] ++ [scope])
      else granted)
    exact ⟨after, Except.bind_eq_ok.mpr ⟨allow, hallow, hafter⟩⟩

theorem grantAll_isOk (h : Answers engine env policies claims) (query : List Permission)
    (state : Nat × Dict (List String)) :
    ∃ after, grantAll engine env policies claims (query.map Permission.toPartial) state =
      .ok after := by
  induction query generalizing state with
  | nil => exact ⟨state, rfl⟩
  | cons permission query ih =>
    obtain ⟨n, granted⟩ := state
    obtain ⟨next, hnext⟩ := grantScopes_isOk h permission.resourceId permission.resourceScopes
      (n, assign granted permission.resourceId [])
    obtain ⟨after, hafter⟩ := ih next
    exact ⟨after, Except.bind_eq_ok.mpr ⟨next, hnext, hafter⟩⟩

theorem odrlAuthorizer_isOk (h : Answers engine env policies claims) (query : List Permission) :
    ∃ granted, odrlAuthorizer engine env policies claims (fullQuery query) = .ok granted := by
  obtain ⟨after, hafter⟩ := grantAll_isOk h query (0, Dict.empty)
  exact ⟨_, Except.bind_eq_ok.mpr ⟨after, hafter, rfl⟩⟩

/-- The scope is in the entry whose answers stay: the last one for a resource
that can be a key. -/
def RequestedLast (query : List Permission) (resource scope : String) : Prop :=
  resource ≠ "__proto__" ∧
    ∃ entry, lastEntry 0 query resource = some entry ∧ scope ∈ entry.2.resourceScopes

theorem mem_numbered {n : Nat} {query : List Permission} {entry : Nat × Permission}
    (h : entry ∈ numbered n query) : entry.2 ∈ query := by
  induction query generalizing n with
  | nil => cases h
  | cons permission query ih =>
    rcases List.mem_cons.mp h with rfl | hrest
    · exact List.mem_cons_self
    · exact List.mem_cons_of_mem _ (ih hrest)

theorem RequestedLast.mem_pairs {query : List Permission}
    (h : RequestedLast query resource scope) : (resource, scope) ∈ pairs query := by
  obtain ⟨-, entry, hlast, hscope⟩ := h
  obtain ⟨hentry, hid⟩ := lastEntry_some hlast
  exact ⟨entry.2, mem_numbered hentry, hid, hscope⟩

/-- The verdict over the active rules. -/
def Allows (reading : OdrlReading) (now : Int) (policies : Store) (claims : ClaimSet)
    (resource scope : String) : Prop :=
  Verdict (Permitted policies) (Prohibited policies)
    (ActiveFor reading now policies claims resource scope)

/-- What the full authorizer grants, with a standard engine. -/
theorem mem_pairs_standard (hengine : engine.Standard reading) (htime : ReadsTime reading env)
    (hblank : Function.Injective env.blankNode) {query granted : List Permission}
    (h : odrlAuthorizer engine env policies claims (fullQuery query) = .ok granted) :
    (resource, scope) ∈ pairs granted ↔
      RequestedLast query resource scope ∧
        Allows reading env.now policies claims resource scope := by
  have hallows : ∀ entry, EntryAllows engine env policies claims entry scope ↔
      scope ∈ entry.2.resourceScopes ∧
        Allows reading env.now policies claims entry.2.resourceId scope := by
    intro entry
    constructor
    · rintro ⟨i, hscope, hallowed⟩
      obtain ⟨allow, hanswer, hverdict⟩ := allowed_standard hengine htime hblank policies claims
        (entry.1 + i) entry.2.resourceId scope
      rw [hallowed] at hanswer
      cases hanswer
      exact ⟨List.mem_of_getElem? hscope, hverdict.mp rfl⟩
    · rintro ⟨hscope, hallowed⟩
      obtain ⟨i, hi⟩ := List.mem_iff_getElem?.mp hscope
      obtain ⟨allow, hanswer, hverdict⟩ := allowed_standard hengine htime hblank policies claims
        (entry.1 + i) entry.2.resourceId scope
      rw [hverdict.mpr hallowed] at hanswer
      exact ⟨i, hi, hanswer⟩
  rw [mem_pairs_permissions h, RequestedLast, and_assoc]
  refine and_congr_right fun _ => ?_
  constructor
  · rintro ⟨entry, hlast, hentry⟩
    obtain ⟨hscope, hallowed⟩ := (hallows entry).mp hentry
    rw [(lastEntry_some hlast).2] at hallowed
    exact ⟨⟨entry, hlast, hscope⟩, hallowed⟩
  · rintro ⟨⟨entry, hlast, hscope⟩, hallowed⟩
    rw [← (lastEntry_some hlast).2] at hallowed
    exact ⟨entry, hlast, (hallows entry).mpr ⟨hscope, hallowed⟩⟩

end OdrlAuthorizer

/-! ## Agreement -/

section Agreement

open SimpleOdrlAuthorizer (ValidFor Permitted Prohibited Grants grantedBySelf
  mem_pairs_grantedBySelf)
open OdrlAuthorizer (ActiveFor Allows RequestedLast ReadsTime)

/-- No rule that is overrated or overlooked for a request tips its verdict: an
overrated prohibition stands where none of the active rules permits, or one of
them prohibits; beside an overrated permission a permission is active, or a
prohibition is valid; and likewise the other way round. -/
structure Untipped (env : SimpleOdrlAuthorizer.Environment) (reading : OdrlReading)
    (policies : Store) (claims : ClaimSet) (resource scope : String) : Prop where
  overrated : Harmless (Permitted policies) (Prohibited policies)
    (Overrated env reading policies claims resource scope)
    (ValidFor env policies claims resource scope)
    (ActiveFor reading env.now policies claims resource scope)
  overlooked : Harmless (Permitted policies) (Prohibited policies)
    (Overlooked env reading policies claims resource scope)
    (ActiveFor reading env.now policies claims resource scope)
    (ValidFor env policies claims resource scope)

/-- What the last entry of a resource requests is untipped, and on what only
an earlier entry requests there is no valid permission or a valid prohibition. -/
def PathsAgree (env : SimpleOdrlAuthorizer.Environment) (reading : OdrlReading)
    (policies : Store) (claims : ClaimSet) (query : List Permission) : Prop :=
  ∀ resource scope, (resource, scope) ∈ pairs query →
    (RequestedLast query resource scope →
      Untipped env reading policies claims resource scope) ∧
    (¬ RequestedLast query resource scope →
      (∃ rule, Permitted policies rule ∧ ValidFor env policies claims resource scope rule) →
      ∃ rule, Prohibited policies rule ∧ ValidFor env policies claims resource scope rule)

section

variable {env : SimpleOdrlAuthorizer.Environment} {reading : OdrlReading} {policies : Store}
  {claims : ClaimSet} {resource scope : String}

/-- The rules are overrated or overlooked, or both authorizers apply them. -/
theorem Untipped.agree (h : Untipped env reading policies claims resource scope) :
    Grants env policies claims resource scope ↔
      Allows reading env.now policies claims resource scope :=
  (verdict_iff_harmless (fun _ => overrated_iff) fun _ => overlooked_iff).mpr
    ⟨h.overrated, h.overlooked⟩

theorem Untipped.of_agree (h : Grants env policies claims resource scope ↔
    Allows reading env.now policies claims resource scope) :
    Untipped env reading policies claims resource scope where
  overrated := .of_verdict (fun _ => overrated_iff.mp) h
  overlooked := .of_verdict (fun _ => overlooked_iff.mp) h.symm

end

/-- The two authorizers grant the same pairs exactly when the paths agree. -/
theorem fastPath_agrees_iff {engine : OdrlEngine} {reading : OdrlReading}
    (env : SimpleOdrlAuthorizer.Environment) (outside : OdrlAuthorizer.Environment)
    (policies : Store) (claims : ClaimSet) (query granted : List Permission)
    (hengine : engine.Standard reading) (htime : ReadsTime reading outside)
    (hnow : outside.now = env.now) (hblank : Function.Injective outside.blankNode)
    (hself : grantedBySelf env policies claims (query.map Permission.toPartial) =
      .ok (some granted)) :
    (∃ complete, odrlAuthorizer engine outside policies claims (fullQuery query) = .ok complete ∧
        pairs granted = pairs complete) ↔
      PathsAgree env reading policies claims query := by
  have hanswers : OdrlAuthorizer.Answers engine outside policies claims := by
    intro n resource scope
    obtain ⟨allow, hanswer, -⟩ :=
      OdrlAuthorizer.allowed_standard hengine htime hblank policies claims n resource scope
    exact ⟨allow, hanswer⟩
  obtain ⟨complete, hcomplete⟩ := OdrlAuthorizer.odrlAuthorizer_isOk hanswers query
  have hfast : ∀ resource scope, (resource, scope) ∈ pairs granted ↔
      (resource, scope) ∈ pairs query ∧ Grants env policies claims resource scope :=
    fun _ _ => mem_pairs_grantedBySelf hself
  have hfull : ∀ resource scope, (resource, scope) ∈ pairs complete ↔
      RequestedLast query resource scope ∧
        Allows reading env.now policies claims resource scope := by
    intro resource scope
    rw [OdrlAuthorizer.mem_pairs_standard hengine htime hblank hcomplete, hnow]
  constructor
  · rintro ⟨other, hother, hequal⟩ resource scope hrequested
    rw [hcomplete] at hother
    cases hother
    have hsame : (resource, scope) ∈ pairs granted ↔ (resource, scope) ∈ pairs complete := by
      rw [hequal]
    rw [hfast, hfull, and_iff_right hrequested] at hsame
    constructor
    · intro hlast
      rw [and_iff_right hlast] at hsame
      exact .of_agree hsame
    · intro hdropped hpermitted
      by_contra hnone
      have hgrants : Grants env policies claims resource scope :=
        ⟨hpermitted, fun f hf hvalid => hnone ⟨f, hf, hvalid⟩⟩
      exact hdropped (hsame.mp hgrants).1
  · intro hagree
    refine ⟨complete, hcomplete, Set.ext fun ⟨resource, scope⟩ => ?_⟩
    rw [hfast, hfull]
    constructor
    · rintro ⟨hrequested, hgrants⟩
      obtain ⟨hlast, hdropped⟩ := hagree resource scope hrequested
      by_cases h : RequestedLast query resource scope
      · exact ⟨h, (hlast h).agree.mp hgrants⟩
      · obtain ⟨f, hf, hvalid⟩ := hdropped h hgrants.1
        exact absurd hvalid (hgrants.2 f hf)
    · rintro ⟨hlast, hallows⟩
      have huntipped := (hagree resource scope hlast.mem_pairs).1 hlast
      exact ⟨hlast.mem_pairs, huntipped.agree.mpr hallows⟩

/-! ## Two requests -/

theorem blankNode_injective : Function.Injective OdrlAuthorizer.plainEnvironment.blankNode := by
  intro m n h
  have hlists : List.replicate m 'b' = List.replicate n 'b' := String.ofList_injective h
  simpa using congrArg List.length hlists

def simpleEnvironment : SimpleOdrlAuthorizer.Environment := ⟨0, fun _ => none, fun _ _ => .ok []⟩

/-- Reading, for the policy that permits it. -/
theorem fastPath_agrees_iff_read :
    (∃ complete, odrlAuthorizer referenceEngine OdrlAuthorizer.plainEnvironment
          SimpleOdrlAuthorizer.readPolicy Dict.empty
          (fullQuery [⟨"urn:resource", [ODRL.read.value]⟩]) = .ok complete ∧
        pairs [⟨"urn:resource", [ODRL.read.value]⟩] = pairs complete) ↔
      PathsAgree simpleEnvironment ReferenceEngine.reading SimpleOdrlAuthorizer.readPolicy
        Dict.empty [⟨"urn:resource", [ODRL.read.value]⟩] :=
  fastPath_agrees_iff _ _ _ _ _ _ referenceEngine_standard rfl rfl blankNode_injective
    (by decide +kernel)

/-- A client on another channel: the prohibition is active, and the simple
authorizer drops it. -/
theorem fastPath_disagrees :
    ¬ ∀ engine reading env outside policies claims query granted,
      OdrlEngine.Standard engine reading → ReadsTime reading outside → outside.now = env.now →
      Function.Injective outside.blankNode →
      grantedBySelf env policies claims (query.map Permission.toPartial) = .ok (some granted) →
      ∃ complete, odrlAuthorizer engine outside policies claims (fullQuery query) =
        .ok complete ∧ pairs granted = pairs complete := by
  intro hclaim
  obtain ⟨complete, hcomplete, hequal⟩ := hclaim referenceEngine ReferenceEngine.reading
    simpleEnvironment OdrlAuthorizer.plainEnvironment SimpleOdrlAuthorizer.channelPolicy
    [(CLIENTID, [.string "urn:other"])] [⟨"urn:resource", [ODRL.read.value]⟩]
    [⟨"urn:resource", [ODRL.read.value]⟩] referenceEngine_standard rfl rfl blankNode_injective
    (by decide +kernel)
  have hrefused : odrlAuthorizer referenceEngine OdrlAuthorizer.plainEnvironment
      SimpleOdrlAuthorizer.channelPolicy [(CLIENTID, [.string "urn:other"])]
      (fullQuery [⟨"urn:resource", [ODRL.read.value]⟩]) = .ok [⟨"urn:resource", []⟩] := by
    decide +kernel
  rw [hrefused] at hcomplete
  cases hcomplete
  have hmem : ("urn:resource", ODRL.read.value) ∈ pairs [⟨"urn:resource", []⟩] := by
    rw [← hequal]
    exact mem_pairs_singleton.mpr ⟨rfl, List.mem_singleton_self _⟩
  exact absurd (mem_pairs_singleton.mp hmem).2 List.not_mem_nil

end Agreement

end UserManagedAccess.Policies
