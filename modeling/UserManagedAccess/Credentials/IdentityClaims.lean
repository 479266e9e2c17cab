/-
UserManagedAccess.Credentials.IdentityClaims — the claims that name the user
and the client, before and after they are made IRIs.

`IriVerifier` replaces the values under `WEBID` and `CLIENTID` and writes the
former values under `ORIGINAL_WEBID` and `ORIGINAL_CLIENTID`
(`get_convert`). `collected` is what a dialog has provided once these claim
sets were verified; `original_kept_iff` says when verifying that once more
leaves the original values as they are.
-/
import UserManagedAccess.Credentials.Verifiers
import UserManagedAccess.Ticketing.Strategy.ImmediateAuthorizerStrategy

namespace UserManagedAccess.Credentials

open UserManagedAccess.Lib UserManagedAccess.Util
open UserManagedAccess.Ticketing

/-- The claim types that are converted, each with the type that keeps the
former values. -/
def identityTypes : List (String × String) :=
  [(WEBID, ORIGINAL_WEBID), (CLIENTID, ORIGINAL_CLIENTID)]

/-! ## Conversion -/

namespace IriVerifier

variable {base : IriBase}

theorem toIri_eq_self {entry : Json} :
    toIri base entry = entry ↔ ∀ text, entry = .string text → isIri text = true := by
  constructor
  · intro h text htext
    subst htext
    by_contra hiri
    simp only [toIri, if_neg hiri] at h
    injection h with h
    exact hiri (h ▸ base.isIri_joinUrl text)
  · intro h
    cases entry with
    | string text => simp only [toIri, h text rfl, if_true]
    | _ => rfl

@[simp] theorem toIri_toIri (entry : Json) : toIri base (toIri base entry) = toIri base entry := by
  rw [toIri_eq_self]
  intro text htext
  cases entry with
  | string former =>
    by_cases hiri : isIri former = true
    · simp only [toIri, if_pos hiri] at htext
      injection htext with htext
      exact htext ▸ hiri
    · simp only [toIri, if_neg hiri] at htext
      injection htext with htext
      exact htext ▸ base.isIri_joinUrl former
  | _ => cases htext

theorem get_convertType_type {claims result : ClaimSet} {claimType : String}
    (h : result.get claimType = claims.get claimType) (original : String) :
    (convertType base claims result claimType original).get claimType =
      (claims.get claimType).map (List.map (toIri base)) := by
  unfold convertType
  cases hget : claims.get claimType with
  | none => rw [h, hget]; rfl
  | some entries => exact Dict.get_set_self _ _ _

theorem get_convertType_original {claims result : ClaimSet} {claimType original : String}
    (hne : original ≠ claimType) :
    (convertType base claims result claimType original).get original =
      (claims.get claimType).or (result.get original) := by
  unfold convertType
  cases claims.get claimType with
  | none => rfl
  | some entries => rw [Dict.get_set_ne _ _ hne, Dict.get_set_self]; rfl

theorem get_convertType_other {claims result : ClaimSet} {claimType original key : String}
    (htype : key ≠ claimType) (horiginal : key ≠ original) :
    (convertType base claims result claimType original).get key = result.get key := by
  unfold convertType
  cases claims.get claimType with
  | none => rfl
  | some entries => rw [Dict.get_set_ne _ _ htype, Dict.get_set_ne _ _ horiginal]

theorem get_convert {claimType original : String} (h : (claimType, original) ∈ identityTypes)
    (claims : ClaimSet) :
    (convert base claims).get claimType = (claims.get claimType).map (List.map (toIri base)) ∧
      (convert base claims).get original =
        (claims.get claimType).or (claims.get original) := by
  unfold convert
  rcases List.mem_pair.mp h with hpair | hpair
  · injection hpair with htype horiginal
    subst htype horiginal
    exact ⟨(get_convertType_other (by decide) (by decide)).trans (get_convertType_type rfl _),
      (get_convertType_other (by decide) (by decide)).trans
        (get_convertType_original (by decide))⟩
  · injection hpair with htype horiginal
    subst htype horiginal
    refine ⟨get_convertType_type (get_convertType_other (by decide) (by decide)) _, ?_⟩
    rw [get_convertType_original (by decide), get_convertType_other (by decide) (by decide)]

theorem nodup_keys_convert {claims : ClaimSet} (h : claims.keys.Nodup) :
    (convert base claims).keys.Nodup := by
  have hstep : ∀ {result : ClaimSet} (claimType original : String), result.keys.Nodup →
      (convertType base claims result claimType original).keys.Nodup := by
    intro result claimType original hresult
    unfold convertType
    cases claims.get claimType with
    | none => exact hresult
    | some entries => exact Dict.nodup_keys_set (Dict.nodup_keys_set hresult _ _) _ _
  exact hstep _ _ (hstep _ _ h)

end IriVerifier

/-! ## Provided claims -/

theorem get_provide {claims : ClaimSet} (h : claims.keys.Nodup) (provided : ClaimSet)
    (key : String) :
    (ImmediateAuthorizerStrategy.provide provided claims).get key =
      if key ∈ claims.keys then some (provided.values key ++ claims.values key)
      else provided.get key := by
  unfold ImmediateAuthorizerStrategy.provide
  generalize claims.keys = keys at h
  induction keys generalizing provided with
  | nil => simp
  | cons k keys ih =>
    obtain ⟨hk, hkeys⟩ := List.nodup_cons.mp h
    rw [List.foldl_cons, ih _ hkeys]
    by_cases hkey : key = k
    · subst hkey
      simp [hk]
    · have hvalues : ClaimSet.values (provided.set k (provided.values k ++ claims.values k)) key =
          provided.values key := by
        simp only [ClaimSet.values, Dict.get_set_ne _ _ hkey]
      simp [hkey, hvalues, Dict.get_set_ne _ _ hkey]

theorem values_of_get {claims : ClaimSet} {key : String} {values : List Json}
    (h : claims.get key = some values) : claims.values key = values := by
  rw [ClaimSet.values, h]
  rfl

/-- Of a fresh dialog. -/
theorem get_provide_empty {claims : ClaimSet} (h : claims.keys.Nodup) (key : String) :
    (ImmediateAuthorizerStrategy.provide Dict.empty claims).get key = claims.get key := by
  rw [get_provide h]
  split
  · rename_i hkey
    obtain ⟨values, hvalues⟩ := Dict.mem_keys_iff.mp hkey
    rw [values_of_get hvalues, hvalues]
    rfl
  · rename_i hkey
    cases hget : claims.get key with
    | none => rfl
    | some values => exact absurd (Dict.mem_keys_iff.mpr ⟨values, hget⟩) hkey

/-- The claims provided once these claim sets were verified. -/
def collect (base : IriBase) (provided : ClaimSet) (verified : List ClaimSet) : ClaimSet :=
  verified.foldl (fun provided claims =>
    ImmediateAuthorizerStrategy.provide provided (IriVerifier.convert base claims)) provided

/-- The claims provided by a dialog in which these claim sets were verified. -/
def collected (base : IriBase) (verified : List ClaimSet) : ClaimSet :=
  collect base Dict.empty verified

theorem collect_collected (base : IriBase) (verified later : List ClaimSet) :
    collect base (collected base verified) later = collected base (verified ++ later) := by
  rw [collected, collected, collect, collect, collect, List.foldl_append]

variable {base : IriBase} {verified : List ClaimSet}

/-- The values under a claim type, one claim set after the other. -/
theorem get_collect (hobjects : ∀ claims ∈ verified, claims.keys.Nodup) (provided : ClaimSet)
    (key : String) :
    (collect base provided verified).get key =
      if provided.get key = none ∧
          ∀ claims ∈ verified, (IriVerifier.convert base claims).get key = none then none
      else some (provided.values key ++
        verified.flatMap fun claims => (IriVerifier.convert base claims).values key) := by
  induction verified generalizing provided with
  | nil =>
    cases hget : provided.get key with
    | none => simp [collect, hget]
    | some values => simp [collect, hget, ClaimSet.values]
  | cons claims verified ih =>
    have hconvert : (IriVerifier.convert base claims).keys.Nodup :=
      IriVerifier.nodup_keys_convert (hobjects claims List.mem_cons_self)
    have hrest : ∀ claims ∈ verified, claims.keys.Nodup :=
      fun claims hclaims => hobjects claims (List.mem_cons_of_mem _ hclaims)
    show (collect base (ImmediateAuthorizerStrategy.provide provided _) verified).get key = _
    rw [ih hrest, ClaimSet.values, get_provide hconvert]
    by_cases hkey : key ∈ (IriVerifier.convert base claims).keys
    · obtain ⟨values, hvalues⟩ := Dict.mem_keys_iff.mp hkey
      simp [hkey, hvalues]
    · have hnone : (IriVerifier.convert base claims).get key = none := by
        cases hget : (IriVerifier.convert base claims).get key with
        | none => rfl
        | some values => exact absurd (Dict.mem_keys_iff.mpr ⟨values, hget⟩) hkey
      simp [hkey, hnone, ClaimSet.values]

theorem nodup_keys_collect {provided : ClaimSet} (h : provided.keys.Nodup) :
    (collect base provided verified).keys.Nodup := by
  have hprovide : ∀ (claims : ClaimSet) (keys : List String) (provided : ClaimSet),
      provided.keys.Nodup → (keys.foldl (fun provided key => Dict.set provided key
        (ClaimSet.values provided key ++ claims.values key)) provided).keys.Nodup := by
    intro claims keys
    induction keys with
    | nil => exact fun provided h => h
    | cons key keys ih => exact fun provided h => ih _ (Dict.nodup_keys_set h _ _)
  induction verified generalizing provided with
  | nil => exact h
  | cons claims verified ih => exact ih (hprovide _ _ _ h)

/-! ## Verifying once more -/

/-- Lists made of parts of which none is longer than its counterpart are equal
where all parts are. -/
theorem flatMap_eq_iff {α β : Type} {f g : α → List β} {l : List α}
    (hle : ∀ x ∈ l, (f x).length ≤ (g x).length) :
    l.flatMap f = l.flatMap g ↔ ∀ x ∈ l, f x = g x := by
  have htotal : ∀ {l : List α}, (∀ x ∈ l, (f x).length ≤ (g x).length) →
      (l.flatMap f).length ≤ (l.flatMap g).length := by
    intro l h
    induction l with
    | nil => exact Nat.le_refl _
    | cons x l ih =>
      have hfirst := h x List.mem_cons_self
      have hrest := ih fun y hy => h y (List.mem_cons_of_mem _ hy)
      simp only [List.flatMap_cons, List.length_append]
      omega
  constructor
  · intro h
    induction l with
    | nil => exact fun x hx => absurd hx List.not_mem_nil
    | cons x l ih =>
      have hfirst := hle x List.mem_cons_self
      have hrest : ∀ y ∈ l, (f y).length ≤ (g y).length :=
        fun y hy => hle y (List.mem_cons_of_mem _ hy)
      rw [List.flatMap_cons, List.flatMap_cons] at h
      have hlength := congrArg List.length h
      rw [List.length_append, List.length_append] at hlength
      have hsum := htotal hrest
      obtain ⟨hx, hl⟩ := List.append_inj h (by omega)
      intro y hy
      rcases List.mem_cons.mp hy with rfl | hy
      · exact hx
      · exact ih hrest hl y hy
  · intro h
    induction l with
    | nil => rfl
    | cons x l ih =>
      rw [List.flatMap_cons, List.flatMap_cons, h x List.mem_cons_self,
        ih (fun y hy => hle y (List.mem_cons_of_mem _ hy))
          fun y hy => h y (List.mem_cons_of_mem _ hy)]

/-- The claim sets name nobody under this type, or everybody under an IRI, and
claim no former name where they claim none at all. -/
def OriginalKept (verified : List ClaimSet) (claimType original : String) : Prop :=
  (∀ claims ∈ verified, claims.get claimType = none) ∨
    ∀ claims ∈ verified,
      (∀ text, Json.string text ∈ claims.values claimType → isIri text = true) ∧
        (claims.get claimType = none → claims.values original = [])

section

variable {claimType original : String} (hpair : (claimType, original) ∈ identityTypes)
  (hobjects : ∀ claims ∈ verified, claims.keys.Nodup)

include hpair hobjects

theorem get_collected_type :
    (collected base verified).get claimType =
      if ∀ claims ∈ verified, claims.get claimType = none then none
      else some (verified.flatMap fun claims =>
        (claims.values claimType).map (IriVerifier.toIri base)) := by
  have hvalues : ∀ claims : ClaimSet, (IriVerifier.convert base claims).values claimType =
      (claims.values claimType).map (IriVerifier.toIri base) := by
    intro claims
    rw [ClaimSet.values, ClaimSet.values, (IriVerifier.get_convert hpair claims).1]
    cases claims.get claimType <;> rfl
  have hnone : ∀ claims : ClaimSet, (IriVerifier.convert base claims).get claimType = none ↔
      claims.get claimType = none := by
    intro claims
    rw [(IriVerifier.get_convert hpair claims).1, Option.map_eq_none_iff]
  have hempty : ClaimSet.values Dict.empty claimType = [] := rfl
  rw [collected, get_collect hobjects]
  simp only [hvalues, hnone, hempty, Dict.get_empty, true_and, List.nil_append]

theorem get_collected_original :
    (collected base verified).get original =
      if ∀ claims ∈ verified, (claims.get claimType).or (claims.get original) = none then none
      else some (verified.flatMap fun claims =>
        ((claims.get claimType).or (claims.get original)).getD []) := by
  rw [collected, get_collect hobjects]
  simp only [ClaimSet.values, (IriVerifier.get_convert hpair _).2, Dict.get_empty, true_and,
    Option.getD_none, List.nil_append]

/-- The converted values stay as they are. -/
theorem map_toIri_collected :
    ((collected base verified).get claimType).map (List.map (IriVerifier.toIri base)) =
      (collected base verified).get claimType := by
  rw [get_collected_type hpair hobjects]
  split
  · rfl
  · simp [List.map_flatMap, Function.comp_def]

/-- The former values survive where they are those of the type itself. -/
theorem original_kept_iff :
    ((collected base verified).get claimType).or ((collected base verified).get original) =
      (collected base verified).get original ↔ OriginalKept verified claimType original := by
  rw [get_collected_type hpair hobjects, get_collected_original hpair hobjects]
  by_cases hnobody : ∀ claims ∈ verified, claims.get claimType = none
  · rw [if_pos hnobody]
    exact iff_of_true rfl (Or.inl hnobody)
  · have hsome : ¬ ∀ claims ∈ verified, (claims.get claimType).or (claims.get original) = none :=
      fun h => hnobody fun claims hclaims => (Option.or_eq_none_iff.mp (h claims hclaims)).1
    have hlength : ∀ claims ∈ verified,
        ((claims.values claimType).map (IriVerifier.toIri base)).length ≤
          (((claims.get claimType).or (claims.get original)).getD []).length := by
      intro claims _
      rw [List.length_map, ClaimSet.values]
      cases claims.get claimType with
      | none => exact Nat.zero_le _
      | some values => exact Nat.le_refl _
    rw [if_neg hnobody, if_neg hsome, Option.some_or, Option.some_inj, flatMap_eq_iff hlength,
      OriginalKept, or_iff_right hnobody]
    refine forall₂_congr fun claims _ => ?_
    rw [ClaimSet.values, ClaimSet.values]
    cases hget : claims.get claimType with
    | none =>
      show [] = (claims.get original).getD [] ↔ _
      constructor
      · exact fun h => ⟨fun text htext => absurd htext List.not_mem_nil, fun _ => h.symm⟩
      · exact fun h => (h.2 rfl).symm
    | some values =>
      have hself : values.map (IriVerifier.toIri base) = values ↔
          ∀ entry ∈ values, ∀ text, entry = Json.string text → isIri text = true := by
        have hmap := @List.map_inj_left _ _ values (IriVerifier.toIri base) id
        rw [List.map_id] at hmap
        rw [hmap]
        exact forall₂_congr fun entry _ => IriVerifier.toIri_eq_self
      simp only [Option.getD_some, Option.some_or, hself, reduceCtorEq, false_imp_iff, and_true]
      exact ⟨fun h text htext => h _ htext text rfl, fun h entry hentry text htext =>
        h text (htext ▸ hentry)⟩

end

end UserManagedAccess.Credentials
