/-
UserManagedAccess.Css.ParentCreateExtractor — `Create` is asked of the first
existing parent.

The parents are climbed by a recursion that nothing in the code bounds, so a call
is given a number of steps; `none` says that it is still climbing when these are
over. An entry of the map with `Create` becomes `Create` on the first existing
resource on the way up, and all its other modes go: also where that resource is
the entry's own.

* `handle_terminates` — in a tree with an existing root the result comes, and
  these are its modes;
* `handle_redirects_iff` — when it keeps what is required on existing resources.
-/
import Mathlib.Data.Nat.Find
import Mathlib.Logic.Function.Iterate
import UserManagedAccess.Css.AuxiliaryModesExtractor

namespace UserManagedAccess.Css

open UserManagedAccess.Lib

/-- A root has no parent: `getParentContainer` is not asked for it. -/
structure IdentifierStrategy where
  isRootContainer : String → Bool
  getParentContainer : String → String

namespace ParentCreateExtractor

variable {Mode : Type}

/-! ## The extractor -/

/-- What the extractor is built with: `create` is `PERMISSIONS.Create`. -/
structure Options (Mode : Type) where
  identifierStrategy : IdentifierStrategy
  hasResource : String → Bool
  create : Mode

/-- `findFirstExistingParent`, for at most this many resources. -/
def findFirstExistingParent (options : Options Mode) :
    Nat → String → Option (Except String String)
  | 0, _ => none
  | steps + 1, id =>
    if options.hasResource id then some (.ok id)
    else if options.identifierStrategy.isRootContainer id then
      some (.error ("Root container " ++ id ++ " does not exist"))
    else findFirstExistingParent options steps (options.identifierStrategy.getParentContainer id)

/-- The loop over the entries of the source. -/
def update [DecidableEq Mode] (options : Options Mode) (steps : Nat) :
    List (String × Finset Mode) → AccessMap Mode → Option (Except String (AccessMap Mode))
  | [], updatedResult => some (.ok updatedResult)
  | (id, modes) :: entries, updatedResult =>
    if options.create ∈ modes then
      match findFirstExistingParent options steps id with
      | none => none
      | some (.error message) => some (.error message)
      | some (.ok parent) =>
        update options steps entries (updatedResult.add parent {options.create})
    else update options steps entries (updatedResult.add id modes)

/-- `handle`, given the access map of the source. -/
def handle [DecidableEq Mode] (options : Options Mode) (steps : Nat) (source : AccessMap Mode) :
    Option (Except String (AccessMap Mode)) :=
  update options steps source.entrySets SetMultiMap.empty

/-! ## The tree -/

/-- The container that many levels up. -/
def ancestor (options : Options Mode) (level : Nat) (id : String) : String :=
  options.identifierStrategy.getParentContainer^[level] id

/-- Every resource is below a root, and roots exist. -/
structure ResourceTree (options : Options Mode) : Prop where
  rooted : ∀ id, ∃ level,
    options.identifierStrategy.isRootContainer (ancestor options level id) = true
  rootExists : ∀ id, options.identifierStrategy.isRootContainer id = true →
    options.hasResource id = true

/-- The nearest existing one of a resource and its ancestors. -/
def Nearest (options : Options Mode) (id parent : String) : Prop :=
  ∃ level, ancestor options level id = parent ∧ options.hasResource parent = true ∧
    ∀ lower < level, options.hasResource (ancestor options lower id) = false

/-- What the redirection of `Create` has to give. -/
structure RedirectsCreate (options : Options Mode) (source result : AccessMap Mode) :
    Prop where
  created : ∀ id parent, options.create ∈ source.values id → Nearest options id parent →
    options.create ∈ result.values parent
  kept : ∀ id, options.hasResource id = true → source.values id ⊆ result.values id
  confined : ∀ id, (result.values id).Nonempty →
    options.hasResource id = true ∨
      id ∈ source.distinctKeys ∧ options.create ∉ source.values id

variable {options : Options Mode}

theorem exists_nearest (htree : ResourceTree options) (id : String) :
    ∃ parent, Nearest options id parent := by
  obtain ⟨level, hroot⟩ := htree.rooted id
  have hexists : ∃ level, options.hasResource (ancestor options level id) = true :=
    ⟨level, htree.rootExists _ hroot⟩
  refine ⟨ancestor options (Nat.find hexists) id, Nat.find hexists, rfl,
    Nat.find_spec hexists, fun lower hlower => ?_⟩
  exact Bool.eq_false_iff.mpr (Nat.find_min hexists hlower)

theorem Nearest.unique {id first second : String} (hfirst : Nearest options id first)
    (hsecond : Nearest options id second) : first = second := by
  obtain ⟨level, rfl, hexists, hlower⟩ := hfirst
  obtain ⟨other, rfl, hexistsOther, hlowerOther⟩ := hsecond
  rcases Nat.lt_trichotomy level other with hlt | heq | hgt
  · rw [hlowerOther level hlt] at hexists
    cases hexists
  · rw [heq]
  · rw [hlower other hgt] at hexistsOther
    cases hexistsOther

theorem nearest_self {id : String} (h : options.hasResource id = true) :
    Nearest options id id :=
  ⟨0, rfl, h, fun _ hlower => absurd hlower (Nat.not_lt_zero _)⟩

/-! ## Climbing -/

/-- The recursion is on the level of the nearest existing resource. -/
theorem findFirstExistingParent_level (htree : ResourceTree options) {level steps : Nat}
    {id : String} (hsteps : level < steps)
    (hexists : options.hasResource (ancestor options level id) = true)
    (hlower : ∀ lower < level, options.hasResource (ancestor options lower id) = false) :
    findFirstExistingParent options steps id = some (.ok (ancestor options level id)) := by
  induction level generalizing steps id with
  | zero =>
    obtain ⟨steps, rfl⟩ : ∃ n, steps = n + 1 := ⟨steps - 1, by omega⟩
    unfold findFirstExistingParent
    rw [if_pos (show options.hasResource id = true from hexists)]
    rfl
  | succ level ih =>
    obtain ⟨steps, rfl⟩ : ∃ n, steps = n + 1 := ⟨steps - 1, by omega⟩
    have hself : options.hasResource id = false := hlower 0 (by omega)
    have hroot : options.identifierStrategy.isRootContainer id = false := by
      rw [Bool.eq_false_iff]
      intro hroot
      rw [htree.rootExists id hroot] at hself
      cases hself
    unfold findFirstExistingParent
    rw [hself, hroot, if_neg Bool.false_ne_true, if_neg Bool.false_ne_true]
    exact ih (by omega) hexists fun lower hlt => hlower (lower + 1) (by omega)

theorem findFirstExistingParent_nearest (htree : ResourceTree options) {id parent : String}
    (h : Nearest options id parent) :
    ∃ enough, ∀ steps ≥ enough,
      findFirstExistingParent options steps id = some (.ok parent) := by
  obtain ⟨level, rfl, hexists, hlower⟩ := h
  exact ⟨level + 1, fun steps hsteps =>
    findFirstExistingParent_level htree (by omega) hexists hlower⟩

/-! ## What the loop leaves -/

/-- What these entries put on a resource. -/
def Contributes (options : Options Mode) (entries : List (String × Finset Mode)) (id : String)
    (mode : Mode) : Prop :=
  ∃ entry ∈ entries,
    (options.create ∈ entry.2 ∧ Nearest options entry.1 id ∧ mode = options.create) ∨
      (options.create ∉ entry.2 ∧ entry.1 = id ∧ mode ∈ entry.2)

theorem contributes_cons {entry : String × Finset Mode} {entries : List (String × Finset Mode)}
    {id : String} {mode : Mode} :
    Contributes options (entry :: entries) id mode ↔
      Contributes options [entry] id mode ∨ Contributes options entries id mode := by
  simp [Contributes]

theorem contributes_create {id parent other : String} {modes : Finset Mode} {mode : Mode}
    (hcreate : options.create ∈ modes) (hparent : Nearest options id parent) :
    Contributes options [(id, modes)] other mode ↔ other = parent ∧ mode = options.create := by
  constructor
  · rintro ⟨_, hentry, hcase⟩
    cases List.mem_singleton.mp hentry
    rcases hcase with ⟨_, hnearest, hmode⟩ | ⟨hnot, _, _⟩
    · exact ⟨hnearest.unique hparent, hmode⟩
    · exact absurd hcreate hnot
  · rintro ⟨rfl, hmode⟩
    exact ⟨_, List.mem_singleton_self _, Or.inl ⟨hcreate, hparent, hmode⟩⟩

theorem contributes_kept {id other : String} {modes : Finset Mode} {mode : Mode}
    (hcreate : options.create ∉ modes) :
    Contributes options [(id, modes)] other mode ↔ other = id ∧ mode ∈ modes := by
  constructor
  · rintro ⟨_, hentry, hcase⟩
    cases List.mem_singleton.mp hentry
    rcases hcase with ⟨hin, _, _⟩ | ⟨_, hid, hmode⟩
    · exact absurd hin hcreate
    · exact ⟨hid.symm, hmode⟩
  · rintro ⟨rfl, hmode⟩
    exact ⟨_, List.mem_singleton_self _, Or.inr ⟨hcreate, rfl, hmode⟩⟩

variable [DecidableEq Mode]

/-- The induction is on the entries, for whatever stands in the result already. -/
theorem update_spec (htree : ResourceTree options) (entries : List (String × Finset Mode))
    (updatedResult : AccessMap Mode) :
    ∃ enough result,
      (∀ steps ≥ enough, update options steps entries updatedResult = some (.ok result)) ∧
        ∀ id mode, mode ∈ result.values id ↔
          mode ∈ updatedResult.values id ∨ Contributes options entries id mode := by
  induction entries generalizing updatedResult with
  | nil =>
    refine ⟨0, updatedResult, fun _ _ => rfl, fun id mode => ?_⟩
    simp [Contributes]
  | cons entry entries ih =>
    obtain ⟨id, modes⟩ := entry
    by_cases hcreate : options.create ∈ modes
    · obtain ⟨parent, hparent⟩ := exists_nearest htree id
      obtain ⟨climbed, hclimb⟩ := findFirstExistingParent_nearest htree hparent
      obtain ⟨enough, result, hrun, hvalues⟩ := ih (updatedResult.add parent {options.create})
      refine ⟨max climbed enough, result, fun steps hsteps => ?_, fun other mode => ?_⟩
      · unfold update
        rw [if_pos hcreate, hclimb steps (by omega)]
        exact hrun steps (by omega)
      · rw [hvalues, contributes_cons, contributes_create hcreate hparent, SetMultiMap.values_add]
        by_cases hother : other = parent
        · subst hother
          simp only [if_true, true_and, Finset.mem_union, Finset.mem_singleton]
          tauto
        · simp [hother]
    · obtain ⟨enough, result, hrun, hvalues⟩ := ih (updatedResult.add id modes)
      refine ⟨enough, result, fun steps hsteps => ?_, fun other mode => ?_⟩
      · unfold update
        rw [if_neg hcreate]
        exact hrun steps hsteps
      · rw [hvalues, contributes_cons, contributes_kept hcreate, SetMultiMap.values_add]
        by_cases hother : other = id
        · subst hother
          simp [or_assoc]
        · simp [hother]

/-- The result comes, and a resource has `Create` when it is the nearest existing
one of an entry with `Create`, and the modes of its own entry if that has none. -/
theorem handle_terminates (htree : ResourceTree options) (source : AccessMap Mode) :
    ∃ enough result,
      (∀ steps ≥ enough, handle options steps source = some (.ok result)) ∧
        ∀ id mode, mode ∈ result.values id ↔
          (mode = options.create ∧
            ∃ other, options.create ∈ source.values other ∧ Nearest options other id) ∨
          (options.create ∉ source.values id ∧ mode ∈ source.values id) := by
  obtain ⟨enough, result, hrun, hvalues⟩ := update_spec htree source.entrySets SetMultiMap.empty
  refine ⟨enough, result, hrun, fun id mode => ?_⟩
  rw [hvalues]
  constructor
  · rintro (hempty | ⟨⟨other, modes⟩, hentry, hcase⟩)
    · exact absurd hempty (Finset.notMem_empty mode)
    · obtain ⟨_, rfl⟩ := SetMultiMap.mem_entrySets.mp hentry
      rcases hcase with ⟨hcreate, hnearest, hmode⟩ | ⟨hnot, rfl, hmode⟩
      · exact Or.inl ⟨hmode, other, hcreate, hnearest⟩
      · exact Or.inr ⟨hnot, hmode⟩
  · rintro (⟨hmode, other, hcreate, hnearest⟩ | ⟨hnot, hmode⟩)
    · have hentry : (other, source.values other) ∈ source.entrySets :=
        SetMultiMap.mem_entrySets.mpr ⟨⟨_, hcreate⟩, rfl⟩
      exact Or.inr ⟨_, hentry, Or.inl ⟨hcreate, hnearest, hmode⟩⟩
    · have hentry : (id, source.values id) ∈ source.entrySets :=
        SetMultiMap.mem_entrySets.mpr ⟨⟨_, hmode⟩, rfl⟩
      exact Or.inr ⟨_, hentry, Or.inr ⟨hnot, rfl, hmode⟩⟩

/-- More steps do not change a result. -/
theorem result_unique {source first second : AccessMap Mode} {enough other : Nat}
    (hfirst : ∀ steps ≥ enough, handle options steps source = some (.ok first))
    (hsecond : ∀ steps ≥ other, handle options steps source = some (.ok second)) :
    second = first := by
  have h := hsecond (max enough other) (by omega)
  rw [hfirst (max enough other) (by omega)] at h
  cases h
  rfl

/-! ## When nothing is lost -/

/-- The redirection is right exactly when no existing resource requires `Create`
next to another mode. -/
theorem handle_redirects_iff (options : Options Mode) (htree : ResourceTree options)
    (source : AccessMap Mode) :
    (∃ enough result,
      (∀ steps ≥ enough, handle options steps source = some (.ok result)) ∧
        RedirectsCreate options source result) ↔
      ∀ id, options.hasResource id = true → options.create ∈ source.values id →
        source.values id = {options.create} := by
  obtain ⟨enough, result, hrun, hvalues⟩ := handle_terminates htree source
  constructor
  · intro ⟨other, result', hrun', hredirects⟩ id hexists hcreate
    have hsame : result' = result := result_unique hrun hrun'
    subst hsame
    refine Finset.eq_singleton_iff_unique_mem.mpr ⟨hcreate, fun mode hmode => ?_⟩
    rcases (hvalues id mode).mp (hredirects.kept id hexists hmode) with ⟨h, _⟩ | ⟨hnot, _⟩
    · exact h
    · exact absurd hcreate hnot
  · intro h
    refine ⟨enough, result, hrun, ?_, ?_, ?_⟩
    · intro id parent hcreate hnearest
      exact (hvalues parent _).mpr (Or.inl ⟨rfl, id, hcreate, hnearest⟩)
    · intro id hexists mode hmode
      by_cases hcreate : options.create ∈ source.values id
      · rw [h id hexists hcreate, Finset.mem_singleton] at hmode
        exact (hvalues id mode).mpr (Or.inl ⟨hmode, id, hcreate, nearest_self hexists⟩)
      · exact (hvalues id mode).mpr (Or.inr ⟨hcreate, hmode⟩)
    · intro id ⟨mode, hmode⟩
      rcases (hvalues id mode).mp hmode with ⟨_, _, _, _, _, hexists, _⟩ | ⟨hnot, hin⟩
      · exact Or.inl hexists
      · exact Or.inr ⟨SetMultiMap.mem_distinctKeys.mpr ⟨mode, hin⟩, hnot⟩

/-- A root with one resource in it. -/
def singleton : Options PERMISSIONS where
  identifierStrategy :=
    { isRootContainer := fun id => id = "/"
      getParentContainer := fun _ => "/" }
  hasResource := fun id => id = "/" || id = "/card"
  create := .Create

theorem singleton_tree : ResourceTree singleton where
  rooted := fun _ => ⟨1, rfl⟩
  rootExists := by
    intro id hroot
    have hid : id = "/" := by simpa [singleton] using hroot
    subst hid
    rfl

/-- `Read` stays on what exists, and `Create` goes to the root. -/
theorem new_resource_redirected :
    ∃ enough result,
      (∀ steps ≥ enough,
        handle singleton steps
          ((SetMultiMap.empty.add "/card" {.Read}).add "/new" {.Create, .Modify}) =
            some (.ok result)) ∧
        RedirectsCreate singleton
          ((SetMultiMap.empty.add "/card" {.Read}).add "/new" {.Create, .Modify}) result := by
  refine (handle_redirects_iff singleton singleton_tree _).mpr ?_
  intro id hexists hcreate
  have hid : id = "/" ∨ id = "/card" := by simpa [singleton] using hexists
  rcases hid with rfl | rfl
  · exact absurd hcreate (by decide +kernel)
  · exact absurd hcreate (by decide +kernel)

/-- `Modify` on a resource that exists is dropped where `Create` is required on it
too. -/
theorem existing_resource_loses_mode :
    ResourceTree singleton ∧
      ¬ ∃ enough result,
        (∀ steps ≥ enough,
          handle singleton steps (SetMultiMap.empty.add "/card" {.Create, .Modify}) =
            some (.ok result)) ∧
          RedirectsCreate singleton (SetMultiMap.empty.add "/card" {.Create, .Modify})
            result := by
  refine ⟨singleton_tree, ?_⟩
  intro ⟨other, result', hrun', hredirects⟩
  obtain ⟨enough, result, hrun, hvalues⟩ := handle_terminates singleton_tree
    (SetMultiMap.empty.add "/card" {PERMISSIONS.Create, PERMISSIONS.Modify})
  have hsame := result_unique hrun hrun'
  subst hsame
  have hmodify := hredirects.kept "/card" rfl
    (show PERMISSIONS.Modify ∈ _ by decide +kernel)
  rcases (hvalues "/card" .Modify).mp hmodify with ⟨hmode, _⟩ | ⟨hnot, _⟩
  · cases hmode
  · exact hnot (by decide +kernel)

end ParentCreateExtractor

end UserManagedAccess.Css
