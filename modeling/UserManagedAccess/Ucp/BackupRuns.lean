/-
UserManagedAccess.Ucp.BackupRuns — which policy changes the next backup is to write.

A call runs up to its await, and then others may run. `deleteRule` awaits the quads it
is to remove. `backup` awaits the rename of the file and the removal of the old one,
either of which may fail. `deleteRuleFromPolicy` does not await the `deleteRule` it
calls.

* `step` — the events of a run, and what they do;
* `Covered` — what differs from the last backup is not forgotten;
* `covered_exact` — it is not, as long as no backup comes between a `deleteRule` and
  what that removes;
* `deletion_forgotten` — a backup that does.
-/
import UserManagedAccess.Lib.Transitions
import UserManagedAccess.Ucp.FileBackupTheorems
import UserManagedAccess.Ucp.Util

namespace UserManagedAccess.Ucp

open UserManagedAccess.Lib UserManagedAccess.Rdf

namespace MemoryUCRulesStorage

def getRule (identifier : String) (store : Store) : Store :=
  extractQuadsRecursive store identifier []

end MemoryUCRulesStorage

namespace FileBackupUCRulesStorage

/-! ## The storage and its calls -/

/-- What a call that has not settled waits for. -/
inductive Await where
  /-- A `deleteRule`, and what it has found. -/
  | rule (found : Store)
  | rename
  | unlink
  deriving DecidableEq

structure BackupState where
  store : Store
  doingBackup : Bool
  dataChanged : Bool
  /-- What the last backup has given to its writer. -/
  written : Store
  awaited : List Await

/-- A storage that has read its backup. -/
def BackupState.start (policies : Store) : BackupState where
  store := policies
  doingBackup := false
  dataChanged := false
  written := policies
  awaited := []

inductive RenameResult where
  | moved
  /-- `ENOENT` -/
  | missing
  | failed
  deriving DecidableEq

inductive CallEvent where
  | addRule (rule : Store)
  | removeData (data : Store)
  | deleteRule (identifier : String)
  | deleteRuleFromPolicy (ruleID policyID : String)
  | backup
  /-- A `deleteRule` goes on with what it has found. -/
  | found (rule : Store)
  /-- `backup` goes on after the rename. -/
  | renamed (result : RenameResult)
  /-- And after the removal of the old file, also if that has failed. -/
  | unlinked

/-! ## What the calls do -/

namespace BackupState

def addRule (rule : Store) (s : BackupState) : BackupState :=
  { s with dataChanged := true, store := s.store.addAll rule }

def removeData (data : Store) (s : BackupState) : BackupState :=
  { s with dataChanged := true, store := s.store.difference data }

/-- `deleteRule` up to its await. -/
def deleteRule (identifier : String) (s : BackupState) : BackupState :=
  { s with
    dataChanged := true
    awaited := s.awaited ++ [.rule (MemoryUCRulesStorage.getRule identifier s.store)] }

def deleteRuleFromPolicy (ruleID policyID : String) (s : BackupState) : BackupState :=
  { s with
    dataChanged := true
    store := s.store.removeQuads
      (s.store.getQuads (Term.namedNode policyID) none (Term.namedNode ruleID) none)
    : BackupState }.deleteRule ruleID

/-- The rest of `deleteRule`. -/
def removeFound (rule : Store) (s : BackupState) : BackupState :=
  { s with store := s.store.difference rule, awaited := s.awaited.erase (.rule rule) }

def backup (s : BackupState) : BackupState :=
  if s.doingBackup || !s.dataChanged then s
  else { s with doingBackup := true, awaited := s.awaited ++ [.rename] }

/-- `backup` after its first await: an error leaves at once, and without an old file
there is nothing left to await. -/
def renamed (s : BackupState) : RenameResult → BackupState
  | .moved =>
    { s with dataChanged := false, written := s.store
             awaited := s.awaited.erase .rename ++ [.unlink] }
  | .missing =>
    { s with dataChanged := false, written := s.store, doingBackup := false
             awaited := s.awaited.erase .rename }
  | .failed => { s with doingBackup := false, awaited := s.awaited.erase .rename }

def unlinked (s : BackupState) : BackupState :=
  { s with doingBackup := false, awaited := s.awaited.erase .unlink }

def step (s : BackupState) : CallEvent → Option BackupState
  | .addRule rule => some (s.addRule rule)
  | .removeData data => some (s.removeData data)
  | .deleteRule identifier => some (s.deleteRule identifier)
  | .deleteRuleFromPolicy ruleID policyID => some (s.deleteRuleFromPolicy ruleID policyID)
  | .backup => some s.backup
  | .found rule => if .rule rule ∈ s.awaited then some (s.removeFound rule) else none
  | .renamed result => if .rename ∈ s.awaited then some (s.renamed result) else none
  | .unlinked => if .unlink ∈ s.awaited then some s.unlinked else none

/-! ## What a backup has to write -/

def Differs (s : BackupState) : Prop := ¬ SameQuads s.store.quads s.written.quads

instance (s : BackupState) : Decidable s.Differs := inferInstanceAs (Decidable (¬ _))

/-- Policies that differ from the last backup are marked as changed, or being changed,
or a backup is yet to write them. Once all calls have settled, they are marked. -/
structure Covered (s : BackupState) : Prop where
  running : s.Differs →
    s.dataChanged = true ∨ (∃ rule, .rule rule ∈ s.awaited) ∨ .rename ∈ s.awaited
  settled : s.awaited = [] → s.Differs → s.dataChanged = true

/-- A `deleteRule` goes on before a backup has taken its mark away, or else what it has
found is gone anyway. -/
def Timely (s : BackupState) : CallEvent → Prop
  | .found rule => s.dataChanged = true ∨ ∀ q ∈ rule.quads, q ∉ s.store
  | _ => True

instance (s : BackupState) : DecidablePred s.Timely
  | .found rule => inferInstanceAs (Decidable (_ ∨ ∀ q ∈ rule.quads, q ∉ s.store))
  | .addRule _ | .removeData _ | .deleteRule _ | .deleteRuleFromPolicy _ _ => .isTrue trivial
  | .backup | .renamed _ | .unlinked => .isTrue trivial

/-! ## Runs -/

variable {s s' : BackupState} {e : CallEvent}

/-- What holds between any two events. -/
def Kept (s : BackupState) : Prop := s.Differs → s.dataChanged = true

theorem covered_of_kept (h : s.Kept) : s.Covered :=
  ⟨fun hdiffers => Or.inl (h hdiffers), fun _ hdiffers => h hdiffers⟩

/-- A backup has just written the policies. -/
theorem kept_renamed (h : s.Kept) (result : RenameResult) : (s.renamed result).Kept := by
  cases result with
  | moved => exact fun hdiffers => absurd (SameQuads.refl s.store.quads) hdiffers
  | missing => exact fun hdiffers => absurd (SameQuads.refl s.store.quads) hdiffers
  | failed => exact h

/-- The rest of a `deleteRule` sets no flag, so that it has to be set, or nothing is
removed. -/
theorem kept_removeFound (h : s.Kept) {rule : Store} (htimely : s.Timely (.found rule)) :
    (s.removeFound rule).Kept := by
  rcases htimely with hchanged | hgone
  · exact fun _ => hchanged
  · unfold Kept Differs removeFound
    rw [Store.difference_of_disjoint hgone]
    exact h

theorem kept_step (h : s.Kept) (htimely : s.Timely e) (hstep : s.step e = some s') :
    s'.Kept := by
  cases e with
  | addRule rule =>
    obtain rfl := Option.some.inj hstep
    exact fun _ => rfl
  | removeData data =>
    obtain rfl := Option.some.inj hstep
    exact fun _ => rfl
  | deleteRule identifier =>
    obtain rfl := Option.some.inj hstep
    exact fun _ => rfl
  | deleteRuleFromPolicy ruleID policyID =>
    obtain rfl := Option.some.inj hstep
    exact fun _ => rfl
  | backup =>
    obtain rfl := Option.some.inj hstep
    unfold backup
    split
    · exact h
    · exact h
  | found rule =>
    obtain ⟨_, rfl⟩ := guarded_eq_some.mp hstep
    exact kept_removeFound h htimely
  | renamed result =>
    obtain ⟨_, rfl⟩ := guarded_eq_some.mp hstep
    exact kept_renamed h result
  | unlinked =>
    obtain ⟨_, rfl⟩ := guarded_eq_some.mp hstep
    exact h

theorem kept_of_reaches {policies : Store} (h : Reaches step Timely (start policies) s) :
    s.Kept := by
  have hstart : (start policies).Kept := fun hdiffers => absurd (SameQuads.refl _) hdiffers
  exact h.invariant Kept hstart fun _ _ _ hkept htimely hstep => kept_step hkept htimely hstep

/-- What is removed too late is what the last backup has written. -/
theorem differs_of_late (h : s.Kept) {rule : Store} (hlate : ¬ s.Timely (.found rule)) :
    (s.removeFound rule).Differs ∧ (s.removeFound rule).dataChanged = false := by
  obtain ⟨hclean, hremoved⟩ := not_or.mp hlate
  have hsame : SameQuads s.store.quads s.written.quads := by
    by_contra hdiffers
    exact hclean (h hdiffers)
  obtain ⟨q, hq, hstored⟩ : ∃ q ∈ rule.quads, q ∈ s.store := by
    by_contra hnone
    exact hremoved fun q hq hstored => hnone ⟨q, hq, hstored⟩
  refine ⟨fun hafter => ?_, Bool.eq_false_iff.mpr hclean⟩
  have hkept : q ∈ s.store.difference rule := hafter.2 q (hsame.1 q hstored)
  exact (Store.mem_difference.mp hkept).2 hq

/-- In runs whose every deletion is timely, no policy change misses the backup. And
the first one that is late does, once all calls have settled. -/
theorem covered_exact (policies : Store) (h : Reaches step Timely (start policies) s) :
    s.Covered ∧ ∀ e s', s.step e = some s' → s'.awaited = [] → (s'.Covered ↔ s.Timely e) := by
  have hkept : s.Kept := kept_of_reaches h
  refine ⟨covered_of_kept hkept, fun e s' hstep hsettled => ⟨fun hcovered => ?_, fun htimely =>
    covered_of_kept (kept_step hkept htimely hstep)⟩⟩
  by_contra hlate
  cases e with
  | found rule =>
    obtain ⟨_, rfl⟩ := guarded_eq_some.mp hstep
    obtain ⟨hdiffers, hclean⟩ := differs_of_late hkept hlate
    exact absurd (hcovered.settled hsettled hdiffers) (by simp [hclean])
  | _ => exact hlate trivial

/-! ### What is forgotten -/

def readRule : Quad :=
  quad (.namedNode "urn:rule") (.namedNode "http://www.w3.org/ns/odrl/2/action")
    (.namedNode "http://www.w3.org/ns/odrl/2/read")

def readRules : Store := Store.ofQuads [readRule]

/-- The rule is removed, and then a backup is made. -/
def deletedRun : List CallEvent :=
  [.deleteRule "urn:rule", .found readRules, .backup, .renamed .moved, .unlinked]

/-- The backup is made while the rule is being searched. -/
def forgottenRun : List CallEvent :=
  [.addRule readRules, .backup, .deleteRule "urn:rule", .renamed .missing,
    .found readRules]

/-- The backup has what the store has. -/
theorem deletion_kept :
    ∃ s ∈ deletedRun.foldlM step (start readRules),
      s.store = Store.empty ∧ s.written = Store.empty ∧ s.Covered := by
  obtain ⟨s, hrun, hstore, hwritten⟩ : ∃ s ∈ deletedRun.foldlM step (start readRules),
      s.store = Store.empty ∧ s.written = Store.empty := by
    decide +kernel
  have hreaches : Reaches step Timely (start readRules) s := .of_events (by decide +kernel) hrun
  exact ⟨s, hrun, hstore, hwritten, (covered_exact readRules hreaches).1⟩

/-- The rule stays in the backup, and nothing says that another one is needed. -/
theorem deletion_forgotten :
    ∃ s ∈ forgottenRun.foldlM step (start Store.empty),
      s.store = Store.empty ∧ s.written = readRules ∧ s.dataChanged = false ∧
        s.awaited = [] ∧ ¬ s.Covered := by
  obtain ⟨s, hrun, hstore, hwritten, hclean, hsettled, hdiffers⟩ :
      ∃ s ∈ forgottenRun.foldlM step (start Store.empty), s.store = Store.empty ∧
        s.written = readRules ∧ s.dataChanged = false ∧ s.awaited = [] ∧ s.Differs := by
    decide +kernel
  refine ⟨s, hrun, hstore, hwritten, hclean, hsettled, fun hcovered => ?_⟩
  have hchanged : s.dataChanged = true := hcovered.settled hsettled hdiffers
  rw [hclean] at hchanged
  cases hchanged

end BackupState

end FileBackupUCRulesStorage

end UserManagedAccess.Ucp
