/-
UserManagedAccess.Ucp.FileBackupTheorems — which crashes a backup survives.

A backup is a sequence of events (the rename, the quads that are written one after
the other, the removal of the old file), which changes of the policies may come in
between. `Aligned` says for each point of it what the file and the old file hold;
`aligned_step` keeps that, one lemma for each event, and a crash is then compared
with what a new process reads.

* `aligned_run` — what the file holds at each point of a backup;
* `recovers_exact` — the policies are recovered exactly where the crash does
  no harm;
* `backup_lost` — crashes that lose a prohibition, or everything.

Writes reach the disk in their order, and a crash comes between two events. Events
and policies are arbitrary otherwise.
-/
import Mathlib.Data.List.Perm.Subperm
import UserManagedAccess.Ucp.FileBackupUCRulesStorage

namespace UserManagedAccess.Ucp.FileBackupUCRulesStorage

open UserManagedAccess.Rdf

/-! ## The same quads -/

theorem SameQuads.refl (quads : List Quad) : SameQuads quads quads :=
  ⟨fun _ h => h, fun _ h => h⟩

theorem SameQuads.symm {first second : List Quad} (h : SameQuads first second) :
    SameQuads second first :=
  ⟨h.2, h.1⟩

theorem SameQuads.trans {first second third : List Quad} (h : SameQuads first second)
    (h' : SameQuads second third) : SameQuads first third :=
  ⟨fun q hq => h'.1 q (h.1 q hq), fun q hq => h.2 q (h'.2 q hq)⟩

theorem sameQuads_nil {quads : List Quad} : SameQuads [] quads ↔ quads = [] := by
  constructor
  · intro h
    exact List.eq_nil_iff_forall_not_mem.mpr fun q hq => List.not_mem_nil (h.2 q hq)
  · rintro rfl
    exact SameQuads.refl []

/-- The first quads of a list without repetitions are all of them only if
there are no others. -/
theorem sameQuads_take {quads : List Quad} (hnodup : quads.Nodup) {n : Nat}
    (hn : n ≤ quads.length) : SameQuads (quads.take n) quads ↔ n = quads.length := by
  constructor
  · intro h
    have hlength : quads.length ≤ (quads.take n).length :=
      (List.subperm_of_subset hnodup fun q hq => h.2 q hq).length_le
    rw [List.length_take] at hlength
    omega
  · rintro rfl
    rw [List.take_length]
    exact SameQuads.refl quads

/-- A process that starts has the quads of the file. -/
theorem sameQuads_initializeStore (file : Option (List Quad)) :
    SameQuads (initializeStore file).quads (file.getD []) :=
  ⟨fun _ hq => Store.mem_ofQuads.mp hq, fun _ hq => Store.mem_ofQuads.mpr hq⟩

theorem sameQuads_read {file : Option (List Quad)} {quads : List Quad} :
    SameQuads (initializeStore file).quads quads ↔ SameQuads (file.getD []) quads :=
  ⟨(sameQuads_initializeStore file).symm.trans, (sameQuads_initializeStore file).trans⟩

/-! ## The file during a backup -/

/-- What a stream has written is in the file. -/
structure WriteStream.Aligned (stream : WriteStream) (file : Option (List Quad)) : Prop where
  nodup : stream.quads.Nodup
  closed : stream.opened = false → file = none ∧ stream.written = 0
  opened : stream.opened = true → file = some (stream.quads.take stream.written)
  bounded : stream.written ≤ stream.quads.length

theorem WriteStream.Aligned.read {stream : WriteStream} {file : Option (List Quad)}
    (h : stream.Aligned file) : file.getD [] = stream.quads.take stream.written := by
  cases hopened : stream.opened with
  | false =>
    obtain ⟨hfile, hwritten⟩ := h.closed hopened
    rw [hfile, hwritten]
    rfl
  | true =>
    rw [h.opened hopened]
    rfl

def Aligned (s : StorageState) : Prop :=
  match s.progress with
  | .finished => SameQuads (s.file.getD []) s.completed
  | .beforeRename => SameQuads (s.file.getD []) s.completed
  | .renamed _ => s.file = none
  | .writing stream _ => stream.Aligned s.file

theorem aligned_renamed {s : StorageState} {removeOld : Bool}
    (hprogress : s.progress = .renamed removeOld) : Aligned s ↔ s.file = none := by
  simp [Aligned, hprogress]

theorem aligned_writing {s : StorageState} {stream : WriteStream} {removeOld : Bool}
    (hprogress : s.progress = .writing stream removeOld) :
    Aligned s ↔ stream.Aligned s.file := by
  simp [Aligned, hprogress]

theorem aligned_start (file old : Option (List Quad)) : Aligned (start file old) :=
  (sameQuads_initializeStore file).symm

theorem aligned_backup {s : StorageState} (h : Aligned s) : Aligned (backup s) := by
  unfold backup
  split
  · exact h
  · split
    · rename_i hprogress
      simpa [Aligned, hprogress] using h
    · exact h

theorem aligned_rename {s : StorageState} (h : Aligned s) : Aligned (rename s) := by
  unfold rename
  split
  · rfl
  · rename_i hfile
    exact hfile
  · exact h

theorem aligned_createWriteStream {s : StorageState} (h : Aligned s) :
    Aligned (createWriteStream s) := by
  unfold createWriteStream
  split
  · rename_i removeOld hprogress
    have hfile : s.file = none := (aligned_renamed hprogress).mp h
    exact
      { nodup := s.store.nodup
        closed := fun _ => ⟨hfile, rfl⟩
        opened := fun hopened => absurd hopened Bool.false_ne_true
        bounded := Nat.zero_le _ }
  · exact h

theorem aligned_openFile {s : StorageState} (h : Aligned s) : Aligned (openFile s) := by
  unfold openFile
  split
  · rename_i stream removeOld hprogress
    have hstream : stream.Aligned s.file := (aligned_writing hprogress).mp h
    split
    · exact h
    · rename_i hopened
      have hwritten : stream.written = 0 :=
        (hstream.closed (Bool.eq_false_iff.mpr hopened)).2
      exact
        { nodup := hstream.nodup
          closed := fun hclosed => absurd hclosed.symm Bool.false_ne_true
          opened := fun _ => by simp [hwritten]
          bounded := hstream.bounded }
  · exact h

theorem aligned_append {s : StorageState} (h : Aligned s) (count : Nat) :
    Aligned (append count s) := by
  unfold append
  split
  · rename_i stream removeOld hprogress
    have hstream : stream.Aligned s.file := (aligned_writing hprogress).mp h
    split
    · rename_i hguard
      obtain ⟨hopened, hbound⟩ := Bool.and_eq_true_iff.mp hguard
      have hfile : s.file = some (stream.quads.take stream.written) := hstream.opened hopened
      exact
        { nodup := hstream.nodup
          closed := fun hclosed => absurd (hclosed.symm.trans hopened) Bool.false_ne_true
          opened := fun _ => by
            show s.file.map _ = _
            rw [hfile, List.take_add]
            rfl
          bounded := of_decide_eq_true hbound }
    · exact h
  · exact h

theorem aligned_unlink {s : StorageState} (h : Aligned s) : Aligned (unlink s) := by
  unfold unlink
  split
  · rename_i stream hprogress
    exact (aligned_writing hprogress).mp h
  · exact h

theorem aligned_close {s : StorageState} (h : Aligned s) : Aligned (close s) := by
  unfold close
  split
  · rename_i stream hprogress
    have hstream : stream.Aligned s.file := (aligned_writing hprogress).mp h
    split
    · rename_i hguard
      obtain ⟨hopened, hwritten⟩ := Bool.and_eq_true_iff.mp hguard
      show SameQuads (s.file.getD []) stream.quads
      rw [hstream.read]
      exact (sameQuads_take hstream.nodup hstream.bounded).mpr (of_decide_eq_true hwritten)
    · exact h
  · exact h

/-- One event. The policy changes leave the file and the backup alone. -/
theorem aligned_step {s : StorageState} (h : Aligned s) (event : Event) :
    Aligned (step s event) := by
  cases event with
  | addRule rule => exact h
  | removeData data => exact h
  | deleteRule => exact h
  | removeQuads quads => exact h
  | backup => exact aligned_backup h
  | rename => exact aligned_rename h
  | createWriteStream => exact aligned_createWriteStream h
  | openFile => exact aligned_openFile h
  | append count => exact aligned_append h count
  | unlink => exact aligned_unlink h
  | close => exact aligned_close h

theorem aligned_run {s : StorageState} (h : Aligned s) (events : List Event) :
    Aligned (run s events) := by
  induction events generalizing s with
  | nil => exact h
  | cons event events ih => exact ih (aligned_step h event)

/-! ## Crashes -/

theorem recovers_of_aligned {s : StorageState} (h : Aligned s) : Recovers s ↔ Harmless s := by
  unfold Recovers
  simp only [sameQuads_read]
  cases hprogress : s.progress with
  | finished =>
    have hfile : SameQuads (s.file.getD []) s.completed := by simpa [Aligned, hprogress] using h
    simp [Harmless, hprogress, hfile]
  | beforeRename =>
    have hfile : SameQuads (s.file.getD []) s.completed := by simpa [Aligned, hprogress] using h
    simp [Harmless, hprogress, hfile]
  | renamed removeOld =>
    have hfile : s.file = none := (aligned_renamed hprogress).mp h
    simp [Harmless, hprogress, hfile, beingWritten, sameQuads_nil, or_comm]
  | writing stream removeOld =>
    have hstream : stream.Aligned s.file := (aligned_writing hprogress).mp h
    simp [Harmless, hprogress, beingWritten, hstream.read,
      sameQuads_take hstream.nodup hstream.bounded, or_comm]

/-- After a crash at any point of any run, a new process has the policies of
the last completed backup, or those that were being written, exactly where the
crash does no harm. -/
theorem recovers_exact (file old : Option (List Quad)) (events : List Event) :
    Recovers (run (start file old) events) ↔ Harmless (run (start file old) events) :=
  recovers_of_aligned (aligned_run (aligned_start file old) events)

/-! ### What is lost -/

def permissionQuad : Quad :=
  quad (.namedNode "urn:policy") (.namedNode "http://www.w3.org/ns/odrl/2/permission")
    (.namedNode "urn:read")

def prohibitionQuad : Quad :=
  quad (.namedNode "urn:policy") (.namedNode "http://www.w3.org/ns/odrl/2/prohibition")
    (.namedNode "urn:write")

/-- A backup of both, after something has changed. -/
def backupEvents : List Event := [.deleteRule, .backup, .rename, .createWriteStream]

/-- The first crash keeps the permission without the prohibition, and the
second one leaves neither of the files. -/
theorem backup_lost :
    ¬ Recovers (run (start (some [permissionQuad, prohibitionQuad]) none)
        (backupEvents ++ [.openFile, .append 1])) ∧
      (initializeStore (run (start (some [permissionQuad, prohibitionQuad]) none)
        (backupEvents ++ [.openFile, .append 1])).file).quads = [permissionQuad] ∧
      ¬ Recovers (run (start (some [permissionQuad, prohibitionQuad]) none)
        (backupEvents ++ [.unlink])) ∧
      (run (start (some [permissionQuad, prohibitionQuad]) none)
        (backupEvents ++ [.unlink])).old = none := by
  decide +kernel

end UserManagedAccess.Ucp.FileBackupUCRulesStorage
