/-
UserManagedAccess.Ucp.DirectoryUCRulesStorage — the policy storage that reads the files
of a directory when it is first asked for its policies.

A call of `getStore` awaits the names of the files, and then one file after the other;
`removeData` calls it and goes on when it is through. In between, other calls may run,
all of them on the same store. A directory is the list of its files, and a file has the
same quads each time it is read. Any of the reads may fail, and its call with it.

* `step` — the events of a run, and what they do;
* `Sound` — what is removed stays removed, and what `getStore` returns is complete;
* `sound_iff` — exactly where no call reads a file from which something was removed;
* `removed_again` — two calls that read the files at the same time.
-/
import UserManagedAccess.Lib.Transitions
import UserManagedAccess.Rdf.Store

namespace UserManagedAccess.Ucp

open UserManagedAccess.Lib UserManagedAccess.Rdf

namespace DirectoryUCRulesStorage

/-! ## The storage and its calls -/

/-- What calls `getStore`: somebody, or `removeData`. -/
inductive Caller where
  | getStore
  | removeData (data : Store)
  deriving DecidableEq

/-- A call that has not settled, by what it awaits. -/
inductive Pending where
  | readdir (caller : Caller)
  | readFile (caller : Caller) (file : Store) (files : List Store)
  /-- `removeData`, when `getStore` is through. -/
  | removing (data : Store)
  deriving DecidableEq

/-- What `getStore` returned, and what was due then. -/
structure Returned where
  store : Store
  due : Store

/-- The last three fields are not part of the storage. They tell what has happened. -/
structure DirectoryState where
  store : Store
  filesRead : Bool
  pending : List Pending
  returned : List Returned
  /-- The quads of the files and of the calls of `addRule`, without those that were
  removed later. -/
  due : Store
  /-- The quads that were removed, without those that were added later. -/
  removed : Store

/-- A storage that is new. -/
def start (files : List Store) : DirectoryState where
  store := Store.empty
  filesRead := false
  pending := []
  returned := []
  due := files.foldl Store.addAll Store.empty
  removed := Store.empty

inductive DirectoryEvent where
  | getStore
  | addRule (rule : Store)
  | removeData (data : Store)
  /-- A call gets what it awaits. -/
  | resume (call : Pending)
  /-- A read fails, or a file cannot be parsed. -/
  | fail (call : Pending)

/-! ## What the calls do -/

namespace DirectoryState

/-- `getStore` returns. -/
def returnTo (caller : Caller) (s : DirectoryState) : DirectoryState :=
  match caller with
  | .getStore => { s with returned := s.returned ++ [{ store := s.store, due := s.due }] }
  | .removeData data => { s with pending := s.pending ++ [.removing data] }

def getStore (caller : Caller) (s : DirectoryState) : DirectoryState :=
  if s.filesRead then s.returnTo caller
  else { s with pending := s.pending ++ [.readdir caller] }

/-- The loop of `getStore`, up to its next await or its end. -/
def readFiles (caller : Caller) (s : DirectoryState) : List Store → DirectoryState
  | [] => { s with filesRead := true }.returnTo caller
  | file :: files => { s with pending := s.pending ++ [.readFile caller file files] }

def addRule (rule : Store) (s : DirectoryState) : DirectoryState :=
  { s with
    store := s.store.addAll rule
    due := s.due.addAll rule
    removed := s.removed.difference rule }

/-- `removeData` after its await. -/
def removeQuads (data : Store) (s : DirectoryState) : DirectoryState :=
  { s with
    store := s.store.difference data
    due := s.due.difference data
    removed := s.removed.addAll data }

def settle (call : Pending) (s : DirectoryState) : DirectoryState :=
  { s with pending := s.pending.erase call }

def resume (files : List Store) (s : DirectoryState) : Pending → DirectoryState
  | .readdir caller => s.readFiles caller files
  | .readFile caller file rest => { s with store := s.store.addAll file }.readFiles caller rest
  | .removing data => s.removeQuads data

def step (files : List Store) (s : DirectoryState) : DirectoryEvent → Option DirectoryState
  | .getStore => some (s.getStore .getStore)
  | .addRule rule => some (s.addRule rule)
  | .removeData data => some (s.getStore (.removeData data))
  | .resume call =>
    if call ∈ s.pending then some ((s.settle call).resume files call) else none
  | .fail (.removing _) => none
  | .fail call => if call ∈ s.pending then some (s.settle call) else none

/-! ## Soundness -/

structure Sound (s : DirectoryState) : Prop where
  removed : ∀ q ∈ s.removed.quads, q ∉ s.store
  complete : ∀ r ∈ s.returned, ∀ q ∈ r.due.quads, q ∈ r.store

/-- No file is read from which something was removed that was not added later. -/
def Fresh (s : DirectoryState) : DirectoryEvent → Prop
  | .resume (.readFile caller file files) =>
    .readFile caller file files ∈ s.pending → ∀ q ∈ file.quads, q ∉ s.removed
  | _ => True

/-! ## What is due is in the store -/

variable {files : List Store} {s s' : DirectoryState} {e : DirectoryEvent}

/-- What is due of these files is in the store. -/
def Brought (s : DirectoryState) (files : List Store) : Prop :=
  ∀ file ∈ files, ∀ q ∈ file.quads, q ∈ s.due → q ∈ s.store

structure Loading (files : List Store) (s : DirectoryState) : Prop where
  /-- A call has read a first part of the files. -/
  reading : ∀ caller file rest, .readFile caller file rest ∈ s.pending →
    ∃ read, read ++ file :: rest = files ∧ s.Brought read
  loaded : s.filesRead = true → ∀ q ∈ s.due.quads, q ∈ s.store
  /-- What is not in the store yet is in a file. -/
  missing : ∀ q ∈ s.due.quads, q ∈ s.store ∨ ∃ file ∈ files, q ∈ file
  complete : ∀ r ∈ s.returned, ∀ q ∈ r.due.quads, q ∈ r.store

theorem loading_start (files : List Store) : Loading files (start files) := by
  constructor
  · intro caller file rest hpending
    cases hpending
  · intro hread
    cases hread
  · intro q hq
    rcases Store.mem_foldl_addAll.mp hq with hempty | hfile
    · exact absurd hempty (Store.not_mem_empty q)
    · exact Or.inr hfile
  · intro r hr
    cases hr

theorem loading_settle (h : Loading files s) (call : Pending) : Loading files (s.settle call) :=
  { h with reading := fun caller file rest hpending =>
      h.reading caller file rest (List.mem_of_mem_erase hpending) }

/-- Another call awaits something that is not a file. -/
theorem loading_await (h : Loading files s) {call : Pending}
    (hcall : ∀ caller file rest, call ≠ .readFile caller file rest) :
    Loading files { s with pending := s.pending ++ [call] } := by
  refine { h with reading := fun caller file rest hpending => ?_ }
  rcases List.mem_append.mp hpending with hpending | hpending
  · exact h.reading caller file rest hpending
  · exact absurd (List.mem_singleton.mp hpending).symm (hcall caller file rest)

theorem loading_returnTo (h : Loading files s) (hread : s.filesRead = true) (caller : Caller) :
    Loading files (s.returnTo caller) := by
  cases caller with
  | getStore =>
    refine { h with complete := fun r hr => ?_ }
    rcases List.mem_append.mp hr with hr | hr
    · exact h.complete r hr
    · rw [List.mem_singleton.mp hr]
      exact h.loaded hread
  | removeData data =>
    refine loading_await h fun caller file rest heq => ?_
    cases heq

theorem loading_getStore (h : Loading files s) (caller : Caller) :
    Loading files (s.getStore caller) := by
  unfold getStore
  split
  · rename_i hread
    exact loading_returnTo h hread caller
  · refine loading_await h fun caller file rest heq => ?_
    cases heq

/-- A call that has read some files, and has the others before it. -/
theorem loading_readFiles (h : Loading files s) {read rest : List Store}
    (hfiles : read ++ rest = files) (hbrought : s.Brought read) (caller : Caller) :
    Loading files (s.readFiles caller rest) := by
  cases rest with
  | nil =>
    rw [List.append_nil] at hfiles
    have hall : ∀ q ∈ s.due.quads, q ∈ s.store := by
      intro q hq
      rcases h.missing q hq with hstore | ⟨file, hfile, hmem⟩
      · exact hstore
      · exact hbrought file (hfiles ▸ hfile) q hmem hq
    have hread : Loading files { s with filesRead := true } := { h with loaded := fun _ => hall }
    exact loading_returnTo hread rfl caller
  | cons file rest =>
    refine { h with reading := fun caller' file' rest' hpending => ?_ }
    rcases List.mem_append.mp hpending with hpending | hpending
    · exact h.reading caller' file' rest' hpending
    · cases List.mem_singleton.mp hpending
      exact ⟨read, hfiles, hbrought⟩

/-- The store has grown, and nothing more is due. -/
theorem loading_grow (h : Loading files s) (file : Store) :
    Loading files { s with store := s.store.addAll file } where
  reading caller file' rest hpending := by
    obtain ⟨read, hfiles, hbrought⟩ := h.reading caller file' rest hpending
    exact ⟨read, hfiles, fun f hf q hq hdue =>
      Store.mem_addAll.mpr (Or.inl (hbrought f hf q hq hdue))⟩
  loaded hread q hq := Store.mem_addAll.mpr (Or.inl (h.loaded hread q hq))
  missing q hq := (h.missing q hq).imp_left fun hstore => Store.mem_addAll.mpr (Or.inl hstore)
  complete := h.complete

theorem loading_addRule (h : Loading files s) (rule : Store) :
    Loading files (s.addRule rule) where
  reading caller file rest hpending := by
    obtain ⟨read, hfiles, hbrought⟩ := h.reading caller file rest hpending
    refine ⟨read, hfiles, fun f hf q hq hdue => ?_⟩
    exact Store.mem_addAll.mpr ((Store.mem_addAll.mp hdue).imp_left (hbrought f hf q hq))
  loaded hread q hq := Store.mem_addAll.mpr ((Store.mem_addAll.mp hq).imp_left (h.loaded hread q))
  missing q hq := by
    rcases Store.mem_addAll.mp hq with hdue | hrule
    · exact (h.missing q hdue).imp_left fun hstore => Store.mem_addAll.mpr (Or.inl hstore)
    · exact Or.inl (Store.mem_addAll.mpr (Or.inr hrule))
  complete := h.complete

theorem loading_removeQuads (h : Loading files s) (data : Store) :
    Loading files (s.removeQuads data) where
  reading caller file rest hpending := by
    obtain ⟨read, hfiles, hbrought⟩ := h.reading caller file rest hpending
    refine ⟨read, hfiles, fun f hf q hq hdue => ?_⟩
    obtain ⟨hdue, hdata⟩ := Store.mem_difference.mp hdue
    exact Store.mem_difference.mpr ⟨hbrought f hf q hq hdue, hdata⟩
  loaded hread q hq := by
    obtain ⟨hdue, hdata⟩ := Store.mem_difference.mp hq
    exact Store.mem_difference.mpr ⟨h.loaded hread q hdue, hdata⟩
  missing q hq := by
    obtain ⟨hdue, hdata⟩ := Store.mem_difference.mp hq
    exact (h.missing q hdue).imp_left fun hstore => Store.mem_difference.mpr ⟨hstore, hdata⟩
  complete := h.complete

theorem loading_resume (h : Loading files s) {call : Pending} (hcall : call ∈ s.pending) :
    Loading files ((s.settle call).resume files call) := by
  have hsettled := loading_settle h call
  cases call with
  | readdir caller =>
    exact loading_readFiles hsettled rfl (fun file hfile => absurd hfile List.not_mem_nil) caller
  | readFile caller file rest =>
    obtain ⟨read, hfiles, hbrought⟩ := h.reading caller file rest hcall
    have hrest : (read ++ [file]) ++ rest = files := by simpa using hfiles
    refine loading_readFiles (loading_grow hsettled file) hrest (fun f hf q hq hdue => ?_) caller
    rcases List.mem_append.mp hf with hf | hf
    · exact Store.mem_addAll.mpr (Or.inl (hbrought f hf q hq hdue))
    · exact Store.mem_addAll.mpr (Or.inr (List.mem_singleton.mp hf ▸ hq))
  | removing data => exact loading_removeQuads hsettled data

theorem loading_step (h : Loading files s) (hstep : s.step files e = some s') :
    Loading files s' := by
  cases e with
  | getStore =>
    obtain rfl := Option.some.inj hstep
    exact loading_getStore h .getStore
  | addRule rule =>
    obtain rfl := Option.some.inj hstep
    exact loading_addRule h rule
  | removeData data =>
    obtain rfl := Option.some.inj hstep
    exact loading_getStore h (.removeData data)
  | resume call =>
    obtain ⟨hcall, rfl⟩ := guarded_eq_some.mp hstep
    exact loading_resume h hcall
  | fail call =>
    cases call with
    | removing data => cases hstep
    | readdir caller | readFile caller file rest =>
      obtain ⟨_, rfl⟩ := guarded_eq_some.mp hstep
      exact loading_settle h _

/-! ## What is removed is not in the store -/

def Removed (s : DirectoryState) : Prop := ∀ q ∈ s.removed.quads, q ∉ s.store

/-- Neither awaiting nor returning changes the policies. -/
theorem policies_returnTo (caller : Caller) :
    (s.returnTo caller).store = s.store ∧ (s.returnTo caller).removed = s.removed := by
  cases caller <;> exact ⟨rfl, rfl⟩

theorem policies_getStore (caller : Caller) :
    (s.getStore caller).store = s.store ∧ (s.getStore caller).removed = s.removed := by
  unfold getStore
  split
  · exact policies_returnTo caller
  · exact ⟨rfl, rfl⟩

theorem policies_readFiles (s : DirectoryState) (caller : Caller) (rest : List Store) :
    (s.readFiles caller rest).store = s.store ∧
      (s.readFiles caller rest).removed = s.removed := by
  cases rest with
  | nil => exact policies_returnTo caller
  | cons file rest => exact ⟨rfl, rfl⟩

/-- A file is read. -/
theorem policies_readFile (files : List Store) (s : DirectoryState) (caller : Caller)
    (file : Store) (rest : List Store) :
    (s.resume files (.readFile caller file rest)).store = s.store.addAll file ∧
      (s.resume files (.readFile caller file rest)).removed = s.removed :=
  policies_readFiles { s with store := s.store.addAll file } caller rest

theorem removed_of_same (h : s.Removed) (hsame : s'.store = s.store ∧ s'.removed = s.removed) :
    s'.Removed := by
  unfold Removed
  rw [hsame.1, hsame.2]
  exact h

/-- Only reading a file can bring back what was removed. -/
theorem removed_step (h : s.Removed) (hstep : s.step files e = some s') :
    s'.Removed ↔ s.Fresh e := by
  cases e with
  | getStore =>
    obtain rfl := Option.some.inj hstep
    exact ⟨fun _ => trivial, fun _ => removed_of_same h (policies_getStore _)⟩
  | addRule rule =>
    obtain rfl := Option.some.inj hstep
    refine ⟨fun _ => trivial, fun _ q hq hstore => ?_⟩
    obtain ⟨hremoved, hrule⟩ := Store.mem_difference.mp hq
    rcases Store.mem_addAll.mp hstore with hbefore | hadded
    · exact h q hremoved hbefore
    · exact hrule hadded
  | removeData data =>
    obtain rfl := Option.some.inj hstep
    exact ⟨fun _ => trivial, fun _ => removed_of_same h (policies_getStore _)⟩
  | fail call =>
    cases call with
    | removing data => cases hstep
    | readdir caller | readFile caller file rest =>
      obtain ⟨_, rfl⟩ := guarded_eq_some.mp hstep
      exact ⟨fun _ => trivial, fun _ => removed_of_same h ⟨rfl, rfl⟩⟩
  | resume call =>
    obtain ⟨hcall, rfl⟩ := guarded_eq_some.mp hstep
    cases call with
    | readdir caller =>
      exact ⟨fun _ => trivial, fun _ => removed_of_same h (policies_readFiles _ caller files)⟩
    | removing data =>
      refine ⟨fun _ => trivial, fun _ q hq hstore => ?_⟩
      obtain ⟨hbefore, hdata⟩ := Store.mem_difference.mp hstore
      rcases Store.mem_addAll.mp hq with hremoved | hnew
      · exact h q hremoved hbefore
      · exact hdata hnew
    | readFile caller file rest =>
      obtain ⟨hstore, hremoved⟩ :=
        policies_readFile files (s.settle (.readFile caller file rest)) caller file rest
      unfold Removed
      rw [hstore, hremoved]
      constructor
      · exact fun hnone _ q hq hmem => hnone q hmem (Store.mem_addAll.mpr (Or.inr hq))
      · intro hfresh q hmem hq
        rcases Store.mem_addAll.mp hq with hbefore | hfile
        · exact h q hmem hbefore
        · exact hfresh hcall q hfile hmem

/-- What does not happen reads no file. -/
theorem fresh_of_none (h : s.step files e = none) : s.Fresh e := by
  cases e with
  | resume call =>
    cases call with
    | readFile caller file rest =>
      intro hcall
      rw [step, if_pos hcall] at h
      cases h
    | _ => trivial
  | _ => trivial

theorem sound_start (files : List Store) : (start files).Sound :=
  ⟨fun _ hq => absurd hq List.not_mem_nil, (loading_start files).complete⟩

/-- In every run over any files, every state is sound if and only if no call reads a
file from which something was removed in the meantime. -/
theorem sound_iff (files : List Store) (events : List DirectoryEvent) :
    AllAllowed (step files) (fun s e => ∀ s' ∈ s.step files e, s'.Sound) (start files) events ↔
      AllAllowed (step files) Fresh (start files) events := by
  refine allAllowed_congr_of_invariant (fun s => Loading files s ∧ s.Removed) ?_ ?_ ?_
  · intro s e ⟨hloading, hremoved⟩
    constructor
    · intro hsound
      cases hstep : s.step files e with
      | none => exact fresh_of_none hstep
      | some s' => exact (removed_step hremoved hstep).mp (hsound s' hstep).removed
    · intro hfresh s' hstep
      exact ⟨(removed_step hremoved hstep).mpr hfresh, (loading_step hloading hstep).complete⟩
  · intro s e s' ⟨hloading, _⟩ hsound hstep
    exact ⟨loading_step hloading hstep, (hsound s' hstep).removed⟩
  · exact ⟨loading_start files, fun q hq => absurd hq List.not_mem_nil⟩

/-! ### What comes back -/

def permissionQuad : Quad :=
  quad (.namedNode "urn:policy") (.namedNode "http://www.w3.org/ns/odrl/2/permission")
    (.namedNode "urn:read")

def permissionFile : Store := Store.ofQuads [permissionQuad]

/-- Two calls read the only file at the same time. One of them is to remove the quad in
it, and has done so before the other one has got the file. -/
def overlappingRun : List DirectoryEvent :=
  [.removeData permissionFile, .getStore,
    .resume (.readdir (.removeData permissionFile)), .resume (.readdir .getStore),
    .resume (.readFile (.removeData permissionFile) permissionFile []),
    .resume (.removing permissionFile),
    .resume (.readFile .getStore permissionFile [])]

theorem removed_again :
    (∃ s ∈ overlappingRun.foldlM (step [permissionFile]) (start [permissionFile]),
      permissionQuad ∈ s.removed ∧ permissionQuad ∈ s.store ∧ s.pending = []) ∧
    ¬ AllAllowed (step [permissionFile])
      (fun s e => ∀ s' ∈ s.step [permissionFile] e, s'.Sound) (start [permissionFile])
      overlappingRun := by
  obtain ⟨s, hrun, hremoved, hstore, hsettled⟩ :
      ∃ s ∈ overlappingRun.foldlM (step [permissionFile]) (start [permissionFile]),
        permissionQuad ∈ s.removed ∧ permissionQuad ∈ s.store ∧ s.pending = [] := by
    decide +kernel
  refine ⟨⟨s, hrun, hremoved, hstore, hsettled⟩, fun h => ?_⟩
  have hsound : s.Sound := h.of_foldlM (sound_start _) hrun
  exact hsound.removed permissionQuad hremoved hstore

end DirectoryState

end DirectoryUCRulesStorage

end UserManagedAccess.Ucp
