/-
UserManagedAccess.Ucp.FileBackupUCRulesStorage — the policy storage that backs
its policies up to a file, and what a crash leaves of them.

The state is the memory of the process and the two files. An event is a policy
change, the code of `backup` between two awaits, or one step of the file
system: the rename, the creation of the file, the appending of some quads, the
unlink. The stream that is written and the unlink run at the same time, since
`backup` awaits only the latter. A file is the list of quads in it.

The timer calls `backup` again when the stream of the call before is closed,
and the blank nodes of a file keep their names.
-/
import UserManagedAccess.Rdf.Store

namespace UserManagedAccess.Ucp

open UserManagedAccess.Rdf

namespace FileBackupUCRulesStorage

/-! ## The state -/

structure WriteStream where
  /-- What was given to the writer. -/
  quads : List Quad
  /-- The file is created when the stream opens it. -/
  opened : Bool
  /-- How many of the quads are in the file. -/
  written : Nat
  deriving DecidableEq

/-- Where the last call of `backup` stands. -/
inductive Progress where
  | finished
  | beforeRename
  | renamed (removeOld : Bool)
  | writing (stream : WriteStream) (removeOld : Bool)
  deriving DecidableEq

structure StorageState where
  store : Store
  doingBackup : Bool
  dataChanged : Bool
  progress : Progress
  /-- What is at `filePath`. -/
  file : Option (List Quad)
  /-- What is at `filePath + '.old'`. -/
  old : Option (List Quad)
  /-- The policies of the last backup that was completed, or else those the
  process started with. The process does not store them. -/
  completed : List Quad

/-- The policies `initialize` reads. A file that is not there has none. -/
def initializeStore (file : Option (List Quad)) : Store := Store.ofQuads (file.getD [])

/-- A process that has started. -/
def start (file old : Option (List Quad)) : StorageState where
  store := initializeStore file
  doingBackup := false
  dataChanged := false
  progress := .finished
  file
  old
  completed := (initializeStore file).quads

/-! ## Policy changes -/

def addRule (rule : Store) (s : StorageState) : StorageState :=
  { s with dataChanged := true, store := s.store.addAll rule }

def removeData (data : Store) (s : StorageState) : StorageState :=
  { s with dataChanged := true, store := s.store.difference data }

/-- `deleteRule` up to its await. -/
def deleteRule (s : StorageState) : StorageState := { s with dataChanged := true }

/-- The rest of `deleteRule`, with the quads it has found. -/
def removeQuads (quads : List Quad) (s : StorageState) : StorageState :=
  { s with store := s.store.removeQuads quads }

/-! ## Backups -/

/-- `backup` up to the rename. -/
def backup (s : StorageState) : StorageState :=
  if s.doingBackup || !s.dataChanged then s
  else
    match s.progress with
    | .finished => { s with doingBackup := true, progress := .beforeRename }
    | _ => s

/-- The rename itself. Without a file it fails with `ENOENT`. -/
def rename (s : StorageState) : StorageState :=
  match s.progress, s.file with
  | .beforeRename, some quads =>
    { s with file := none, old := some quads, progress := .renamed true }
  | .beforeRename, none => { s with progress := .renamed false }
  | _, _ => s

/-- `backup` after the rename. Without an old file there is nothing left to
await. -/
def createWriteStream (s : StorageState) : StorageState :=
  match s.progress with
  | .renamed removeOld =>
    { s with
      dataChanged := false
      doingBackup := removeOld
      progress := .writing { quads := s.store.quads, opened := false, written := 0 } removeOld }
  | _ => s

def openFile (s : StorageState) : StorageState :=
  match s.progress with
  | .writing stream removeOld =>
    if stream.opened then s
    else { s with file := some [], progress := .writing { stream with opened := true } removeOld }
  | _ => s

/-- The next quads of the stream. -/
def append (count : Nat) (s : StorageState) : StorageState :=
  match s.progress with
  | .writing stream removeOld =>
    if stream.opened && decide (stream.written + count ≤ stream.quads.length) then
      { s with
        file := s.file.map (· ++ (stream.quads.drop stream.written).take count)
        progress := .writing { stream with written := stream.written + count } removeOld }
    else s
  | _ => s

/-- The removal of the old file, and the end of `backup`. -/
def unlink (s : StorageState) : StorageState :=
  match s.progress with
  | .writing stream true =>
    { s with old := none, doingBackup := false, progress := .writing stream false }
  | _ => s

/-- The backup is completed. -/
def close (s : StorageState) : StorageState :=
  match s.progress with
  | .writing stream false =>
    if stream.opened && decide (stream.written = stream.quads.length) then
      { s with progress := .finished, completed := stream.quads }
    else s
  | _ => s

/-! ## Runs -/

inductive Event where
  | addRule (rule : Store)
  | removeData (data : Store)
  | deleteRule
  | removeQuads (quads : List Quad)
  | backup
  | rename
  | createWriteStream
  | openFile
  | append (count : Nat)
  | unlink
  | close

/-- An event that cannot happen yet changes nothing. -/
def step (s : StorageState) : Event → StorageState
  | .addRule rule => addRule rule s
  | .removeData data => removeData data s
  | .deleteRule => deleteRule s
  | .removeQuads quads => removeQuads quads s
  | .backup => backup s
  | .rename => rename s
  | .createWriteStream => createWriteStream s
  | .openFile => openFile s
  | .append count => append count s
  | .unlink => unlink s
  | .close => close s

def run (s : StorageState) (events : List Event) : StorageState := events.foldl step s

/-! ## A crash -/

/-- The same quads, whatever their order. -/
def SameQuads (first second : List Quad) : Prop :=
  (∀ q ∈ first, q ∈ second) ∧ ∀ q ∈ second, q ∈ first

instance (first second : List Quad) : Decidable (SameQuads first second) :=
  inferInstanceAs (Decidable (_ ∧ _))

/-- What the running backup writes, or will write if nothing changes. -/
def beingWritten (s : StorageState) : Option (List Quad) :=
  match s.progress with
  | .finished => none
  | .beforeRename => some s.store.quads
  | .renamed _ => some s.store.quads
  | .writing stream _ => some stream.quads

/-- After a crash here, the policies are those of the last completed backup, or
those that were being written. -/
def Recovers (s : StorageState) : Prop :=
  SameQuads (initializeStore s.file).quads s.completed ∨
    ∃ quads ∈ beingWritten s, SameQuads (initializeStore s.file).quads quads

instance (s : StorageState) : Decidable (Recovers s) :=
  inferInstanceAs (Decidable (_ ∨ _))

/-- Where the crash does no harm: the backup has not renamed the old file yet,
or has written all of the new one; or what it has written happens to be the
last backup. -/
def Harmless (s : StorageState) : Prop :=
  match s.progress with
  | .finished => True
  | .beforeRename => True
  | .renamed _ => s.store.quads = [] ∨ s.completed = []
  | .writing stream _ =>
    stream.written = stream.quads.length ∨
      SameQuads (stream.quads.take stream.written) s.completed

end FileBackupUCRulesStorage

end UserManagedAccess.Ucp
