import Crane.Raft.WAL

/-!
# The store on disk

`FileStore` keeps the log and at most two snapshots in one directory: the snapshot in use, and, while
it is being replaced, the one before it. A file gets its name only once it is written to the end, by a
rename, so what a crash can leave behind is given by how many of the steps were taken.

Left out are the lock and identity files, permissions, links and failing system calls. The file a
received snapshot is staged in is the store's `stage`: opening removes it.
-/

namespace Crane.Raft

/-! ## The directory -/

/-- A file under a random name, which opening removes: created and not written to the end, or
    complete and not renamed. -/
inductive TemporaryFile where
  | unfinished
  | snapshot (envelope : SnapshotEnvelope)
  | wal (content : Bytes)
  deriving DecidableEq

/-- `previous` is the file `.snapshot.previous`. -/
structure Directory where
  snapshot : Option SnapshotEnvelope
  previous : Option SnapshotEnvelope
  wal : Bytes
  temporaries : List TemporaryFile
  deriving DecidableEq

def Directory.empty : Directory := ⟨none, none, [], []⟩

inductive FileStep where
  | createTemporary
  | finishTemporary (file : TemporaryFile)
  | preserveSnapshot
  | renameSnapshot (envelope : SnapshotEnvelope)
  | renameWAL (content : Bytes)
  | removePrevious
  deriving DecidableEq

def Directory.step (directory : Directory) : FileStep → Directory
  | .createTemporary => { directory with temporaries := .unfinished :: directory.temporaries }
  | .finishTemporary file => { directory with temporaries := file :: directory.temporaries.erase .unfinished }
  | .preserveSnapshot => { directory with snapshot := none, previous := directory.snapshot }
  | .renameSnapshot envelope =>
    { directory with
      snapshot := some envelope
      temporaries := directory.temporaries.erase (.snapshot envelope) }
  | .renameWAL content =>
    { directory with wal := content, temporaries := directory.temporaries.erase (.wal content) }
  | .removePrevious => { directory with previous := none }

def Directory.run (directory : Directory) (steps : List FileStep) : Directory :=
  steps.foldl Directory.step directory

/-- The steps of `persistSnapshotStateLocked`, in their order. Where the new log cannot be encoded,
    they end with the snapshot in place. -/
def persistSnapshotSteps (hadPreviousSnapshot : Bool) (envelope : SnapshotEnvelope)
    (replacement : Except RaftError Bytes) : List FileStep :=
  [.createTemporary, .finishTemporary (.snapshot envelope)] ++
    (if hadPreviousSnapshot then [.preserveSnapshot] else []) ++
    [.renameSnapshot envelope] ++
    match replacement with
    | .error _ => []
    | .ok content =>
      [.createTemporary, .finishTemporary (.wal content), .renameWAL content] ++
        if hadPreviousSnapshot then [.removePrevious] else []

section Store

variable [Hash]

/-! ## Opening -/

section Open

variable (identity : StorageIdentity) (voters : VoterSet) (snapshotLimit : Nat)

def loadSnapshotFile : Option SnapshotEnvelope → Except RaftError (Option Snapshot)
  | none => .ok none
  | some envelope =>
    match decodeSnapshotEnvelope envelope identity snapshotLimit with
    | .error _ => .error .storageCorrupt
    | .ok snapshot => .ok (some snapshot)

/-- The state of the log on top of a snapshot file, if they belong together. -/
def reconcileRecoveredSnapshot (state : RecoveredState) : Option Snapshot → Except RaftError RecoveredState
  | none => if state.snapshotBase.lastIncludedIndex ≠ 0 then .error .storageCorrupt else .ok state
  | some snapshot =>
    if snapshot.metadata.lastIncludedIndex < state.snapshotBase.lastIncludedIndex then
      .error .storageCorrupt
    else
      let reconciled : Except RaftError RecoveredState :=
        if snapshot.metadata.lastIncludedIndex = state.snapshotBase.lastIncludedIndex then
          if snapshot.metadata ≠ state.snapshotBase then .error .storageCorrupt
          else .ok { state with
            snapshot := some snapshot
            appliedIndex := max state.appliedIndex snapshot.metadata.lastIncludedIndex }
        else
          match compactRecoveredState state snapshot identity voters snapshotLimit with
          | .error _ => .error .storageCorrupt
          | .ok state => .ok state
      match reconciled with
      | .error e => .error e
      | .ok state =>
        match validateRecoveredStateWithSnapshotLimit state identity voters snapshotLimit with
        | .error _ => .error .storageCorrupt
        | .ok () => .ok state

/-- A file that is there and belongs to the log, with the state they give together. -/
def reconcileFile (state : RecoveredState) (file : Option Snapshot) : Option RecoveredState :=
  file.bind fun snapshot =>
    (reconcileRecoveredSnapshot identity voters snapshotLimit state (some snapshot)).toOption

/-- The snapshot file is tried before the one it was to replace. A log without a base needs
    neither. -/
def selectRecoveredSnapshot (state : RecoveredState) (current previous : Option Snapshot)
    (directory : Directory) : Except RaftError (RecoveredState × Directory) :=
  match reconcileFile identity voters snapshotLimit state current with
  | some recovered => .ok (recovered, { directory with previous := none })
  | none =>
    match reconcileFile identity voters snapshotLimit state previous with
    | some recovered => .ok (recovered, { directory with snapshot := directory.previous, previous := none })
    | none =>
      if state.snapshotBase.lastIncludedIndex = 0 then
        .ok (state, { directory with snapshot := none, previous := none })
      else .error .storageCorrupt

end Open

/-- The logical store is the one in memory; `poisoned` says that the outcome of a write is only
    known after a reopening. -/
structure FileStore extends MemoryStore where
  nextTxnID : Nat
  poisoned : Bool
  directory : Directory

def openFileStore (identity : StorageIdentity) (voters : VoterSet) (snapshotLimit : Nat)
    (directory : Directory) : Except RaftError FileStore := do
  if snapshotLimit > maxRaftSnapshotBytes then .error .invalidStorageState
  else
    validateRecoveredState (.fresh identity) identity voters
    let current ← loadSnapshotFile identity snapshotLimit directory.snapshot
    let previous ← loadSnapshotFile identity snapshotLimit directory.previous
    let recovered ← recoverWAL identity voters directory.wal
    let (state, directory) ← selectRecoveredSnapshot identity voters snapshotLimit recovered.state
      current previous { directory with wal := recovered.file, temporaries := [] }
    return {
      identity, voters, snapshotLimit, state
      stage := none
      nextTxnID := if recovered.lastTransaction = maxUint64 then 0 else recovered.lastTransaction + 1
      poisoned := false
      directory }

/-! ## Writing -/

namespace FileStore

def walStore (store : FileStore) : WALStore :=
  ⟨store.identity, store.voters, store.snapshotLimit, store.state, store.nextTxnID, store.directory.wal⟩

def persist (store : FileStore) (batch : PersistenceBatch) : Except RaftError FileStore :=
  if store.poisoned then .error .storageCorrupt
  else
    match store.walStore.persist batch with
    | .error e => .error e
    | .ok wal =>
      .ok { store with
        state := wal.state
        nextTxnID := wal.nextTxnID
        directory := { store.directory with wal := wal.wal } }

end FileStore

/-- The log that `prospective` is rewritten as. -/
def replacementTransaction (prospective : RecoveredState) : Except RaftError Bytes :=
  match replacementBatchForState prospective with
  | .error e => .error e
  | .ok batch => encodeWALTransaction 1 batch

namespace FileStore

/-- The steps that put `snapshot` in place of what the store has. -/
def snapshotSteps (store : FileStore) (snapshot : Snapshot) (prospective : RecoveredState) : List FileStep :=
  persistSnapshotSteps store.state.snapshot.isSome snapshot.envelope
    (replacementTransaction prospective)

def persistSnapshotStateLocked (snapshot : Snapshot) (prospective : RecoveredState) :
    EStateM RaftError FileStore Unit := do
  modify fun store => { store with directory := store.directory.run (store.snapshotSteps snapshot prospective) }
  match replacementTransaction prospective with
  | .error e =>
    modify fun store => { store with poisoned := true }
    throw e
  | .ok _ => modify fun store => { store with state := prospective, nextTxnID := 2 }

def persistSnapshot (snapshot : Snapshot) : EStateM RaftError FileStore Unit := do
  let store ← get
  if store.poisoned then throw .storageCorrupt
  else
    match compactRecoveredState store.state snapshot store.identity store.voters
        store.snapshotLimit with
    | .error e => throw e
    | .ok prospective => persistSnapshotStateLocked snapshot prospective

/-- Chunks are staged as in memory; what the last one installs goes through the same steps as a local
    snapshot. -/
def stageSnapshotChunk (request : InstallSnapshotRequest) : EStateM RaftError FileStore SnapshotStageResult := do
  let store ← get
  if store.poisoned then throw .storageCorrupt
  else
    match MemoryStore.stageSnapshotChunk request store.toMemoryStore with
    | .error e memory =>
      modify fun store => { store with stage := memory.stage }
      throw e
    | .ok result memory =>
      modify fun store => { store with stage := memory.stage }
      match result.state, result.state.bind (·.snapshot) with
      | some prospective, some snapshot =>
        persistSnapshotStateLocked snapshot prospective
        return result
      | _, _ => return result

end FileStore

end Store

end Crane.Raft
