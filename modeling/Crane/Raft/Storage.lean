import Crane.Raft.Log
import Crane.Raft.Messages

/-!
# Snapshots and the durable store

`snapshot.go`, `storage.go` and the transaction-safe store of `memory_storage.go`. Every store
operation either changes the durable state as a whole or leaves it alone; injected faults and
the closed flag of the test store are left out.

SHA-256 is a parameter: the model only ever compares digests. A snapshot's envelope is kept as
the record of its fields; `SnapshotEnvelope.bytes` is the layout the envelope digest is taken
over. The checks of the decoder that only concern cutting these fields out of a byte string
(truncation, total length) become the one comparison of the declared with the actual length.
-/

namespace Crane.Raft

/-- The digest function. -/
class Hash where
  sum256 : Bytes → Bytes

/-! ## Snapshots -/

def snapshotEnvelopeMagic : Bytes := [82, 70, 83, 78]

structure SnapshotEnvelope where
  magic : Bytes
  formatVersion : Nat
  clusterID : Bytes
  voterFingerprint : Bytes
  metadata : SnapshotMetadata
  stateLength : Nat
  stateChecksum : Bytes
  envelopeChecksum : Bytes
  state : Bytes
  deriving DecidableEq

def SnapshotEnvelope.bytes (e : SnapshotEnvelope) : Bytes :=
  e.magic ++ bigEndian 2 e.formatVersion ++ e.clusterID ++ e.voterFingerprint ++
    bigEndian 8 e.metadata.lastIncludedIndex ++ bigEndian 8 e.metadata.lastIncludedTerm ++
    bigEndian 4 e.metadata.stateMachineSchemaVersion ++ bigEndian 8 e.stateLength ++
    e.stateChecksum ++ e.envelopeChecksum ++ e.state

/-- The envelope the digest is taken over: its own checksum field is zero. -/
def SnapshotEnvelope.zeroed (e : SnapshotEnvelope) : SnapshotEnvelope :=
  { e with envelopeChecksum := zeroChecksum }

structure Snapshot where
  metadata : SnapshotMetadata
  id : Bytes
  stateChecksum : Bytes
  state : Bytes
  envelope : SnapshotEnvelope
  deriving DecidableEq

def validateSnapshotInputs (identity : StorageIdentity) (metadata : SnapshotMetadata)
    (stateLength maximumStateBytes : Nat) : Except RaftError Unit :=
  if identity.clusterID = zeroBytes 16 ∨ identity.voterFingerprint = zeroBytes 32 then
    .error .invalidSnapshot
  else if metadata.lastIncludedIndex = 0 ∨ metadata.lastIncludedTerm = 0 ∨
      metadata.stateMachineSchemaVersion = 0 then .error .invalidSnapshot
  else if maximumStateBytes = 0 ∨ maximumStateBytes > maxRaftSnapshotBytes then
    .error .invalidSnapshot
  else if stateLength > maximumStateBytes then .error .invalidSnapshot
  else .ok ()

section Digests

variable [Hash]

def newSnapshot (identity : StorageIdentity) (metadata : SnapshotMetadata) (state : Bytes)
    (maximumStateBytes : Nat) : Except RaftError Snapshot :=
  match validateSnapshotInputs identity metadata state.length maximumStateBytes with
  | .error e => .error e
  | .ok () =>
    let blank : SnapshotEnvelope := {
      magic := snapshotEnvelopeMagic
      formatVersion := 1
      clusterID := identity.clusterID
      voterFingerprint := identity.voterFingerprint
      metadata
      stateLength := state.length
      stateChecksum := Hash.sum256 state
      envelopeChecksum := zeroChecksum
      state }
    let envelopeChecksum := Hash.sum256 blank.bytes
    .ok {
      metadata
      id := envelopeChecksum.take 16
      stateChecksum := Hash.sum256 state
      state
      envelope := { blank with envelopeChecksum } }

def decodeSnapshotEnvelope (envelope : SnapshotEnvelope) (expected : StorageIdentity)
    (maximumStateBytes : Nat) : Except RaftError Snapshot :=
  if envelope.magic ≠ snapshotEnvelopeMagic then .error .invalidSnapshot
  else if envelope.formatVersion ≠ 1 then .error .invalidSnapshot
  else if envelope.clusterID ≠ expected.clusterID ∨
      envelope.voterFingerprint ≠ expected.voterFingerprint then .error .invalidSnapshot
  else
    match validateSnapshotInputs expected envelope.metadata envelope.stateLength
        maximumStateBytes with
    | .error e => .error e
    | .ok () =>
      if envelope.stateLength ≠ envelope.state.length then .error .invalidSnapshot
      else if Hash.sum256 envelope.zeroed.bytes ≠ envelope.envelopeChecksum then
        .error .invalidSnapshot
      else if Hash.sum256 envelope.state ≠ envelope.stateChecksum then .error .invalidSnapshot
      else
        .ok {
          metadata := envelope.metadata
          id := (Hash.sum256 envelope.zeroed.bytes).take 16
          stateChecksum := Hash.sum256 envelope.state
          state := envelope.state
          envelope }

end Digests

structure SnapshotTransferMetadata where
  leaderID : Nat
  term : Nat
  transferID : Bytes
  snapshotID : Bytes
  metadata : SnapshotMetadata
  totalLength : Nat
  checksum : Bytes
  deriving DecidableEq

def snapshotTransferMetadataFor (request : InstallSnapshotRequest) : SnapshotTransferMetadata where
  leaderID := request.leaderID
  term := request.term
  transferID := request.transferID
  snapshotID := request.snapshotID
  metadata := ⟨request.lastIncludedIndex, request.lastIncludedTerm, request.stateMachineSchemaVersion⟩
  totalLength := request.totalLength
  checksum := request.checksum

/-! ## Durable state -/

structure RecoveredState where
  identity : StorageIdentity
  hardState : HardState
  snapshotBase : SnapshotMetadata
  snapshot : Option Snapshot
  appliedIndex : Nat
  entries : List Entry
  deriving DecidableEq

structure PersistenceBatch where
  hardState : Option HardState
  replaceFrom : Nat
  entries : List Entry
  snapshotBase : Option SnapshotMetadata
  snapshot : Option Snapshot
  appliedIndex : Option Nat
  deriving DecidableEq

/-- The loop over the retained entries: contiguous, valid, terms that neither fall nor pass the
    hard-state term. Returns the last index. -/
def checkRecoveredEntries (hardTerm lastIndex previousTerm : Nat) : List Entry → Except RaftError Nat
  | [] => .ok lastIndex
  | entry :: rest =>
    if lastIndex = maxUint64 then .error .invalidStorageState
    else if entry.index ≠ lastIndex + 1 then .error .invalidStorageState
    else
      match validateLogEntry entry with
      | .error _ => .error .invalidStorageState
      | .ok () =>
        if entry.term < previousTerm ∨ entry.term > hardTerm then .error .invalidStorageState
        else checkRecoveredEntries hardTerm (lastIndex + 1) entry.term rest

section Recovered

variable [Hash]

/-- The payload check: the envelope must decode to the snapshot it is stored with. -/
def validateStoredSnapshot (snapshot : Snapshot) (base : SnapshotMetadata)
    (expected : StorageIdentity) (snapshotLimit : Nat) : Except RaftError Unit :=
  if base.lastIncludedIndex = 0 ∨ snapshot.metadata ≠ base then .error .invalidStorageState
  else if snapshot.state.length > snapshotLimit then .error .invalidStorageState
  else
    match decodeSnapshotEnvelope snapshot.envelope expected snapshotLimit with
    | .error _ => .error .invalidStorageState
    | .ok decoded =>
      if decoded.id ≠ snapshot.id ∨ decoded.stateChecksum ≠ snapshot.stateChecksum then
        .error .invalidStorageState
      else .ok ()

def validateRecoveredStateWithSnapshotLimit (state : RecoveredState) (expected : StorageIdentity)
    (voters : VoterSet) (snapshotLimit : Nat) : Except RaftError Unit :=
  if expected.formatVersion ≠ 1 ∨ state.identity ≠ expected then .error .invalidStorageState
  else if state.identity.clusterID = zeroBytes 16 ∨
      state.identity.voterFingerprint ≠ voters.fingerprint then .error .invalidStorageState
  else if voters.validateLocalID state.identity.localVoterID ≠ .ok () then
    .error .invalidStorageState
  else if state.hardState.votedFor ≠ 0 ∧
      (state.hardState.term = 0 ∨ ¬ voters.contains state.hardState.votedFor) then
    .error .invalidStorageState
  else if (state.snapshotBase.lastIncludedIndex = 0) ≠ (state.snapshotBase.lastIncludedTerm = 0) then
    .error .invalidStorageState
  else if state.snapshotBase.lastIncludedTerm > state.hardState.term then
    .error .invalidStorageState
  else if state.snapshotBase.lastIncludedIndex > state.appliedIndex ∨
      state.appliedIndex > state.hardState.commitIndex then .error .invalidStorageState
  else
    match state.snapshot.elim (.ok ()) fun snapshot =>
        validateStoredSnapshot snapshot state.snapshotBase expected snapshotLimit with
    | .error e => .error e
    | .ok () =>
      match checkRecoveredEntries state.hardState.term state.snapshotBase.lastIncludedIndex
          state.snapshotBase.lastIncludedTerm state.entries with
      | .error e => .error e
      | .ok lastIndex => if state.hardState.commitIndex > lastIndex then .error .invalidStorageState else .ok ()

def validateRecoveredState (state : RecoveredState) (expected : StorageIdentity)
    (voters : VoterSet) : Except RaftError Unit :=
  validateRecoveredStateWithSnapshotLimit state expected voters maxRaftSnapshotBytes

end Recovered

def recoveredEntryAt (state : RecoveredState) (index : Nat) : Option Entry :=
  if index ≤ state.snapshotBase.lastIncludedIndex then none
  else state.entries[index - state.snapshotBase.lastIncludedIndex - 1]?

def recoveredTermAt (state : RecoveredState) (index : Nat) : Except RaftError Nat :=
  if index = 0 then .ok 0
  else if index = state.snapshotBase.lastIncludedIndex then
    .ok state.snapshotBase.lastIncludedTerm
  else
    match recoveredEntryAt state index with
    | none => .error .logUnavailable
    | some entry => .ok entry.term

/-! ## Persistence batches -/

def maxWALRecordPayloadBytes : Nat := maxRPCPayloadBytes

def maxWALTransactionBytes : Nat := maxRPCPayloadBytes

def minimumWALEntryBytes : Nat := 8 + 8 + 1 + 4

def checkedBoundedAdd (current addition maximum : Nat) : Option Nat :=
  if current > maximum ∨ addition > maximum - current then none else some (current + addition)

/-- The size of the entries record, growing entry by entry. -/
def entriesPayload (payload : Nat) : List Entry → Except RaftError Nat
  | [] => .ok payload
  | entry :: rest =>
    if entry.command.length > maxRaftCommandBytes then .error .invalidStorageState
    else
      match checkedBoundedAdd payload (minimumWALEntryBytes + entry.command.length)
          maxWALRecordPayloadBytes with
      | none => .error .invalidStorageState
      | some payload' => entriesPayload payload' rest

/-- Add one record with its 16-byte header and 4-byte checksum when `present`. -/
def addRecord (present : Bool) (payloadBytes total : Nat) : Except RaftError Nat :=
  if present then
    match checkedBoundedAdd total (16 + 4 + payloadBytes) maxWALTransactionBytes with
    | none => .error .invalidStorageState
    | some total' => .ok total'
  else .ok total

/-- The size of the transaction a batch becomes. Every transaction has a begin and a commit
    record of 12 bytes each. -/
def transactionBytes (batch : PersistenceBatch) (payload : Nat) : Except RaftError Nat := do
  let total := 2 * (16 + 12 + 4)
  let total ← addRecord batch.snapshotBase.isSome 28 total
  let total ← addRecord (batch.replaceFrom ≠ 0) 16 total
  let total ← addRecord (batch.entries ≠ []) payload total
  let total ← addRecord batch.appliedIndex.isSome 16 total
  addRecord batch.hardState.isSome 26 total

def validatePersistenceBatchBounds (batch : PersistenceBatch) : Except RaftError Unit :=
  if batch.hardState = none ∧ batch.replaceFrom = 0 ∧ batch.entries = [] ∧
      batch.snapshotBase = none ∧ batch.snapshot = none ∧ batch.appliedIndex = none then
    .error .invalidStorageState
  else if batch.replaceFrom = 0 ∧ batch.entries ≠ [] then .error .invalidStorageState
  else if ∃ snapshot ∈ batch.snapshot, batch.snapshotBase ≠ some snapshot.metadata then
    .error .invalidStorageState
  else if batch.entries.length > 65535 then .error .invalidStorageState
  else
    match if batch.entries = [] then .ok 0 else entriesPayload 10 batch.entries with
    | .error e => .error e
    | .ok payload =>
      match transactionBytes batch payload with
      | .error e => .error e
      | .ok _ => .ok ()

/-- Neither term nor commit may fall, and a vote once given in a term stays. -/
def hardStateAdvances (current next : HardState) : Bool :=
  ¬ (next.term < current.term ∨ next.commitIndex < current.commitIndex) ∧
    ¬ (next.term = current.term ∧ current.votedFor ≠ 0 ∧ next.votedFor ≠ current.votedFor)

/-- The snapshot part of a batch: move the base, keep the suffix after it where the retained log
    agrees. The flag reports whether the base moved. -/
def applySnapshotBase (current : RecoveredState) (batch : PersistenceBatch)
    (nextHardState : Option HardState) : Except RaftError (RecoveredState × Bool) :=
  match batch.snapshotBase with
  | none => .ok (current, false)
  | some base =>
    let old := current.snapshotBase
    if base.lastIncludedIndex < old.lastIncludedIndex then .error .invalidStorageState
    else if base.lastIncludedIndex = old.lastIncludedIndex ∧ base ≠ old then
      .error .invalidStorageState
    else if base.lastIncludedIndex >
        max current.hardState.commitIndex (nextHardState.elim 0 (·.commitIndex)) then
      .error .invalidStorageState
    else
      let offset := base.lastIncludedIndex - old.lastIncludedIndex
      let entries : Except RaftError (List Entry) :=
        if offset = 0 then .ok current.entries
        else
          match current.entries[offset - 1]? with
          | some entry =>
            if entry.term ≠ base.lastIncludedTerm then
              if base.lastIncludedIndex ≤ current.hardState.commitIndex then
                .error .invalidStorageState
              else .ok []
            else .ok (current.entries.drop offset)
          | none => if current.hardState.commitIndex ≠ 0 then .error .invalidStorageState else .ok []
      match entries with
      | .error e => .error e
      | .ok entries =>
        let snapshot :=
          if batch.snapshot.isSome then batch.snapshot
          else if old ≠ base then none
          else current.snapshot
        .ok ({ current with entries, snapshotBase := base, snapshot },
          decide (base.lastIncludedIndex > old.lastIncludedIndex))

/-- The log part of a batch: cut the suffix at `replaceFrom` and put the batch's entries there. -/
def applyReplacement (state : RecoveredState) (batch : PersistenceBatch)
    (snapshotAdvanced : Bool) : Except RaftError RecoveredState :=
  if batch.replaceFrom = 0 then .ok state
  else
    let baseIndex := state.snapshotBase.lastIncludedIndex
    let replacesSnapshotSuffix := snapshotAdvanced ∧ checkedNextIndex baseIndex = some batch.replaceFrom
    if batch.replaceFrom ≤ baseIndex ∨
        (batch.replaceFrom ≤ state.hardState.commitIndex ∧ ¬ replacesSnapshotSuffix) then
      .error .invalidStorageState
    else
      let lastIndex := wrapAdd baseIndex state.entries.length
      if lastIndex < baseIndex ∨ (batch.replaceFrom > lastIndex ∧
          (lastIndex = maxUint64 ∨ batch.replaceFrom ≠ lastIndex + 1)) then
        .error .invalidStorageState
      else
        let offset := batch.replaceFrom - baseIndex - 1
        if offset > state.entries.length then .error .invalidStorageState
        else if ∃ first ∈ batch.entries.head?, first.index ≠ batch.replaceFrom then
          .error .invalidStorageState
        else .ok { state with entries := state.entries.take offset ++ batch.entries }

section Apply

variable [Hash]

def applyValidatedPersistenceBatch (current : RecoveredState) (batch : PersistenceBatch)
    (expected : StorageIdentity) (voters : VoterSet) : Except RaftError RecoveredState :=
  if ∃ next ∈ batch.hardState, ¬ hardStateAdvances current.hardState next then
    .error .invalidStorageState
  else
    match applySnapshotBase current batch batch.hardState with
    | .error e => .error e
    | .ok (based, snapshotAdvanced) =>
      match applyReplacement based batch snapshotAdvanced with
      | .error e => .error e
      | .ok replaced =>
        let hardened := { replaced with hardState := batch.hardState.getD replaced.hardState }
        if ∃ applied ∈ batch.appliedIndex, applied < hardened.appliedIndex then
          .error .invalidStorageState
        else
          let prospective := { hardened with appliedIndex := batch.appliedIndex.getD hardened.appliedIndex }
          match validateRecoveredState prospective expected voters with
          | .error e => .error e
          | .ok () => .ok prospective

def applyPersistenceBatch (current : RecoveredState) (batch : PersistenceBatch)
    (expected : StorageIdentity) (voters : VoterSet) : Except RaftError RecoveredState :=
  match validatePersistenceBatchBounds batch with
  | .error e => .error e
  | .ok () => applyValidatedPersistenceBatch current batch expected voters

/-- Compact the durable log under a snapshot captured locally. -/
def compactRecoveredState (current : RecoveredState) (snapshot : Snapshot)
    (expected : StorageIdentity) (voters : VoterSet) (snapshotLimit : Nat) :
    Except RaftError RecoveredState :=
  if snapshot.state.length > snapshotLimit then .error .invalidStorageState
  else
    match decodeSnapshotEnvelope snapshot.envelope expected snapshotLimit with
    | .error _ => .error .invalidStorageState
    | .ok decoded =>
      if decoded.id ≠ snapshot.id ∨ decoded.metadata ≠ snapshot.metadata ∨
          decoded.stateChecksum ≠ snapshot.stateChecksum then .error .invalidStorageState
      else
        let metadata := snapshot.metadata
        if metadata.lastIncludedIndex ≤ current.snapshotBase.lastIncludedIndex then
          if metadata = current.snapshotBase ∧ current.snapshot.any (·.id = snapshot.id) then
            .ok current
          else .error .invalidStorageState
        else if metadata.lastIncludedIndex > current.hardState.commitIndex then
          .error .invalidStorageState
        else if recoveredTermAt current metadata.lastIncludedIndex ≠
            .ok metadata.lastIncludedTerm then .error .invalidStorageState
        else
          let offset := metadata.lastIncludedIndex - current.snapshotBase.lastIncludedIndex
          if offset > current.entries.length then .error .invalidStorageState
          else
            let prospective : RecoveredState :=
              { current with
                snapshotBase := metadata
                snapshot := some decoded
                entries := current.entries.drop offset
                appliedIndex := max current.appliedIndex metadata.lastIncludedIndex }
            match validateRecoveredStateWithSnapshotLimit prospective expected voters
                snapshotLimit with
            | .error e => .error e
            | .ok () => .ok prospective

/-- Put a snapshot received from the leader under the durable log, keeping the suffix after it
    only where the retained log has the snapshot's term at its index. -/
def installRecoveredSnapshot (current : RecoveredState) (snapshot : Snapshot)
    (expected : StorageIdentity) (voters : VoterSet) : Except RaftError RecoveredState :=
  let metadata := snapshot.metadata
  if metadata.lastIncludedIndex ≤ current.hardState.commitIndex then .error .snapshotRejected
  else
    let baseIndex := current.snapshotBase.lastIncludedIndex
    let lastIndex := wrapAdd baseIndex current.entries.length
    if lastIndex < baseIndex then .error .logOverflow
    else
      let retained : Except RaftError (List Entry) :=
        if metadata.lastIncludedIndex ≤ lastIndex then
          match recoveredTermAt current metadata.lastIncludedIndex with
          | .error e => .error e
          | .ok term =>
            if term = metadata.lastIncludedTerm then
              .ok (current.entries.drop (metadata.lastIncludedIndex - baseIndex))
            else .ok []
        else .ok []
      match retained with
      | .error e => .error e
      | .ok retained =>
        let prospective : RecoveredState :=
          { current with
            snapshotBase := metadata
            snapshot := some snapshot
            entries := retained
            hardState := { current.hardState with commitIndex := metadata.lastIncludedIndex }
            appliedIndex := max current.appliedIndex metadata.lastIncludedIndex }
        match validateRecoveredState prospective expected voters with
        | .error e => .error e
        | .ok () => .ok prospective

end Apply

/-! ## The store -/

structure MemorySnapshotStage where
  metadata : SnapshotTransferMetadata
  bytes : Bytes
  deriving DecidableEq

structure MemoryStore where
  identity : StorageIdentity
  voters : VoterSet
  snapshotLimit : Nat
  state : RecoveredState
  stage : Option MemorySnapshotStage

structure SnapshotStageResult where
  nextOffset : Nat
  done : Bool
  state : Option RecoveredState
  deriving DecidableEq

namespace MemoryStore

variable [Hash]

/-- Refuse a chunk: whatever was staged is dropped. -/
def rejectStage {α : Type} (e : RaftError) : EStateM RaftError MemoryStore α := do
  modify fun store => { store with stage := none }
  throw e

/-- The bytes staged after a chunk, or nothing where the chunk neither continues nor repeats
    them. -/
def stagedBytes (staged : Bytes) (request : InstallSnapshotRequest) : Option Bytes :=
  let stop := request.offset + request.chunk.length
  if request.offset = staged.length then some (staged ++ request.chunk)
  else if stop ≤ staged.length ∧
      (staged.drop request.offset).take request.chunk.length = request.chunk then some staged
  else none

def stageSnapshotChunk (request : InstallSnapshotRequest) :
    EStateM RaftError MemoryStore SnapshotStageResult := do
  let store ← get
  let limits := { defaultCodecLimits with maxSnapshotBytes := store.snapshotLimit }
  if validateSnapshotRequest request limits ≠ .ok () then
    rejectStage .snapshotRejected
  else
    let metadata := snapshotTransferMetadataFor request
    let current := store.stage.getD ⟨metadata, []⟩
    if store.stage = none ∧ request.offset ≠ 0 then
      throw .snapshotRejected
    else if current.metadata ≠ metadata then
      rejectStage .snapshotRejected
    else
      match stagedBytes current.bytes request with
      | none => rejectStage .snapshotRejected
      | some bytes =>
        modify fun store => { store with stage := some ⟨metadata, bytes⟩ }
        if ¬ request.done then
          return ⟨bytes.length, false, none⟩
        else if Hash.sum256 bytes ≠ request.checksum then
          rejectStage .snapshotRejected
        else
          match newSnapshot store.identity metadata.metadata bytes store.snapshotLimit with
          | .error _ => rejectStage .snapshotRejected
          | .ok snapshot =>
            if snapshot.id ≠ request.snapshotID then
              rejectStage .snapshotRejected
            else
              match installRecoveredSnapshot store.state snapshot store.identity store.voters with
              | .error e => rejectStage e
              | .ok prospective =>
                modify fun store => { store with state := prospective, stage := none }
                return ⟨bytes.length, true, some prospective⟩

def abortSnapshotStage (store : MemoryStore) : MemoryStore := { store with stage := none }

def persistSnapshot (store : MemoryStore) (snapshot : Snapshot) : Except RaftError MemoryStore :=
  match compactRecoveredState store.state snapshot store.identity store.voters
      store.snapshotLimit with
  | .error e => .error e
  | .ok prospective => .ok { store with state := prospective }

def recover (store : MemoryStore) : Except RaftError RecoveredState :=
  match validateRecoveredStateWithSnapshotLimit store.state store.identity store.voters
      store.snapshotLimit with
  | .error e => .error e
  | .ok () => .ok store.state

def persist (store : MemoryStore) (batch : PersistenceBatch) : Except RaftError MemoryStore :=
  match validatePersistenceBatchBounds batch with
  | .error e => .error e
  | .ok () =>
    if ∃ snapshot ∈ batch.snapshot, snapshot.state.length > store.snapshotLimit then
      .error .invalidStorageState
    else
      match applyValidatedPersistenceBatch store.state batch store.identity store.voters with
      | .error e => .error e
      | .ok prospective => .ok { store with state := prospective }

end MemoryStore

end Crane.Raft
