import Crane.Raft.Storage
import Crane.Wire.Codec

/-!
# The write-ahead log

`wal.go` and the parts of `store_lock_unix.go` that append to the log and read it back. A persistence
batch becomes one transaction: a begin record, one record for each effect in a fixed order, a commit
record. Every record has a header with its length and a CRC-32C over header and payload. The log file
is a byte string; what can be in it after a crash is the transactions that were written out and the
start of one more.

Reading scans the file from its start. A record that is not there as a whole ends the scan, and what
was read of its transaction is cut off; everything else that is out of place is corruption.

Calls into the operating system that can fail at any time are left out: a write either happens as a
whole or the process stops in the middle of it.
-/

namespace Crane.Raft

/-! ## Records -/

def walRecordHeaderBytes : Nat := 16

def walRecordChecksumBytes : Nat := 4

def boundaryPayloadBytes : Nat := 12

def hardStatePayloadBytes : Nat := 26

def truncatePayloadBytes : Nat := 16

def snapshotPayloadBytes : Nat := 28

/-- The largest file offset, and the largest `int`. -/
def maxInt64 : Nat := 2 ^ 63 - 1

def walMagic : Bytes := [82, 70, 87, 76]

/-- One bit of the CRC-32C (Castagnoli, reflected). -/
def crcBit (crc : UInt32) : UInt32 := if crc &&& 1 = 1 then (crc >>> 1) ^^^ 0x82F63B78 else crc >>> 1

def crcByte (crc : UInt32) (byte : UInt8) : UInt32 :=
  crcBit (crcBit (crcBit (crcBit (crcBit (crcBit (crcBit (crcBit (crc ^^^ byte.toUInt32))))))))

def crc32c (bytes : Bytes) : UInt32 := bytes.foldl crcByte 0xFFFFFFFF ^^^ 0xFFFFFFFF

inductive WALRecordType where
  | transactionBegin
  | truncate
  | entries
  | snapshotBase
  | appliedIndex
  | hardState
  | transactionCommit
  deriving DecidableEq

def WALRecordType.code : WALRecordType → UInt8
  | .transactionBegin => 1
  | .truncate => 2
  | .entries => 3
  | .snapshotBase => 4
  | .appliedIndex => 5
  | .hardState => 6
  | .transactionCommit => 7

/-- The type with this code, if there is one. -/
def WALRecordType.ofCode (code : UInt8) : Option WALRecordType :=
  if code = 1 then some .transactionBegin
  else if code = 2 then some .truncate
  else if code = 3 then some .entries
  else if code = 4 then some .snapshotBase
  else if code = 5 then some .appliedIndex
  else if code = 6 then some .hardState
  else if code = 7 then some .transactionCommit
  else none

structure WALRecord where
  typeCode : WALRecordType
  payload : Bytes
  deriving DecidableEq

/-- Magic, format version, type, a flags byte that is zero, and the length of the payload. -/
def WALRecord.header (record : WALRecord) : Bytes :=
  walMagic ++ bigEndian 2 1 ++ [record.typeCode.code, 0] ++ bigEndian 8 record.payload.length

def encodeWALRecord (record : WALRecord) : Except RaftError Bytes :=
  if record.payload.length > maxWALRecordPayloadBytes then .error .invalidStorageState
  else if walRecordHeaderBytes + record.payload.length + walRecordChecksumBytes > maxInt64 then
    .error .invalidStorageState
  else
    .ok (record.header ++ record.payload ++
      bigEndian walRecordChecksumBytes (crc32c (record.header ++ record.payload)).toNat)

/-! ## Payloads -/

/-- The number in the bytes from one position up to another, most significant first. -/
def word (bytes : Bytes) (start stop : Nat) : Nat := Crane.Wire.value ((bytes.drop start).take (stop - start))

/-- The effects of a transaction, one bit each: hard state, truncation, entries, snapshot base,
    applied index. -/
abbrev TransactionFlags := UInt8

def transactionFlag (present : Bool) (bit : TransactionFlags) : TransactionFlags := if present then bit else 0

def transactionFlagsAll : TransactionFlags := 31

def onesCount8 (flags : UInt8) : UInt8 :=
  ([0, 1, 2, 3, 4, 5, 6, 7].map fun place : UInt8 => (flags >>> place) &&& 1).sum

def flagsForBatch (batch : PersistenceBatch) : TransactionFlags :=
  transactionFlag batch.hardState.isSome 1 ||| transactionFlag (batch.replaceFrom ≠ 0) 2 |||
    transactionFlag (batch.entries ≠ []) 4 ||| transactionFlag batch.snapshotBase.isSome 8 |||
    transactionFlag batch.appliedIndex.isSome 16

/-- The records of the effects, in the order they are written. -/
def expectedRecordTypes (flags : TransactionFlags) : List WALRecordType :=
  (if flags &&& 8 ≠ 0 then [.snapshotBase] else []) ++ (if flags &&& 2 ≠ 0 then [.truncate] else []) ++
    (if flags &&& 4 ≠ 0 then [.entries] else []) ++
    (if flags &&& 16 ≠ 0 then [.appliedIndex] else []) ++
    (if flags &&& 1 ≠ 0 then [.hardState] else [])

def validBoundary (transactionID : Nat) (flags : TransactionFlags) (count : UInt8) : Bool :=
  transactionID ≠ 0 && flags ≠ 0 && flags &&& ~~~transactionFlagsAll = 0 && count = onesCount8 flags

def encodeTransactionBoundaryPayload (transactionID : Nat) (flags : TransactionFlags)
    (count : UInt8) : Except RaftError Bytes :=
  if validBoundary transactionID flags count = false then .error .invalidStorageState
  else .ok (bigEndian 8 transactionID ++ [flags, count, 0, 0])

def decodeTransactionBoundaryPayload (payload : Bytes) : Except RaftError (Nat × TransactionFlags × UInt8) :=
  if payload.length ≠ boundaryPayloadBytes then .error .storageCorrupt
  else
    let id := word payload 0 8
    let flags := payload.getD 8 0
    let count := payload.getD 9 0
    if validBoundary id flags count = false ∨ payload.getD 10 0 ≠ 0 ∨ payload.getD 11 0 ≠ 0 then
      .error .storageCorrupt
    else .ok (id, flags, count)

def encodeHardStatePayload (transactionID : Nat) (state : HardState) : Bytes :=
  bigEndian 8 transactionID ++ bigEndian 8 state.term ++ bigEndian 2 state.votedFor ++
    bigEndian 8 state.commitIndex

def decodeHardStatePayload (payload : Bytes) (transactionID : Nat) : Except RaftError HardState :=
  if payload.length ≠ hardStatePayloadBytes ∨ word payload 0 8 ≠ transactionID then
    .error .storageCorrupt
  else .ok ⟨word payload 8 16, word payload 16 18, word payload 18 26⟩

def encodeTwoUint64Payload (transactionID value : Nat) : Bytes := bigEndian 8 transactionID ++ bigEndian 8 value

def decodeTwoUint64Payload (payload : Bytes) (transactionID : Nat) : Except RaftError Nat :=
  if payload.length ≠ truncatePayloadBytes ∨ word payload 0 8 ≠ transactionID then
    .error .storageCorrupt
  else .ok (word payload 8 16)

def encodeSnapshotPayload (transactionID : Nat) (metadata : SnapshotMetadata) : Bytes :=
  bigEndian 8 transactionID ++ bigEndian 8 metadata.lastIncludedIndex ++
    bigEndian 8 metadata.lastIncludedTerm ++ bigEndian 4 metadata.stateMachineSchemaVersion

def decodeSnapshotPayload (payload : Bytes) (transactionID : Nat) : Except RaftError SnapshotMetadata :=
  if payload.length ≠ snapshotPayloadBytes ∨ word payload 0 8 ≠ transactionID then
    .error .storageCorrupt
  else .ok ⟨word payload 8 16, word payload 16 24, word payload 24 28⟩

/-- The kind a byte stands for. -/
def EntryKind.ofCode (code : UInt8) : EntryKind :=
  if code = 1 then .command else if code = 2 then .noOp else .unknown code

def encodeEntry (entry : Entry) : Bytes :=
  bigEndian 8 entry.index ++ bigEndian 8 entry.term ++ [entry.kind.code] ++
    bigEndian 4 entry.command.length ++ entry.command

/-- The entries behind what is written already, each checked before it is added. -/
def encodeEntries (payload : Bytes) : List Entry → Except RaftError Bytes
  | [] => .ok payload
  | entry :: rest =>
    match validateLogEntry entry with
    | .error _ => .error .invalidStorageState
    | .ok () =>
      if entry.command.length > maxRaftCommandBytes ∨ entry.command.length > 2 ^ 32 - 1 then
        .error .invalidStorageState
      else if minimumWALEntryBytes + entry.command.length > maxWALRecordPayloadBytes - payload.length then
        .error .invalidStorageState
      else encodeEntries (payload ++ encodeEntry entry) rest

def encodeEntriesPayload (transactionID : Nat) (entries : List Entry) : Except RaftError Bytes :=
  if entries.length = 0 ∨ entries.length > 65535 then .error .invalidStorageState
  else encodeEntries (bigEndian 8 transactionID ++ bigEndian 2 entries.length) entries

/-- So many entries from the bytes that remain; nothing may be left over. -/
def decodeEntries : Nat → Bytes → Except RaftError (List Entry)
  | 0, rest => if rest.length ≠ 0 then .error .storageCorrupt else .ok []
  | count + 1, rest =>
    if rest.length < minimumWALEntryBytes then .error .storageCorrupt
    else
      let commandLength := word rest 17 21
      let tail := rest.drop minimumWALEntryBytes
      if commandLength > maxRaftCommandBytes ∨ commandLength > tail.length then
        .error .storageCorrupt
      else
        match newEntry (word rest 0 8) (word rest 8 16) (.ofCode (rest.getD 16 0))
            (tail.take commandLength) with
        | .error _ => .error .storageCorrupt
        | .ok entry =>
          match decodeEntries count (tail.drop commandLength) with
          | .error e => .error e
          | .ok entries => .ok (entry :: entries)

def decodeEntriesPayload (payload : Bytes) (transactionID : Nat) : Except RaftError (List Entry) :=
  if payload.length < 10 ∨ word payload 0 8 ≠ transactionID then .error .storageCorrupt
  else
    let count := word payload 8 10
    if count = 0 ∨ count > (payload.length - 10) / minimumWALEntryBytes then .error .storageCorrupt
    else decodeEntries count (payload.drop 10)

/-! ## Transactions -/

/-- One record for each effect of the batch. The snapshot's payload is not among them: it is in a
    file of its own. -/
def effectRecords (transactionID : Nat) (batch : PersistenceBatch) : Except RaftError (List WALRecord) := do
  let entries ←
    if batch.entries = [] then .ok []
    else do
      let payload ← encodeEntriesPayload transactionID batch.entries
      .ok [⟨.entries, payload⟩]
  return batch.snapshotBase.toList.map (⟨.snapshotBase, encodeSnapshotPayload transactionID ·⟩) ++
    (if batch.replaceFrom ≠ 0 then
      [⟨.truncate, encodeTwoUint64Payload transactionID batch.replaceFrom⟩] else []) ++
    entries ++
    batch.appliedIndex.toList.map (⟨.appliedIndex, encodeTwoUint64Payload transactionID ·⟩) ++
    batch.hardState.toList.map (⟨.hardState, encodeHardStatePayload transactionID ·⟩)

/-- The records one after the other, within the bound of a transaction. -/
def encodeWALRecords (encoded : Bytes) : List WALRecord → Except RaftError Bytes
  | [] => .ok encoded
  | record :: rest =>
    match encodeWALRecord record with
    | .error e => .error e
    | .ok bytes =>
      if bytes.length > maxWALTransactionBytes - encoded.length then .error .invalidStorageState
      else encodeWALRecords (encoded ++ bytes) rest

def encodeWALTransaction (transactionID : Nat) (batch : PersistenceBatch) : Except RaftError Bytes :=
  if transactionID = 0 then .error .invalidStorageState
  else do
    validatePersistenceBatchBounds batch
    let flags := flagsForBatch batch
    let count := onesCount8 flags
    if flags = 0 ∨ count = 0 then .error .invalidStorageState
    else
      let boundary ← encodeTransactionBoundaryPayload transactionID flags count
      let effects ← effectRecords transactionID batch
      encodeWALRecords []
        ([⟨.transactionBegin, boundary⟩] ++ effects ++ [⟨.transactionCommit, boundary⟩])

/-! ## Reading the log back -/

inductive WALReading where
  /-- The file ends before the record does. -/
  | partialRecord
  | complete (record : WALRecord) (next : Nat)
  deriving DecidableEq

def readWALRecordAt (file : Bytes) (offset : Nat) : Except RaftError WALReading :=
  if file.length - offset < walRecordHeaderBytes then .ok .partialRecord
  else
    let header := (file.drop offset).take walRecordHeaderBytes
    if header.take 4 ≠ walMagic then .error .storageCorrupt
    else if word header 4 6 ≠ 1 then .error .storageCorrupt
    else
      match WALRecordType.ofCode (header.getD 6 0) with
      | none => .error .storageCorrupt
      | some recordType =>
        if header.getD 7 0 ≠ 0 then .error .storageCorrupt
        else
          let payloadLength := word header 8 16
          if payloadLength > maxWALRecordPayloadBytes then .error .storageCorrupt
          else
            let total := walRecordHeaderBytes + payloadLength + walRecordChecksumBytes
            if total > maxInt64 ∨ offset > maxInt64 - total then .error .storageCorrupt
            else
              let next := offset + total
              if next > file.length then .ok .partialRecord
              else
                let remainder := (file.drop (offset + walRecordHeaderBytes)).take
                  (payloadLength + walRecordChecksumBytes)
                let payload := remainder.take payloadLength
                if (crc32c (header ++ payload)).toNat ≠
                    word remainder payloadLength (payloadLength + 4) then .error .storageCorrupt
                else .ok (.complete ⟨recordType, payload⟩ next)

/-- A complete record is in the file and takes up space. -/
lemma readWALRecordAt_next {file : Bytes} {offset next : Nat} {record : WALRecord}
    (h : readWALRecordAt file offset = .ok (.complete record next)) : offset < next ∧ next ≤ file.length := by
  unfold readWALRecordAt at h
  simp only at h
  repeat' split at h
  all_goals cases h
  rename_i hfits _
  rw [gt_iff_lt, not_lt] at hfits
  refine ⟨?_, hfits⟩
  rw [walRecordHeaderBytes, walRecordChecksumBytes]
  omega

def emptyBatch : PersistenceBatch := ⟨none, 0, [], none, none, none⟩

def decodeEffectRecord (record : WALRecord) (transactionID : Nat) (batch : PersistenceBatch) :
    Except RaftError PersistenceBatch :=
  match record.typeCode with
  | .snapshotBase => do
    let base ← decodeSnapshotPayload record.payload transactionID
    return { batch with snapshotBase := some base }
  | .truncate => do
    let replaceFrom ← decodeTwoUint64Payload record.payload transactionID
    if replaceFrom = 0 then .error .storageCorrupt else return { batch with replaceFrom }
  | .entries => do
    let entries ← decodeEntriesPayload record.payload transactionID
    return { batch with entries }
  | .appliedIndex => do
    let index ← decodeTwoUint64Payload record.payload transactionID
    return { batch with appliedIndex := some index }
  | .hardState => do
    let state ← decodeHardStatePayload record.payload transactionID
    return { batch with hardState := some state }
  | _ => .error .storageCorrupt

/-- The transaction the scan is in. -/
structure OpenTransaction where
  transactionStart : Nat
  transactionID : Nat
  flags : TransactionFlags
  count : UInt8
  expected : List WALRecordType
  effectIndex : Nat
  batch : PersistenceBatch
  deriving DecidableEq

structure WALScan where
  state : RecoveredState
  verifiedBoundary : Nat
  lastTransaction : Nat
  active : Option OpenTransaction
  deriving DecidableEq

def RecoveredState.fresh (identity : StorageIdentity) : RecoveredState where
  identity
  hardState := ⟨0, 0, 0⟩
  snapshotBase := ⟨0, 0, 0⟩
  snapshot := none
  appliedIndex := 0
  entries := []

def WALScan.start (identity : StorageIdentity) : WALScan := ⟨.fresh identity, 0, 0, none⟩

/-- Where the log is cut off when it ends here. -/
def WALScan.boundary (scan : WALScan) : Nat := scan.active.elim scan.verifiedBoundary (·.transactionStart)

section Scan

variable [Hash] (identity : StorageIdentity) (voters : VoterSet)

/-- A record outside of a transaction. -/
def WALScan.beginTransaction (scan : WALScan) (record : WALRecord) (offset : Nat) : Except RaftError WALScan :=
  if record.typeCode ≠ .transactionBegin then .error .storageCorrupt
  else do
    let (transactionID, flags, count) ← decodeTransactionBoundaryPayload record.payload
    if scan.lastTransaction = maxUint64 ∨ transactionID ≠ scan.lastTransaction + 1 then
      .error .storageCorrupt
    else
      let transaction : OpenTransaction :=
        ⟨offset, transactionID, flags, count, expectedRecordTypes flags, 0, emptyBatch⟩
      return { scan with active := some transaction }

/-- The record after the last effect. -/
def WALScan.commitTransaction (scan : WALScan) (transaction : OpenTransaction) (record : WALRecord)
    (next : Nat) : Except RaftError WALScan :=
  if record.typeCode ≠ .transactionCommit then .error .storageCorrupt
  else do
    let (commitID, commitFlags, commitCount) ← decodeTransactionBoundaryPayload record.payload
    if commitID ≠ transaction.transactionID ∨ commitFlags ≠ transaction.flags ∨ commitCount ≠ transaction.count ∨
        transaction.count ≠ UInt8.ofNat transaction.expected.length ∨
        flagsForBatch transaction.batch ≠ transaction.flags then .error .storageCorrupt
    else
      match applyPersistenceBatch scan.state transaction.batch identity voters with
      | .error _ => .error .storageCorrupt
      | .ok prospective => .ok ⟨prospective, next, transaction.transactionID, none⟩

/-- One complete record. -/
def WALScan.step (scan : WALScan) (record : WALRecord) (offset next : Nat) : Except RaftError WALScan :=
  match scan.active with
  | none => scan.beginTransaction record offset
  | some transaction =>
    if next - transaction.transactionStart > maxWALTransactionBytes then .error .storageCorrupt
    else
      match transaction.expected[transaction.effectIndex]? with
      | some expected =>
        if record.typeCode ≠ expected then .error .storageCorrupt
        else do
          let batch ← decodeEffectRecord record transaction.transactionID transaction.batch
          let transaction := { transaction with effectIndex := transaction.effectIndex + 1, batch }
          return { scan with active := some transaction }
      | none => scan.commitTransaction identity voters transaction record next

/-- What the scan of a file ends with: the state and the last transaction it read, and the file with
    its tail cut off. -/
structure RecoveredWAL where
  state : RecoveredState
  lastTransaction : Nat
  file : Bytes
  deriving DecidableEq

/-- The scan from an offset on. -/
def scanWAL (file : Bytes) (offset : Nat) (scan : WALScan) : Except RaftError RecoveredWAL :=
  if offset < file.length then
    match _hread : readWALRecordAt file offset with
    | .error e => .error e
    | .ok .partialRecord => .ok ⟨scan.state, scan.lastTransaction, file.take scan.boundary⟩
    | .ok (.complete record next) =>
      match scan.step identity voters record offset next with
      | .error e => .error e
      | .ok scan => scanWAL file next scan
  else
    match validateRecoveredState scan.state identity voters with
    | .error _ => .error .storageCorrupt
    | .ok () =>
      .ok ⟨scan.state, scan.lastTransaction,
        if scan.active.isSome then file.take scan.boundary else file⟩
termination_by file.length - offset
decreasing_by
  have hnext := readWALRecordAt_next (by assumption)
  omega

def recoverWAL (file : Bytes) : Except RaftError RecoveredWAL :=
  scanWAL identity voters file 0 (.start identity)

end Scan

/-! ## Appending -/

/-- The part of the open store that appends to the log: its durable state in memory, the log file and
    the number of the next transaction, zero when there is none left. -/
structure WALStore where
  identity : StorageIdentity
  voters : VoterSet
  snapshotLimit : Nat
  state : RecoveredState
  nextTxnID : Nat
  wal : Bytes

section Append

variable [Hash]

/-- `Persist`: the batch is checked against the state, then its transaction is written at the end of
    the log. A file is no longer than its offsets. -/
def WALStore.persist (store : WALStore) (batch : PersistenceBatch) : Except RaftError WALStore := do
  validatePersistenceBatchBounds batch
  if ∃ snapshot ∈ batch.snapshot, snapshot.state.length > store.snapshotLimit then
    .error .invalidStorageState
  else if store.nextTxnID = 0 then .error .invalidStorageState
  else
    let prospective ←
      applyValidatedPersistenceBatch store.state batch store.identity store.voters
    let encoded ← encodeWALTransaction store.nextTxnID batch
    if (store.wal ++ encoded).length > maxInt64 then .error .storageCorrupt
    else
      return { store with
        wal := store.wal ++ encoded
        state := prospective
        nextTxnID := if store.nextTxnID = maxUint64 then 0 else store.nextTxnID + 1 }

end Append

/-- The one batch a log is rewritten with: the whole state on top of its snapshot. -/
def replacementBatchForState (state : RecoveredState) : Except RaftError PersistenceBatch :=
  match state.snapshot with
  | none => .error .invalidStorageState
  | some snapshot =>
    if snapshot.metadata ≠ state.snapshotBase then .error .invalidStorageState
    else
      let batch : PersistenceBatch :=
        ⟨some state.hardState, 0, [], some state.snapshotBase, some snapshot, some state.appliedIndex⟩
      if state.entries = [] then .ok batch
      else
        match checkedNextIndex state.snapshotBase.lastIncludedIndex with
        | none => .error .logOverflow
        | some next => .ok { batch with replaceFrom := next, entries := state.entries }

end Crane.Raft
