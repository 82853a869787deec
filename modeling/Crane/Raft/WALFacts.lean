import Crane.Raft.MessageFacts
import Crane.Raft.StorageFacts
import Crane.Raft.WAL

/-!
# What is written can be read back

Each payload decodes to what it was made of, a record is read where it was written, and the start of
a record that stops short of its end is read as such. A transaction is the list of its records.
-/

namespace Crane.Raft

open List WALRecord

variable {width n : Nat} {payload encoded : Bytes} {entries : List Entry} {effects : List WALRecord}

/-! ## Numbers in byte strings -/

lemma bigEndian_eq_wire (width n : Nat) : bigEndian width n = Crane.Wire.bigEndian width n := by
  induction width generalizing n with
  | zero => rfl
  | succ _ ih =>
    have hbyte : UInt8.ofNat (n % 256) = UInt8.ofNat n := by
      apply UInt8.toNat_inj.mp
      simp
    rw [bigEndian, Crane.Wire.bigEndian, ih, hbyte]

lemma value_bigEndian (h : n < 256 ^ width) : Crane.Wire.value (bigEndian width n) = n := by
  rw [bigEndian_eq_wire, Crane.Wire.value_bigEndian, Nat.mod_eq_of_lt h]

/-- A number is read back from where it was written. -/
lemma word_append {before after : Bytes} {start stop : Nat} (hn : n < 256 ^ width)
    (hstart : start = before.length) (hstop : stop = before.length + width) :
    word (before ++ (bigEndian width n ++ after)) start stop = n := by
  have htake : (bigEndian width n ++ after).take width = bigEndian width n :=
    take_left' (bigEndian_length width n)
  rw [word, hstart, hstop, drop_left, Nat.add_sub_cancel_left, htake, value_bigEndian hn]

/-- The number at the very start. -/
lemma word_zero_append {after : Bytes} (hn : n < 256 ^ width) :
    word (bigEndian width n ++ after) 0 width = n := by
  rw [word, drop_zero, Nat.sub_zero, take_left' (bigEndian_length width n), value_bigEndian hn]

/-- The number at the very end. -/
lemma word_append_last {before : Bytes} {start stop : Nat} (hn : n < 256 ^ width)
    (hstart : start = before.length) (hstop : stop = before.length + width) :
    word (before ++ bigEndian width n) start stop = n := by
  rw [← append_nil (bigEndian width n)]
  exact word_append hn hstart hstop

/-! ## Payloads -/

/-- The numbers of a batch are those of the machine: 64 bits for terms and positions, 16 for a voter,
32 for a schema version. -/
structure PersistenceBatch.Words (batch : PersistenceBatch) : Prop where
  hardState : ∀ state ∈ batch.hardState, state.term < 2 ^ 64 ∧ state.votedFor < 2 ^ 16 ∧
    state.commitIndex < 2 ^ 64
  replaceFrom : batch.replaceFrom < 2 ^ 64
  entries : ∀ entry ∈ batch.entries, entry.index < 2 ^ 64 ∧ entry.term < 2 ^ 64
  snapshotBase : ∀ base ∈ batch.snapshotBase, base.lastIncludedIndex < 2 ^ 64 ∧
    base.lastIncludedTerm < 2 ^ 64 ∧ base.stateMachineSchemaVersion < 2 ^ 32
  appliedIndex : ∀ index ∈ batch.appliedIndex, index < 2 ^ 64

section Payloads

variable {transactionID : Nat} (hid : transactionID < 2 ^ 64)

include hid

lemma decodeTwoUint64Payload_encode {value : Nat} (hvalue : value < 2 ^ 64) :
    decodeTwoUint64Payload (encodeTwoUint64Payload transactionID value) transactionID = .ok value := by
  have hfst : word (encodeTwoUint64Payload transactionID value) 0 8 = transactionID := word_zero_append hid
  have hscd : word (encodeTwoUint64Payload transactionID value) 8 16 = value :=
    word_append_last hvalue (by simp) (by simp)
  have hlen : (encodeTwoUint64Payload transactionID value).length = truncatePayloadBytes := by
    simp [encodeTwoUint64Payload, truncatePayloadBytes]
  rw [decodeTwoUint64Payload, hfst, hscd, hlen]
  simp

lemma decodeHardStatePayload_encode {state : HardState} (hterm : state.term < 2 ^ 64)
    (hvoted : state.votedFor < 2 ^ 16) (hcmt : state.commitIndex < 2 ^ 64) :
    decodeHardStatePayload (encodeHardStatePayload transactionID state) transactionID = .ok state := by
  have hlen : (encodeHardStatePayload transactionID state).length = hardStatePayloadBytes := by
    simp [encodeHardStatePayload, hardStatePayloadBytes]
  have hfst : word (encodeHardStatePayload transactionID state) 0 8 = transactionID := by
    simp only [encodeHardStatePayload, append_assoc]
    exact word_zero_append hid
  have hscd : word (encodeHardStatePayload transactionID state) 8 16 = state.term := by
    simp only [encodeHardStatePayload, append_assoc]
    exact word_append hterm (by simp) (by simp)
  have hthird : word (encodeHardStatePayload transactionID state) 16 18 = state.votedFor := by
    rw [encodeHardStatePayload, append_assoc]
    exact word_append hvoted (by simp) (by simp)
  have hfourth : word (encodeHardStatePayload transactionID state) 18 26 = state.commitIndex :=
    word_append_last hcmt (by simp) (by simp)
  rw [decodeHardStatePayload, hfst, hscd, hthird, hfourth, hlen]
  simp

lemma decodeSnapshotPayload_encode {metadata : SnapshotMetadata}
    (hidx : metadata.lastIncludedIndex < 2 ^ 64) (hterm : metadata.lastIncludedTerm < 2 ^ 64)
    (hschema : metadata.stateMachineSchemaVersion < 2 ^ 32) :
    decodeSnapshotPayload (encodeSnapshotPayload transactionID metadata) transactionID = .ok metadata := by
  have hlen : (encodeSnapshotPayload transactionID metadata).length = snapshotPayloadBytes := by
    simp [encodeSnapshotPayload, snapshotPayloadBytes]
  have hfst : word (encodeSnapshotPayload transactionID metadata) 0 8 = transactionID := by
    simp only [encodeSnapshotPayload, append_assoc]
    exact word_zero_append hid
  have hscd : word (encodeSnapshotPayload transactionID metadata) 8 16 =
      metadata.lastIncludedIndex := by
    simp only [encodeSnapshotPayload, append_assoc]
    exact word_append hidx (by simp) (by simp)
  have hthird : word (encodeSnapshotPayload transactionID metadata) 16 24 =
      metadata.lastIncludedTerm := by
    rw [encodeSnapshotPayload, append_assoc]
    exact word_append hterm (by simp) (by simp)
  have hfourth : word (encodeSnapshotPayload transactionID metadata) 24 28 =
      metadata.stateMachineSchemaVersion :=
    word_append_last hschema (by simp) (by simp)
  rw [decodeSnapshotPayload, hfst, hscd, hthird, hfourth, hlen]
  simp

/-- A boundary that could be written is read back. -/
lemma decodeTransactionBoundaryPayload_encode {flags : TransactionFlags} {count : UInt8}
    (h : encodeTransactionBoundaryPayload transactionID flags count = .ok payload) :
    decodeTransactionBoundaryPayload payload = .ok (transactionID, flags, count) := by
  unfold encodeTransactionBoundaryPayload at h
  split at h
  · cases h
  rename_i hval
  cases h
  have hfst : word (bigEndian 8 transactionID ++ [flags, count, 0, 0]) 0 8 = transactionID :=
    word_zero_append hid
  have hget : ∀ place, (bigEndian 8 transactionID ++ [flags, count, 0, 0]).getD (8 + place) 0 =
      [flags, count, 0, 0].getD place 0 := by
    intro place
    rw [getD_eq_getElem?_getD, getElem?_append_right (by simp), bigEndian_length,
      Nat.add_sub_cancel_left, getD_eq_getElem?_getD]
  have h8 := hget 0
  have h9 := hget 1
  have h10 := hget 2
  have h11 := hget 3
  simp only [Nat.reduceAdd] at h8 h9 h10 h11
  rw [decodeTransactionBoundaryPayload]
  simp only [hfst, h8, h9, h10, h11]
  simpa [boundaryPayloadBytes] using hval

omit hid in
lemma EntryKind.ofCode_code {entry : Entry} (h : entry.Valid) :
    EntryKind.ofCode entry.kind.code = entry.kind := by
  cases h.kind with
  | inl hcmd =>
    rw [hcmd]
    rfl
  | inr hnoOp =>
    rw [hnoOp.1]
    rfl

omit hid in
@[simp] lemma encodeEntry_length (entry : Entry) :
    (encodeEntry entry).length = minimumWALEntryBytes + entry.command.length := by
  simp [encodeEntry, minimumWALEntryBytes]
  omega

omit hid in
/-- What the encoder of entries appends, and what it has checked. -/
lemma encodeEntries_eq_ok {out : Bytes} (h : encodeEntries payload entries = .ok out) :
    out = payload ++ entries.flatMap encodeEntry ∧
      ∀ entry ∈ entries, entry.Valid ∧ entry.command.length ≤ maxRaftCommandBytes := by
  induction entries generalizing payload with
  | nil =>
    cases h
    exact ⟨by simp, nofun⟩
  | cons entry rest ih =>
    rw [encodeEntries] at h
    split at h
    · cases h
    rename_i hval
    split at h
    · cases h
    rename_i hcmd
    split at h
    · cases h
    obtain ⟨hout, hall⟩ := ih h
    refine ⟨?_, forall_mem_cons.mpr ⟨⟨validateLogEntry_eq_ok.mp hval, by omega⟩, hall⟩⟩
    rw [hout, flatMap_cons, append_assoc]

section

variable (hwds : ∀ entry ∈ entries, entry.index < 2 ^ 64 ∧ entry.term < 2 ^ 64)

include hwds

omit hid in
lemma decodeEntries_encode
    (hval : ∀ entry ∈ entries, entry.Valid ∧ entry.command.length ≤ maxRaftCommandBytes) :
    decodeEntries entries.length (entries.flatMap encodeEntry) = .ok entries := by
  induction entries with
  | nil => rfl
  | cons entry rest ih =>
    obtain ⟨hidx, hterm⟩ := hwds entry mem_cons_self
    obtain ⟨hent, hcmd⟩ := hval entry mem_cons_self
    have hlen : entry.command.length < 256 ^ 4 := by
      rw [maxRaftCommandBytes] at hcmd
      omega
    have hrest := ih (fun other h => hwds other (mem_cons_of_mem _ h))
      (fun other h => hval other (mem_cons_of_mem _ h))
    rw [length_cons, flatMap_cons, decodeEntries]
    generalize rest.flatMap encodeEntry = tail at hrest ⊢
    have hshp : encodeEntry entry ++ tail = bigEndian 8 entry.index ++ (bigEndian 8 entry.term ++
        ([entry.kind.code] ++ (bigEndian 4 entry.command.length ++ (entry.command ++ tail)))) := by
      simp only [encodeEntry, append_assoc]
    have hword0 : word (encodeEntry entry ++ tail) 0 8 = entry.index := by
      rw [hshp]
      exact word_zero_append hidx
    have hword8 : word (encodeEntry entry ++ tail) 8 16 = entry.term := by
      rw [hshp]
      exact word_append hterm (by simp) (by simp)
    have hword17 : word (encodeEntry entry ++ tail) 17 21 = entry.command.length := by
      rw [hshp, ← append_assoc, ← append_assoc]
      exact word_append hlen (by simp) (by simp)
    have hkind : (encodeEntry entry ++ tail).getD 16 0 = entry.kind.code := by
      rw [hshp, ← append_assoc, getD_eq_getElem?_getD, getElem?_append_right (by simp)]
      simp
    have htail : (encodeEntry entry ++ tail).drop minimumWALEntryBytes = entry.command ++ tail := by
      rw [hshp, ← append_assoc, ← append_assoc, ← append_assoc]
      exact drop_left' (by simp [minimumWALEntryBytes])
    have hlong : ¬ (encodeEntry entry ++ tail).length < minimumWALEntryBytes := by
      rw [length_append, encodeEntry_length]
      omega
    have hnew : newEntry entry.index entry.term entry.kind entry.command = .ok entry := by
      simp only [newEntry]
      rw [validateLogEntry_eq_ok.mpr hent]
    rw [if_neg hlong]
    simp only [hword0, hword8, hword17, hkind, htail, EntryKind.ofCode_code hent]
    rw [if_neg (by rw [length_append]; omega), take_left, drop_left, hnew]
    simp only [hrest]

lemma decodeEntriesPayload_encode (h : encodeEntriesPayload transactionID entries = .ok payload) :
    decodeEntriesPayload payload transactionID = .ok entries := by
  unfold encodeEntriesPayload at h
  split at h
  · cases h
  rename_i hcnt
  obtain ⟨hout, hval⟩ := encodeEntries_eq_ok h
  have hsmall : entries.length < 256 ^ 2 := by omega
  have hid' : word payload 0 8 = transactionID := by
    rw [hout, append_assoc]
    exact word_zero_append hid
  have hcnt' : word payload 8 10 = entries.length := by
    rw [hout, append_assoc]
    exact word_append hsmall (by simp) (by simp)
  have hdrop : payload.drop 10 = entries.flatMap encodeEntry := by
    rw [hout]
    exact drop_left' (by simp)
  have hlen : payload.length = 10 + (entries.flatMap encodeEntry).length := by
    rw [hout, length_append, length_append, bigEndian_length, bigEndian_length]
  have hmin : entries.length * minimumWALEntryBytes ≤ (entries.flatMap encodeEntry).length := by simp
  have hquot : entries.length ≤ (payload.length - 10) / minimumWALEntryBytes := by
    rw [Nat.le_div_iff_mul_le (by decide), hlen]
    omega
  rw [decodeEntriesPayload, hid', if_neg (by omega)]
  simp only [hcnt', hdrop]
  rw [if_neg (by omega)]
  exact decodeEntries_encode hwds hval

end

end Payloads

/-! ## Records -/

/-- The bytes of a record. -/
def WALRecord.frame (record : WALRecord) : Bytes :=
  record.header ++ record.payload ++
    bigEndian walRecordChecksumBytes (crc32c (record.header ++ record.payload)).toNat

lemma encodeWALRecord_eq_ok {record : WALRecord} {bytes : Bytes} : encodeWALRecord record = .ok bytes ↔
      record.payload.length ≤ maxWALRecordPayloadBytes ∧ bytes = record.frame := by
  unfold encodeWALRecord
  constructor
  · intro h
    split at h
    · cases h
    rename_i hlen
    split at h
    · cases h
    · exact ⟨not_lt.mp hlen, (Except.ok.inj h).symm⟩
  intro h
  have hsmall : ¬ walRecordHeaderBytes + record.payload.length + walRecordChecksumBytes >
      maxInt64 := by
    have := h.1
    simp only [maxWALRecordPayloadBytes, maxRPCPayloadBytes, walRecordHeaderBytes,
      walRecordChecksumBytes, maxInt64] at this ⊢
    omega
  rw [if_neg (not_lt.mpr h.1), if_neg hsmall, h.2]
  rfl

lemma WALRecord.header_eq (record : WALRecord) :
    record.header = [82, 70, 87, 76, 0, 1, record.typeCode.code, 0] ++ bigEndian 8 record.payload.length := rfl

@[simp] lemma WALRecord.header_length (record : WALRecord) : record.header.length = walRecordHeaderBytes := by
  simp [header_eq, walRecordHeaderBytes]

@[simp] lemma WALRecord.frame_length (record : WALRecord) : record.frame.length =
    walRecordHeaderBytes + record.payload.length + walRecordChecksumBytes := by
  simp [frame]
  omega

lemma WALRecordType.ofCode_code (type : WALRecordType) : WALRecordType.ofCode type.code = some type := by
  cases type <;> rfl

section Read

variable {before after : Bytes} {record : WALRecord}
variable (hlen : record.payload.length ≤ maxWALRecordPayloadBytes)
variable (hend : before.length + record.frame.length ≤ maxInt64)

include hlen hend

/-- What the reader finds behind a header: the record if the file holds all of it. -/
lemma readWALRecordAt_header {rest : Bytes} : readWALRecordAt (before ++ (record.header ++ rest)) before.length =
      if record.payload.length + walRecordChecksumBytes > rest.length then .ok .partialRecord else
        let remainder := rest.take (record.payload.length + walRecordChecksumBytes)
        let payload := remainder.take record.payload.length
        if (crc32c (record.header ++ payload)).toNat ≠
            word remainder record.payload.length (record.payload.length + 4) then
          .error .storageCorrupt
        else .ok (.complete ⟨record.typeCode, payload⟩ (before.length + record.frame.length)) := by
  have hsmall : record.payload.length < 256 ^ 8 := by
    rw [maxWALRecordPayloadBytes, maxRPCPayloadBytes] at hlen
    omega
  have hheader : ((before ++ (record.header ++ rest)).drop before.length).take walRecordHeaderBytes =
      record.header := by
    rw [drop_left, take_left' record.header_length]
  have hword : word record.header 8 16 = record.payload.length := word_append_last hsmall rfl rfl
  have hremain : (before ++ (record.header ++ rest)).drop (before.length + walRecordHeaderBytes) =
      rest := by
    rw [← append_assoc]
    exact drop_left' (by simp)
  have hlong : ¬ (before ++ (record.header ++ rest)).length - before.length <
      walRecordHeaderBytes := by
    simp only [length_append, record.header_length]
    omega
  have hoff : ¬ (walRecordHeaderBytes + record.payload.length + walRecordChecksumBytes > maxInt64 ∨
      before.length > maxInt64 -
        (walRecordHeaderBytes + record.payload.length + walRecordChecksumBytes)) := by
    rw [record.frame_length] at hend
    omega
  rw [readWALRecordAt, if_neg hlong]
  simp only [hheader, hword, hremain]
  rw [if_neg (by rw [record.header_eq]; exact not_not.mpr rfl),
    if_neg (by rw [record.header_eq]; exact not_not.mpr rfl)]
  have htype : record.header.getD 6 0 = record.typeCode.code := rfl
  rw [htype, WALRecordType.ofCode_code]
  simp only
  rw [if_neg (by rw [record.header_eq]; exact not_not.mpr rfl), if_neg (not_lt.mpr hlen), if_neg hoff]
  simp only [record.frame_length, length_append, record.header_length]
  refine if_congr ?_ rfl rfl
  omega

/-- A record is read where it was written. -/
lemma readWALRecordAt_frame : readWALRecordAt (before ++ (record.frame ++ after)) before.length =
      .ok (.complete record (before.length + record.frame.length)) := by
  obtain ⟨sum, hsum⟩ : ∃ sum, sum = (crc32c (record.header ++ record.payload)).toNat := ⟨_, rfl⟩
  have hshp : before ++ (record.frame ++ after) = before ++ (record.header ++ (record.payload ++
      (bigEndian walRecordChecksumBytes sum ++ after))) := by
    simp only [hsum, frame, append_assoc]
  have hcrc : sum < 256 ^ 4 := hsum ▸ (crc32c (record.header ++ record.payload)).toNat_lt
  rw [hshp, readWALRecordAt_header hlen hend, if_neg (by simp [walRecordChecksumBytes])]
  have hremain : (record.payload ++ (bigEndian walRecordChecksumBytes sum ++ after)).take
      (record.payload.length + walRecordChecksumBytes) =
      record.payload ++ bigEndian walRecordChecksumBytes sum := by
    rw [← append_assoc]
    exact take_left' (by simp)
  have hword : word (record.payload ++ bigEndian walRecordChecksumBytes sum)
      record.payload.length (record.payload.length + 4) = sum := word_append_last hcrc rfl rfl
  simp only [hremain, take_left]
  rw [hword, if_neg (not_not.mpr hsum.symm)]

/-- A record that stops short is read as such. -/
lemma readWALRecordAt_torn {cut : Nat} (hcut : cut < record.frame.length) :
    readWALRecordAt (before ++ record.frame.take cut) before.length = .ok .partialRecord := by
  by_cases hheader : cut < walRecordHeaderBytes
  · rw [readWALRecordAt, if_pos]
    rw [length_append, length_take]
    omega
  have hshp : record.frame.take cut = record.header ++ ((record.payload ++
      bigEndian walRecordChecksumBytes (crc32c (record.header ++ record.payload)).toNat).take
        (cut - walRecordHeaderBytes)) := by
    rw [frame, append_assoc, take_append, record.header_length,
      take_of_length_le (by rw [record.header_length]; omega)]
  rw [hshp, readWALRecordAt_header hlen hend, if_pos]
  rw [record.frame_length] at hcut
  rw [length_take]
  omega

end Read

/-! ## Transactions -/

/-- The batch as the log has it: the snapshot's payload is in a file of its own. -/
def PersistenceBatch.logged (batch : PersistenceBatch) : PersistenceBatch := { batch with snapshot := none }

lemma encodeWALRecords_eq_ok {out : Bytes} {records : List WALRecord}
    (h : encodeWALRecords encoded records = .ok out) : out = encoded ++ records.flatMap WALRecord.frame ∧
      (∀ record ∈ records, record.payload.length ≤ maxWALRecordPayloadBytes) ∧
      (encoded.length ≤ maxWALTransactionBytes → out.length ≤ maxWALTransactionBytes) := by
  induction records generalizing encoded with
  | nil =>
    cases h
    exact ⟨by simp, nofun, id⟩
  | cons record rest ih =>
    rw [encodeWALRecords] at h
    split at h
    · cases h
    rename_i bytes hbytes
    obtain ⟨hlen, rfl⟩ := encodeWALRecord_eq_ok.mp hbytes
    split at h
    · cases h
    rename_i hroom
    obtain ⟨hout, hall, hbd⟩ := ih h
    refine ⟨?_, ?_, ?_⟩
    · rw [hout, flatMap_cons, append_assoc]
    · exact forall_mem_cons.mpr ⟨hlen, hall⟩
    intro henc
    apply hbd
    rw [length_append]
    omega

/-- The records of a transaction. -/
def transactionRecords (boundary : Bytes) (effects : List WALRecord) : List WALRecord :=
  [⟨.transactionBegin, boundary⟩] ++ effects ++ [⟨.transactionCommit, boundary⟩]

/-- A transaction: its records one after the other, in its bounds. -/
structure Transaction (transactionID : Nat) (batch : PersistenceBatch) (boundary : Bytes)
    (effects : List WALRecord) (encoded : Bytes) : Prop where
  positive : transactionID ≠ 0
  bounds : validatePersistenceBatchBounds batch = .ok ()
  marked : encodeTransactionBoundaryPayload transactionID (flagsForBatch batch)
    (onesCount8 (flagsForBatch batch)) = .ok boundary
  listed : effectRecords transactionID batch = .ok effects
  bytes : encoded = (transactionRecords boundary effects).flatMap WALRecord.frame
  records : ∀ record ∈ transactionRecords boundary effects, record.payload.length ≤ maxWALRecordPayloadBytes
  length : encoded.length ≤ maxWALTransactionBytes

lemma encodeWALTransaction_eq_ok {transactionID : Nat} {batch : PersistenceBatch}
    (h : encodeWALTransaction transactionID batch = .ok encoded) :
    ∃ boundary effects, Transaction transactionID batch boundary effects encoded := by
  unfold encodeWALTransaction at h
  split at h
  · cases h
  rename_i hpos
  cases hbds : validatePersistenceBatchBounds batch with
  | error =>
    rw [hbds] at h
    cases h
  | ok =>
    simp only [hbds] at h
    change (if _ then _ else _) = _ at h
    split at h
    · cases h
    cases hbd : encodeTransactionBoundaryPayload transactionID (flagsForBatch batch)
        (onesCount8 (flagsForBatch batch)) with
    | error e =>
      rw [hbd] at h
      cases h
    | ok boundary =>
      rw [hbd] at h
      cases heffs : effectRecords transactionID batch with
      | error =>
        rw [heffs] at h
        cases h
      | ok effects =>
        rw [heffs] at h
        obtain ⟨henc, hrecs, hlen⟩ := encodeWALRecords_eq_ok h
        exact ⟨boundary, effects, hpos, hbds, hbd, heffs, henc, hrecs, hlen (Nat.zero_le _)⟩

section Effects

variable {transactionID : Nat} {batch : PersistenceBatch}

/-- The effects of a record list, read one after the other. -/
def decodeEffects (transactionID : Nat) (records : List WALRecord) (batch : PersistenceBatch) :
    Except RaftError PersistenceBatch :=
  records.foldlM (fun batch record => decodeEffectRecord record transactionID batch) batch

lemma decodeEffects_append (records records' : List WALRecord) {batch' : PersistenceBatch}
    (h : decodeEffects transactionID records batch = .ok batch') :
    decodeEffects transactionID (records ++ records') batch = decodeEffects transactionID records' batch' := by
  rw [decodeEffects, foldlM_append]
  rw [decodeEffects] at h
  rw [h]
  rfl

lemma decodeEffects_singleton (record : WALRecord) :
    decodeEffects transactionID [record] batch = decodeEffectRecord record transactionID batch := by
  rw [decodeEffects, foldlM_cons]
  cases decodeEffectRecord record transactionID batch <;> rfl

lemma effectRecords_eq_ok (h : effectRecords transactionID batch = .ok effects) :
    ∃ entries : List WALRecord, (batch.entries = [] ∧ entries = [] ∨ batch.entries ≠ [] ∧ ∃ payload,
        encodeEntriesPayload transactionID batch.entries = .ok payload ∧ entries = [⟨.entries, payload⟩]) ∧
      effects = batch.snapshotBase.toList.map (⟨.snapshotBase, encodeSnapshotPayload transactionID ·⟩) ++
        (if batch.replaceFrom ≠ 0 then
          [⟨.truncate, encodeTwoUint64Payload transactionID batch.replaceFrom⟩] else []) ++ entries ++
        batch.appliedIndex.toList.map (⟨.appliedIndex, encodeTwoUint64Payload transactionID ·⟩) ++
        batch.hardState.toList.map (⟨.hardState, encodeHardStatePayload transactionID ·⟩) := by
  unfold effectRecords at h
  by_cases hents : batch.entries = []
  · rw [if_pos hents] at h
    exact ⟨[], .inl ⟨hents, rfl⟩, (Except.ok.inj h).symm⟩
  rw [if_neg hents] at h
  cases hpayl : encodeEntriesPayload transactionID batch.entries with
  | error =>
    rw [hpayl] at h
    cases h
  | ok payload =>
    rw [hpayl] at h
    exact ⟨[⟨.entries, payload⟩], .inr ⟨hents, payload, rfl, rfl⟩, (Except.ok.inj h).symm⟩

/-- The types a set of effects announces, and how many there are. -/
lemma expectedRecordTypes_flags (hard truncate entries snapshot applied : Bool) :
    let flags := transactionFlag hard 1 ||| transactionFlag truncate 2 |||
      transactionFlag entries 4 ||| transactionFlag snapshot 8 ||| transactionFlag applied 16
    expectedRecordTypes flags = (if snapshot then [.snapshotBase] else []) ++
        (if truncate then [.truncate] else []) ++ (if entries then [.entries] else []) ++
        (if applied then [.appliedIndex] else []) ++ (if hard then [.hardState] else []) ∧
      onesCount8 flags = UInt8.ofNat (expectedRecordTypes flags).length := by
  revert hard truncate entries snapshot applied
  decide

/-- The records are of the types the flags announce. -/
lemma effectRecords_types (h : effectRecords transactionID batch = .ok effects) :
    effects.map (·.typeCode) = expectedRecordTypes (flagsForBatch batch) := by
  obtain ⟨entries, hents, rfl⟩ := effectRecords_eq_ok h
  have htypes : entries.map (·.typeCode) =
      if (decide (batch.entries ≠ [])) = true then [.entries] else [] := by
    obtain ⟨hnone, rfl⟩ | ⟨hsome, payload, -, rfl⟩ := hents
    · simp [hnone]
    · simp [hsome]
  have hoption : ∀ {α : Type} (value : Option α) (type : WALRecordType) (payload : α → Bytes),
      (value.toList.map fun a => (⟨type, payload a⟩ : WALRecord)).map (·.typeCode) =
        if value.isSome then [type] else [] := by
    intro α value type payload
    cases value <;> rfl
  have htrunc : ((if batch.replaceFrom ≠ 0 then
      [⟨.truncate, encodeTwoUint64Payload transactionID batch.replaceFrom⟩] else [] :
        List WALRecord)).map (·.typeCode) =
      if (decide (batch.replaceFrom ≠ 0)) = true then [.truncate] else [] := by
    by_cases hzero : batch.replaceFrom = 0
    · simp [hzero]
    · simp [hzero]
  rw [flagsForBatch, (expectedRecordTypes_flags _ _ _ _ _).1]
  simp only [map_append, htypes, htrunc, hoption]

/-- The effects read back are the batch, but for the snapshot's payload. -/
lemma decodeEffects_effectRecords (hid : transactionID < 2 ^ 64) (hwds : batch.Words)
    (h : effectRecords transactionID batch = .ok effects) :
    decodeEffects transactionID effects emptyBatch = .ok batch.logged := by
  obtain ⟨entries, hents, rfl⟩ := effectRecords_eq_ok h
  -- one effect after the other is added to the batch read so far
  have hsnap : decodeEffects transactionID (batch.snapshotBase.toList.map
      (⟨.snapshotBase, encodeSnapshotPayload transactionID ·⟩)) emptyBatch =
        .ok ⟨none, 0, [], batch.snapshotBase, none, none⟩ := by
    cases hbase : batch.snapshotBase with
    | none => rfl
    | some base =>
      obtain ⟨hidx, hterm, hschema⟩ := hwds.snapshotBase base hbase
      change decodeEffects transactionID [_] _ = _
      rw [decodeEffects_singleton, decodeEffectRecord]
      simp only [decodeSnapshotPayload_encode hid hidx hterm hschema]
      rfl
  have htrunc : decodeEffects transactionID (if batch.replaceFrom ≠ 0 then
      [⟨.truncate, encodeTwoUint64Payload transactionID batch.replaceFrom⟩] else [])
      ⟨none, 0, [], batch.snapshotBase, none, none⟩ =
        .ok ⟨none, batch.replaceFrom, [], batch.snapshotBase, none, none⟩ := by
    by_cases hzero : batch.replaceFrom = 0
    · rw [if_neg (not_not.mpr hzero), hzero]
      rfl
    rw [if_pos hzero, decodeEffects_singleton, decodeEffectRecord]
    simp only [decodeTwoUint64Payload_encode hid hwds.replaceFrom]
    change (if batch.replaceFrom = 0 then _ else _) = _
    rw [if_neg hzero]
    rfl
  have hread : decodeEffects transactionID entries
      ⟨none, batch.replaceFrom, [], batch.snapshotBase, none, none⟩ =
        .ok ⟨none, batch.replaceFrom, batch.entries, batch.snapshotBase, none, none⟩ := by
    obtain ⟨hnone, rfl⟩ | ⟨hsome, payload, hpayl, rfl⟩ := hents
    · rw [hnone]
      rfl
    rw [decodeEffects_singleton, decodeEffectRecord]
    simp only [decodeEntriesPayload_encode hid hwds.entries hpayl]
    rfl
  have happd : decodeEffects transactionID (batch.appliedIndex.toList.map
      (⟨.appliedIndex, encodeTwoUint64Payload transactionID ·⟩))
      ⟨none, batch.replaceFrom, batch.entries, batch.snapshotBase, none, none⟩ =
        .ok ⟨none, batch.replaceFrom, batch.entries, batch.snapshotBase, none, batch.appliedIndex⟩ := by
    cases hidx : batch.appliedIndex with
    | none => rfl
    | some index =>
      change decodeEffects transactionID [_] _ = _
      rw [decodeEffects_singleton, decodeEffectRecord]
      simp only [decodeTwoUint64Payload_encode hid (hwds.appliedIndex index hidx)]
      rfl
  have hhard : decodeEffects transactionID (batch.hardState.toList.map
      (⟨.hardState, encodeHardStatePayload transactionID ·⟩))
      ⟨none, batch.replaceFrom, batch.entries, batch.snapshotBase, none, batch.appliedIndex⟩ =
        .ok batch.logged := by
    cases hstate : batch.hardState with
    | none =>
      rw [PersistenceBatch.logged, hstate]
      rfl
    | some state =>
      obtain ⟨hterm, hvoted, hcmt⟩ := hwds.hardState state hstate
      change decodeEffects transactionID [_] _ = _
      rw [decodeEffects_singleton, decodeEffectRecord]
      simp only [decodeHardStatePayload_encode hid hterm hvoted hcmt]
      rw [PersistenceBatch.logged, hstate]
      rfl
  rw [append_assoc, append_assoc, append_assoc, decodeEffects_append _ _ hsnap,
    decodeEffects_append _ _ htrunc, decodeEffects_append _ _ hread,
    decodeEffects_append _ _ happd, hhard]

end Effects

end Crane.Raft
