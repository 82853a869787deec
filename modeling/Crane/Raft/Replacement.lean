import Crane.Raft.SnapshotAtomicity
import Mathlib.Tactic.IntervalCases

/-!
# Whether a rewritten log fits

A snapshot that is put in place takes the log's prefix away, and what is left of the log is written anew
as one transaction (`replacementBatchForState`). Each batch that came into the log was within the bounds
of a transaction. What is left is within them only if it is small enough as a whole
(`RecoveredState.Fits`), and nothing sees to that: a tail of entries that are not committed yet may have
come in several batches. Then the store is poisoned after the new snapshot is in place
(`persistSnapshot_iff_fits`).
-/

namespace Crane.Raft

open Program WALRecord PersistenceBatch FileStore
open List hiding get

variable {payload total count : Nat} {entries : List Entry} {present : Bool} {batch : PersistenceBatch}
variable {state : RecoveredState}

/-! ## The size of a transaction -/

/-- The bytes of a batch as a transaction: its two boundaries, and a record with a frame of twenty bytes
for each part that it has. -/
def PersistenceBatch.bytesWith (batch : PersistenceBatch) (payload : Nat) : Nat :=
  64 + (if batch.snapshotBase.isSome then 20 + 28 else 0) +
    (if decide (batch.replaceFrom ≠ 0) then 20 + 16 else 0) +
    (if decide (batch.entries ≠ []) then 20 + payload else 0) +
    (if batch.appliedIndex.isSome then 20 + 16 else 0) + (if batch.hardState.isSome then 20 + 26 else 0)

def PersistenceBatch.bytes (batch : PersistenceBatch) : Nat :=
  batch.bytesWith (10 + (batch.entries.flatMap encodeEntry).length)

lemma entriesPayload_eq_ok (hpayl : payload ≤ maxWALRecordPayloadBytes) :
    entriesPayload payload entries = .ok total ↔ (∀ e ∈ entries, e.command.length ≤ maxRaftCommandBytes) ∧
        total = payload + (entries.flatMap encodeEntry).length ∧ total ≤ maxWALRecordPayloadBytes := by
  induction entries generalizing payload with
  | nil =>
    simp only [entriesPayload, Except.ok.injEq, flatMap_nil, length_nil, Nat.add_zero]
    constructor
    · rintro rfl
      exact ⟨nofun, rfl, hpayl⟩
    · exact fun h => h.2.1.symm
  | cons e rest ih =>
    rw [entriesPayload, ite_error_eq_ok, flatMap_cons, length_append, encodeEntry_length,
      forall_mem_cons, not_lt, and_assoc]
    refine and_congr_right fun _ => ?_
    unfold checkedBoundedAdd
    by_cases hroom : payload + (minimumWALEntryBytes + e.command.length) ≤ maxWALRecordPayloadBytes
    · rw [if_neg (by omega)]
      simp only
      rw [ih hroom, Nat.add_assoc payload]
    rw [if_pos (by omega)]
    constructor
    · intro h
      cases h
    rintro ⟨-, htotal, hfits⟩
    omega

lemma addRecord_eq_ok {total' : Nat} (h : total ≤ maxWALTransactionBytes) :
    addRecord present payload total = .ok total' ↔
      total' = total + (if present then 20 + payload else 0) ∧ total' ≤ maxWALTransactionBytes := by
  unfold addRecord checkedBoundedAdd
  cases present with
  | false =>
    simp only [Bool.false_eq_true, if_false, Except.ok.injEq, Nat.add_zero]
    constructor
    · rintro rfl
      exact ⟨rfl, h⟩
    · exact fun h => h.1.symm
  | true =>
    by_cases hroom : total + (20 + payload) ≤ maxWALTransactionBytes
    · rw [if_pos rfl, if_neg (by omega)]
      simp only [Except.ok.injEq, if_true]
      omega
    rw [if_pos rfl, if_pos (by omega)]
    simp only [reduceCtorEq, if_true, false_iff]
    omega

lemma addRecord_bind {next : Nat → Except RaftError Nat} (h : total ≤ maxWALTransactionBytes) :
    (∃ sum, (addRecord present payload total >>= next) = .ok sum) ↔
      total + (if present then 20 + payload else 0) ≤ maxWALTransactionBytes ∧
        ∃ sum, next (total + (if present then 20 + payload else 0)) = .ok sum := by
  cases hadd : addRecord present payload total with
  | error e =>
    have hno : ¬ total + (if present then 20 + payload else 0) ≤ maxWALTransactionBytes := by
      intro hroom
      cases hadd.symm.trans ((addRecord_eq_ok h).mpr ⟨rfl, hroom⟩)
    refine ⟨?_, fun hroom => absurd hroom.1 hno⟩
    rintro ⟨sum, hsum⟩
    cases hsum
  | ok total' =>
    obtain ⟨rfl, hroom⟩ := (addRecord_eq_ok h).mp hadd
    exact ⟨fun hsum => ⟨hroom, hsum⟩, And.right⟩

lemma transactionBytes_fits : (∃ sum, transactionBytes batch payload = .ok sum) ↔
      batch.bytesWith payload ≤ maxWALTransactionBytes := by
  unfold transactionBytes bytesWith
  constructor
  · intro h
    obtain ⟨h1, h⟩ := (addRecord_bind (by decide)).mp h
    obtain ⟨h2, h⟩ := (addRecord_bind h1).mp h
    obtain ⟨h3, h⟩ := (addRecord_bind h2).mp h
    obtain ⟨h4, sum, h⟩ := (addRecord_bind h3).mp h
    exact ((addRecord_eq_ok h4).mp h).1 ▸ ((addRecord_eq_ok h4).mp h).2
  intro h
  exact (addRecord_bind (by decide)).mpr ⟨by omega, (addRecord_bind (by omega)).mpr ⟨by omega,
    (addRecord_bind (by omega)).mpr ⟨by omega, (addRecord_bind (by omega)).mpr ⟨by omega, _,
      (addRecord_eq_ok (by omega)).mpr ⟨rfl, h⟩⟩⟩⟩⟩

/-- What the bounds of a batch come to. -/
lemma discard_eq_ok {x : Except RaftError Nat} : (match x with
      | .error e => .error e
      | .ok _ => .ok () : Except RaftError Unit) = .ok () ↔ ∃ sum, x = .ok sum := by
  cases x <;> simp

lemma validatePersistenceBatchBounds_iff : validatePersistenceBatchBounds batch = .ok () ↔
      ¬ (batch.hardState = none ∧ batch.replaceFrom = 0 ∧ batch.entries = [] ∧
        batch.snapshotBase = none ∧ batch.snapshot = none ∧ batch.appliedIndex = none) ∧
      ¬ (batch.replaceFrom = 0 ∧ batch.entries ≠ []) ∧
      ¬ (∃ snapshot ∈ batch.snapshot, batch.snapshotBase ≠ some snapshot.metadata) ∧
      batch.entries.length ≤ 65535 ∧ (∀ e ∈ batch.entries, e.command.length ≤ maxRaftCommandBytes) ∧
      batch.bytes ≤ maxWALTransactionBytes := by
  unfold validatePersistenceBatchBounds
  simp only [ite_error_eq_ok, not_lt]
  refine and_congr_right fun _ => and_congr_right fun _ => and_congr_right fun _ => and_congr_right fun _ => ?_
  have hmkd : ∀ size, (if decide (batch.entries ≠ []) then size else 0) =
      if batch.entries = [] then 0 else size := by
    intro size
    by_cases h : batch.entries = [] <;> simp [h]
  have hbytes := fun payload => @transactionBytes_fits payload batch
  simp only [bytes, bytesWith, hmkd] at hbytes ⊢
  by_cases hents : batch.entries = []
  · simp only [if_pos hents] at hbytes ⊢
    refine discard_eq_ok.trans ((hbytes 0).trans ⟨fun h => ⟨?_, h⟩, And.right⟩)
    rw [hents]
    intro e he
    cases he
  simp only [if_neg hents] at hbytes ⊢
  cases hpayl : entriesPayload 10 batch.entries with
  | error e =>
    refine ⟨fun h => (by cases h), fun h => ?_⟩
    have hroom : 10 + (batch.entries.flatMap encodeEntry).length ≤ maxWALRecordPayloadBytes := by
      have := h.2
      unfold maxWALTransactionBytes at this
      unfold maxWALRecordPayloadBytes
      omega
    cases hpayl.symm.trans ((entriesPayload_eq_ok (by decide)).mpr ⟨h.1, rfl, hroom⟩)
  | ok payload =>
    obtain ⟨hcmds, rfl, -⟩ := (entriesPayload_eq_ok (by decide)).mp hpayl
    exact discard_eq_ok.trans ((hbytes _).trans ⟨fun h => ⟨hcmds, h⟩, And.right⟩)

/-! ## A batch within its bounds is written -/

lemma encodeEntries_succeeds {payload : Bytes}
    (hval : ∀ e ∈ entries, e.Valid ∧ e.command.length ≤ maxRaftCommandBytes)
    (hroom : payload.length + (entries.flatMap encodeEntry).length ≤ maxWALRecordPayloadBytes) :
    encodeEntries payload entries = .ok (payload ++ entries.flatMap encodeEntry) := by
  induction entries generalizing payload with
  | nil => simp [encodeEntries]
  | cons e rest ih =>
    obtain ⟨⟨hent, hcmd⟩, hrest⟩ := forall_mem_cons.mp hval
    rw [flatMap_cons, length_append, encodeEntry_length] at hroom
    have hsmall : ¬ (e.command.length > maxRaftCommandBytes ∨ e.command.length > 2 ^ 32 - 1) := by
      rw [maxRaftCommandBytes] at hcmd ⊢
      omega
    rw [encodeEntries, validateLogEntry_eq_ok.mpr hent]
    simp only
    rw [if_neg hsmall, if_neg (by omega), ih hrest, flatMap_cons, append_assoc]
    rw [length_append, encodeEntry_length]
    omega

lemma encodeWALRecords_succeeds {encoded : Bytes} {records : List WALRecord}
    (hroom : encoded.length + (records.flatMap WALRecord.frame).length ≤ maxWALTransactionBytes) :
    ∃ out, encodeWALRecords encoded records = .ok out := by
  induction records generalizing encoded with
  | nil => exact ⟨encoded, rfl⟩
  | cons record rest ih =>
    rw [flatMap_cons, length_append] at hroom
    have hfrm := record.frame_length
    have hpayl : record.payload.length ≤ maxWALRecordPayloadBytes := by
      unfold maxWALTransactionBytes at hroom
      unfold maxWALRecordPayloadBytes
      omega
    rw [encodeWALRecords, encodeWALRecord_eq_ok.mpr ⟨hpayl, rfl⟩]
    simp only
    rw [if_neg (by omega)]
    apply ih
    rw [length_append]
    omega

/-- The flags of a batch that is not empty are those of a transaction. -/
lemma flags_valid (hard truncate entries snapshot applied : Bool)
    (h : (hard || truncate || entries || snapshot || applied) = true) :
    let flags := transactionFlag hard 1 ||| transactionFlag truncate 2 |||
      transactionFlag entries 4 ||| transactionFlag snapshot 8 ||| transactionFlag applied 16
    flags ≠ 0 ∧ onesCount8 flags ≠ 0 ∧ flags &&& ~~~transactionFlagsAll = 0 := by
  revert hard truncate entries snapshot applied
  decide

lemma optional_frames {α : Type} (o : Option α) (f : α → WALRecord) (payload : Nat)
    (h : ∀ a, (f a).payload.length = payload) :
    ((o.toList.map f).flatMap WALRecord.frame).length = if o.isSome then 20 + payload else 0 := by
  cases o with
  | none => rfl
  | some a => simp [h, walRecordHeaderBytes, walRecordChecksumBytes]; omega

lemma encodeWALTransaction_succeeds {transactionID : Nat} (hid : transactionID ≠ 0)
    (hbds : validatePersistenceBatchBounds batch = .ok ()) (hval : ∀ e ∈ batch.entries, e.Valid) :
    ∃ encoded, encodeWALTransaction transactionID batch = .ok encoded := by
  obtain ⟨hsome, hrplc, hsnap, hcnt, hcmds, hbytes⟩ := validatePersistenceBatchBounds_iff.mp hbds
  have hprs : (batch.hardState.isSome || decide (batch.replaceFrom ≠ 0) || decide (batch.entries ≠ []) ||
      batch.snapshotBase.isSome || batch.appliedIndex.isSome) = true := by
    by_contra hnone
    simp only [Bool.not_eq_true, Bool.or_eq_false_iff, Option.isSome_eq_false_iff, Option.isNone_iff_eq_none,
      decide_eq_false_iff_not, not_not] at hnone
    obtain ⟨⟨⟨⟨hhard, hfrom⟩, hents⟩, hbase⟩, happd⟩ := hnone
    cases hpayl : batch.snapshot with
    | none => exact hsome ⟨hhard, hfrom, hents, hbase, hpayl, happd⟩
    | some snapshot => exact hsnap ⟨snapshot, hpayl, by rw [hbase]; exact nofun⟩
  obtain ⟨hflags, hones, hall⟩ : flagsForBatch batch ≠ 0 ∧ onesCount8 (flagsForBatch batch) ≠ 0 ∧
    flagsForBatch batch &&& ~~~transactionFlagsAll = 0 := flags_valid _ _ _ _ _ hprs
  have hpayl : batch.entries ≠ [] → encodeEntriesPayload transactionID batch.entries =
      .ok (bigEndian 8 transactionID ++ bigEndian 2 batch.entries.length ++
        batch.entries.flatMap encodeEntry) := by
    intro hnil
    have hsome := length_pos_iff.mpr hnil
    rw [bytes, bytesWith, if_pos (decide_eq_true hnil),
      maxWALTransactionBytes] at hbytes
    rw [encodeEntriesPayload, if_neg (by omega)]
    apply encodeEntries_succeeds fun e he => ⟨hval e he, hcmds e he⟩
    rw [maxWALRecordPayloadBytes, length_append, bigEndian_length, bigEndian_length]
    omega
  have heffs : ∃ effects, effectRecords transactionID batch = .ok effects := by
    unfold effectRecords
    by_cases hnil : batch.entries = []
    · rw [if_pos hnil]
      exact ⟨_, rfl⟩
    rw [if_neg hnil, hpayl hnil]
    exact ⟨_, rfl⟩
  obtain ⟨effects, heffs⟩ := heffs
  obtain ⟨entries, hents, rfl⟩ := effectRecords_eq_ok heffs
  have hlen : (entries.flatMap frame).length =
      if decide (batch.entries ≠ []) then 20 + (10 + (batch.entries.flatMap encodeEntry).length) else 0 := by
    rcases hents with ⟨hnil, rfl⟩ | ⟨hnil, payload, henc, rfl⟩
    · simp [hnil]
    cases (hpayl hnil).symm.trans henc
    simp [hnil, walRecordHeaderBytes, walRecordChecksumBytes]
    omega
  have htrunc : ((if batch.replaceFrom ≠ 0 then
      [⟨.truncate, encodeTwoUint64Payload transactionID batch.replaceFrom⟩] else [] :
        List WALRecord).flatMap frame).length =
      if decide (batch.replaceFrom ≠ 0) then 20 + 16 else 0 := by
    by_cases hfrom : batch.replaceFrom = 0 <;>
      simp [hfrom, encodeTwoUint64Payload, walRecordHeaderBytes, walRecordChecksumBytes]
  have hbd : encodeTransactionBoundaryPayload transactionID (flagsForBatch batch)
      (onesCount8 (flagsForBatch batch)) = .ok (bigEndian 8 transactionID ++
        [flagsForBatch batch, onesCount8 (flagsForBatch batch), 0, 0]) := by
    rw [encodeTransactionBoundaryPayload, if_neg]
    rw [validBoundary, decide_eq_true hid, decide_eq_true hall]
    simpa using hflags
  unfold encodeWALTransaction
  rw [if_neg hid, hbds]
  show ∃ encoded, (if flagsForBatch batch = 0 ∨ onesCount8 (flagsForBatch batch) = 0 then _ else _) = _
  rw [if_neg (not_or.mpr ⟨hflags, hones⟩), hbd, heffs]
  apply encodeWALRecords_succeeds
  simp only [flatMap_append, length_append, htrunc, hlen]
  rw [optional_frames _ _ 28 fun base => by simp [encodeSnapshotPayload],
    optional_frames _ _ 16 fun index => by simp [encodeTwoUint64Payload],
    optional_frames _ _ 26 fun hard => by simp [encodeHardStatePayload]]
  simp only [flatMap_cons, flatMap_nil, append_nil, frame_length,
    length_append, bigEndian_length, length_cons, length_nil, walRecordHeaderBytes,
    walRecordChecksumBytes]
  unfold bytes bytesWith at hbytes
  omega

/-! ## The rewritten log -/

/-- What is left of the log is small enough for one transaction. -/
def RecoveredState.Fits (state : RecoveredState) : Prop :=
  state.entries.length ≤ 65535 ∧ (∀ e ∈ state.entries, e.command.length ≤ maxRaftCommandBytes) ∧
    (state.entries ≠ [] → 260 + (state.entries.flatMap encodeEntry).length ≤ maxWALTransactionBytes)

lemma replacement_bounds (hbat : replacementBatchForState state = .ok batch) :
    validatePersistenceBatchBounds batch = .ok () ↔ state.Fits := by
  obtain ⟨snapshot, replaceFrom, -, hmeta, rfl, hfrom⟩ := replacementBatchForState_eq_ok hbat
  have hrplcd : ¬ (replaceFrom = 0 ∧ state.entries ≠ []) := by
    rintro ⟨hzero, hsome⟩
    rcases hfrom with ⟨-, hnil⟩ | ⟨hnext, -⟩
    · exact hsome hnil
    · omega
  rw [validatePersistenceBatchBounds_iff, RecoveredState.Fits]
  simp only [reduceCtorEq, false_and, not_false_eq_true, true_and, hrplcd, bytes,
    bytesWith, Option.mem_some_iff, exists_eq_left', hmeta, ne_eq, not_true_eq_false,
    Option.isSome_some, if_true]
  refine and_congr_right fun _ => and_congr_right fun _ => ?_
  by_cases hnil : state.entries = []
  · simp only [hnil, not_true_eq_false, decide_false, Bool.false_eq_true, if_false, false_implies, iff_true]
    split <;> decide
  have hpos : replaceFrom ≠ 0 := fun hzero => hrplcd ⟨hzero, hnil⟩
  simp only [hnil, hpos, not_false_eq_true, decide_true, if_true, true_implies]
  omega

section Stored

variable [Hash] {identity : StorageIdentity} {voters : VoterSet} {limit : Nat} {store : FileStore}
variable {snapshot : Snapshot} {prospective : RecoveredState}

/-- A valid state under a snapshot is rewritten as long as it fits. -/
lemma replacementTransaction_iff_fits {decoded : Snapshot} (h : Destined store decoded prospective) :
    (∃ content, replacementTransaction prospective = .ok content) ↔ prospective.Fits := by
  have hval := validateRecoveredState_ok h.words.base.index_le h.validated
  obtain ⟨held, hheld, -⟩ := h.held
  have hsto := hval.snapshot held hheld
  rw [validateStoredSnapshot, ite_error_eq_ok, not_or, ne_eq, not_not] at hsto
  obtain ⟨batch, hbat⟩ : ∃ batch, replacementBatchForState prospective = .ok batch := by
    rw [replacementBatchForState, hheld]
    simp only [ne_eq, hsto.1.2, not_true_eq_false, if_false]
    split
    · exact ⟨_, rfl⟩
    rename_i hsome
    have hlen := length_pos_iff.mpr hsome
    have hbd := hval.bound
    rw [checkedNextIndex_eq_some.mpr ⟨by omega, rfl⟩]
    exact ⟨_, rfl⟩
  have hents : batch.entries = prospective.entries := by
    obtain ⟨-, -, -, -, rfl, -⟩ := replacementBatchForState_eq_ok hbat
    rfl
  rw [← replacement_bounds hbat, replacementTransaction, hbat]
  constructor
  · rintro ⟨content, hcontent⟩
    obtain ⟨_, _, htrans⟩ := encodeWALTransaction_eq_ok hcontent
    exact htrans.bounds
  intro hbds
  exact encodeWALTransaction_succeeds Nat.one_ne_zero hbds (hents ▸ hval.valid)

/-- An accepted snapshot is in place before the log is found too large. -/
lemma persistSnapshot_eq (hclr : store.poisoned = false)
    (hcompact : compactRecoveredState store.state snapshot store.identity store.voters
      store.snapshotLimit = .ok prospective) :
    persistSnapshot snapshot store =
      match replacementTransaction prospective with
      | .error e => .error e { store with
          directory := store.directory.run (store.snapshotSteps snapshot prospective), poisoned := true }
      | .ok content => .ok () (store.snapshotted snapshot.envelope prospective content) := by
  have hstart : persistSnapshot snapshot store =
      persistSnapshotStateLocked snapshot prospective store := by
    simp only [persistSnapshot, bind, EStateM.bind, get, getThe, MonadStateOf.get]
    rw [show EStateM.get store = (.ok store store : EStateM.Result RaftError _ _) from rfl]
    simp only [hclr, hcompact]
    rfl
  rw [hstart, persistSnapshotStateLocked]
  cases hrepmt : replacementTransaction prospective with
  | error e => rfl
  | ok content =>
    simp only [snapshotted, snapshotSteps, hrepmt]
    rfl

/-- A snapshot of a store is put in place, and found again by the next process, exactly when what is left
of the log fits. -/
theorem persistSnapshot_iff_fits (hrun : FileRun identity voters limit store)
    (hclear : store.poisoned = false) (hwords : snapshot.metadata.Words)
    (hcompact : compactRecoveredState store.state snapshot store.identity store.voters
      store.snapshotLimit = .ok prospective) :
    (∃ store', persistSnapshot snapshot store = .ok () store' ∧ store'.state = prospective ∧
      ∃ reopened, openFileStore identity voters limit store'.directory = .ok reopened ∧
        prospective.ReadBack reopened.state identity limit (some snapshot.envelope)) ↔ prospective.Fits := by
  obtain ⟨hval, hident, hvtrs, hlim⟩ := hrun.valid
  obtain ⟨decoded, hdest, -⟩ := hval.destined hwords (.compacted hcompact)
  have hpers := persistSnapshot_eq hclear hcompact
  rw [← replacementTransaction_iff_fits hdest]
  constructor
  · rintro ⟨store', hsto, -⟩
    cases hrepmt : replacementTransaction prospective with
    | error e =>
      rw [hrepmt] at hpers
      cases hpers.symm.trans hsto
    | ok content => exact ⟨content, rfl⟩
  rintro ⟨content, hrepmt⟩
  rw [hrepmt] at hpers
  have haft := hval.snapshotted hwords (.compacted hcompact) hrepmt
  obtain ⟨reopened, state, hopn, hread⟩ := haft.reopen_before rfl (.inl ⟨rfl, haft.previous⟩)
  have hfile : (store.snapshotted snapshot.envelope prospective content).directory.snapshot =
      some snapshot.envelope := by
    simp only [snapshotted]
    cases store.state.snapshot.isSome <;> rfl
  rw [hfile, ← hopn.state] at hread
  have hopen := hopn.opened
  rw [← hident, ← hvtrs, ← hlim]
  exact ⟨_, hpers, rfl, reopened, hopen, hread⟩

/-- A batch that is accepted and within its bounds is appended. -/
lemma persist_succeeds (store : FileStore) (batch : PersistenceBatch) (state : RecoveredState)
    (hclr : store.poisoned = false) (hlog : batch.OfLog) (hnum : store.nextTxnID ≠ 0)
    (hval : ∀ e ∈ batch.entries, e.Valid) (hbds : validatePersistenceBatchBounds batch = .ok ())
    (hapl : applyValidatedPersistenceBatch store.state batch store.identity store.voters = .ok state)
    (hroom : store.directory.wal.length + maxWALTransactionBytes ≤ maxInt64) :
    ∃ encoded, encoded.length ≤ maxWALTransactionBytes ∧ store.persist batch = .ok { store with
      state := state
      nextTxnID := if store.nextTxnID = maxUint64 then 0 else store.nextTxnID + 1
      directory := { store.directory with wal := store.directory.wal ++ encoded } } := by
  obtain ⟨encoded, henc⟩ := encodeWALTransaction_succeeds hnum hbds hval
  obtain ⟨_, _, htrans⟩ := encodeWALTransaction_eq_ok henc
  have hlen := htrans.length
  have hfits : ¬ (store.directory.wal ++ encoded).length > maxInt64 := by
    rw [length_append]
    omega
  refine ⟨encoded, hlen, ?_⟩
  simp [persist, walStore, WALStore.persist, bind, Except.bind, pure, Except.pure,
    hclr, hbds, hlog.snapshot, hnum, hapl, henc, -length_append, hfits]
  rfl

end Stored

/-! ### Eight large entries above a snapshot -/

namespace Crash

/-- The first entry is committed, `count` entries after it are not. -/
def crowded (command : Bytes) (count : Nat) : RecoveredState :=
  { RecoveredState.fresh identity with
    hardState := ⟨1, 1, 1⟩
    entries := ⟨1, 1, .noOp, []⟩ :: (range count).map fun i => ⟨i + 2, 1, .command, command⟩ }

def proposed (command : Bytes) (count : Nat) : PersistenceBatch :=
  ⟨none, count + 2, [⟨count + 2, 1, .command, command⟩], none, none, none⟩

lemma crowded_applies (command : Bytes) (h : count < 8) :
    applyValidatedPersistenceBatch (crowded command count) (proposed command count) identity voters =
      .ok (crowded command (count + 1)) := by
  -- nothing of a command is looked at, so both sides compute to the same state
  interval_cases count <;> rfl

variable {command : Bytes} (hcmd : command.length = maxRaftCommandBytes)

include hcmd

lemma proposed_bounds (count : Nat) : validatePersistenceBatchBounds (proposed command count) = .ok () := by
  rw [validatePersistenceBatchBounds_iff]
  simp [proposed, bytes, bytesWith, encodeEntry_length, hcmd]
  decide

/-- The entries come into the log one by one. -/
lemma crowded_reached (h : count ≤ 8) : ∃ store, FileRun identity voters 1000 store ∧
    store.poisoned = false ∧ store.state = crowded command count ∧ store.nextTxnID = count + 2 ∧
      store.directory.wal.length ≤ (count + 1) * maxWALTransactionBytes := by
  induction count with
  | zero =>
    have hopen : ((openFileStore identity voters 1000 .empty).toOption.any fun store =>
        store.poisoned = false ∧ store.nextTxnID = 1 ∧ store.directory.wal = []) = true := by
      decide +kernel
    simp only [Option.any_eq_true, toOption_eq_some, decide_eq_true_eq] at hopen
    obtain ⟨store, hopen, hclr, hnum, hwal⟩ := hopen
    have hopn := openFileStore_empty hopen
    obtain ⟨encoded, hlen, hpers⟩ := persist_succeeds store elected (crowded command 0) hclr
      ⟨rfl, rfl, rfl⟩ (by omega) (by simp [elected]; exact ⟨by decide, by decide, .inr ⟨rfl, rfl⟩⟩)
      (by decide) (by rw [hopn.state, hopn.identity, hopn.voters]; rfl) (by rw [hwal]; decide)
    refine ⟨_, .persist (.created hopen) ⟨rfl, rfl, rfl⟩ elected_words hpers, hclr, rfl, ?_, ?_⟩
    · simp [hnum, maxUint64]
    · simpa [hwal] using hlen
  | succ count ih =>
    obtain ⟨store, hrun, hclr, hstate, hnum, hwal⟩ := ih (by omega)
    obtain ⟨-, hident, hvtrs, -⟩ := hrun.valid
    obtain ⟨encoded, hlen, hpers⟩ := persist_succeeds store (proposed command count)
      (crowded command (count + 1)) hclr ⟨rfl, rfl, rfl⟩ (by omega)
      (by simp [proposed]; exact ⟨by simp, Nat.one_pos, .inl rfl⟩) (proposed_bounds hcmd count)
      (by rw [hstate, hident, hvtrs]; exact crowded_applies command h)
      (by rw [maxWALTransactionBytes, maxRPCPayloadBytes] at hwal ⊢; rw [maxInt64]; omega)
    refine ⟨_, hrun.persist ⟨rfl, rfl, rfl⟩ ?_ hpers, hclr, rfl, ?_, ?_⟩
    · refine ⟨?_, ?_, ?_, ?_, ?_⟩ <;> simp [proposed] <;> omega
    · simp [hnum, maxUint64]; omega
    rw [Nat.succ_mul]
    simp only [length_append]
    omega

/-- A snapshot of the first entry leaves the entries after it. -/
lemma crowded_compacts (h : count ≤ 8) : ∃ store snapshot prospective,
    FileRun identity voters 1000 store ∧ store.poisoned = false ∧ snapshot.metadata = ⟨1, 1, 1⟩ ∧
    compactRecoveredState store.state snapshot store.identity store.voters store.snapshotLimit = .ok prospective ∧
    prospective.entries = (range count).map fun i => ⟨i + 2, 1, .command, command⟩ := by
  obtain ⟨store, hrun, hclr, hstate, -, -⟩ := crowded_reached hcmd h
  obtain ⟨-, hident, hvtrs, hlim⟩ := hrun.valid
  refine ⟨store, (newSnapshot identity ⟨1, 1, 1⟩ [5] 1000).toOption.get rfl, ?_⟩
  rw [hstate, hident, hvtrs, hlim]
  interval_cases count <;> exact ⟨_, hrun, hclr, rfl, rfl, rfl⟩

/-- Seven of them fit, eight do not. -/
lemma crowded_fits (h : 0 < count)
    (hents : state.entries = (range count).map fun i => ⟨i + 2, 1, .command, command⟩) :
    state.Fits ↔ count < 8 := by
  have hbytes : (state.entries.flatMap encodeEntry).length = count * (21 + maxRaftCommandBytes) := by
    simp [hents, length_flatMap, Function.comp_def, encodeEntry_length, hcmd, minimumWALEntryBytes]
  have hcmds : ∀ e ∈ state.entries, e.command.length ≤ maxRaftCommandBytes := by simp [hents, hcmd]
  have hlen : state.entries.length = count := by simp [hents]
  have hsome : state.entries ≠ [] := length_pos_iff.mp (hlen ▸ h)
  rw [RecoveredState.Fits, hbytes, hlen, maxWALTransactionBytes, maxRPCPayloadBytes, maxRaftCommandBytes]
  constructor
  · rintro ⟨-, -, hfits⟩
    have := hfits hsome
    omega
  intro hfew
  exact ⟨by omega, hcmds, fun _ => by omega⟩

end Crash

open Crash in
theorem persistSnapshot_iff_fits_seven : ∃ store snapshot prospective store',
    FileRun identity voters 1000 store ∧ store.poisoned = false ∧ snapshot.metadata.Words ∧
    compactRecoveredState store.state snapshot store.identity store.voters store.snapshotLimit =
      .ok prospective ∧ prospective.entries.length = 7 ∧
    persistSnapshot snapshot store = .ok () store' ∧ store'.state = prospective := by
  obtain ⟨store, snapshot, prospective, hrun, hclr, hmeta, hcompact, hents⟩ :=
    crowded_compacts (length_replicate (a := (0 : UInt8))) (show 7 ≤ 8 by decide)
  have hwds : snapshot.metadata.Words := by
    rw [hmeta]
    decide
  obtain ⟨store', hsto, hstate, -⟩ := (persistSnapshot_iff_fits hrun hclr hwds hcompact).mpr
    ((crowded_fits length_replicate (by decide) hents).mpr (by decide))
  exact ⟨store, snapshot, prospective, store', hrun, hclr, hwds, hcompact, by simp [hents], hsto, hstate⟩

open Crash in
/-- The store is poisoned, with the new snapshot in place. -/
theorem persistSnapshot_poisons : ∃ store snapshot prospective e store',
    FileRun identity voters 1000 store ∧ store.poisoned = false ∧
    compactRecoveredState store.state snapshot store.identity store.voters store.snapshotLimit =
      .ok prospective ∧ prospective.entries.length = 8 ∧
    persistSnapshot snapshot store = .error e store' ∧ store'.poisoned = true ∧
    store'.directory.snapshot = some snapshot.envelope := by
  obtain ⟨store, snapshot, prospective, hrun, hclr, hmeta, hcompact, hents⟩ :=
    crowded_compacts (length_replicate (a := (0 : UInt8))) (show 8 ≤ 8 from le_rfl)
  obtain ⟨decoded, hdest, -⟩ := hrun.valid.1.destined (by rw [hmeta]; decide) (.compacted hcompact)
  have hlarge : ¬ prospective.Fits := fun hfits =>
    absurd ((crowded_fits length_replicate (by decide) hents).mp hfits) (by decide)
  have hpers := persistSnapshot_eq hclr hcompact
  cases hrepmt : replacementTransaction prospective with
  | ok content => exact absurd ((replacementTransaction_iff_fits hdest).mp ⟨content, hrepmt⟩) hlarge
  | error e =>
    rw [hrepmt] at hpers
    refine ⟨store, snapshot, prospective, e, _, hrun, hclr, hcompact, by simp [hents], hpers, rfl, ?_⟩
    simp only [snapshotSteps, hrepmt]
    cases store.state.snapshot.isSome <;> rfl

end Crane.Raft
