import Crane.Data.Frames
import Crane.Raft.WALFacts

/-!
# The log after a crash

What a log holds is the transactions that were written out (`Logged`). Scanning such a log, with the
start of one more transaction behind it, goes through every record of the complete transactions,
applies their batches one by one, and stops in the unfinished one: nothing of it is applied, and the
file is cut off where it began.
-/

namespace Crane.Raft

open Data Program List Nat WALRecord RecoveredState WALScan

variable {cut : Nat} {done more : List WALRecord} {read : PersistenceBatch} {advanced : Bool}

section Scan

variable [Hash] {identity : StorageIdentity} {voters : VoterSet}
variable {file before after : Bytes} {record : WALRecord} {scan scan' : WALScan}

section

variable (hlen : record.payload.length ≤ maxWALRecordPayloadBytes)

include hlen

section

variable (hend : before.length + record.frame.length ≤ maxInt64)

include hend

/-- A record in its place is read and the scan goes on behind it. -/
lemma scanWAL_frame
    (hstep : scan.step identity voters record before.length (before.length + record.frame.length) = .ok scan')
    : scanWAL identity voters (before ++ (record.frame ++ after)) before.length scan =
      scanWAL identity voters (before ++ (record.frame ++ after))
        (before.length + record.frame.length) scan' := by
  have hread : readWALRecordAt (before ++ (record.frame ++ after)) before.length = _ :=
    readWALRecordAt_frame hlen hend
  have hmore : before.length < (before ++ (record.frame ++ after)).length := by
    simp only [length_append, record.frame_length, walRecordHeaderBytes]
    omega
  rw [scanWAL, if_pos hmore]
  split
  · rename_i e herror
    rw [hread] at herror
    cases herror
  · rename_i hpartial
    rw [hread] at hpartial
    cases hpartial
  rename_i found next hfnd
  rw [hread] at hfnd
  cases hfnd
  rw [hstep]

/-- A record that stops short ends the scan. -/
lemma scanWAL_torn (hcut : cut < record.frame.length) (hpos : 0 < cut) :
    scanWAL identity voters (before ++ record.frame.take cut) before.length scan =
      .ok ⟨scan.state, scan.lastTransaction, (before ++ record.frame.take cut).take scan.boundary⟩ := by
  have hread := readWALRecordAt_torn hlen hend hcut
  have hmore : before.length < (before ++ record.frame.take cut).length := by
    rw [length_append, length_take]
    omega
  rw [scanWAL, if_pos hmore]
  split
  · rename_i e herror
    rw [hread] at herror
    cases herror
  · rfl
  rename_i found next hfnd
  rw [hread] at hfnd
  cases hfnd

end

end

/-- The end of the file ends the scan. -/
lemma scanWAL_end (hval : validateRecoveredState scan.state identity voters = .ok ()) :
    scanWAL identity voters file file.length scan = .ok ⟨scan.state, scan.lastTransaction,
        if scan.active.isSome then file.take scan.boundary else file⟩ := by
  rw [scanWAL, if_neg (lt_irrefl _), hval]

/-! ## The records of a transaction -/

/-- The scan in a transaction of which it has read some effects. -/
def WALScan.reading (scan : WALScan) (transaction : OpenTransaction) (effects : Nat)
    (batch : PersistenceBatch) : WALScan :=
  { scan with active := some { transaction with
    effectIndex := transaction.effectIndex + effects, batch } }

/-- The effects of a transaction are read one by one. -/
lemma scanWAL_effects {effects : List WALRecord} {more : List WALRecordType}
    {transaction : OpenTransaction} {batch : PersistenceBatch} (hact : scan.active = some transaction)
    (hexp : transaction.expected.drop transaction.effectIndex = effects.map (·.typeCode) ++ more)
    (hdcd : decodeEffects transaction.transactionID effects transaction.batch = .ok batch)
    (hlen : ∀ record ∈ effects, record.payload.length ≤ maxWALRecordPayloadBytes)
    (hfile : file = before ++ (effects.flatMap frame ++ after)) {offset : Nat}
    (hoff : offset = before.length) (hend : offset + (effects.flatMap frame).length ≤ maxInt64)
    (hbd : offset + (effects.flatMap frame).length - transaction.transactionStart ≤
      maxWALTransactionBytes) : scanWAL identity voters file offset scan = scanWAL identity voters file
        (offset + (effects.flatMap frame).length) (scan.reading transaction effects.length batch) := by
  induction effects generalizing before offset scan transaction with
  | nil =>
    cases hdcd
    have hsame : scan.reading transaction 0 transaction.batch = scan := by
      rw [reading, add_zero, ← hact]
    rw [length_nil, hsame]
    rfl
  | cons record rest ih =>
    rw [flatMap_cons, length_append] at hend hbd
    rw [decodeEffects, foldlM_cons] at hdcd
    cases hrec : decodeEffectRecord record transaction.transactionID transaction.batch with
    | error =>
      rw [hrec] at hdcd
      cases hdcd
    | ok batch' =>
      rw [hrec] at hdcd
      -- the record is of the type that comes next
      have hnext : transaction.expected[transaction.effectIndex]? = some record.typeCode := by
        rw [← head?_drop, hexp]
        rfl
      have hrest : transaction.expected.drop (transaction.effectIndex + 1) = rest.map (·.typeCode) ++ more := by
        rw [← tail_drop, hexp]
        rfl
      have hstep : scan.step identity voters record offset (offset + record.frame.length) =
          .ok (scan.reading transaction 1 batch') := by
        rw [step, hact]
        simp only [hnext]
        rw [if_neg (by omega), if_neg (not_not.mpr rfl), hrec]
        rfl
      rw [flatMap_cons, append_assoc] at hfile
      have hfirst : scanWAL identity voters file offset scan = scanWAL identity voters file
          (offset + record.frame.length) (scan.reading transaction 1 batch') := by
        rw [hfile, hoff]
        rw [hoff] at hend hstep
        exact scanWAL_frame (hlen record mem_cons_self) (by omega) hstep
      have hact' : (scan.reading transaction 1 batch').active = some { transaction with
          effectIndex := transaction.effectIndex + 1, batch := batch' } := rfl
      rw [hfirst, ih hact' hrest hdcd (fun other h => hlen other (mem_cons_of_mem _ h))
        (hfile.trans (append_assoc ..).symm) (by rw [hoff, length_append]) (by omega)
        (by change _ - transaction.transactionStart ≤ _; omega)]
      have hcnt : (scan.reading transaction 1 batch').reading
          { transaction with effectIndex := transaction.effectIndex + 1, batch := batch' }
          rest.length batch = scan.reading transaction (record :: rest).length batch := by
        simp only [reading, length_cons]
        have : transaction.effectIndex + 1 + rest.length = transaction.effectIndex + (rest.length + 1) := by omega
        rw [this]
      rw [hcnt, flatMap_cons, length_append, add_assoc]

section Transactions

variable {transactionID : Nat} {batch : PersistenceBatch} {boundary encoded : Bytes}
variable {effects : List WALRecord} {state state' : RecoveredState}

/-- The transaction the scan opens when it reads the begin record. -/
def openedAt (start transactionID : Nat) (batch : PersistenceBatch) : OpenTransaction :=
  ⟨start, transactionID, flagsForBatch batch, onesCount8 (flagsForBatch batch),
    expectedRecordTypes (flagsForBatch batch), 0, emptyBatch⟩

section

variable (h : Transaction (transactionID + 1) batch boundary effects encoded)

include h

/-- A transaction's number follows the last one. -/
lemma step_begin (hid : transactionID + 1 < 2 ^ 64) {start next : Nat} :
    step identity voters ⟨state, start, transactionID, none⟩ ⟨.transactionBegin, boundary⟩
        start next = .ok ⟨state, start, transactionID, some (openedAt start (transactionID + 1) batch)⟩ := by
  have hsmall : ¬ (transactionID = maxUint64 ∨ transactionID + 1 ≠ transactionID + 1) := by
    rw [maxUint64]
    omega
  rw [step]
  simp only
  rw [beginTransaction, if_neg (not_not.mpr rfl)]
  simp only [decodeTransactionBoundaryPayload_encode hid h.marked]
  change (if transactionID = maxUint64 ∨ transactionID + 1 ≠ transactionID + 1 then _ else _) = _
  rw [if_neg hsmall]
  rfl

/-- Behind the last effect the commit record applies the batch. -/
lemma step_commit (hid : transactionID + 1 < 2 ^ 64)
    (hapl : applyPersistenceBatch state batch.logged identity voters = .ok state') {start next : Nat}
    (hbd : next - start ≤ maxWALTransactionBytes) {offset : Nat} :
    (reading ⟨state, start, transactionID, some (openedAt start (transactionID + 1) batch)⟩
        (openedAt start (transactionID + 1) batch) effects.length batch.logged).step identity voters
        ⟨.transactionCommit, boundary⟩ offset next = .ok ⟨state', next, transactionID + 1, none⟩ := by
  have hcnt : effects.length = (expectedRecordTypes (flagsForBatch batch)).length := by
    rw [← effectRecords_types h.listed, length_map]
  have hdone : (expectedRecordTypes (flagsForBatch batch))[0 + effects.length]? = none := by
    rw [getElem?_eq_none_iff]
    omega
  rw [step]
  simp only [reading, openedAt]
  rw [if_neg (not_lt.mpr hbd), hdone]
  simp only
  rw [commitTransaction, if_neg (not_not.mpr rfl)]
  simp only [decodeTransactionBoundaryPayload_encode hid h.marked]
  change (if _ then _ else _) = _
  rw [if_neg]
  · rw [hapl]
  have hflags : onesCount8 (flagsForBatch batch) =
      UInt8.ofNat (expectedRecordTypes (flagsForBatch batch)).length :=
    (expectedRecordTypes_flags _ _ _ _ _).2
  have hlog : flagsForBatch batch.logged = flagsForBatch batch := rfl
  simp only [ne_eq, not_true_eq_false, hlog, ← hflags, or_self, not_false_eq_true]

end

omit [Hash] in
lemma mem_transactionRecords_effects (hmem : record ∈ effects) :
    record ∈ transactionRecords boundary effects := by
  simp [transactionRecords, hmem]

omit [Hash] in
lemma transactionRecords_frames (boundary : Bytes) (effects : List WALRecord) :
    (transactionRecords boundary effects).flatMap frame =
      frame ⟨.transactionBegin, boundary⟩ ++ (effects.flatMap frame ++
        frame ⟨.transactionCommit, boundary⟩) := by
  simp [transactionRecords]

/-- The begin record and the first effects of a transaction are read. -/
lemma scanWAL_start (h : Transaction (transactionID + 1) batch boundary effects encoded)
    (hid : transactionID + 1 < 2 ^ 64) (heffs : effects = done ++ more)
    (hread : decodeEffects (transactionID + 1) done emptyBatch = .ok read)
    (hend : before.length + encoded.length ≤ maxInt64) {start : Bytes}
    (hstart : start = before ++ (frame ⟨.transactionBegin, boundary⟩ ++ done.flatMap frame)) :
    scanWAL identity voters (start ++ after) before.length ⟨state, before.length, transactionID, none⟩ =
      scanWAL identity voters (start ++ after) start.length (reading ⟨state, before.length,
          transactionID, some (openedAt before.length (transactionID + 1) batch)⟩
          (openedAt before.length (transactionID + 1) batch) done.length read) := by
  have hrecs := h.records
  have hlen := h.length
  have htypes := effectRecords_types h.listed
  rw [heffs] at hrecs htypes
  -- what has been read so far is within the transaction
  have hwithin : (frame ⟨.transactionBegin, boundary⟩).length +
      (done.flatMap frame).length ≤ encoded.length := by
    rw [h.bytes, transactionRecords_frames, heffs]
    simp only [length_append, flatMap_append]
    omega
  have hexp : (openedAt before.length (transactionID + 1) batch).expected.drop 0 =
      done.map (·.typeCode) ++ more.map (·.typeCode) := by
    rw [← map_append, htypes]
    rfl
  have hlast : start.length = before.length + (frame ⟨.transactionBegin, boundary⟩).length +
      (done.flatMap frame).length := by
    rw [hstart, length_append, length_append, add_assoc]
  rw [hlast, hstart, append_assoc, append_assoc,
    scanWAL_frame (hrecs _ (by simp [transactionRecords])) (by omega) (step_begin h hid)]
  refine scanWAL_effects rfl hexp hread ?_ (append_assoc ..).symm length_append.symm (by omega) ?_
  · intro record hrec
    exact hrecs record (mem_transactionRecords_effects (mem_append_left _ hrec))
  change _ - before.length ≤ _
  omega

/-- A transaction that is there as a whole is read and its batch applied. -/
lemma scanWAL_transaction (hwds : batch.Words) (hid : transactionID + 1 < 2 ^ 64)
    (henc : encodeWALTransaction (transactionID + 1) batch = .ok encoded)
    (hapl : applyPersistenceBatch state batch.logged identity voters = .ok state')
    (hend : before.length + encoded.length ≤ maxInt64) :
    scanWAL identity voters (before ++ (encoded ++ after)) before.length
        ⟨state, before.length, transactionID, none⟩ =
      scanWAL identity voters (before ++ (encoded ++ after)) (before.length + encoded.length)
        ⟨state', before.length + encoded.length, transactionID + 1, none⟩ := by
  obtain ⟨boundary, effects, h⟩ := encodeWALTransaction_eq_ok henc
  have hread := decodeEffects_effectRecords hid hwds h.listed
  have hlen := h.length
  obtain ⟨start, hstart⟩ : ∃ start, start =
    before ++ (frame ⟨.transactionBegin, boundary⟩ ++ effects.flatMap frame) := ⟨_, rfl⟩
  have hshp : before ++ (encoded ++ after) = start ++ (frame ⟨.transactionCommit, boundary⟩ ++ after) := by
    rw [hstart, h.bytes, transactionRecords_frames]
    simp only [append_assoc]
  have hlast : before.length + encoded.length = start.length + (frame ⟨.transactionCommit, boundary⟩).length := by
    rw [hstart, h.bytes, transactionRecords_frames]
    simp only [length_append]
    omega
  rw [hshp, scanWAL_start h hid (append_nil effects).symm hread hend hstart, hlast]
  -- the commit record is the last one
  refine scanWAL_frame (h.records _ (by simp [transactionRecords])) (by omega) ?_
  exact step_commit h hid hapl (by omega)

omit [Hash] in
/-- A start of the effects can be read if the whole can. -/
lemma decodeEffects_prefix {batch : PersistenceBatch}
    (h : decodeEffects transactionID (done ++ more) batch = .ok read) :
    ∃ some, decodeEffects transactionID done batch = .ok some := by
  cases hdone : decodeEffects transactionID done batch with
  | ok some => exact ⟨some, rfl⟩
  | error =>
    rw [decodeEffects, foldlM_append] at h
    rw [decodeEffects] at hdone
    rw [hdone] at h
    cases h

/-- The scan stops where the file does, in the middle of a record or between two. -/
lemma scanWAL_cut (hval : validateRecoveredState scan.state identity voters = .ok ())
    (hlen : record.payload.length ≤ maxWALRecordPayloadBytes)
    (hend : before.length + record.frame.length ≤ maxInt64) (hcut : cut < record.frame.length)
    (hbd : scan.boundary ≤ before.length) (hidle : scan.active = none → scan.boundary = before.length) :
    scanWAL identity voters (before ++ record.frame.take cut) before.length scan =
      .ok ⟨scan.state, scan.lastTransaction, before.take scan.boundary⟩ := by
  cases Nat.eq_zero_or_pos cut with
  | inl hzero =>
    rw [hzero, take_zero, append_nil, scanWAL_end hval]
    cases hact : scan.active with
    | none =>
      rw [hidle hact, take_length]
      rfl
    | some => rfl
  | inr hpos => rw [scanWAL_torn hlen hend hcut hpos, take_append_of_le_length hbd]

/-- Nothing of a transaction that is not there as a whole is applied, and the file is cut off where
it began. -/
lemma scanWAL_unfinished (hwds : batch.Words) (hid : transactionID + 1 < 2 ^ 64)
    (henc : encodeWALTransaction (transactionID + 1) batch = .ok encoded)
    (hend : before.length + encoded.length ≤ maxInt64)
    (hval : validateRecoveredState state identity voters = .ok ()) (hcut : cut < encoded.length) :
    scanWAL identity voters (before ++ encoded.take cut) before.length
        ⟨state, before.length, transactionID, none⟩ = .ok ⟨state, transactionID, before⟩ := by
  obtain ⟨boundary, effects, h⟩ := encodeWALTransaction_eq_ok henc
  have hrecs := h.records
  have hbytes := h.bytes
  rw [hbytes] at hcut hend
  obtain ⟨done, next, rest, cut', hsplit, hcut', htake⟩ := take_flatMap_lt frame hcut
  rw [hbytes, htake]
  rw [hsplit] at hrecs hend
  have hnext := hrecs next (by simp)
  rw [flatMap_append, flatMap_cons, length_append, length_append] at hend
  cases done with
  | nil =>
    -- the cut is in the begin record
    rw [flatMap_nil, length_nil] at hend
    rw [flatMap_nil, nil_append]
    refine (scanWAL_cut hval hnext (by omega) hcut' (le_refl _) fun _ => rfl).trans ?_
    change Except.ok (RecoveredWAL.mk state transactionID (before.take before.length)) = _
    rw [take_length]
  | cons _ done =>
    -- some effects were read, and the transaction is still open
    rw [transactionRecords, cons_append, cons_append, nil_append, cons_append] at hsplit
    obtain ⟨rfl, hbody⟩ := cons.inj hsplit
    have heffs : effects = done ++ (next :: rest).dropLast := by
      have hlast := congrArg dropLast hbody
      rwa [dropLast_concat, dropLast_append_of_ne_nil (cons_ne_nil _ _)] at hlast
    have hall := decodeEffects_effectRecords hid hwds h.listed
    rw [heffs] at hall
    obtain ⟨read, hread⟩ := decodeEffects_prefix hall
    have hfits : before.length + encoded.length ≤ maxInt64 := by
      rw [hbytes, transactionRecords, cons_append, cons_append, nil_append, hbody]
      simp only [flatMap_cons, flatMap_append, length_append] at hend ⊢
      omega
    rw [flatMap_cons, ← append_assoc, scanWAL_start h hid heffs hread hfits rfl]
    refine (scanWAL_cut hval hnext ?_ hcut' ?_ ?_).trans ?_
    · simp only [flatMap_cons, length_append] at hend ⊢
      omega
    · change before.length ≤ _
      rw [length_append]
      omega
    · intro hidle
      cases hidle
    change Except.ok (RecoveredWAL.mk state transactionID (take before.length _)) = _
    rw [take_left]

end Transactions

/-! ## What a log holds -/

/-- The log consists of transactions that were written out, numbered from one, and applying their
batches in turn gives this state. -/
inductive Logged (identity : StorageIdentity) (voters : VoterSet) : Bytes → RecoveredState → Nat → Prop where
  | empty (hfresh : validateRecoveredState (.fresh identity) identity voters = .ok ()) :
    Logged identity voters [] (.fresh identity) 0
  | append {file encoded : Bytes} {state state' : RecoveredState} {last : Nat}
    {batch : PersistenceBatch} (hlogged : Logged identity voters file state last)
    (hwords : batch.Words) (hid : last + 1 < 2 ^ 64)
    (hencoded : encodeWALTransaction (last + 1) batch = .ok encoded)
    (happly : applyPersistenceBatch state batch.logged identity voters = .ok state')
    (hfits : (file ++ encoded).length ≤ maxInt64) :
    Logged identity voters (file ++ encoded) state' (last + 1)

variable {state : RecoveredState} {last : Nat}

lemma applyValidated_validates {batch : PersistenceBatch} {state' : RecoveredState}
    (h : applyValidatedPersistenceBatch state batch identity voters = .ok state') :
    validateRecoveredState state' identity voters = .ok () := by
  unfold applyValidatedPersistenceBatch at h
  split at h
  · cases h
  split at h
  · cases h
  split at h
  · cases h
  simp only at h
  split at h
  · cases h
  split at h
  · cases h
  rename_i hval
  cases h
  exact hval

lemma applyPersistenceBatch_eq_ok {batch : PersistenceBatch} {state' : RecoveredState}
    (h : applyPersistenceBatch state batch identity voters = .ok state') :
    applyValidatedPersistenceBatch state batch identity voters = .ok state' := by
  unfold applyPersistenceBatch at h
  split at h
  · cases h
  · exact h

section

variable (h : Logged identity voters file state last)

include h

lemma Logged.valid : validateRecoveredState state identity voters = .ok () := by
  cases h with
  | empty hfrs => exact hfrs
  | append _ _ _ _ hapl => exact applyValidated_validates (applyPersistenceBatch_eq_ok hapl)

/-- Scanning goes through all of a log, whatever is behind it. -/
lemma Logged.scanned (after : Bytes) : recoverWAL identity voters (file ++ after) =
      scanWAL identity voters (file ++ after) file.length ⟨state, file.length, last, none⟩ := by
  induction h generalizing after with
  | empty => rfl
  | append hlog hwds hid henc hapl hfits ih =>
    rename_i file encoded state state' last batch
    rw [length_append] at hfits
    rw [append_assoc, ih, scanWAL_transaction hwds hid henc hapl hfits, length_append]

/-- The start of one more transaction behind a log is cut off. -/
lemma Logged.recover_unfinished {batch : PersistenceBatch} {encoded : Bytes} (hwds : batch.Words)
    (hid : last + 1 < 2 ^ 64) (henc : encodeWALTransaction (last + 1) batch = .ok encoded)
    (hfits : (file ++ encoded).length ≤ maxInt64) (hcut : cut < encoded.length) :
    recoverWAL identity voters (file ++ encoded.take cut) = .ok ⟨state, last, file⟩ := by
  rw [length_append] at hfits
  rw [h.scanned]
  exact scanWAL_unfinished hwds hid henc hfits h.valid hcut

/-- A log is recovered as it is. -/
lemma Logged.recover : recoverWAL identity voters file = .ok ⟨state, last, file⟩ := by
  have hscan := h.scanned []
  rw [append_nil] at hscan
  rw [hscan]
  exact scanWAL_end h.valid

end

end Scan

/-! ## The state in memory and the state in the log -/

/-- A durable state as the log has it, without the snapshot's payload. -/
def RecoveredState.logged (state : RecoveredState) : RecoveredState := { state with snapshot := none }

section Payload

variable [Hash] {identity : StorageIdentity} {voters : VoterSet}
variable {state state' : RecoveredState} {batch : PersistenceBatch}

lemma validateRecoveredState_logged {limit : Nat}
    (h : validateRecoveredStateWithSnapshotLimit state identity voters limit = .ok ()) :
    validateRecoveredState state.logged identity voters = .ok () := by
  simp only [validateRecoveredState, validateRecoveredStateWithSnapshotLimit, ite_error_eq_ok] at h ⊢
  obtain ⟨hformat, hcluster, hvtr, hvote, hbase, hterm, happd, h⟩ := h
  refine ⟨hformat, hcluster, hvtr, hvote, hbase, hterm, happd, ?_⟩
  split at h
  · cases h
  · exact h

section

omit [Hash]

lemma validatePersistenceBatchBounds_logged (h : validatePersistenceBatchBounds batch = .ok ()) :
    validatePersistenceBatchBounds batch.logged = .ok () := by
  simp only [validatePersistenceBatchBounds, ite_error_eq_ok] at h ⊢
  obtain ⟨hempty, hrplc, hsnap, h⟩ := h
  refine ⟨?_, hrplc, ?_, h⟩
  · intro hnothing
    obtain ⟨hhard, hfrom, hents, hbase, -, happd⟩ := hnothing
    -- a batch that had nothing but a payload would have had no base for it
    cases hpayl : batch.snapshot with
    | none => exact hempty ⟨hhard, hfrom, hents, hbase, hpayl, happd⟩
    | some snapshot =>
      refine hsnap ⟨snapshot, hpayl, ?_⟩
      rw [show batch.snapshotBase = none from hbase]
      exact nofun
  intro hpayl
  obtain ⟨snapshot, hsome, -⟩ := hpayl
  cases hsome

lemma applySnapshotBase_logged {nextHardState : Option HardState} {based : RecoveredState}
    (h : applySnapshotBase state batch nextHardState = .ok (based, advanced)) :
    applySnapshotBase state.logged batch.logged nextHardState = .ok (based.logged, advanced) := by
  unfold applySnapshotBase at h ⊢
  cases hbase : batch.snapshotBase with
  | none =>
    rw [hbase] at h
    rw [show batch.logged.snapshotBase = none from hbase]
    cases h
    rfl
  | some base =>
    rw [hbase] at h
    rw [show batch.logged.snapshotBase = some base from hbase]
    simp only [ite_error_eq_ok] at h ⊢
    obtain ⟨hregr, hchgd, huncom, h⟩ := h
    refine ⟨hregr, hchgd, huncom, ?_⟩
    split at h
    · cases h
    rename_i entries hents
    cases h
    split
    · rename_i e herror
      cases hents.symm.trans herror
    rename_i entries' hents'
    cases hents.symm.trans hents'
    have hnone : (if batch.logged.snapshot.isSome = true then batch.logged.snapshot
        else if state.logged.snapshotBase ≠ base then none else state.logged.snapshot) = none := by
      rw [if_neg (show ¬ batch.logged.snapshot.isSome = true from nofun)]
      split <;> rfl
    rw [hnone]
    rfl

lemma applyReplacement_logged {replaced : RecoveredState}
    (h : applyReplacement state batch advanced = .ok replaced) :
    applyReplacement state.logged batch.logged advanced = .ok replaced.logged := by
  unfold applyReplacement at h ⊢
  by_cases hzero : batch.replaceFrom = 0
  · rw [if_pos hzero] at h
    rw [if_pos (show batch.logged.replaceFrom = 0 from hzero)]
    cases h
    rfl
  rw [if_neg hzero] at h
  rw [if_neg (show ¬ batch.logged.replaceFrom = 0 from hzero)]
  simp only [ite_error_eq_ok] at h ⊢
  obtain ⟨hprot, hcont, hoff, hfst, h⟩ := h
  refine ⟨hprot, hcont, hoff, hfst, ?_⟩
  cases h
  rfl

end

/-- The payload has no part in what else a batch does. -/
lemma applyValidated_logged (h : applyValidatedPersistenceBatch state batch identity voters = .ok state') :
    applyValidatedPersistenceBatch state.logged batch.logged identity voters = .ok state'.logged := by
  unfold applyValidatedPersistenceBatch at h ⊢
  rw [ite_error_eq_ok] at h ⊢
  obtain ⟨hadvan, h⟩ := h
  refine ⟨hadvan, ?_⟩
  split at h
  · cases h
  rename_i based advanced hbased
  have hbased' := applySnapshotBase_logged hbased
  rw [show batch.logged.hardState = batch.hardState from rfl, hbased']
  simp only
  split at h
  · cases h
  rename_i replaced hrplcd
  rw [applyReplacement_logged hrplcd]
  simp only [ite_error_eq_ok] at h ⊢
  obtain ⟨happd, h⟩ := h
  refine ⟨happd, ?_⟩
  split at h
  · cases h
  rename_i hval
  cases h
  have hval' := validateRecoveredState_logged hval
  simp only [logged, PersistenceBatch.logged] at hval' ⊢
  rw [hval']

/-- What one accepted `Persist` appends. -/
structure Persisted (store : WALStore) (batch : PersistenceBatch) (encoded : Bytes)
    (store' : WALStore) : Prop where
  bounds : validatePersistenceBatchBounds batch = .ok ()
  numbered : store.nextTxnID ≠ 0
  applied : applyValidatedPersistenceBatch store.state batch store.identity store.voters = .ok store'.state
  written : encodeWALTransaction store.nextTxnID batch = .ok encoded
  wal : store'.wal = store.wal ++ encoded
  fits : (store.wal ++ encoded).length ≤ maxInt64
  next : store'.nextTxnID = if store.nextTxnID = maxUint64 then 0 else store.nextTxnID + 1
  identity : store'.identity = store.identity
  voters : store'.voters = store.voters
  limit : store'.snapshotLimit = store.snapshotLimit

lemma WALStore.persist_eq_ok {store store' : WALStore} (h : store.persist batch = .ok store') :
    ∃ encoded, Persisted store batch encoded store' := by
  unfold WALStore.persist at h
  cases hbds : validatePersistenceBatchBounds batch with
  | error =>
    rw [hbds] at h
    cases h
  | ok =>
    rw [hbds] at h
    change (if _ then _ else _) = _ at h
    rw [ite_error_eq_ok, ite_error_eq_ok] at h
    obtain ⟨-, hnumb, h⟩ := h
    cases happd : applyValidatedPersistenceBatch store.state batch store.identity store.voters with
    | error =>
      rw [happd] at h
      cases h
    | ok =>
      rw [happd] at h
      cases henc : encodeWALTransaction store.nextTxnID batch with
      | error =>
        rw [henc] at h
        cases h
      | ok encoded =>
        rw [henc] at h
        change (if _ then _ else _) = _ at h
        rw [ite_error_eq_ok] at h
        obtain ⟨hfits, h⟩ := h
        cases h
        exact ⟨encoded, hbds, hnumb, happd, henc, rfl, not_lt.mp hfits, rfl, rfl, rfl, rfl⟩

/-! ## Rewritten logs -/

omit [Hash] in
/-- What the one batch of a rewritten log is. -/
lemma replacementBatchForState_eq_ok (h : replacementBatchForState state = .ok batch) :
    ∃ snapshot replaceFrom, state.snapshot = some snapshot ∧ snapshot.metadata = state.snapshotBase ∧
      batch = ⟨some state.hardState, replaceFrom, state.entries, some state.snapshotBase,
        some snapshot, some state.appliedIndex⟩ ∧
      (replaceFrom = 0 ∧ state.entries = [] ∨ replaceFrom = state.snapshotBase.lastIncludedIndex + 1 ∧
          state.snapshotBase.lastIncludedIndex ≠ maxUint64) := by
  unfold replacementBatchForState at h
  cases hsnap : state.snapshot with
  | none =>
    rw [hsnap] at h
    cases h
  | some snapshot =>
    simp only [hsnap, ite_error_eq_ok, ne_eq, not_not] at h
    obtain ⟨hmeta, h⟩ := h
    by_cases hents : state.entries = []
    · rw [if_pos hents] at h
      cases h
      exact ⟨snapshot, 0, rfl, hmeta, by rw [hents], .inl ⟨rfl, hents⟩⟩
    rw [if_neg hents] at h
    split at h
    · cases h
    rename_i next hnext
    obtain ⟨hmax, rfl⟩ := checkedNextIndex_eq_some.mp hnext
    cases h
    exact ⟨snapshot, _, rfl, hmeta, rfl, .inr ⟨rfl, hmax⟩⟩

/-- The one batch of a rewritten log leads from nothing to the state it was made of. -/
lemma replacement_applies {limit : Nat} (hbase : state.snapshotBase.lastIncludedIndex ≤ maxUint64)
    (hval : validateRecoveredStateWithSnapshotLimit state identity voters limit = .ok ())
    (hbat : replacementBatchForState state = .ok batch)
    (hbds : validatePersistenceBatchBounds batch = .ok ()) :
    applyPersistenceBatch (.fresh identity) batch.logged identity voters = .ok state.logged := by
  have hstate := validateRecoveredState_ok hbase hval
  have hlog := validateRecoveredState_logged hval
  rw [applyPersistenceBatch, validatePersistenceBatchBounds_logged hbds]
  simp only
  obtain ⟨snapshot, replaceFrom, hsnap, -, hflds, hfrom⟩ := replacementBatchForState_eq_ok hbat
  have hhard : batch.logged.hardState = some state.hardState := by rw [hflds]; rfl
  have hrplc : batch.logged.replaceFrom = replaceFrom := by rw [hflds]; rfl
  have hents : batch.logged.entries = state.entries := by rw [hflds]; rfl
  have hmoves : batch.logged.snapshotBase = some state.snapshotBase := by rw [hflds]; rfl
  have happd : batch.logged.appliedIndex = some state.appliedIndex := by rw [hflds]; rfl
  have hpayl : batch.logged.snapshot = none := rfl
  have hsto := hstate.snapshot snapshot hsnap
  unfold validateStoredSnapshot at hsto
  rw [ite_error_eq_ok] at hsto
  have hpos : state.snapshotBase.lastIncludedIndex ≠ 0 := fun hzero => hsto.1 (.inl hzero)
  have hcomm := le_trans hstate.applied_ge hstate.applied_le
  -- the base moves from nothing
  have hmvd : applySnapshotBase (.fresh identity) batch.logged (some state.hardState) =
      .ok (⟨identity, ⟨0, 0, 0⟩, state.snapshotBase, none, 0, []⟩, true) := by
    rw [applySnapshotBase, hmoves]
    refine ok_of_not (not_lt_zero _) (ok_of_not (fun hsame => hpos hsame.1)
      (ok_of_not ?_ ?_))
    · change ¬ max 0 state.hardState.commitIndex < state.snapshotBase.lastIncludedIndex
      rw [zero_max]
      exact not_lt.mpr hcomm
    have hnone : (if (none : Option Snapshot).isSome = true then none
        else if (fresh identity).snapshotBase ≠ state.snapshotBase then none
        else (fresh identity).snapshot) = none := by
      rw [if_neg (by simp)]
      split <;> rfl
    have hltr : state.snapshotBase.lastIncludedIndex >
        (fresh identity).snapshotBase.lastIncludedIndex :=
      pos_of_ne_zero hpos
    have hsome : ¬ state.snapshotBase.lastIncludedIndex -
        (fresh identity).snapshotBase.lastIncludedIndex = 0 := hpos
    have hnil : ∀ place, (fresh identity).entries[place]? = none := fun _ => getElem?_nil
    have hzero : ¬ (fresh identity).hardState.commitIndex ≠ 0 := not_not.mpr rfl
    simp only [hsome, if_false, hnil, hzero, hpayl, hnone, hltr, decide_true]
    rfl
  -- the entries come behind it
  have hrplcd : applyReplacement ⟨identity, ⟨0, 0, 0⟩, state.snapshotBase, none, 0, []⟩
      batch.logged true =
      .ok ⟨identity, ⟨0, 0, 0⟩, state.snapshotBase, none, 0, state.entries⟩ := by
    rw [applyReplacement, hrplc, hents]
    cases hfrom with
    | inl hnone => rw [if_pos hnone.1, hnone.2]
    | inr hsome =>
      obtain ⟨rfl, hmax⟩ := hsome
      have hwrap : wrapAdd state.snapshotBase.lastIncludedIndex 0 =
          state.snapshotBase.lastIncludedIndex := wrapAdd_eq hbase
      rw [if_neg (succ_ne_zero _)]
      simp only [length_nil, hwrap]
      refine ok_of_not (by omega) (ok_of_not (by omega) (ok_of_not (by omega) (ok_of_not ?_ ?_)))
      · intro hfst
        obtain ⟨first, hhead, hidx⟩ := hfst
        have hcont := hstate.contiguous
        cases hlist : state.entries with
        | nil =>
          rw [hlist] at hhead
          cases hhead
        | cons =>
          rw [hlist] at hhead hcont
          cases hhead
          exact hidx (contiguous_cons.mp hcont).1
      · simp
  unfold applyValidatedPersistenceBatch
  rw [hhard, happd, hmvd]
  refine ok_of_not ?_ ?_
  · intro hadvan
    obtain ⟨next, hnext, hnot⟩ := hadvan
    cases hnext
    exact hnot (by simp [hardStateAdvances, fresh])
  simp only
  rw [hrplcd]
  refine ok_of_not ?_ ?_
  · intro hregr
    obtain ⟨applied, -, hless⟩ := hregr
    exact not_lt_zero _ hless
  have hsame : (⟨identity, state.hardState, state.snapshotBase, none, state.appliedIndex,
      state.entries⟩ : RecoveredState) = state.logged := by
    rw [logged, hstate.identity_eq]
  simp only [Option.getD_some]
  rw [hsame, hlog]

end Payload

end Crane.Raft
