import Crane.Raft.Recovery

/-!
# No batch is lost, none is applied in part

A log that starts empty, or as the one transaction of a compacted state, and grows by accepted
batches, is recovered as the state in memory whatever part of one more transaction a crash has left
behind it. The snapshot's payload is not in the log: `recoverWAL` gives the state without it, and the
snapshot file supplies it afterwards.
-/

namespace Crane.Raft

open Program List

section Grown

variable [Hash]

/-- The stores that a log can have grown to, with the batches it was written with. -/
inductive Grown (identity : StorageIdentity) (voters : VoterSet) (limit : Nat) :
    WALStore → List PersistenceBatch → Prop where
  | empty (hfresh : validateRecoveredState (.fresh identity) identity voters = .ok ()) :
    Grown identity voters limit ⟨identity, voters, limit, .fresh identity, 1, []⟩ []
  | compacted {state : RecoveredState} {batch : PersistenceBatch} {replacement : Bytes}
    (hfresh : validateRecoveredState (.fresh identity) identity voters = .ok ())
    (hvalid : validateRecoveredStateWithSnapshotLimit state identity voters limit = .ok ())
    (hbatch : replacementBatchForState state = .ok batch) (hwords : batch.Words)
    (hencoded : encodeWALTransaction 1 batch = .ok replacement) :
    Grown identity voters limit ⟨identity, voters, limit, state, 2, replacement⟩ [batch]
  | persist {store store' : WALStore} {batches : List PersistenceBatch} {batch : PersistenceBatch}
    (hgrown : Grown identity voters limit store batches) (hwords : batch.Words)
    (hpersist : store.persist batch = .ok store') :
    Grown identity voters limit store' (batches ++ [batch])

/-- The batches applied one after the other, from nothing. -/
def replayBatches (identity : StorageIdentity) (voters : VoterSet) (batches : List PersistenceBatch) :
    Except RaftError RecoveredState :=
  batches.foldlM (fun state batch => applyPersistenceBatch state batch identity voters)
    (.fresh identity)

variable {identity : StorageIdentity} {voters : VoterSet} {limit : Nat} {store : WALStore}
variable {batches : List PersistenceBatch}

lemma replayBatches_append {state state' : RecoveredState} {batch : PersistenceBatch}
    (h : replayBatches identity voters batches = .ok state)
    (hapl : applyPersistenceBatch state batch identity voters = .ok state') :
    replayBatches identity voters (batches ++ [batch]) = .ok state' := by
  rw [replayBatches] at h
  rw [replayBatches, foldlM_append, h]
  change (applyPersistenceBatch state batch identity voters >>= pure) = _
  rw [hapl]
  rfl

/-- A written log holds what the store has in memory, but for the payload. -/
structure Mirrored (identity : StorageIdentity) (voters : VoterSet) (store : WALStore)
    (batches : List PersistenceBatch) : Prop where
  sameIdentity : store.identity = identity
  sameVoters : store.voters = voters
  logged : Logged identity voters store.wal store.state.logged batches.length
  replayed : replayBatches identity voters (batches.map (·.logged)) = .ok store.state.logged
  next : store.nextTxnID = if batches.length = maxUint64 then 0 else batches.length + 1

omit [Hash] in
/-- A number that is left for the next transaction is the one after the last. -/
lemma next_numbered {next last : Nat} (hnext : next = if last = maxUint64 then 0 else last + 1)
    (hleft : next ≠ 0) (hlast : last < 2 ^ 64) : next = last + 1 ∧ last + 1 < 2 ^ 64 := by
  split at hnext
  · exact absurd hnext hleft
  rename_i hmax
  rw [maxUint64] at hmax
  exact ⟨hnext, by omega⟩

lemma Logged.last_lt {file : Bytes} {state : RecoveredState} {last : Nat}
    (h : Logged identity voters file state last) : last < 2 ^ 64 := by
  cases h with
  | empty => exact Nat.two_pow_pos 64
  | append _ _ hid => exact hid

/-- The one transaction a state is rewritten as is a log of that state. -/
lemma Logged.replacement {state : RecoveredState} {batch : PersistenceBatch} {replacement : Bytes}
    (hfrs : validateRecoveredState (.fresh identity) identity voters = .ok ())
    (hval : validateRecoveredStateWithSnapshotLimit state identity voters limit = .ok ())
    (hbat : replacementBatchForState state = .ok batch) (hwds : batch.Words)
    (henc : encodeWALTransaction 1 batch = .ok replacement) :
    applyPersistenceBatch (.fresh identity) batch.logged identity voters = .ok state.logged ∧
      Logged identity voters replacement state.logged 1 := by
  obtain ⟨boundary, effects, htrans⟩ := encodeWALTransaction_eq_ok henc
  have hbase : state.snapshotBase.lastIncludedIndex ≤ maxUint64 := by
    obtain ⟨snapshot, replaceFrom, -, -, hflds, -⟩ := replacementBatchForState_eq_ok hbat
    have hidx := (hwds.snapshotBase state.snapshotBase (by rw [hflds]; rfl)).1
    rw [maxUint64]
    omega
  have hapl := replacement_applies hbase hval hbat htrans.bounds
  have hsmall : replacement.length ≤ maxInt64 := by
    have hlen := htrans.length
    rw [maxWALTransactionBytes, maxRPCPayloadBytes] at hlen
    rw [maxInt64]
    omega
  exact ⟨hapl, .append (.empty hfrs) hwds (by decide) henc hapl hsmall⟩

lemma Grown.mirrored (h : Grown identity voters limit store batches) :
    Mirrored identity voters store batches := by
  induction h with
  | empty hfrs => exact ⟨rfl, rfl, .empty hfrs, rfl, rfl⟩
  | compacted hfrs hval hbat hwds henc =>
    obtain ⟨hapl, hlog⟩ := Logged.replacement hfrs hval hbat hwds henc
    have hnothing : replayBatches identity voters [] = .ok (.fresh identity) := rfl
    exact ⟨rfl, rfl, hlog, replayBatches_append hnothing hapl, rfl⟩
  | persist hgrown hwds hpers ih =>
    rename_i store store' batches batch
    obtain ⟨encoded, hpersd⟩ := WALStore.persist_eq_ok hpers
    obtain ⟨hnext, hid⟩ := next_numbered ih.next hpersd.numbered ih.logged.last_lt
    have hwritten := hpersd.written
    rw [hnext] at hwritten
    have happd := hpersd.applied
    rw [ih.sameIdentity, ih.sameVoters] at happd
    have hapl : applyPersistenceBatch store.state.logged batch.logged identity voters =
        .ok store'.state.logged := by
      rw [applyPersistenceBatch, validatePersistenceBatchBounds_logged hpersd.bounds]
      exact applyValidated_logged happd
    refine ⟨hpersd.identity.trans ih.sameIdentity, hpersd.voters.trans ih.sameVoters, ?_, ?_, ?_⟩
    · rw [hpersd.wal, length_append, length_singleton]
      exact .append ih.logged hwds hid hwritten hapl hpersd.fits
    · rw [map_append]
      exact replayBatches_append ih.replayed hapl
    · rw [hpersd.next, hnext, length_append, length_singleton]

/-- Whatever part of one more transaction a crash leaves behind the log, recovery gives exactly the
state of the completed batches, the number of the last of them, and the file cut off behind it. -/
theorem wal_crash_atomic (h : Grown identity voters limit store batches)
    {further : PersistenceBatch} {encoded : Bytes} {cut : Nat} (hwords : further.Words)
    (hencoded : encodeWALTransaction store.nextTxnID further = .ok encoded)
    (hfits : (store.wal ++ encoded).length ≤ maxInt64) (hcut : cut < encoded.length) :
    ∃ state, recoverWAL identity voters (store.wal ++ encoded.take cut) = .ok ⟨state, batches.length, store.wal⟩ ∧
      replayBatches identity voters (batches.map (·.logged)) = .ok state ∧
      state = store.state.logged ∧ store.nextTxnID = batches.length + 1 := by
  have hmirr := h.mirrored
  obtain ⟨boundary, effects, htrans⟩ := encodeWALTransaction_eq_ok hencoded
  obtain ⟨hnext, hid⟩ := next_numbered hmirr.next htrans.positive
    hmirr.logged.last_lt
  rw [hnext] at hencoded
  exact ⟨store.state.logged, hmirr.logged.recover_unfinished hwords hid hencoded hfits hcut,
    hmirr.replayed, rfl, hnext⟩

end Grown

/-! ### A log of one batch, with a snapshot -/

namespace Crash

scoped instance : Hash := ⟨fun bytes => bytes⟩

def voters : VoterSet := .three (List.replicate 32 7)

def identity : StorageIdentity := ⟨1, List.replicate 16 1, 1, List.replicate 32 7⟩

def opened : WALStore := ⟨identity, voters, 1000, .fresh identity, 1, []⟩

/-- Term one, and the first entry is committed. -/
def elected : PersistenceBatch := ⟨some ⟨1, 1, 1⟩, 1, [⟨1, 1, .noOp, []⟩], none, none, none⟩

/-- A vote in the second term. -/
def voted : PersistenceBatch := ⟨some ⟨2, 3, 1⟩, 0, [], none, none, none⟩

/-- The first entry goes into a snapshot. -/
def captured : PersistenceBatch :=
  ⟨none, 0, [], some ⟨1, 1, 1⟩, (newSnapshot identity ⟨1, 1, 1⟩ [5] 1000).toOption, some 1⟩

lemma elected_words : elected.Words := by
  refine ⟨?_, by decide, ?_, nofun, nofun⟩
  · intro state hstate
    cases hstate
    decide
  intro entry hent
  cases mem_singleton.mp hent
  decide

lemma voted_words : voted.Words := by
  refine ⟨?_, by decide, nofun, nofun, nofun⟩
  intro state hstate
  cases hstate
  decide

lemma captured_words : captured.Words := by
  refine ⟨nofun, by decide, nofun, ?_, ?_⟩
  · intro base hbase
    cases hbase
    decide
  intro index hidx
  cases hidx
  decide

lemma opened_grown : Grown identity voters 1000 opened [] := .empty (by decide)

end Crash

open Crash in
theorem wal_crash_atomic_voted : ∃ store encoded, opened.persist elected = .ok store ∧
    encodeWALTransaction store.nextTxnID voted = .ok encoded ∧ 40 < encoded.length ∧
    ∃ state, recoverWAL identity voters (store.wal ++ encoded.take 40) = .ok ⟨state, 1, store.wal⟩ ∧
      replayBatches identity voters [elected.logged] = .ok state ∧ state = store.state.logged ∧
      store.nextTxnID = 2 := by
  have hrun : ((opened.persist elected).toOption.any fun store =>
      (encodeWALTransaction store.nextTxnID voted).toOption.any fun encoded =>
        40 < encoded.length ∧ (store.wal ++ encoded).length ≤ maxInt64) = true := by
    set_option maxRecDepth 20000 in decide
  simp only [Option.any_eq_true, decide_eq_true_eq, toOption_eq_some] at hrun
  obtain ⟨store, hstore, encoded, henc, hcut, hfits⟩ := hrun
  exact ⟨store, encoded, hstore, henc, hcut,
    wal_crash_atomic (opened_grown.persist elected_words hstore) voted_words henc hfits hcut⟩

open Crash in
/-- A batch with a snapshot is accepted, and what is recovered has no snapshot. -/
theorem recovered_log_has_no_payload : ∃ store encoded, Grown identity voters 1000 store [elected, captured] ∧
      encodeWALTransaction store.nextTxnID voted = .ok encoded ∧ 0 < encoded.length ∧
      ∃ recovered state, recoverWAL identity voters (store.wal ++ encoded.take 0) = .ok recovered ∧
        replayBatches identity voters [elected, captured] = .ok state ∧ recovered.state ≠ state := by
  have hrun : ((opened.persist elected).toOption.any fun first =>
      (first.persist captured).toOption.any fun store =>
        (encodeWALTransaction store.nextTxnID voted).toOption.any fun encoded =>
          0 < encoded.length ∧ (replayBatches identity voters [elected, captured]).toOption.any fun
            state => state.snapshot.isSome) = true := by
    set_option maxRecDepth 20000 in decide
  simp only [Option.any_eq_true, Bool.decide_and, Bool.and_eq_true, decide_eq_true_eq, toOption_eq_some] at hrun
  obtain ⟨first, hfst, store, hstore, encoded, henc, hlen, state, hstate, hpayl⟩ := hrun
  have hgrown := (opened_grown.persist elected_words hfst).persist captured_words hstore
  refine ⟨store, encoded, hgrown, henc, hlen, ⟨store.state.logged, 2, store.wal⟩, state, ?_, hstate, ?_⟩
  · rw [take_zero, append_nil]
    exact hgrown.mirrored.logged.recover
  intro hsame
  rw [← hsame] at hpayl
  cases hpayl

end Crane.Raft
