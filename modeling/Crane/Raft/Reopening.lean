import Crane.Raft.Atomicity
import Crane.Raft.FileStore

/-!
# A snapshot is in place before or after, never in between

The log that a store is reopened with may lag behind its snapshot file: a crash can come between the
renaming of the one and of the other. What is recovered is the log's state *under* the snapshot, and
going under two snapshots one after the other is going under the second. An installed snapshot is
ahead of the commit index, so that a log not yet rewritten refuses it and falls back to the file
before.
-/

namespace Crane.Raft

open Program List Nat RecoveredState

variable {current previous : Option Snapshot}

section Under

/-- A durable state on top of a snapshot: what the snapshot covers is dropped. -/
def RecoveredState.under (state : RecoveredState) (snapshot : Snapshot) : RecoveredState :=
  { state with
    snapshotBase := snapshot.metadata
    snapshot := some snapshot
    entries := state.entries.drop
      (snapshot.metadata.lastIncludedIndex - state.snapshotBase.lastIncludedIndex)
    appliedIndex := max state.appliedIndex snapshot.metadata.lastIncludedIndex }

/-- The committed log reaches up to a snapshot and has its term there. -/
structure RecoveredState.Reaches (state : RecoveredState) (snapshot : Snapshot) : Prop where
  base : state.snapshotBase.lastIncludedIndex ≤ snapshot.metadata.lastIncludedIndex
  same : snapshot.metadata.lastIncludedIndex = state.snapshotBase.lastIncludedIndex →
    snapshot.metadata = state.snapshotBase
  committed : snapshot.metadata.lastIncludedIndex ≤ state.hardState.commitIndex
  term : recoveredTermAt state snapshot.metadata.lastIncludedIndex = .ok snapshot.metadata.lastIncludedTerm
  retained : snapshot.metadata.lastIncludedIndex - state.snapshotBase.lastIncludedIndex ≤
    state.entries.length

variable {state : RecoveredState} {snapshot next : Snapshot}

section

variable (hbase : state.snapshotBase.lastIncludedIndex ≤ snapshot.metadata.lastIncludedIndex)

include hbase

/-- Behind the snapshot the log is the same. -/
lemma recoveredEntryAt_under {index : Nat} (hidx : snapshot.metadata.lastIncludedIndex < index) :
    recoveredEntryAt (state.under snapshot) index = recoveredEntryAt state index := by
  have hbeh : ¬ index ≤ snapshot.metadata.lastIncludedIndex := not_le.mpr hidx
  have hbeh' : ¬ index ≤ state.snapshotBase.lastIncludedIndex := fun h => hbeh (h.trans hbase)
  unfold recoveredEntryAt
  rw [if_neg hbeh', if_neg (show ¬ index ≤ (state.under snapshot).snapshotBase.lastIncludedIndex
    from hbeh)]
  change (state.entries.drop _)[index - snapshot.metadata.lastIncludedIndex - 1]? = _
  rw [getElem?_drop]
  congr 1
  omega

lemma recoveredTermAt_under {index : Nat} (hidx : snapshot.metadata.lastIncludedIndex < index) :
    recoveredTermAt (state.under snapshot) index = recoveredTermAt state index := by
  unfold recoveredTermAt
  have hne : index ≠ 0 := by omega
  have hne' : index ≠ state.snapshotBase.lastIncludedIndex := by omega
  have hne'' : index ≠ (state.under snapshot).snapshotBase.lastIncludedIndex := ne_of_gt hidx
  rw [if_neg hne, if_neg hne, if_neg hne', if_neg hne'', recoveredEntryAt_under hbase hidx]

end

/-- What a state under one snapshot reaches, the state itself reaches. -/
lemma RecoveredState.Reaches.trans (h : state.Reaches snapshot)
    (hnext : (state.under snapshot).Reaches next) : state.Reaches next := by
  have hbase : snapshot.metadata.lastIncludedIndex ≤ next.metadata.lastIncludedIndex := hnext.base
  have hret : next.metadata.lastIncludedIndex - snapshot.metadata.lastIncludedIndex ≤
      (state.entries.drop _).length := hnext.retained
  rw [length_drop] at hret
  have hown := h.base
  have hlog := h.retained
  refine ⟨hown.trans hbase, ?_, hnext.committed, ?_, by omega⟩
  · intro heq
    have hmiddle : snapshot.metadata.lastIncludedIndex = state.snapshotBase.lastIncludedIndex := by omega
    have hnext' : next.metadata = snapshot.metadata := hnext.same (heq.trans hmiddle.symm)
    exact hnext'.trans (h.same hmiddle)
  cases eq_or_lt_of_le hbase with
  | inl heq =>
    have hnext' : next.metadata = snapshot.metadata := hnext.same heq.symm
    rw [hnext']
    exact h.term
  | inr hlt =>
    rw [← recoveredTermAt_under hown hlt]
    exact hnext.term

lemma RecoveredState.under_under (h : state.Reaches snapshot)
    (hle : snapshot.metadata.lastIncludedIndex ≤ next.metadata.lastIncludedIndex) :
    (state.under snapshot).under next = state.under next := by
  have hbase := h.base
  have hents : (state.entries.drop
      (snapshot.metadata.lastIncludedIndex - state.snapshotBase.lastIncludedIndex)).drop
        (next.metadata.lastIncludedIndex - snapshot.metadata.lastIncludedIndex) =
      state.entries.drop
        (next.metadata.lastIncludedIndex - state.snapshotBase.lastIncludedIndex) := by
    rw [drop_drop]
    congr 1
    omega
  have happd : max (max state.appliedIndex snapshot.metadata.lastIncludedIndex)
      next.metadata.lastIncludedIndex = max state.appliedIndex next.metadata.lastIncludedIndex := by
    omega
  simp only [under]
  rw [hents, happd]

/-- A state is already on top of the snapshot its base names. -/
lemma RecoveredState.Reaches.of_base (hidx : snapshot.metadata.lastIncludedIndex ≠ 0)
    (hbase : snapshot.metadata = state.snapshotBase)
    (happd : state.snapshotBase.lastIncludedIndex ≤ state.appliedIndex)
    (hcmt : state.appliedIndex ≤ state.hardState.commitIndex) :
    state.Reaches snapshot ∧ state.under snapshot = { state with snapshot := some snapshot } := by
  have hsame : snapshot.metadata.lastIncludedIndex = state.snapshotBase.lastIncludedIndex := by rw [hbase]
  constructor
  · refine ⟨hsame.ge, fun _ => hbase, by omega, ?_, by omega⟩
    unfold recoveredTermAt
    rw [if_neg hidx, if_pos hsame, hbase]
  have happd : max state.appliedIndex snapshot.metadata.lastIncludedIndex =
      state.appliedIndex := by omega
  rw [under, happd, hsame, Nat.sub_self, drop_zero, hbase]

end Under

section Reconcile

variable [Hash] {identity : StorageIdentity} {voters : VoterSet} {limit : Nat}
variable {state prospective : RecoveredState} {snapshot : Snapshot}

/-- Compaction is going under the decoded snapshot, or nothing where the state is there already. -/
structure Compacted (identity : StorageIdentity) (voters : VoterSet) (limit : Nat)
    (state : RecoveredState) (snapshot decoded : Snapshot) (prospective : RecoveredState) :
    Prop where
  decodes : decodeSnapshotEnvelope snapshot.envelope identity limit = .ok decoded
  id : decoded.id = snapshot.id
  metadata : decoded.metadata = snapshot.metadata
  result : (decoded.metadata = state.snapshotBase ∧
      (∃ old, state.snapshot = some old ∧ old.id = decoded.id) ∧ prospective = state) ∨
    (state.snapshotBase.lastIncludedIndex < decoded.metadata.lastIncludedIndex ∧
      state.Reaches decoded ∧ prospective = state.under decoded ∧
      validateRecoveredStateWithSnapshotLimit prospective identity voters limit = .ok ())

lemma compactRecoveredState_eq_ok
    (h : compactRecoveredState state snapshot identity voters limit = .ok prospective) :
    ∃ decoded, Compacted identity voters limit state snapshot decoded prospective := by
  unfold compactRecoveredState at h
  replace h := ok_of_ite h
  cases hdcd : decodeSnapshotEnvelope snapshot.envelope identity limit with
  | error =>
    rw [hdcd] at h
    cases h
  | ok decoded =>
    rw [hdcd] at h
    change (if _ then _ else _) = _ at h
    rw [ite_error_eq_ok] at h
    obtain ⟨hnames, h⟩ := h
    push Not at hnames
    obtain ⟨hid, hmeta, -⟩ := hnames
    refine ⟨decoded, hdcd, hid, hmeta, ?_⟩
    rw [hmeta]
    simp only at h
    split at h
    · -- not newer than the base: only the same snapshot again is accepted
      split at h
      · rename_i hsame
        obtain ⟨hbase, hany⟩ := hsame
        cases h
        cases hold : state.snapshot with
        | none =>
          rw [hold] at hany
          cases hany
        | some old =>
          rw [hold] at hany
          have holdID : old.id = snapshot.id := of_decide_eq_true hany
          exact .inl ⟨hbase, ⟨old, rfl, holdID.trans hid.symm⟩, rfl⟩
      · cases h
    rename_i hnwr
    simp only [ite_error_eq_ok] at h
    obtain ⟨hcomm, hterm, hret, h⟩ := h
    split at h
    · cases h
    rename_i hval
    cases h
    refine .inr ⟨by omega, ?_, ?_, hval⟩
    · refine ⟨by rw [hmeta]; omega, ?_, by rw [hmeta]; omega, ?_, by rw [hmeta]; omega⟩
      · rw [hmeta]
        intro heq
        omega
      rw [hmeta]
      exact not_not.mp hterm
    · rw [under, hmeta]

/-- A sealed snapshot that the log reaches compacts it. -/
lemma compactRecoveredState_under (hseal : snapshot.Sealed identity limit) (hrchs : state.Reaches snapshot)
    (hnwr : state.snapshotBase.lastIncludedIndex < snapshot.metadata.lastIncludedIndex)
    (hval : validateRecoveredStateWithSnapshotLimit (state.under snapshot) identity voters limit = .ok ()) :
    compactRecoveredState state snapshot identity voters limit = .ok (state.under snapshot) := by
  unfold compactRecoveredState
  refine ok_of_not (not_lt.mpr hseal.decoded.length) ?_
  rw [show decodeSnapshotEnvelope snapshot.envelope identity limit = .ok snapshot from hseal]
  change (if _ then _ else _) = _
  refine ok_of_not (by simp) ?_
  simp only
  rw [if_neg (not_le.mpr hnwr)]
  refine ok_of_not (not_lt.mpr hrchs.committed) ?_
  refine ok_of_not (not_not.mpr hrchs.term) ?_
  refine ok_of_not (not_lt.mpr hrchs.retained) ?_
  simp only [under] at hval ⊢
  rw [hval]

lemma finish_eq_ok {found : RecoveredState} :
    (match validateRecoveredStateWithSnapshotLimit found identity voters limit with
      | .error _ => Except.error RaftError.storageCorrupt
      | .ok () => .ok found) = .ok prospective ↔ prospective = found ∧
        validateRecoveredStateWithSnapshotLimit prospective identity voters limit = .ok () := by
  cases hval : validateRecoveredStateWithSnapshotLimit found identity voters limit with
  | error =>
    constructor
    · intro h
      cases h
    rintro ⟨rfl, hok⟩
    cases hval.symm.trans hok
  | ok =>
    constructor
    · intro h
      cases h
      exact ⟨rfl, hval⟩
    intro h
    rw [h.1]

/-- A snapshot file and the log belong together exactly when the log reaches the snapshot. -/
lemma reconcile_eq_ok (hseal : snapshot.Sealed identity limit)
    (happd : state.snapshotBase.lastIncludedIndex ≤ state.appliedIndex)
    (hcmt : state.appliedIndex ≤ state.hardState.commitIndex) :
    reconcileRecoveredSnapshot identity voters limit state (some snapshot) = .ok prospective ↔
      state.Reaches snapshot ∧ prospective = state.under snapshot ∧
      validateRecoveredStateWithSnapshotLimit prospective identity voters limit = .ok () := by
  have hidx := hseal.decoded.index
  unfold reconcileRecoveredSnapshot
  rw [ite_error_eq_ok]
  by_cases hsame : snapshot.metadata.lastIncludedIndex = state.snapshotBase.lastIncludedIndex
  · simp only [hsame, if_true, lt_irrefl, not_false_eq_true, true_and]
    by_cases hmeta : snapshot.metadata = state.snapshotBase
    · obtain ⟨hrchs, hund⟩ := RecoveredState.Reaches.of_base hidx hmeta happd hcmt
      have hmax : max state.appliedIndex state.snapshotBase.lastIncludedIndex =
          state.appliedIndex := max_eq_left happd
      rw [if_neg (not_not.mpr hmeta), hmax]
      refine finish_eq_ok.trans ?_
      rw [hund]
      exact ⟨fun h => ⟨hrchs, h⟩, And.right⟩
    rw [if_pos hmeta]
    exact ⟨fun h => (by cases h), fun h => absurd (h.1.same hsame) hmeta⟩
  simp only [if_neg hsame]
  constructor
  · rintro ⟨hnotOl, h⟩
    cases hcompact : compactRecoveredState state snapshot identity voters limit with
    | error =>
      rw [hcompact] at h
      cases h
    | ok =>
      rw [hcompact] at h
      obtain ⟨hpros, hval⟩ := finish_eq_ok.mp h
      obtain ⟨decoded, hcomp⟩ := compactRecoveredState_eq_ok hcompact
      cases hcomp.decodes.symm.trans hseal
      cases hcomp.result with
      | inl hnothing => exact absurd (congrArg (·.lastIncludedIndex) hnothing.1) hsame
      | inr hund => exact ⟨hund.2.1, hpros.trans hund.2.2.1, hval⟩
  rintro ⟨hrchs, hpros, hval⟩
  have hbase := hrchs.base
  rw [hpros] at hval
  refine ⟨by omega, ?_⟩
  rw [compactRecoveredState_under hseal hrchs (by omega) hval]
  exact finish_eq_ok.mpr ⟨hpros, hpros ▸ hval⟩

end Reconcile

/-! ## Stores that reopen as they are -/

def SnapshotMetadata.Words (metadata : SnapshotMetadata) : Prop :=
  metadata.lastIncludedIndex < 2 ^ 64 ∧ metadata.lastIncludedTerm < 2 ^ 64 ∧
    metadata.stateMachineSchemaVersion < 2 ^ 32

instance (metadata : SnapshotMetadata) : Decidable metadata.Words := inferInstanceAs (Decidable (_ ∧ _ ∧ _))

lemma SnapshotMetadata.Words.index_le {metadata : SnapshotMetadata} (h : metadata.Words) :
    metadata.lastIncludedIndex ≤ maxUint64 := by
  have hidx := h.1
  rw [maxUint64]
  omega

/-- The counters of a durable state are machine words. -/
structure RecoveredState.Words (state : RecoveredState) : Prop where
  hardState : state.hardState.term < 2 ^ 64 ∧ state.hardState.votedFor < 2 ^ 16 ∧
    state.hardState.commitIndex < 2 ^ 64
  entries : ∀ entry ∈ state.entries, entry.index < 2 ^ 64 ∧ entry.term < 2 ^ 64
  base : state.snapshotBase.Words

lemma RecoveredState.Words.under {state : RecoveredState} {snapshot : Snapshot}
    (h : state.Words) (hwds : snapshot.metadata.Words) : (state.under snapshot).Words :=
  ⟨h.hardState, fun entry hent => h.entries entry (mem_of_mem_drop hent), hwds⟩

section Files

variable [Hash]

/-- What a process recovers of a state: the state itself, with the snapshot that the file holds. It has
the name of the one in memory. -/
def RecoveredState.ReadBack (state recovered : RecoveredState) (identity : StorageIdentity) (limit : Nat)
    (file : Option SnapshotEnvelope) : Prop :=
  ∃ found, loadSnapshotFile identity limit file = .ok found ∧ found.map (·.id) = state.snapshot.map (·.id) ∧
    recovered = { state with snapshot := found }

/-- How the snapshot file and the state of the log make up the state in memory. -/
inductive Filed (identity : StorageIdentity) (limit : Nat) :
    Option SnapshotEnvelope → RecoveredState → RecoveredState → Prop where
  | bare {state : RecoveredState} (hnone : state.snapshot = none)
    (hbase : state.snapshotBase.lastIncludedIndex = 0) : Filed identity limit none state state
  | under {log state : RecoveredState} {held file : Snapshot} (hheld : state.snapshot = some held)
    (hsealed : file.Sealed identity limit) (hid : file.id = held.id) (hreaches : log.Reaches file)
    (hunder : log.under file = { state with snapshot := some file }) :
    Filed identity limit (some file.envelope) log state

/-- A store whose files hold its state. -/
structure FileStore.Valid (store : FileStore) : Prop where
  limit : store.snapshotLimit ≤ maxRaftSnapshotBytes
  fresh : validateRecoveredState (.fresh store.identity) store.identity store.voters = .ok ()
  words : store.state.Words
  validated : validateRecoveredStateWithSnapshotLimit store.state store.identity store.voters
    store.snapshotLimit = .ok ()
  previous : store.directory.previous = none
  files : ∃ log last, Logged store.identity store.voters store.directory.wal log last ∧
    store.nextTxnID = (if last = maxUint64 then 0 else last + 1) ∧
    Filed store.identity store.snapshotLimit store.directory.snapshot log store.state

variable {identity : StorageIdentity} {voters : VoterSet} {limit : Nat}
variable {log state : RecoveredState} {last : Nat}

lemma loadSnapshotFile_sealed {snapshot : Snapshot} (h : snapshot.Sealed identity limit) :
    loadSnapshotFile identity limit (some snapshot.envelope) = .ok (some snapshot) := by
  rw [Snapshot.Sealed] at h
  rw [loadSnapshotFile, h]

/-- A state in the log has its counters in order. -/
lemma Logged.ordered {file : Bytes} (h : Logged identity voters file log last) :
    log.snapshotBase.lastIncludedIndex ≤ log.appliedIndex ∧ log.appliedIndex ≤ log.hardState.commitIndex := by
  have hval := h.valid
  simp only [validateRecoveredState, validateRecoveredStateWithSnapshotLimit, ite_error_eq_ok] at hval
  obtain ⟨-, -, -, -, -, -, happd, -⟩ := hval
  omega

section Select

variable {file : Bytes} (hlog : Logged identity voters file log last)

include hlog

lemma reconcileFile_reached {snapshot : Snapshot} (hseal : snapshot.Sealed identity limit)
    (hrchs : log.Reaches snapshot)
    (hval : validateRecoveredStateWithSnapshotLimit (log.under snapshot) identity voters limit = .ok ()) :
    reconcileFile identity voters limit log (some snapshot) = some (log.under snapshot) := by
  obtain ⟨happd, hcmt⟩ := hlog.ordered
  have hok := (reconcile_eq_ok hseal happd hcmt).mpr ⟨hrchs, rfl, hval⟩
  rw [reconcileFile, Option.bind_some, hok]
  rfl

lemma reconcileFile_unreached {found : Option Snapshot}
    (hfnd : ∀ snapshot, found = some snapshot → snapshot.Sealed identity limit ∧ ¬ log.Reaches snapshot) :
    reconcileFile identity voters limit log found = none := by
  obtain ⟨happd, hcmt⟩ := hlog.ordered
  cases found with
  | none => rfl
  | some snapshot =>
    obtain ⟨hseal, hunreached⟩ := hfnd snapshot rfl
    rw [reconcileFile, Option.bind_some]
    cases hok : reconcileRecoveredSnapshot identity voters limit log (some snapshot) with
    | error => rfl
    | ok => exact absurd ((reconcile_eq_ok hseal happd hcmt).mp hok).1 hunreached

end Select

/-- What reopening a directory gives, and that it is a store whose files hold its state. -/
structure Reopened (identity : StorageIdentity) (voters : VoterSet) (limit : Nat)
    (directory : Directory) (state : RecoveredState) (store : FileStore) : Prop where
  opened : openFileStore identity voters limit directory = .ok store
  state : store.state = state
  valid : store.Valid
  identity : store.identity = identity
  voters : store.voters = voters
  limit : store.snapshotLimit = limit

lemma openFileStore_selected {directory selected : Directory} (hlim : limit ≤ maxRaftSnapshotBytes)
    (hfrs : validateRecoveredState (.fresh identity) identity voters = .ok ())
    (hlog : Logged identity voters directory.wal log last)
    (hcur : loadSnapshotFile identity limit directory.snapshot = .ok current)
    (hprev : loadSnapshotFile identity limit directory.previous = .ok previous)
    (hselect : selectRecoveredSnapshot identity voters limit log current previous
      { directory with temporaries := [] } = .ok (state, selected)) (hwal : selected.wal = directory.wal)
    (hnone : selected.previous = none) (hwds : state.Words)
    (hval : validateRecoveredStateWithSnapshotLimit state identity voters limit = .ok ())
    (hfiled : Filed identity limit selected.snapshot log state) :
    ∃ store, Reopened identity voters limit directory state store := by
  have hrecover := hlog.recover
  have hopen : openFileStore identity voters limit directory = .ok
      { identity := identity, voters := voters, snapshotLimit := limit, state := state
        stage := none, nextTxnID := if last = maxUint64 then 0 else last + 1
        poisoned := false, directory := selected } := by
    unfold openFileStore
    rw [if_neg (not_lt.mpr hlim), hfrs, hcur, hprev, hrecover]
    change (selectRecoveredSnapshot identity voters limit log current previous
      { directory with temporaries := [] } >>= _) = _
    rw [hselect]
    rfl
  refine ⟨_, hopen, rfl, ⟨hlim, hfrs, hwds, hval, hnone, log, last, ?_, rfl, hfiled⟩, rfl, rfl, rfl⟩
  rw [hwal]
  exact hlog

/-- Another snapshot of the same base does not make a durable state invalid. -/
lemma validateRecoveredState_snapshot {limit' : Nat} {snapshot : Snapshot}
    (h : validateRecoveredStateWithSnapshotLimit state identity voters limit' = .ok ())
    (hseal : snapshot.Sealed identity limit) (hbase : snapshot.metadata = state.snapshotBase) :
    validateRecoveredStateWithSnapshotLimit { state with snapshot := some snapshot } identity voters
      limit = .ok () := by
  simp only [validateRecoveredStateWithSnapshotLimit, ite_error_eq_ok] at h ⊢
  obtain ⟨hformat, hcluster, hvtr, hvote, hidx, hterm, happd, h⟩ := h
  refine ⟨hformat, hcluster, hvtr, hvote, hidx, hterm, happd, ?_⟩
  have hsto := hseal.validateStored
  rw [hbase] at hsto
  simp only [Option.elim_some, hsto]
  split at h
  · cases h
  · exact h

section Recover

variable {directory : Directory} (hlim : limit ≤ maxRaftSnapshotBytes)
variable (hfrs : validateRecoveredState (.fresh identity) identity voters = .ok ())
variable (hlog : Logged identity voters directory.wal log last)

include hlim hfrs hlog

section

variable {snapshot : Snapshot} (hseal : snapshot.Sealed identity limit) (hrchs : log.Reaches snapshot)
variable (hwds : (log.under snapshot).Words)
variable (hval : validateRecoveredStateWithSnapshotLimit (log.under snapshot) identity voters limit = .ok ())

include hseal hrchs hwds hval

/-- The snapshot file that the log reaches is taken. -/
lemma reopen_current (hsnap : directory.snapshot = some snapshot.envelope)
    (hprev : loadSnapshotFile identity limit directory.previous = .ok previous) :
    ∃ store, Reopened identity voters limit directory (log.under snapshot) store := by
  have hload := loadSnapshotFile_sealed hseal
  rw [← hsnap] at hload
  have hselect : selectRecoveredSnapshot identity voters limit log (some snapshot) previous
      { directory with temporaries := [] } =
        .ok (log.under snapshot, { directory with previous := none, temporaries := [] }) := by
    rw [selectRecoveredSnapshot, reconcileFile_reached hlog hseal hrchs hval]
  refine openFileStore_selected hlim hfrs hlog hload hprev hselect rfl rfl hwds hval ?_
  change Filed identity limit directory.snapshot log (log.under snapshot)
  rw [hsnap]
  exact .under rfl hseal rfl hrchs rfl

variable (hcur : loadSnapshotFile identity limit directory.snapshot = .ok current)
variable (hunreached : ∀ snapshot, current = some snapshot → snapshot.Sealed identity limit ∧
  ¬ log.Reaches snapshot)

include hcur hunreached

/-- The file before it is taken where the log does not reach the snapshot file. -/
lemma reopen_previous (hsnap : directory.previous = some snapshot.envelope) :
    ∃ store, Reopened identity voters limit directory (log.under snapshot) store := by
  have hload := loadSnapshotFile_sealed hseal
  rw [← hsnap] at hload
  have hselect : selectRecoveredSnapshot identity voters limit log current (some snapshot)
      { directory with temporaries := [] } = .ok (log.under snapshot,
        { directory with snapshot := directory.previous, previous := none, temporaries := [] }) := by
    rw [selectRecoveredSnapshot, reconcileFile_unreached hlog hunreached]
    simp only
    rw [reconcileFile_reached hlog hseal hrchs hval]
  refine openFileStore_selected hlim hfrs hlog hcur hload hselect rfl rfl hwds hval ?_
  change Filed identity limit directory.previous log (log.under snapshot)
  rw [hsnap]
  exact .under rfl hseal rfl hrchs rfl

omit hseal hrchs hwds hval

/-- A log without a base is enough by itself. -/
lemma reopen_bare (hprev : directory.previous = none) (hnone : log.snapshot = none)
    (hbase : log.snapshotBase.lastIncludedIndex = 0) (hwds : log.Words)
    (hval : validateRecoveredStateWithSnapshotLimit log identity voters limit = .ok ()) :
    ∃ store, Reopened identity voters limit directory log store := by
  have hload : loadSnapshotFile identity limit directory.previous = .ok none := by
    rw [hprev]
    rfl
  have hselect : selectRecoveredSnapshot identity voters limit log current none
      { directory with temporaries := [] } =
        .ok (log, { directory with snapshot := none, previous := none, temporaries := [] }) := by
    rw [selectRecoveredSnapshot, reconcileFile_unreached hlog hunreached]
    simp only [reconcileFile, Option.bind_none]
    rw [if_pos hbase]
  exact openFileStore_selected hlim hfrs hlog hcur hload hselect rfl rfl hwds hval
    (.bare hnone hbase)

end

end Recover

/-! ## Snapshots on the way -/

/-- A snapshot that `PersistSnapshot` or the last chunk of a transfer goes on to write, with the state
it leads to. -/
inductive Accepted (store : FileStore) (snapshot : Snapshot) (prospective : RecoveredState) : Prop where
  | compacted (h : compactRecoveredState store.state snapshot store.identity store.voters
      store.snapshotLimit = .ok prospective)
  | completed {request : InstallSnapshotRequest} {result : SnapshotStageResult}
    {memory : MemoryStore}
    (h : MemoryStore.stageSnapshotChunk request store.toMemoryStore = .ok result memory)
    (hstate : result.state = some prospective) (hsnapshot : prospective.snapshot = some snapshot)

/-- What is known of a snapshot on the way: the log that is there either reaches it, or is behind
it. -/
structure Destined (store : FileStore) (decoded : Snapshot) (prospective : RecoveredState) : Prop where
  isSealed : decoded.Sealed store.identity store.snapshotLimit
  base : decoded.metadata = prospective.snapshotBase
  held : ∃ held, prospective.snapshot = some held ∧ held.id = decoded.id
  words : prospective.Words
  validated : validateRecoveredStateWithSnapshotLimit prospective store.identity store.voters
    store.snapshotLimit = .ok ()
  term : prospective.hardState.term = store.state.hardState.term
  vote : prospective.hardState.votedFor = store.state.hardState.votedFor
  commit : store.state.hardState.commitIndex ≤ prospective.hardState.commitIndex
  reached : (store.state.Reaches decoded ∧
      store.state.under decoded = { prospective with snapshot := some decoded }) ∨
    store.state.hardState.commitIndex < decoded.metadata.lastIncludedIndex

variable {store : FileStore} {snapshot : Snapshot} {prospective : RecoveredState}

lemma FileStore.Valid.bounds (h : store.Valid) :
    store.state.Valid store.identity store.voters store.snapshotLimit :=
  validateRecoveredState_ok h.words.base.index_le h.validated

lemma FileStore.Valid.destined_compacted (h : store.Valid) (hwds : snapshot.metadata.Words)
    (hcompact : compactRecoveredState store.state snapshot store.identity store.voters
      store.snapshotLimit = .ok prospective) :
    ∃ decoded, Destined store decoded prospective ∧ decoded.envelope = snapshot.envelope := by
  obtain ⟨decoded, hcomp⟩ := compactRecoveredState_eq_ok hcompact
  have hseal := decodeSnapshotEnvelope_sealed hcomp.decodes
  have henvel : decoded.envelope = snapshot.envelope := by
    rw [(decodeSnapshotEnvelope_eq_ok.mp hcomp.decodes).2.2.2.2.2]
  have hbds := h.bounds
  refine ⟨decoded, ?_, henvel⟩
  cases hcomp.result with
  | inl hnothing =>
    obtain ⟨hbase, hheld, hsame⟩ := hnothing
    rw [hsame]
    exact ⟨hseal, hbase, hheld, h.words, h.validated, rfl, rfl, le_rfl,
      .inl (RecoveredState.Reaches.of_base hseal.decoded.index hbase hbds.applied_ge
        hbds.applied_le)⟩
  | inr hund =>
    obtain ⟨-, hrchs, hpros, hval⟩ := hund
    subst hpros
    rw [← hcomp.metadata] at hwds
    exact ⟨hseal, rfl, ⟨decoded, rfl, rfl⟩, h.words.under hwds, hval, rfl, rfl, le_rfl, .inl ⟨hrchs, rfl⟩⟩

lemma FileStore.Valid.destined_completed (h : store.Valid) (hwds : snapshot.metadata.Words)
    {request : InstallSnapshotRequest} {result : SnapshotStageResult} {memory : MemoryStore}
    (hstg : MemoryStore.stageSnapshotChunk request store.toMemoryStore = .ok result memory)
    (hstate : result.state = some prospective) (hsnap : prospective.snapshot = some snapshot) :
    Destined store snapshot prospective := by
  have hspec := (stageSnapshotChunk_spec request store.toMemoryStore).of_ok hstg
  cases hspec with
  | inl hmore => cases hmore.1.symm.trans hstate
  | inr hdone =>
    obtain ⟨installed, hres, ⟨staged, hnew, -, -, hinst⟩, -⟩ := hdone
    cases hres.symm.trans hstate
    obtain ⟨hcmt, hval, retained, hpros, hret⟩ := installRecoveredSnapshot_ok h.bounds.bound hinst
    subst hpros
    cases hsnap
    have hseal := (newSnapshot_ok hnew).2.2
    refine ⟨hseal, rfl, ⟨_, rfl, rfl⟩, ?_, validateRecoveredState_snapshot hval hseal rfl,
      rfl, rfl, hcmt.le, .inr hcmt⟩
    refine ⟨⟨h.words.hardState.1, h.words.hardState.2.1, hwds.1⟩, ?_, hwds⟩
    intro entry hent
    cases hret with
    | inl hkept =>
      rw [show retained = _ from hkept.2.2] at hent
      exact h.words.entries entry (mem_of_mem_drop hent)
    | inr hdrp =>
      rw [show retained = _ from hdrp.1] at hent
      cases hent

lemma FileStore.Valid.destined (h : store.Valid) (hwds : snapshot.metadata.Words)
    (hacc : Accepted store snapshot prospective) :
    ∃ decoded, Destined store decoded prospective ∧ decoded.envelope = snapshot.envelope := by
  cases hacc with
  | compacted hcompact => exact h.destined_compacted hwds hcompact
  | completed hstg hstate hsnap => exact ⟨snapshot, h.destined_completed hwds hstg hstate hsnap, rfl⟩

/-! ## What is recovered -/

lemma Filed.hardState {file : Option SnapshotEnvelope} (h : Filed identity limit file log state) :
    log.hardState = state.hardState := by
  cases h with
  | bare => rfl
  | under _ _ _ _ hund => exact congrArg (·.hardState) hund

lemma Filed.load {file : Option SnapshotEnvelope} (h : Filed identity limit file log state) :
    ∃ found, loadSnapshotFile identity limit file = .ok found := by
  cases h with
  | bare => exact ⟨none, rfl⟩
  | under _ hseal => exact ⟨_, loadSnapshotFile_sealed hseal⟩

/-- Where the state in memory reaches a snapshot, the log does, and leads to the same. -/
lemma Filed.reaches {file : Option SnapshotEnvelope} (h : Filed identity limit file log state)
    (hrchs : state.Reaches snapshot) : log.Reaches snapshot ∧ log.under snapshot = state.under snapshot := by
  cases h with
  | bare => exact ⟨hrchs, rfl⟩
  | under hheld hseal hid hown hund =>
    rename_i held file
    have hnext : (log.under file).Reaches snapshot := by
      rw [hund]
      exact ⟨hrchs.base, hrchs.same, hrchs.committed, hrchs.term, hrchs.retained⟩
    refine ⟨hown.trans hnext, ?_⟩
    rw [← under_under hown hnext.base, hund]
    rfl

lemma RecoveredState.ReadBack.bare (hnone : state.snapshot = none) :
    state.ReadBack state identity limit none := by
  refine ⟨none, rfl, congrArg _ hnone.symm, ?_⟩
  rw [← hnone]

lemma RecoveredState.ReadBack.of_sealed {held file : Snapshot} (hheld : state.snapshot = some held)
    (hseal : file.Sealed identity limit) (hid : file.id = held.id) :
    state.ReadBack { state with snapshot := some file } identity limit (some file.envelope) := by
  refine ⟨some file, loadSnapshotFile_sealed hseal, ?_, rfl⟩
  rw [hheld]
  exact congrArg some hid

/-- A directory with the log of a store and its snapshot in one of the two places reopens as the
store, as long as no snapshot that the log reaches is in the other. -/
lemma FileStore.Valid.reopen_before (h : store.Valid) {directory : Directory}
    (hwal : directory.wal = store.directory.wal)
    (hplaces : (directory.snapshot = store.directory.snapshot ∧ directory.previous = none) ∨
      (directory.previous = store.directory.snapshot ∧ ∃ current,
        loadSnapshotFile store.identity store.snapshotLimit directory.snapshot = .ok current ∧
        ∀ snapshot, current = some snapshot → snapshot.Sealed store.identity store.snapshotLimit ∧
          store.state.hardState.commitIndex < snapshot.metadata.lastIncludedIndex)) :
    ∃ store' state, Reopened store.identity store.voters store.snapshotLimit directory state store' ∧
      store.state.ReadBack state store.identity store.snapshotLimit store.directory.snapshot := by
  obtain ⟨log, last, hlog, -, hfiled⟩ := h.files
  rw [← hwal] at hlog
  have hcmt := hfiled.hardState
  have hunreached : ∀ {current : Option Snapshot}, (∀ snapshot, current = some snapshot →
      snapshot.Sealed store.identity store.snapshotLimit ∧
        store.state.hardState.commitIndex < snapshot.metadata.lastIncludedIndex) →
      ∀ snapshot, current = some snapshot →
        snapshot.Sealed store.identity store.snapshotLimit ∧ ¬ log.Reaches snapshot := by
    intro current hahead snapshot hsnap
    obtain ⟨hseal, hlt⟩ := hahead snapshot hsnap
    refine ⟨hseal, fun hrchs => ?_⟩
    have hcomm := hrchs.committed
    rw [hcmt] at hcomm
    omega
  generalize hfile : store.directory.snapshot = file at hfiled hplaces ⊢
  cases hfiled with
  | bare hnone hbase =>
    cases hplaces with
    | inl hhere =>
      have hload : loadSnapshotFile store.identity store.snapshotLimit directory.snapshot = .ok none := by
        rw [hhere.1]
        rfl
      obtain ⟨store', hopn⟩ := reopen_bare h.limit h.fresh hlog hload nofun hhere.2 hnone hbase
        h.words h.validated
      exact ⟨store', _, hopn, .bare hnone⟩
    | inr haside =>
      obtain ⟨hprev, current, hload, hahead⟩ := haside
      obtain ⟨store', hopn⟩ := reopen_bare h.limit h.fresh hlog hload (hunreached hahead)
        hprev hnone hbase h.words h.validated
      exact ⟨store', _, hopn, .bare hnone⟩
  | under hheld hseal hid hrchs hund =>
    rename_i held file
    have hbase : file.metadata = store.state.snapshotBase := congrArg (·.snapshotBase) hund
    have hval := validateRecoveredState_snapshot h.validated hseal hbase
    have hwds : (log.under file).Words := by
      rw [hund]
      exact ⟨h.words.hardState, h.words.entries, h.words.base⟩
    rw [← hund] at hval
    have hread : store.state.ReadBack (log.under file) store.identity store.snapshotLimit
        (some file.envelope) := by
      rw [hund]
      exact .of_sealed hheld hseal hid
    cases hplaces with
    | inl hhere =>
      have hload : loadSnapshotFile store.identity store.snapshotLimit directory.previous = .ok none := by
        rw [hhere.2]
        rfl
      obtain ⟨store', hopn⟩ := reopen_current h.limit h.fresh hlog hseal hrchs hwds hval
        hhere.1 hload
      exact ⟨store', _, hopn, hread⟩
    | inr haside =>
      obtain ⟨hprev, current, hload, hahead⟩ := haside
      obtain ⟨store', hopn⟩ := reopen_previous h.limit h.fresh hlog hseal hrchs hwds hval
        hload (hunreached hahead) hprev
      exact ⟨store', _, hopn, hread⟩

lemma FileStore.Valid.load_previous (h : store.Valid) {directory : Directory}
    (hprev : directory.previous = store.directory.snapshot ∨ directory.previous = none) :
    ∃ previous, loadSnapshotFile store.identity store.snapshotLimit directory.previous = .ok previous := by
  obtain ⟨log, last, -, -, hfiled⟩ := h.files
  cases hprev with
  | inl hold =>
    rw [hold]
    exact hfiled.load
  | inr hnone =>
    rw [hnone]
    exact ⟨none, rfl⟩

section After

variable {decoded : Snapshot} (hdest : Destined store decoded prospective)

include hdest

lemma Destined.valid_words : ({ prospective with snapshot := some decoded } : RecoveredState).Words ∧
      validateRecoveredStateWithSnapshotLimit { prospective with snapshot := some decoded }
        store.identity store.voters store.snapshotLimit = .ok () :=
  ⟨⟨hdest.words.hardState, hdest.words.entries, hdest.words.base⟩,
    validateRecoveredState_snapshot hdest.validated hdest.isSealed hdest.base⟩

lemma Destined.readBack : prospective.ReadBack { prospective with snapshot := some decoded }
    store.identity store.snapshotLimit (some decoded.envelope) := by
  obtain ⟨held, hheld, hid⟩ := hdest.held
  exact .of_sealed hheld hdest.isSealed hid.symm

lemma Destined.replacement_words {batch : PersistenceBatch}
    (hbat : replacementBatchForState prospective = .ok batch) : batch.Words := by
  obtain ⟨held, replaceFrom, -, -, hflds, hfrom⟩ := replacementBatchForState_eq_ok hbat
  have hwds := hdest.words
  have happd := (validateRecoveredState_ok hwds.base.index_le hdest.validated).applied_le
  subst hflds
  refine ⟨?_, ?_, hwds.entries, ?_, ?_⟩
  · intro hard hhard
    cases hhard
    exact hwds.hardState
  · cases hfrom with
    | inl hzero =>
      rw [hzero.1]
      exact Nat.two_pow_pos 64
    | inr hnext =>
      have hidx := hwds.base.1
      have hmax := hnext.2
      rw [maxUint64] at hmax
      change replaceFrom < 2 ^ 64
      omega
  · intro base hbase
    cases hbase
    exact hwds.base
  intro index hidx'
  cases hidx'
  exact lt_of_le_of_lt happd hwds.hardState.2.2

/-- A log that reaches the new snapshot goes under it, whatever is left of the old one. -/
lemma FileStore.Valid.reopen_ahead (h : store.Valid) {directory : Directory}
    (hrchs : store.state.Reaches decoded)
    (hund : store.state.under decoded = { prospective with snapshot := some decoded })
    (hwal : directory.wal = store.directory.wal)
    (hsnap : directory.snapshot = some decoded.envelope)
    (hprev : directory.previous = store.directory.snapshot ∨ directory.previous = none) :
    ∃ store' state, Reopened store.identity store.voters store.snapshotLimit directory state store' ∧
      prospective.ReadBack state store.identity store.snapshotLimit (some decoded.envelope) := by
  obtain ⟨log, last, hlogged, -, hfiled⟩ := h.files
  rw [← hwal] at hlogged
  obtain ⟨hlog, hsame⟩ := hfiled.reaches hrchs
  rw [hund] at hsame
  obtain ⟨hwds, hval⟩ := hdest.valid_words
  obtain ⟨previous, hload⟩ := h.load_previous hprev
  rw [← hsame] at hwds hval
  obtain ⟨store', hopn⟩ := reopen_current h.limit h.fresh hlogged hdest.isSealed hlog
    hwds hval hsnap hload
  refine ⟨store', _, hopn, ?_⟩
  rw [hsame]
  exact hdest.readBack

/-- A log that was rewritten for the new snapshot is the new state. -/
lemma FileStore.Valid.reopen_rewritten (h : store.Valid) {directory : Directory} {content : Bytes}
    (hrepmt : replacementTransaction prospective = .ok content)
    (hwal : directory.wal = content) (hsnap : directory.snapshot = some decoded.envelope)
    (hprev : directory.previous = store.directory.snapshot ∨ directory.previous = none) :
    ∃ store' state, Reopened store.identity store.voters store.snapshotLimit directory state store' ∧
      prospective.ReadBack state store.identity store.snapshotLimit (some decoded.envelope) := by
  unfold replacementTransaction at hrepmt
  split at hrepmt
  · cases hrepmt
  rename_i batch hbat
  have hlog := (Logged.replacement h.fresh hdest.validated hbat
    (hdest.replacement_words hbat) hrepmt).2
  rw [← hwal] at hlog
  obtain ⟨happd, hcmt⟩ := hlog.ordered
  have hbase : decoded.metadata = prospective.logged.snapshotBase := hdest.base
  obtain ⟨hrchs, hsame⟩ := RecoveredState.Reaches.of_base hdest.isSealed.decoded.index hbase
    happd hcmt
  obtain ⟨hwds, hval⟩ := hdest.valid_words
  obtain ⟨previous, hload⟩ := h.load_previous hprev
  change prospective.logged.under decoded = { prospective with snapshot := some decoded } at hsame
  rw [← hsame] at hwds hval
  obtain ⟨store', hopn⟩ := reopen_current h.limit h.fresh hlog hdest.isSealed hrchs
    hwds hval hsnap hload
  refine ⟨store', _, hopn, ?_⟩
  rw [hsame]
  exact hdest.readBack

end After

/-! ## Where a crash can come -/

/-- A directory part of the way through the steps: as it was, with the snapshot put aside, with the
new one in its place, or with the log rewritten as well. -/
inductive Midway (before : Directory) (hadPrevious : Bool) (envelope : SnapshotEnvelope)
    (replacement : Except RaftError Bytes) (after : Directory) : Prop where
  | untouched (hwal : after.wal = before.wal) (hsnapshot : after.snapshot = before.snapshot)
    (hprevious : after.previous = before.previous)
  | preserved (hhad : hadPrevious = true) (hwal : after.wal = before.wal)
    (hsnapshot : after.snapshot = none) (hprevious : after.previous = before.snapshot)
  | renamed (hwal : after.wal = before.wal) (hsnapshot : after.snapshot = some envelope)
    (hprevious : after.previous = if hadPrevious then before.snapshot else before.previous)
  | rewritten (content : Bytes) (hreplacement : replacement = .ok content)
    (hwal : after.wal = content) (hsnapshot : after.snapshot = some envelope)
    (hprevious : after.previous = (if hadPrevious then before.snapshot else before.previous) ∨
      after.previous = none)

omit [Hash] in
lemma midway_take (before : Directory) (hadPrevious : Bool) (envelope : SnapshotEnvelope)
    (replacement : Except RaftError Bytes) (count : Nat) : Midway before hadPrevious envelope replacement
      (before.run ((persistSnapshotSteps hadPrevious envelope replacement).take count)) := by
  cases hadPrevious with
  | false =>
    cases replacement with
    | error =>
      match count with
      | 0 | 1 | 2 => exact .untouched rfl rfl rfl
      | count + 3 =>
        rw [take_of_length_le (le_add_left 3 count)]
        exact .renamed rfl rfl rfl
    | ok content =>
      match count with
      | 0 | 1 | 2 => exact .untouched rfl rfl rfl
      | 3 | 4 | 5 => exact .renamed rfl rfl rfl
      | count + 6 =>
        rw [take_of_length_le (le_add_left 6 count)]
        exact .rewritten content rfl rfl rfl (.inl rfl)
  | true =>
    cases replacement with
    | error =>
      match count with
      | 0 | 1 | 2 => exact .untouched rfl rfl rfl
      | 3 => exact .preserved rfl rfl rfl rfl
      | count + 4 =>
        rw [take_of_length_le (le_add_left 4 count)]
        exact .renamed rfl rfl rfl
    | ok content =>
      match count with
      | 0 | 1 | 2 => exact .untouched rfl rfl rfl
      | 3 => exact .preserved rfl rfl rfl rfl
      | 4 | 5 | 6 => exact .renamed rfl rfl rfl
      | 7 => exact .rewritten content rfl rfl rfl (.inl rfl)
      | count + 8 =>
        rw [take_of_length_le (le_add_left 8 count)]
        exact .rewritten content rfl rfl rfl (.inr rfl)

/-- The snapshot file is there exactly when memory holds a snapshot. -/
lemma FileStore.Valid.file_none (h : store.Valid) (hnone : store.state.snapshot.isSome = false) :
    store.directory.snapshot = none := by
  obtain ⟨log, last, -, -, hfiled⟩ := h.files
  generalize hfile : store.directory.snapshot = file at hfiled
  cases hfiled with
  | bare => rfl
  | under hheld =>
    rw [hheld] at hnone
    cases hnone

lemma FileStore.Valid.kept_snapshot (h : store.Valid) :
    (if store.state.snapshot.isSome then store.directory.snapshot else store.directory.previous) =
      store.directory.snapshot := by
  cases hhad : store.state.snapshot.isSome with
  | true => rfl
  | false => exact h.previous.trans (h.file_none hhad).symm

lemma FileStore.Valid.reopen_midway (h : store.Valid) (hwds : snapshot.metadata.Words)
    (hacc : Accepted store snapshot prospective) {directory : Directory}
    (hmidway : Midway store.directory store.state.snapshot.isSome snapshot.envelope
      (replacementTransaction prospective) directory) :
    ∃ store' state, Reopened store.identity store.voters store.snapshotLimit directory state store' ∧
      (store.state.ReadBack state store.identity store.snapshotLimit store.directory.snapshot ∨
        prospective.ReadBack state store.identity store.snapshotLimit (some snapshot.envelope)) := by
  obtain ⟨decoded, hdest, henvel⟩ := h.destined hwds hacc
  rw [← henvel] at hmidway ⊢
  cases hmidway with
  | untouched hwal hsnap hprev =>
    obtain ⟨store', state, hopn, hread⟩ := h.reopen_before hwal (.inl ⟨hsnap, hprev.trans h.previous⟩)
    exact ⟨store', state, hopn, .inl hread⟩
  | preserved _ hwal hsnap hprev =>
    have hload : loadSnapshotFile store.identity store.snapshotLimit directory.snapshot = .ok none := by
      rw [hsnap]
      rfl
    obtain ⟨store', state, hopn, hread⟩ := h.reopen_before hwal (.inr ⟨hprev, none, hload, nofun⟩)
    exact ⟨store', state, hopn, .inl hread⟩
  | renamed hwal hsnap hprev =>
    rw [h.kept_snapshot] at hprev
    cases hdest.reached with
    | inl hrcd =>
      obtain ⟨store', state, hopn, hread⟩ := h.reopen_ahead hdest hrcd.1 hrcd.2 hwal
        hsnap (.inl hprev)
      exact ⟨store', state, hopn, .inr hread⟩
    | inr hbeh =>
      -- the old log refuses a snapshot ahead of its commit index
      have hload := loadSnapshotFile_sealed hdest.isSealed
      rw [← hsnap] at hload
      have hahead : ∀ found, some decoded = some found → found.Sealed store.identity store.snapshotLimit ∧
            store.state.hardState.commitIndex < found.metadata.lastIncludedIndex := by
        intro found hfnd
        cases hfnd
        exact ⟨hdest.isSealed, hbeh⟩
      obtain ⟨store', state, hopn, hread⟩ := h.reopen_before hwal (.inr ⟨hprev, some decoded, hload, hahead⟩)
      exact ⟨store', state, hopn, .inl hread⟩
  | rewritten _ hrepmt hwal hsnap hprev =>
    rw [h.kept_snapshot] at hprev
    obtain ⟨store', state, hopn, hread⟩ := h.reopen_rewritten hdest hrepmt hwal hsnap hprev
    exact ⟨store', state, hopn, .inr hread⟩

end Files

end Crane.Raft
