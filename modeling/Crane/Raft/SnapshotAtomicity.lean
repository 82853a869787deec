import Crane.Raft.Reopening

/-!
# Stores over whole runs

Between two snapshots the log grows by the batches of the node. A batch that memory accepts is
accepted by a log that lags behind the snapshot file, and the two stay together; so the stores that
reopen as they are stay such stores through appends, snapshots, transfers, crashes and reopenings.
-/

namespace Crane.Raft

open Program List Nat RecoveredState FileStore

section Splice

variable [Hash] {identity : StorageIdentity} {voters : VoterSet} {limit limit' : Nat}
variable {log state : RecoveredState} {snapshot : Snapshot}

omit [Hash] in
/-- The terms up to the snapshot are at most its own. -/
lemma RecoveredState.Reaches.terms_le (h : log.Reaches snapshot)
    (hidx : snapshot.metadata.lastIncludedIndex ≠ 0)
    (hsort : (log.snapshotBase.lastIncludedTerm :: log.entries.map (·.term)).Pairwise (· ≤ ·))
    {term : Nat} (hterm : term ∈ log.snapshotBase.lastIncludedTerm ::
      (log.entries.take (snapshot.metadata.lastIncludedIndex -
        log.snapshotBase.lastIncludedIndex)).map (·.term)) : term ≤ snapshot.metadata.lastIncludedTerm := by
  have hbase := h.base
  have hret := h.retained
  have hlast := h.term
  unfold recoveredTermAt at hlast
  rw [if_neg hidx] at hlast
  split at hlast
  · rename_i hsame
    rw [Except.ok.injEq] at hlast
    rw [hsame, Nat.sub_self, take_zero] at hterm
    exact ((mem_singleton.mp hterm).trans hlast).le
  rename_i hdiffers
  unfold recoveredEntryAt at hlast
  rw [if_neg (by omega)] at hlast
  split at hlast
  · cases hlast
  rename_i entry hent
  rw [Except.ok.injEq] at hlast
  rw [← hlast]
  obtain ⟨hplc, hent⟩ := List.getElem?_eq_some_iff.mp hent
  -- the snapshot's last entry is the last of those that are taken
  rw [pairwise_cons] at hsort
  cases mem_cons.mp hterm with
  | inl hfst =>
    rw [hfst, ← hent]
    exact hsort.1 _ (mem_map_of_mem (getElem_mem hplc))
  | inr hltr =>
    obtain ⟨other, hoth, hsame⟩ := mem_map.mp hltr
    obtain ⟨place, hplc', hoth⟩ := getElem_of_mem hoth
    rw [length_take] at hplc'
    rw [getElem_take] at hoth
    rw [← hsame, ← hoth, ← hent]
    have hpairs := pairwise_iff_getElem.mp (pairwise_map.mp hsort.2)
    cases lt_or_ge place (snapshot.metadata.lastIncludedIndex -
        log.snapshotBase.lastIncludedIndex - 1) with
    | inl hlt => exact hpairs place _ (by omega) hplc hlt
    | inr hge =>
      have heq : place = snapshot.metadata.lastIncludedIndex -
          log.snapshotBase.lastIncludedIndex - 1 := by omega
      subst heq
      exact le_rfl

/-- A valid state above the snapshot, put behind what a valid log has up to it, is a valid log. -/
lemma RecoveredState.Valid.splice (hlog : log.Valid identity voters limit)
    (hstate : state.Valid identity voters limit') (h : log.Reaches snapshot)
    (hidx : snapshot.metadata.lastIncludedIndex ≠ 0) (hbase : state.snapshotBase = snapshot.metadata)
    (hterm : log.hardState.term ≤ state.hardState.term)
    (hcmt : log.hardState.commitIndex ≤ state.hardState.commitIndex) :
    RecoveredState.Valid
      { log with
        hardState := state.hardState
        entries := log.entries.take (snapshot.metadata.lastIncludedIndex -
          log.snapshotBase.lastIncludedIndex) ++ state.entries } identity voters limit := by
  have hle := h.base
  have hret := h.retained
  have htaken : (log.entries.take (snapshot.metadata.lastIncludedIndex -
      log.snapshotBase.lastIncludedIndex)).length =
      snapshot.metadata.lastIncludedIndex - log.snapshotBase.lastIncludedIndex :=
    length_take_of_le hret
  have hstart : log.snapshotBase.lastIncludedIndex + (snapshot.metadata.lastIncludedIndex -
      log.snapshotBase.lastIncludedIndex) = snapshot.metadata.lastIncludedIndex := by omega
  have hsort := hstate.sorted
  have hlast := hstate.commit_le
  have hbd := hstate.bound
  rw [hbase] at hsort hlast hbd
  refine ⟨hlog.format, hlog.identity_eq, hlog.cluster, hlog.fingerprint, hlog.voter, hstate.vote,
    hlog.base, hlog.base_term.trans hterm, hlog.applied_ge, hlog.applied_le.trans hcmt,
    hlog.snapshot, ?_, ?_, ?_, ?_, ?_, ?_⟩
  · refine contiguous_append.mpr ⟨hlog.contiguous.take _, ?_⟩
    rw [htaken, hstart, ← hbase]
    exact hstate.contiguous
  · intro entry hent
    cases mem_append.mp hent with
    | inl hold => exact hlog.valid entry (mem_of_mem_take hold)
    | inr hnew => exact hstate.valid entry hnew
  · change (log.snapshotBase.lastIncludedTerm :: map (·.term) (_ ++ state.entries)).Pairwise _
    rw [map_append, ← cons_append, pairwise_append]
    refine ⟨?_, (pairwise_cons.mp hsort).2, ?_⟩
    · refine List.Pairwise.sublist ?_ hlog.sorted
      exact ((take_sublist _ _).map _).cons_cons _
    intro term hbef next haft
    exact (h.terms_le hidx hlog.sorted hbef).trans
      ((pairwise_cons.mp hsort).1 next haft)
  · intro entry hent
    cases mem_append.mp hent with
    | inl hold => exact (hlog.term_le entry (mem_of_mem_take hold)).trans hterm
    | inr hnew => exact hstate.term_le entry hnew
  · change log.snapshotBase.lastIncludedIndex + (_ ++ state.entries).length ≤ _
    rw [length_append, htaken]
    omega
  change state.hardState.commitIndex ≤
    log.snapshotBase.lastIncludedIndex + (_ ++ state.entries).length
  rw [length_append, htaken]
  omega

/-! ## Appending behind a snapshot file -/

variable {batch : PersistenceBatch}

/-- What a batch that was accepted asked for. -/
structure Fitting (state : RecoveredState) (batch : PersistenceBatch) : Prop where
  advances : ∀ next, batch.hardState = some next → hardStateAdvances state.hardState next = true
  above : batch.replaceFrom ≠ 0 → state.snapshotBase.lastIncludedIndex < batch.replaceFrom
  uncommitted : batch.replaceFrom ≠ 0 → state.hardState.commitIndex < batch.replaceFrom
  adjacent : batch.replaceFrom ≠ 0 →
    batch.replaceFrom ≤ state.snapshotBase.lastIncludedIndex + state.entries.length + 1
  first : batch.replaceFrom ≠ 0 → ∀ entry, batch.entries.head? = some entry → entry.index = batch.replaceFrom

lemma applyValidated_fitting {state' : RecoveredState} (hlog : batch.OfLog)
    (h : applyValidatedPersistenceBatch state batch identity voters = .ok state') : Fitting state batch := by
  unfold applyValidatedPersistenceBatch at h
  rw [ite_error_eq_ok] at h
  obtain ⟨hadvan, h⟩ := h
  have hkeep : applySnapshotBase state batch batch.hardState = .ok (state, false) := by
    unfold applySnapshotBase
    rw [hlog.base]
  rw [hkeep] at h
  simp only at h
  split at h
  · cases h
  rename_i replaced hrplcd
  unfold applyReplacement at hrplcd
  have hrplc : batch.replaceFrom ≠ 0 → state.snapshotBase.lastIncludedIndex < batch.replaceFrom ∧
      state.hardState.commitIndex < batch.replaceFrom ∧
      batch.replaceFrom ≤ state.snapshotBase.lastIncludedIndex + state.entries.length + 1 ∧
      ∀ entry, batch.entries.head? = some entry → entry.index = batch.replaceFrom := by
    intro hne
    rw [if_neg hne] at hrplcd
    simp only [ite_error_eq_ok] at hrplcd
    obtain ⟨hprot, -, hoff, hfst, -⟩ := hrplcd
    have habv : state.snapshotBase.lastIncludedIndex < batch.replaceFrom := by
      by_contra hle
      exact hprot (.inl (not_lt.mp hle))
    have huncom : state.hardState.commitIndex < batch.replaceFrom := by
      by_contra hle
      exact hprot (.inr ⟨not_lt.mp hle, fun hboth => Bool.false_ne_true hboth.1⟩)
    refine ⟨habv, huncom, by omega, ?_⟩
    intro entry hent
    by_contra hdiffers
    exact hfst ⟨entry, hent, hdiffers⟩
  refine ⟨?_, fun hne => (hrplc hne).1, fun hne => (hrplc hne).2.1,
    fun hne => (hrplc hne).2.2.1, fun hne => (hrplc hne).2.2.2⟩
  intro next hnext
  by_contra hbad
  exact hadvan ⟨next, hnext, hbad⟩

section

omit [Hash]

lemma Fitting.commit_le (h : Fitting state batch) :
    state.hardState.commitIndex ≤ (state.withBatch batch).hardState.commitIndex ∧
      state.hardState.term ≤ (state.withBatch batch).hardState.term := by
  change state.hardState.commitIndex ≤ (batch.hardState.getD state.hardState).commitIndex ∧
    state.hardState.term ≤ (batch.hardState.getD state.hardState).term
  cases hhard : batch.hardState with
  | none => exact ⟨le_rfl, le_rfl⟩
  | some next =>
    have hadvan := h.advances next hhard
    unfold hardStateAdvances at hadvan
    have hboth := (of_decide_eq_true hadvan).1
    rw [Option.getD_some]
    omega

/-- A batch does to the log what it does to the state, behind what the snapshot covers. -/
lemma Fitting.withBatch_entries (h : Fitting state batch)
    (hcmt : snapshot.metadata.lastIncludedIndex ≤ state.hardState.commitIndex) (hrchs : log.Reaches snapshot)
    (hund : log.under snapshot = { state with snapshot := some snapshot }) :
    (log.withBatch batch).entries = log.entries.take (snapshot.metadata.lastIncludedIndex -
      log.snapshotBase.lastIncludedIndex) ++ (state.withBatch batch).entries := by
  have hbase : snapshot.metadata = state.snapshotBase := congrArg (·.snapshotBase) hund
  have hents : log.entries.drop (snapshot.metadata.lastIncludedIndex -
      log.snapshotBase.lastIncludedIndex) = state.entries := congrArg (·.entries) hund
  by_cases hzero : batch.replaceFrom = 0
  · rw [withBatch_keep _ hzero, withBatch_keep _ hzero, ← hents, take_append_drop]
  rw [withBatch_replace _ hzero, withBatch_replace _ hzero,
    ← hents, ← hbase, ← append_assoc, ← take_add]
  have hle := hrchs.base
  have hlt := h.uncommitted hzero
  congr 2
  omega

/-- The term at an index is a matter of the log up to it. -/
lemma recoveredTermAt_prefix {log' : RecoveredState} {index : Nat}
    (hbase : log'.snapshotBase = log.snapshotBase)
    (hents : log'.entries.take (index - log.snapshotBase.lastIncludedIndex) =
      log.entries.take (index - log.snapshotBase.lastIncludedIndex)) :
    recoveredTermAt log' index = recoveredTermAt log index := by
  have hent : recoveredEntryAt log' index = recoveredEntryAt log index := by
    unfold recoveredEntryAt
    rw [hbase]
    split
    · rfl
    rename_i habv
    have hlt : index - log.snapshotBase.lastIncludedIndex - 1 <
        index - log.snapshotBase.lastIncludedIndex := by omega
    rw [← getElem?_take_of_lt hlt, hents, getElem?_take_of_lt hlt]
  unfold recoveredTermAt
  rw [hbase, hent]

end

section Lagging

variable (hfit : Fitting state batch) (hrchs : log.Reaches snapshot)
variable (hund : log.under snapshot = { state with snapshot := some snapshot })

include hfit hrchs hund

omit [Hash] in
lemma Fitting.reaches_withBatch : (log.withBatch batch).Reaches snapshot ∧ (log.withBatch batch).under snapshot =
      { state.withBatch batch with snapshot := some snapshot } := by
  have hbase : snapshot.metadata = state.snapshotBase := congrArg (·.snapshotBase) hund
  have hhard : log.hardState = state.hardState := congrArg (·.hardState) hund
  have happd : max log.appliedIndex snapshot.metadata.lastIncludedIndex = state.appliedIndex :=
    congrArg (·.appliedIndex) hund
  have hident : log.identity = state.identity := congrArg (·.identity) hund
  have hcomm := hrchs.committed
  rw [hhard] at hcomm
  have hents := hfit.withBatch_entries hcomm hrchs hund
  have hhard' : (log.withBatch batch).hardState = (state.withBatch batch).hardState := by
    change batch.hardState.getD log.hardState = batch.hardState.getD state.hardState
    rw [hhard]
  have htaken : (log.entries.take (snapshot.metadata.lastIncludedIndex -
      log.snapshotBase.lastIncludedIndex)).length =
      snapshot.metadata.lastIncludedIndex - log.snapshotBase.lastIncludedIndex :=
    length_take_of_le hrchs.retained
  constructor
  · refine ⟨hrchs.base, hrchs.same, ?_, ?_, ?_⟩
    · rw [hhard']
      exact hcomm.trans hfit.commit_le.1
    · -- the snapshot's last entry is below everything the batch replaces
      have hterm : recoveredTermAt (log.withBatch batch) snapshot.metadata.lastIncludedIndex =
          recoveredTermAt log snapshot.metadata.lastIncludedIndex := by
        refine recoveredTermAt_prefix ?_ ?_
        · rfl
        rw [hents]
        exact take_left' htaken
      exact hterm.trans hrchs.term
    rw [hents, length_append, htaken]
    exact le_add_right _ _
  have hdrop : (log.withBatch batch).entries.drop (snapshot.metadata.lastIncludedIndex -
      log.snapshotBase.lastIncludedIndex) = (state.withBatch batch).entries := by
    rw [hents]
    exact drop_left' htaken
  change RecoveredState.mk log.identity (log.withBatch batch).hardState snapshot.metadata
    (some snapshot) (max log.appliedIndex snapshot.metadata.lastIncludedIndex)
    ((log.withBatch batch).entries.drop (snapshot.metadata.lastIncludedIndex -
      log.snapshotBase.lastIncludedIndex)) = _
  rw [hdrop, hhard', happd, hident, hbase]
  rfl

lemma Fitting.applies_log (hidx : snapshot.metadata.lastIncludedIndex ≠ 0)
    (hlogV : log.Valid identity voters maxRaftSnapshotBytes) (hlog : batch.OfLog)
    (hwds : batch.replaceFrom < 2 ^ 64) (hval : (state.withBatch batch).Valid identity voters limit) :
    applyValidatedPersistenceBatch log batch identity voters = .ok (log.withBatch batch) := by
  have hbase : snapshot.metadata = state.snapshotBase := congrArg (·.snapshotBase) hund
  have hhard : log.hardState = state.hardState := congrArg (·.hardState) hund
  have hcomm := hrchs.committed
  rw [hhard] at hcomm
  have hspliced : log.withBatch batch =
      { log with
        hardState := (state.withBatch batch).hardState
        entries := log.entries.take (snapshot.metadata.lastIncludedIndex -
          log.snapshotBase.lastIncludedIndex) ++ (state.withBatch batch).entries } := by
    rw [← hfit.withBatch_entries hcomm hrchs hund]
    change RecoveredState.mk log.identity (batch.hardState.getD log.hardState) _ _ _ _ =
      RecoveredState.mk log.identity (batch.hardState.getD state.hardState) _ _ _ _
    rw [hhard]
    rfl
  have hlogV' : (log.withBatch batch).Valid identity voters maxRaftSnapshotBytes := by
    obtain ⟨hcmt, hterm⟩ := hfit.commit_le
    rw [← hhard] at hterm hcmt
    rw [hspliced]
    exact hlogV.splice hval hrchs hidx hbase.symm hterm hcmt
  have hlen : (log.entries.drop (snapshot.metadata.lastIncludedIndex -
      log.snapshotBase.lastIncludedIndex)).length = state.entries.length :=
    congrArg (·.entries.length) hund
  rw [length_drop] at hlen
  have hle := hrchs.base
  have hret := hrchs.retained
  refine applyValidated_log hlog ?_ hlogV.bound ?_ hlogV'.validate
  · rw [hhard]
    exact hfit.advances
  intro hne
  have habv := hfit.above hne
  have hadjac := hfit.adjacent hne
  rw [← hbase] at habv hadjac
  rw [hhard]
  refine ⟨by omega, hfit.uncommitted hne, by omega, ?_, hfit.first hne⟩
  rw [maxUint64]
  omega

end Lagging

/-- A log that lags behind the snapshot file accepts the batches that memory accepts, and stays
together with it. -/
lemma Filed.append {file : Option SnapshotEnvelope} {state' : RecoveredState}
    (h : Filed identity limit file log state)
    (hlogV : log.Valid identity voters maxRaftSnapshotBytes) (hlog : batch.OfLog)
    (hwds : batch.replaceFrom < 2 ^ 64) (hbase : state.snapshotBase.Words)
    (hapl : applyValidatedPersistenceBatch state batch identity voters = .ok state') :
    ∃ log', applyValidatedPersistenceBatch log batch identity voters = .ok log' ∧
      Filed identity limit file log' state' := by
  obtain ⟨hstate', hval'⟩ := applyValidated_ok hlog hapl
  have hfit := applyValidated_fitting hlog hapl
  subst hstate'
  cases h with
  | bare hnone hzero => exact ⟨_, hapl, .bare hnone hzero⟩
  | under hheld hseal hid hrchs hund =>
    have hnew : (state.withBatch batch).Valid identity voters maxRaftSnapshotBytes :=
      validateRecoveredState_ok hbase.index_le hval'
    obtain ⟨hrchs', hund'⟩ := hfit.reaches_withBatch hrchs hund
    exact ⟨log.withBatch batch, hfit.applies_log hrchs hund hseal.decoded.index hlogV
      hlog hwds hnew, .under hheld hseal hid hrchs' hund'⟩

end Splice

/-! ## Every operation keeps a store valid -/

section Operations

variable [Hash] {store store' : FileStore} {batch : PersistenceBatch} {snapshot : Snapshot}
variable {prospective : RecoveredState}

omit [Hash] in
lemma RecoveredState.Words.withBatch {state : RecoveredState} (h : state.Words)
    (hwds : batch.Words) : (state.withBatch batch).Words := by
  refine ⟨?_, ?_, h.base⟩
  · change (batch.hardState.getD state.hardState).term < 2 ^ 64 ∧
      (batch.hardState.getD state.hardState).votedFor < 2 ^ 16 ∧
      (batch.hardState.getD state.hardState).commitIndex < 2 ^ 64
    cases hhard : batch.hardState with
    | none => exact h.hardState
    | some next => exact hwds.hardState next hhard
  intro entry hent
  by_cases hzero : batch.replaceFrom = 0
  · rw [withBatch_keep _ hzero] at hent
    exact h.entries entry hent
  rw [withBatch_replace _ hzero] at hent
  cases mem_append.mp hent with
  | inl hold => exact h.entries entry (mem_of_mem_take hold)
  | inr hnew => exact hwds.entries entry hnew

/-- Both stores are of one voter, with one limit. -/
structure FileStore.SameOwner (store store' : FileStore) : Prop where
  identity : store'.identity = store.identity
  voters : store'.voters = store.voters
  limit : store'.snapshotLimit = store.snapshotLimit

lemma FileStore.Valid.persist (h : store.Valid) (hlog : batch.OfLog) (hwds : batch.Words)
    (hpers : store.persist batch = .ok store') : store'.Valid ∧ store.SameOwner store' := by
  unfold FileStore.persist at hpers
  split at hpers
  · cases hpers
  split at hpers
  · cases hpers
  rename_i wal hwal
  cases hpers
  obtain ⟨encoded, hpersd⟩ := WALStore.persist_eq_ok hwal
  obtain ⟨log, last, hlogged, hnext, hfiled⟩ := h.files
  obtain ⟨hnum, hid⟩ := next_numbered hnext hpersd.numbered hlogged.last_lt
  have hapl : applyValidatedPersistenceBatch store.state batch store.identity store.voters =
      .ok wal.state := hpersd.applied
  have hlogV : log.Valid store.identity store.voters maxRaftSnapshotBytes := by
    refine validateRecoveredState_ok ?_ hlogged.valid
    have hordered := hlogged.ordered
    have hcmt := h.words.hardState.2.2
    rw [hfiled.hardState] at hordered
    rw [maxUint64]
    omega
  obtain ⟨log', hapl', hfiled'⟩ := hfiled.append hlogV hlog hwds.replaceFrom h.words.base hapl
  obtain ⟨hstate, hval⟩ := applyValidated_ok hlog hapl
  rw [hstate] at hval hfiled'
  have hnew : (store.state.withBatch batch).Valid store.identity store.voters
      maxRaftSnapshotBytes := validateRecoveredState_ok h.words.base.index_le hval
  -- the snapshot in memory is the one that was checked against the store's own limit
  have hval' : (store.state.withBatch batch).Valid store.identity store.voters store.snapshotLimit :=
    { hnew with snapshot := h.bounds.snapshot }
  have hbat : batch.logged = batch := by rw [PersistenceBatch.logged, ← hlog.snapshot]
  refine ⟨⟨h.limit, h.fresh, ?_, ?_, h.previous, log', last + 1, ?_, ?_, ?_⟩, rfl, rfl, rfl⟩
  · rw [hstate]
    exact h.words.withBatch hwds
  · rw [hstate]
    exact hval'.validate
  · have hwritten := hpersd.written
    change encodeWALTransaction store.nextTxnID batch = .ok encoded at hwritten
    rw [hnum] at hwritten
    change Logged store.identity store.voters wal.wal log' (last + 1)
    rw [hpersd.wal]
    refine .append hlogged hwds hid hwritten ?_ hpersd.fits
    rw [hbat, applyPersistenceBatch, hpersd.bounds]
    exact hapl'
  · change wal.nextTxnID = _
    rw [hpersd.next]
    change (if store.nextTxnID = maxUint64 then _ else store.nextTxnID + 1) = _
    rw [hnum]
  rw [hstate]
  exact hfiled'

/-- The store after all steps. -/
def FileStore.snapshotted (store : FileStore) (envelope : SnapshotEnvelope)
    (prospective : RecoveredState) (content : Bytes) : FileStore :=
  { store with
    state := prospective
    nextTxnID := 2
    directory := store.directory.run
      (persistSnapshotSteps store.state.snapshot.isSome envelope (.ok content)) }

omit [Hash] in
lemma run_persistSnapshotSteps (directory : Directory) (hadPrevious : Bool)
    (envelope : SnapshotEnvelope) (content : Bytes) (hprev : directory.previous = none) :
    (directory.run (persistSnapshotSteps hadPrevious envelope (.ok content))).snapshot = some envelope ∧
      (directory.run (persistSnapshotSteps hadPrevious envelope (.ok content))).wal = content ∧
      (directory.run (persistSnapshotSteps hadPrevious envelope (.ok content))).previous = none := by
  cases hadPrevious with
  | false => exact ⟨rfl, rfl, hprev⟩
  | true => exact ⟨rfl, rfl, rfl⟩

lemma FileStore.Valid.snapshotted (h : store.Valid) (hwds : snapshot.metadata.Words)
    (hacc : Accepted store snapshot prospective) {content : Bytes}
    (hrepmt : replacementTransaction prospective = .ok content) :
    (store.snapshotted snapshot.envelope prospective content).Valid := by
  obtain ⟨decoded, hdest, henvel⟩ := h.destined hwds hacc
  obtain ⟨hsnap, hwal, hprev⟩ := run_persistSnapshotSteps store.directory
    store.state.snapshot.isSome snapshot.envelope content h.previous
  unfold replacementTransaction at hrepmt
  split at hrepmt
  · cases hrepmt
  rename_i batch hbat
  have hlog := (Logged.replacement h.fresh hdest.validated hbat
    (hdest.replacement_words hbat) hrepmt).2
  obtain ⟨happd, hcmt⟩ := hlog.ordered
  have hbase : decoded.metadata = prospective.logged.snapshotBase := hdest.base
  obtain ⟨hrchs, hsame⟩ := RecoveredState.Reaches.of_base hdest.isSealed.decoded.index hbase
    happd hcmt
  obtain ⟨held, hheld, hid⟩ := hdest.held
  refine ⟨h.limit, h.fresh, hdest.words, hdest.validated, hprev, prospective.logged, 1, ?_, rfl, ?_⟩
  · change Logged store.identity store.voters (store.directory.run _).wal _ 1
    rw [hwal]
    exact hlog
  change Filed store.identity store.snapshotLimit (store.directory.run _).snapshot _ prospective
  rw [hsnap, ← henvel]
  exact .under hheld hdest.isSealed hid.symm hrchs hsame

omit [Hash] in
lemma persistSnapshotStateLocked_spec (snapshot : Snapshot) (prospective : RecoveredState)
    (store : FileStore) : Ensures (persistSnapshotStateLocked snapshot prospective) store
      (fun _ store' => ∃ content, replacementTransaction prospective = .ok content ∧
        store' = store.snapshotted snapshot.envelope prospective content)
      (fun _ store' => store'.poisoned = true) := by
  unfold persistSnapshotStateLocked
  simp only [ensures_bind, ensures_modify]
  cases hrepmt : replacementTransaction prospective with
  | error => simp only [ensures_bind, ensures_modify, ensures_throw]
  | ok content =>
    simp only [ensures_modify]
    refine ⟨content, rfl, ?_⟩
    rw [snapshotSteps, hrepmt]
    rfl

lemma FileStore.Valid.persistSnapshot (h : store.Valid) (hwds : snapshot.metadata.Words)
    (hpers : FileStore.persistSnapshot snapshot store = .ok () store') :
    store'.Valid ∧ store.SameOwner store' := by
  have hspec : Ensures (FileStore.persistSnapshot snapshot) store
      (fun _ store' => store'.Valid ∧ store.SameOwner store') (fun _ _ => True) := by
    unfold FileStore.persistSnapshot
    simp only [ensures_bind, ensures_get, ensures_ite, ensures_throw]
    refine ⟨fun _ => trivial, fun _ => ?_⟩
    cases hcompact : compactRecoveredState store.state snapshot store.identity store.voters
        store.snapshotLimit with
    | error e => exact trivial
    | ok prospective =>
      refine (persistSnapshotStateLocked_spec snapshot prospective store).mono ?_ fun _ _ _ => trivial
      rintro _ store' ⟨content, hrepmt, hstore'⟩
      rw [hstore']
      exact ⟨h.snapshotted hwds (.compacted hcompact) hrepmt, rfl, rfl, rfl⟩
  exact hspec.of_ok hpers

/-- Nothing but a staged transfer differs. -/
lemma FileStore.Valid.with_stage (h : store.Valid) (stage : Option MemorySnapshotStage) :
    FileStore.Valid { store with stage } ∧ store.SameOwner { store with stage } :=
  ⟨⟨h.limit, h.fresh, h.words, h.validated, h.previous, h.files⟩, rfl, rfl, rfl⟩

/-- What the last chunk of a transfer installs has the metadata that its requests announce. -/
lemma stageSnapshotChunk_metadata {request : InstallSnapshotRequest} {memory memory' : MemoryStore}
    {result : SnapshotStageResult}
    (hlen : memory.state.snapshotBase.lastIncludedIndex + memory.state.entries.length ≤ maxUint64)
    (hstg : MemoryStore.stageSnapshotChunk request memory = .ok result memory')
    (hstate : result.state = some prospective) (hsnap : prospective.snapshot = some snapshot) :
    snapshot.metadata = (snapshotTransferMetadataFor request).metadata := by
  cases (stageSnapshotChunk_spec request memory).of_ok hstg with
  | inl hmore => cases hmore.1.symm.trans hstate
  | inr hdone =>
    obtain ⟨installed, hres, ⟨staged, hnew, -, -, hinst⟩, -⟩ := hdone
    cases hres.symm.trans hstate
    obtain ⟨-, -, retained, hpros, -⟩ := installRecoveredSnapshot_ok hlen hinst
    subst hpros
    cases hsnap
    exact (newSnapshot_ok hnew).1

lemma FileStore.Valid.stageSnapshotChunk (h : store.Valid) (request : InstallSnapshotRequest)
    (hwds : (snapshotTransferMetadataFor request).metadata.Words) :
    Ensures (stageSnapshotChunk request) store
      (fun _ store' => store'.Valid ∧ store.SameOwner store')
      (fun _ store' => store'.poisoned = false → store'.Valid ∧ store.SameOwner store') := by
  unfold FileStore.stageSnapshotChunk
  simp only [ensures_bind, ensures_get, ensures_ite, ensures_throw]
  refine ⟨fun _ _ => ⟨h, rfl, rfl, rfl⟩, fun _ => ?_⟩
  cases hstg : MemoryStore.stageSnapshotChunk request store.toMemoryStore with
  | error _ memory =>
    simp only [ensures_bind, ensures_modify, ensures_throw]
    exact fun _ => h.with_stage memory.stage
  | ok result memory =>
    simp only [ensures_bind, ensures_modify]
    cases hstate : result.state with
    | none => exact h.with_stage memory.stage
    | some prospective =>
      cases hsnap : prospective.snapshot with
      | none =>
        simp only [Option.bind_some, hsnap]
        exact h.with_stage memory.stage
      | some snapshot =>
        simp only [Option.bind_some, hsnap, ensures_bind, ensures_pure]
        refine (persistSnapshotStateLocked_spec snapshot prospective _).mono ?_ ?_
        · rintro _ store' ⟨content, hrepmt, hstore'⟩
          rw [hstore']
          rw [← stageSnapshotChunk_metadata h.bounds.bound hstg hstate hsnap] at hwds
          have hinstd := h.snapshotted hwds (.completed hstg hstate hsnap) hrepmt
          exact ⟨(hinstd.with_stage memory.stage).1, rfl, rfl, rfl⟩
        intro _ store' hpois hclr
        rw [hpois] at hclr
        cases hclr

/-! ## Runs -/

/-- The stores reached from an empty directory by appends, snapshots and transfers, and by reopening
after a crash in the middle of a snapshot, any number of times. -/
inductive FileRun (identity : StorageIdentity) (voters : VoterSet) (limit : Nat) : FileStore → Prop where
  | created {store : FileStore} (hopen : openFileStore identity voters limit .empty = .ok store) :
    FileRun identity voters limit store
  | persist {store store' : FileStore} {batch : PersistenceBatch}
    (hrun : FileRun identity voters limit store) (hlog : batch.OfLog) (hwords : batch.Words)
    (hpersist : store.persist batch = .ok store') : FileRun identity voters limit store'
  | snapshot {store store' : FileStore} {snapshot : Snapshot}
    (hrun : FileRun identity voters limit store) (hwords : snapshot.metadata.Words)
    (hpersist : persistSnapshot snapshot store = .ok () store') :
    FileRun identity voters limit store'
  | chunk {store store' : FileStore} {request : InstallSnapshotRequest}
    {result : SnapshotStageResult} (hrun : FileRun identity voters limit store)
    (hwords : (snapshotTransferMetadataFor request).metadata.Words)
    (hstage : stageSnapshotChunk request store = .ok result store') :
    FileRun identity voters limit store'
  | refused {store store' : FileStore} {request : InstallSnapshotRequest} {e : RaftError}
    (hrun : FileRun identity voters limit store)
    (hwords : (snapshotTransferMetadataFor request).metadata.Words)
    (hstage : stageSnapshotChunk request store = .error e store')
    (hclear : store'.poisoned = false) : FileRun identity voters limit store'
  | crashed {store store' : FileStore} {snapshot : Snapshot} {prospective : RecoveredState}
    {count : Nat} (hrun : FileRun identity voters limit store) (hwords : snapshot.metadata.Words)
    (haccepted : Accepted store snapshot prospective)
    (hopen : openFileStore identity voters limit
      (store.directory.run ((store.snapshotSteps snapshot prospective).take count)) = .ok store') :
    FileRun identity voters limit store'

variable {identity : StorageIdentity} {voters : VoterSet} {limit : Nat}

/-- An empty directory opens as a store that reopens as it is. -/
lemma openFileStore_empty (h : openFileStore identity voters limit .empty = .ok store) :
    Reopened identity voters limit .empty (.fresh identity) store := by
  have hopen := h
  unfold openFileStore at h
  rw [ite_error_eq_ok] at h
  obtain ⟨hlim, h⟩ := h
  cases hfrs : validateRecoveredState (.fresh identity) identity voters with
  | error =>
    rw [hfrs] at h
    cases h
  | ok =>
    have hlog : Logged identity voters Directory.empty.wal (.fresh identity) 0 := .empty hfrs
    have hwds : (fresh identity).Words := by
      refine ⟨?_, nofun, ?_⟩
      · exact ⟨Nat.two_pow_pos 64, Nat.two_pow_pos 16, Nat.two_pow_pos 64⟩
      · exact ⟨Nat.two_pow_pos 64, Nat.two_pow_pos 64, Nat.two_pow_pos 32⟩
    have hval : validateRecoveredStateWithSnapshotLimit (.fresh identity) identity voters limit = .ok () := hfrs
    obtain ⟨store', hopn⟩ := reopen_bare (not_lt.mp hlim) hfrs hlog rfl nofun rfl rfl rfl
      hwds hval
    cases hopen.symm.trans hopn.opened
    exact hopn

omit [Hash] in
lemma FileStore.SameOwner.owned (h : store.SameOwner store')
    (hown : store.identity = identity ∧ store.voters = voters ∧ store.snapshotLimit = limit) :
    store'.identity = identity ∧ store'.voters = voters ∧ store'.snapshotLimit = limit :=
  ⟨h.identity.trans hown.1, h.voters.trans hown.2.1, h.limit.trans hown.2.2⟩

/-- Every store of a run is of the voter it was opened for, and reopens as it is. -/
lemma FileRun.valid (h : FileRun identity voters limit store) :
    store.Valid ∧ store.identity = identity ∧ store.voters = voters ∧ store.snapshotLimit = limit := by
  induction h with
  | created hopen =>
    have hopn := openFileStore_empty hopen
    exact ⟨hopn.valid, hopn.identity, hopn.voters, hopn.limit⟩
  | persist _ hlog hwds hpers ih =>
    obtain ⟨hval, hsame⟩ := ih.1.persist hlog hwds hpers
    exact ⟨hval, hsame.owned ih.2⟩
  | snapshot _ hwds hpers ih =>
    obtain ⟨hval, hsame⟩ := ih.1.persistSnapshot hwds hpers
    exact ⟨hval, hsame.owned ih.2⟩
  | chunk _ hwds hstg ih =>
    obtain ⟨hval, hsame⟩ := (ih.1.stageSnapshotChunk _ hwds).of_ok hstg
    exact ⟨hval, hsame.owned ih.2⟩
  | refused _ hwds hstg hclr ih =>
    obtain ⟨hval, hsame⟩ := (ih.1.stageSnapshotChunk _ hwds).of_error hstg hclr
    exact ⟨hval, hsame.owned ih.2⟩
  | crashed _ hwds hacc hopen ih =>
    rename_i store store' snapshot prospective count _
    obtain ⟨hval, hident, hvtrs, hlim⟩ := ih
    obtain ⟨reopened, state, hopn, -⟩ := hval.reopen_midway hwds hacc
      (midway_take store.directory _ _ _ count)
    rw [hident, hvtrs, hlim] at hopn
    cases hopen.symm.trans hopn.opened
    exact ⟨hopn.valid, hopn.identity, hopn.voters, hopn.limit⟩

/-! ## What a crash leaves intact -/

/-- Nothing that was promised is lost: term and vote, and every committed entry, unless the snapshot
covers it. -/
structure RecoveredState.Intact (before after : RecoveredState) : Prop where
  term : after.hardState.term = before.hardState.term
  vote : after.hardState.votedFor = before.hardState.votedFor
  commit : before.hardState.commitIndex ≤ after.hardState.commitIndex
  base : before.snapshotBase.lastIncludedIndex ≤ after.snapshotBase.lastIncludedIndex
  entries : ∀ index, before.snapshotBase.lastIncludedIndex < index →
    index ≤ before.hardState.commitIndex → index ≤ after.snapshotBase.lastIncludedIndex ∨
      ∃ entry, recoveredEntryAt before index = some entry ∧ recoveredEntryAt after index = some entry

/-- The snapshot a base stands for is there. -/
lemma FileStore.Valid.payload (h : store.Valid) (hbase : store.state.snapshotBase.lastIncludedIndex ≠ 0) :
    ∃ snapshot, store.state.snapshot = some snapshot ∧ snapshot.metadata = store.state.snapshotBase := by
  obtain ⟨log, last, -, -, hfiled⟩ := h.files
  generalize store.directory.snapshot = file at hfiled
  cases hfiled with
  | bare _ hzero => exact absurd hzero hbase
  | under hheld hseal hid hrchs hund =>
    rename_i held file
    refine ⟨held, hheld, ?_⟩
    have hsto := h.bounds.snapshot held hheld
    unfold validateStoredSnapshot at hsto
    rw [ite_error_eq_ok] at hsto
    exact not_not.mp fun hne => hsto.1 (.inr hne)

/-- A committed entry above the base is in the log. -/
lemma FileStore.Valid.committed_entry (h : store.Valid) {index : Nat}
    (habv : store.state.snapshotBase.lastIncludedIndex < index)
    (hcomm : index ≤ store.state.hardState.commitIndex) :
    ∃ entry, recoveredEntryAt store.state index = some entry := by
  have hlast := h.bounds.commit_le
  unfold recoveredEntryAt
  rw [if_neg (not_le.mpr habv)]
  exact ⟨_, getElem?_eq_getElem (by omega)⟩

lemma FileStore.Valid.intact_refl (h : store.Valid) : store.state.Intact store.state := by
  refine ⟨rfl, rfl, le_rfl, le_rfl, ?_⟩
  intro index habv hcomm
  obtain ⟨entry, hfnd⟩ := h.committed_entry habv hcomm
  exact .inr ⟨entry, hfnd, hfnd⟩

lemma RecoveredState.Intact.readBack {before after state : RecoveredState} {identity : StorageIdentity}
    {limit : Nat} {file : Option SnapshotEnvelope} (h : before.Intact after)
    (hread : after.ReadBack state identity limit file) : before.Intact state := by
  obtain ⟨found, -, -, rfl⟩ := hread
  exact ⟨h.term, h.vote, h.commit, h.base, h.entries⟩

lemma FileStore.Valid.intact_destined (h : store.Valid) {decoded : Snapshot}
    (hdest : Destined store decoded prospective) : store.state.Intact prospective := by
  have hbase := hdest.base
  cases hdest.reached with
  | inl hrcd =>
    obtain ⟨hrchs, hund⟩ := hrcd
    refine ⟨hdest.term, hdest.vote, hdest.commit, hbase ▸ hrchs.base, ?_⟩
    intro index habv hcomm
    cases lt_or_ge decoded.metadata.lastIncludedIndex index with
    | inl hlt =>
      obtain ⟨entry, hfnd⟩ := h.committed_entry habv hcomm
      have hsame := recoveredEntryAt_under hrchs.base hlt
      rw [hund] at hsame
      exact .inr ⟨entry, hfnd, hsame.trans hfnd⟩
    | inr hle => exact .inl (hbase ▸ hle)
  | inr hbeh =>
    have hstate := h.bounds.applied_ge.trans h.bounds.applied_le
    rw [hbase] at hbeh
    refine ⟨hdest.term, hdest.vote, hdest.commit, by omega, ?_⟩
    intro index _ hcomm
    exact .inl (by omega)

/-- However many of its steps a snapshot was written with, the directory reopens: with the state before or
with the prospective one, each with the snapshot decoded from its file, with nothing lost, and as a store
to which the same applies again. -/
theorem snapshot_crash_atomic (h : store.Valid) (hwords : snapshot.metadata.Words)
    (haccepted : Accepted store snapshot prospective) (count : Nat) :
    ∃ store', openFileStore store.identity store.voters store.snapshotLimit
        (store.directory.run ((store.snapshotSteps snapshot prospective).take count)) = .ok store' ∧
      (store.state.ReadBack store'.state store.identity store.snapshotLimit store.directory.snapshot ∨
        prospective.ReadBack store'.state store.identity store.snapshotLimit (some snapshot.envelope)) ∧
      store.state.Intact store'.state ∧
      (store'.state.snapshotBase.lastIncludedIndex ≠ 0 → ∃ held,
        store'.state.snapshot = some held ∧ held.metadata = store'.state.snapshotBase) ∧
      store'.Valid ∧ store.SameOwner store' := by
  obtain ⟨store', state, hopn, hread⟩ := h.reopen_midway hwords haccepted
    (midway_take store.directory _ _ _ count)
  obtain ⟨decoded, hdest, -⟩ := h.destined hwords haccepted
  rw [← hopn.state] at hread
  have hintact : store.state.Intact store'.state := by
    cases hread with
    | inl hbef => exact h.intact_refl.readBack hbef
    | inr haft => exact (h.intact_destined hdest).readBack haft
  exact ⟨store', hopn.opened, hread, hintact, hopn.valid.payload, hopn.valid,
    hopn.identity, hopn.voters, hopn.limit⟩

end Operations

/-! ### A snapshot of the first entry -/

namespace Crash

def created : FileStore where
  identity := identity
  voters := voters
  snapshotLimit := 1000
  state := .fresh identity
  stage := none
  nextTxnID := 1
  poisoned := false
  directory := .empty

lemma created_valid : created.Valid := by
  have hfrs : validateRecoveredState (.fresh identity) identity voters = .ok () := by decide
  refine ⟨by decide, hfrs, ⟨by decide, nofun, by decide⟩, hfrs, rfl, .fresh identity, 0,
    .empty hfrs, rfl, .bare rfl rfl⟩

end Crash

open Crash in
theorem snapshot_crash_atomic_created : ∃ store snapshot prospective, store.Valid ∧
    created.persist elected = .ok store ∧ newSnapshot identity ⟨1, 1, 1⟩ [5] 1000 = .ok snapshot ∧
    compactRecoveredState store.state snapshot store.identity store.voters store.snapshotLimit = .ok prospective ∧
    ∃ store', openFileStore store.identity store.voters store.snapshotLimit
        (store.directory.run ((store.snapshotSteps snapshot prospective).take 3)) = .ok store' ∧
      (store.state.ReadBack store'.state store.identity store.snapshotLimit store.directory.snapshot ∨
        prospective.ReadBack store'.state store.identity store.snapshotLimit (some snapshot.envelope)) ∧
      store.state.Intact store'.state ∧
      (store'.state.snapshotBase.lastIncludedIndex ≠ 0 → ∃ held,
        store'.state.snapshot = some held ∧ held.metadata = store'.state.snapshotBase) ∧
      store'.Valid ∧ store.SameOwner store' := by
  have hrun : ((created.persist elected).toOption.any fun store =>
      (newSnapshot identity ⟨1, 1, 1⟩ [5] 1000).toOption.any fun snapshot =>
        (compactRecoveredState store.state snapshot store.identity store.voters
          store.snapshotLimit).toOption.any fun _ => true) = true := by
    set_option maxRecDepth 20000 in decide
  simp only [Option.any_eq_true, toOption_eq_some] at hrun
  obtain ⟨store, hstore, snapshot, hsnap, prospective, hpros, -⟩ := hrun
  have hval := (created_valid.persist ⟨rfl, rfl, rfl⟩ elected_words hstore).1
  have hwds : snapshot.metadata.Words := by
    rw [(newSnapshot_ok hsnap).1]
    decide
  exact ⟨store, snapshot, prospective, hval, hstore, hsnap, hpros,
    snapshot_crash_atomic hval hwds (.compacted hpros) 3⟩

end Crane.Raft
