import Crane.Raft.LogFacts
import Crane.Raft.Storage

/-!
# What the store accepts

`RecoveredState.Valid` is the validation of a durable state as a proposition, and each store
operation gets one lemma: what the durable state is after it succeeded. The three operations
that write (`persist`, `persistSnapshot`, the last `stageSnapshotChunk` of a transfer) validate
their result, so a store that starts valid is valid after every run of them.
-/

namespace Crane.Raft

open Program Except MemoryStore

variable {batch : PersistenceBatch} {metadata : SnapshotMetadata} {limit : Nat} {s p : RecoveredState}
variable {envelope : SnapshotEnvelope} {snapshot : Snapshot} {store store' : MemoryStore}

/-! ## Valid durable states -/

lemma checkRecoveredEntries_eq_ok (hardTerm : Nat) {start : Nat} (previousTerm : Nat) {last : Nat}
    {entries : List Entry} (hb : start ≤ maxUint64) :
    checkRecoveredEntries hardTerm start previousTerm entries = .ok last ↔
      Contiguous start entries ∧ (∀ e ∈ entries, e.Valid) ∧
        (previousTerm :: entries.map (·.term)).Pairwise (· ≤ ·) ∧
        (∀ e ∈ entries, e.term ≤ hardTerm) ∧ start + entries.length ≤ maxUint64 ∧
        last = start + entries.length := by
  induction entries generalizing start previousTerm with
  | nil =>
    simp only [checkRecoveredEntries, ok.injEq, List.map_nil, List.length_nil,
      Nat.add_zero, List.not_mem_nil, false_imp_iff, implies_true, List.pairwise_singleton,
      true_and, hb, Contiguous.nil]
    exact eq_comm
  | cons e _ ih =>
    rw [checkRecoveredEntries, ite_error_eq_ok, ite_error_eq_ok, ne_eq, not_not, contiguous_cons,
      List.map_cons, Log.pairwise_le_cons_cons]
    simp only [List.mem_cons, forall_eq_or_imp, List.length_cons]
    cases hv : validateLogEntry e with
    | error =>
      simp only [reduceCtorEq, and_false, false_iff]
      rintro ⟨-, ⟨hve, -⟩, -⟩
      rw [validateLogEntry_eq_ok.mpr hve] at hv
      cases hv
    | ok =>
      have hve := validateLogEntry_eq_ok.mp hv
      simp only [ite_error_eq_ok, not_or, not_lt, hve, true_and]
      constructor
      · rintro ⟨h1, h2, ⟨h3, h4⟩, hrest⟩
        obtain ⟨hc, hv, hs, ht, hl, rfl⟩ := (ih _ (by omega)).mp hrest
        exact ⟨⟨h2, hc⟩, hv, ⟨h3, hs⟩, ⟨h4, ht⟩, by omega, by omega⟩
      rintro ⟨⟨h2, hc⟩, hv, ⟨h3, hs⟩, ⟨h4, ht⟩, hl, rfl⟩
      exact ⟨by omega, h2, ⟨h3, h4⟩, (ih _ (by omega)).mpr ⟨hc, hv, hs, ht, by omega, by omega⟩⟩

/-! ## Log batches -/

/-- A batch that only touches hard state and log. -/
structure PersistenceBatch.OfLog (batch : PersistenceBatch) : Prop where
  base : batch.snapshotBase = none
  snapshot : batch.snapshot = none
  applied : batch.appliedIndex = none

/-- The durable state a log batch leads to. -/
def RecoveredState.withBatch (s : RecoveredState) (batch : PersistenceBatch) : RecoveredState :=
  { s with
    hardState := batch.hardState.getD s.hardState
    entries :=
      if batch.replaceFrom = 0 then s.entries
      else s.entries.take (batch.replaceFrom - s.snapshotBase.lastIncludedIndex - 1) ++ batch.entries }

lemma RecoveredState.withBatch_keep (s : RecoveredState) (h : batch.replaceFrom = 0) :
    (s.withBatch batch).entries = s.entries := by
  simp [withBatch, h]

lemma RecoveredState.withBatch_replace (s : RecoveredState) (h : batch.replaceFrom ≠ 0) :
    (s.withBatch batch).entries = s.entries.take (batch.replaceFrom - s.snapshotBase.lastIncludedIndex - 1) ++
        batch.entries := by
  simp [withBatch, h]

/-! ## Snapshots and durable states -/

lemma wrapAdd_eq {a b : Nat} (h : a + b ≤ maxUint64) : wrapAdd a b = a + b := by
  unfold maxUint64 at h
  exact Nat.mod_eq_of_lt (by omega)

lemma validateSnapshotInputs_eq_ok {identity : StorageIdentity} {length : Nat} :
    validateSnapshotInputs identity metadata length limit = .ok () ↔
      (identity.clusterID ≠ zeroBytes 16 ∧ identity.voterFingerprint ≠ zeroBytes 32) ∧
      (metadata.lastIncludedIndex ≠ 0 ∧ metadata.lastIncludedTerm ≠ 0 ∧ metadata.stateMachineSchemaVersion ≠ 0) ∧
      (limit ≠ 0 ∧ limit ≤ maxRaftSnapshotBytes) ∧ length ≤ limit := by
  simp only [validateSnapshotInputs, ite_error_eq_ok, not_or, not_lt, and_true, ne_eq]

section

variable [Hash] {identity : StorageIdentity}

/-- What the validation of a durable state checks. -/
structure RecoveredState.Valid (s : RecoveredState) (identity : StorageIdentity)
    (voters : VoterSet) (limit : Nat) : Prop where
  format : identity.formatVersion = 1
  identity_eq : s.identity = identity
  cluster : identity.clusterID ≠ zeroBytes 16
  fingerprint : identity.voterFingerprint = voters.fingerprint
  voter : voters.validateLocalID identity.localVoterID = .ok ()
  vote : s.hardState.votedFor = 0 ∨ (s.hardState.term ≠ 0 ∧ s.hardState.votedFor ∈ voters.voters)
  base : s.snapshotBase.lastIncludedIndex = 0 ↔ s.snapshotBase.lastIncludedTerm = 0
  base_term : s.snapshotBase.lastIncludedTerm ≤ s.hardState.term
  applied_ge : s.snapshotBase.lastIncludedIndex ≤ s.appliedIndex
  applied_le : s.appliedIndex ≤ s.hardState.commitIndex
  snapshot : ∀ snapshot, s.snapshot = some snapshot →
    validateStoredSnapshot snapshot s.snapshotBase identity limit = .ok ()
  contiguous : Contiguous s.snapshotBase.lastIncludedIndex s.entries
  valid : ∀ e ∈ s.entries, e.Valid
  sorted : (s.snapshotBase.lastIncludedTerm :: s.entries.map (·.term)).Pairwise (· ≤ ·)
  term_le : ∀ e ∈ s.entries, e.term ≤ s.hardState.term
  bound : s.snapshotBase.lastIncludedIndex + s.entries.length ≤ maxUint64
  commit_le : s.hardState.commitIndex ≤ s.snapshotBase.lastIncludedIndex + s.entries.length

lemma validateRecoveredState_ok {voters : VoterSet} (hb : s.snapshotBase.lastIncludedIndex ≤ maxUint64)
    (h : validateRecoveredStateWithSnapshotLimit s identity voters limit = .ok ()) :
    s.Valid identity voters limit := by
  simp only [validateRecoveredStateWithSnapshotLimit, ite_error_eq_ok] at h
  obtain ⟨h1, h2, h3, h4, h5, h6, h7, h⟩ := h
  push Not at h1 h2 h3 h4
  obtain ⟨hf, hi⟩ := h1
  rw [hi] at h2 h3
  have hbase := Iff.of_eq (not_not.mp h5)
  split at h
  · cases h
  next hsnap =>
  split at h
  · cases h
  next hents =>
  split at h
  · cases h
  next hcmt =>
  obtain ⟨hc, hv, hs, ht, hl, rfl⟩ := (checkRecoveredEntries_eq_ok _ _ hb).mp hents
  refine ⟨hf, hi, h2.1, h2.2, h3, ?_, hbase, by omega, by omega, by omega, ?_, hc, hv, hs, ht, hl,
    by omega⟩
  · by_cases h0 : s.hardState.votedFor = 0
    · exact .inl h0
    · exact .inr ⟨(h4 h0).1, (voters.contains_iff _).mp (h4 h0).2⟩
  intro snapshot hs'
  rw [hs'] at hsnap
  exact hsnap

lemma RecoveredState.Valid.validate {voters : VoterSet} (h : s.Valid identity voters limit) :
    validateRecoveredStateWithSnapshotLimit s identity voters limit = .ok () := by
  have hb := h.bound
  have hc := h.commit_le
  have h1 := h.applied_ge
  have h2 := h.applied_le
  unfold validateRecoveredStateWithSnapshotLimit
  rw [if_neg, if_neg, if_neg, if_neg, if_neg, if_neg, if_neg]
  · have hsnap : (s.snapshot.elim (.ok ()) fun snapshot =>
        validateStoredSnapshot snapshot s.snapshotBase identity limit) = .ok () := by
      cases hs : s.snapshot with
      | none => rfl
      | some snapshot => exact h.snapshot snapshot hs
    have hents := (checkRecoveredEntries_eq_ok s.hardState.term
      s.snapshotBase.lastIncludedTerm (by omega)).mpr
      ⟨h.contiguous, h.valid, h.sorted, h.term_le, h.bound, rfl⟩
    rw [hsnap]
    simp only
    rw [hents]
    simp only
    rw [if_neg (by omega)]
  · omega
  · exact not_lt.mpr h.base_term
  · exact not_not.mpr (propext h.base)
  · rintro ⟨hne, hor⟩
    rcases h.vote with h' | ⟨ht, hv⟩
    · exact hne h'
    rcases hor with h' | h'
    · exact ht h'
    · exact h' ((voters.contains_iff _).mpr hv)
  · rw [h.identity_eq]
    exact not_not.mpr h.voter
  · rw [h.identity_eq]
    rintro (h' | h')
    · exact h.cluster h'
    · exact h' h.fingerprint
  rintro (h' | h')
  · exact h' h.format
  · exact h' h.identity_eq

/-! ## Snapshots -/

/-- The envelope decodes to the snapshot itself. -/
def Snapshot.Sealed (snapshot : Snapshot) (identity : StorageIdentity) (limit : Nat) : Prop :=
  decodeSnapshotEnvelope snapshot.envelope identity limit = .ok snapshot

/-- What a snapshot that decoded is. -/
structure Snapshot.Decoded (snapshot : Snapshot) (limit : Nat) : Prop where
  index : snapshot.metadata.lastIncludedIndex ≠ 0
  term : snapshot.metadata.lastIncludedTerm ≠ 0
  schema : snapshot.metadata.stateMachineSchemaVersion ≠ 0
  length : snapshot.state.length ≤ limit
  checksum : snapshot.stateChecksum = Hash.sum256 snapshot.state

lemma decodeSnapshotEnvelope_eq_ok : decodeSnapshotEnvelope envelope identity limit = .ok snapshot ↔
      (envelope.magic = snapshotEnvelopeMagic ∧ envelope.formatVersion = 1 ∧
        envelope.clusterID = identity.clusterID ∧ envelope.voterFingerprint = identity.voterFingerprint) ∧
      validateSnapshotInputs identity envelope.metadata envelope.stateLength limit = .ok () ∧
      envelope.stateLength = envelope.state.length ∧
      Hash.sum256 envelope.zeroed.bytes = envelope.envelopeChecksum ∧
      Hash.sum256 envelope.state = envelope.stateChecksum ∧
      snapshot = ⟨envelope.metadata, (Hash.sum256 envelope.zeroed.bytes).take 16,
        Hash.sum256 envelope.state, envelope.state, envelope⟩ := by
  unfold decodeSnapshotEnvelope
  split
  · next h => simp [h]
  split
  · next h => simp [h]
  split
  · next h =>
    simp only [reduceCtorEq, false_iff]
    tauto
  next h1 h2 h3 =>
  push Not at h1 h2 h3
  split
  · next h => simp [h]
  next hin =>
  split
  · next h => simp [h]
  split
  · next h => simp [h]
  split
  · next h => simp [h]
  next h4 h5 h6 =>
  rw [not_not] at h4 h5 h6
  rw [ok.injEq]
  exact ⟨fun h => ⟨⟨h1, h2, h3⟩, hin, h4, h5, h6, h.symm⟩, fun h => h.2.2.2.2.2.symm⟩

lemma Snapshot.Sealed.decoded (h : snapshot.Sealed identity limit) : snapshot.Decoded limit := by
  obtain ⟨-, hin, hlen, -, -, heq⟩ := decodeSnapshotEnvelope_eq_ok.mp h
  obtain ⟨-, ⟨h1, h2, h3⟩, -, h4⟩ := validateSnapshotInputs_eq_ok.mp hin
  rw [heq]
  exact ⟨h1, h2, h3, hlen ▸ h4, rfl⟩

/-- A decoded snapshot is sealed. -/
lemma decodeSnapshotEnvelope_sealed (h : decodeSnapshotEnvelope envelope identity limit = .ok snapshot) :
    snapshot.Sealed identity limit := by
  have henv : snapshot.envelope = envelope := by rw [(decodeSnapshotEnvelope_eq_ok.mp h).2.2.2.2.2]
  rw [Snapshot.Sealed, henv]
  exact h

/-- A larger bound does not change what decodes. -/
lemma Snapshot.Sealed.mono {limit' : Nat} (h : snapshot.Sealed identity limit) (hle : limit ≤ limit')
    (hmax : limit' ≤ maxRaftSnapshotBytes) : snapshot.Sealed identity limit' := by
  obtain ⟨h1, hin, h2⟩ := decodeSnapshotEnvelope_eq_ok.mp h
  obtain ⟨a, b, c, d⟩ := validateSnapshotInputs_eq_ok.mp hin
  exact decodeSnapshotEnvelope_eq_ok.mpr
    ⟨h1, validateSnapshotInputs_eq_ok.mpr ⟨a, b, ⟨by omega, hmax⟩, by omega⟩, h2⟩

lemma newSnapshot_ok {state : Bytes} (h : newSnapshot identity metadata state limit = .ok snapshot) :
    snapshot.metadata = metadata ∧ snapshot.state = state ∧ snapshot.Sealed identity limit := by
  unfold newSnapshot at h
  split at h
  · cases h
  next hin =>
  simp only [ok.injEq] at h
  subst h
  refine ⟨rfl, rfl, decodeSnapshotEnvelope_eq_ok.mpr ⟨⟨rfl, rfl, rfl, rfl⟩, hin, rfl, ?_, rfl, ?_⟩⟩
  · rfl
  · rfl

lemma Snapshot.Sealed.validateStored (h : snapshot.Sealed identity limit) :
    validateStoredSnapshot snapshot snapshot.metadata identity limit = .ok () := by
  have hd := h.decoded
  rw [Snapshot.Sealed] at h
  unfold validateStoredSnapshot
  rw [if_neg (by simp [hd.index]), if_neg (not_lt.mpr hd.length), h]
  simp

/-! ## Operations of the store -/

variable {voters : VoterSet}

lemma applyValidated_ok (hb : batch.OfLog)
    (h : applyValidatedPersistenceBatch s batch identity voters = .ok p) :
    p = s.withBatch batch ∧ validateRecoveredState p identity voters = .ok () := by
  unfold applyValidatedPersistenceBatch at h
  split at h
  · cases h
  rw [show applySnapshotBase s batch batch.hardState = .ok (s, false) by
    unfold applySnapshotBase; rw [hb.base]] at h
  simp only at h
  split at h
  · cases h
  next replaced hr =>
  have hrep : replaced = { s with
      entries := if batch.replaceFrom = 0 then s.entries
        else s.entries.take (batch.replaceFrom - s.snapshotBase.lastIncludedIndex - 1) ++ batch.entries } := by
    unfold applyReplacement at hr
    by_cases h0 : batch.replaceFrom = 0
    · rw [if_pos h0, ok.injEq] at hr
      rw [if_pos h0, ← hr]
    rw [if_neg h0] at hr
    simp only at hr
    split at hr
    · cases hr
    split at hr
    · cases hr
    split at hr
    · cases hr
    split at hr
    · cases hr
    rw [ok.injEq] at hr
    rw [if_neg h0, ← hr]
  rw [hb.applied] at h
  simp only [Option.mem_def, reduceCtorEq, false_and, exists_false, if_false, Option.getD_none] at h
  split at h
  · cases h
  next hv =>
  rw [ok.injEq] at h
  rw [← h]
  refine ⟨?_, hv⟩
  rw [hrep]
  rfl

/-- When a log batch is accepted. -/
lemma applyValidated_log (hb : batch.OfLog)
    (hard : ∀ next, batch.hardState = some next → hardStateAdvances s.hardState next = true)
    (hlen : s.snapshotBase.lastIncludedIndex + s.entries.length ≤ maxUint64)
    (hrep : batch.replaceFrom ≠ 0 → s.snapshotBase.lastIncludedIndex < batch.replaceFrom ∧
      s.hardState.commitIndex < batch.replaceFrom ∧
      batch.replaceFrom ≤ s.snapshotBase.lastIncludedIndex + s.entries.length + 1 ∧
      batch.replaceFrom ≤ maxUint64 ∧ ∀ e, batch.entries.head? = some e → e.index = batch.replaceFrom)
    (hv : validateRecoveredState (s.withBatch batch) identity voters = .ok ()) :
    applyValidatedPersistenceBatch s batch identity voters = .ok (s.withBatch batch) := by
  unfold applyValidatedPersistenceBatch
  rw [if_neg (by rintro ⟨next, hn, hbad⟩; exact hbad (hard next hn))]
  rw [show applySnapshotBase s batch batch.hardState = .ok (s, false) by
    unfold applySnapshotBase; rw [hb.base]]
  simp only
  have hapl : applyReplacement s batch false = .ok { s with
      entries := if batch.replaceFrom = 0 then s.entries
        else s.entries.take (batch.replaceFrom - s.snapshotBase.lastIncludedIndex - 1) ++ batch.entries } := by
    unfold applyReplacement
    by_cases h0 : batch.replaceFrom = 0
    · rw [if_pos h0, if_pos h0]
    obtain ⟨h1, h2, h3, hmax, h4⟩ := hrep h0
    rw [if_neg h0]
    simp only [wrapAdd_eq hlen]
    rw [if_neg, if_neg, if_neg, if_neg, if_neg h0]
    · rintro ⟨e, he, hne⟩
      exact hne (h4 e he)
    · omega
    · omega
    rintro (h | ⟨h, -⟩)
    · omega
    · omega
  rw [hapl]
  simp only [hb.applied, Option.mem_def, reduceCtorEq, false_and, exists_false, if_false, Option.getD_none]
  simp only [RecoveredState.withBatch] at hv ⊢
  rw [hv]

lemma persist_ok (hb : batch.OfLog) (h : store.persist batch = .ok store') :
    store' = { store with state := store.state.withBatch batch } := by
  unfold persist at h
  split at h
  · cases h
  rw [if_neg (by simp [hb.snapshot])] at h
  split at h
  · cases h
  next p hp =>
  obtain ⟨rfl, -⟩ := applyValidated_ok hb hp
  rw [ok.injEq] at h
  exact h.symm

lemma persistSnapshot_ok (h : store.persistSnapshot snapshot = .ok store') : ∃ state,
      compactRecoveredState store.state snapshot store.identity store.voters store.snapshotLimit =
        .ok state ∧ store' = { store with state } := by
  unfold persistSnapshot at h
  split at h
  · cases h
  next p hp =>
  rw [ok.injEq] at h
  exact ⟨p, hp, h.symm⟩

/-- What compacting under a snapshot that is not older than the base does. -/
lemma compactRecoveredState_ok (hnew : s.snapshotBase.lastIncludedIndex < snapshot.metadata.lastIncludedIndex)
    (hseal : snapshot.Sealed identity limit)
    (h : compactRecoveredState s snapshot identity voters limit = .ok p) :
    recoveredTermAt s snapshot.metadata.lastIncludedIndex = .ok snapshot.metadata.lastIncludedTerm ∧
      snapshot.metadata.lastIncludedIndex - s.snapshotBase.lastIncludedIndex ≤ s.entries.length ∧
      p = { s with
        snapshotBase := snapshot.metadata
        snapshot := some snapshot
        entries := s.entries.drop
          (snapshot.metadata.lastIncludedIndex - s.snapshotBase.lastIncludedIndex)
        appliedIndex := max s.appliedIndex snapshot.metadata.lastIncludedIndex } ∧
      validateRecoveredStateWithSnapshotLimit p identity voters limit = .ok () := by
  unfold compactRecoveredState at h
  rw [Snapshot.Sealed] at hseal
  split at h
  · cases h
  rw [hseal] at h
  simp only [ne_eq, not_true_eq_false, or_self, if_false] at h
  rw [if_neg (by omega)] at h
  split at h
  · cases h
  split at h
  · cases h
  split at h
  · cases h
  next h1 h2 h3 =>
  split at h
  · cases h
  next hv =>
  rw [ok.injEq] at h
  subst h
  exact ⟨not_not.mp h2, by omega, rfl, hv⟩

/-- What installing a snapshot does: the suffix after it is kept where the log already has the
    snapshot's last entry, and dropped otherwise. -/
lemma installRecoveredSnapshot_ok (hlen : s.snapshotBase.lastIncludedIndex + s.entries.length ≤ maxUint64)
    (h : installRecoveredSnapshot s snapshot identity voters = .ok p) :
    s.hardState.commitIndex < snapshot.metadata.lastIncludedIndex ∧
      validateRecoveredState p identity voters = .ok () ∧
      ∃ retained, p = { s with
        snapshotBase := snapshot.metadata
        snapshot := some snapshot
        entries := retained
        hardState := { s.hardState with commitIndex := snapshot.metadata.lastIncludedIndex }
        appliedIndex := max s.appliedIndex snapshot.metadata.lastIncludedIndex } ∧
      ((recoveredTermAt s snapshot.metadata.lastIncludedIndex = .ok snapshot.metadata.lastIncludedTerm ∧
        snapshot.metadata.lastIncludedIndex ≤
          s.snapshotBase.lastIncludedIndex + s.entries.length ∧
        retained = s.entries.drop
          (snapshot.metadata.lastIncludedIndex - s.snapshotBase.lastIncludedIndex)) ∨
       (retained = [] ∧ (s.snapshotBase.lastIncludedIndex + s.entries.length <
            snapshot.metadata.lastIncludedIndex ∨
          ∃ t, recoveredTermAt s snapshot.metadata.lastIncludedIndex = .ok t ∧
            t ≠ snapshot.metadata.lastIncludedTerm))) := by
  unfold installRecoveredSnapshot at h
  simp only [wrapAdd_eq hlen] at h
  split at h
  · cases h
  next hcmt =>
  rw [if_neg (by omega)] at h
  split at h
  · cases h
  next retained hret =>
  split at h
  · cases h
  next hv =>
  rw [ok.injEq] at h
  subst h
  refine ⟨by omega, hv, retained, rfl, ?_⟩
  split at hret
  · next hle =>
    split at hret
    · cases hret
    next t ht =>
    split at hret
    · next heq =>
      rw [ok.injEq] at hret
      exact .inl ⟨by rw [ht, heq], hle, hret.symm⟩
    next hne =>
    rw [ok.injEq] at hret
    exact .inr ⟨hret.symm, .inr ⟨t, ht, hne⟩⟩
  next hgt =>
  rw [ok.injEq] at hret
  exact .inr ⟨hret.symm, .inl (by omega)⟩

/-- A transfer that was installed: bytes with the announced digest, sealed under the announced
    identity, put under the durable log. -/
structure Installed (store : MemoryStore) (request : InstallSnapshotRequest) (p : RecoveredState) : Prop where
  snapshot : ∃ snapshot, newSnapshot store.identity (snapshotTransferMetadataFor request).metadata
      snapshot.state store.snapshotLimit = .ok snapshot ∧
    Hash.sum256 snapshot.state = request.checksum ∧
    snapshot.id = request.snapshotID ∧
    installRecoveredSnapshot store.state snapshot store.identity store.voters = .ok p

/-- Staging a chunk touches nothing but the stage, until the last chunk installs the snapshot. -/
lemma stageSnapshotChunk_spec (request : InstallSnapshotRequest) (store : MemoryStore) :
    Ensures (stageSnapshotChunk request) store (fun result store' =>
        (result.state = none ∧ ∃ stage, store' = { store with stage }) ∨
        ∃ p, result.state = some p ∧ Installed store request p ∧
          store' = { store with state := p, stage := none })
      (fun _ store' => ∃ stage, store' = { store with stage }) := by
  unfold stageSnapshotChunk rejectStage
  simp only [ensures_bind, ensures_get, ensures_ite, ensures_modify, ensures_throw]
  refine ⟨fun _ => ⟨_, rfl⟩, fun _ => ⟨fun _ => ⟨_, rfl⟩, fun _ => ⟨fun _ => ⟨_, rfl⟩, fun _ => ?_⟩⟩⟩
  cases hb : stagedBytes
      (store.stage.getD ⟨snapshotTransferMetadataFor request, []⟩).bytes request with
  | none => exact ⟨_, rfl⟩
  | some bytes =>
    simp only [ensures_bind, ensures_modify, ensures_ite, ensures_pure, ensures_throw]
    refine ⟨fun _ => .inl ⟨trivial, _, rfl⟩, fun _ => ⟨fun _ => ⟨_, rfl⟩, fun hsum => ?_⟩⟩
    cases hs : newSnapshot store.identity (snapshotTransferMetadataFor request).metadata bytes
        store.snapshotLimit with
    | error e => exact ⟨_, rfl⟩
    | ok snapshot =>
      simp only [ensures_ite, ensures_bind, ensures_modify, ensures_throw]
      refine ⟨fun _ => ⟨_, rfl⟩, fun hid => ?_⟩
      cases hi : installRecoveredSnapshot store.state snapshot store.identity store.voters with
      | error => exact ⟨_, rfl⟩
      | ok p =>
        simp only [ensures_bind, ensures_modify, ensures_pure]
        have hstate := (newSnapshot_ok hs).2.1
        exact .inr ⟨p, rfl, ⟨snapshot, hstate ▸ hs, hstate ▸ not_not.mp hsum, not_not.mp hid, hi⟩, rfl⟩

end

end Crane.Raft
