import Crane.Raft.Node
import Crane.Raft.Output

/-!
# The durable state behind a batch

What a batch makes durable is the durable part of the core it came from: a batch that is an `Output`
over the durable state, applied to it, gives a valid one that again matches the core.
-/

namespace Crane.Raft

variable {d : RecoveredState}

/-! ## The parts of a batch as parts of the log -/

section

variable {snapshot : Option Snapshot} {before : Nat → Option Entry} {v w : View}

/-- The unstable entries are the end of the new log. -/
lemma Output.entries_suffix (h : Output snapshot before v w) :
    w.ready.entries = [] ∨ ∃ k, v.log.commitIndex - v.log.snapshotIndex ≤ k ∧
      k ≤ v.log.entries.length ∧ w.ready.entries ≠ [] ∧
      w.log.entries = v.log.entries.take k ++ w.ready.entries := by
  have he := h.entries
  generalize w.ready.entries = entries at he ⊢
  cases he with
  | same => exact .inl rfl
  | cut k _ hne haft hwithin eq => exact .inr ⟨k, haft, hwithin, hne, eq⟩

lemma Output.committed_range (h : Output snapshot before v w) (hv : v.Sound) :
    Contiguous v.log.commitIndex w.ready.committedEntries := by
  have hbase := hv.log.snapshotIndex_le_commit
  have hidxd := (h.sound.log.indexed.drop (v.log.commitIndex - v.log.snapshotIndex)).take
    (w.log.commitIndex - v.log.commitIndex)
  rw [h.base_index, show v.log.snapshotIndex + (v.log.commitIndex - v.log.snapshotIndex) =
    v.log.commitIndex by omega] at hidxd
  rw [h.committed]
  exact hidxd

/-! ## The durable state after the batch -/

/-- A durable state that is the durable part of a core. -/
structure Durable (d : RecoveredState) (v : View) : Prop where
  hardState : d.hardState = v.hardState
  base_index : d.snapshotBase.lastIncludedIndex = v.log.snapshotIndex
  base_term : d.snapshotBase.lastIncludedTerm = v.log.snapshotTerm
  entries : d.entries = v.log.entries

/-- A batch without effects changes nothing. -/
lemma RecoveredState.withBatch_idle (d : RecoveredState) {batch : PersistenceBatch}
    (h : ¬ persistenceBatchHasEffects batch = true) : d.withBatch batch = d := by
  simp only [persistenceBatchHasEffects, decide_eq_true_eq, not_or] at h
  have hhard : batch.hardState = none := by simpa using h.1
  have hfrom : batch.replaceFrom = 0 := by simpa using h.2.1
  simp [withBatch, hhard, hfrom]

/-- Writing the batch makes the new core durable. -/
lemma Output.durable (h : Output snapshot before v w) (hd : Durable d v) (token : Nat) :
    Durable (d.withBatch (persistenceBatchForReady { w.ready with token })) w := by
  refine ⟨?_, hd.base_index.trans h.base_index.symm, hd.base_term.trans h.base_term.symm, ?_⟩
  · simp only [RecoveredState.withBatch, persistenceBatchForReady, h.hard]
    split
    · next heq => rw [Option.getD_none, hd.hardState, heq]
    · rfl
  rcases h.entries_suffix with hnil | ⟨k, -, hk, hne, heq⟩
  · have he := h.entries
    rw [hnil] at he
    rw [RecoveredState.withBatch_keep d (by simp [persistenceBatchForReady, hnil]), hd.entries]
    cases he with
    | same eq => exact eq.symm
    | cut _ _ hne => exact absurd rfl hne
  obtain ⟨e, rest, hcons⟩ := List.exists_cons_of_ne_nil hne
  have hidxd := h.sound.log.indexed
  rw [heq, contiguous_append, List.length_take, Nat.min_eq_left hk, hcons, contiguous_cons] at hidxd
  have hidx := hidxd.2.1
  have hfrom : (persistenceBatchForReady { w.ready with token }).replaceFrom = e.index := by
    simp [persistenceBatchForReady, hcons]
  have hk' : e.index - v.log.snapshotIndex - 1 = k := by
    rw [hidx, h.base_index]
    omega
  rw [RecoveredState.withBatch_replace d (by omega), hfrom, hd.entries, hd.base_index, hk', heq]
  rfl

lemma Output.withBatch_valid [Hash] (h : Output snapshot before v w) (hd : Durable d v)
    {identity : StorageIdentity} (hv : d.Valid identity w.voters maxRaftSnapshotBytes) (token : Nat) :
    (d.withBatch (persistenceBatchForReady { w.ready with token })).Valid identity w.voters
      maxRaftSnapshotBytes := by
  obtain ⟨hhard, hbase, hterm, hents⟩ := h.durable hd token
  have hlog := h.sound.log
  have hlast := hlog.last
  have hcmt := hlog.commit_le
  have hbd := hlog.bound
  have hadv := (hardStateAdvances_iff.mp h.advances).2.1
  have hle : ∀ i t, w.log.term i = .ok t → t ≤ w.hardState.term :=
    fun i t ht => (hlog.term_le_lastTerm ht).trans h.sound.terms
  refine ⟨hv.format, hv.identity_eq, hv.cluster, hv.fingerprint, hv.voter, ?_, hv.base, ?_,
    hv.applied_ge, ?_, hv.snapshot, ?_, ?_, ?_, ?_, ?_, ?_⟩
  · rw [hhard]
    exact h.sound.vote
  · rw [hhard, hterm]
    exact hle _ _ (hlog.term_eq_ok.mpr (.inl ⟨rfl, rfl⟩))
  · rw [hhard]
    exact hv.applied_le.trans (by rw [hd.hardState]; exact hadv)
  · rw [hbase, hents]
    exact hlog.indexed
  · rw [hents]
    exact hlog.valid
  · rw [hterm, hents]
    exact hlog.sorted
  · rw [hents, hhard]
    exact fun e he => hle _ _ (hlog.term_entry (hlog.entry_of_mem he))
  · rw [hbase, hents]
    omega
  rw [hbase, hents, hhard, ← h.sound.commit]
  omega

lemma Durable.entryAt {v : View} (hd : Durable d v) (hl : v.log.Valid) {i : Nat} {e : Entry}
    (he : v.log.entry i = .ok e) : recoveredEntryAt d i = some e := by
  obtain ⟨hlt, hget⟩ := hl.entry_eq_ok.mp he
  rw [recoveredEntryAt, hd.base_index, hd.entries, if_neg (not_le.mpr hlt), hget]

lemma Durable.termAt {v : View} (hd : Durable d v) (hl : v.log.Valid) {i t : Nat}
    (ht : v.log.term i = .ok t) : recoveredTermAt d i = .ok t := by
  unfold recoveredTermAt
  split
  · next h0 => rw [(hl.term_zero_iff ht).mp h0]
  rw [hd.base_index, hd.base_term]
  rcases hl.term_eq_ok.mp ht with ⟨rfl, rfl⟩ | ⟨hlt, e, he, rfl⟩
  · rw [if_pos rfl]
  · rw [if_neg (by omega), hd.entryAt hl (hl.entry_eq_ok.mpr ⟨hlt, he⟩)]

end

end Crane.Raft
