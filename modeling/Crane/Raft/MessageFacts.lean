import Crane.Raft.LogFacts
import Crane.Raft.Messages

/-!
# What accepted messages look like

The checks of the codec as propositions. An append request is `WellFormed` when its entries
continue the position before them in order; what `EncodeRPC` refuses beyond that is only ever a
matter of size.
-/

namespace Crane.Raft

open Program List

variable {requestTerm expected previousTerm maximum : Nat} {limits : CodecLimits} {entries : List Entry}
variable {m : AppendEntriesRequest} {err : RaftError} {payload : Bytes} {fields : List Bytes}

/-! ## Append requests -/

/-- The parts of an append request's validation that are not about size. -/
structure AppendEntriesRequest.WellFormed (m : AppendEntriesRequest) : Prop where
  leader : m.leaderID ≠ 0
  term : m.term ≠ 0
  generation : m.generation ≠ 0
  prev : m.prevLogIndex = 0 ↔ m.prevLogTerm = 0
  prev_le : m.prevLogTerm ≤ m.term
  contiguous : Contiguous m.prevLogIndex m.entries
  valid : ∀ e ∈ m.entries, e.Valid
  sorted : (m.prevLogTerm :: m.entries.map (·.term)).Pairwise (· ≤ ·)
  term_le : ∀ e ∈ m.entries, e.term ≤ m.term
  bound : m.entries ≠ [] → m.prevLogIndex + m.entries.length ≤ maxUint64

/-- The loop over the entries accepts only a continuation of the position before them. -/
lemma validateAppendEntries_eq_ok
    (h : validateAppendEntries requestTerm limits expected previousTerm entries = .ok ()) :
    Contiguous expected entries ∧ (∀ e ∈ entries, e.Valid) ∧
      (previousTerm :: entries.map (·.term)).Pairwise (· ≤ ·) ∧ (∀ e ∈ entries, e.term ≤ requestTerm) ∧
      ∀ i < entries.length, expected + i ≠ maxUint64 := by
  induction entries generalizing expected previousTerm with
  | nil => simp [Contiguous.nil]
  | cons e _ ih =>
    rw [validateAppendEntries, ite_error_eq_ok, ite_error_eq_ok, ite_error_eq_ok, ite_error_eq_ok] at h
    obtain ⟨h1, h2, -, h4, h⟩ := h
    obtain ⟨hc, hv, hs, ht, hb⟩ := ih h
    push Not at h2
    obtain ⟨hidx, hpos, hle, hterm, hoth⟩ := h2
    have hkind : e.kind = .command ∨ (e.kind = .noOp ∧ e.command = []) := by
      by_cases hk : e.kind = .command
      · exact .inl hk
      refine .inr ⟨hoth hk, ?_⟩
      by_contra hne
      exact h4 ⟨hoth hk, by simpa using hne⟩
    refine ⟨contiguous_cons.mpr ⟨hidx, hc⟩, forall_mem_cons.mpr ⟨⟨by omega, by omega, hkind⟩, hv⟩,
      Log.pairwise_le_cons_cons.mpr ⟨hle, hs⟩, forall_mem_cons.mpr ⟨hterm, ht⟩, fun i hi => ?_⟩
    cases i with
    | zero => simpa using h1
    | succ j =>
      have := hb j (by simpa using hi)
      omega

lemma validateAppendRequest_eq_ok (hprev : m.prevLogIndex ≤ maxUint64)
    (h : validateAppendRequest m limits = .ok ()) : m.WellFormed := by
  rw [validateAppendRequest, ite_error_eq_ok, ite_error_eq_ok] at h
  obtain ⟨h1, -, h⟩ := h
  obtain ⟨hc, hv, hs, hterm, hb⟩ := validateAppendEntries_eq_ok h
  push Not at h1
  obtain ⟨hl, ht, hg, hp, hle⟩ := h1
  have hp : m.prevLogIndex = 0 ↔ m.prevLogTerm = 0 := by simpa [validLogPosition] using hp
  refine ⟨hl, ht, hg, hp, hle, hc, hv, hs, hterm, fun hne => ?_⟩
  by_contra hgt
  exact hb (maxUint64 - m.prevLogIndex) (by omega) (by omega)

lemma validateAppendEntries_error (hc : Contiguous expected entries) (hv : ∀ e ∈ entries, e.Valid)
    (hs : (previousTerm :: entries.map (·.term)).Pairwise (· ≤ ·))
    (ht : ∀ e ∈ entries, e.term ≤ requestTerm) (hb : entries ≠ [] → expected + entries.length ≤ maxUint64)
    (he : validateAppendEntries requestTerm limits expected previousTerm entries = .error err) :
    err = .rpcTooLarge := by
  induction entries generalizing expected previousTerm with
  | nil => exact absurd he (by simp [validateAppendEntries])
  | cons e _ ih =>
    obtain ⟨hidx, hrest⟩ := contiguous_cons.mp hc
    have hve := hv e (by simp)
    have hpos := hve.term_pos
    have hsle : previousTerm ≤ e.term := (Log.pairwise_le_cons_cons.mp hs).1
    have htle := ht e (by simp)
    have hbe := hb (by simp)
    simp only [length_cons] at hbe
    have hgood : ¬ (e.index ≠ expected + 1 ∨ e.term = 0 ∨ e.term < previousTerm ∨
        e.term > requestTerm ∨ (e.kind ≠ .command ∧ e.kind ≠ .noOp)) := by
      have hkind : ¬ (e.kind ≠ .command ∧ e.kind ≠ .noOp) := by rcases hve.kind with hk | hk <;> simp [hk]
      rintro (h | h | h | h | h)
      · exact h hidx
      · omega
      · omega
      · omega
      · exact hkind h
    have hempty : ¬ (e.kind = .noOp ∧ e.command.length ≠ 0) := by rcases hve.kind with hk | hk <;> simp [hk]
    rw [validateAppendEntries, if_neg (by omega), if_neg hgood, if_neg hempty] at he
    split at he
    · simpa using he.symm
    exact ih hrest (fun x hx => hv x (by simp [hx])) (Log.pairwise_le_cons_cons.mp hs).2
      (fun x hx => ht x (by simp [hx])) (fun _ => by omega) he

/-- A well-formed request is only ever refused for its size. -/
lemma AppendEntriesRequest.WellFormed.validate_error (h : m.WellFormed)
    (he : validateAppendRequest m limits = .error err) : err = .rpcTooLarge := by
  unfold validateAppendRequest at he
  rw [if_neg] at he
  · split at he
    · simpa using he.symm
    · exact validateAppendEntries_error h.contiguous h.valid h.sorted h.term_le h.bound he
  rintro (h' | h' | h' | h' | h')
  · exact h.leader h'
  · exact h.term h'
  · exact h.generation h'
  · exact h' (by simp [validLogPosition, h.prev])
  · exact absurd h.prev_le (by omega)

/-! ## Sizes -/

@[simp] lemma bigEndian_length (width value : Nat) : (bigEndian width value).length = width := by
  induction width generalizing value with
  | zero => rfl
  | succ _ ih => simp [bigEndian, ih]

lemma encodeFields_error (h : encodeFields maximum payload fields = .error err) : err = .rpcTooLarge := by
  induction fields generalizing payload with
  | nil => exact absurd h (by simp [encodeFields])
  | cons _ _ ih =>
    rw [encodeFields, addBytes] at h
    split at h
    · next h' =>
      split at h'
      · simp only [Except.error.injEq] at h h'
        rw [← h, ← h']
      · cases h'
    · exact ih h

/-- Limits that resolve: zeroes are filled in, and nothing passes the absolute maxima. -/
structure CodecLimits.Resolved (limits : CodecLimits) : Prop where
  command : limits.withDefaults.maxCommandBytes ≤ maxRaftCommandBytes
  encoded : limits.withDefaults.maxEncodedBytes ≤ maxRPCPayloadBytes
  resolve : resolveCodecLimits limits = .ok limits.withDefaults

lemma resolveCodecLimits_ok {resolved : CodecLimits} (h : resolveCodecLimits limits = .ok resolved) :
    limits.Resolved ∧ resolved = limits.withDefaults := by
  have h' := h
  unfold resolveCodecLimits at h'
  simp only at h'
  split at h'
  · cases h'
  split at h'
  · cases h'
  split at h'
  · cases h'
  split at h'
  · cases h'
  next h1 _ _ h4 =>
  rw [Except.ok.injEq] at h'
  rw [← h'] at h ⊢
  exact ⟨⟨not_lt.mp h1, not_lt.mp h4, h⟩, rfl⟩

/-- Only valid append requests are encoded. -/
lemma encodeAppendRequest_eq_ok (hprev : m.prevLogIndex ≤ maxUint64) {out : Bytes}
    (h : encodeAppendRequest m limits = .ok out) : limits.Resolved ∧ m.WellFormed := by
  unfold encodeAppendRequest at h
  split at h
  · cases h
  next hr =>
  obtain ⟨hres, rfl⟩ := resolveCodecLimits_ok hr
  split at h
  · cases h
  next hv => exact ⟨hres, validateAppendRequest_eq_ok hprev hv⟩

/-- Encoding a well-formed request under limits that resolve fails only for its size. -/
lemma AppendEntriesRequest.WellFormed.encode_error (h : m.WellFormed) (hl : limits.Resolved)
    (he : encodeAppendRequest m limits = .error err) : err = .rpcTooLarge := by
  unfold encodeAppendRequest at he
  rw [hl.resolve] at he
  simp only at he
  split at he
  · next h' =>
    rw [Except.error.injEq] at he
    exact he ▸ h.validate_error h'
  · exact encodeFields_error he

/-! ## Senders and snapshot requests -/

lemma validateRPCSender_eq_ok {rpc : RPC} {senderID : Nat} {voters : VoterSet}
    (h : validateRPCSender rpc senderID voters = .ok ()) :
    senderID ∈ voters.voters ∧ rpc.actorID.1 = senderID := by
  simp only [validateRPCSender, ite_error_eq_ok, ne_eq, not_not] at h
  obtain ⟨h1, -, h3, -⟩ := h
  exact ⟨(voters.contains_iff _).mp h1, h3⟩

/-- What a valid snapshot request is. -/
structure InstallSnapshotRequest.Valid (m : InstallSnapshotRequest) (maximumBytes : Nat) : Prop where
  leader : m.leaderID ≠ 0
  term : m.term ≠ 0
  transfer : m.transferID ≠ zeroTransferID
  snapshot : m.snapshotID ≠ zeroSnapshotID
  checksum : m.checksum ≠ zeroChecksum
  index : m.lastIncludedIndex ≠ 0
  indexTerm : m.lastIncludedTerm ≠ 0
  indexTerm_le : m.lastIncludedTerm ≤ m.term
  schema : m.stateMachineSchemaVersion ≠ 0
  total : m.totalLength ≤ maximumBytes
  chunk : m.chunk.length ≤ maxRaftSnapshotChunkBytes
  stop : m.offset + m.chunk.length ≤ m.totalLength
  done : m.done = true ↔ m.offset + m.chunk.length = m.totalLength
  nonempty : m.totalLength = 0 ∨ m.chunk ≠ []

lemma validateSnapshotRequest_eq_ok {m : InstallSnapshotRequest} (maximumBytes : Nat)
    (h : validateSnapshotRequest m { defaultCodecLimits with maxSnapshotBytes := maximumBytes }
      = .ok ()) : m.Valid maximumBytes := by
  simp only [validateSnapshotRequest, ite_error_eq_ok] at h
  obtain ⟨h1, h2, h3, h4, h5, h6, h7, -⟩ := h
  push Not at h1 h2 h5 h7
  obtain ⟨a1, a2, a3, a4, a5⟩ := h1
  obtain ⟨b1, b2, b3, b4⟩ := h2
  refine ⟨a1, a2, a3, a4, a5, b1, b2, b3, b4, not_lt.mp h3, not_lt.mp h4, by omega, ?_, ?_⟩
  · rw [not_not] at h6
    rw [h6, decide_eq_true_eq]
  by_cases h0 : m.totalLength = 0
  · exact .inl h0
  · exact .inr fun hnil => h7 h0 (by simp [hnil])

end Crane.Raft
