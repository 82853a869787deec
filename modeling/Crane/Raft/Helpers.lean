import Crane.Raft.Output

/-!
# The helpers of the core

What the methods that several handlers share do to a core: which fields they touch, and what
they put there. Handlers use these equations and never a helper's body.
-/

namespace Crane.Raft

open Program List

variable {c' : Core} {failed failed' : List FailedProposal}

namespace Core

/-! ## Cancelling a transfer -/

/-- The action that gives up the transfer in progress, if there is one. -/
def aborts (c : Core) : List SnapshotAction :=
  c.incomingSnapshot.elim [] fun incoming => [⟨.abort, incoming.request, false⟩]

lemma cancelIncomingSnapshot_eq (c : Core) : c.cancelIncomingSnapshot = { c with
    incomingSnapshot := none
    pendingReady := { c.pendingReady with snapshotActions := c.pendingReady.snapshotActions ++ c.aborts }
    hasPending := c.hasPending || c.incomingSnapshot.isSome } := by
  unfold cancelIncomingSnapshot aborts
  cases h : c.incomingSnapshot with
  | none =>
    simp only [Option.elim_none, append_nil, Option.isSome_none, Bool.or_false]
    rw [← h]
  | some => simp [queueSnapshotAction]

/-! ## Failing proposals -/

/-- `c'` is `c` after the proposals `failed` were reported. -/
structure Fails (c : Core) (failed : List FailedProposal) (c' : Core) : Prop where
  frame : c' = { c with
    pendingReady := { c.pendingReady with failedProposals := c.pendingReady.failedProposals ++ failed }
    pendingProposals := c'.pendingProposals
    pendingProposalOrder := c'.pendingProposalOrder
    proposalAtIndex := c'.proposalAtIndex
    hasPending := c'.hasPending }
  resolves : Resolves c.pendingProposals c'.pendingProposals [] failed
  pending : c'.hasPending = (c.hasPending || !failed.isEmpty)

lemma Fails.refl (c : Core) : Fails c [] c := by
  refine ⟨?_, .refl _, by simp⟩
  simp

lemma Fails.trans {c c'' : Core} (h : Fails c failed c') (h' : Fails c' failed' c'') :
    Fails c (failed ++ failed') c'' := by
  refine ⟨?_, by simpa using h.resolves.trans h'.resolves, ?_⟩
  · rw [h'.frame, h.frame]
    simp
  rw [h'.pending, h.pending]
  cases failed <;> simp

lemma failProposal_fails (reason : RaftError) (c : Core) (id : Nat) :
    ∃ failed, Fails c failed (failProposal reason c id) := by
  unfold failProposal
  cases h : c.pendingProposals id with
  | none => exact ⟨[], .refl c⟩
  | some proposal =>
    refine ⟨[⟨id, proposal, reason⟩], ⟨rfl, ⟨by simp, by simpa using h, by simp, ?_⟩, by simp⟩⟩
    intro k
    simp only [erase, map_nil, map_cons, nil_append, mem_singleton]

lemma failPendingProposals_fails (c : Core) (reason : RaftError) :
    ∃ failed, Fails c failed (c.failPendingProposals reason) := by
  have hfold : ∀ (ids : List Nat) (c : Core), ∃ failed, Fails c failed (ids.foldl (failProposal reason) c) := by
    intro ids
    induction ids with
    | nil => exact fun c => ⟨[], .refl c⟩
    | cons id _ ih =>
      intro c
      obtain ⟨failed, h⟩ := failProposal_fails reason c id
      obtain ⟨failed', h'⟩ := ih (failProposal reason c id)
      exact ⟨failed ++ failed', h.trans h'⟩
  obtain ⟨failed, h⟩ := hfold c.pendingProposalOrder c
  refine ⟨failed, ?_, h.resolves, h.pending⟩
  unfold failPendingProposals
  rw [h.frame]

/-! ## Handing out committed entries -/

/-- `c'` is `c` after `entries` were queued as committed. -/
structure Commits (c : Core) (entries : List Entry) (committed : List CommittedProposal)
    (failed : List FailedProposal) (c' : Core) : Prop where
  frame : c' = { c with
    pendingReady := { c.pendingReady with
      committedEntries := c.pendingReady.committedEntries ++ entries
      committedProposals := c.pendingReady.committedProposals ++ committed
      failedProposals := c.pendingReady.failedProposals ++ failed }
    pendingProposals := c'.pendingProposals
    pendingProposalOrder := c'.pendingProposalOrder
    proposalAtIndex := c'.proposalAtIndex
    hasPending := c'.hasPending }
  resolves : Resolves c.pendingProposals c'.pendingProposals committed failed
  reported : ∀ p ∈ committed, p.entry ∈ entries
  pending : c'.hasPending = (c.hasPending || !entries.isEmpty)

lemma Commits.refl (c : Core) : Commits c [] [] [] c := by
  refine ⟨?_, .refl _, by simp, by simp⟩
  simp

lemma Commits.trans {c c'' : Core} {entries entries' : List Entry}
    {committed committed' : List CommittedProposal} (h : Commits c entries committed failed c')
    (h' : Commits c' entries' committed' failed' c'') :
    Commits c (entries ++ entries') (committed ++ committed') (failed ++ failed') c'' := by
  refine ⟨?_, h.resolves.trans h'.resolves, ?_, ?_⟩
  · rw [h'.frame, h.frame]
    simp
  · intro p hp
    rcases mem_append.mp hp with hp | hp
    · exact mem_append_left _ (h.reported p hp)
    · exact mem_append_right _ (h'.reported p hp)
  rw [h'.pending, h.pending]
  cases entries <;> simp

/-- One committed entry: it is queued, and the proposal waiting at its index is resolved. -/
lemma resolveCommittedProposal_commits (c : Core) (entry : Entry) : ∃ committed failed,
    Commits c [entry] committed failed
      { ({ c with
          pendingReady := { c.pendingReady with
            committedEntries := c.pendingReady.committedEntries ++ [entry] } } :
          Core).resolveCommittedProposal entry with hasPending := true } := by
  unfold resolveCommittedProposal
  simp only
  cases ha : c.proposalAtIndex entry.index with
  | none => exact ⟨[], [], ⟨by simp, .refl _, by simp, by simp⟩⟩
  | some id =>
    simp only
    cases hp : c.pendingProposals id with
    | none => exact ⟨[], [], ⟨by simp, .refl _, by simp, by simp⟩⟩
    | some proposal =>
      simp only
      by_cases heq : proposal = entry
      · refine ⟨[⟨id, proposal⟩], [], ⟨by simp [heq], ⟨?_, by simp, by simp, ?_⟩, ?_, by simp⟩⟩
        · simpa using hp
        · intro k
          simp [erase]
        · simp [heq]
      refine ⟨[], [⟨id, proposal, .proposalFailed⟩],
        ⟨by simp [heq], ⟨by simp, ?_, by simp, ?_⟩, by simp, by simp⟩⟩
      · simpa using hp
      intro k
      simp [erase]

lemma queueCommittedFrom_spec (count index : Nat) (c : Core) (hv : c.log.Valid)
    (hlo : c.log.snapshotIndex < index) (hhi : index + count ≤ c.log.lastIndex + 1) :
    Ensures (queueCommittedFrom count index) c (fun _ c' => ∃ committed failed, Commits c
        ((c.log.entries.drop (index - c.log.snapshotIndex - 1)).take count) committed failed c')
      (fun _ _ => False) := by
  induction count generalizing index c with
  | zero =>
    rw [queueCommittedFrom, ensures_pure, take_zero]
    exact ⟨[], [], .refl c⟩
  | succ count ih =>
    obtain ⟨e, he⟩ := hv.exists_entry hlo (by omega)
    have hlast := hv.last
    have hbd := hv.bound
    have hget := (hv.entry_eq_ok.mp he).2
    obtain ⟨committed, failed, hone⟩ := resolveCommittedProposal_commits c e
    have hseg : (c.log.entries.drop (index - c.log.snapshotIndex - 1)).take (count + 1) =
        e :: (c.log.entries.drop (index - c.log.snapshotIndex)).take count := by
      obtain ⟨hlt, hget⟩ := List.getElem?_eq_some_iff.mp hget
      rw [drop_eq_getElem_cons hlt, hget, take_succ_cons]
      congr 3
      omega
    rw [queueCommittedFrom]
    simp only [ensures_bind, ensures_get, ensures_lift, ensures_modify]
    refine ⟨fun e' he' => ?_, fun err herr => by rw [he] at herr; cases herr⟩
    rw [he, Except.ok.injEq] at he'
    subst he'
    rw [ensures_ite]
    refine ⟨fun hmax => ?_, fun _ => ?_⟩
    · have h0 : count = 0 := by omega
      subst h0
      rw [ensures_pure, hseg, take_zero]
      exact ⟨committed, failed, hone⟩
    generalize hc1 : ({ ({ c with
        pendingReady := { c.pendingReady with
          committedEntries := c.pendingReady.committedEntries ++ [e] } } :
        Core).resolveCommittedProposal e with hasPending := true } : Core) = c1 at hone ⊢
    have hlog : c1.log = c.log := by rw [hone.frame]
    refine (ih (index + 1) c1 (hlog ▸ hv) (by rw [hlog]; omega) (by rw [hlog]; omega)).mono
      (fun _ c' h => ?_) fun _ _ h => h
    obtain ⟨committed', failed', hrest⟩ := h
    rw [hlog, show index + 1 - c.log.snapshotIndex - 1 = index - c.log.snapshotIndex by omega]
      at hrest
    rw [hseg]
    exact ⟨_, _, hone.trans hrest⟩

lemma queueCommittedEntries_spec (c : Core) (hv : c.log.Valid) {previous commit : Nat}
    (hlo : c.log.snapshotIndex ≤ previous) (hlt : previous < commit) (hhi : commit ≤ c.log.lastIndex) :
    Ensures (queueCommittedEntries previous commit) c (fun _ c' => ∃ committed failed, Commits c
        ((c.log.entries.drop (previous - c.log.snapshotIndex)).take (commit - previous)) committed failed c')
      (fun _ _ => False) := by
  have hbd := hv.bound
  unfold queueCommittedEntries
  rw [checkedNextIndex_eq_some.mpr ⟨by omega, rfl⟩]
  have hcnt : commit + 1 - (previous + 1) = commit - previous := by omega
  have hskip : previous + 1 - c.log.snapshotIndex - 1 = previous - c.log.snapshotIndex := by omega
  have h := queueCommittedFrom_spec (commit - previous) (previous + 1) c hv (by omega) (by omega)
  rw [hskip] at h
  simp only [hcnt]
  exact h

/-! ## Moving the commit index -/

/-- The core with its commit index at `k`, and the hard state recorded. -/
def committedAt (c : Core) (k : Nat) : Core :=
  ({ c with
    log := { c.log with commitIndex := k }
    hardState := { c.hardState with commitIndex := k } } : Core).recordHardState

/-- `c'` is `c` after the commit index moved to `k` and the entries up to it were handed out. -/
structure CommitsTo (k : Nat) (c c' : Core) : Prop where
  frame : c' = { c with
    log := { c.log with commitIndex := k }
    hardState := { c.hardState with commitIndex := k }
    pendingReady := c'.pendingReady
    pendingProposals := c'.pendingProposals
    pendingProposalOrder := c'.pendingProposalOrder
    proposalAtIndex := c'.proposalAtIndex
    hasPending := true }
  entries : c'.pendingReady.entries = c.pendingReady.entries
  messages : c'.pendingReady.messages = c.pendingReady.messages
  actions : c'.pendingReady.snapshotActions = c.pendingReady.snapshotActions

lemma queueCommittedEntries_output {snapshot : Option Snapshot} {before : Nat → Option Entry}
    {v : View} {c : Core} (h : Output snapshot before v c.view)
    (hmsg : c.pendingReady.messages = []) (hsame : c.log.commitIndex = v.log.commitIndex) {k : Nat}
    (hlt : c.log.commitIndex < k) (hle : k ≤ c.log.lastIndex) :
    Ensures (queueCommittedEntries c.log.commitIndex k) (c.committedAt k)
      (fun _ c' => Output snapshot before v c'.view ∧ CommitsTo k c c') (fun _ _ => False) := by
  have hlog : c.log.Valid := h.sound.log
  refine (queueCommittedEntries_spec (c.committedAt k) (hlog.setCommit hlt.le hle)
    hlog.snapshotIndex_le_commit hlt hle).mono (fun _ c' hcom => ?_) fun _ _ hf => hf
  obtain ⟨committed, failed, hcom⟩ := hcom
  have hpend : c'.hasPending = true := by
    rw [hcom.pending]
    rfl
  have hout := h.commit hmsg hlt hle hsame hcom.resolves rfl hcom.reported
  have hfrm := hcom.frame
  refine ⟨?_, ?_, ?_, ?_, ?_⟩
  · have hview : c'.view = { c'.view with hasPending := true } := by simp only [view, hpend]
    rw [hview]
    rw [hfrm] at hout ⊢
    exact hout
  · rw [← hpend, hfrm]
    rfl
  · rw [hfrm]
    rfl
  · rw [hfrm]
    rfl
  rw [hfrm]
  rfl

/-! ## The helpers and the batch -/

section Batch

variable {snapshot : Option Snapshot} {before : Nat → Option Entry} {v : View} {c : Core}

lemma Fails.output (hf : Fails c failed c') (h : Output snapshot before v c.view) :
    Output snapshot before v c'.view := by
  have hout := h.fail hf.resolves c'.hasPending fun hfalse => by
    have hp := hf.pending
    rw [hfalse, eq_comm, Bool.or_eq_false_iff] at hp
    exact ⟨hp.1, by simpa using hp.2⟩
  have hview : c'.view = { c.view with
      ready := { c.view.ready with failedProposals := c.view.ready.failedProposals ++ failed }
      hasPending := c'.hasPending
      proposals := c'.pendingProposals } := by
    rw [hf.frame]
    rfl
  rw [hview]
  exact hout

lemma cancelIncomingSnapshot_output (h : Output snapshot before v c.view)
    (hnone : c.pendingReady.snapshotActions = []) (hval : ∀ i, c.incomingSnapshot = some i →
      i.request.leaderID ∈ v.voters.peers v.localID ∧ i.request.Valid maxRaftSnapshotBytes) :
    Output snapshot before v c.cancelIncomingSnapshot.view := by
  unfold cancelIncomingSnapshot
  cases hi : c.incomingSnapshot with
  | none => exact h
  | some i =>
    obtain ⟨hl, hv⟩ := hval i hi
    exact h.action (a := ⟨.abort, i.request, false⟩) hnone hl hv

/-- Send one message to several peers. -/
lemma broadcast_eq (c : Core) (ids : List Nat) (rpc : RPC) (requires : DurabilityPrerequisite) :
    ids.foldl (fun c id => c.queueMessage id rpc requires) c = { c with
      pendingReady := { c.pendingReady with
        messages := c.pendingReady.messages ++ ids.map fun id => ⟨id, rpc, requires⟩ }
      hasPending := c.hasPending || !ids.isEmpty } := by
  induction ids generalizing c with
  | nil => simp
  | cons _ _ ih =>
    rw [foldl_cons, ih]
    simp [queueMessage]

lemma broadcast_output (h : Output snapshot before v c.view) (ids : List Nat) (rpc : RPC)
    (requires : DurabilityPrerequisite) (hids : ∀ id ∈ ids, id ∈ v.voters.peers v.localID)
    (hsaid : ∀ id ∈ ids, Says snapshot v c.view ⟨id, rpc, requires⟩) :
    Output snapshot before v (ids.foldl (fun c id => c.queueMessage id rpc requires) c).view := by
  induction ids generalizing c with
  | nil => exact h
  | cons id _ ih =>
    rw [foldl_cons]
    refine ih (h.message (m := ⟨id, rpc, requires⟩) (hids id (by simp)) (hsaid id (by simp)))
      (fun k hk => hids k (by simp [hk])) fun k hk => ?_
    exact (hsaid k (by simp [hk])).congr rfl rfl rfl rfl

end Batch

end Core

end Crane.Raft
