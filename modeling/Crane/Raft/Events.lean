import Crane.Raft.Transfers

/-!
# The inputs of a core

Every input of a settled core is accounted for by `Handled`: `tick`, `step` and `proposeTracked`.
An input that is refused leaves the core as it was, except for the one error that stops the
owner in the middle of a handler.
-/

namespace Crane.Raft

open Program

namespace Core

variable {snapshot : Option Snapshot} {c : Core}

/-! ## Ticks -/

section

variable (h : c.Settled snapshot)

include h

lemma tickLeader_spec (hr : c.role = .leader) (now sample : Nat) : Ensures (tickLeader now sample) c
      (fun _ c' => Handled snapshot c.pendingProposals none c c')
      (fun e _ => e = .replicationGenerationOverflow) := by
  unfold tickLeader
  simp only [ensures_bind, ensures_get]
  rw [ensures_ite]
  refine ⟨fun _ => (stepDownWithoutTermChange_demotes h now sample).handled h none, fun _ => ?_⟩
  rw [ensures_ite]
  refine ⟨fun _ => rfl, fun _ => ?_⟩
  simp only [ensures_bind, ensures_set]
  generalize hc1 : (if now ≥ c.quorumDeadline then ({ c with
      now := now
      quorumResponses := ∅
      quorumDeadline := saturatingTickAdd now c.electionTimeoutMin } : Core)
    else { c with now := now }) = c1
  have htunes : Tunes c c1 ∧ c1.volatile = c.volatile := by
    rw [← hc1]
    split <;> exact ⟨⟨rfl, rfl, rfl, rfl, rfl⟩, rfl⟩
  obtain ⟨htunes, hvol⟩ := htunes
  have hlead := (h.leads hr).congr htunes.view hvol
  rw [ensures_ite]
  refine ⟨fun _ => h.still none htunes.view hvol htunes.terminal htunes.done, fun _ => ?_⟩
  simp only [ensures_bind, ensures_modify]
  refine (each_replicateTo_spec hlead).mono (fun _ c' hc' => ?_) fun _ _ he => he
  have hprog : c1.progress = c.progress := congrArg Volatile.progress hvol
  have hmvd : Handled snapshot c.pendingProposals none c c' :=
    hc'.1.moved h hr htunes (fun id => .inl (by simp [progressOf, hprog])) (.inl rfl) hc'.2
  exact hmvd.congr rfl rfl rfl rfl

lemma tick_spec (now sample : Nat) : Ensures (tick now sample) c
      (fun _ c' => Handled snapshot c.pendingProposals none c c')
      (fun e c' => e = .replicationGenerationOverflow ∨ c' = c) := by
  unfold tick
  rw [ensures_bind]
  refine (requireIdle_spec h).mono (fun _ c0 hc0 => ?_) fun _ _ hf => hf
  subst hc0
  simp only [ensures_bind, ensures_get]
  rw [ensures_ite]
  refine ⟨fun _ => .inr rfl, fun _ => ?_⟩
  rw [ensures_ite]
  refine ⟨fun hr => (tickLeader_spec h hr now sample).mono (fun _ _ hc => hc) fun _ _ he => .inl he,
    fun hr => ?_⟩
  rw [ensures_ite]
  exact ⟨fun _ => h.still none rfl rfl rfl rfl, fun _ =>
    (startPreVote_spec h hr now sample).mono (fun _ _ hc => hc) fun _ _ he => .inr he⟩

/-! ## Proposals -/

lemma proposeTracked_spec (kind : EntryKind) (command : Bytes) : Ensures (proposeTracked kind command) c
      (fun p c' => Handled snapshot (put c.pendingProposals p.1 p.2) none c c') (fun _ c' => c' = c) := by
  have hlog : c.log.Valid := h.idle.sound.log
  unfold proposeTracked
  rw [ensures_bind]
  refine (requireIdle_spec h).mono (fun _ c0 hc0 => ?_) fun _ _ hf => hf
  subst hc0
  simp only [ensures_bind, ensures_get]
  rw [ensures_ite]
  refine ⟨fun _ => rfl, fun hr => ?_⟩
  rw [not_not] at hr
  rw [ensures_ite]
  refine ⟨fun _ => rfl, fun _ => ?_⟩
  rw [ensures_ite]
  refine ⟨fun _ => rfl, fun _ => ?_⟩
  rw [ensures_ite]
  refine ⟨fun _ => rfl, fun _ => ?_⟩
  rw [ensures_ite]
  refine ⟨fun _ => rfl, fun hgen => ?_⟩
  cases hn : checkedNextIndex c0.log.lastIndex with
  | none => exact rfl
  | some =>
  obtain ⟨hmax, rfl⟩ := checkedNextIndex_eq_some.mp hn
  simp only
  cases hn' : checkedNextIndex (c0.log.lastIndex + 1) with
  | none => exact rfl
  | some =>
  obtain ⟨hmax', rfl⟩ := checkedNextIndex_eq_some.mp hn'
  simp only [ensures_bind, ensures_lift]
  refine ⟨fun entry hent => ?_, fun _ _ => trivial⟩
  obtain ⟨rfl, hval⟩ := newEntry_eq_ok hent
  have hbd := hlog.bound
  rw [hlog.append_end (e := ⟨c0.log.lastIndex + 1, c0.hardState.term, kind, command⟩) rfl hval
    (by omega)]
  simp only [ensures_bind, ensures_set, ensures_pure]
  generalize he : (⟨c0.log.lastIndex + 1, c0.hardState.term, kind, command⟩ : Entry) = e
    at hval ⊢
  have hidx : e.index = c0.log.lastIndex + 1 := by rw [← he]
  have hown : e.term = c0.hardState.term := by rw [← he]
  generalize hc1 : Core.queueEntries _ [e] = c1
  have hpeers : c1.peers = c0.peers := by
    rw [← hc1]
    rfl
  have hprog : ∀ id, id ≠ c0.localID → c1.progress id = c0.progress id := by
    intro id hid
    rw [← hc1]
    simp [queueEntries, put, hid]
  have hlead : Leads snapshot (put c0.pendingProposals (c0.nextProposalID + 1) e) c0.view c1 := by
    subst hc1
    refine ⟨?_, h.idle.sound, ⟨h.roles.limits, h.roles.votes, fun _ => ⟨(h.roles.leading hr).1, ?_⟩, ?_, ?_,
      fun i hi => (h.roles.incoming i hi).congr⟩, hr, rfl, rfl, ?_, ?_⟩
    · have hzero : c0.pendingProposals 0 = none := h.idle.sound.proposal
      exact h.snoc_output hidx hval (by omega) hown (by simpa [put] using hzero)
    · simp only [queueEntries, Log.snoc]
      omega
    · intro id pr hp
      refine ⟨hr, ?_⟩
      simp only [queueEntries, put] at hp
      split at hp
      · rw [← Option.some.inj hp]
        exact ⟨by simp [queueEntries, Log.snoc], by simp [queueEntries, Log.snoc],
          by simp [Progress.zero], by simp [Progress.zero]⟩
      · exact ((h.roles.progress id pr hp).2).mono (by simp [queueEntries, Log.snoc])
    · intro id t ht
      obtain ⟨a1, a2, a3, a4, a5, a6, a7, pr, a8, a9⟩ := h.roles.outgoing id t ht
      have hp := hprog id (c0.voters.mem_peers.mp a2).2
      exact ⟨a1, a2, a3, a4, a5, a6, a7, pr, hp.trans a8, a9⟩
    · simp [queueEntries, Log.snoc, h.ready, Ready.empty, view]
    intro id pr hid hp
    rw [hprog id (c0.voters.mem_peers.mp hid).2] at hp
    have hfit := (h.roles.progress id pr hp).2
    exact ⟨hfit.matched, hfit.next⟩
  have hloop := each_issueAppend_spec hlead fun id hid => by
    rw [hpeers] at hid
    have hleft : ∀ id ∈ c0.peers, (c0.progressOf id).generation ≠ maxUint64 := by
      simpa [generationsLeft] using hgen
    rw [progressOf, hprog id (c0.voters.mem_peers.mp hid).2]
    exact hleft id hid
  rw [hpeers] at hloop
  refine hloop.mono (fun _ c' hc' => ?_) fun _ _ hf => hf.elim
  obtain ⟨hl, hsends⟩ := hc'
  have hfrm := hsends.frame
  refine hl.handled ?_ ?_ (.propose e ?_ hr hl.leader hown ?_) (by simp [hr]) (fun id => ?_)
    (fun m hm => ?_) ?_
  · rw [hfrm, ← hc1]
    exact h.terminal
  · rw [hfrm, ← hc1]
    exact h.done
  · rw [hfrm, ← hc1]
    rfl
  · rw [hfrm, ← hc1]
    rfl
  · by_cases hid : id = c0.localID
    · exact .inr (.inr (.inr hid))
    left
    rw [hsends.matched id, progressOf, hprog id hid]
    rfl
  · rcases hsends.messages m hm with hm | hm
    · rw [← hc1] at hm
      simp [queueEntries, h.ready, Ready.empty] at hm
    · exact hm
  rw [hfrm, ← hc1]
  simp [queueEntries, h.ready, Ready.empty]

/-! ## Messages -/

/-- A message of a peer that passes the codec's checks is handled; one that does not is refused
    before it changes anything. -/
lemma step_spec (senderID : Nat) (rpc : RPC) (sample : Nat) : Ensures (step senderID rpc sample) c
      (fun _ c' => senderID ≠ c.localID → Handled snapshot c.pendingProposals (some rpc) c c')
      (fun e c' => e = .replicationGenerationOverflow ∨ c' = c) := by
  unfold step
  rw [ensures_bind]
  refine (requireIdle_spec h).mono (fun _ c0 hc0 => ?_) fun _ _ hf => hf
  subst hc0
  simp only [ensures_bind, ensures_get, ensures_lift]
  refine ⟨fun _ hsender => ?_, fun _ _ => .inr trivial⟩
  obtain ⟨hvtr, hactor⟩ := validateRPCSender_eq_ok hsender
  rw [← hactor] at hvtr
  have hpeer : senderID ≠ c0.localID → rpc.actorID.1 ∈ c0.peers := by
    rw [← hactor]
    exact mem_peers hvtr
  have hstill : Handled snapshot c0.pendingProposals (some rpc) c0 c0 := h.still _ rfl rfl rfl rfl
  cases rpc with
  | appendEntriesRequest =>
    simp only [ensures_bind, ensures_lift]
    refine ⟨fun out hout => ?_, fun _ _ => .inr trivial⟩
    refine (handleAppendRequest_spec h (fun hprev => ?_) sample).mono
      (fun _ _ hc hne => hc (hpeer hne)) fun _ _ he => .inr he
    exact (encodeAppendRequest_eq_ok hprev hout).2
  | preVoteRequest =>
    simp only [ensures_bind, ensures_lift]
    refine ⟨fun _ _ hne => handlePreVoteRequest_handled h (hpeer hne) _, fun _ _ => .inr trivial⟩
  | preVoteResponse response =>
    simp only [ensures_bind, ensures_lift]
    refine ⟨fun _ _ => ?_, fun _ _ => .inr trivial⟩
    exact (handlePreVoteResponse_spec h response _ sample).mono (fun _ _ hc _ => hc)
      fun _ _ he => .inr he
  | requestVoteRequest =>
    simp only [ensures_bind, ensures_lift]
    refine ⟨fun _ hv hne => ?_, fun _ _ => .inr trivial⟩
    refine handleVoteRequest_handled h (fun h0 => ?_) (hpeer hne)
    simp [validateRPC, h0] at hv
  | requestVoteResponse =>
    simp only [ensures_bind, ensures_lift]
    refine ⟨fun _ _ => ?_, fun _ _ => .inr trivial⟩
    exact (handleVoteResponse_spec h hvtr).mono (fun _ _ hc _ => hc)
      fun _ _ he => .inr he
  | installSnapshotRequest =>
    simp only [ensures_bind, ensures_lift]
    refine ⟨fun _ hv hne => ?_, fun _ _ => .inr trivial⟩
    exact handleInstallSnapshotRequest_handled h
      (validateSnapshotRequest_eq_ok maxRaftSnapshotBytes hv) (hpeer hne) sample
  | appendEntriesResponse =>
    simp only [ensures_bind, ensures_lift]
    refine ⟨fun _ hv => ?_, fun _ _ => .inr trivial⟩
    refine (handleAppendResponse_spec h (fun h0 => ?_) hvtr).mono (fun _ _ hc _ => hc)
      fun _ _ he => .inr he
    simp [validateRPC, validateAppendResponse, h0] at hv
  | installSnapshotResponse response =>
    simp only [ensures_bind, ensures_lift]
    exact ⟨fun _ _ => (handleInstallSnapshotResponse_spec h response).mono (fun _ _ hc _ => hc)
      fun _ _ he => he, fun _ _ => .inr trivial⟩
  | handshake | handshakeAck | errorResponse =>
    simp only [ensures_bind, ensures_lift]
    exact ⟨fun _ _ _ => hstill, fun _ _ => .inr trivial⟩

end

end Core

end Crane.Raft
