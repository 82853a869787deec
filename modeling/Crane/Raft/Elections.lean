import Crane.Raft.Following

/-!
# Elections

Pre-votes, votes and the start of a leadership. A pre-vote changes no durable state on either
side; a real election and a granted vote change the hard state before any message about it
leaves; a candidate that has a majority becomes leader and appends its first entry in one event.
-/

namespace Crane.Raft

open Program Ready

namespace Core

variable {snapshot : Option Snapshot} {c : Core}

/-! ## Opening an election -/

section

variable (h : c.Settled snapshot)

include h

lemma startPreVote_spec (hr : c.role ≠ .leader) (now sample : Nat) : Ensures (startPreVote now sample) c
      (fun _ c' => Handled snapshot c.pendingProposals none c c') (fun _ c' => c' = c) := by
  have hrdy := h.ready
  unfold startPreVote
  simp only [ensures_bind, ensures_get]
  rw [ensures_ite]
  refine ⟨fun _ => rfl, fun _ => ?_⟩
  simp only [ensures_bind, ensures_lift]
  refine ⟨fun deadline _ => ?_, fun _ _ => trivial⟩
  rw [ensures_set]
  have hout := broadcast_output (c := { c with
      now
      electionDeadline := deadline
      deadlineExhausted := false
      role := .preCandidate
      leaderID := 0
      recentLeader := false
      preVotes := {c.localID}
      votes := ∅ }) h.start c.peers (.preVoteRequest ⟨c.localID, c.hardState.term, c.hardState.term + 1,
      c.log.lastIndex, c.log.lastTerm⟩) .nothing (fun id hid => hid) fun id _ => ⟨rfl, rfl⟩
  simp only [peers] at hout ⊢
  rw [broadcast_eq] at hout ⊢
  refine ⟨hout, ?_, h.terminal, h.done, .stay rfl rfl (.inr (.inr rfl)), ?_, ?_, ?_, ?_, ?_, ?_⟩
  · refine ⟨h.roles.limits, by simp, by simp, fun id pr hp => ?_, fun id t ht => ?_,
      fun i hi => ?_⟩
    · exact absurd hp (by simp [h.roles.progress_none hr id])
    · exact absurd ht (by simp [h.roles.outgoing_none hr id])
    obtain ⟨-, a2, a3, a4, a5⟩ := h.roles.incoming i hi
    exact ⟨.inr rfl, a2, a3, a4, a5⟩
  · simp
  · exact fun id => .inl le_rfl
  · simp [hrdy, empty, RPC.fromLeader]
  · simp [hrdy, empty]
  · simp [hrdy, empty]
  · exact fun i hi => .inl hi

lemma startElection_spec (hr : c.role = .preCandidate) (rpc : Option RPC) (sample : Nat)
    : Ensures (startElection sample) c
      (fun _ c' => Handled snapshot c.pendingProposals rpc c c') (fun _ c' => c' = c) := by
  have hrdy := h.ready
  have hne : c.role ≠ .leader := by simp [hr]
  unfold startElection
  simp only [ensures_bind, ensures_get]
  rw [ensures_ite]
  refine ⟨fun _ => rfl, fun _ => ?_⟩
  simp only [ensures_bind, ensures_lift]
  refine ⟨fun deadline _ => ?_, fun _ _ => trivial⟩
  rw [ensures_set]
  have hcancel := cancelIncomingSnapshot_output h.start (by rw [hrdy]; rfl) h.abortable
  rw [cancelIncomingSnapshot_eq] at hcancel ⊢
  have hhard := hcancel.harden ⟨c.hardState.term + 1, c.localID, c.hardState.commitIndex⟩
    (by simp [view, hrdy, empty])
    (hardStateAdvances_iff.mpr ⟨by simp [view], le_rfl, by simp [view]⟩)
    (fun heq => by simpa [view] using congrArg HardState.term heq) rfl (by simp [view])
    (.inr ⟨by simp, h.idle.sound.voter⟩)
  have hout := broadcast_output (c := { c with
      incomingSnapshot := none
      pendingReady := { c.pendingReady with
        snapshotActions := c.pendingReady.snapshotActions ++ c.aborts
        hardState := some ⟨c.hardState.term + 1, c.localID, c.hardState.commitIndex⟩ }
      hasPending := true
      hardState := ⟨c.hardState.term + 1, c.localID, c.hardState.commitIndex⟩
      role := .candidate
      leaderID := 0
      recentLeader := false
      electionDeadline := deadline
      deadlineExhausted := false
      preVotes := ∅
      votes := {c.localID} }) hhard c.peers
    (.requestVoteRequest ⟨c.localID, c.hardState.term + 1, c.log.lastIndex, c.log.lastTerm⟩)
    ⟨true, 0⟩ (fun id hid => hid) fun id _ => ⟨rfl, rfl, rfl, rfl, rfl, by simp [view], rfl⟩
  simp only [peers, recordHardState] at hout ⊢
  rw [broadcast_eq] at hout ⊢
  refine ⟨hout, ?_, h.terminal, h.done, .stand rfl rfl rfl rfl rfl, ?_, ?_, ?_, ?_, ?_, ?_⟩
  · refine .quiet h.roles.limits ?_ (by simp) (funext (h.roles.progress_none hne))
      (funext (h.roles.outgoing_none hne)) (by simp)
    have hvtr : c.localID ∈ c.voters.voters := h.idle.sound.voter
    simpa using hvtr
  · simp [hr]
  · exact fun id => .inl le_rfl
  · simp [hrdy, empty, RPC.fromLeader]
  · simp [hrdy, empty]
  · simp only [hrdy, empty, List.nil_append]
    exact fun a ha => .inl (mem_aborts ha)
  · simp

/-! ## Pre-votes and votes -/

lemma handlePreVoteRequest_handled {request : PreVoteRequest} (hid : request.candidateID ∈ c.peers)
    (rpc : Option RPC) : Handled snapshot c.pendingProposals rpc c (c.handlePreVoteRequest request) := by
  unfold handlePreVoteRequest
  exact (h.still rpc rfl rfl rfl rfl).reply hid ⟨rfl, rfl⟩ rfl (by simp)

lemma handlePreVoteResponse_spec (response : PreVoteResponse) (rpc : Option RPC) (sample : Nat)
    : Ensures (handlePreVoteResponse response sample) c
      (fun _ c' => Handled snapshot c.pendingProposals rpc c c') (fun _ c' => c' = c) := by
  unfold handlePreVoteResponse
  simp only [ensures_bind, ensures_get]
  rw [ensures_ite]
  refine ⟨fun _ => h.still rpc rfl rfl rfl rfl, fun hgood => ?_⟩
  push Not at hgood
  rw [ensures_ite]
  refine ⟨fun _ => h.still rpc rfl rfl rfl rfl, fun _ => ?_⟩
  rw [ensures_ite]
  exact ⟨fun _ => h.still rpc rfl rfl rfl rfl, fun _ => startElection_spec h hgood.1 rpc sample⟩

end

/-- A free vote is given to a candidate whose log is good enough. `c1` is the voter in the request's
    term, `c` what it was when the request arrived. -/
lemma castVote_handled {request : RequestVoteRequest} {c1 : Core} (hy : Yields snapshot request.term c c1)
    (hh : Handled snapshot c.pendingProposals (some (.requestVoteRequest request)) c c1)
    (hle : c.hardState.term ≤ request.term) (hzero : request.term ≠ 0)
    (hid : request.candidateID ∈ c.peers) (hfree : c1.hardState.votedFor = 0)
    (hfrs : c.candidateLogIsUpToDate request.lastLogIndex request.lastLogTerm = true)
    (hrole : c1.role = if c.hardState.term < request.term then .follower else c.role) :
    Handled snapshot c.pendingProposals (some (.requestVoteRequest request)) c
      ({ c1 with
        hardState := { c1.hardState with votedFor := request.candidateID } }.recordHardState) := by
  have hhard := hy.hard
  have hvtr := (c.voters.mem_peers.mp hid).1
  have hne0 : request.candidateID ≠ 0 := c.voters.nonzero _ hvtr
  have hterm := hy.term_eq hle
  have hcmt : c1.hardState.commitIndex = c.hardState.commitIndex := by
    rw [hhard]
    split <;> rfl
  have hsame : c.hardState.term = request.term → c.hardState.votedFor = 0 := by
    intro heq
    rwa [hhard, if_neg (by omega)] at hfree
  have hout := hh.output.harden
    ⟨c1.hardState.term, request.candidateID, c1.hardState.commitIndex⟩ hy.messages
    (hardStateAdvances_iff.mpr ⟨?_, ?_, ?_⟩) ?_ rfl le_rfl (.inr ⟨by simpa [hterm], ?_⟩)
  · refine ⟨hout, hh.roles.congr rfl, hh.terminal, hh.done,
      .vote request rfl hterm hle hsame rfl hfrs hy.log hrole, hh.votes, hh.matched, ?_, ?_,
      hh.actions, hh.staged⟩
    · exact hh.leads
    intro m hm
    have hnil : m ∈ c1.pendingReady.messages := hm
    rw [hy.messages] at hnil
    cases hnil
  · change c.hardState.term ≤ c1.hardState.term
    rw [hterm]
    exact hle
  · change c.hardState.commitIndex ≤ c1.hardState.commitIndex
    rw [hcmt]
  · intro heq
    exact .inl (hsame (heq.symm.trans hterm))
  · intro heq
    obtain ⟨h1, h2, -⟩ := HardState.mk.inj heq
    exact hne0 (h2.trans (hsame (h1.symm.trans hterm)))
  change request.candidateID ∈ c1.voters.voters
  rw [hy.voters]
  exact hvtr

lemma handleVoteRequest_handled (h : c.Settled snapshot) {request : RequestVoteRequest}
    (hzero : request.term ≠ 0) (hid : request.candidateID ∈ c.peers) :
    Handled snapshot c.pendingProposals (some (.requestVoteRequest request)) c
      (c.handleVoteRequest request) := by
  have hne0 : request.candidateID ≠ 0 := c.voters.nonzero _ (c.voters.mem_peers.mp hid).1
  unfold handleVoteRequest
  split
  · exact (h.still _ rfl rfl rfl rfl).reply hid ⟨rfl, rfl, by simp, by simp [view]⟩ rfl (by simp)
  next hle =>
  simp only [decide_eq_true_eq]
  generalize hc1 : (if c.hardState.term < request.term then c.adoptHigherTerm request.term
    else c) = c1
  have hjoin : Yields snapshot request.term c c1 ∧
      Handled snapshot c.pendingProposals (some (.requestVoteRequest request)) c c1 ∧
      c1.role = if c.hardState.term < request.term then .follower else c.role := by
    rw [← hc1]
    split
    · next hlt =>
      have hd := adoptHigherTerm_demotes h hlt
      exact ⟨hd.toYields, hd.handled h _, hd.role⟩
    · exact ⟨h.yields (by omega), h.still _ rfl rfl rfl rfl, rfl⟩
  obtain ⟨hy, hh, hrole⟩ := hjoin
  have hhard := hy.hard
  have hterm := hy.term_eq (not_lt.mp hle)
  have hfrs : c1.candidateLogIsUpToDate request.lastLogIndex request.lastLogTerm =
      c.candidateLogIsUpToDate request.lastLogIndex request.lastLogTerm := by
    unfold candidateLogIsUpToDate
    rw [hy.log]
  rw [hfrs]
  split
  · next hgrant =>
    have hcast := castVote_handled hy hh (by omega) hzero hid hgrant.2 hgrant.1.2 hrole
    refine hcast.reply hid ⟨rfl, rfl, fun _ => ⟨hterm.symm, rfl⟩, ?_⟩ rfl (by simp)
    -- The vote is new: the term is, or the vote of this term was free.
    have : c.hardState.term < c1.hardState.term ∨ c.hardState.votedFor ≠ request.candidateID := by
      rcases (show c.hardState.term ≤ c1.hardState.term by omega).eq_or_lt with heq | hlt
      · right
        have hfree := hgrant.2
        rw [hhard, if_neg (by omega)] at hfree
        rw [hfree]
        exact hne0.symm
      · exact .inl hlt
    simp only [view, recordHardState, true_and, decide_eq_true this]
  next hnot =>
  refine hh.reply hid ⟨rfl, rfl, fun hg => ⟨hterm.symm, ?_⟩, ?_⟩ rfl (by simp)
  · have hg := of_decide_eq_true hg
    rcases hg.1 with h0 | h0
    · exact absurd ⟨hg, h0⟩ hnot
    · exact h0
  -- A vote that was already given is not new.
  have hold : (c1.hardState.votedFor = 0 ∨ c1.hardState.votedFor = request.candidateID) ∧
      c.candidateLogIsUpToDate request.lastLogIndex request.lastLogTerm = true →
      ¬ c.hardState.term < request.term →
      c.hardState.votedFor = request.candidateID := by
    intro hg hlt
    rw [hhard, if_neg hlt] at hg hnot
    rcases hg.1 with h0 | h0
    · exact absurd ⟨hg, h0⟩ hnot
    · exact h0
  simp only [view, hterm, DurabilityPrerequisite.mk.injEq, and_true, decide_eq_true_eq, decide_eq_decide]
  constructor
  · exact .inl
  rintro (hlt | ⟨hg, hv⟩)
  · exact hlt
  by_contra hlt
  exact hv (hold hg hlt)

/-! ## Becoming a leader -/

lemma becomeLeader_spec (h : c.Settled snapshot) (hr : c.role = .candidate) {voter : Nat}
    (hvtr : voter ∈ c.voters.voters) (hnew : voter ∉ c.votes)
    (hquo : c.voters.majority ≤ c.votes.card + 1) {rpc : Option RPC}
    (hcnts : CountsVote rpc c voter) : Ensures (becomeLeader voter) c
      (fun _ c' => Handled snapshot c.pendingProposals rpc c c') (fun _ c' => c' = c) := by
  have hlog : c.log.Valid := h.idle.sound.log
  have hrdy := h.ready
  unfold becomeLeader
  simp only [ensures_bind, ensures_get]
  cases hn : checkedNextIndex c.log.lastIndex with
  | none => exact rfl
  | some =>
  obtain ⟨hmax, rfl⟩ := checkedNextIndex_eq_some.mp hn
  simp only
  cases hn' : checkedNextIndex (c.log.lastIndex + 1) with
  | none => exact rfl
  | some =>
  obtain ⟨hmax', rfl⟩ := checkedNextIndex_eq_some.mp hn'
  simp only [ensures_bind, ensures_lift]
  refine ⟨fun entry hent => ?_, fun _ _ => trivial⟩
  obtain ⟨rfl, hval⟩ := newEntry_eq_ok hent
  have hbd := hlog.bound
  rw [hlog.append_end (e := ⟨c.log.lastIndex + 1, c.hardState.term, .noOp, []⟩) rfl hval
    (by omega)]
  simp only [ensures_bind, ensures_set]
  generalize he : (⟨c.log.lastIndex + 1, c.hardState.term, .noOp, []⟩ : Entry) = e at hval ⊢
  have hidx : e.index = c.log.lastIndex + 1 := by rw [← he]
  have hown : e.term = c.hardState.term := by rw [← he]
  have hne : c.role ≠ .leader := by simp [hr]
  generalize hc1 : Core.queueEntries _ [e] = c1
  have hlead : Leads snapshot c.pendingProposals c.view c1 := by
    subst hc1
    refine ⟨h.snoc_output hidx hval (by omega) hown h.idle.sound.proposal, h.idle.sound, ?_, rfl,
      rfl, rfl, ?_, ?_⟩
    · refine ⟨h.roles.limits, ?_, fun _ => ⟨?_, ?_⟩, fun id pr hp => ⟨rfl, ?_⟩, fun id t ht => ?_,
        fun i hi => ?_⟩
      · simp only [queueEntries, Finset.mem_insert, forall_eq_or_imp]
        exact ⟨hvtr, h.roles.votes⟩
      · have := hval.term_pos
        simp only [queueEntries]
        omega
      · simp only [queueEntries, Log.snoc]
        omega
      · simp only [queueEntries, put] at hp
        split at hp
        · rw [← Option.some.inj hp]
          exact ⟨by simp [queueEntries, Log.snoc], by simp [queueEntries, Log.snoc],
            by simp [Progress.zero], by simp [Progress.zero]⟩
        · cases hp
      · exact absurd ht (by simp [queueEntries, h.roles.outgoing_none hne id])
      have := (h.roles.incoming i hi).role
      rw [hr] at this
      simp at this
    · simp [queueEntries, Log.snoc, hrdy, empty, view]
    intro id pr hid hp
    have hid : id ≠ c.localID := (c.voters.mem_peers.mp hid).2
    simp [queueEntries, put, hid] at hp
  have hpeers : c1.peers = c.peers := by
    rw [← hc1]
    rfl
  have hnone : ∀ id ∈ c1.peers, c1.progress id = none := by
    intro id hid
    rw [hpeers] at hid
    have hid : id ≠ c.localID := (c.voters.mem_peers.mp hid).2
    rw [← hc1]
    simp [queueEntries, put, hid]
  have hloop := each_startReplication_spec hlead hnone (c.log.lastIndex + 1) le_rfl
  rw [hpeers] at hloop
  refine hloop.mono (fun _ c' hc => ?_) fun _ _ hf => hf.elim
  obtain ⟨hl, hsends⟩ := hc
  have hfrm := hsends.frame
  refine hl.handled ?_ ?_ (.elect e ?_ hr ?_ ?_ hown ?_) (fun _ => ?_) (fun id => ?_)
    (fun m hm => ?_) ?_
  · rw [hfrm, ← hc1]
    exact h.terminal
  · rw [hfrm, ← hc1]
    exact h.done
  · rw [hfrm, ← hc1]
    rfl
  · rw [hfrm, ← hc1]
    rfl
  · rw [hfrm, ← hc1]
    simpa [queueEntries, Finset.card_insert_of_notMem hnew] using hquo
  · rw [hfrm, ← hc1]
    rfl
  · rw [hfrm, ← hc1]
    simp only [queueEntries, Finset.mem_insert, forall_eq_or_imp]
    exact ⟨.inr hcnts, fun v hv => .inl hv⟩
  · by_cases hid : id = c.localID
    · exact .inr (.inr (.inr hid))
    left
    rw [hsends.matched id, ← hc1]
    simp [queueEntries, progressOf, put, hid, Progress.zero]
  · rcases hsends.messages m hm with hm | hm
    · rw [← hc1] at hm
      simp [queueEntries, hrdy, empty] at hm
    · exact hm
  rw [hfrm, ← hc1]
  simp [queueEntries, hrdy, empty]

lemma handleVoteResponse_spec (h : c.Settled snapshot) {response : RequestVoteResponse}
    (hvtr : response.responderID ∈ c.voters.voters) : Ensures (handleVoteResponse response) c
      (fun _ c' => Handled snapshot c.pendingProposals (some (.requestVoteResponse response)) c c')
      (fun _ c' => c' = c) := by
  unfold handleVoteResponse
  simp only [ensures_bind, ensures_get]
  rw [ensures_ite]
  refine ⟨fun _ => h.still _ rfl rfl rfl rfl, fun hmine => ?_⟩
  push Not at hmine
  obtain ⟨hcand, hrole, hreq⟩ := hmine
  rw [ensures_ite]
  refine ⟨fun hlt => (adoptHigherTerm_demotes h hlt).handled h _, fun _ => ?_⟩
  rw [ensures_ite]
  refine ⟨fun _ => h.still _ rfl rfl rfl rfl, fun hgood => ?_⟩
  push Not at hgood
  have hcnts : CountsVote (some (.requestVoteResponse response)) c response.responderID :=
    ⟨response, rfl, rfl, hcand, hreq, hgood.1, by simpa using hgood.2⟩
  rw [ensures_ite]
  refine ⟨fun _ => h.still _ rfl rfl rfl rfl, fun hnew => ?_⟩
  rw [ensures_ite]
  refine ⟨fun _ => ?_, fun hq => becomeLeader_spec h hrole hvtr hnew (by omega) hcnts⟩
  -- One more vote, and not a majority yet.
  rw [ensures_set]
  have hrdy := h.ready
  refine ⟨h.start, ?_, h.terminal, h.done, .stay rfl rfl (.inl rfl), ?_, fun _ => .inl le_rfl,
    by simp [hrdy, empty], by simp [hrdy, empty], by simp [hrdy, empty],
    fun i hi => .inl hi⟩
  · refine ⟨h.roles.limits, ?_, h.roles.leading, h.roles.progress, fun id t ht => ?_, fun i hi => ?_⟩
    · simp only [Finset.mem_insert, forall_eq_or_imp]
      exact ⟨hvtr, h.roles.votes⟩
    · exact (h.roles.outgoing id t ht).congr
    · exact (h.roles.incoming i hi).congr
  simp only [Finset.mem_insert, forall_eq_or_imp]
  exact fun _ _ => ⟨.inr hcnts, fun v hv => .inl hv⟩

end Core

end Crane.Raft
