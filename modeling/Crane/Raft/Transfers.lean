import Crane.Raft.Appends

/-!
# Snapshot transfers

The receiver's side never touches the log: a chunk becomes at most one action of the batch, about
the request that was just accepted or about the transfer that it ends. The sender's side moves a
peer's record to the snapshot's index when the peer reports that it has everything.
-/

namespace Crane.Raft

open Program Option

variable {request : InstallSnapshotRequest} {c0 : Core} {t : OutgoingSnapshotProgress}

namespace Core

variable {snapshot : Option Snapshot} {c : Core}

/-! ## The receiver's side -/

/-- Contact with the leader of the transfer in progress leaves the transfer alone. -/
lemma handleLeaderContact_kept (h : c.Settled snapshot) (leaderID : Nat) {term : Nat} (sample : Nat)
    (hle : c.hardState.term ≤ term)
    (hsame : ∀ i, c.incomingSnapshot = some i → i.metadata.term = term ∧ i.metadata.leaderID = leaderID) :
    (c.handleLeaderContact leaderID term sample).pendingReady.snapshotActions = [] ∧
      (c.handleLeaderContact leaderID term sample).incomingSnapshot = c.incomingSnapshot := by
  have hrdy := h.ready
  have hforeign : c.cancelForeignSnapshot leaderID term = c := by
    unfold cancelForeignSnapshot
    cases hi : c.incomingSnapshot with
    | none => rfl
    | some i =>
      have := hsame i hi
      simp [this.1, this.2]
  unfold handleLeaderContact
  rw [if_neg (by omega), hforeign]
  unfold yieldTo
  split
  · next hlt =>
    -- A transfer in progress is of the current term, so a later term finds none.
    have hnone : c.incomingSnapshot = none := by
      cases hi : c.incomingSnapshot with
      | none => rfl
      | some i =>
        have hrec := h.roles.incoming i hi
        have hterm := (hsame i hi).1
        rw [hrec.metadata] at hterm
        have : i.request.term = term := hterm
        rw [hrec.term] at this
        omega
    rcases (adoptHigherTerm_demotes h hlt).incoming with ⟨h1, h2, -⟩ | ⟨h1, h2⟩
    · exact ⟨h2, h1⟩
    refine ⟨?_, h1.trans hnone.symm⟩
    simp only [h2]
    simp [aborts, hnone]
  split
  · obtain ⟨failed, hf⟩ := failPendingProposals_fails c .proposalFailed
    rw [hf.frame, hrdy]
    exact ⟨rfl, rfl⟩
  rw [hrdy]
  exact ⟨rfl, rfl⟩

/-- A chunk became an action, and the transfer it belongs to goes on or does not. -/
lemma Demotes.action (hd : Demotes snapshot request.term c c0) (h : c.Settled snapshot)
    (hle : c.hardState.term ≤ request.term) (hv : request.Valid maxRaftSnapshotBytes)
    (hid : request.leaderID ∈ c.peers) (hnil : c0.pendingReady.snapshotActions = [])
    (incoming : Option IncomingSnapshotProgress)
    (hinc : ∀ i, incoming = some i → c0.incomingSnapshot = some i ∨
      (i.metadata = snapshotTransferMetadataFor request ∧ i.request = request))
    (hkept : c0.incomingSnapshot = c.incomingSnapshot) (kind : SnapshotActionKind) (reset : Bool) :
    Handled snapshot c.pendingProposals (some (.installSnapshotRequest request)) c
      ({ c0 with incomingSnapshot := incoming }.queueSnapshotAction ⟨kind, request, reset⟩) := by
  have hold := hd.handled h (some (.installSnapshotRequest request))
  have hterm := hd.term_eq hle
  have hpeers : c0.peers = c.peers := by
    unfold peers
    rw [hd.voters, hd.localID]
  refine ⟨hold.output.action (a := ⟨kind, request, reset⟩) hnil hid hv, ?_, hold.terminal, hold.done,
    hold.move.congr rfl rfl rfl rfl rfl, hold.votes, hold.matched, hold.leads, ?_, ?_, ?_⟩
  · refine .quiet hold.roles.limits hold.roles.votes ?_ hd.progress hd.outgoing fun i hi => ?_
    · simp [queueSnapshotAction, hd.role]
    rcases hinc i hi with hi | ⟨hmeta, hreq⟩
    · exact (hold.roles.incoming i hi).congr
    refine ⟨.inl hd.role, by rw [hmeta, hreq], by rw [hreq]; exact hterm.symm, ?_, by rwa [hreq]⟩
    rw [hreq]
    change request.leaderID ∈ c0.peers
    rwa [hpeers]
  · intro m hm r hr hs
    obtain ⟨r', h1, h2, h3⟩ := hold.acks m hm r hr hs
    exact ⟨r', h1, h2.congr rfl rfl rfl, h3⟩
  · intro a ha
    simp only [queueSnapshotAction, hnil, List.nil_append, List.mem_singleton] at ha
    right
    rw [ha]
    exact ⟨rfl, hd.log, hterm.symm, hd.role⟩
  intro i hi
  rcases hinc i hi with hi | ⟨-, hreq⟩
  · exact .inl (hkept ▸ hi)
  right
  exact ⟨⟨kind, request, reset⟩, by simp [queueSnapshotAction], hreq.symm⟩

lemma stageOrAbort_handled (hd : Demotes snapshot request.term c c0) (h : c.Settled snapshot)
    (hle : c.hardState.term ≤ request.term) (hv : request.Valid maxRaftSnapshotBytes)
    (hid : request.leaderID ∈ c.peers) (hnil : c0.pendingReady.snapshotActions = [])
    (hkept : c0.incomingSnapshot = c.incomingSnapshot) {incoming : IncomingSnapshotProgress}
    (hmeta : incoming.metadata = snapshotTransferMetadataFor request)
    (hold : c0.incomingSnapshot = some incoming ∨ incoming.request = request) (reset : Bool) :
    Handled snapshot c.pendingProposals (some (.installSnapshotRequest request)) c
      (c0.stageOrAbort incoming request reset) := by
  unfold stageOrAbort
  simp only
  split
  · refine hd.action h hle hv hid hnil _ (fun i hi => ?_) hkept .abort false
    rw [← some.inj hi]
    rcases hold with hold | hold
    · exact .inl hold
    · exact .inr ⟨hmeta, hold⟩
  refine hd.action h hle hv hid hnil _ (fun i hi => ?_) hkept .stage reset
  rw [← some.inj hi]
  exact .inr ⟨hmeta, rfl⟩

/-- A follower that also gives up the transfer in progress. -/
lemma Demotes.cancel {term : Nat} (hd : Demotes snapshot term c c0) (h : c.Settled snapshot)
    (hnil : c0.pendingReady.snapshotActions = []) (hkept : c0.incomingSnapshot = c.incomingSnapshot) :
    Demotes snapshot term c c0.cancelIncomingSnapshot := by
  have hout := cancelIncomingSnapshot_output hd.output hnil fun i hi => h.abortable i (hkept ▸ hi)
  have hfrm := cancelIncomingSnapshot_eq c0
  generalize c0.cancelIncomingSnapshot = c1 at hout hfrm ⊢
  refine ⟨⟨hout, ?_, ?_, ?_, ?_, .inr ⟨?_, ?_⟩, ?_, ?_, ?_, ?_, ?_⟩, ?_, ?_, ?_, ?_⟩ <;> rw [hfrm]
  · exact hd.hard
  · exact hd.log
  · exact hd.messages
  · exact hd.entries
  · simp [hnil, aborts, hkept]
  · exact hd.localID
  · exact hd.voters
  · exact hd.limits
  · exact hd.terminal
  · exact hd.done
  · exact hd.role
  · exact hd.votes
  · exact hd.progress
  · exact hd.outgoing

lemma handleInstallSnapshotRequest_handled (h : c.Settled snapshot)
    (hv : request.Valid maxRaftSnapshotBytes) (hid : request.leaderID ∈ c.peers) (sample : Nat) :
    Handled snapshot c.pendingProposals (some (.installSnapshotRequest request)) c
      (c.handleInstallSnapshotRequest request sample) := by
  unfold handleInstallSnapshotRequest
  split
  · exact (h.still _ rfl rfl rfl rfl).reply hid ⟨rfl, by simp [view]; rfl⟩ rfl (by simp [snapshotResponse])
  next hlt =>
  have hle : c.hardState.term ≤ request.term := by omega
  have hd := handleLeaderContact_demotes h request.leaderID sample hle
  have hkeep := handleLeaderContact_kept h request.leaderID sample hle
  simp only
  generalize c.handleLeaderContact request.leaderID request.term sample = c0 at hd hkeep ⊢
  split
  · exact hd.handled h _
  next hauth =>
  obtain ⟨hnil, hkept⟩ := hkeep fun i hi => by
    rw [hi] at hauth
    simpa [not_or] using hauth
  split
  · have hcancel := hd.cancel h hnil hkept
    refine (hcancel.handled h _).reply hid ⟨rfl, ?_⟩ rfl (by simp [snapshotResponse])
    simp only [view, hcancel.term_eq hle]
  have habort : Handled snapshot c.pendingProposals
      (some (.installSnapshotRequest request)) c
      (c0.queueSnapshotAction ⟨.abort, request, false⟩) :=
    hd.action h hle hv hid hnil c0.incomingSnapshot (fun i hi => .inl hi)
      hkept .abort false
  cases hi : c0.incomingSnapshot with
  | none =>
    simp only
    split
    · exact habort
    · exact stageOrAbort_handled hd h hle hv hid hnil hkept rfl (.inr rfl) false
  | some =>
    simp only
    split
    · next hmeta => exact stageOrAbort_handled hd h hle hv hid hnil hkept hmeta (.inl hi) false
    split
    · exact habort
    · exact stageOrAbort_handled hd h hle hv hid hnil hkept rfl (.inr rfl) true

/-! ## The sender's side -/

lemma responseFits_le {response : InstallSnapshotResponse} (h : responseFits t response = true) :
    response.nextOffset ≤ t.state.length := by
  unfold responseFits at h
  simp only at h
  split at h
  · split at h
    · exact (of_decide_eq_true h).le
    have := of_decide_eq_true h
    omega
  have := of_decide_eq_true h
  by_cases h0 : t.state.length = 0 <;> omega

section Sender

variable {before : Nat → Option Entry} {v : View} {id : Nat}

/-- The transfer to a peer ends. -/
lemma Leads.endTransfer (h : Leads snapshot before v c) (id : Nat) :
    Leads snapshot before v { c with outgoingSnapshots := erase c.outgoingSnapshots id } := by
  refine ⟨h.output, h.start, ⟨h.roles.limits, h.roles.votes, h.roles.leading, h.roles.progress, ?_,
    fun i hi => ?_⟩, h.leader, h.term, h.vote, h.grown, h.behind⟩
  · intro k t ht
    simp only [erase] at ht
    split at ht
    · cases ht
    · exact (h.roles.outgoing k t ht).congr
  · exact (h.roles.incoming i hi).congr

/-- The transfer to a peer goes on, or begins. -/
lemma Leads.putTransfer (h : Leads snapshot before v c) (ht : c.Transfers snapshot id t) :
    Leads snapshot before v { c with outgoingSnapshots := put c.outgoingSnapshots id t } := by
  refine ⟨h.output, h.start, ⟨h.roles.limits, h.roles.votes, h.roles.leading, h.roles.progress, ?_,
    fun i hi => ?_⟩, h.leader, h.term, h.vote, h.grown, h.behind⟩
  · intro k t' ht'
    simp only [put] at ht'
    split at ht'
    · next hk =>
      rw [hk, ← some.inj ht']
      exact ht.congr
    · exact (h.roles.outgoing k t' ht').congr
  · exact (h.roles.incoming i hi).congr

end Sender

/-- The peer has the snapshot. `c1` differs from the settled leader `c` in the peer's record and
    transfer only. -/
lemma finishSnapshotTransfer_spec (h : c.Settled snapshot) (hr : c.role = .leader) {id : Nat}
    (ht : c.Transfers snapshot id t) {pr : Progress} (hp : c.progress id = some pr) {rpc : Option RPC}
    {c1 : Core} {t1 : OutgoingSnapshotProgress} {offset : Nat} {responses : Finset Nat}
    (hc1 : c1 = { c with
      quorumResponses := responses
      outgoingSnapshots := put c.outgoingSnapshots id t1
      progress := put c.progress id { pr with snapshotNextOffset := offset } }) :
    Ensures (finishSnapshotTransfer id t.snapshot.metadata.lastIncludedIndex) c1
      (fun _ c' => Handled snapshot c.pendingProposals rpc c c')
      (fun e _ => e = .replicationGenerationOverflow) := by
  have hlead := h.leads hr
  have hlog : c.log.Valid := h.idle.sound.log
  have hbase := hlog.base_le
  have hfit := (h.roles.progress _ pr hp).2
  have hmtd := hfit.matched
  have hmax := (h.roles.leading hr).2
  have hrdy := h.ready
  have hidle : pr.activeGeneration = 0 := by
    obtain ⟨pr', hp', hneed⟩ := ht.needed
    rw [hp, some.injEq] at hp'
    exact hfit.idle (hp' ▸ hneed)
  have hof : c.progressOf id = pr := by simp [progressOf, hp]
  unfold finishSnapshotTransfer
  simp only [ensures_bind, ensures_modify, ensures_get]
  have hof1 : (c1.clearOutgoingSnapshot id).progressOf id = { pr with
      activeTransferID := zeroTransferID
      activeSnapshotID := zeroSnapshotID
      snapshotNextOffset := 0 } := by
    subst hc1
    simp [clearOutgoingSnapshot, progressOf, put]
  rw [hof1, ht.index]
  generalize hm : max c.log.snapshotIndex pr.matchIndex = m
  rw [checkedNextIndex_eq_some.mpr ⟨(by omega : m ≠ maxUint64), rfl⟩]
  simp only [ensures_bind, ensures_set]
  generalize hpr : ({ pr with
    activeTransferID := zeroTransferID
    activeSnapshotID := zeroSnapshotID
    snapshotNextOffset := 0
    matchIndex := m
    nextIndex := m + 1
    snapshotNeeded := false } : Progress) = pr'
  generalize hc2 : ({ c1.clearOutgoingSnapshot id with
    progress := put (c1.clearOutgoingSnapshot id).progress id pr' } : Core) = c2
  have heq : c2 = { c with
      quorumResponses := responses
      outgoingSnapshots := erase c.outgoingSnapshots id
      progress := put c.progress id pr' } := by
    rw [← hc2, hc1]
    simp only [clearOutgoingSnapshot, Core.mk.injEq, true_and, and_true]
    constructor
    · funext k
      by_cases hk : k = id <;> simp [put, hk]
    funext k
    by_cases hk : k = id <;> simp [put, erase, hk]
  have hm' : pr'.matchIndex = m := by rw [← hpr]
  have hnext : pr'.nextIndex = m + 1 := by rw [← hpr]
  have hput := ((hlead.endTransfer id).putProgress id pr' ⟨by simp only; omega, by simp only; omega,
    by simp [← hpr, hidle], by simp [← hpr]⟩ (by simp [erase])
    (fun _ => ⟨by simp only [view]; omega, by simp only [view]; omega⟩)).quorumResponses responses
  have hlead2 : Leads snapshot c.pendingProposals c.view c2 := by
    rw [heq]
    exact hput
  have htunes : Tunes c c2 := by
    rw [heq]
    exact ⟨rfl, rfl, rfl, rfl, rfl⟩
  have hmvd : ∀ k, (c2.progressOf k).matchIndex ≤ (c.progressOf k).matchIndex ∨
      (c2.progressOf k).matchIndex ≤ c.log.snapshotIndex ∨
      CountsMatch rpc c k (c2.progressOf k).matchIndex ∨ k = c.localID := by
    intro k
    rw [heq]
    by_cases hk : k = id
    · rw [hk, hof]
      simp only [progressOf, put, if_true, getD_some]
      omega
    left
    simp [progressOf, put, hk]
  clear hc2
  refine (advanceLeaderCommit_spec hlead2 (by rw [heq, hrdy]; rfl)
    (by rw [heq]; rfl)).mono (fun _ c3 hc3 => ?_) fun _ _ hf => hf.elim
  obtain ⟨hlead3, hadv⟩ := hc3
  have hpeers : c3.peers = c.peers := by
    rcases hadv with rfl | ⟨k, hk⟩
    · rw [heq]
      rfl
    rw [hk.commits.frame, heq]
    rfl
  exact (issueAppend_spec hlead3 (c3.voters.mem_peers.mp (hpeers ▸ ht.peer)).1).mono
    (fun _ c' hc' => hc'.1.moved h hr htunes hmvd hadv hc'.2.1) fun _ _ hf => hf.2.1

lemma handleInstallSnapshotResponse_spec (h : c.Settled snapshot) (response : InstallSnapshotResponse) :
    Ensures (handleInstallSnapshotResponse response) c
      (fun _ c' => Handled snapshot c.pendingProposals (some (.installSnapshotResponse response)) c c')
      (fun e c' => e = .replicationGenerationOverflow ∨ c' = c) := by
  have hstill : Handled snapshot c.pendingProposals (some (.installSnapshotResponse response)) c c :=
    h.still _ rfl rfl rfl rfl
  unfold handleInstallSnapshotResponse
  simp only [ensures_bind, ensures_get]
  rw [ensures_ite]
  refine ⟨fun _ => hstill, fun hmine => ?_⟩
  push Not at hmine
  have hr := hmine.1
  cases ht : c.outgoingSnapshots response.responderID with
  | none => exact hstill
  | some t =>
    have hout := h.roles.outgoing _ t ht
    obtain ⟨pr, hp, hneed⟩ := hout.needed
    have hof : c.progressOf response.responderID = pr := by simp [progressOf, hp]
    have hfit := (h.roles.progress _ pr hp).2
    simp only
    rw [ensures_ite]
    refine ⟨fun _ => hstill, fun _ => ?_⟩
    rw [ensures_ite]
    refine ⟨fun hlt => (adoptHigherTerm_demotes h hlt).handled h _, fun _ => ?_⟩
    rw [ensures_ite]
    refine ⟨fun _ => hstill, fun hfits => ?_⟩
    push Not at hfits
    have hoff := responseFits_le (by simpa using hfits.2)
    simp only [ensures_bind, ensures_set, hof]
    generalize (if response.success = true then response.nextOffset
      else max response.nextOffset pr.snapshotNextOffset) = offset
    rw [ensures_ite]
    refine ⟨fun _ => ?_, fun _ => ?_⟩
    · exact (finishSnapshotTransfer_spec h hr hout hp rfl).mono (fun _ _ hc => hc)
        fun _ _ he => .inl he
    have hput := ((h.leads hr).putProgress response.responderID
      { pr with snapshotNextOffset := offset }
      ⟨hfit.matched, hfit.next, hfit.active, hfit.idle⟩ (fun _ => hneed)
      fun _ => ⟨hfit.matched, hfit.next⟩)
    have htrans : ({ c with
        progress := put c.progress response.responderID
          { pr with snapshotNextOffset := offset } } : Core).Transfers snapshot
        response.responderID { t with nextOffset := response.nextOffset } :=
      ⟨hout.leader, hout.peer, hout.term, hout.source, hout.state, hout.index, hoff,
        ⟨{ pr with snapshotNextOffset := offset }, by simp [put], hneed⟩⟩
    have hlead := (hput.putTransfer htrans).quorumResponses
      (insert response.responderID c.quorumResponses)
    refine (issueSnapshotChunk_spec hlead response.responderID).mono (fun _ c' hc' => ?_)
      fun _ _ hf => hf.elim
    refine hc'.1.moved h hr ?_ (fun id => .inl ?_) (.inl rfl) hc'.2.1
    · exact ⟨rfl, rfl, rfl, rfl, rfl⟩
    by_cases hid : id = response.responderID
    · rw [hid, hof]
      simp [progressOf, put]
    · simp [progressOf, put, hid]

lemma issueSnapshotChunk_refused (c : Core) (peer : Nat) :
    Ensures (issueSnapshotChunk peer) c (fun _ _ => True) (fun e _ => e = .invalidCoreState) := by
  unfold issueSnapshotChunk
  simp only [ensures_bind, ensures_get]
  cases c.outgoingSnapshots peer with
  | none => trivial
  | some =>
    simp only [ensures_ite]
    exact ⟨fun _ => trivial, fun _ => ⟨fun _ => rfl, fun _ => trivial⟩⟩

/-- A new transfer sends its first chunk. -/
lemma startSnapshotTransfer_spec (h : c.Settled snapshot) (id : Nat) (sn : Snapshot) (transferID : Bytes)
    (limit : Nat) : Ensures (startSnapshotTransfer id sn transferID limit) c
      (fun _ c' => snapshot = some sn ∧ id ∈ c.voters.voters → Handled snapshot c.pendingProposals none c c')
      (fun e c' => e = .invalidCoreState ∨ c' = c) := by
  unfold startSnapshotTransfer
  rw [ensures_bind]
  refine (requireIdle_spec h).mono (fun _ c0 hc0 => ?_) fun _ _ hf => hf
  subst hc0
  simp only [ensures_bind, ensures_get]
  rw [ensures_ite]
  refine ⟨fun _ => .inr rfl, fun hr => ?_⟩
  rw [not_not] at hr
  cases hp : c0.progress id with
  | none => exact .inl rfl
  | some pr =>
    simp only
    rw [ensures_ite]
    refine ⟨fun _ => .inl rfl, fun hpeer => ?_⟩
    push Not at hpeer
    rw [ensures_ite]
    refine ⟨fun _ => .inl rfl, fun _ => ?_⟩
    rw [ensures_ite]
    refine ⟨fun _ => .inl rfl, fun _ => ?_⟩
    rw [ensures_ite]
    refine ⟨fun _ => .inl rfl, fun hbase => ?_⟩
    push Not at hbase
    rw [ensures_ite]
    refine ⟨fun _ => .inl rfl, fun _ => ?_⟩
    simp only [ensures_bind, ensures_set]
    by_cases hsent : snapshot = some sn ∧ id ∈ c0.voters.voters
    case neg =>
      exact (issueSnapshotChunk_refused _ id).mono (fun _ _ _ hs => absurd hs hsent) fun _ _ he => .inl he
    have hneed : pr.snapshotNeeded = true := by simpa using hpeer.2
    have hof : c0.progressOf id = pr := by simp [progressOf, hp]
    have hfit := (h.roles.progress _ pr hp).2
    have hput := ((h.leads hr).putProgress id
      { pr with
        activeTransferID := transferID, activeSnapshotID := sn.id, snapshotNextOffset := 0 }
      ⟨hfit.matched, hfit.next, hfit.active, hfit.idle⟩ (fun _ => hneed)
      fun _ => ⟨hfit.matched, hfit.next⟩)
    have hlead := hput.putTransfer
      (t := ⟨c0.hardState.term, id, transferID, sn, sn.state, 0, limit, 0⟩)
      ⟨hr, mem_peers hsent.2 hpeer.1, rfl, hsent.1, rfl, hbase.1, Nat.zero_le _, ⟨{ pr with
          activeTransferID := transferID, activeSnapshotID := sn.id, snapshotNextOffset := 0 },
          by simp [put], hneed⟩⟩
    refine (issueSnapshotChunk_spec hlead id).mono (fun _ c' hc' _ => ?_) fun _ _ hf => hf.elim
    refine hc'.1.moved h hr ?_ (fun k => .inl ?_) (.inl rfl) hc'.2.1
    · exact ⟨rfl, rfl, rfl, rfl, rfl⟩
    by_cases hk : k = id
    · rw [hk, hof]
      simp [progressOf, put]
    · simp [progressOf, put, hk]

/-! ## Compaction -/

/-- The log's base moves; a leader forgets its transfers, but no position a peer acknowledged. -/
structure Compacts (c c' : Core) : Prop where
  frame : c' = { c with
    log := c'.log
    outgoingSnapshots := c'.outgoingSnapshots
    progress := c'.progress }
  matched : ∀ id, (c'.progressOf id).matchIndex = (c.progressOf id).matchIndex

lemma compactSnapshot_spec (h : c.Settled snapshot) (metadata : SnapshotMetadata)
    (snapshot' : Option Snapshot) : Ensures (compactSnapshot metadata) c
      (fun _ c' => c'.Settled snapshot' ∧ Compacts c c' ∧
        c.log.compact metadata.lastIncludedIndex metadata.lastIncludedTerm = .ok c'.log)
      (fun _ c' => c' = c) := by
  have hs : c.view.Sound := h.idle.sound
  have hlog : c.log.Valid := hs.log
  unfold compactSnapshot
  rw [ensures_bind]
  refine (requireIdle_spec h).mono (fun _ c0 hc0 => ?_) fun _ _ hf => hf
  subst hc0
  simp only [ensures_bind, ensures_get, ensures_lift]
  refine ⟨fun l hl => ?_, fun _ _ => trivial⟩
  rw [ensures_set]
  have hfacts : l.Valid ∧ l.lastIndex = c0.log.lastIndex ∧ l.commitIndex = c0.log.commitIndex ∧
      l.lastTerm = c0.log.lastTerm := by
    rcases hlog.compact_eq_ok hl with ⟨-, -, rfl⟩ | ⟨hlt, hle, hterm, rfl⟩
    · exact ⟨hlog, rfl, rfl, rfl⟩
    · exact ⟨hlog.compacted hlt hle hterm, rfl, rfl, hlog.lastTerm_compacted hlt hle hterm⟩
  obtain ⟨hval, hlast, hcmt, hterm⟩ := hfacts
  have hidle : ({ c0 with log := l } : Core).view.Idle :=
    ⟨⟨hs.voter, hval, hcmt.trans hs.commit, hterm.trans_le hs.terms, hs.vote, hs.proposal⟩,
      h.idle.empty, h.idle.settled⟩
  have hinc : ∀ i, c0.incomingSnapshot = some i → ({ c0 with log := l } : Core).Receives i := fun i hi =>
    (h.roles.incoming i hi).congr
  split
  · next hr =>
    have hr : c0.role = .leader := hr
    refine ⟨⟨hidle, ⟨h.roles.limits, h.roles.votes, fun _ => ?_, fun id pr hp => ⟨hr, ?_⟩, ?_, ?_⟩,
      h.terminal, h.done⟩, ⟨rfl, fun id => ?_⟩, hl⟩
    · exact ⟨(h.roles.leading hr).1, hlast.trans_lt (h.roles.leading hr).2⟩
    · simp only [rebaseProgress] at hp ⊢
      rw [hlast]
      split at hp
      · exact (h.roles.progress id pr hp).2
      obtain ⟨pr₀, hp0, rfl⟩ := map_eq_some_iff.mp hp
      have hfit := (h.roles.progress id pr₀ hp0).2
      split
      · exact ⟨hfit.matched, hfit.next, by simp, by simp⟩
      · exact hfit
    · simp [rebaseProgress]
    · intro i hi
      exact (hinc i hi).congr
    simp only [rebaseProgress, progressOf]
    split
    · rfl
    cases c0.progress id with
    | none => rfl
    | some =>
      simp only [map_some, getD_some]
      split <;> rfl
  next hr =>
  have hr : c0.role ≠ .leader := hr
  exact ⟨⟨hidle, .quiet h.roles.limits h.roles.votes hr (funext (h.roles.progress_none hr))
    (funext (h.roles.outgoing_none hr)) hinc, h.terminal, h.done⟩, ⟨rfl, fun _ => rfl⟩, hl⟩

end Core

end Crane.Raft
