import Crane.Raft.Helpers

/-!
# What one event does

`Core.Roles` is the invariant of the volatile part of a core: who may have progress records,
transfers and staged snapshots, and how far they may point. `Handled c c'` is the full account of
one event that took the idle core `c` to `c'`: its batch (`Output`), the invariant, and in `Move`
the protocol step it was — which of the few things that can happen to a voter's durable state
happened, and on which evidence.
-/

namespace Crane.Raft

open Program

/-! ## The volatile part -/

/-- A leader's record of one voter stays within the log, and a voter that needs a snapshot has no
    append outstanding. -/
structure Progress.Fits (pr : Progress) (last : Nat) : Prop where
  matched : pr.matchIndex ≤ last
  next : pr.nextIndex ≤ last + 1
  active : pr.activeGeneration ≠ 0 → pr.activeMatchIndex ≤ last
  idle : pr.snapshotNeeded = true → pr.activeGeneration = 0

lemma Progress.Fits.mono {pr : Progress} {last last' : Nat} (h : pr.Fits last)
    (hle : last ≤ last') : pr.Fits last' :=
  ⟨h.matched.trans hle, h.next.trans (by omega), fun ha => (h.active ha).trans hle, h.idle⟩

namespace Core

/-- A transfer to a peer sends the durable snapshot to a peer that needs it. -/
structure Transfers (snapshot : Option Snapshot) (c : Core) (id : Nat)
    (t : OutgoingSnapshotProgress) : Prop where
  leader : c.role = .leader
  peer : id ∈ c.peers
  term : t.term = c.hardState.term
  source : snapshot = some t.snapshot
  state : t.state = t.snapshot.state
  index : t.snapshot.metadata.lastIncludedIndex = c.log.snapshotIndex
  offset : t.nextOffset ≤ t.state.length
  needed : ∃ pr, c.progress id = some pr ∧ pr.snapshotNeeded = true

/-- A transfer from a peer belongs to the current term and came with valid requests. -/
structure Receives (c : Core) (i : IncomingSnapshotProgress) : Prop where
  role : c.role = .follower ∨ c.role = .preCandidate
  metadata : i.metadata = snapshotTransferMetadataFor i.request
  term : i.request.term = c.hardState.term
  leader : i.request.leaderID ∈ c.peers
  valid : i.request.Valid maxRaftSnapshotBytes

/-- The invariant of the volatile part. -/
structure Roles (snapshot : Option Snapshot) (c : Core) : Prop where
  limits : c.appendLimits.Resolved
  votes : ∀ v ∈ c.votes, v ∈ c.voters.voters
  leading : c.role = .leader → c.hardState.term ≠ 0 ∧ c.log.lastIndex < maxUint64
  progress : ∀ id pr, c.progress id = some pr → c.role = .leader ∧ pr.Fits c.log.lastIndex
  outgoing : ∀ id t, c.outgoingSnapshots id = some t → c.Transfers snapshot id t
  incoming : ∀ i, c.incomingSnapshot = some i → c.Receives i

/-- The fields the invariant reads. -/
structure Volatile where
  localID : Nat
  voters : VoterSet
  appendLimits : CodecLimits
  term : Nat
  base : Nat
  last : Nat
  role : Role
  votes : Finset Nat
  progress : Nat → Option Progress
  outgoing : Nat → Option OutgoingSnapshotProgress
  incoming : Option IncomingSnapshotProgress

def volatile (c : Core) : Volatile where
  localID := c.localID
  voters := c.voters
  appendLimits := c.appendLimits
  term := c.hardState.term
  base := c.log.snapshotIndex
  last := c.log.lastIndex
  role := c.role
  votes := c.votes
  progress := c.progress
  outgoing := c.outgoingSnapshots
  incoming := c.incomingSnapshot

/-- A core between two events. -/
structure Settled (snapshot : Option Snapshot) (c : Core) : Prop where
  idle : c.view.Idle
  roles : c.Roles snapshot
  terminal : c.terminalErr = none
  done : c.snapshotActionDone = false

variable {snapshot : Option Snapshot} {c c' : Core}

lemma Receives.congr {i : IncomingSnapshotProgress} (h : c.Receives i)
    (hrole : c'.role = c.role := by rfl) (hterm : c'.hardState.term = c.hardState.term := by rfl)
    (hpeers : c'.peers = c.peers := by rfl) : c'.Receives i :=
  ⟨hrole ▸ h.role, h.metadata, hterm ▸ h.term, hpeers ▸ h.leader, h.valid⟩

lemma Transfers.congr {id : Nat} {t : OutgoingSnapshotProgress} (h : c.Transfers snapshot id t)
    (hrole : c'.role = c.role := by rfl) (hterm : c'.hardState.term = c.hardState.term := by rfl)
    (hpeers : c'.peers = c.peers := by rfl)
    (hbase : c'.log.snapshotIndex = c.log.snapshotIndex := by rfl)
    (hprogr : c'.progress = c.progress := by rfl) : c'.Transfers snapshot id t :=
  ⟨hrole ▸ h.leader, hpeers ▸ h.peer, hterm ▸ h.term, h.source, h.state, hbase ▸ h.index, h.offset,
    hprogr ▸ h.needed⟩

section

variable (h : c.Roles snapshot)

include h

lemma Roles.congr (e : c'.volatile = c.volatile) : c'.Roles snapshot := by
  simp only [volatile, Volatile.mk.injEq] at e
  obtain ⟨h1, h2, h3, h4, h5, h6, h7, h8, h9, h₁₀, h₁₁⟩ := e
  have hpeers : c'.peers = c.peers := by rw [peers, peers, h1, h2]
  refine ⟨h3 ▸ h.limits, by rw [h8, h2]; exact h.votes, by rw [h4, h6, h7]; exact h.leading,
    by rw [h9, h6, h7]; exact h.progress, fun id t ht => ?_, fun i hi => ?_⟩
  · exact (h.outgoing id t (h₁₀ ▸ ht)).congr h7 h4 hpeers h5 h9
  · exact (h.incoming i (h₁₁ ▸ hi)).congr h7 h4 hpeers

lemma Roles.matched (id : Nat) : (c.progressOf id).matchIndex ≤ c.log.lastIndex := by
  unfold progressOf
  cases hp : c.progress id with
  | none => exact Nat.zero_le _
  | some pr => exact (h.progress id pr hp).2.matched

lemma Roles.progress_none (hr : c.role ≠ .leader) (id : Nat) : c.progress id = none := by
  cases hp : c.progress id with
  | none => rfl
  | some pr => exact absurd (h.progress id pr hp).1 hr

lemma Roles.outgoing_none (hr : c.role ≠ .leader) (id : Nat) : c.outgoingSnapshots id = none := by
  cases hp : c.outgoingSnapshots id with
  | none => rfl
  | some t => exact absurd (h.outgoing id t hp).leader hr

end

/-- A core that neither leads nor receives anything satisfies the rest of the invariant. -/
lemma Roles.quiet (hl : c'.appendLimits.Resolved)
    (hv : ∀ v ∈ c'.votes, v ∈ c'.voters.voters) (hr : c'.role ≠ .leader)
    (hp : c'.progress = fun _ => none) (ho : c'.outgoingSnapshots = fun _ => none)
    (hi : ∀ i, c'.incomingSnapshot = some i → c'.Receives i) : c'.Roles snapshot where
  limits := hl
  votes := hv
  leading := fun h => absurd h hr
  progress := by simp [hp]
  outgoing := by simp [ho]
  incoming := hi

section

variable (h : c.Settled snapshot)

include h

lemma Settled.start : Output snapshot c.pendingProposals c.view c.view := .start h.idle

lemma Settled.ready : c.pendingReady = .empty := h.idle.empty

/-- The transfer in progress is one that may be given up. -/
lemma Settled.abortable : ∀ i, c.incomingSnapshot = some i →
    i.request.leaderID ∈ c.view.voters.peers c.view.localID ∧ i.request.Valid maxRaftSnapshotBytes :=
  fun i hi => ⟨(h.roles.incoming i hi).leader, (h.roles.incoming i hi).valid⟩

lemma requireIdle_spec {E : RaftError → Core → Prop} : Ensures requireIdle c (fun _ c' => c' = c) E := by
  unfold requireIdle
  simp only [ensures_bind, ensures_get]
  rw [h.terminal]
  have : c.hasPending = false := h.idle.settled
  simp [this]

end

end Core

/-! ## The protocol step of an event -/

/-- The message counts as a vote of `voter` for `c` in its current term. -/
def CountsVote (rpc : Option RPC) (c : Core) (voter : Nat) : Prop :=
  ∃ r, rpc = some (.requestVoteResponse r) ∧ r.responderID = voter ∧ r.candidateID = c.localID ∧
    r.requestTerm = c.hardState.term ∧ r.term = c.hardState.term ∧ r.granted = true

/-- The message acknowledges that `voter` holds the log of `c` up to `index`. -/
def CountsMatch (rpc : Option RPC) (c : Core) (voter index : Nat) : Prop :=
  ∃ r, rpc = some (.appendEntriesResponse r) ∧ r.responderID = voter ∧ r.leaderID = c.localID ∧
    r.requestTerm = c.hardState.term ∧ r.success = true ∧ r.matchIndex = index

/-- The voter took over what an append request carries. -/
structure Follows (request : AppendEntriesRequest) (c c' : Core) : Prop where
  later : c.hardState.term ≤ request.term
  log : ∃ l, Log.Appended c.log request.prevLogIndex request.prevLogTerm request.entries l ∧ c'.log = { l with
      commitIndex := max c.log.commitIndex (min request.leaderCommit (Core.lastVerified request)) }
  term : c'.hardState.term = request.term
  vote : c'.hardState.votedFor =
    if c.hardState.term < request.term then 0 else c.hardState.votedFor
  role : c'.role = .follower

/-- Everything that can happen to term, vote, log, commit index and role in one event. -/
inductive Move (rpc : Option RPC) (c c' : Core) : Prop where
  | stay (hard : c'.hardState = c.hardState) (log : c'.log = c.log)
      (role : c'.role = c.role ∨ c'.role = .follower ∨ c'.role = .preCandidate)
  | raise (later : c.hardState.term < c'.hardState.term) (vote : c'.hardState.votedFor = 0)
      (log : c'.log = c.log) (role : c'.role = .follower)
  | vote (request : RequestVoteRequest) (received : rpc = some (.requestVoteRequest request))
      (term : c'.hardState.term = request.term) (later : c.hardState.term ≤ request.term)
      (free : c.hardState.term = request.term → c.hardState.votedFor = 0)
      (vote : c'.hardState.votedFor = request.candidateID)
      (fresh : c.candidateLogIsUpToDate request.lastLogIndex request.lastLogTerm = true)
      (log : c'.log = c.log)
      (role : c'.role = if c.hardState.term < request.term then .follower else c.role)
  | stand (term : c'.hardState.term = c.hardState.term + 1)
      (vote : c'.hardState.votedFor = c.localID) (log : c'.log = c.log)
      (role : c'.role = .candidate) (votes : c'.votes = {c.localID})
  | elect (entry : Entry) (hard : c'.hardState = c.hardState) (candidate : c.role = .candidate)
      (role : c'.role = .leader) (quorum : c.voters.majority ≤ c'.votes.card)
      (own : entry.term = c.hardState.term) (log : c'.log = c.log.snoc entry)
  | follow (request : AppendEntriesRequest) (received : rpc = some (.appendEntriesRequest request))
      (follows : Follows request c c')
  | commit (k : Nat) (leader : c.role = .leader) (role : c'.role = .leader)
      (term : c'.hardState.term = c.hardState.term)
      (vote : c'.hardState.votedFor = c.hardState.votedFor)
      (log : c'.log = { c.log with commitIndex := k }) (after : c.log.commitIndex < k)
      (within : k ≤ c.log.lastIndex) (own : c.log.term k = .ok c.hardState.term)
      (quorum : c.voters.majority ≤ c'.replicas k)
  | propose (entry : Entry) (hard : c'.hardState = c.hardState) (leader : c.role = .leader)
      (role : c'.role = .leader) (own : entry.term = c.hardState.term)
      (log : c'.log = c.log.snoc entry)

/-- The message kinds only a leader sends. -/
def RPC.fromLeader : RPC → Bool
  | .appendEntriesRequest _ | .installSnapshotRequest _ => true
  | _ => false

/-- The full account of an event. -/
structure Handled (snapshot : Option Snapshot) (before : Nat → Option Entry) (rpc : Option RPC)
    (c c' : Core) : Prop where
  output : Output snapshot before c.view c'.view
  roles : c'.Roles snapshot
  terminal : c'.terminalErr = none
  done : c'.snapshotActionDone = false
  move : Move rpc c c'
  /-- Votes are only counted from messages. -/
  votes : c.role = .candidate → c'.role = .candidate ∨ c'.role = .leader →
    ∀ v ∈ c'.votes, v ∈ c.votes ∨ CountsVote rpc c v
  /-- A record of a peer's position rests on an acknowledgement, or on a snapshot. -/
  matched : ∀ id, (c'.progressOf id).matchIndex ≤ (c.progressOf id).matchIndex ∨
    (c'.progressOf id).matchIndex ≤ c.log.snapshotIndex ∨
    CountsMatch rpc c id (c'.progressOf id).matchIndex ∨ id = c.localID
  leads : ∀ m ∈ c'.pendingReady.messages, m.rpc.fromLeader = true → c'.role = .leader
  /-- A successful append response answers a request that was taken over. -/
  acks : ∀ m ∈ c'.pendingReady.messages, ∀ r, m.rpc = .appendEntriesResponse r →
    r.success = true → ∃ request, rpc = some (.appendEntriesRequest request) ∧
      Follows request c c' ∧ r.matchIndex = Core.lastVerified request
  /-- An action gives up the transfer in progress, or is about the chunk that came in; that event
      then touched no log. -/
  actions : ∀ a ∈ c'.pendingReady.snapshotActions,
    (a.kind = .abort ∧ ∃ i, c.incomingSnapshot = some i ∧ a.request = i.request) ∨
      (rpc = some (.installSnapshotRequest a.request) ∧ c'.log = c.log ∧
        a.request.term = c'.hardState.term ∧ c'.role = .follower)
  /-- A transfer that goes on was not touched, or is what the action is about. -/
  staged : ∀ i, c'.incomingSnapshot = some i → c.incomingSnapshot = some i ∨
    ∃ a ∈ c'.pendingReady.snapshotActions, a.request = i.request

/-! ## Rules -/

section Rules

variable {snapshot : Option Snapshot} {before : Nat → Option Entry} {rpc : Option RPC}
  {c c' : Core}

lemma Follows.congr {request : AppendEntriesRequest} {c'' : Core} (h : Follows request c c')
    (hhard : c''.hardState = c'.hardState) (hlog : c''.log = c'.log) (hrole : c''.role = c'.role) :
    Follows request c c'' :=
  ⟨h.later, hlog ▸ h.log, hhard ▸ h.term, hhard ▸ h.vote, hrole ▸ h.role⟩

/-- A move is a matter of the durable part, the role, the votes and the leader's records. -/
lemma Move.congr {c'' : Core} (h : Move rpc c c') (hhard : c''.hardState = c'.hardState)
    (hlog : c''.log = c'.log) (hrole : c''.role = c'.role) (hvotes : c''.votes = c'.votes)
    (hrepls : c''.replicas = c'.replicas) : Move rpc c c'' := by
  cases h with
  | stay a b d => exact .stay (hhard ▸ a) (hlog ▸ b) (hrole ▸ d)
  | raise a b d e => exact .raise (hhard ▸ a) (hhard ▸ b) (hlog ▸ d) (hrole ▸ e)
  | vote r a b d e f g i j => exact .vote r a (hhard ▸ b) d e (hhard ▸ f) g (hlog ▸ i) (hrole ▸ j)
  | stand a b d e f => exact .stand (hhard ▸ a) (hhard ▸ b) (hlog ▸ d) (hrole ▸ e) (hvotes ▸ f)
  | elect e a b d f g i => exact .elect e (hhard ▸ a) b (hrole ▸ d) (hvotes ▸ f) g (hlog ▸ i)
  | follow r a b => exact .follow r a (b.congr hhard hlog hrole)
  | commit k a b d e f g i j l =>
    exact .commit k a (hrole ▸ b) (hhard ▸ d) (hhard ▸ e) (hlog ▸ f) g i j (hrepls ▸ l)
  | propose e a b d f g => exact .propose e (hhard ▸ a) b (hrole ▸ d) f (hlog ▸ g)

/-- An event that ends by answering a peer. -/
lemma Handled.reply (h : Handled snapshot before rpc c c') {id : Nat} {r : RPC}
    {requires : DurabilityPrerequisite} (hid : id ∈ c.peers)
    (hs : Says snapshot c.view c'.view ⟨id, r, requires⟩) (hl : r.fromLeader = false)
    (hack : ∀ response, r = .appendEntriesResponse response → response.success = true →
      ∃ request, rpc = some (.appendEntriesRequest request) ∧ Follows request c c' ∧
        response.matchIndex = Core.lastVerified request) :
    Handled snapshot before rpc c (c'.queueMessage id r requires) where
  output := h.output.message (m := ⟨id, r, requires⟩) hid hs
  roles := h.roles.congr rfl
  terminal := h.terminal
  done := h.done
  move := h.move.congr rfl rfl rfl rfl rfl
  votes := h.votes
  matched := h.matched
  leads := by
    intro m hm
    rcases List.mem_append.mp hm with hm | hm
    · exact h.leads m hm
    rw [List.mem_singleton.mp hm]
    simp [hl]
  acks := by
    intro m hm response hr hsucc
    rcases List.mem_append.mp hm with hm | hm
    · obtain ⟨request, h1, h2, h3⟩ := h.acks m hm response hr hsucc
      exact ⟨request, h1, h2.congr rfl rfl rfl, h3⟩
    rw [List.mem_singleton.mp hm] at hr
    obtain ⟨request, h1, h2, h3⟩ := hack response hr hsucc
    exact ⟨request, h1, h2.congr rfl rfl rfl, h3⟩
  actions := h.actions
  staged := h.staged

/-- What an event did does not depend on clocks and counters. -/
lemma Handled.congr {c'' : Core} (h : Handled snapshot before rpc c c')
    (hview : c''.view = c'.view) (hvol : c''.volatile = c'.volatile)
    (hterm : c''.terminalErr = c'.terminalErr) (hdone : c''.snapshotActionDone = c'.snapshotActionDone) :
    Handled snapshot before rpc c c'' := by
  have hhard : c''.hardState = c'.hardState := congrArg View.hardState hview
  have hlog : c''.log = c'.log := congrArg View.log hview
  have hrdy : c''.pendingReady = c'.pendingReady := congrArg View.ready hview
  have hvtrs : c''.voters = c'.voters := congrArg View.voters hview
  have hroles := h.roles.congr hvol
  simp only [Core.volatile, Core.Volatile.mk.injEq] at hvol
  obtain ⟨-, -, -, -, -, -, hrole, hvotes, hprog, -, hinc⟩ := hvol
  have hof : c''.progressOf = c'.progressOf := by
    funext id
    simp [Core.progressOf, hprog]
  have hrepls : c''.replicas = c'.replicas := by
    funext k
    simp [Core.replicas, hof, hvtrs]
  refine ⟨hview ▸ h.output, hroles, hterm.trans h.terminal, hdone.trans h.done,
    h.move.congr hhard hlog hrole hvotes hrepls, ?_, ?_, ?_, ?_, ?_, ?_⟩
  · rw [hrole, hvotes]
    exact h.votes
  · rw [hof]
    exact h.matched
  · rw [hrdy, hrole]
    exact h.leads
  · rw [hrdy]
    intro m hm r hr hs
    obtain ⟨request, h1, h2, h3⟩ := h.acks m hm r hr hs
    exact ⟨request, h1, h2.congr hhard hlog hrole, h3⟩
  · rw [hrdy, hlog, hhard, hrole]
    exact h.actions
  rw [hrdy, hinc]
  exact h.staged

/-- An event that changed nothing a batch or a role depends on. -/
lemma Core.Settled.still (h : c.Settled snapshot) (rpc : Option RPC) (hview : c'.view = c.view)
    (hvol : c'.volatile = c.volatile) (hterm : c'.terminalErr = c.terminalErr)
    (hdone : c'.snapshotActionDone = c.snapshotActionDone) :
    Handled snapshot c.pendingProposals rpc c c' := by
  have hrdy := h.ready
  have hsame : Handled snapshot c.pendingProposals rpc c c :=
    ⟨h.start, h.roles, h.terminal, h.done, .stay rfl rfl (.inl rfl), fun _ _ _ hv => .inl hv,
      fun _ => .inl le_rfl, by simp [hrdy, Ready.empty], by simp [hrdy, Ready.empty],
      by simp [hrdy, Ready.empty], fun _ hi => .inl hi⟩
  exact hsame.congr hview hvol hterm hdone

end Rules

end Crane.Raft
