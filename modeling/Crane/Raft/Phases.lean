import Crane.Raft.Stored

/-!
# A voter in every place of its event loop

`HostOk` is the invariant of one voter: its store is its record (`Stored`), and a process that
runs is in line with the store in the way its place in the event loop asks for. While an event is
handled the core is ahead of the store, by exactly the batch; `Draining.persist` is the moment the
voter's record catches up, and the only moment besides an installed snapshot at which the history
moves. From then on the core that matters is `Core.released`, the one the batch will leave behind.
-/

namespace Crane.Raft

open Consensus Program List

/-- The core once its batch is applied and released. -/
def Core.released (c : Core) : Core :=
  { c with
    log := { c.log with appliedIndex := c.log.commitIndex }
    pendingReady := .empty
    hasPending := false
    snapshotActionDone := false }

/-- A core without a batch, applied up to its commit index, is what it will be. -/
lemma Core.released_self {c : Core} (happd : c.log.appliedIndex = c.log.commitIndex)
    (hrdy : c.pendingReady = .empty) (hpend : c.hasPending = false)
    (hdone : c.snapshotActionDone = false) : c.released = c := by
  have hself : c.released = { c with
      log := { c.log with appliedIndex := c.log.appliedIndex }
      pendingReady := c.pendingReady
      hasPending := c.hasPending
      snapshotActionDone := c.snapshotActionDone } := by
    rw [happd, hrdy, hpend, hdone]
    rfl
  exact hself

variable {σ : Type} [Hash] {cfg : Config σ} {s s' : History} {n : Nat} {store : MemoryStore}
  {node : Node σ} {ready : Ready}

/-! ## The places -/

/-- A message that was sent is true, and not addressed to its sender. -/
def Sent (cfg : Config σ) (s : History) (envelope : Envelope) : Prop :=
  envelope.message.toID ∈ cfg.voters.peers envelope.senderID ∧ Justified cfg s envelope.message.rpc

/-- What a node holds besides core and application. -/
structure Owns (cfg : Config σ) (s : History) (n : Nat) (store : MemoryStore) (node : Node σ) : Prop where
  options : node.options = cfg.options n
  durable : node.durableState = store.state
  captured : ∀ sn, node.captureInFlight = some (.ok sn) →
    sn.Sealed (cfg.options n).identity (cfg.options n).maxSnapshotBytes ∧
      Stands cfg s (s.node n).term sn.metadata sn.state

/-- The application has applied what is committed but for `rest`. -/
def Behind (cfg : Config σ) (s : History) (n : Nat) (app : σ) (rest : List Entry) : Prop :=
  ∃ a, a ≤ (s.node n).commit ∧ (CollisionFree → Reached cfg.sm app ((s.node n).log.take a)) ∧
    rest = ((s.node n).log.take (s.node n).commit).drop a

/-- Between two events. -/
structure Waiting (cfg : Config σ) (s : History) (n : Nat) (store : MemoryStore) (node : Node σ) : Prop where
  owns : Owns cfg s n store node
  steady : Steady cfg s n store.state node.core
  pending : node.pendingLocal = node.core.pendingProposals
  applied : Behind cfg s n node.app []

/-- An event was handled, nothing of it is durable yet. -/
structure Draining (cfg : Config σ) (s : History) (n : Nat) (store : MemoryStore)
    (node : Node σ) : Prop where
  owns : Owns cfg s n store node
  handled : ∃ c rpc, Steady cfg s n store.state c ∧
    Handled store.state.snapshot node.pendingLocal rpc c node.core ∧
    ∀ r, rpc = some r → Justified cfg s r
  applied : Behind cfg s n node.app []

/-- The batch `ready` is durable and has not been released. -/
structure Taken (cfg : Config σ) (s : History) (n : Nat) (store : MemoryStore) (node : Node σ)
    (ready : Ready) : Prop where
  owns : Owns cfg s n store node
  steady : Steady cfg s n store.state node.core.released
  batch : node.core.pendingReady = ready
  sent : ∀ m ∈ ready.messages, Sent cfg s ⟨n, m⟩
  resolves : Resolves node.pendingLocal node.core.pendingProposals ready.committedProposals
    ready.failedProposals
  base : node.core.log.snapshotIndex ≤ node.core.log.appliedIndex
  indexed : Contiguous node.core.log.appliedIndex ready.committedEntries
  length : node.core.log.appliedIndex + ready.committedEntries.length = node.core.log.commitIndex

/-- What is known of the snapshot action of a batch. -/
structure Actionable (cfg : Config σ) (s : History) (n : Nat) (core : Core) (ready : Ready)
    (action : SnapshotAction) : Prop where
  leader : action.request.leaderID ∈ cfg.voters.peers n
  stage : action.kind = .stage → Justified cfg s (.installSnapshotRequest action.request) ∧
    action.request.term = core.hardState.term ∧ core.role = .follower ∧
    ready.committedEntries = []

/-- A process is in line with the store, as its place asks for. -/
def ProcessOk (cfg : Config σ) (s : History) (n : Nat) (store : MemoryStore)
    (process : Process σ) : Prop :=
  match process.phase with
  | .waiting => Waiting cfg s n store process.node
  | .draining => Draining cfg s n store process.node
  | .acting ready => Taken cfg s n store process.node ready ∧
      Behind cfg s n process.node.app ready.committedEntries ∧
      ∀ a ∈ ready.snapshotActions, Actionable cfg s n process.node.core ready a
  | .sending ready rest => Taken cfg s n store process.node ready ∧
      Behind cfg s n process.node.app ready.committedEntries ∧ ∀ m ∈ rest, Sent cfg s ⟨n, m⟩
  | .applying ready rest _ => Taken cfg s n store process.node ready ∧ Behind cfg s n process.node.app rest

structure HostOk (cfg : Config σ) (s : History) (n : Nat) (host : Host σ) : Prop where
  stored : Stored cfg s n host.store
  process : ∀ process, host.process = some process → ProcessOk cfg s n host.store process

/-! ## Others acting -/

section Grow

variable (hI : Inv cfg.voters.setting s) (hg : Grows s s') (hnode : s'.node n = s.node n)
  (hrole : s'.role n = s.role n)

include hI hg in
lemma Sent.grow {envelope : Envelope} (h : Sent cfg s envelope) : Sent cfg s' envelope := ⟨h.1, h.2.grow hI hg⟩

include hI hg hnode in
lemma Owns.grow (h : Owns cfg s n store node) : Owns cfg s' n store node :=
  ⟨h.options, h.durable, fun sn hsn => ⟨(h.captured sn hsn).1, hnode ▸ (h.captured sn hsn).2.grow hI hg le_rfl⟩⟩

include hnode in
lemma Behind.grow {app : σ} {rest : List Entry} (h : Behind cfg s n app rest) : Behind cfg s' n app rest := by
  unfold Behind
  rw [hnode]
  exact h

include hI hg hnode hrole in
lemma Taken.grow (h : Taken cfg s n store node ready) : Taken cfg s' n store node ready :=
  ⟨h.owns.grow hI hg hnode, h.steady.grow hg hnode hrole, h.batch,
    fun m hm => (h.sent m hm).grow hI hg, h.resolves, h.base, h.indexed, h.length⟩

include hI hg hnode hrole in
/-- What holds of one voter holds while others act. -/
lemma HostOk.grow {host : Host σ} (h : HostOk cfg s n host) : HostOk cfg s' n host := by
  refine ⟨h.stored.grow hI hg hnode, fun process hp => ?_⟩
  have h := h.process process hp
  unfold ProcessOk at h ⊢
  cases hphase : process.phase with
  | waiting =>
    simp only [hphase] at h ⊢
    exact ⟨h.owns.grow hI hg hnode, h.steady.grow hg hnode hrole, h.pending, h.applied.grow hnode⟩
  | draining =>
    simp only [hphase] at h ⊢
    obtain ⟨c, rpc, hc, hh, hj⟩ := h.handled
    exact ⟨h.owns.grow hI hg hnode, ⟨c, rpc, hc.grow hg hnode hrole, hh,
      fun r hr => (hj r hr).grow hI hg⟩, h.applied.grow hnode⟩
  | acting =>
    simp only [hphase] at h ⊢
    refine ⟨h.1.grow hI hg hnode hrole, h.2.1.grow hnode, fun a ha => ?_⟩
    obtain ⟨hl, hs⟩ := h.2.2 a ha
    exact ⟨hl, fun hk => ⟨(hs hk).1.grow hI hg, (hs hk).2⟩⟩
  | sending =>
    simp only [hphase] at h ⊢
    exact ⟨h.1.grow hI hg hnode hrole, h.2.1.grow hnode, fun m hm => (h.2.2 m hm).grow hI hg⟩
  | applying =>
    simp only [hphase] at h ⊢
    exact ⟨h.1.grow hI hg hnode hrole, h.2.grow hnode⟩

end Grow

/-! ## A batch becomes durable -/

section Persist

/-- What is offered to a voter fits the limit of the voter that offers it. -/
lemma Handled.offered {c c' : Core} {rpc : Option RPC} {d : RecoveredState}
    {before : Nat → Option Entry} (h : Handled d.snapshot before rpc c c')
    (hc : Steady cfg s n d c) (hj : ∀ r, rpc = some r → Justified cfg s r) :
    (∀ i, c'.incomingSnapshot = some i →
      i.request.totalLength ≤ (cfg.options i.request.leaderID).maxSnapshotBytes) ∧
    ∀ a ∈ c'.pendingReady.snapshotActions,
      a.request.totalLength ≤ (cfg.options a.request.leaderID).maxSnapshotBytes := by
  have haction : ∀ a ∈ c'.pendingReady.snapshotActions,
      a.request.totalLength ≤ (cfg.options a.request.leaderID).maxSnapshotBytes := by
    intro a ha
    rcases h.actions a ha with ⟨-, i, hi, heq⟩ | ⟨hr, -⟩
    · rw [heq]
      exact hc.offered i hi
    obtain ⟨-, -, -, -, hle⟩ := hj _ hr
    exact hle
  refine ⟨fun i hi => ?_, haction⟩
  rcases h.staged i hi with hi | ⟨a, ha, heq⟩
  · exact hc.offered i hi
  rw [← heq]
  exact haction a ha

/-- The core a batch will leave behind is in line with the store the batch is written to. -/
lemma Handled.released {c c' : Core} {rpc : Option RPC} {d d' : RecoveredState}
    {before : Nat → Option Entry} (h : Handled d.snapshot before rpc c c')
    (hc : Steady cfg s n d c) (hj : ∀ r, rpc = some r → Justified cfg s r)
    (hl : Linked cfg s' n c') (hd : Durable d' c'.view) (hsn : d'.snapshot = d.snapshot) :
    Steady cfg s' n d' c'.released := by
  have hs := h.output.sound
  have hlog : c'.log.Valid := hs.log
  have hval : c'.released.log.Valid :=
    { hlog with
      applied_ge := hlog.applied_ge.trans hlog.commit_ge
      commit_ge := le_rfl }
  refine ⟨h.output.localID.trans hc.localID, h.output.voters.trans hc.voters, ?_,
    ⟨hd.hardState, hd.base_index, hd.base_term, hd.entries⟩, rfl,
    ⟨hl.leader, hl.candidate, hl.matched⟩, (h.offered hc hj).1⟩
  exact ⟨⟨⟨hs.voter, hval, hs.commit, hs.terms, hs.vote, hs.proposal⟩, rfl, rfl⟩,
    hsn ▸ h.roles.congr rfl, h.terminal, rfl⟩

lemma Behind.reached (hI : Inv cfg.voters.setting s) {app : σ} (h : Behind cfg s n app []) :
    CollisionFree → Reached cfg.sm app ((s.node n).log.take (s.node n).commit) := by
  obtain ⟨a, hle, hr, hrest⟩ := h
  have hlen := congrArg length hrest
  have hcmt := hI.commit_le n
  rw [length_drop, length_take, length_nil] at hlen
  obtain rfl : a = (s.node n).commit := by omega
  exact hr

lemma Behind.of_reached {app : σ}
    (h : CollisionFree → Reached cfg.sm app ((s.node n).log.take (s.node n).commit)) :
    Behind cfg s n app [] := by
  refine ⟨_, le_rfl, h, ?_⟩
  rw [drop_eq_nil_of_le]
  rw [length_take]
  exact Nat.min_le_left _ _

/-- After the voter has acted, the application is behind by what was committed in the action. -/
lemma Behind.acted (hI : Inv cfg.voters.setting s) (ha : Acts cfg.voters.setting n s s')
    {app : σ} (h : Behind cfg s n app []) (hle : (s.node n).commit ≤ (s'.node n).commit) :
    Behind cfg s' n app (((s'.node n).log.take (s'.node n).commit).drop (s.node n).commit) := by
  refine ⟨(s.node n).commit, hle, ?_, rfl⟩
  have hlen : ((s.node n).log.take (s.node n).commit).length = (s.node n).commit := by
    rw [length_take]
    exact Nat.min_eq_left (hI.commit_le n)
  have hkept := ha.committed_kept hI (hI.committed n) (hlen.le.trans hle)
  rw [hlen] at hkept
  rw [hkept]
  exact h.reached hI

/-- A batch that has just become durable. -/
structure Written (cfg : Config σ) (s : History) (n : Nat) (store : MemoryStore) (node : Node σ) : Prop where
  stored : Stored cfg s n store
  steady : Steady cfg s n store.state node.core.released
  sent : ∀ m ∈ node.core.pendingReady.messages, Sent cfg s ⟨n, m⟩
  applied : Behind cfg s n node.app node.core.pendingReady.committedEntries
  captured : ∀ sn, node.captureInFlight = some (.ok sn) →
    sn.Sealed (cfg.options n).identity (cfg.options n).maxSnapshotBytes ∧
      Stands cfg s (s.node n).term sn.metadata sn.state
  actions : ∀ a ∈ node.core.pendingReady.snapshotActions, Actionable cfg s n node.core node.core.pendingReady a
  resolves : Resolves node.pendingLocal node.core.pendingProposals
    node.core.pendingReady.committedProposals node.core.pendingReady.failedProposals
  base : node.core.log.snapshotIndex ≤ node.core.log.appliedIndex
  indexed : Contiguous node.core.log.appliedIndex node.core.pendingReady.committedEntries
  length : node.core.log.appliedIndex + node.core.pendingReady.committedEntries.length = node.core.log.commitIndex

/-- Writing a batch is the voter's action. -/
lemma Draining.persist (hI : Inv cfg.voters.setting s) (hst : Stored cfg s n store)
    (h : Draining cfg s n store node) (token : Nat) :
    ∃ s', Acts cfg.voters.setting n s s' ∧ Written cfg s' n { store with
      state := store.state.withBatch
        (persistenceBatchForReady { node.core.pendingReady with token }) } node := by
  obtain ⟨c, rpc, hc, hh, hj⟩ := h.handled
  have hs := hc.settled.idle.sound
  have ho := hh.output
  have he := hst.embodies hc.durable
  obtain ⟨s', hsim⟩ := hh.simulates hI hc.localID hc.voters hc.settled he hc.linked hj
  have hg := hsim.acts.grows hI
  have he' := hsim.embodies
  have hlinked := hsim.linked hI hc.localID hc.settled hc.linked hh hj
  have hterm : (s.node n).term ≤ (s'.node n).term := by
    rw [← he.term, ← he'.term]
    exact ho.term_le
  have hcmt : c.log.commitIndex = (s.node n).commit := Eq.trans hs.commit he.commit
  have hcmt' : node.core.log.commitIndex = (s'.node n).commit := Eq.trans ho.sound.commit he'.commit
  have hle : c.log.commitIndex ≤ node.core.log.commitIndex := ho.commit_le
  have happd : node.core.log.appliedIndex = c.log.commitIndex := ho.applied.trans hc.applied
  have hidxd := ho.committed_range hs
  have hlast : node.core.log.lastIndex = (s'.node n).log.length := he'.last ho.sound.log
  have hents : node.core.pendingReady.committedEntries =
      ((s'.node n).log.take (s'.node n).commit).drop (s.node n).commit := by
    have hbase : node.core.log.snapshotIndex = c.log.snapshotIndex := ho.base_index
    have hle' : c.log.snapshotIndex ≤ c.log.commitIndex := hs.log.snapshotIndex_le_commit
    rw [drop_take, ← hcmt, ← hcmt']
    refine Eq.trans ho.committed ?_
    show (node.core.log.entries.drop (c.log.commitIndex - c.log.snapshotIndex)).take
      (node.core.log.commitIndex - c.log.commitIndex) = _
    rw [he'.entries, hbase, drop_drop, Nat.add_sub_cancel' hle']
  refine ⟨s', hsim.acts, hst.persist hI hg hc.durable ho (ho.voters.trans hc.voters) he' token, ?_,
    fun m hm => ⟨?_, ?_⟩, ?_, fun sn hsn => ⟨?_, ?_⟩, fun a ha => ⟨?_, fun hk => ?_⟩, ho.resolves,
    ho.sound.log.applied_ge, ?_, ?_⟩
  · exact hh.released hc hj hlinked (ho.durable hc.durable token) rfl
  · have := ho.addressed m hm
    rw [show c.view.voters = cfg.voters from hc.voters,
      show c.view.localID = n from hc.localID] at this
    exact this
  · exact hsim.justified hI hc.localID hc.settled he hh hst.backed hm
  · rw [hents]
    exact h.applied.acted hI hsim.acts (by omega)
  · exact (h.owns.captured sn hsn).1
  · exact (h.owns.captured sn hsn).2.grow hI hg hterm
  · have := (ho.actions a ha).1
    rw [show c.view.voters = cfg.voters from hc.voters,
      show c.view.localID = n from hc.localID] at this
    exact this
  · -- The event that staged a chunk changed no log, so it committed nothing.
    rcases hh.actions a ha with ⟨hkind, -⟩ | ⟨hr, hlog, ht, hrole⟩
    · exact nomatch hk.symm.trans hkind
    refine ⟨(hj _ hr).grow hI hg, ht, hrole, ?_⟩
    rw [hents, ← hcmt, ← hcmt', hlog, drop_eq_nil_of_le]
    rw [length_take]
    exact Nat.min_le_left _ _
  · rw [happd]
    exact hidxd
  have hfit := ho.sound.log.commit_le
  change node.core.log.commitIndex ≤ node.core.log.lastIndex at hfit
  rw [happd, hents, length_drop, length_take]
  omega

end Persist

end Crane.Raft
