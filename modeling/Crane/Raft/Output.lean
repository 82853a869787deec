import Crane.Raft.Core
import Crane.Raft.MessageFacts
import Crane.Raft.StorageFacts

/-!
# The batch of one event

An event takes an idle core to a core with a pending batch. `Output v w` says that the batch
accounts for everything that happened: whatever differs between the durable parts of the two
cores is in the batch, in the order in which it has to be made durable, and every message says
only what will then be durable (`Says`). What the batch makes durable is a consequence
(`DurableState`), and so is what the cluster needs to know about it before it is written.

`Output` speaks of a `View` of the core, the part that is written to disk or handed out. What an
event does to the rest — role, deadlines, votes, progress — does not change the view, so steps of
a handler that only touch the rest need no argument here. For the steps that do there is one rule
each: a message, a hard state, entries, a commit, a snapshot action, failed proposals.
-/

namespace Crane.Raft

open List

variable {after pending : Nat → Option Entry} {committed : List CommittedProposal}
variable {failed : List FailedProposal} {entries : List Entry}

/-! ## Proposals -/

/-- Each reported proposal was pending, none is reported twice, and exactly the others stay. -/
structure Resolves (before after : Nat → Option Entry) (committed : List CommittedProposal)
    (failed : List FailedProposal) : Prop where
  committed_eq : ∀ p ∈ committed, before p.id = some p.entry
  failed_eq : ∀ p ∈ failed, before p.id = some p.entry
  nodup : (committed.map (·.id) ++ failed.map (·.id)).Nodup
  after_eq : ∀ id, after id =
    if id ∈ committed.map (·.id) ++ failed.map (·.id) then none else before id

lemma Resolves.refl (pending : Nat → Option Entry) : Resolves pending pending [] [] :=
  ⟨by simp, by simp, by simp, by simp⟩

lemma Resolves.trans {before middle : Nat → Option Entry} {committed' : List CommittedProposal}
    {failed' : List FailedProposal} (h : Resolves before middle committed failed)
    (h' : Resolves middle after committed' failed') :
    Resolves before after (committed ++ committed') (failed ++ failed') := by
  have hkeep : ∀ id e, middle id = some e →
      before id = some e ∧ id ∉ committed.map (·.id) ++ failed.map (·.id) := by
    intro id e hid
    rw [h.after_eq id] at hid
    split at hid
    · cases hid
    · next hnot => exact ⟨hid, hnot⟩
  -- The two stages report disjoint identities: what the second reports was still pending.
  have hdisj : ∀ id ∈ committed'.map (·.id) ++ failed'.map (·.id),
      id ∉ committed.map (·.id) ++ failed.map (·.id) := by
    intro id hid
    rcases mem_append.mp hid with hc | hf
    · obtain ⟨p, hp, rfl⟩ := mem_map.mp hc
      exact (hkeep p.id p.entry (h'.committed_eq p hp)).2
    obtain ⟨p, hp, rfl⟩ := mem_map.mp hf
    exact (hkeep p.id p.entry (h'.failed_eq p hp)).2
  have hperm : ((committed ++ committed').map (·.id) ++ (failed ++ failed').map (·.id)).Perm
      ((committed.map (·.id) ++ failed.map (·.id)) ++ (committed'.map (·.id) ++ failed'.map (·.id))) := by
    rw [perm_iff_count]
    intro id
    simp only [map_append, count_append]
    omega
  refine ⟨fun p hp => ?_, fun p hp => ?_, ?_, fun id => ?_⟩
  · rcases mem_append.mp hp with hp | hp
    · exact h.committed_eq p hp
    · exact (hkeep p.id p.entry (h'.committed_eq p hp)).1
  · rcases mem_append.mp hp with hp | hp
    · exact h.failed_eq p hp
    · exact (hkeep p.id p.entry (h'.failed_eq p hp)).1
  · rw [hperm.nodup_iff, nodup_append]
    exact ⟨h.nodup, h'.nodup, fun a ha b hb hab => hdisj b hb (hab ▸ ha)⟩
  rw [h'.after_eq id, h.after_eq id]
  simp only [hperm.mem_iff, mem_append (t := committed'.map (·.id) ++ failed'.map (·.id))]
  by_cases h1 : id ∈ committed.map (·.id) ++ failed.map (·.id)
  · simp [h1]
  · simp [h1]

/-! ## Views -/

/-- What a batch is about: the durable part of a core, its pending batch and its proposals. -/
structure View where
  localID : Nat
  voters : VoterSet
  hardState : HardState
  log : Log
  ready : Ready
  hasPending : Bool
  proposals : Nat → Option Entry

def Core.view (c : Core) : View where
  localID := c.localID
  voters := c.voters
  hardState := c.hardState
  log := c.log
  ready := c.pendingReady
  hasPending := c.hasPending
  proposals := c.pendingProposals

/-- What the durable part of a core always satisfies. -/
structure View.Sound (v : View) : Prop where
  voter : v.localID ∈ v.voters.voters
  log : v.log.Valid
  commit : v.log.commitIndex = v.hardState.commitIndex
  terms : v.log.lastTerm ≤ v.hardState.term
  vote : v.hardState.votedFor = 0 ∨ (v.hardState.term ≠ 0 ∧ v.hardState.votedFor ∈ v.voters.voters)
  proposal : v.proposals 0 = none

/-- Nothing is pending. -/
structure View.Idle (v : View) : Prop where
  sound : v.Sound
  empty : v.ready = .empty
  settled : v.hasPending = false

/-- The unstable entries replace the log from some position past the commit index on. -/
inductive LogChange (l l' : Log) : List Entry → Prop where
  | same (eq : l'.entries = l.entries) : LogChange l l' []
  | cut (k : Nat) (entries : List Entry) (nonempty : entries ≠ [])
      (after : l.commitIndex - l.snapshotIndex ≤ k) (within : k ≤ l.entries.length)
      (eq : l'.entries = l.entries.take k ++ entries) : LogChange l l' entries

lemma LogChange.congr {l l' l'' : Log} (h : LogChange l l' entries) (heq : l''.entries = l'.entries) :
    LogChange l l'' entries := by
  cases h with
  | same eq => exact .same (heq.trans eq)
  | cut k entries hne haft hwithin eq => exact .cut k entries hne haft hwithin (heq.trans eq)

/-! ## What messages may say -/

/-- An append request carries a stretch of the leader's log; only its last part may be new. -/
structure SaysAppend (v w : View) (r : AppendEntriesRequest) (requires : DurabilityPrerequisite) : Prop where
  leader : r.leaderID = w.localID
  term : r.term = w.hardState.term
  same_term : w.hardState.term = v.hardState.term
  commit : r.leaderCommit = w.log.commitIndex
  prev_le : r.prevLogIndex ≤ v.log.lastIndex
  prev : w.log.term r.prevLogIndex = .ok r.prevLogTerm
  entries : r.entries = (w.log.entries.drop (r.prevLogIndex - w.log.snapshotIndex)).take r.entries.length
  grown : ∃ added, w.log.entries = v.log.entries ++ added
  requires_eq : requires = ⟨decide (v.log.commitIndex < w.log.commitIndex),
    if r.entries ≠ [] ∧ v.log.lastIndex < r.prevLogIndex + r.entries.length then
      r.prevLogIndex + r.entries.length else 0⟩

/-- A snapshot request carries a piece of `snapshot`. -/
structure CutFrom (snapshot : Snapshot) (r : InstallSnapshotRequest) : Prop where
  id : r.snapshotID = snapshot.id
  metadata : (snapshotTransferMetadataFor r).metadata = snapshot.metadata
  checksum : r.checksum = snapshot.stateChecksum
  total : r.totalLength = snapshot.state.length
  stop : r.offset + r.chunk.length ≤ snapshot.state.length
  chunk : r.chunk = (snapshot.state.drop r.offset).take r.chunk.length

/-- The claim of a successful append response: the position it names is in the log, and is the
    log's last one when the batch replaces entries. -/
structure SaysMatch (v w : View) (matchIndex : Nat) (requires : DurabilityPrerequisite) : Prop where
  base_le : w.log.snapshotIndex ≤ matchIndex
  le_last : matchIndex ≤ w.log.lastIndex
  last : w.ready.entries ≠ [] → matchIndex = w.log.lastIndex
  requires_eq : requires = ⟨decide (v.hardState.term < w.hardState.term ∨ v.log.commitIndex < w.log.commitIndex),
    if w.ready.entries = [] then 0 else matchIndex⟩

/-- What a message of a batch may say, and which prerequisite it has to declare for it. -/
def Says (snapshot : Option Snapshot) (v w : View) (m : PeerMessage) : Prop :=
  match m.rpc with
  | .preVoteRequest r => r.currentTerm = v.hardState.term ∧ m.requires = .nothing
  | .preVoteResponse r => r.term = v.hardState.term ∧ m.requires = .nothing
  | .requestVoteRequest r =>
    r.candidateID = w.localID ∧ r.term = w.hardState.term ∧ w.hardState.votedFor = w.localID ∧
      r.lastLogIndex = w.log.lastIndex ∧ r.lastLogTerm = w.log.lastTerm ∧
      v.hardState.term < w.hardState.term ∧ m.requires = ⟨true, 0⟩
  | .requestVoteResponse r =>
    r.responderID = w.localID ∧ r.term = w.hardState.term ∧
      (r.granted = true → r.requestTerm = w.hardState.term ∧ w.hardState.votedFor = r.candidateID) ∧
      m.requires = ⟨decide (v.hardState.term < w.hardState.term ∨
        (r.granted = true ∧ v.hardState.votedFor ≠ r.candidateID)), 0⟩
  | .appendEntriesRequest r => SaysAppend v w r m.requires
  | .appendEntriesResponse r =>
    r.responderID = w.localID ∧ r.term = w.hardState.term ∧
      if r.success then r.requestTerm = w.hardState.term ∧ SaysMatch v w r.matchIndex m.requires
      else m.requires = ⟨decide (v.hardState.term < w.hardState.term), 0⟩
  | .installSnapshotRequest r =>
    r.leaderID = w.localID ∧ r.term = v.hardState.term ∧ w.hardState.term = v.hardState.term ∧
      m.requires = .nothing ∧ ∃ s, snapshot = some s ∧ CutFrom s r
  | .installSnapshotResponse r =>
    r.term = w.hardState.term ∧ m.requires = ⟨decide (v.hardState.term < w.hardState.term), 0⟩
  | _ => False

/-- `Says` reads only the durable part and the unstable entries. -/
lemma Says.congr {snapshot : Option Snapshot} {v w w' : View} {m : PeerMessage}
    (h : Says snapshot v w m) (hid : w'.localID = w.localID) (hhard : w'.hardState = w.hardState)
    (hlog : w'.log = w.log) (hents : w'.ready.entries = w.ready.entries) : Says snapshot v w' m := by
  have happend : ∀ r p, SaysAppend v w r p → SaysAppend v w' r p := by
    intro r p ⟨h1, h2, h3, h4, h5, h6, h7, h8, h9⟩
    refine ⟨?_, ?_, ?_, ?_, h5, ?_, ?_, ?_, ?_⟩ <;> simp only [hid, hhard, hlog] <;> assumption
  have hmch : ∀ i p, SaysMatch v w i p → SaysMatch v w' i p := by
    intro i p ⟨h1, h2, h3, h4⟩
    refine ⟨?_, ?_, ?_, ?_⟩ <;> simp only [hhard, hlog, hents] <;> assumption
  unfold Says at h ⊢
  cases hr : m.rpc with
  | appendEntriesRequest r => rw [hr] at h; exact happend r _ h
  | appendEntriesResponse =>
    rw [hr] at h
    simp only at h ⊢
    rw [hid, hhard]
    refine ⟨h.1, h.2.1, ?_⟩
    split
    · next hs => rw [if_pos hs] at h; exact ⟨h.2.2.1, hmch _ _ h.2.2.2⟩
    · next hs => rw [if_neg hs] at h; exact h.2.2
  | handshake | handshakeAck | preVoteRequest | preVoteResponse | errorResponse => rw [hr] at h; exact h
  | requestVoteRequest => rw [hr] at h; simpa only [hid, hhard, hlog] using h
  | requestVoteResponse | installSnapshotRequest => rw [hr] at h; simpa only [hid, hhard] using h
  | installSnapshotResponse => rw [hr] at h; simpa only [hhard] using h

/-! ## Batches -/

/-- Every difference between `v` and `w` is in the batch of `w`. `before` are the proposals the
    owner waits for, those of `v` and the one it may just have made. -/
structure Output (snapshot : Option Snapshot) (before : Nat → Option Entry) (v w : View) : Prop where
  localID : w.localID = v.localID
  voters : w.voters = v.voters
  sound : w.Sound
  base_index : w.log.snapshotIndex = v.log.snapshotIndex
  base_term : w.log.snapshotTerm = v.log.snapshotTerm
  applied : w.log.appliedIndex = v.log.appliedIndex
  commit_le : v.log.commitIndex ≤ w.log.commitIndex
  token : w.ready.token = 0
  hard : w.ready.hardState = if w.hardState = v.hardState then none else some w.hardState
  advances : hardStateAdvances v.hardState w.hardState = true
  entries : LogChange v.log w.log w.ready.entries
  committed : w.ready.committedEntries = (w.log.entries.drop (v.log.commitIndex - v.log.snapshotIndex)).take
      (w.log.commitIndex - v.log.commitIndex)
  addressed : ∀ m ∈ w.ready.messages, m.toID ∈ v.voters.peers v.localID
  messages : ∀ m ∈ w.ready.messages, Says snapshot v w m
  actions_le : w.ready.snapshotActions.length ≤ 1
  actions : ∀ a ∈ w.ready.snapshotActions,
    a.request.leaderID ∈ v.voters.peers v.localID ∧ a.request.Valid maxRaftSnapshotBytes
  resolves : Resolves before w.proposals w.ready.committedProposals w.ready.failedProposals
  reported : ∀ p ∈ w.ready.committedProposals, p.entry ∈ w.ready.committedEntries
  quiet : w.hasPending = false → w.ready = .empty

lemma hardStateAdvances_refl (h : HardState) : hardStateAdvances h h = true := by simp [hardStateAdvances]

lemma hardStateAdvances_iff {h h' : HardState} : hardStateAdvances h h' = true ↔
    h.term ≤ h'.term ∧ h.commitIndex ≤ h'.commitIndex ∧
      (h'.term = h.term → h.votedFor = 0 ∨ h'.votedFor = h.votedFor) := by
  simp only [hardStateAdvances, not_or, not_lt, not_and, not_not, decide_eq_true_eq]
  constructor
  · rintro ⟨⟨h1, h2⟩, h3⟩
    exact ⟨h1, h2, fun ht => Decidable.or_iff_not_imp_left.mpr (h3 ht)⟩
  rintro ⟨h1, h2, h3⟩
  exact ⟨⟨h1, h2⟩, fun ht => Decidable.or_iff_not_imp_left.mp (h3 ht)⟩

section Rules

variable {snapshot : Option Snapshot} {before : Nat → Option Entry} {v w : View}

lemma Output.term_le (h : Output snapshot before v w) : v.hardState.term ≤ w.hardState.term :=
  (hardStateAdvances_iff.mp h.advances).1

/-- An idle core has nothing to account for. -/
lemma Output.start (h : v.Idle) : Output snapshot v.proposals v v := by
  have he := h.empty
  refine ⟨rfl, rfl, h.sound, rfl, rfl, rfl, le_rfl, by rw [he]; rfl, by rw [he]; simp [Ready.empty],
    hardStateAdvances_refl _, by rw [he]; exact .same rfl, by rw [he]; simp [Ready.empty],
    by rw [he]; simp [Ready.empty], by rw [he]; simp [Ready.empty], by rw [he]; simp [Ready.empty],
    by rw [he]; simp [Ready.empty], by rw [he]; exact .refl _, by rw [he]; simp [Ready.empty],
    fun _ => he⟩

section

variable (h : Output snapshot before v w)

include h

/-- Queue a message. -/
lemma Output.message {m : PeerMessage} (ha : m.toID ∈ v.voters.peers v.localID) (hm : Says snapshot v w m) :
    Output snapshot before v { w with
      ready := { w.ready with messages := w.ready.messages ++ [m] }, hasPending := true } :=
  { h with
    sound := ⟨h.sound.voter, h.sound.log, h.sound.commit, h.sound.terms, h.sound.vote, h.sound.proposal⟩
    addressed := by
      intro m' hm'
      rcases mem_append.mp hm' with h' | h'
      · exact h.addressed m' h'
      rw [mem_singleton.mp h']
      exact ha
    messages := by
      intro m' hm'
      rcases mem_append.mp hm' with h' | h'
      · exact (h.messages m' h').congr rfl rfl rfl rfl
      rw [mem_singleton.mp h']
      exact hm.congr rfl rfl rfl rfl
    quiet := by simp }

/-- Record a hard state with a new term or vote. -/
lemma Output.harden (hs : HardState) (hmsg : w.ready.messages = [])
    (hadv : hardStateAdvances v.hardState hs = true) (hne : hs ≠ v.hardState)
    (hcmt : hs.commitIndex = w.hardState.commitIndex) (hterm : w.hardState.term ≤ hs.term)
    (hvote : hs.votedFor = 0 ∨ (hs.term ≠ 0 ∧ hs.votedFor ∈ w.voters.voters)) :
    Output snapshot before v { w with
      hardState := hs, ready := { w.ready with hardState := some hs }, hasPending := true } :=
  { h with
    sound := ⟨h.sound.voter, h.sound.log, h.sound.commit.trans hcmt.symm,
      h.sound.terms.trans hterm, hvote, h.sound.proposal⟩
    hard := by simp [hne]
    advances := hadv
    messages := by simp [hmsg]
    quiet := by simp }

/-- Put new entries into the log, and queue them. -/
lemma Output.record (l : Log) (entries : List Entry) (pending : Bool) (hmsg : w.ready.messages = [])
    (hchg : LogChange v.log l (w.ready.entries ++ entries)) (hl : l.Valid)
    (hbase : l.snapshotIndex = w.log.snapshotIndex) (hterm : l.snapshotTerm = w.log.snapshotTerm)
    (happ : l.appliedIndex = w.log.appliedIndex) (hcmt : l.commitIndex = w.log.commitIndex)
    (hsame : w.log.commitIndex = v.log.commitIndex) (hlast : l.lastTerm ≤ w.hardState.term)
    (hpend : pending = false → w.hasPending = false ∧ entries = []) :
    Output snapshot before v { w with
      log := l, ready := { w.ready with entries := w.ready.entries ++ entries },
      hasPending := pending } :=
  { h with
    sound := ⟨h.sound.voter, hl, hcmt.trans h.sound.commit, hlast, h.sound.vote, h.sound.proposal⟩
    base_index := hbase.trans h.base_index
    base_term := hterm.trans h.base_term
    applied := happ.trans h.applied
    commit_le := by simpa only [hcmt] using h.commit_le
    entries := hchg
    committed := by
      have := h.committed
      simp only [hcmt, hsame, Nat.sub_self, take_zero] at this ⊢
      exact this
    messages := by simp [hmsg]
    quiet := by
      intro hp
      obtain ⟨h1, h2⟩ := hpend hp
      simp only [h.quiet h1, h2]
      rfl }

/-- Queue the one snapshot action of a batch. -/
lemma Output.action (hnone : w.ready.snapshotActions = []) {a : SnapshotAction}
    (hl : a.request.leaderID ∈ v.voters.peers v.localID) (hv : a.request.Valid maxRaftSnapshotBytes) :
    Output snapshot before v { w with
      ready := { w.ready with snapshotActions := w.ready.snapshotActions ++ [a] },
      hasPending := true } :=
  { h with
    sound := ⟨h.sound.voter, h.sound.log, h.sound.commit, h.sound.terms, h.sound.vote, h.sound.proposal⟩
    messages := fun m hm => (h.messages m hm).congr rfl rfl rfl rfl
    actions_le := by simp [hnone]
    actions := by
      intro a' ha'
      simp only [hnone, nil_append, mem_singleton] at ha'
      rw [ha']
      exact ⟨hl, hv⟩
    quiet := by simp }

end

lemma Resolves.zero {before : Nat → Option Entry} (h : Resolves before after committed failed)
    (h0 : before 0 = none) : after 0 = none := by
  rw [h.after_eq 0]
  split
  · rfl
  · exact h0

/-- Report failed proposals. -/
lemma Output.fail (h : Output snapshot before v w) (hr : Resolves w.proposals pending [] failed)
    (hp : Bool) (hpend : hp = false → w.hasPending = false ∧ failed = []) :
    Output snapshot before v { w with
      ready := { w.ready with failedProposals := w.ready.failedProposals ++ failed },
      hasPending := hp, proposals := pending } :=
  { h with
    sound := ⟨h.sound.voter, h.sound.log, h.sound.commit, h.sound.terms, h.sound.vote, hr.zero h.sound.proposal⟩
    messages := fun m hm => (h.messages m hm).congr rfl rfl rfl rfl
    resolves := by simpa using h.resolves.trans hr
    quiet := by
      intro hfalse
      obtain ⟨h1, h2⟩ := hpend hfalse
      simp only [h.quiet h1, h2]
      rfl }

/-- Advance the commit index and hand out what became committed. -/
lemma Output.commit (h : Output snapshot before v w) (hmsg : w.ready.messages = []) {k : Nat}
    (hlo : w.log.commitIndex < k) (hhi : k ≤ w.log.lastIndex)
    (hsame : w.log.commitIndex = v.log.commitIndex) (hr : Resolves w.proposals pending committed failed)
    (hents : entries =
      (w.log.entries.drop (w.log.commitIndex - w.log.snapshotIndex)).take (k - w.log.commitIndex))
    (hrep : ∀ p ∈ committed, p.entry ∈ entries) :
    Output snapshot before v { w with
      log := { w.log with commitIndex := k }
      hardState := { w.hardState with commitIndex := k }
      ready := { w.ready with
        hardState := some { w.hardState with commitIndex := k }
        committedEntries := w.ready.committedEntries ++ entries
        committedProposals := w.ready.committedProposals ++ committed
        failedProposals := w.ready.failedProposals ++ failed }
      hasPending := true
      proposals := pending } := by
  have hnil : w.ready.committedEntries = [] := by
    have := h.committed
    rwa [hsame, Nat.sub_self, take_zero] at this
  have hadv := hardStateAdvances_iff.mp h.advances
  have hcmt := h.sound.commit
  refine
  { h with
    sound := ⟨h.sound.voter, h.sound.log.setCommit hlo.le hhi, rfl, h.sound.terms, h.sound.vote,
      hr.zero h.sound.proposal⟩
    commit_le := (h.commit_le.trans hlo.le)
    hard := ?_
    advances := hardStateAdvances_iff.mpr ⟨hadv.1, ?_, hadv.2.2⟩
    entries := ?_
    committed := ?_
    messages := by simp [hmsg]
    resolves := h.resolves.trans hr
    reported := ?_
    quiet := by simp }
  · rw [if_neg]
    intro heq
    have := congrArg HardState.commitIndex heq
    simp only at this
    have := hadv.2.1
    omega
  · exact hadv.2.1.trans (by simp only; omega)
  · exact h.entries.congr rfl
  · simp only [hnil, nil_append]
    rw [hents, h.base_index, hsame]
  intro p hp
  rcases mem_append.mp hp with hp | hp
  · have := h.reported p hp
    rw [hnil] at this
    cases this
  · exact mem_append_right _ (hrep p hp)

end Rules

end Crane.Raft
