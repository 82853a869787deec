import Crane.Raft.Leading

/-!
# Becoming a follower

Everything that makes a voter a follower — a higher term, contact with a leader, a lost quorum —
is one shape, `Demotes`: the records of a leader are gone, the log is as it was, and the hard state
is either the old one or an empty vote in a higher term.
-/

namespace Crane.Raft

open Program

variable {term : Nat} {c1 : Core}

namespace Core

/-! ## The shape -/

/-- Up to volatile fields, `c'` is `c` in term `max term (term of c)`: proposals may have failed
    and a transfer may have been given up, but nothing else happened. -/
structure Yields (snapshot : Option Snapshot) (term : Nat) (c c' : Core) : Prop where
  output : Output snapshot c.pendingProposals c.view c'.view
  hard : c'.hardState = if c.hardState.term < term then ⟨term, 0, c.hardState.commitIndex⟩
    else c.hardState
  log : c'.log = c.log
  messages : c'.pendingReady.messages = []
  entries : c'.pendingReady.entries = []
  incoming : (c'.incomingSnapshot = c.incomingSnapshot ∧ c'.pendingReady.snapshotActions = [] ∧
      (c.incomingSnapshot = none ∨ c'.hardState.term = c.hardState.term)) ∨
    (c'.incomingSnapshot = none ∧ c'.pendingReady.snapshotActions = c.aborts)
  localID : c'.localID = c.localID
  voters : c'.voters = c.voters
  limits : c'.appendLimits = c.appendLimits
  terminal : c'.terminalErr = c.terminalErr
  done : c'.snapshotActionDone = c.snapshotActionDone

/-- `c'` is `c` as a follower. -/
structure Demotes (snapshot : Option Snapshot) (term : Nat) (c c' : Core) : Prop
    extends Yields snapshot term c c' where
  role : c'.role = .follower
  votes : ∀ v ∈ c'.votes, v ∈ c.votes
  progress : c'.progress = fun _ => none
  outgoing : c'.outgoingSnapshots = fun _ => none

variable {snapshot : Option Snapshot} {c c' : Core}

/-- The term of a voter that met the sender of a request. -/
lemma Yields.term_eq (hd : Yields snapshot term c c') (hle : c.hardState.term ≤ term) :
    c'.hardState.term = term := by
  rw [hd.hard]
  split
  · rfl
  · omega

lemma Demotes.roles (h : Demotes snapshot term c c') (hc : c.Settled snapshot) : c'.Roles snapshot := by
  refine .quiet (h.limits ▸ hc.roles.limits) (fun v hv => ?_) (by rw [h.role]; simp) h.progress
    h.outgoing fun i hi => ?_
  · rw [h.voters]
    exact hc.roles.votes v (h.votes v hv)
  rcases h.incoming with ⟨heq, -, hsame⟩ | ⟨hnone, -⟩
  · rw [heq] at hi
    obtain ⟨-, a2, a3, a4, a5⟩ := hc.roles.incoming i hi
    have hterm : c'.hardState.term = c.hardState.term := by
      rcases hsame with h' | h'
      · rw [h'] at hi
        cases hi
      · exact h'
    refine ⟨.inl h.role, a2, by rw [hterm]; exact a3, ?_, a5⟩
    unfold peers
    rw [h.voters, h.localID]
    exact a4
  rw [hnone] at hi
  cases hi

lemma mem_aborts {a : SnapshotAction} (ha : a ∈ c.aborts) :
    a.kind = .abort ∧ ∃ i, c.incomingSnapshot = some i ∧ a.request = i.request := by
  unfold aborts at ha
  cases hi : c.incomingSnapshot with
  | none => rw [hi] at ha; cases ha
  | some i =>
    rw [hi] at ha
    simp only [Option.elim_some, List.mem_singleton] at ha
    exact ⟨by rw [ha], i, rfl, by rw [ha]⟩

lemma Demotes.move (h : Demotes snapshot term c c') (rpc : Option RPC) : Move rpc c c' := by
  have hhard := h.hard
  split at hhard
  · next hlt => exact .raise (by rw [hhard]; exact hlt) (by rw [hhard]) h.log h.role
  · exact .stay hhard h.log (.inr (.inl h.role))

/-- An event that made the voter a follower and did nothing else. -/
lemma Demotes.handled (h : Demotes snapshot term c c') (hc : c.Settled snapshot) (rpc : Option RPC) :
    Handled snapshot c.pendingProposals rpc c c' where
  output := h.output
  roles := h.roles hc
  terminal := h.terminal.trans hc.terminal
  done := h.done.trans hc.done
  move := h.move rpc
  votes := by
    intro _ hr
    rw [h.role] at hr
    simp at hr
  matched := by
    intro id
    left
    simp [progressOf, h.progress, Progress.zero]
  leads := by simp [h.messages]
  acks := by simp [h.messages]
  actions := by
    intro a ha
    left
    rcases h.incoming with ⟨-, hnil, -⟩ | ⟨-, heq⟩
    · rw [hnil] at ha
      cases ha
    · exact mem_aborts (heq ▸ ha)
  staged := by
    intro i hi
    left
    rcases h.incoming with ⟨heq, -⟩ | ⟨hnone, -⟩
    · rwa [heq] at hi
    rw [hnone] at hi
    cases hi

/-- `c'` is `c` after it moved to a higher term. -/
structure Adopts (term : Nat) (c c' : Core) : Prop where
  frame : c' = { c with
    hardState := ⟨term, 0, c.hardState.commitIndex⟩
    role := .follower
    leaderID := c'.leaderID
    recentLeader := c'.recentLeader
    preVotes := c'.preVotes
    votes := ∅
    progress := fun _ => none
    outgoingSnapshots := fun _ => none
    quorumResponses := c'.quorumResponses
    electionDeadline := c'.electionDeadline
    deadlineExhausted := c'.deadlineExhausted
    incomingSnapshot := none
    pendingReady := { c.pendingReady with
      hardState := c'.pendingReady.hardState
      failedProposals := c'.pendingReady.failedProposals
      snapshotActions := c.pendingReady.snapshotActions ++ c.aborts }
    hasPending := c'.hasPending
    pendingProposals := c'.pendingProposals
    pendingProposalOrder := c'.pendingProposalOrder
    proposalAtIndex := c'.proposalAtIndex }

lemma adoptHigherTerm_output {before : Nat → Option Entry} {v : View}
    (h : Output snapshot before v c.view) (hmsg : c.pendingReady.messages = [])
    (hhard : c.hardState = v.hardState) (hlt : v.hardState.term < term)
    (hact : c.incomingSnapshot = none ∨ c.pendingReady.snapshotActions = [])
    (habort : ∀ i, c.incomingSnapshot = some i →
      i.request.leaderID ∈ v.voters.peers v.localID ∧ i.request.Valid maxRaftSnapshotBytes) :
    Output snapshot before v (c.adoptHigherTerm term).view ∧ Adopts term c (c.adoptHigherTerm term) := by
  obtain ⟨failed, hf⟩ := failPendingProposals_fails c .proposalFailed
  have hout := hf.output h
  have hfrm := hf.frame
  unfold adoptHigherTerm
  generalize c.failPendingProposals .proposalFailed = c1 at hf hout hfrm ⊢
  have hinc : c1.incomingSnapshot = c.incomingSnapshot := by rw [hfrm]
  have hact1 : c1.pendingReady.snapshotActions = c.pendingReady.snapshotActions := by rw [hfrm]
  have hout' : Output snapshot before v c1.cancelIncomingSnapshot.view := by
    rcases hact with hnone | hnil
    · have : c1.cancelIncomingSnapshot = c1 := by
        unfold cancelIncomingSnapshot
        rw [hinc, hnone]
      rw [this]
      exact hout
    · exact cancelIncomingSnapshot_output hout (hact1.trans hnil) fun i hi => habort i (hinc ▸ hi)
  have hcancel := cancelIncomingSnapshot_eq c1
  have haborts : c1.aborts = c.aborts := by rw [aborts, aborts, hinc]
  rw [haborts, hact1] at hcancel
  simp only
  generalize c1.cancelIncomingSnapshot = c2 at hout' hcancel ⊢
  have hhard2 : c2.hardState = c.hardState := by rw [hcancel, hfrm]
  refine ⟨?_, ⟨?_⟩⟩
  · refine hout'.harden { c2.hardState with term := term, votedFor := 0 } ?_
      (hardStateAdvances_iff.mpr ⟨hlt.le, ?_, fun heq => ?_⟩) ?_ rfl ?_ (.inl rfl)
    · change c2.pendingReady.messages = []
      rw [hcancel, hfrm]
      exact hmsg
    · rw [hhard2, hhard]
    · simp only at heq
      omega
    · intro heq
      have : term = v.hardState.term := congrArg HardState.term heq
      omega
    change c2.hardState.term ≤ term
    rw [hhard2, hhard]
    exact hlt.le
  simp only [recordHardState, hhard2]
  rw [hcancel, hfrm]

lemma Settled.yields (h : c.Settled snapshot) (hle : term ≤ c.hardState.term) : Yields snapshot term c c := by
  have hrdy := h.ready
  refine ⟨h.start, by rw [if_neg (by omega)], rfl, by rw [hrdy]; rfl, by rw [hrdy]; rfl,
    .inl ⟨rfl, by rw [hrdy]; rfl, .inr rfl⟩, rfl, rfl, rfl, rfl, rfl⟩

/-- Giving up the transfer in progress. -/
lemma Settled.cancel (h : c.Settled snapshot) (hle : term ≤ c.hardState.term) :
    Yields snapshot term c c.cancelIncomingSnapshot := by
  have hrdy := h.ready
  have hout := cancelIncomingSnapshot_output h.start (by rw [hrdy]; rfl) h.abortable
  have hfrm := cancelIncomingSnapshot_eq c
  generalize c.cancelIncomingSnapshot = c' at hout hfrm ⊢
  refine ⟨hout, ?_, ?_, ?_, ?_, .inr ⟨?_, ?_⟩, ?_, ?_, ?_, ?_, ?_⟩ <;> rw [hfrm]
  · rw [if_neg (by omega)]
  · rw [hrdy]
    rfl
  · rw [hrdy]
    rfl
  rw [hrdy]
  rfl

lemma Yields.fail {c2 : Core} (h : Yields snapshot term c c1) {failed : List FailedProposal}
    (hf : Fails c1 failed c2) : Yields snapshot term c c2 := by
  have hout := hf.output h.output
  have hfrm := hf.frame
  refine ⟨hout, ?_, ?_, ?_, ?_, ?_, ?_, ?_, ?_, ?_, ?_⟩ <;> rw [hfrm]
  · exact h.hard
  · exact h.log
  · exact h.messages
  · exact h.entries
  · exact h.incoming
  · exact h.localID
  · exact h.voters
  · exact h.limits
  · exact h.terminal
  · exact h.done

lemma Yields.adopt {term' : Nat} (hc : c.Settled snapshot) (h : Yields snapshot term' c c1)
    (hsame : c1.hardState = c.hardState) (hlt : c.hardState.term < term) :
    Demotes snapshot term c (c1.adoptHigherTerm term) := by
  have hact : c1.incomingSnapshot = none ∨ c1.pendingReady.snapshotActions = [] := by
    rcases h.incoming with ⟨-, hnil, -⟩ | ⟨hnone, -⟩
    · exact .inr hnil
    · exact .inl hnone
  have habort : ∀ i, c1.incomingSnapshot = some i →
      i.request.leaderID ∈ c.view.voters.peers c.view.localID ∧ i.request.Valid maxRaftSnapshotBytes := by
    intro i hi
    rcases h.incoming with ⟨heq, -⟩ | ⟨hnone, -⟩
    · exact hc.abortable i (heq ▸ hi)
    rw [hnone] at hi
    cases hi
  obtain ⟨hout, hadopts⟩ := adoptHigherTerm_output h.output h.messages hsame hlt hact habort
  have hfrm := hadopts.frame
  have hactions : c1.pendingReady.snapshotActions ++ c1.aborts = c.aborts := by
    rcases h.incoming with ⟨heq, hnil, -⟩ | ⟨hnone, heq⟩
    · rw [hnil, aborts, aborts, heq, List.nil_append]
    rw [heq]
    simp [aborts, hnone]
  generalize c1.adoptHigherTerm term = c' at hout hfrm ⊢
  refine ⟨⟨hout, ?_, ?_, ?_, ?_, .inr ⟨?_, ?_⟩, ?_, ?_, ?_, ?_, ?_⟩, ?_, ?_, ?_, ?_⟩ <;>
    rw [hfrm]
  · rw [if_pos hlt, hsame]
  · exact h.log
  · exact h.messages
  · exact h.entries
  · exact hactions
  · exact h.localID
  · exact h.voters
  · exact h.limits
  · exact h.terminal
  · exact h.done
  · simp

section

variable (h : c.Settled snapshot)

include h

lemma adoptHigherTerm_demotes (hlt : c.hardState.term < term) :
    Demotes snapshot term c (c.adoptHigherTerm term) :=
  (h.yields le_rfl).adopt h rfl hlt

lemma stepDownWithoutTermChange_demotes (now sample : Nat) :
    Demotes snapshot 0 c (({ c with now } : Core).stepDownWithoutTermChange now sample) := by
  unfold stepDownWithoutTermChange
  simp only
  generalize hx : ({ c with
    now := now
    deadlineExhausted := (deadlineOrExhausted { c with now } now sample).2
    role := .follower
    leaderID := 0
    recentLeader := false
    progress := fun _ => none
    outgoingSnapshots := fun _ => none
    quorumResponses := ∅
    electionDeadline := (deadlineOrExhausted { c with now } now sample).1 } : Core) = c1
  obtain ⟨failed, hf⟩ := failPendingProposals_fails c1 .proposalFailed
  have hrdy := h.ready
  have hyields : Yields snapshot 0 c c1 := by
    subst hx
    exact ⟨h.start, by rw [if_neg (by omega)], rfl, by simp only [hrdy]; rfl,
      by simp only [hrdy]; rfl, .inl ⟨rfl, by simp only [hrdy]; rfl, .inr rfl⟩, rfl, rfl,
      rfl, rfl, rfl⟩
  refine ⟨hyields.fail hf, ?_, ?_, ?_, ?_⟩ <;> rw [hf.frame] <;> subst hx
  · rfl
  · exact fun v hv => hv
  · rfl
  · rfl

lemma cancelForeignSnapshot_yields (leaderID term : Nat) :
    Yields snapshot c.hardState.term c (c.cancelForeignSnapshot leaderID term) ∧
      (c.cancelForeignSnapshot leaderID term).hardState = c.hardState := by
  unfold cancelForeignSnapshot
  split
  · exact ⟨h.yields le_rfl, rfl⟩
  split
  · exact ⟨h.cancel le_rfl, by rw [cancelIncomingSnapshot_eq]⟩
  · exact ⟨h.yields le_rfl, rfl⟩

lemma yieldTo_yields (leaderID : Nat) (hle : c.hardState.term ≤ term)
    (hy : Yields snapshot c.hardState.term c c1) (hsame : c1.hardState = c.hardState) :
    Yields snapshot term c (c1.yieldTo leaderID term) := by
  unfold yieldTo
  rw [hsame]
  split
  · next hlt => exact (hy.adopt h hsame hlt).toYields
  next hnot =>
  obtain rfl : term = c.hardState.term := by omega
  split
  · obtain ⟨failed, hf⟩ := failPendingProposals_fails c1 .proposalFailed
    exact hy.fail hf
  · exact hy

/-- Contact with a leader of the current or a later term. -/
lemma handleLeaderContact_demotes (leaderID : Nat) (sample : Nat) (hle : c.hardState.term ≤ term) :
    Demotes snapshot term c (c.handleLeaderContact leaderID term sample) := by
  obtain ⟨hy1, hsame⟩ := cancelForeignSnapshot_yields h leaderID term
  unfold handleLeaderContact
  rw [if_neg (by omega)]
  obtain ⟨a1, a2, a3, a4, a5, a6, a7, a8, a9, a₁₀, a₁₁⟩ := yieldTo_yields h leaderID hle hy1 hsame
  exact ⟨⟨a1, a2, a3, a4, a5, a6, a7, a8, a9, a₁₀, a₁₁⟩, rfl, by simp, rfl, rfl⟩

end

end Core

end Crane.Raft
