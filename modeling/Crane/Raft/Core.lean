import Crane.Program.Ensures
import Crane.Raft.Storage

/-!
# The protocol core

`core.go` and `ready.go`: one voter's deterministic state machine. A method that cannot fail is
a function on `Core`; one that can is a `CoreM` program, which fails with the core as the
failure left it. Protocol output is queued in `pendingReady` and handed out as one batch; no
input is taken while a batch is pending.

Maps are functions with `none` for an absent key, and an absent map is an empty one. The random
source is an argument: a method that samples a deadline takes the sample, at most one a call.
-/

namespace Crane.Raft

open Program

/-! ## Output batches -/

structure DurabilityPrerequisite where
  hardState : Bool
  entriesThrough : Nat
  deriving DecidableEq

def DurabilityPrerequisite.nothing : DurabilityPrerequisite := ⟨false, 0⟩

structure PeerMessage where
  toID : Nat
  rpc : RPC
  requires : DurabilityPrerequisite
  deriving DecidableEq

structure CommittedProposal where
  id : Nat
  entry : Entry
  deriving DecidableEq

structure FailedProposal where
  id : Nat
  entry : Entry
  err : RaftError
  deriving DecidableEq

inductive SnapshotActionKind where
  | stage
  | abort
  deriving DecidableEq

structure SnapshotAction where
  kind : SnapshotActionKind
  request : InstallSnapshotRequest
  reset : Bool
  deriving DecidableEq

structure SnapshotActionResult where
  nextOffset : Nat
  done : Bool
  state : Option RecoveredState
  rejected : Bool
  deriving DecidableEq

structure Ready where
  token : Nat
  hardState : Option HardState
  entries : List Entry
  messages : List PeerMessage
  committedEntries : List Entry
  committedProposals : List CommittedProposal
  failedProposals : List FailedProposal
  snapshotActions : List SnapshotAction
  deriving DecidableEq

def Ready.empty : Ready := ⟨0, none, [], [], [], [], [], []⟩

/-! ## The core's state -/

structure IncomingSnapshotProgress where
  metadata : SnapshotTransferMetadata
  nextOffset : Nat
  request : InstallSnapshotRequest
  deriving DecidableEq

structure OutgoingSnapshotProgress where
  term : Nat
  peerID : Nat
  transferID : Bytes
  snapshot : Snapshot
  state : Bytes
  nextOffset : Nat
  chunkLimit : Nat
  activeEnd : Nat
  deriving DecidableEq

structure Core where
  localID : Nat
  voters : VoterSet
  hardState : HardState
  log : Log
  role : Role
  leaderID : Nat
  now : Nat
  electionDeadline : Nat
  deadlineExhausted : Bool
  electionTimeoutMin : Nat
  electionTimeoutMax : Nat
  recentLeader : Bool
  heartbeatInterval : Nat
  heartbeatDeadline : Nat
  quorumDeadline : Nat
  quorumResponses : Finset Nat
  appendLimits : CodecLimits
  preVotes : Finset Nat
  votes : Finset Nat
  progress : Nat → Option Progress
  nextProposalID : Nat
  pendingProposals : Nat → Option Entry
  pendingProposalOrder : List Nat
  proposalAtIndex : Nat → Option Nat
  incomingSnapshot : Option IncomingSnapshotProgress
  outgoingSnapshots : Nat → Option OutgoingSnapshotProgress
  snapshotActionDone : Bool
  pendingReady : Ready
  hasPending : Bool
  nextToken : Nat
  terminalErr : Option RaftError

abbrev CoreM := EStateM RaftError Core

/-- Write one key of a map. -/
def put {α : Type} (m : Nat → Option α) (key : Nat) (value : α) : Nat → Option α :=
  fun k => if k = key then some value else m k

/-- Delete one key of a map. -/
def erase {α : Type} (m : Nat → Option α) (key : Nat) : Nat → Option α := fun k => if k = key then none else m k

def saturatingTickAdd (now interval : Nat) : Nat :=
  if now > maxUint64 - interval then maxUint64 else now + interval

namespace Core

/-- The peers in the order of every loop over voters that skips the local one. -/
def peers (c : Core) : List Nat := c.voters.peers c.localID

def progressOf (c : Core) (peerID : Nat) : Progress := (c.progress peerID).getD .zero

def sampleDeadline (c : Core) (now sample : Nat) : Except RaftError Nat :=
  let timeout := c.electionTimeoutMin + sample % (c.electionTimeoutMax - c.electionTimeoutMin)
  if now > maxUint64 - timeout then .error .deadlineOverflow else .ok (now + timeout)

def candidateLogIsUpToDate (c : Core) (candidateIndex candidateTerm : Nat) : Bool :=
  if candidateTerm ≠ c.log.lastTerm then candidateTerm > c.log.lastTerm
  else candidateIndex ≥ c.log.lastIndex

def hasCommittedCurrentTerm (c : Core) : Bool :=
  c.log.commitIndex ≠ 0 ∧ c.log.term c.log.commitIndex = .ok c.hardState.term

/-! ### Queueing output -/

def recordHardState (c : Core) : Core :=
  { c with
    pendingReady := { c.pendingReady with hardState := some c.hardState }
    hasPending := true }

def queueEntries (c : Core) (entries : List Entry) : Core :=
  { c with
    pendingReady := { c.pendingReady with entries := c.pendingReady.entries ++ entries }
    hasPending := true }

def queueMessage (c : Core) (toID : Nat) (rpc : RPC) (requires : DurabilityPrerequisite) : Core :=
  { c with
    pendingReady := { c.pendingReady with messages := c.pendingReady.messages ++ [⟨toID, rpc, requires⟩] }
    hasPending := true }

def queueSnapshotAction (c : Core) (action : SnapshotAction) : Core :=
  { c with
    pendingReady := { c.pendingReady with snapshotActions := c.pendingReady.snapshotActions ++ [action] }
    hasPending := true }

def cancelIncomingSnapshot (c : Core) : Core :=
  match c.incomingSnapshot with
  | none => c
  | some incoming => { c with incomingSnapshot := none }.queueSnapshotAction ⟨.abort, incoming.request, false⟩

/-! ### Proposals -/

def failProposal (reason : RaftError) (c : Core) (proposalID : Nat) : Core :=
  match c.pendingProposals proposalID with
  | none => c
  | some proposal =>
    { c with
      pendingReady :=
        { c.pendingReady with
          failedProposals := c.pendingReady.failedProposals ++ [⟨proposalID, proposal, reason⟩] }
      proposalAtIndex := erase c.proposalAtIndex proposal.index
      pendingProposals := erase c.pendingProposals proposalID
      hasPending := true }

def failPendingProposals (c : Core) (reason : RaftError) : Core :=
  { c.pendingProposalOrder.foldl (failProposal reason) c with pendingProposalOrder := [] }

def resolveCommittedProposal (c : Core) (entry : Entry) : Core :=
  match c.proposalAtIndex entry.index with
  | none => c
  | some proposalID =>
    match c.pendingProposals proposalID with
    | none => { c with proposalAtIndex := erase c.proposalAtIndex entry.index }
    | some proposal =>
      let ready :=
        if proposal = entry then
          { c.pendingReady with
            committedProposals := c.pendingReady.committedProposals ++ [⟨proposalID, proposal⟩] }
        else
          { c.pendingReady with
            failedProposals := c.pendingReady.failedProposals ++ [⟨proposalID, proposal, .proposalFailed⟩] }
      { c with
        pendingReady := ready
        pendingProposals := erase c.pendingProposals proposalID
        proposalAtIndex := erase c.proposalAtIndex entry.index
        pendingProposalOrder := c.pendingProposalOrder.erase proposalID }

/-- Queue the entries from `index` on, `count` of them, as committed. -/
def queueCommittedFrom : Nat → Nat → CoreM Unit
  | 0, _ => pure ()
  | count + 1, index => do
    let c ← get
    let entry ← lift (c.log.entry index)
    modify fun c =>
      { ({ c with
          pendingReady :=
            { c.pendingReady with
              committedEntries := c.pendingReady.committedEntries ++ [entry] } } :
          Core).resolveCommittedProposal entry with
        hasPending := true }
    if index = maxUint64 then pure () else queueCommittedFrom count (index + 1)

def queueCommittedEntries (previousCommit commitIndex : Nat) : CoreM Unit :=
  match checkedNextIndex previousCommit with
  | none => throw .logOverflow
  | some index => queueCommittedFrom (commitIndex + 1 - index) index

/-! ### Terms and leader contact -/

def adoptHigherTerm (c : Core) (term : Nat) : Core :=
  let c := (c.failPendingProposals .proposalFailed).cancelIncomingSnapshot
  let exhausted := c.now > maxUint64 - c.electionTimeoutMin
  { c with
    hardState := { c.hardState with term := term, votedFor := 0 }
    role := .follower
    leaderID := 0
    recentLeader := false
    preVotes := ∅
    votes := ∅
    progress := fun _ => none
    outgoingSnapshots := fun _ => none
    quorumResponses := ∅
    electionDeadline := if exhausted then maxUint64 else c.electionDeadline
    deadlineExhausted := if exhausted then true else c.deadlineExhausted }.recordHardState

/-- A sampled deadline, or the exhausted one where the sum would overflow. -/
def deadlineOrExhausted (c : Core) (now sample : Nat) : Nat × Bool :=
  match c.sampleDeadline now sample with
  | .ok deadline => (deadline, false)
  | .error _ => (maxUint64, true)

/-- A transfer in progress goes on only under the leader and the term it began with. -/
def cancelForeignSnapshot (c : Core) (leaderID term : Nat) : Core :=
  match c.incomingSnapshot with
  | none => c
  | some incoming =>
    if incoming.metadata.term ≠ term ∨ incoming.metadata.leaderID ≠ leaderID then
      c.cancelIncomingSnapshot
    else c

/-- Move to the leader's term, or fail the proposals of a leadership that just ended in it. -/
def yieldTo (c : Core) (leaderID term : Nat) : Core :=
  if term > c.hardState.term then c.adoptHigherTerm term
  else if c.role = .leader ∧ leaderID ≠ c.localID then c.failPendingProposals .proposalFailed
  else c

def handleLeaderContact (c : Core) (leaderID term sample : Nat) : Core :=
  if term < c.hardState.term then c
  else
    let deadline := c.deadlineOrExhausted c.now sample
    { (c.cancelForeignSnapshot leaderID term).yieldTo leaderID term with
      role := .follower
      leaderID := leaderID
      recentLeader := true
      preVotes := ∅
      votes := ∅
      progress := fun _ => none
      outgoingSnapshots := fun _ => none
      quorumResponses := ∅
      electionDeadline := deadline.1
      deadlineExhausted := deadline.2 }

def stepDownWithoutTermChange (c : Core) (now sample : Nat) : Core :=
  let deadline := c.deadlineOrExhausted now sample
  { c with
    deadlineExhausted := deadline.2
    role := .follower
    leaderID := 0
    recentLeader := false
    progress := fun _ => none
    outgoingSnapshots := fun _ => none
    quorumResponses := ∅
    electionDeadline := deadline.1 }.failPendingProposals .proposalFailed

/-! ### Replication -/

/-- Fill an append request with entries from `index` on, while they fit. -/
def gatherEntries (c : Core) : Nat → Nat → AppendEntriesRequest → Except RaftError AppendEntriesRequest
  | 0, _, request => .ok request
  | fuel + 1, index, request =>
    if request.entries.length = c.appendLimits.maxAppendEntries then .ok request
    else
      match c.log.entry index with
      | .error e => .error e
      | .ok entry =>
        let candidate := { request with entries := request.entries ++ [entry] }
        match encodeAppendRequest candidate c.appendLimits with
        | .error .rpcTooLarge => .ok request
        | .error e => .error e
        | .ok _ =>
          if index = maxUint64 then .ok candidate
          else gatherEntries c fuel (index + 1) candidate

/-- The last index a request proves: its last entry, or the position before it. -/
def lastVerified (request : AppendEntriesRequest) : Nat :=
  match request.entries.getLast? with
  | none => request.prevLogIndex
  | some entry => entry.index

def issueAppend (peerID : Nat) : CoreM Unit := do
  let c ← get
  match c.progress peerID with
  | none => pure ()
  | some progress =>
    if peerID = c.localID ∨ progress.snapshotNeeded then pure ()
    else if progress.generation = maxUint64 then throw .replicationGenerationOverflow
    else
      match checkedNextIndex progress.matchIndex, checkedNextIndex c.log.lastIndex with
      | none, _ => throw .logOverflow
      | _, none => throw .logOverflow
      | some minimumNext, some maximumNext =>
        let progress := { progress with nextIndex := min (max progress.nextIndex minimumNext) maximumNext }
        if progress.nextIndex ≤ c.log.snapshotIndex then
          set { c with
            progress := put c.progress peerID
              { progress with snapshotNeeded := true, activeGeneration := 0 } }
        else
          let prevIndex := progress.nextIndex - 1
          let prevTerm ← lift (c.log.term prevIndex)
          let generation := progress.generation + 1
          let request ← lift (c.gatherEntries (c.log.lastIndex + 1 - progress.nextIndex)
            progress.nextIndex
            ⟨c.localID, c.hardState.term, generation, prevIndex, prevTerm, c.log.commitIndex, []⟩)
          let matchIndex := lastVerified request
          let requires : DurabilityPrerequisite :=
            { hardState := c.pendingReady.hardState.isSome
              entriesThrough :=
                if request.entries ≠ [] ∧ c.pendingReady.entries.any (·.index = matchIndex) then
                  matchIndex
                else 0 }
          set ({ c with
            progress := put c.progress peerID
              { progress with
                generation := generation
                activeGeneration := generation
                activeMatchIndex := matchIndex } }.queueMessage peerID
            (.appendEntriesRequest request) requires)

/-- The voters whose acknowledged position is at least `candidate`. -/
def replicas (c : Core) (candidate : Nat) : Nat :=
  c.voters.voters.countP fun id => (c.progressOf id).matchIndex ≥ candidate

/-- Look for the greatest index of the current term that a majority holds, from `candidate`
    down to the commit index. -/
def advanceCommitFrom (currentCommit : Nat) : Nat → CoreM Unit
  | 0 => pure ()
  | candidate + 1 => do
    if candidate + 1 ≤ currentCommit then pure ()
    else
      let c ← get
      let term ← lift (c.log.term (candidate + 1))
      if term ≠ c.hardState.term ∨ c.replicas (candidate + 1) < c.voters.majority then
        advanceCommitFrom currentCommit candidate
      else
        let log ← lift (c.log.advanceCommit (candidate + 1))
        set ({ c with
          log
          hardState := { c.hardState with commitIndex := candidate + 1 } }.recordHardState)
        queueCommittedEntries currentCommit (candidate + 1)

def advanceLeaderCommit : CoreM Unit := do
  let c ← get
  advanceCommitFrom c.log.commitIndex c.log.lastIndex

def issueSnapshotChunk (peerID : Nat) : CoreM Unit := do
  let c ← get
  match c.outgoingSnapshots peerID with
  | none => pure ()
  | some transfer =>
    if c.role ≠ .leader ∨ transfer.term ≠ c.hardState.term then pure ()
    else
      let totalLength := transfer.state.length
      if transfer.nextOffset > totalLength then throw .invalidCoreState
      else
        let sum := wrapAdd transfer.nextOffset transfer.chunkLimit
        let stop := if sum < transfer.nextOffset ∨ sum > totalLength then totalLength else sum
        let request : InstallSnapshotRequest := {
          leaderID := c.localID
          term := transfer.term
          transferID := transfer.transferID
          snapshotID := transfer.snapshot.id
          lastIncludedIndex := transfer.snapshot.metadata.lastIncludedIndex
          lastIncludedTerm := transfer.snapshot.metadata.lastIncludedTerm
          stateMachineSchemaVersion := transfer.snapshot.metadata.stateMachineSchemaVersion
          totalLength
          checksum := transfer.snapshot.stateChecksum
          offset := transfer.nextOffset
          chunk := (transfer.state.drop transfer.nextOffset).take (stop - transfer.nextOffset)
          done := stop = totalLength }
        set ({ c with
          outgoingSnapshots := put c.outgoingSnapshots peerID { transfer with activeEnd := stop }
          }.queueMessage peerID (.installSnapshotRequest request) .nothing)

/-- Continue with one peer: its snapshot transfer if one is running, else log replication. -/
def replicateTo (peerID : Nat) : CoreM Unit := do
  let c ← get
  if (c.outgoingSnapshots peerID).isSome then issueSnapshotChunk peerID else issueAppend peerID

/-! ### Elections -/

def startPreVote (now sample : Nat) : CoreM Unit := do
  let c ← get
  if c.hardState.term = maxUint64 then throw .termOverflow
  else
    let deadline ← lift (c.sampleDeadline now sample)
    let request : PreVoteRequest := {
      candidateID := c.localID
      currentTerm := c.hardState.term
      prospectiveTerm := c.hardState.term + 1
      lastLogIndex := c.log.lastIndex
      lastLogTerm := c.log.lastTerm }
    let c := { c with
      now
      electionDeadline := deadline
      deadlineExhausted := false
      role := .preCandidate
      leaderID := 0
      recentLeader := false
      preVotes := {c.localID}
      votes := ∅ }
    set (c.peers.foldl (fun c id => c.queueMessage id (.preVoteRequest request) .nothing) c)

def handlePreVoteRequest (c : Core) (request : PreVoteRequest) : Core :=
  let granted := c.role ≠ .leader ∧ c.recentLeader = false ∧ request.currentTerm ≥ c.hardState.term ∧
    c.candidateLogIsUpToDate request.lastLogIndex request.lastLogTerm = true
  c.queueMessage request.candidateID
    (.preVoteResponse {
      responderID := c.localID
      candidateID := request.candidateID
      term := c.hardState.term
      requestCurrentTerm := request.currentTerm
      prospectiveTerm := request.prospectiveTerm
      granted := decide granted })
    .nothing

def startElection (sample : Nat) : CoreM Unit := do
  let c ← get
  if c.hardState.term = maxUint64 then throw .termOverflow
  else
    let deadline ← lift (c.sampleDeadline c.now sample)
    let term := c.hardState.term + 1
    let request : RequestVoteRequest := {
      candidateID := c.localID
      term
      lastLogIndex := c.log.lastIndex
      lastLogTerm := c.log.lastTerm }
    let c := c.cancelIncomingSnapshot
    let c := { c with
      hardState := { c.hardState with term := term, votedFor := c.localID }
      role := .candidate
      leaderID := 0
      recentLeader := false
      electionDeadline := deadline
      deadlineExhausted := false
      preVotes := ∅
      votes := {c.localID} }.recordHardState
    set (c.peers.foldl
      (fun c id => c.queueMessage id (.requestVoteRequest request) ⟨true, 0⟩) c)

def handlePreVoteResponse (response : PreVoteResponse) (sample : Nat) : CoreM Unit := do
  let c ← get
  if c.role ≠ .preCandidate ∨ response.candidateID ≠ c.localID ∨
      response.requestCurrentTerm ≠ c.hardState.term ∨ c.hardState.term = maxUint64 ∨
      response.prospectiveTerm ≠ c.hardState.term + 1 ∨ response.term > c.hardState.term ∨
      response.granted = false then pure ()
  else if response.responderID ∈ c.preVotes then pure ()
  else if c.preVotes.card + 1 < c.voters.majority then
    set { c with preVotes := insert response.responderID c.preVotes }
  else startElection sample

def queueVoteResponse (c : Core) (request : RequestVoteRequest) (granted hardStateChanged : Bool) :
    Core :=
  c.queueMessage request.candidateID
    (.requestVoteResponse {
      responderID := c.localID
      candidateID := request.candidateID
      term := c.hardState.term
      requestTerm := request.term
      granted })
    ⟨hardStateChanged, 0⟩

def handleVoteRequest (c : Core) (request : RequestVoteRequest) : Core :=
  if request.term < c.hardState.term then c.queueVoteResponse request false false
  else
    let changed := decide (request.term > c.hardState.term)
    let c := if changed then c.adoptHigherTerm request.term else c
    let canVote := c.hardState.votedFor = 0 ∨ c.hardState.votedFor = request.candidateID
    let granted := canVote ∧ c.candidateLogIsUpToDate request.lastLogIndex request.lastLogTerm = true
    if granted ∧ c.hardState.votedFor = 0 then
      ({ c with
        hardState := { c.hardState with votedFor := request.candidateID } }.recordHardState
        ).queueVoteResponse request true true
    else c.queueVoteResponse request (decide granted) changed

def becomeLeader (finalVoter : Nat) : CoreM Unit := do
  let c ← get
  let previousIndex := c.log.lastIndex
  match checkedNextIndex previousIndex with
  | none => throw .logOverflow
  | some newIndex =>
    match checkedNextIndex newIndex with
    | none => throw .logOverflow
    | some selfNext =>
      let entry ← lift (newEntry newIndex c.hardState.term .noOp [])
      match c.log.append previousIndex c.log.lastTerm [entry] with
      | .error (e, _) => throw e
      | .ok log =>
        set ({ c with
          log
          votes := insert finalVoter c.votes
          role := .leader
          leaderID := c.localID
          preVotes := ∅
          recentLeader := false
          progress := put (fun _ => none) c.localID
            { Progress.zero with matchIndex := newIndex, nextIndex := selfNext }
          quorumResponses := ∅
          heartbeatDeadline := saturatingTickAdd c.now c.heartbeatInterval
          quorumDeadline := saturatingTickAdd c.now c.electionTimeoutMin }.queueEntries [entry])
        each c.peers fun id => do
          modify fun c => { c with progress := put c.progress id { Progress.zero with nextIndex := newIndex } }
          replicateTo id

def handleVoteResponse (response : RequestVoteResponse) : CoreM Unit := do
  let c ← get
  if response.candidateID ≠ c.localID ∨ c.role ≠ .candidate ∨ response.requestTerm ≠ c.hardState.term then pure ()
  else if response.term > c.hardState.term then set (c.adoptHigherTerm response.term)
  else if response.term ≠ c.hardState.term ∨ response.granted = false then pure ()
  else if response.responderID ∈ c.votes then pure ()
  else if c.votes.card + 1 < c.voters.majority then
    set { c with votes := insert response.responderID c.votes }
  else becomeLeader response.responderID

/-! ### The leader's clock -/

/-- No peer that would be sent an append has used up its request generations. -/
def generationsLeft (c : Core) (skipSnapshotNeeded : Bool) : Bool :=
  c.peers.all fun id =>
    (skipSnapshotNeeded ∧ (c.progressOf id).snapshotNeeded) ∨ (c.progressOf id).generation ≠ maxUint64

def tickLeader (now sample : Nat) : CoreM Unit := do
  let c ← get
  if now ≥ c.quorumDeadline ∧ 1 + c.quorumResponses.card < c.voters.majority then
    set ({ c with now }.stepDownWithoutTermChange now sample)
  else if now ≥ c.heartbeatDeadline ∧ c.generationsLeft true = false then
    throw .replicationGenerationOverflow
  else
    let c := { c with now }
    let c :=
      if now ≥ c.quorumDeadline then
        { c with
          quorumResponses := ∅
          quorumDeadline := saturatingTickAdd now c.electionTimeoutMin }
      else c
    set c
    if now < c.heartbeatDeadline then pure ()
    else
      each c.peers replicateTo
      modify fun c => { c with heartbeatDeadline := saturatingTickAdd now c.heartbeatInterval }

/-! ### Append requests and responses -/

/-- The entries from the first position at which two retained suffixes differ. -/
def changedLogEntries : List Entry → List Entry → List Entry
  | _, [] => []
  | [], after => after
  | b :: before, a :: after => if b = a then changedLogEntries before after else a :: after

def queueAppendResponse (c : Core) (request : AppendEntriesRequest) (success : Bool)
    (matchIndex : Nat) (hint : ConflictHint) (requires : DurabilityPrerequisite) : Core :=
  c.queueMessage request.leaderID
    (.appendEntriesResponse {
      responderID := c.localID
      leaderID := request.leaderID
      term := c.hardState.term
      requestTerm := request.term
      generation := request.generation
      success
      matchIndex
      conflictTerm := hint.term
      conflictIndex := hint.index })
    requires

/-- Move the commit index to what the leader committed, as far as this request proves it. -/
def followCommit (request : AppendEntriesRequest) : CoreM Bool := do
  let c ← get
  let commitIndex := min request.leaderCommit (lastVerified request)
  if commitIndex > c.log.commitIndex then
    let log ← lift (c.log.advanceCommit commitIndex)
    set ({ c with log, hardState := { c.hardState with commitIndex } }.recordHardState)
    queueCommittedEntries c.log.commitIndex commitIndex
    return true
  else return false

def handleAppendRequest (request : AppendEntriesRequest) (sample : Nat) : CoreM Unit := do
  let c ← get
  if request.term < c.hardState.term then
    let conflictIndex := (checkedNextIndex c.log.lastIndex).getD c.log.lastIndex
    set (c.queueAppendResponse request false 0 ⟨0, conflictIndex⟩ .nothing)
  else
    let trial ← lift (newLog c.log.snapshotIndex c.log.snapshotTerm c.log.commitIndex
      c.log.appliedIndex c.log.entries)
    let hardStateChanged := decide (request.term > c.hardState.term)
    match trial.append request.prevLogIndex request.prevLogTerm request.entries with
    | .error (e, hint) =>
      if e ≠ .logUnavailable ∧ e ≠ .logCompacted ∧ e ≠ .logMismatch then throw e
      else
        modify fun c => (c.handleLeaderContact request.leaderID request.term sample
          ).queueAppendResponse request false 0 hint ⟨hardStateChanged, 0⟩
    | .ok log =>
      modify fun c => { c.handleLeaderContact request.leaderID request.term sample with log }
      let advanced ← followCommit request
      modify fun c' =>
        let changed := changedLogEntries c.log.entries c'.log.entries
        let queued := if changed = [] then c' else c'.queueEntries changed
        queued.queueAppendResponse request true (lastVerified request) default
          ⟨hardStateChanged || advanced, (changed.getLast?.map (·.index)).getD 0⟩

/-- Where the next append to a peer should start after a rejection. -/
def repairNextIndex (c : Core) (response : AppendEntriesResponse) (matchIndex : Nat) : Except RaftError Nat :=
  let hinted : Except RaftError Nat :=
    if response.conflictTerm ≠ 0 then
      match c.log.lastIndexOfTerm response.conflictTerm with
      | none => .ok response.conflictIndex
      | some lastIndex =>
        match checkedNextIndex lastIndex with
        | none => .error .logOverflow
        | some next => .ok next
    else .ok response.conflictIndex
  match hinted with
  | .error e => .error e
  | .ok nextIndex =>
    match checkedNextIndex c.log.lastIndex, checkedNextIndex matchIndex with
    | none, _ => .error .logOverflow
    | _, none => .error .logOverflow
    | some maximumNext, some minimumNext => .ok (max (min nextIndex maximumNext) minimumNext)

def handleAppendSuccess (response : AppendEntriesResponse) (progress : Progress) : CoreM Unit := do
  let c ← get
  let matchIndex := max response.matchIndex progress.matchIndex
  match checkedNextIndex matchIndex with
  | none => throw .logOverflow
  | some nextIndex =>
    let progress := { progress with
      activeGeneration := 0
      activeMatchIndex := 0
      matchIndex
      nextIndex := max progress.nextIndex nextIndex
      snapshotNeeded := false }
    if progress.nextIndex ≤ c.log.lastIndex ∧ progress.generation = maxUint64 then
      throw .replicationGenerationOverflow
    else
      set { c with
        progress := put c.progress response.responderID progress
        quorumResponses := insert response.responderID c.quorumResponses }
      advanceLeaderCommit
      let c ← get
      if progress.nextIndex ≤ c.log.lastIndex then issueAppend response.responderID else pure ()

def handleAppendRejection (response : AppendEntriesResponse) (progress : Progress) : CoreM Unit := do
  let c ← get
  let nextIndex ← lift (c.repairNextIndex response progress.matchIndex)
  let progress := { progress with
    activeGeneration := 0
    activeMatchIndex := 0
    nextIndex
    snapshotNeeded := decide (nextIndex ≤ c.log.snapshotIndex) }
  if progress.snapshotNeeded = false ∧ progress.generation = maxUint64 then
    throw .replicationGenerationOverflow
  else
    set { c with
      progress := put c.progress response.responderID progress
      quorumResponses := insert response.responderID c.quorumResponses }
    if progress.snapshotNeeded then pure () else issueAppend response.responderID

def handleAppendResponse (response : AppendEntriesResponse) : CoreM Unit := do
  let c ← get
  if c.role ≠ .leader ∨ response.leaderID ≠ c.localID ∨ response.requestTerm ≠ c.hardState.term then pure ()
  else
    match c.progress response.responderID with
    | none => pure ()
    | some progress =>
      if response.generation ≠ progress.activeGeneration then pure ()
      else if response.success = true ∧ response.matchIndex ≠ progress.activeMatchIndex then pure ()
      else if response.term > c.hardState.term then set (c.adoptHigherTerm response.term)
      else if response.success then handleAppendSuccess response progress
      else handleAppendRejection response progress

/-! ### Snapshot requests and responses -/

def snapshotResponse (c : Core) (request : InstallSnapshotRequest) (success done : Bool)
    (nextOffset : Nat) : PeerMessage where
  toID := request.leaderID
  rpc := .installSnapshotResponse {
    responderID := c.localID
    leaderID := request.leaderID
    term := c.hardState.term
    requestTerm := request.term
    transferID := request.transferID
    snapshotID := request.snapshotID
    nextOffset
    success
    done }
  requires := .nothing

/-- Stage a chunk that continues or repeats the transfer `incoming`, or abort it. -/
def stageOrAbort (c : Core) (incoming : IncomingSnapshotProgress)
    (request : InstallSnapshotRequest) (reset : Bool) : Core :=
  let stop := request.offset + request.chunk.length
  if request.offset > incoming.nextOffset ∨
      (request.offset < incoming.nextOffset ∧ stop > incoming.nextOffset) then
    { c with incomingSnapshot := some incoming }.queueSnapshotAction ⟨.abort, request, false⟩
  else
    { c with incomingSnapshot := some { incoming with request } }.queueSnapshotAction
      ⟨.stage, request, reset⟩

def handleInstallSnapshotRequest (c : Core) (request : InstallSnapshotRequest) (sample : Nat) :
    Core :=
  if request.term < c.hardState.term then
    let response := c.snapshotResponse request false false 0
    c.queueMessage response.toID response.rpc .nothing
  else
    let hardStateChanged := decide (request.term > c.hardState.term)
    let authorityChanged := c.incomingSnapshot.any fun incoming =>
      incoming.metadata.term ≠ request.term ∨ incoming.metadata.leaderID ≠ request.leaderID
    let c := c.handleLeaderContact request.leaderID request.term sample
    if authorityChanged then c
    else if request.lastIncludedIndex ≤ c.log.commitIndex then
      let c := c.cancelIncomingSnapshot
      let response := c.snapshotResponse request true true request.totalLength
      c.queueMessage response.toID response.rpc ⟨hardStateChanged, 0⟩
    else
      let metadata := snapshotTransferMetadataFor request
      let fresh : IncomingSnapshotProgress := ⟨metadata, 0, request⟩
      match c.incomingSnapshot with
      | none =>
        if request.offset ≠ 0 then c.queueSnapshotAction ⟨.abort, request, false⟩
        else c.stageOrAbort fresh request false
      | some incoming =>
        if incoming.metadata = metadata then c.stageOrAbort incoming request false
        else if request.offset ≠ 0 then c.queueSnapshotAction ⟨.abort, request, false⟩
        else c.stageOrAbort fresh request true

def clearOutgoingSnapshot (c : Core) (peerID : Nat) : Core :=
  { c with
    outgoingSnapshots := erase c.outgoingSnapshots peerID
    progress := fun id =>
      if id = peerID then (c.progress id).map fun progress => { progress with
        activeTransferID := zeroTransferID
        activeSnapshotID := zeroSnapshotID
        snapshotNextOffset := 0 }
      else c.progress id }

/-- A response that fits the transfer it answers: the offset it reports is one the transfer can
    be at. -/
def responseFits (transfer : OutgoingSnapshotProgress) (response : InstallSnapshotResponse) :
    Bool :=
  let totalLength := transfer.state.length
  if response.success then
    if response.done then response.nextOffset = totalLength
    else ¬ (response.nextOffset ≠ transfer.activeEnd ∨ response.nextOffset ≥ totalLength)
  else
    ¬ ((totalLength = 0 ∧ response.nextOffset ≠ 0) ∨ (totalLength ≠ 0 ∧
        (response.nextOffset ≥ totalLength ∨ response.nextOffset > transfer.nextOffset)))

/-- The peer has the snapshot: go on with the log after it. -/
def finishSnapshotTransfer (peerID includedIndex : Nat) : CoreM Unit := do
  modify fun c => c.clearOutgoingSnapshot peerID
  let c ← get
  let progress := c.progressOf peerID
  let matchIndex := max includedIndex progress.matchIndex
  match checkedNextIndex matchIndex with
  | none => throw .logOverflow
  | some nextIndex =>
    set { c with
      progress := put c.progress peerID
        { progress with matchIndex, nextIndex, snapshotNeeded := false } }
    advanceLeaderCommit
    issueAppend peerID

def handleInstallSnapshotResponse (response : InstallSnapshotResponse) : CoreM Unit := do
  let c ← get
  if c.role ≠ .leader ∨ response.leaderID ≠ c.localID then pure ()
  else
    match c.outgoingSnapshots response.responderID with
    | none => pure ()
    | some transfer =>
      if response.requestTerm ≠ transfer.term ∨ response.transferID ≠ transfer.transferID ∨
          response.snapshotID ≠ transfer.snapshot.id then pure ()
      else if response.term > c.hardState.term then set (c.adoptHigherTerm response.term)
      else if response.term ≠ c.hardState.term ∨ responseFits transfer response = false then pure ()
      else
        let progress := c.progressOf response.responderID
        let offset :=
          if response.success then response.nextOffset
          else max response.nextOffset progress.snapshotNextOffset
        set { c with
          quorumResponses := insert response.responderID c.quorumResponses
          outgoingSnapshots := put c.outgoingSnapshots response.responderID
            { transfer with nextOffset := response.nextOffset }
          progress := put c.progress response.responderID
            { progress with snapshotNextOffset := offset } }
        if response.success = true ∧ response.done = true then
          finishSnapshotTransfer response.responderID transfer.snapshot.metadata.lastIncludedIndex
        else issueSnapshotChunk response.responderID

/-! ### Entry points of the owner -/

/-- Fail while the core is stopped or a batch is pending. -/
def requireIdle : CoreM Unit := do
  let c ← get
  match c.terminalErr with
  | some e => throw e
  | none => if c.hasPending then throw .readyOutstanding else pure ()

def tick (now sample : Nat) : CoreM Unit := do
  requireIdle
  let c ← get
  if now < c.now then throw .tickRegression
  else if c.role = .leader then tickLeader now sample
  else if c.deadlineExhausted ∨ now < c.electionDeadline then set { c with now }
  else startPreVote now sample

def step (senderID : Nat) (rpc : RPC) (sample : Nat) : CoreM Unit := do
  requireIdle
  let c ← get
  lift (validateRPCSender rpc senderID c.voters)
  match rpc with
  | .appendEntriesRequest request =>
    let _ ← lift (encodeAppendRequest request c.appendLimits)
    handleAppendRequest request sample
  | rpc =>
    lift (validateRPC rpc defaultCodecLimits)
    match rpc with
    | .preVoteRequest request => modify (·.handlePreVoteRequest request)
    | .preVoteResponse response => handlePreVoteResponse response sample
    | .requestVoteRequest request => modify (·.handleVoteRequest request)
    | .requestVoteResponse response => handleVoteResponse response
    | .installSnapshotRequest request => modify (·.handleInstallSnapshotRequest request sample)
    | .appendEntriesResponse response => handleAppendResponse response
    | .installSnapshotResponse response => handleInstallSnapshotResponse response
    | _ => pure ()

/-- Append one command or barrier as the leader, and return its waiter's identity. -/
def proposeTracked (kind : EntryKind) (command : Bytes) : CoreM (Nat × Entry) := do
  requireIdle
  let c ← get
  if c.role ≠ .leader then throw .notLeader
  else if c.hasCommittedCurrentTerm = false then throw .leadershipNotAuthorized
  else if command.length > c.appendLimits.maxCommandBytes then throw .rpcTooLarge
  else if c.nextProposalID = maxUint64 then throw .proposalIdentityOverflow
  else if c.generationsLeft false = false then throw .replicationGenerationOverflow
  else
    match checkedNextIndex c.log.lastIndex with
    | none => throw .logOverflow
    | some newIndex =>
      match checkedNextIndex newIndex with
      | none => throw .logOverflow
      | some selfNext =>
        let entry ← lift (newEntry newIndex c.hardState.term kind command)
        match c.log.append c.log.lastIndex c.log.lastTerm [entry] with
        | .error (e, _) => throw e
        | .ok log =>
          let proposalID := c.nextProposalID + 1
          set ({ c with
            log
            nextProposalID := proposalID
            pendingProposals := put c.pendingProposals proposalID entry
            pendingProposalOrder := c.pendingProposalOrder ++ [proposalID]
            proposalAtIndex := put c.proposalAtIndex entry.index proposalID
            progress := put c.progress c.localID
              { Progress.zero with matchIndex := newIndex, nextIndex := selfNext }
            }.queueEntries [entry])
          each c.peers issueAppend
          return (proposalID, entry)

/-- The pending batch, numbered when it is first read. -/
def ready (c : Core) : Core × Option Ready :=
  if c.hasPending = false then (c, none)
  else if c.pendingReady.token = 0 then
    if c.nextToken = maxUint64 then ({ c with terminalErr := some .readyTokenExhausted }, none)
    else
      let numbered := { c.pendingReady with token := c.nextToken + 1 }
      ({ c with nextToken := c.nextToken + 1, pendingReady := numbered }, some numbered)
  else (c, some c.pendingReady)

def advance (token : Nat) : CoreM Unit := do
  let c ← get
  match c.terminalErr with
  | some e => throw e
  | none =>
    if c.hasPending = false ∨ token = 0 ∨ token ≠ c.pendingReady.token then throw .advanceToken
    else if c.pendingReady.snapshotActions ≠ [] ∧ c.snapshotActionDone = false then
      throw .readyOutstanding
    else
      let log ← lift (match c.pendingReady.committedEntries.getLast? with
        | none => .ok c.log
        | some last => c.log.advanceApplied last.index)
      set { c with log, pendingReady := .empty, hasPending := false, snapshotActionDone := false }

/-- Give up every transfer, and mark the peers whose next entry the new base covers. -/
def rebaseProgress (c : Core) : Core :=
  { c with
    outgoingSnapshots := fun _ => none
    progress := fun id =>
      if id = c.localID then c.progress id
      else (c.progress id).map fun progress =>
        if progress.nextIndex ≤ c.log.snapshotIndex then
          { progress with
            snapshotNeeded := true
            activeGeneration := 0
            activeMatchIndex := 0
            activeTransferID := zeroTransferID
            activeSnapshotID := zeroSnapshotID
            snapshotNextOffset := 0 }
        else progress }

def compactSnapshot (metadata : SnapshotMetadata) : CoreM Unit := do
  requireIdle
  let c ← get
  let log ← lift (c.log.compact metadata.lastIncludedIndex metadata.lastIncludedTerm)
  let c := { c with log }
  set (if c.role = .leader then c.rebaseProgress else c)

def startSnapshotTransfer (peerID : Nat) (snapshot : Snapshot) (transferID : Bytes)
    (chunkLimit : Nat) : CoreM Unit := do
  requireIdle
  let c ← get
  if c.role ≠ .leader then throw .notLeader
  else
    match c.progress peerID with
    | none => throw .invalidCoreState
    | some progress =>
      if peerID = c.localID ∨ progress.snapshotNeeded = false then throw .invalidCoreState
      else if transferID = zeroTransferID then throw .invalidCoreState
      else if chunkLimit = 0 ∨ chunkLimit > maxRaftSnapshotChunkBytes then throw .invalidCoreState
      else if snapshot.metadata.lastIncludedIndex ≠ c.log.snapshotIndex ∨
          snapshot.metadata.lastIncludedTerm ≠ c.log.snapshotTerm ∨
          snapshot.id = zeroSnapshotID then throw .invalidCoreState
      else if (c.outgoingSnapshots peerID).isSome then throw .invalidCoreState
      else
        set { c with
          outgoingSnapshots := put c.outgoingSnapshots peerID {
            term := c.hardState.term
            peerID
            transferID
            snapshot
            state := snapshot.state
            nextOffset := 0
            chunkLimit
            activeEnd := 0 }
          progress := put c.progress peerID { progress with
            activeTransferID := transferID
            activeSnapshotID := snapshot.id
            snapshotNextOffset := 0 } }
        issueSnapshotChunk peerID

/-- The installed state the store reports must be the snapshot that was asked for, under the
    current term and vote. -/
def installedStateMatches (c : Core) (request : InstallSnapshotRequest) (state : RecoveredState) :
    Bool :=
  let metadata := (snapshotTransferMetadataFor request).metadata
  state.snapshot.any (fun snapshot => snapshot.id = request.snapshotID ∧
      snapshot.metadata = metadata ∧ snapshot.stateChecksum = request.checksum) ∧
    state.snapshotBase = metadata ∧ state.hardState.term = c.hardState.term ∧
    state.hardState.votedFor = c.hardState.votedFor ∧
    state.hardState.commitIndex ≥ request.lastIncludedIndex ∧
    state.appliedIndex ≥ request.lastIncludedIndex

/-- Take over a completely installed snapshot. -/
def adoptInstalledState (request : InstallSnapshotRequest) (result : SnapshotActionResult) :
    CoreM PeerMessage := do
  let c ← get
  match result.state with
  | none => throw .invalidCoreState
  | some state =>
    if c.installedStateMatches request state = false then throw .invalidCoreState
    else
      match newLog state.snapshotBase.lastIncludedIndex state.snapshotBase.lastIncludedTerm
          state.hardState.commitIndex state.appliedIndex state.entries with
      | .error _ => throw .invalidCoreState
      | .ok log =>
        let c := { c with
          log
          hardState := state.hardState
          incomingSnapshot := none
          snapshotActionDone := true }
        set c
        return c.snapshotResponse request true true result.nextOffset

def completeSnapshotAction (token : Nat) (result : SnapshotActionResult) : CoreM PeerMessage := do
  let c ← get
  match c.terminalErr, c.pendingReady.snapshotActions with
  | some e, _ => throw e
  | none, [action] =>
    let request := action.request
    if c.hasPending = false ∨ token = 0 ∨ token ≠ c.pendingReady.token ∨
        c.snapshotActionDone = true then throw .advanceToken
    else if action.kind = .abort then
      let c := { c with incomingSnapshot := none, snapshotActionDone := true }
      set c
      return c.snapshotResponse request false false 0
    else
      match c.incomingSnapshot with
      | none => throw .invalidCoreState
      | some incoming =>
        if incoming.metadata ≠ snapshotTransferMetadataFor request then throw .invalidCoreState
        else if result.rejected then
          let c := { c with incomingSnapshot := none, snapshotActionDone := true }
          set c
          return c.snapshotResponse request false false 0
        else
          let stop := request.offset + request.chunk.length
          if request.offset ≠ incoming.nextOffset ∧ stop > incoming.nextOffset then
            throw .invalidCoreState
          else
            let wantNext := if request.offset = incoming.nextOffset then stop else incoming.nextOffset
            if result.nextOffset ≠ wantNext ∨ result.nextOffset > request.totalLength then
              throw .invalidCoreState
            else if result.done = false then
              if request.done = true ∨ result.nextOffset = request.totalLength then
                throw .invalidCoreState
              else
                let c := { c with
                  incomingSnapshot := some { incoming with nextOffset := result.nextOffset }
                  snapshotActionDone := true }
                set c
                return c.snapshotResponse request true false result.nextOffset
            else if request.done = false ∨ result.nextOffset ≠ request.totalLength then
              throw .invalidCoreState
            else adoptInstalledState request result
  | none, _ => throw .advanceToken

end Core

/-! ## Construction -/

structure CoreOptions where
  localID : Nat
  voters : VoterSet
  hardState : HardState
  log : Log
  appliedIndex : Nat
  electionTimeoutMin : Nat
  electionTimeoutMax : Nat
  heartbeatInterval : Nat
  maxAppendEntries : Nat
  maxAppendBytes : Nat

/-- The default limits, narrowed by the options that are set. -/
def appendLimitsFor (maxAppendEntries maxAppendBytes : Nat) : CodecLimits :=
  { defaultCodecLimits with
    maxAppendEntries := if maxAppendEntries ≠ 0 then maxAppendEntries else defaultCodecLimits.maxAppendEntries
    maxEncodedBytes := if maxAppendBytes ≠ 0 then maxAppendBytes else defaultCodecLimits.maxEncodedBytes }

/-- An append request without entries must fit the limits. -/
def appendLimitsUsable (localID : Nat) (limits : CodecLimits) : Bool :=
  (encodeAppendRequest ⟨localID, 1, 1, 0, 0, 0, []⟩ limits).isOk

/-- The core before its first event. -/
def initialCore (options : CoreOptions) (log : Log) (heartbeatInterval deadline : Nat) : Core where
  localID := options.localID
  voters := options.voters
  hardState := options.hardState
  log
  role := .follower
  leaderID := 0
  now := 0
  electionDeadline := deadline
  deadlineExhausted := false
  electionTimeoutMin := options.electionTimeoutMin
  electionTimeoutMax := options.electionTimeoutMax
  recentLeader := false
  heartbeatInterval
  heartbeatDeadline := 0
  quorumDeadline := 0
  quorumResponses := ∅
  appendLimits := appendLimitsFor options.maxAppendEntries options.maxAppendBytes
  preVotes := ∅
  votes := ∅
  progress := fun _ => none
  nextProposalID := 0
  pendingProposals := fun _ => none
  pendingProposalOrder := []
  proposalAtIndex := fun _ => none
  incomingSnapshot := none
  outgoingSnapshots := fun _ => none
  snapshotActionDone := false
  pendingReady := .empty
  hasPending := false
  nextToken := 0
  terminalErr := none

def newCore (options : CoreOptions) (sample : Nat) : Except RaftError Core :=
  let heartbeatInterval := if options.heartbeatInterval = 0 then 1 else options.heartbeatInterval
  if options.voters.validateLocalID options.localID ≠ .ok () then .error .invalidCoreState
  else if options.electionTimeoutMin = 0 ∨
      options.electionTimeoutMin ≥ options.electionTimeoutMax then .error .invalidCoreState
  else if heartbeatInterval ≥ options.electionTimeoutMin then .error .invalidCoreState
  else if ¬ appendLimitsUsable options.localID
      (appendLimitsFor options.maxAppendEntries options.maxAppendBytes) then
    .error .invalidCoreState
  else if options.log.commitIndex ≠ options.hardState.commitIndex then .error .invalidCoreState
  else if options.log.appliedIndex ≠ options.appliedIndex then .error .invalidCoreState
  else if options.hardState.votedFor ≠ 0 ∧ (options.hardState.term = 0 ∨
      ¬ options.voters.contains options.hardState.votedFor) then .error .invalidCoreState
  else if options.log.lastTerm > options.hardState.term then .error .invalidCoreState
  else
    match newLog options.log.snapshotIndex options.log.snapshotTerm options.log.commitIndex
        options.log.appliedIndex options.log.entries with
    | .error _ => .error .invalidCoreState
    | .ok log =>
      match (initialCore options log heartbeatInterval 0).sampleDeadline 0 sample with
      | .error _ => .error .invalidCoreState
      | .ok deadline => .ok (initialCore options log heartbeatInterval deadline)

end Crane.Raft
