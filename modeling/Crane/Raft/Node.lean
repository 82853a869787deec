import Crane.Raft.Core

/-!
# The serialized owner of a core

`node.go` and `node_durability.go`: how one voter takes an event, checks and persists the batch
the core produced, carries out its snapshot action, hands its messages to the transport, applies
what it committed and releases it. Each part of `drainReady` between two points at which the
process can stop is a function of its own; `Cluster.lean` strings them together.

The application is a parameter. Leadership subscriptions, local request queues and the timer are
left out: they decide when an event happens, and any event may happen at any time here.
-/

namespace Crane.Raft

open Program

/-- The application: `apply` may fail, `capture` gives a schema version and the snapshot bytes,
    `restore` replaces the state (schema zero and no bytes for a fresh one). -/
structure StateMachine (σ : Type) where
  apply : σ → Nat → Nat → Bytes → Option (σ × Bytes)
  capture : σ → Nat → Nat → Option (Nat × Bytes)
  restore : Nat → Bytes → Option σ

structure NodeOptions where
  localID : Nat
  voters : VoterSet
  identity : StorageIdentity
  electionTimeoutMin : Nat
  electionTimeoutMax : Nat
  heartbeatInterval : Nat
  maxAppendEntries : Nat
  maxAppendBytes : Nat
  snapshotEntryThreshold : Nat
  snapshotByteThreshold : Nat
  maxSnapshotBytes : Nat
  maxSnapshotChunkBytes : Nat

/-- `NewNode`: check the options against the store's snapshot limit and fill in the default chunk
    bound. -/
def newNode (options : NodeOptions) (storeLimit : Nat) : Except RaftError NodeOptions :=
  let chunkBytes :=
    if options.maxSnapshotChunkBytes = 0 then maxRaftSnapshotChunkBytes
    else options.maxSnapshotChunkBytes
  if options.voters.validateLocalID options.localID ≠ .ok () then .error .invalidCoreState
  else if options.identity.formatVersion = 0 ∨ options.identity.clusterID = zeroBytes 16 ∨
      options.identity.localVoterID ≠ options.localID ∨
      options.identity.voterFingerprint ≠ options.voters.fingerprint then
    .error .invalidStorageIdentity
  else if options.heartbeatInterval = 0 ∨ options.electionTimeoutMin = 0 ∨
      options.electionTimeoutMax ≤ options.electionTimeoutMin ∨
      options.heartbeatInterval ≥ options.electionTimeoutMin then .error .invalidCoreState
  else if options.snapshotEntryThreshold = 0 ∨ options.snapshotByteThreshold = 0 ∨
      options.maxSnapshotBytes = 0 ∨ options.maxSnapshotBytes > maxRaftSnapshotBytes then
    .error .invalidCoreState
  else if storeLimit ≠ options.maxSnapshotBytes then .error .invalidCoreState
  else if chunkBytes > maxRaftSnapshotChunkBytes then .error .invalidCoreState
  else if options.electionTimeoutMin / options.heartbeatInterval < 3 then .error .invalidCoreState
  else if ¬ appendLimitsUsable options.localID
      (appendLimitsFor options.maxAppendEntries options.maxAppendBytes) then
    .error .invalidCoreState
  else .ok { options with maxSnapshotChunkBytes := chunkBytes }

/-- `captureInFlight` holds what the encoding of the last capture will report. -/
structure Node (σ : Type) where
  options : NodeOptions
  core : Core
  durableState : RecoveredState
  pendingLocal : Nat → Option Entry
  captureInFlight : Option (Except RaftError Snapshot)
  app : σ

structure ProposalResult where
  index : Nat
  term : Nat
  result : Bytes
  deriving DecidableEq

/-- What the outside of a node can see it do. -/
inductive Event where
  | applied (node : Nat) (entry : Entry)
  | restored (node : Nat) (metadata : SnapshotMetadata) (state : Bytes)
  | completed (node proposalID : Nat) (result : ProposalResult)
  | failed (node proposalID : Nat) (err : RaftError)
  deriving DecidableEq

variable {σ : Type}

/-! ## The self-check of a batch -/

def persistenceBatchForReady (ready : Ready) : PersistenceBatch where
  hardState := ready.hardState
  replaceFrom := ready.entries.head?.elim 0 (·.index)
  entries := ready.entries
  snapshotBase := none
  snapshot := none
  appliedIndex := none

def persistenceBatchHasEffects (batch : PersistenceBatch) : Bool :=
  batch.hardState.isSome ∨ batch.replaceFrom ≠ 0 ∨ batch.snapshotBase.isSome ∨ batch.appliedIndex.isSome

/-- The unstable entries are valid, each after the index of the one before it. -/
def checkUnstable (previous : Option Nat) : List Entry → Except RaftError Unit
  | [] => .ok ()
  | entry :: rest =>
    match validateLogEntry entry with
    | .error e => .error e
    | .ok () =>
      if ∃ index ∈ previous, checkedNextIndex index ≠ some entry.index then .error .logGap
      else checkUnstable (some entry.index) rest

/-- The committed entries are valid and continue at `expected`, which is absent past the last
    representable index. -/
def checkCommitted (expected : Option Nat) : List Entry → Except RaftError Unit
  | [] => .ok ()
  | entry :: rest =>
    match validateLogEntry entry with
    | .error e => .error e
    | .ok () =>
      if some entry.index ≠ expected then .error .logInvariant
      else
        match checkedNextIndex entry.index with
        | none => if rest = [] then .ok () else .error .logOverflow
        | some next => checkCommitted (some next) rest

def checkMessage (options : NodeOptions) (ready : Ready) (message : PeerMessage) : Except RaftError Unit :=
  if ¬ options.voters.contains message.toID ∨ message.toID = options.localID then
    .error .transportInvariant
  else if message.requires.hardState ∧ ready.hardState = none then .error .invalidCoreState
  else if message.requires.entriesThrough ≠ 0 ∧
      ¬ ready.entries.any (·.index = message.requires.entriesThrough) then .error .invalidCoreState
  else .ok ()

def checkAction (options : NodeOptions) (action : SnapshotAction) : Except RaftError Unit :=
  if action.request.leaderID = options.localID ∨
      ¬ options.voters.contains action.request.leaderID then .error .invalidCoreState
  else validateSnapshotRequest action.request
    { defaultCodecLimits with maxSnapshotBytes := options.maxSnapshotBytes }

/-- Run a check on every element. -/
def checkEach {α : Type} (check : α → Except RaftError Unit) : List α → Except RaftError Unit
  | [] => .ok ()
  | a :: rest =>
    match check a with
    | .error e => .error e
    | .ok () => checkEach check rest

namespace Node

def checkCommittedProposal (node : Node σ) (ready : Ready) (proposal : CommittedProposal) :
    Except RaftError Unit :=
  if proposal.id = 0 then .error .invalidCoreState
  else if node.pendingLocal proposal.id ≠ some proposal.entry then .error .invalidCoreState
  else if ¬ ready.committedEntries.contains proposal.entry then .error .invalidCoreState
  else .ok ()

def checkFailedProposal (node : Node σ) (proposal : FailedProposal) : Except RaftError Unit :=
  if proposal.id = 0 then .error .invalidCoreState
  else if node.pendingLocal proposal.id ≠ some proposal.entry then .error .invalidCoreState
  else .ok ()

/-- The structural checks. No proposal is reported twice in one batch. -/
def validateReadyStructure (node : Node σ) (ready : Ready) : Except RaftError Unit := do
  if ready.token = 0 then throw .advanceToken
  checkUnstable none ready.entries
  checkEach (checkMessage node.options ready) ready.messages
  if ready.snapshotActions.length > 1 then throw .invalidCoreState
  checkEach (checkAction node.options) ready.snapshotActions
  let expected := checkedNextIndex node.core.log.appliedIndex
  if expected = none ∧ ready.committedEntries ≠ [] then throw .logOverflow
  checkCommitted expected ready.committedEntries
  checkEach (node.checkCommittedProposal ready) ready.committedProposals
  checkEach node.checkFailedProposal ready.failedProposals
  if ¬ (ready.committedProposals.map (·.id) ++ ready.failedProposals.map (·.id)).Nodup then
    throw .invalidCoreState

def validateProspectiveCoreState (core : Core) (prospective : RecoveredState) : Except RaftError Unit :=
  if prospective.hardState ≠ core.hardState then .error .invalidCoreState
  else if prospective.snapshotBase.lastIncludedIndex ≠ core.log.snapshotIndex ∨
      prospective.snapshotBase.lastIncludedTerm ≠ core.log.snapshotTerm then
    .error .invalidCoreState
  else if prospective.entries ≠ core.log.entries then .error .invalidCoreState
  else .ok ()

/-! ### What a message needs to be durable -/

section Requirements

variable (core : Core) (current prospective : RecoveredState)

/-- The term must be durable; the result says whether this batch makes it so. -/
def requireTerm (term : Nat) : Except RaftError Bool :=
  if prospective.hardState.term < term then .error .invalidCoreState
  else .ok (decide (current.hardState.term < term))

def requireCommit (commit : Nat) : Except RaftError Bool :=
  if prospective.hardState.commitIndex < commit then .error .invalidCoreState
  else .ok (decide (current.hardState.commitIndex < commit))

def requireVote (term voter : Nat) : Except RaftError Bool :=
  if prospective.hardState.term ≠ term ∨ prospective.hardState.votedFor ≠ voter then
    .error .invalidCoreState
  else .ok (decide (current.hardState.term ≠ term ∨ current.hardState.votedFor ≠ voter))

/-- A position of the core's log must be durable; the result is the index when this batch makes
    it so, else zero. -/
def requireCorePosition (index : Nat) : Except RaftError Nat :=
  if index = 0 then .ok 0
  else
    match core.log.term index with
    | .error _ => .error .invalidCoreState
    | .ok coreTerm =>
      if recoveredTermAt prospective index ≠ .ok coreTerm then .error .invalidCoreState
      else if index = core.log.snapshotIndex then .ok 0
      else
        match core.log.entry index with
        | .error _ => .error .invalidCoreState
        | .ok coreEntry =>
          if recoveredEntryAt prospective index ≠ some coreEntry then .error .invalidCoreState
          else .ok (if recoveredEntryAt current index = some coreEntry then 0 else index)

def requireRPCEntry (entry : Entry) : Except RaftError Nat :=
  if recoveredEntryAt prospective entry.index ≠ some entry then .error .invalidCoreState
  else .ok (if recoveredEntryAt current entry.index = some entry then 0 else entry.index)

/-- The greatest requirement of a list of entries, from what is already required. -/
def requireRPCEntries (through : Nat) : List Entry → Except RaftError Nat
  | [] => .ok through
  | entry :: rest =>
    match requireRPCEntry current prospective entry with
    | .error e => .error e
    | .ok index => requireRPCEntries (max through index) rest

def appendRequestRequirement (rpc : AppendEntriesRequest) : Except RaftError DurabilityPrerequisite := do
  let term ← requireTerm current prospective rpc.term
  let commit ← requireCommit current prospective rpc.leaderCommit
  let prev ←
    if rpc.prevLogIndex = 0 then pure 0
    else if recoveredTermAt prospective rpc.prevLogIndex ≠ .ok rpc.prevLogTerm then
      throw .invalidCoreState
    else if rpc.prevLogIndex > prospective.snapshotBase.lastIncludedIndex then
      requireCorePosition core current prospective rpc.prevLogIndex
    else pure 0
  let through ← requireRPCEntries current prospective prev rpc.entries
  return ⟨term || commit, through⟩

/-- A chunk must be cut from the durable snapshot. -/
def checkChunk (rpc : InstallSnapshotRequest) : Except RaftError Unit :=
  let metadata := (snapshotTransferMetadataFor rpc).metadata
  match prospective.snapshot with
  | none => .error .invalidCoreState
  | some snapshot =>
    if snapshot.id ≠ rpc.snapshotID ∨ snapshot.metadata ≠ metadata ∨
        snapshot.stateChecksum ≠ rpc.checksum then .error .invalidCoreState
    else if rpc.totalLength ≠ snapshot.state.length ∨ rpc.offset + rpc.chunk.length > snapshot.state.length ∨
        rpc.chunk ≠ (snapshot.state.drop rpc.offset).take rpc.chunk.length then
      .error .invalidCoreState
    else .ok ()

/-- What must be durable before a message may leave, computed from the durable states before and
    after the batch. -/
def messageRequirement : RPC → Except RaftError DurabilityPrerequisite
  | .preVoteRequest rpc => do
    return ⟨← requireTerm current prospective rpc.currentTerm, 0⟩
  | .preVoteResponse rpc => do
    return ⟨← requireTerm current prospective rpc.term, 0⟩
  | .requestVoteRequest rpc => do
    return ⟨← requireVote current prospective rpc.term rpc.candidateID, 0⟩
  | .requestVoteResponse rpc => do
    let term ← requireTerm current prospective rpc.term
    let vote ←
      if rpc.granted then requireVote current prospective rpc.term rpc.candidateID else pure false
    return ⟨term || vote, 0⟩
  | .appendEntriesRequest rpc => appendRequestRequirement core current prospective rpc
  | .appendEntriesResponse rpc => do
    let term ← requireTerm current prospective rpc.term
    if rpc.success then
      let commit ← requireCommit current prospective core.hardState.commitIndex
      let through ← requireCorePosition core current prospective rpc.matchIndex
      return ⟨term || commit, through⟩
    else return ⟨term, 0⟩
  | .installSnapshotRequest rpc => do
    let term ← requireTerm current prospective rpc.term
    checkChunk prospective rpc
    return ⟨term, 0⟩
  | .installSnapshotResponse rpc => do
    return ⟨← requireTerm current prospective rpc.term, 0⟩
  | _ => .ok .nothing

def validateMessageDurability (message : PeerMessage) : Except RaftError Unit :=
  match messageRequirement core current prospective message.rpc with
  | .error e => .error e
  | .ok required => if message.requires ≠ required then .error .invalidCoreState else .ok ()

end Requirements

variable [Hash]

/-- Check a batch before any of it takes effect, and derive the durable state it leads to. -/
def validateReadyAndDerive (node : Node σ) (ready : Ready) :
    Except RaftError (PersistenceBatch × RecoveredState) := do
  node.validateReadyStructure ready
  let batch := persistenceBatchForReady ready
  let prospective ←
    if persistenceBatchHasEffects batch then
      match applyPersistenceBatch node.durableState batch node.options.identity
          node.options.voters with
      | .error _ => throw .invalidCoreState
      | .ok prospective => pure prospective
    else pure node.durableState
  validateProspectiveCoreState node.core prospective
  checkEach (validateMessageDurability node.core node.durableState prospective) ready.messages
  return (batch, prospective)

/-! ## Recovery -/

/-- Apply the committed commands of a recovered suffix, up to the first entry past the commit
    index. The events are the calls made, also when the last of them failed. -/
def replayRecovered (sm : StateMachine σ) (localID commitIndex : Nat) : σ → List Entry → List Event × Option σ
  | app, [] => ([], some app)
  | app, entry :: rest =>
    if entry.index > commitIndex then ([], some app)
    else if entry.kind = .noOp then replayRecovered sm localID commitIndex app rest
    else
      match sm.apply app entry.index entry.term entry.command with
      | none => ([.applied localID entry], none)
      | some (app', _) =>
        let (events, result) := replayRecovered sm localID commitIndex app' rest
        (.applied localID entry :: events, result)

/-- The recovered snapshot must be there when the base is not zero, and decode to itself. -/
def checkRecoveredSnapshot (options : NodeOptions) (recovered : RecoveredState) :
    Except RaftError (Option Snapshot) :=
  match recovered.snapshot with
  | none => if recovered.snapshotBase.lastIncludedIndex ≠ 0 then .error .snapshotUnavailable else .ok none
  | some snapshot =>
    match decodeSnapshotEnvelope snapshot.envelope options.identity options.maxSnapshotBytes with
    | .error _ => .error .snapshotUnavailable
    | .ok decoded =>
      if decoded.metadata ≠ recovered.snapshotBase ∨ decoded.id ≠ snapshot.id then
        .error .snapshotUnavailable
      else .ok (some decoded)

/-- The core that recovery starts from, before anything is applied. -/
def recoverCore (options : NodeOptions) (recovered : RecoveredState) (sample : Nat) : Except RaftError Core :=
  let base := recovered.snapshotBase
  match newLog base.lastIncludedIndex base.lastIncludedTerm recovered.hardState.commitIndex
      base.lastIncludedIndex recovered.entries with
  | .error e => .error e
  | .ok log =>
    newCore {
      localID := options.localID
      voters := options.voters
      hardState := recovered.hardState
      log
      appliedIndex := base.lastIncludedIndex
      electionTimeoutMin := options.electionTimeoutMin
      electionTimeoutMax := options.electionTimeoutMax
      heartbeatInterval := options.heartbeatInterval
      maxAppendEntries := options.maxAppendEntries
      maxAppendBytes := options.maxAppendBytes } sample

/-- Restore the application from the recovered snapshot. -/
def restoreApplication (sm : StateMachine σ) (localID : Nat) (snapshot : Option Snapshot) :
    List Event × Option σ :=
  match snapshot with
  | none => ([], sm.restore 0 [])
  | some snapshot =>
    ([.restored localID snapshot.metadata snapshot.state],
      sm.restore snapshot.metadata.stateMachineSchemaVersion snapshot.state)

/-- `recoverPreparedState`: rebuild core and application from the store. -/
def recoverPreparedState (sm : StateMachine σ) (options : NodeOptions) (store : MemoryStore)
    (sample : Nat) : List Event × Except RaftError (Node σ) :=
  match store.recover with
  | .error e => ([], .error e)
  | .ok recovered =>
    match validateRecoveredStateWithSnapshotLimit recovered options.identity options.voters
        options.maxSnapshotBytes with
    | .error e => ([], .error e)
    | .ok () =>
      match checkRecoveredSnapshot options recovered with
      | .error e => ([], .error e)
      | .ok snapshot =>
        let recovered := { recovered with snapshot }
        match recoverCore options recovered sample with
        | .error e => ([], .error e)
        | .ok core =>
          match restoreApplication sm options.localID snapshot with
          | (events, none) => (events, .error .application)
          | (events, some app) =>
            match replayRecovered sm options.localID recovered.hardState.commitIndex app
                recovered.entries with
            | (replayed, none) => (events ++ replayed, .error .application)
            | (replayed, some app) =>
              match core.log.advanceApplied recovered.hardState.commitIndex with
              | .error e => (events ++ replayed, .error e)
              | .ok log =>
                (events ++ replayed, .ok {
                  options
                  core := { core with log }
                  durableState := recovered
                  pendingLocal := fun _ => none
                  captureInFlight := none
                  app })

/-! ## Snapshot capture and transfer -/

/-- Freeze the application at the applied index when the log has grown past a threshold.
    `retained` is what the store reports as retained WAL bytes. -/
def maybeStartSnapshotCapture (sm : StateMachine σ) (node : Node σ) (retained : Nat) :
    Except RaftError (Node σ) :=
  let log := node.core.log
  if node.captureInFlight.isSome then .ok node
  else if log.appliedIndex < log.snapshotIndex then .error .logInvariant
  else if log.appliedIndex = log.snapshotIndex then .ok node
  else if ¬ (log.appliedIndex - log.snapshotIndex > node.options.snapshotEntryThreshold ∨
      retained > node.options.snapshotByteThreshold) then .ok node
  else
    match log.term log.appliedIndex with
    | .error e => .error e
    | .ok term =>
      match sm.capture node.app log.appliedIndex term with
      | none => .error .application
      | some (schema, bytes) =>
        if schema = 0 then .error .invalidSnapshot
        else
          .ok { node with
            captureInFlight := some (newSnapshot node.options.identity
              ⟨log.appliedIndex, term, schema⟩ bytes node.options.maxSnapshotBytes) }

/-- Make an encoded capture durable, then compact the core's log. The store is returned also on
    failure: the snapshot may be durable by then. -/
def finishSnapshotCapture (node : Node σ) (store : MemoryStore) : MemoryStore × Except RaftError (Node σ) :=
  match node.captureInFlight with
  | none => (store, .error .invalidCoreState)
  | some (.error e) => (store, .error e)
  | some (.ok snapshot) =>
    let node := { node with captureInFlight := none }
    if snapshot.metadata.lastIncludedIndex ≤ node.core.log.snapshotIndex then (store, .ok node)
    else if snapshot.metadata.lastIncludedIndex > node.core.log.appliedIndex then
      (store, .error .invalidCoreState)
    else
      match compactRecoveredState node.durableState snapshot node.options.identity
          node.options.voters node.options.maxSnapshotBytes with
      | .error e => (store, .error e)
      | .ok prospective =>
        match store.persistSnapshot snapshot with
        | .error e => (store, .error e)
        | .ok store =>
          match Core.compactSnapshot snapshot.metadata node.core with
          | .error e _ => (store, .error e)
          | .ok () core => (store, .ok { node with core, durableState := prospective })

/-- The first peer that needs a snapshot and is not being sent one. -/
def snapshotNeededPeer (node : Node σ) : Option Nat :=
  node.options.voters.voters.find? fun id =>
    id ≠ node.options.localID ∧ (node.core.progress id).any fun progress =>
      progress.snapshotNeeded ∧ progress.activeTransferID = zeroTransferID

/-- Start the next snapshot transfer, if a peer needs one; the flag reports that one started. -/
def maybeStartSnapshotTransfer (node : Node σ) (transferID : Bytes) : Except RaftError (Node σ × Bool) :=
  if node.core.role ≠ .leader then .ok (node, false)
  else
    match node.snapshotNeededPeer with
    | none => .ok (node, false)
    | some peerID =>
      match node.durableState.snapshot with
      | none => .error .snapshotUnavailable
      | some snapshot =>
        if snapshot.metadata ≠ node.durableState.snapshotBase ∨
            snapshot.metadata.lastIncludedIndex ≠ node.core.log.snapshotIndex ∨
            snapshot.metadata.lastIncludedTerm ≠ node.core.log.snapshotTerm then
          .error .snapshotUnavailable
        else if snapshot.state.length > node.options.maxSnapshotBytes then
          .error .snapshotUnavailable
        else if transferID = zeroTransferID then .error .transferIDExhausted
        else
          match Core.startSnapshotTransfer peerID snapshot transferID
              node.options.maxSnapshotChunkBytes node.core with
          | .error e _ => .error e
          | .ok () core => .ok ({ node with core }, true)

/-! ## The parts of a drain -/

/-- What executing a snapshot action did: to the store and the application in any case, to the
    node only when it succeeded. -/
structure ActionOutcome (σ : Type) where
  store : MemoryStore
  events : List Event
  result : Except RaftError (Node σ × PeerMessage)

/-- Report the result of an action to the core. -/
def completeAction (node : Node σ) (token : Nat) (result : SnapshotActionResult) :
    Except RaftError (Node σ × PeerMessage) :=
  match Core.completeSnapshotAction token result node.core with
  | .error e _ => .error e
  | .ok message core => .ok ({ node with core }, message)

/-- Restore the application from a snapshot the store has just installed. -/
def restoreInstalled (sm : StateMachine σ) (node : Node σ) (installed : RecoveredState) :
    List Event × Except RaftError (Node σ) :=
  match installed.snapshot with
  | none => ([], .error .invalidCoreState)
  | some snapshot =>
    match validateRecoveredStateWithSnapshotLimit installed node.options.identity
        node.options.voters node.options.maxSnapshotBytes with
    | .error _ => ([], .error .invalidCoreState)
    | .ok () =>
      match restoreApplication sm node.options.localID (some snapshot) with
      | (events, none) => (events, .error .application)
      | (events, some app) =>
        match replayRecovered sm node.options.localID installed.hardState.commitIndex app
            installed.entries with
        | (replayed, none) => (events ++ replayed, .error .application)
        | (replayed, some app) => (events ++ replayed, .ok { node with app, durableState := installed })

def executeSnapshotAction (sm : StateMachine σ) (node : Node σ) (store : MemoryStore)
    (token : Nat) (action : SnapshotAction) : ActionOutcome σ :=
  let store := if action.reset then store.abortSnapshotStage else store
  match action.kind with
  | .abort => ⟨store.abortSnapshotStage, [], node.completeAction token ⟨0, false, none, true⟩⟩
  | .stage =>
    match MemoryStore.stageSnapshotChunk action.request store with
    | .error .snapshotRejected store => ⟨store, [], node.completeAction token ⟨0, false, none, true⟩⟩
    | .error e store => ⟨store, [], .error e⟩
    | .ok staged store =>
      match staged.state with
      | none => ⟨store, [], node.completeAction token ⟨staged.nextOffset, staged.done, none, false⟩⟩
      | some installed =>
        match node.restoreInstalled sm installed with
        | (events, .error e) => ⟨store, events, .error e⟩
        | (events, .ok node) =>
          let coreState := { installed with appliedIndex := installed.hardState.commitIndex }
          ⟨store, events, node.completeAction token ⟨staged.nextOffset, true, some coreState, false⟩⟩

/-- Apply one committed entry; a no-op changes nothing and gives no result bytes. -/
def applyCommitted (sm : StateMachine σ) (node : Node σ) (entry : Entry) :
    List Event × Option (Node σ × ProposalResult) :=
  if entry.kind = .command then
    match sm.apply node.app entry.index entry.term entry.command with
    | none => ([.applied node.options.localID entry], none)
    | some (app, result) =>
      ([.applied node.options.localID entry], some ({ node with app }, ⟨entry.index, entry.term, result⟩))
  else ([], some (node, ⟨entry.index, entry.term, []⟩))

/-- Hand the result of each committed proposal to its waiter. -/
def completeProposals (results : List ProposalResult) :
    Node σ → List CommittedProposal → List Event × Except RaftError (Node σ)
  | node, [] => ([], .ok node)
  | node, committed :: rest =>
    if node.pendingLocal committed.id ≠ some committed.entry then ([], .error .invalidCoreState)
    else
      match results.find? (·.index = committed.entry.index) with
      | none => ([], .error .invalidCoreState)
      | some result =>
        if result.term ≠ committed.entry.term then ([], .error .invalidCoreState)
        else
          let node := { node with pendingLocal := erase node.pendingLocal committed.id }
          let (events, outcome) := completeProposals results node rest
          (.completed node.options.localID committed.id result :: events, outcome)

def failProposals : Node σ → List FailedProposal → List Event × Except RaftError (Node σ)
  | node, [] => ([], .ok node)
  | node, failed :: rest =>
    if node.pendingLocal failed.id ≠ some failed.entry then ([], .error .invalidCoreState)
    else
      let node := { node with pendingLocal := erase node.pendingLocal failed.id }
      let (events, outcome) := failProposals node rest
      (.failed node.options.localID failed.id failed.err :: events, outcome)

/-- The end of a drain: resolve the proposals of the batch and release it. -/
def finishReady (node : Node σ) (ready : Ready) (results : List ProposalResult) :
    List Event × Except RaftError (Node σ) :=
  match completeProposals results node ready.committedProposals with
  | (events, .error e) => (events, .error e)
  | (events, .ok node) =>
    match failProposals node ready.failedProposals with
    | (failures, .error e) => (events ++ failures, .error e)
    | (failures, .ok node) =>
      match Core.advance ready.token node.core with
      | .error e _ => (events ++ failures, .error e)
      | .ok () core => (events ++ failures, .ok { node with core })

end Node

/-- The core errors after which the owner stops. -/
def fatalCoreError : RaftError → Bool
  | .committedConflict | .logInvariant | .logOverflow | .termOverflow | .deadlineOverflow
  | .replicationGenerationOverflow | .readyTokenExhausted | .invalidCoreState => true
  | _ => false

end Crane.Raft
