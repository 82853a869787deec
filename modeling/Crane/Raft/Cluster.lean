import Crane.Raft.Node

/-!
# A cluster of voters

Every voter has a durable store and, while it is up, a process: a node and the place in its
event loop at which it is. `Host.step` is what one voter does on one input. It never sees
another voter: messages leave through `sent`, and any message ever sent may come back as a
`deliver` at its addressee, at any time and any number of times. A voter may stop at any place;
what it comes back with is what its store holds.

One pass of `drainReady` is cut into inputs at the points where something becomes durable or
visible:

* `drain` takes the next batch, checks it and makes it durable, or finds none and starts a
  snapshot transfer or capture;
* `act` carries out the batch's snapshot action and sends its response, `actAndStop` stops after
  the store has changed;
* `send` hands one message to the transport, `apply` one entry to the application;
* `finish` resolves proposals and releases the batch, `finishAndStop` stops on the way.
-/

namespace Crane.Raft

/-- A message on its way, with the authenticated identity of its sender. -/
structure Envelope where
  senderID : Nat
  message : PeerMessage
  deriving DecidableEq

/-- The places of a node's event loop. -/
inductive Phase where
  | waiting
  | draining
  | acting (ready : Ready)
  | sending (ready : Ready) (rest : List PeerMessage)
  | applying (ready : Ready) (rest : List Entry) (results : List ProposalResult)
  deriving DecidableEq

structure Process (σ : Type) where
  node : Node σ
  phase : Phase

structure Host (σ : Type) where
  store : MemoryStore
  process : Option (Process σ)

inductive Input where
  | tick (now sample : Nat)
  | deliver (envelope : Envelope) (sample : Nat)
  | propose (kind : EntryKind) (command : Bytes)
  | captured
  | drain (transferID : Bytes) (retained : Nat)
  | act
  | actAndStop (observed : Nat)
  | send
  | apply
  | finish
  | finishAndStop (observed : Nat)
  | stop
  | recover (sample : Nat)
  | recoverAndStop (sample observed : Nat)

/-- What one input does to a voter and what others see of it. -/
structure Effect (σ : Type) where
  host : Host σ
  sent : List Envelope
  events : List Event

variable {σ : Type}

namespace Host

/-- The process ends; a snapshot that was being staged is given up with it. -/
def stopped (store : MemoryStore) : Host σ := ⟨store.abortSnapshotStage, none⟩

def running (store : MemoryStore) (node : Node σ) (phase : Phase) : Host σ := ⟨store, some ⟨node, phase⟩⟩

end Host

namespace Effect

/-- Nothing but a new host. -/
def silent (host : Host σ) : Effect σ := ⟨host, [], []⟩

end Effect

namespace Node

/-- Run a core input and go on to drain its output. An error stops the node when `fatal` says
    so, and otherwise leaves it waiting with the core as the error left it. -/
def onCore {α : Type} (node : Node σ) (store : MemoryStore) (fatal : RaftError → Bool)
    (program : CoreM α) (accept : α → Node σ → Node σ) : Effect σ :=
  match program node.core with
  | .ok a core => .silent (.running store (accept a { node with core }) .draining)
  | .error e core =>
    if fatal e then .silent (.stopped store)
    else .silent (.running store { node with core } .waiting)

variable [Hash]

/-- The top of the drain loop. -/
def drain (sm : StateMachine σ) (node : Node σ) (store : MemoryStore) (transferID : Bytes)
    (retained : Nat) : Host σ :=
  match node.core.ready with
  | (core, some ready) =>
    let node := { node with core }
    match node.validateReadyAndDerive ready with
    | .error _ => .stopped store
    | .ok (batch, prospective) =>
      if persistenceBatchHasEffects batch then
        match store.persist batch with
        | .error _ => .stopped store
        | .ok store => .running store { node with durableState := prospective } (.acting ready)
      else .running store node (.acting ready)
  | (core, none) =>
    let node := { node with core }
    if core.terminalErr.isSome then .stopped store
    else
      match node.maybeStartSnapshotTransfer transferID with
      | .error _ => .stopped store
      | .ok (node, true) => .running store node .draining
      | .ok (node, false) =>
        match node.maybeStartSnapshotCapture sm retained with
        | .error _ => .stopped store
        | .ok node => .running store node .waiting

end Node

variable [Hash]

/-- What a voter does on an input in its current place; an input that does not belong there does
    nothing. -/
def Process.step (sm : StateMachine σ) (store : MemoryStore) (process : Process σ)
    (input : Input) : Effect σ :=
  let node := process.node
  let localID := node.options.localID
  let idle : Effect σ := .silent ⟨store, some process⟩
  match process.phase, input with
  | _, .stop => .silent (.stopped store)
  | .waiting, .tick now sample => node.onCore store (fun _ => true) (Core.tick now sample) fun _ node => node
  | .waiting, .deliver envelope sample =>
    if envelope.message.toID = localID then
      node.onCore store fatalCoreError
        (Core.step envelope.senderID envelope.message.rpc sample) fun _ node => node
    else idle
  | .waiting, .propose kind command =>
    node.onCore store (fun _ => false) (Core.proposeTracked kind command) fun proposal node =>
      { node with pendingLocal := put node.pendingLocal proposal.1 proposal.2 }
  | .waiting, .captured =>
    match node.captureInFlight with
    | none => idle
    | some _ =>
      match node.finishSnapshotCapture store with
      | (store, .error _) => .silent (.stopped store)
      | (store, .ok node) => .silent (.running store node .draining)
  | .draining, .drain transferID retained => .silent (node.drain sm store transferID retained)
  | .acting ready, .act =>
    match ready.snapshotActions with
    | [] => .silent (.running store node (.sending ready ready.messages))
    | action :: _ =>
      match node.executeSnapshotAction sm store ready.token action with
      | ⟨store, events, .error _⟩ => ⟨.stopped store, [], events⟩
      | ⟨store, events, .ok (node, message)⟩ =>
        ⟨.running store node (.sending ready ready.messages), [⟨localID, message⟩], events⟩
  | .acting ready, .actAndStop observed =>
    match ready.snapshotActions with
    | [] => idle
    | action :: _ =>
      let outcome := node.executeSnapshotAction sm store ready.token action
      ⟨.stopped outcome.store, [], outcome.events.take observed⟩
  | .sending ready (message :: rest), .send =>
    ⟨.running store node (.sending ready rest), [⟨localID, message⟩], []⟩
  | .sending ready [], .send => .silent (.running store node (.applying ready ready.committedEntries []))
  | .applying ready (entry :: rest) results, .apply =>
    match node.applyCommitted sm entry with
    | (events, none) => ⟨.stopped store, [], events⟩
    | (events, some (node, result)) =>
      ⟨.running store node (.applying ready rest (results ++ [result])), [], events⟩
  | .applying ready [] results, .finish =>
    match node.finishReady ready results with
    | (events, .error _) => ⟨.stopped store, [], events⟩
    | (events, .ok node) => ⟨.running store node .draining, [], events⟩
  | .applying ready [] results, .finishAndStop observed =>
    ⟨.stopped store, [], (node.finishReady ready results).1.take observed⟩
  | _, _ => idle

def Host.step (sm : StateMachine σ) (options : NodeOptions) (host : Host σ) (input : Input) : Effect σ :=
  match host.process, input with
  | some process, input => process.step sm host.store input
  | none, .recover sample =>
    match Node.recoverPreparedState sm options host.store sample with
    | (events, .error _) => ⟨.stopped host.store, [], events⟩
    | (events, .ok node) => ⟨.running host.store node .waiting, [], events⟩
  | none, .recoverAndStop sample observed =>
    ⟨.stopped host.store, [], (Node.recoverPreparedState sm options host.store sample).1.take observed⟩
  | none, _ => .silent host

/-! ## Runs -/

/-- A fixed voter set, each voter's accepted options, and the application they all run. The bound
    on entries per message is a 16-bit number. -/
structure Config (σ : Type) where
  voters : VoterSet
  options : Nat → NodeOptions
  sm : StateMachine σ
  formatVersion : ∀ id ∈ voters.voters, (options id).identity.formatVersion = 1
  localID : ∀ id ∈ voters.voters, (options id).localID = id
  sameVoters : ∀ id ∈ voters.voters, (options id).voters = voters
  appendEntries : ∀ id ∈ voters.voters, (options id).maxAppendEntries < 2 ^ 16
  accepted : ∀ id ∈ voters.voters, newNode (options id) (options id).maxSnapshotBytes = .ok (options id)

structure Cluster (σ : Type) where
  hosts : Nat → Host σ
  sent : List Envelope
  history : List Event

/-- The empty durable state of a new voter. -/
def emptyState (identity : StorageIdentity) : RecoveredState where
  identity
  hardState := ⟨0, 0, 0⟩
  snapshotBase := ⟨0, 0, 0⟩
  snapshot := none
  appliedIndex := 0
  entries := []

def emptyStore (options : NodeOptions) : MemoryStore where
  identity := options.identity
  voters := options.voters
  snapshotLimit := options.maxSnapshotBytes
  state := emptyState options.identity
  stage := none

/-- Every voter is down, with a store nothing was written to yet. -/
def Cluster.initial (cfg : Config σ) : Cluster σ where
  hosts id := ⟨emptyStore (cfg.options id), none⟩
  sent := []
  history := []

/-- One voter takes one input. -/
def Cluster.step (cfg : Config σ) (cluster : Cluster σ) (id : Nat) (input : Input) : Cluster σ :=
  let effect := (cluster.hosts id).step cfg.sm (cfg.options id) input
  { hosts := Function.update cluster.hosts id effect.host
    sent := cluster.sent ++ effect.sent
    history := cluster.history ++ effect.events }

/-- The network invents nothing: what is delivered was sent. -/
def Input.Possible (cluster : Cluster σ) : Input → Prop
  | .deliver envelope _ => envelope ∈ cluster.sent
  | _ => True

/-- The states a cluster can get into. -/
inductive Reachable (cfg : Config σ) : Cluster σ → Prop where
  | initial : Reachable cfg (Cluster.initial cfg)
  | step {cluster : Cluster σ} {id : Nat} {input : Input} : Reachable cfg cluster →
      id ∈ cfg.voters.voters → input.Possible cluster →
      Reachable cfg (cluster.step cfg id input)

/-- The later states of a run. -/
inductive Later (cfg : Config σ) (cluster : Cluster σ) : Cluster σ → Prop where
  | refl : Later cfg cluster cluster
  | step {later : Cluster σ} {id : Nat} {input : Input} : Later cfg cluster later →
      id ∈ cfg.voters.voters → input.Possible later → Later cfg cluster (later.step cfg id input)

lemma Later.reachable {cfg : Config σ} {cluster later : Cluster σ} (h : Later cfg cluster later)
    (hr : Reachable cfg cluster) : Reachable cfg later := by
  induction h with
  | refl => exact hr
  | step _ hid hin ih => exact .step ih hid hin

/-! ### Scripted runs -/

/-- An instruction of a scripted run: an input at a voter, or the arrival of the `k`-th message
    that was sent. -/
inductive Cue where
  | voter (id : Nat) (input : Input)
  | arrive (k sample : Nat)

instance (cluster : Cluster σ) (input : Input) : Decidable (input.Possible cluster) :=
  match input with
  | .deliver envelope _ => inferInstanceAs (Decidable (envelope ∈ cluster.sent))
  | .tick _ _ | .propose _ _ | .captured | .drain _ _ | .act | .actAndStop _ | .send | .apply
  | .finish | .finishAndStop _ | .stop | .recover _ | .recoverAndStop _ _ => .isTrue trivial

/-- What the next instruction asks of which voter. -/
def Cue.request? (cluster : Cluster σ) : Cue → Option (Nat × Input)
  | .voter id input => some (id, input)
  | .arrive k sample => cluster.sent[k]?.map fun envelope => (envelope.message.toID, .deliver envelope sample)

/-- Follow the script; what is not possible is skipped. -/
def Cluster.play (cfg : Config σ) (cluster : Cluster σ) : List Cue → Cluster σ
  | [] => cluster
  | cue :: rest =>
    match cue.request? cluster with
    | none => cluster.play cfg rest
    | some (id, input) =>
      if id ∈ cfg.voters.voters ∧ input.Possible cluster then
        (cluster.step cfg id input).play cfg rest
      else cluster.play cfg rest

lemma Later.trans {cfg : Config σ} {cluster middle later : Cluster σ}
    (h : Later cfg cluster middle) (h' : Later cfg middle later) : Later cfg cluster later := by
  induction h' with
  | refl => exact h
  | step _ hid hin ih => exact .step ih hid hin

lemma Later.play (cfg : Config σ) (cluster : Cluster σ) (script : List Cue) :
    Later cfg cluster (cluster.play cfg script) := by
  induction script generalizing cluster with
  | nil => exact .refl
  | cons _ _ ih =>
    unfold Cluster.play
    split
    · exact ih cluster
    split
    · next hposs => exact (Later.step .refl hposs.1 hposs.2).trans (ih _)
    · exact ih cluster

end Crane.Raft
