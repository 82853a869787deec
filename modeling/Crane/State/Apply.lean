import Crane.State.Jobs

/-!
# Applying commands

`Machine.Apply` of `state.go`: one committed log entry is decoded, handed to its engine, and its
index recorded. A machine is `Reachable` if entries took it there from a new one. An entry that
fails leaves the machine as it was, and a node stops at it.
-/

namespace Crane.State

open Wire Data Model

namespace Machine

/-- The sole source of coordinator fences. -/
def prepareBeginCoordinator (m : Machine) (index term : U64) (coordinator : U16) (nonce : Array16)
    (nextRevision : U64) : Prepared :=
  let current := m.coordinatorEpoch
  let epoch : CoordinatorEpoch := ⟨term, index, coordinator, nonce⟩
  if m.coordinatorRevision ≠ nextRevision - 1 then .error .impossible
  else if current ≠ .zero ∧ current.term = term ∧ current.coordinator = coordinator ∧
      current.nonce = nonce then do
    let result ← orImpossible
      (marshalBusinessResult .success .coordinator m.coordinatorRevision current)
    .ok { result }
  else if current ≠ .zero ∧ (term < current.term ∨ (term = current.term ∧ index ≤ current.beginIndex)) then do
    let result ← orImpossible
      (marshalBusinessResult .staleEpoch .coordinator m.coordinatorRevision current)
    .ok { result, reject := true }
  else if epoch.validate = false then .error .impossible
  else do
    let result ← orImpossible (marshalBusinessResult .success .coordinator nextRevision epoch)
    .ok { result
          commit := fun m => { m with coordinatorRevision := nextRevision, coordinatorEpoch := epoch } }

end Machine

namespace Target

/-- What a repetition of the command is recognised by. The fence a `BeginCoordinatorEpoch` creates
also depends on the term it was committed in. -/
def appliedBytes (term : U64) : Target → Bytes
  | .beginCoordinatorEpoch coordinator nonce =>
    Codec.u64.put term ++ (Target.beginCoordinatorEpoch coordinator nonce).bytes
  | target => target.bytes

/-- Coordinator and workers go by the revision of their history, everything in a job by the
revision the job holds. -/
def authoritativeRevision (m : Machine) : Target → Option U64
  | .beginCoordinatorEpoch .. | .registerWorker .. | .drainWorker .. | .deactivateWorker ..
  | .replaceWorkerEpoch .. => none
  | target => some (m.subjectRevision target.subject)

variable [Contract]

/-- The plan of an internal command. -/
def prepare (m : Machine) (index term : U64) (target : Target) (nextRevision : U64) : Prepared :=
  let currentRevision := m.subjectRevision target.subject
  match target with
  | .beginCoordinatorEpoch coordinator nonce =>
    m.prepareBeginCoordinator index term coordinator nonce nextRevision
  | .registerWorker worker => m.prepareRegisterWorker worker nextRevision
  | .drainWorker workerID epoch => m.prepareDrainWorker workerID epoch nextRevision
  | .deactivateWorker workerID epoch affected => m.prepareDeactivateWorker workerID epoch affected nextRevision
  | .replaceWorkerEpoch workerID oldEpoch record affected =>
    m.prepareReplaceWorkerEpoch workerID oldEpoch record affected nextRevision
  | .recordSourceEOF source eof => m.prepareRecordSourceEOF source eof currentRevision nextRevision
  | .installAssignments assignment => m.prepareInstallAssignments assignment currentRevision nextRevision
  | .replaceAssignments jobID expected digest markers assignment =>
    m.prepareReplaceAssignments jobID expected digest markers assignment currentRevision nextRevision
  | .advanceCheckpoint report => m.prepareAdvanceCheckpoint report currentRevision nextRevision
  | .sealManifest manifest => m.prepareSealManifest manifest currentRevision nextRevision
  | .transitionJob jobID origin next => m.prepareTransitionJob jobID origin next currentRevision nextRevision
  | .failJob report => m.prepareFailJob report currentRevision nextRevision
  -- client commands do not come this way
  | .submitJob _ => .error .impossible
  | .cancelJob .. => .error .impossible

end Target

namespace Machine

variable [Contract]

def applySubmitJob (m : Machine) (envelope : Envelope) (client : ClientEnvelope)
    (topology : TopologySpec) : Except ApplyError (Machine × Bytes) := do
  let validated ← orImpossible (validateTopology topology)
  let jobID := deriveJobID client.request validated.digest
  m.applyClientCommand envelope client (.jobControl jobID)
    (m.prepareSubmitJob client.request jobID validated.digest validated.canonical)

def applyCancelJob (m : Machine) (envelope : Envelope) (client : ClientEnvelope) (job : JobID)
    (expectedRevision : U64) : Except ApplyError (Machine × Bytes) :=
  m.applyClientCommand envelope client (.jobControl job) (m.prepareCancelJob job expectedRevision)

/-- The command of each kind goes to its engine. -/
def applyCommand (m : Machine) (index term : U64) (command : Command) : Except ApplyError (Machine × Bytes) :=
  match command.envelope.identity with
  | .inl client =>
    match command.target with
    | .submitJob topology => m.applySubmitJob command.envelope client topology
    | .cancelJob job expectedRevision => m.applyCancelJob command.envelope client job expectedRevision
    | _ => .error .impossible
  | .inr internal =>
    m.applyInternalResolvedAt command.envelope internal command.target.bytes
      (command.target.appliedBytes term) (command.target.authoritativeRevision m)
      (command.target.prepare m index term)

def apply (m : Machine) (index term : U64) (encoded : Bytes) : Except ApplyError (Machine × Bytes) :=
  if index = 0 ∨ term = 0 then .error .malformedCommand
  else
    match unmarshalCommand encoded with
    | none => .error .malformedCommand
    | some command =>
      if index ≤ m.lastAppliedIndex then .error .invalidApplyIndex
      else do
        let (applied, result) ← m.applyCommand index term command
        .ok ({ applied with lastAppliedIndex := index }, result)

end Machine

/-- One entry of the replicated log. -/
structure LogEntry where
  index : U64
  term : U64
  command : Bytes
  deriving DecidableEq

section Runs

variable [Contract]

/-- One log entry applied. -/
def Applies (m : Machine) (entry : LogEntry) (result : Bytes) (m' : Machine) : Prop :=
  m.apply entry.index entry.term entry.command = .ok (m', result)

/-- The machines a machine reaches, with the entries that take it there. -/
inductive Run (m : Machine) : List LogEntry → Machine → Prop where
  | start : Run m [] m
  | next {log : List LogEntry} {m1 m2 : Machine} {entry : LogEntry} {result : Bytes} :
    Run m log m1 → Applies m1 entry result m2 → Run m (log ++ [entry]) m2

def Reachable (m : Machine) : Prop := ∃ log, Run .new log m

end Runs

end Crane.State
