import Crane.State.Command

/-!
# The replicated machine and its two engines

`Machine` of `state.go`, and the engines every command goes through. Both first look for the
command in the history they keep: the client engine one resolved request per client, the internal
engine the latest command and the latest effective command per subject. Only a command that is not
recognised is prepared; what it prepared is a plan, and the engine commits the plan together with
the history that will recognise the command from then on, if the snapshot that would result still
fits.

A method of the source that changes the machine in place returns the changed machine here, and an
error returns none. The source changes nothing before it has passed its last error.
-/

namespace Crane.State

open Wire Data Model

abbrev maxClientSessions : Nat := 1024
abbrev maxSubjectHistories : Nat := 197889
abbrev maxCachedResultBytes : Nat := 65536
abbrev maxSnapshotBytes : Nat := 8388608
abbrev maxInvalidationProvenance : Nat := 2 ^ 16 - 1

/-! What each part of the state counts in the snapshot estimate. -/

abbrev estimatedSnapshotBaseBytes : Nat := 4 + 2 + 32 + 8 + 8 + 34 + 5 * 8
abbrev clientHistoryFixedBytes : Nat := 60
abbrev subjectHistoryFixedBytes : Nat := 136
abbrev workerRecordEstimatedBytes : Nat := 95
abbrev jobRecordFixedEstimatedBytes : Nat := 117
abbrev assignmentFixedBytes : Nat := 16 + 8 + 32 + 2 * 2
abbrev assignmentTokenEstimatedBytes : Nat := 86
abbrev resultReplicaEstimatedBytes : Nat := 56
abbrev reassignmentMarkerEstimatedBytes : Nat := 60
abbrev invalidationProvenanceFixedBytes : Nat := 158
abbrev sourceEOFEntryEstimatedBytes : Nat := 36
abbrev checkpointEntryEstimatedBytes : Nat := 36
abbrev resultManifestEntryEstimatedBytes : Nat := 200
abbrev jobFailureEstimatedBytes : Nat := 194
abbrev workerEventEntryEstimatedBytes : Nat := 58

structure Machine where
  clients : Table ClientID ClientHistory
  subjects : Table SubjectKey SubjectHistory
  coordinatorRevision : U64
  coordinatorEpoch : CoordinatorEpoch
  workers : Table U16 WorkerRecord
  jobs : Table JobID JobRecord
  workerEvents : Table WorkerEventKey WorkerEventCursor
  lastAppliedIndex : U64
  estimatedSnapshotBytes : Nat
  deriving DecidableEq

/-- `NewMachine`. -/
def Machine.new : Machine := ⟨.empty, .empty, 0, .zero, .empty, .empty, .empty, 0, estimatedSnapshotBaseBytes⟩

/-- Why an application fails. The last two never happen on a machine that only ever applied
commands: a violated expectation of the source, and its one call that panics on an error. -/
inductive ApplyError where
  | malformedCommand
  | invalidApplyIndex
  | impossible
  | panicked
  deriving DecidableEq

/-- What a command would do. A plan that is not rejected takes effect through `commit`; one that
is rejected is remembered with its result all the same, unless it was refused for capacity. -/
structure MutationPlan where
  result : Bytes
  commit : Machine → Machine := id
  reject : Bool := false
  capacity : Bool := false
  stateDelta : Int := 0

abbrev Prepared := Except ApplyError MutationPlan

/-- A marshalling error is an error of the caller. -/
def orImpossible {α : Type} : Option α → Except ApplyError α
  | none => .error .impossible
  | some a => .ok a

/-- The plan that changes nothing and answers with that code. -/
def rejectWith (code : ResultCode) (subject : SubjectKey) (revision : U64) : Prepared := do
  let result ← orImpossible (marshalBusinessResult code subject revision .zero)
  .ok { result, reject := true }

/-- The plan that refuses for want of room. -/
def refuseForCapacity (subject : SubjectKey) : Prepared := do
  let result ← orImpossible (marshalBusinessResult .capacityExhausted subject 0 .zero)
  .ok { result, reject := true, capacity := true }

/-- The plan that takes effect and answers with the subject's new revision. -/
def succeedWith (subject : SubjectKey) (revision : U64) (stateDelta : Int)
    (commit : Machine → Machine) : Prepared := do
  let result ← orImpossible (marshalBusinessResult .success subject revision .zero)
  .ok { result, commit, stateDelta }

/-! ## Sizes -/

def checkedAddMany (values : List Nat) : Option Nat := if values.sum < 2 ^ 64 then some values.sum else none

def checkedSnapshotAdd (left right : Nat) : Option Nat := do
  let total ← checkedAddMany [left, right]
  guard (total ≤ maxSnapshotBytes)
  some total

def preflightMutationDelta (current : Nat) (delta : Int) : Option Nat :=
  if delta < 0 then
    if current < delta.natAbs then none else some (current - delta.natAbs)
  else checkedSnapshotAdd current delta.natAbs

def clientHistoryEstimatedBytes (history : ClientHistory) : Option Nat :=
  checkedAddMany [clientHistoryFixedBytes, history.result.length]

def subjectHistoryEstimatedBytes (history : SubjectHistory) : Option Nat :=
  checkedAddMany [subjectHistoryFixedBytes, history.target.length, history.result.length,
    history.appliedTarget.length, history.appliedResult.length]

/-- What is left of the estimate once an old entry is gone. -/
def withoutEntry (current : Nat) (known : Bool) (oldSize : Option Nat) : Option Nat :=
  if known then do
    let size ← oldSize
    guard (size ≤ current)
    some (current - size)
  else some current

def SubjectHistory.zero : SubjectHistory := ⟨0, 0, 0, [], [], false, [], [], 0⟩

def ClientHistory.zero : ClientHistory := ⟨0, 0, []⟩

namespace Machine

def preflightClientHistoryLength (m : Machine) (old : ClientHistory) (known : Bool)
    (resultLength : Nat) : Option Nat := do
  let current ← withoutEntry m.estimatedSnapshotBytes known (clientHistoryEstimatedBytes old)
  let nextSize ← checkedAddMany [clientHistoryFixedBytes, resultLength]
  checkedSnapshotAdd current nextSize

def preflightSubjectHistoryLengths (m : Machine) (old : SubjectHistory) (known : Bool)
    (targetLength resultLength appliedTargetLength appliedResultLength : Nat) : Option Nat := do
  let current ← withoutEntry m.estimatedSnapshotBytes known (subjectHistoryEstimatedBytes old)
  let nextSize ← checkedAddMany [subjectHistoryFixedBytes, targetLength, resultLength,
    appliedTargetLength, appliedResultLength]
  checkedSnapshotAdd current nextSize

/-! ## Revisions -/

def epochForSubject (m : Machine) (subject : SubjectKey) (revision : U64) : CoordinatorEpoch :=
  if subject.kind = .coordinator ∧ revision ≠ 0 then m.coordinatorEpoch else .zero

/-- The revision a subject stands at; zero for one that is not there. -/
def subjectRevision (m : Machine) (subject : SubjectKey) : U64 :=
  match subject.kind with
  | .coordinator => m.coordinatorRevision
  | .worker => ((m.workers.find? subject.workerID).map (·.revision)).getD 0
  | .jobControl => ((m.jobs.find? subject.jobID).map (·.jobControlRevision)).getD 0
  | .sourceEOF => (((m.jobs.find? subject.jobID).bind (·.sourceEOFs.find? subject.taskID)).map
      (·.revision)).getD 0
  | .sourceCheckpoint => (((m.jobs.find? subject.jobID).bind
      (·.checkpoints.find? subject.taskID)).map (·.revision)).getD 0
  | .resultManifest => (((m.jobs.find? subject.jobID).bind
      (·.manifests.find? subject.taskID)).map (·.manifestRevision)).getD 0
  | .none => 0

/-! ## Answers -/

/-- The answer that leaves everything as it is. -/
def reply (m : Machine) (code : ResultCode) (subject : SubjectKey) (revision : U64)
    (epoch : CoordinatorEpoch) : Except ApplyError (Machine × Bytes) := do
  let result ← orImpossible (marshalBusinessResult code subject revision epoch)
  .ok (m, result)

/-- A result that is too long to be remembered is replaced (`mustBusinessResult`). -/
def capResult (subject : SubjectKey) (revision : U64) (epoch : CoordinatorEpoch)
    (plan : MutationPlan) : Prepared :=
  if maxCachedResultBytes < plan.result.length then
    match marshalBusinessResult .resultTooLarge subject revision epoch with
    | none => .error .panicked
    | some result => .ok { result, reject := true }
  else .ok plan

/-- The machine after the plan: rejected ones leave it alone. -/
def settle (m : Machine) (plan : MutationPlan) : Machine := if plan.reject then m else plan.commit m

/-! ## The client engine -/

def storeClient (m : Machine) (client : ClientID) (history : ClientHistory) (newSize : Nat) :
    Machine :=
  { m with clients := m.clients.insert client history, estimatedSnapshotBytes := newSize }

/-- The end of `applyClientCommandLocked`: the plan is there, the request is the client's next. -/
def concludeClient (m : Machine) (client : ClientEnvelope) (old : ClientHistory) (known : Bool)
    (plan : MutationPlan) : Except ApplyError (Machine × Bytes) := do
  let plan ← capResult .unbound 0 .zero plan
  if plan.capacity then .ok (m, plan.result)
  else
    match (m.preflightClientHistoryLength old known plan.result.length).bind
        (preflightMutationDelta · plan.stateDelta) with
    | none => m.reply .capacityExhausted .unbound 0 .zero
    | some newSize =>
      let history : ClientHistory := ⟨client.request.sequence, client.digest, plan.result⟩
      .ok ((m.settle plan).storeClient client.request.clientID history newSize, plan.result)

def applyClientCommand (m : Machine) (envelope : Envelope) (client : ClientEnvelope)
    (subject : SubjectKey) (prepare : Prepared) : Except ApplyError (Machine × Bytes) :=
  let history := m.clients.find? client.request.clientID
  let sequence := client.request.sequence
  if client.request.validate = false ∨ client.digest = 0 then .error .impossible
  else if history.any fun old => sequence = old.sequence ∧ client.digest = old.digest then
    .ok (m, (history.getD .zero).result)
  else if envelope.coordinatorEpoch ≠ m.coordinatorEpoch then
    m.reply .staleEpoch subject (m.subjectRevision subject) m.coordinatorEpoch
  else
    match history with
    | some old =>
      if sequence = old.sequence then m.reply .identityReuse .unbound 0 .zero
      else if sequence < old.sequence then m.reply .staleRequest .unbound 0 .zero
      else if old.sequence = BitVec.allOnes 64 ∨ old.sequence + 1 < sequence then
        m.reply .skippedRequest .unbound 0 .zero
      else do
        let plan ← prepare
        m.concludeClient client old true plan
    | none =>
      if sequence ≠ 1 then m.reply .skippedRequest .unbound 0 .zero
      else if maxClientSessions ≤ m.clients.size then
        m.reply .capacityExhausted .unbound 0 .zero
      else do
        let plan ← prepare
        m.concludeClient client .zero false plan

/-! ## The internal engine -/

def storeSubject (m : Machine) (subject : SubjectKey) (history : SubjectHistory) (newSize : Nat) :
    Machine :=
  { m with subjects := m.subjects.insert subject history, estimatedSnapshotBytes := newSize }

/-- The answer of an internal command that found no room. -/
def replyCapacity (m : Machine) (subject : SubjectKey) (revision : U64) : Except ApplyError (Machine × Bytes) :=
  m.reply .capacityExhausted subject revision (m.epochForSubject subject revision)

/-- The command whose target is already in force: it is remembered with the result that put it in
force. -/
def recallApplied (m : Machine) (internal : InternalEnvelope) (target : Bytes)
    (old : SubjectHistory) : Except ApplyError (Machine × Bytes) :=
  match m.preflightSubjectHistoryLengths old true target.length old.appliedResult.length
      old.appliedTarget.length old.appliedResult.length with
  | none => m.replyCapacity internal.subject old.revision
  | some newSize =>
    let history := { old with id := internal.id, digest := internal.digest, target
                              result := old.appliedResult, applied := true }
    .ok (m.storeSubject internal.subject history newSize, old.appliedResult)

/-- The command that expects another revision: `cacheInternalOperation` remembers the mismatch. -/
def cacheMismatch (m : Machine) (internal : InternalEnvelope) (target : Bytes) (known : Bool)
    (old : SubjectHistory) : Except ApplyError (Machine × Bytes) := do
  let result ← orImpossible (marshalBusinessResult .revisionMismatch internal.subject old.revision
    (m.epochForSubject internal.subject old.revision))
  if known = false ∧ maxSubjectHistories ≤ m.subjects.size then
    m.replyCapacity internal.subject old.revision
  else
    match m.preflightSubjectHistoryLengths old known target.length result.length
        old.appliedTarget.length old.appliedResult.length with
    | none => m.replyCapacity internal.subject old.revision
    | some newSize =>
      let history := { old with id := internal.id, digest := internal.digest, target
                                result, applied := false }
      .ok (m.storeSubject internal.subject history newSize, result)

/-- The history of a command whose plan was carried out. -/
def resolvedHistory (internal : InternalEnvelope) (target appliedTarget : Bytes)
    (old : SubjectHistory) (plan : MutationPlan) : SubjectHistory :=
  let history := { old with id := internal.id, digest := internal.digest, target
                            result := plan.result, applied := !plan.reject }
  if plan.reject then history
  else { history with revision := old.revision + 1, appliedTarget, appliedResult := plan.result
                      appliedRevision := old.revision + 1 }

/-- The end of `applyInternalResolvedAtLocked`: the plan is there, the revision is the expected
one. -/
def concludeInternal (m : Machine) (internal : InternalEnvelope) (target appliedTarget : Bytes)
    (known : Bool) (old : SubjectHistory) (plan : MutationPlan) :
    Except ApplyError (Machine × Bytes) := do
  let plan ← capResult internal.subject old.revision (m.epochForSubject internal.subject old.revision)
    plan
  if plan.capacity then .ok (m, plan.result)
  else
    let history := resolvedHistory internal target appliedTarget old plan
    match (m.preflightSubjectHistoryLengths old known target.length plan.result.length
        history.appliedTarget.length history.appliedResult.length).bind
        (preflightMutationDelta · plan.stateDelta) with
    | none => m.replyCapacity internal.subject old.revision
    | some newSize => .ok ((m.settle plan).storeSubject internal.subject history newSize, plan.result)

/-- `applyInternalResolvedAtLocked`. Subjects whose revision the state itself holds give it as
`authoritativeRevision`; for the others it is the history's. -/
def applyInternalResolvedAt [Contract] (m : Machine) (envelope : Envelope)
    (internal : InternalEnvelope) (target appliedTarget : Bytes)
    (authoritativeRevision : Option U64) (prepare : U64 → Prepared) :
    Except ApplyError (Machine × Bytes) :=
  let known := (m.subjects.find? internal.subject).isSome
  let history := (m.subjects.find? internal.subject).getD .zero
  let currentRevision := authoritativeRevision.getD history.revision
  let old := { history with revision := currentRevision }
  if envelope.validate = false ∨ internal.digest ≠ internalDigest envelope internal target then
    .error .impossible
  else if known ∧ history.id = internal.id then
    if history.digest = internal.digest ∧ history.target = target then .ok (m, history.result)
    else
      m.reply .identityReuse internal.subject history.revision
        (m.epochForSubject internal.subject history.revision)
  else if envelope.kind ≠ .beginCoordinatorEpoch ∧ envelope.coordinatorEpoch ≠ m.coordinatorEpoch then
    m.reply .staleEpoch internal.subject currentRevision m.coordinatorEpoch
  else if known ∧ history.appliedTarget ≠ [] ∧ history.appliedTarget = appliedTarget ∧
      history.appliedRevision = currentRevision then
    m.recallApplied internal target old
  else if known = false ∧ maxSubjectHistories ≤ m.subjects.size then
    m.reply .capacityExhausted internal.subject 0 .zero
  else if internal.expectedRevision ≠ currentRevision then
    m.cacheMismatch internal target known old
  else if currentRevision = BitVec.allOnes 64 then .error .impossible
  else do
    let plan ← prepare (currentRevision + 1)
    m.concludeInternal internal target appliedTarget known old plan

end Machine

end Crane.State
