import Crane.Worker.Records

/-!
# The work a worker keeps

`store/records*.go`: what a worker's store holds of the jobs it takes part in, and how the transactions
on its fence, its assignments, its source cursors and its checkpoints change that. A slice that is kept sorted by an
identity, or searched by one, is a table over it.

The numbering of events and the derivation of outboxes are not here, nor are the encodings and the byte
budget. Errors are told apart where a caller does.
-/

namespace Crane.Worker

open Wire Data Model

structure RecoveredWork where
  fence : CoordinatorEpoch
  assignments : Table JobID InstalledAssignment
  sources : Table TaskID SourceCursor
  checkpoints : Table TaskID CommittedCheckpoint
  deliveries : List DeliveryRecord
  outboxes : List OutboxRecord
  results : List StoredResult
  repairs : List ResultRepairRecord
  pendingEvents : List WorkerEvent

def newRecoveredWork : RecoveredWork := ⟨.zero, .empty, .empty, .empty, [], [], [], [], []⟩

inductive StoreError where
  | identityReuse
  | capacity
  | authorityUnavailable
  | refused
  deriving DecidableEq

/-! ## Fences and assignments -/

def applyFence (work : RecoveredWork) (epoch : CoordinatorEpoch) : Except StoreError RecoveredWork :=
  if epoch.validate = false then .error .refused
  else if work.fence = .zero then .ok { work with fence := epoch }
  else
    match compareEpochOrder epoch work.fence with
    | .lt => .error .refused
    | .eq => if epoch ≠ work.fence then .error .refused else .ok work
    | .gt => .ok { work with fence := epoch }

def equalInstalledAssignmentContent (a b : InstalledAssignment) : Bool :=
  a.assignment = b.assignment && a.jobControlRevision = b.jobControlRevision &&
    a.specificationBytes = b.specificationBytes

def equalInstalledAssignment (a b : InstalledAssignment) : Bool :=
  equalInstalledAssignmentContent a b && a.schedulingState = b.schedulingState &&
    a.coordinatorEpoch = b.coordinatorEpoch

/-- The two changes of admission a coordinator makes at one fence and revision. -/
def admissionSchedulingProgression (prior incoming : SchedulingState) : Bool :=
  (prior = .running && incoming = .closed) || (prior = .closed && incoming = .running)

/-- A task of a later placement is the same attempt where it stays, and a later one where it moved. -/
def regressesAttempt (old new : AssignmentToken) : Bool :=
  new.attempt < old.attempt ||
    ((new.workerID ≠ old.workerID || new.workerEpoch ≠ old.workerEpoch) && new.attempt ≤ old.attempt)

section Reduce

variable [Contract]

def applyAssignment (work : RecoveredWork) (installed : InstalledAssignment) : Except StoreError RecoveredWork :=
  if work.fence = .zero ∨ installed.coordinatorEpoch ≠ work.fence then .error .refused
  else
    match decodeTopology installed.specificationBytes with
    | none => .error .refused
    | some decoded =>
      if installed.assignment.validate decoded = false then .error .refused
      else if installed.jobControlRevision = 0 then .error .refused
      else
        let installed := { installed with topology := decoded }
        let stored := { work with assignments := work.assignments.insert installed.assignment.jobID installed }
        match work.assignments.find? installed.assignment.jobID with
        | none => if Limits.maxRetainedJobs ≤ work.assignments.size then .error .capacity else .ok stored
        | some prior =>
          if installed.assignment.revision < prior.assignment.revision then .error .refused
          else if installed.assignment.revision = prior.assignment.revision then
            let contentEqual := equalInstalledAssignmentContent prior installed
            if equalInstalledAssignment prior installed then .ok work
            -- a later leadership takes the placement over as it is
            else if contentEqual ∧ compareEpochOrder installed.coordinatorEpoch prior.coordinatorEpoch = .gt then
              .ok stored
            else if contentEqual ∧ installed.coordinatorEpoch = prior.coordinatorEpoch ∧
                admissionSchedulingProgression prior.schedulingState installed.schedulingState then
              .ok stored
            else if installed.assignment.digest ≠ prior.assignment.digest ∨
                installed.specificationBytes ≠ prior.specificationBytes ∨
                installed.assignment.tasks ≠ prior.assignment.tasks ∨
                installed.assignment.resultReplicas ≠ prior.assignment.resultReplicas ∨
                installed.jobControlRevision ≤ prior.jobControlRevision then .error .identityReuse
            else .ok stored
          else if installed.jobControlRevision < prior.jobControlRevision ∨
              installed.specificationBytes ≠ prior.specificationBytes then .error .refused
          else if prior.assignment.tasks.any fun old =>
              (findToken installed.assignment old.task).any (regressesAttempt old) then
            .error .refused
          else .ok stored

end Reduce

/-! ## Source cursors -/

def validCheckpointAuthority (cursor : SourceCursor) : Bool :=
  let proof := cursor.checkpointAuthority
  if cursor.checkpointRevision = 0 then proof = .zero
  else
    proof.jobControlRevision ≠ 0 && proof.assignmentRevision ≠ 0 && proof.assignmentDigest ≠ 0 &&
      proof.sourceToken.validate && proof.sourceToken.task = cursor.source &&
      proof.sourceToken.assignmentRevision = proof.assignmentRevision &&
      proof.coordinatorEpoch.validate

/-- The bounds of a cursor by itself. -/
def SourceCursor.withinBounds (cursor : SourceCursor) : Bool :=
  cursor.nextSequence ≠ 0 && cursor.nextSequence.toNat ≤ Limits.maxSourceSequences + 1 &&
    cursor.watermark.toNat ≤ Limits.maxSourceSequences &&
    cursor.eof.toNat ≤ Limits.maxSourceSequences &&
    (cursor.eof = 0 || cursor.nextSequence.toNat ≤ cursor.eof.toNat + 1) &&
    cursor.watermark < cursor.nextSequence && (cursor.watermark = 0 || cursor.raftIndex ≠ 0) &&
    (cursor.watermark ≠ 0 || cursor.checkpointRevision = 0) && validCheckpointAuthority cursor

/-- A cursor is written anew at the first sequence, or moved to the next one with its checkpoint as it
    is. The outboxes that go with it are stored as they come. -/
def applySource (work : RecoveredWork) (cursor : SourceCursor) (outboxes : List OutboxRecord) :
    Except StoreError RecoveredWork :=
  if cursor.source.validate = false then .error .refused
  else
    match work.assignments.find? cursor.source.jobID with
    | none => .error .refused
    | some assignment =>
      if sourceEOF assignment.topology cursor.source ≠ some cursor.eof ∨ cursor.withinBounds = false ∨
          (findToken assignment.assignment cursor.source).isNone then .error .refused
      else
        let stored :=
          { work with
            sources := work.sources.insert cursor.source cursor
            outboxes := work.outboxes ++ outboxes }
        match work.sources.find? cursor.source with
        | some prior =>
          if cursor = prior then .ok work
          else if cursor.nextSequence ≠ prior.nextSequence + 1 ∨ cursor.nextSequence ≤ prior.nextSequence ∨
              cursor.watermark ≠ prior.watermark ∨ cursor.raftIndex ≠ prior.raftIndex ∨
              cursor.checkpointRevision ≠ prior.checkpointRevision ∨
              cursor.checkpointAuthority ≠ prior.checkpointAuthority then .error .refused
          else .ok stored
        | none =>
          if 2 < cursor.nextSequence ∨ cursor.watermark ≠ 0 ∨ cursor.raftIndex ≠ 0 ∨
              cursor.checkpointRevision ≠ 0 ∨ cursor.checkpointAuthority ≠ .zero then .error .refused
          else .ok stored

/-! ## Checkpoints -/

section Checkpoints

variable [Contract]

/-- The pending report of a watermark. The first one that names it decides. -/
def pendingCompletion (work : RecoveredWork) (notice : CheckpointNotice) :
    Option (WorkerEvent × CompletionReport) := do
  let event ← work.pendingEvents.find? fun event => event.completion.any fun report =>
    report.jobID = notice.jobID && report.source = notice.source && report.new = notice.watermark
  let report ← event.completion
  some (event, report)

/-- What both kinds of report are checked for. -/
def reportAuthorized (assignment : InstalledAssignment) (notice : CheckpointNotice)
    (source : AssignmentToken) (event : WorkerEvent) (report : CompletionReport) : Bool :=
  report.validate && report.jobControlRevision = assignment.jobControlRevision &&
    report.assignmentRevision = assignment.assignment.revision && report.token = source &&
    report.epoch = notice.epoch && event.workerID = source.workerID &&
    event.workerEpoch = source.workerEpoch && event.transactionID = report.workerTransactionID

def matchingCompletionReport (work : RecoveredWork) (assignment : InstalledAssignment)
    (notice : CheckpointNotice) (prior : SourceCursor) (eof : U64) : Option CompletionReport := do
  let source ← findToken assignment.assignment notice.source
  let (event, report) ← pendingCompletion work notice
  let legacyRevision := prior.watermark ≠ 0 && prior.checkpointRevision = 0 &&
    prior.checkpointAuthority = .zero
  guard (reportAuthorized assignment notice source event report = true ∧
    (legacyRevision = true ∨ report.expectedCheckpointRevision = prior.checkpointRevision) ∧
    report.prior = prior.watermark ∧ report.eof = eof)
  some report

def matchingLegacyCompletionReport (work : RecoveredWork) (assignment : InstalledAssignment)
    (notice : CheckpointNotice) (prior : SourceCursor) : Option CompletionReport := do
  let source ← findToken assignment.assignment notice.source
  let (event, report) ← pendingCompletion work notice
  guard (reportAuthorized assignment notice source event report = true ∧
    report.new = prior.watermark ∧ report.eof = prior.eof)
  some report

omit [Contract] in
def checkpointAuthority (assignment : InstalledAssignment) (report : CompletionReport) :
    CheckpointAuthority :=
  ⟨report.jobControlRevision, report.assignmentRevision, assignment.assignment.digest, report.token, report.epoch⟩

/-- A notice of the watermark the cursor has already. -/
def confirmCheckpoint (work : RecoveredWork) (notice : CheckpointNotice) (prior : SourceCursor) :
    Except StoreError RecoveredWork :=
  if notice.raftIndex ≠ prior.raftIndex then .error .identityReuse
  else if prior.checkpointRevision = 0 then
    match work.assignments.find? notice.jobID with
    | none => .error .authorityUnavailable
    | some assignment =>
      match matchingLegacyCompletionReport work assignment notice prior with
      | none => .error .authorityUnavailable
      | some report =>
        if report.expectedCheckpointRevision = BitVec.allOnes 64 then .error .capacity
        else .ok { work with
          sources := work.sources.insert notice.source { prior with
            checkpointRevision := report.expectedCheckpointRevision + 1
            checkpointAuthority := checkpointAuthority assignment report } }
  else if notice.epoch ≠ prior.checkpointAuthority.coordinatorEpoch then .error .identityReuse
  else .ok work

/-- The revision and authority a cursor takes over with a watermark: those of the worker's own report
    where it is pending, one more than it had under the installed placement otherwise. -/
def adoptedAuthority (work : RecoveredWork) (assignment : InstalledAssignment)
    (notice : CheckpointNotice) (prior : SourceCursor) (eof : U64) :
    Except StoreError (U64 × CheckpointAuthority) :=
  match matchingCompletionReport work assignment notice prior eof with
  | some report =>
    if report.expectedCheckpointRevision = BitVec.allOnes 64 then .error .capacity
    else .ok (report.expectedCheckpointRevision + 1, checkpointAuthority assignment report)
  | none =>
    match findToken assignment.assignment notice.source with
    | none => .error .refused
    | some token =>
      if prior.checkpointRevision = BitVec.allOnes 64 then .error .capacity
      else .ok (prior.checkpointRevision + 1,
        ⟨assignment.jobControlRevision, assignment.assignment.revision, assignment.assignment.digest,
          token, notice.epoch⟩)

omit [Contract] in
/-- A tuple of the source up to the watermark. -/
def CheckpointNotice.covers (notice : CheckpointNotice) (id : DeliveryID) : Bool :=
  id.tuple.sourceTask = notice.source && id.tuple.sourceSequence ≤ notice.watermark

/-- A notice of a watermark above the cursor's, or of the first one. -/
def advanceCheckpoint (work : RecoveredWork) (notice : CheckpointNotice)
    (known : Option SourceCursor) : Except StoreError RecoveredWork :=
  if notice.epoch ≠ work.fence then .error .refused
  else
    match work.assignments.find? notice.jobID with
    | none => .error .refused
    | some assignment =>
      if assignment.coordinatorEpoch ≠ notice.epoch then .error .refused
      else
        match sourceEOF assignment.topology notice.source with
        | none => .error .refused
        | some eof =>
          let prior := known.getD ⟨notice.source, 1, eof, 0, 0, 0, .zero⟩
          if eof < notice.watermark ∨ notice.watermark = 0 ∨ Limits.maxSourceSequences < notice.watermark.toNat ∨
              prior.checkpointRevision = BitVec.allOnes 64 then .error .refused
          else
            match adoptedAuthority work assignment notice prior eof with
            | .error e => .error e
            | .ok (revision, authority) =>
              let updated : SourceCursor :=
                { prior with
                  watermark := notice.watermark
                  raftIndex := notice.raftIndex
                  checkpointRevision := revision
                  checkpointAuthority := authority
                  nextSequence :=
                    if prior.nextSequence ≤ notice.watermark then notice.watermark + 1
                    else prior.nextSequence }
              if work.deliveries.any fun delivery => notice.covers delivery.id &&
                  delivery.state ≠ .completed && delivery.state ≠ .compacted then .error .refused
              else .ok { work with
                sources := work.sources.insert notice.source updated
                deliveries := work.deliveries.filter fun delivery => !notice.covers delivery.id
                outboxes := work.outboxes.filter fun outbox => !notice.covers outbox.id }

def applyCheckpoint (work : RecoveredWork) (notice : CheckpointNotice) : Except StoreError RecoveredWork :=
  if notice.validate = false then .error .refused
  else
    match work.sources.find? notice.source with
    | none => advanceCheckpoint work notice none
    | some prior =>
      if notice.watermark = prior.watermark then confirmCheckpoint work notice prior
      else if notice.watermark < prior.watermark ∨ notice.raftIndex < prior.raftIndex then
        .error .refused
      else if notice.raftIndex = prior.raftIndex then .error .identityReuse
      else advanceCheckpoint work notice (some prior)

end Checkpoints

/-! ## Checkpoints of other owners -/

/-- The notice is made under the placement that is installed, and under the current fence. -/
def installedAuthority (work : RecoveredWork) (request : CommittedCheckpoint)
    (assignment : InstalledAssignment) : Bool :=
  assignment.coordinatorEpoch = work.fence && request.notice.epoch = assignment.coordinatorEpoch &&
    request.jobControlRevision = assignment.jobControlRevision &&
    request.assignmentRevision = assignment.assignment.revision &&
    request.assignmentDigest = assignment.assignment.digest

/-- The stage of the task is a source of the topology. -/
def sourceStage (topology : ValidatedTopology) (task : TaskID) : Bool :=
  (topology.spec.stages.find? (·.stageID = task.stageID)).map (·.role) = some .source

def validateCheckpointObservation (observation : CommittedCheckpoint) : Bool :=
  observation.notice.validate && observation.jobControlRevision ≠ 0 &&
    observation.assignmentRevision ≠ 0 && observation.assignmentDigest ≠ 0

def applyCheckpointObservation (work : RecoveredWork) (observation : CommittedCheckpoint) :
    Except StoreError RecoveredWork :=
  let notice := observation.notice
  let stored := { work with checkpoints := work.checkpoints.insert notice.source observation }
  if validateCheckpointObservation observation = false then .error .refused
  else
    match work.assignments.find? notice.jobID with
    | none => .error .refused
    | some assignment =>
      if installedAuthority work observation assignment = false ∨
          sourceStage assignment.topology notice.source = false then .error .refused
      else
        match sourceEOF assignment.topology notice.source with
        | none => .error .refused
        | some eof =>
          if eof < notice.watermark then .error .refused
          else
            match work.checkpoints.find? notice.source with
            | some prior =>
              if prior.notice.raftIndex = notice.raftIndex then
                if prior = observation then .ok work else .error .identityReuse
              else if notice.raftIndex < prior.notice.raftIndex ∨
                  notice.watermark < prior.notice.watermark then .error .refused
              else .ok stored
            | none =>
              if Limits.maxRetainedJobs * Limits.maxTasksPerJob ≤ work.checkpoints.size then
                .error .capacity
              else .ok stored

/-! ## What a store checks before it commits -/

/-- The store's own: the incarnation kept a result of an earlier placement. -/
def historicalResultHolder (work : RecoveredWork) (assignment : InstalledAssignment)
    (worker : Incarnation) : Bool :=
  assignment.schedulingState ≠ .running && work.results.any fun result =>
    result.precedes assignment.assignment assignment.topology.digest &&
      provenanceTargets result.provenance worker

section Commit

variable [Contract]

/-- Every record is of this incarnation, and cursors, observations and outboxes go with the placement
    that is installed. -/
def validateRecoveredWorkLocal (work : RecoveredWork) (worker : Incarnation) : Bool :=
  (work.sources.entries.all fun (source, cursor) =>
    (work.assignments.find? source.jobID).any fun assignment =>
      (findToken assignment.assignment source).any (localToken worker) &&
        sourceEOF assignment.topology source = some cursor.eof) &&
  (work.checkpoints.entries.all fun (_, observation) =>
    (work.assignments.find? observation.notice.jobID).any fun assignment =>
      assignmentTargetsWorker assignment.assignment worker ||
        historicalResultHolder work assignment worker) &&
  (work.deliveries.all fun delivery => localToken worker delivery.destination) &&
  (work.outboxes.all fun outbox =>
    (work.assignments.find? outbox.id.tuple.jobID).any fun assignment =>
      localToken worker outbox.producer && validateSnapshotOutbox outbox assignment work.fence) &&
  (work.results.all fun result => provenanceTargets result.provenance worker) &&
  (work.pendingEvents.all fun event =>
    event.workerID = worker.nodeID && event.workerEpoch = worker.workerEpoch) &&
  work.repairs.all fun repair => repairTargets repair worker

def commitWork (worker : Incarnation) (reduced : Except StoreError RecoveredWork) :
    Except StoreError RecoveredWork :=
  match reduced with
  | .error e => .error e
  | .ok work => if validateRecoveredWorkLocal work worker then .ok work else .error .refused

end Commit

end Crane.Worker
