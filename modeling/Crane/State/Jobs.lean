import Crane.State.Workers

/-!
# Job commands

What the commands on jobs prepare: submission and cancellation (`jobs.go`), source bounds and
checkpoints (`checkpoints.go`), placements (`assignments.go`), manifests, lifecycle transitions and
failures (`manifests.go`).
-/

namespace Crane.State

open Wire Data Model

/-! ## Looking things up in a job -/

/-- The token of a task. The source stops at the first greater task: the list is in task order. -/
def tokenLookup (task : TaskID) : List AssignmentToken → Option AssignmentToken
  | [] => none
  | token :: rest =>
    if token.task = task then some token
    else if task.before token.task then none
    else tokenLookup task rest

def assignmentToken (assignment : Option AssignmentSet) (task : TaskID) : Option AssignmentToken :=
  assignment.bind fun set => tokenLookup task set.tasks

def resultReplica (assignment : Option AssignmentSet) (sink : TaskID) : Option ResultReplicaSet :=
  assignment.bind fun set => set.resultReplicas.find? (·.sinkTask = sink)

/-- Every source stands at its bound. A source with bound zero has no checkpoint to reach. -/
def allCheckpointsFinal (record : JobRecord) : Bool :=
  record.sourceEOFs.size ≠ 0 &&
    record.sourceEOFs.entries.all fun (source, eof) =>
      match record.checkpoints.find? source with
      | none => eof.eof = 0
      | some checkpoint => checkpoint.revision ≠ 0 && checkpoint.watermark = eof.eof

def machineReplicaCurrent (record : JobRecord) (manifest : ResultManifest) : Bool :=
  resultReplica record.assignment manifest.sinkTask = some manifest.replicas

def allManifestsCurrent (record : JobRecord) : Bool :=
  match record.assignment with
  | none => false
  | some assignment =>
    record.manifests.size = assignment.resultReplicas.length &&
      assignment.resultReplicas.all fun replica =>
        match record.manifests.find? replica.sinkTask with
        | none => false
        | some manifest =>
          manifest.specificationHash = record.topologyDigest && manifest.replicas = replica &&
            machineReplicaCurrent record manifest

/-- The manifests' bytes with the target in the place of its own. -/
def manifestTotalWithinLimit (current : Table TaskID ResultManifest) (target : ResultManifest) :
    Bool :=
  target.totalBytes.toNat ≤ Limits.maxResultRecordsBytesPerJob &&
    ((current.entries.filter fun entry => entry.1 ≠ target.sinkTask).foldlM
      (fun (total : Nat) entry =>
        if Limits.maxResultRecordsBytesPerJob - total < entry.2.totalBytes.toNat then none
        else some (total + entry.2.totalBytes.toNat)) target.totalBytes.toNat).isSome

def needsReassignmentDigest [Contract] (markers : List NeedsReassignment) : Array32 :=
  sum256 (domainBytes "crane/needs-reassignment/v1" ++ bigEndian 2 markers.length ++
    markers.flatMap markerCodec.put)

def failureEventDigest [Contract] (report : JobFailureReport) : Array32 :=
  sum256 (domainBytes "crane/job-failure-event/v1" ++ jobFailureReportCodec.put report)

section Topologies

variable [Contract]

def allSourceEOFsPresent (job : JobRecord) : Bool :=
  match decodeTopology job.topologyBytes with
  | none => false
  | some topology =>
    (topology.spec.stages.filter fun stage => stage.role = .source).all fun stage =>
      (List.range stage.parallelism.toNat).all fun partition =>
        match job.sourceEOFs.find? ⟨job.jobID, stage.stageID, BitVec.ofNat 16 partition⟩ with
        | none => false
        | some record => record.revision = 1

end Topologies

/-! ## Replacement placements -/

/-- The last marker of a task, as the source's map keeps it. -/
def markedTask (markers : List NeedsReassignment) (task : TaskID) : Option NeedsReassignment :=
  markers.reverse.find? fun marker => marker.kind = .task ∧ marker.task = task

def markedReplica (markers : List NeedsReassignment) (sink : TaskID) (role : ResultReplicaRole) :
    Bool :=
  markers.any fun marker => marker.kind ≠ .task ∧ marker.sinkTask = sink ∧ marker.replicaRole = some role

/-- A token moves exactly if it is marked, and a moved one is a new attempt elsewhere. -/
def replacesTask (markers : List NeedsReassignment) (revision : U64) (before after : AssignmentToken) :
    Bool :=
  let changed := before.workerID ≠ after.workerID ∨ before.workerEpoch ≠ after.workerEpoch
  let marked := markedTask markers before.task
  decide (changed ↔ marked.isSome) &&
    after.attempt = (if changed then before.attempt + 1 else before.attempt) &&
    after.assignmentRevision = revision &&
    marked.all fun marker => !(after.workerID = marker.oldWorkerID && after.workerEpoch = marker.oldWorkerEpoch)

/-- Each copy moves exactly if it is marked. -/
def replacesReplica (markers : List NeedsReassignment) (before after : ResultReplicaSet) : Bool :=
  decide ((before.primaryNodeID ≠ after.primaryNodeID ∨ before.primaryEpoch ≠ after.primaryEpoch) ↔
      markedReplica markers before.sinkTask .primary) &&
    decide ((before.secondaryNodeID ≠ after.secondaryNodeID ∨ before.secondaryEpoch ≠ after.secondaryEpoch) ↔
      markedReplica markers before.sinkTask .secondary)

def validateReplacement (old target : AssignmentSet) (markers : List NeedsReassignment) : Bool :=
  (target.jobID = old.jobID && target.revision = old.revision + 1 &&
      target.tasks.length = old.tasks.length &&
      target.resultReplicas.length = old.resultReplicas.length) &&
    (old.tasks.zip target.tasks).all (fun (before, after) =>
      replacesTask markers target.revision before after) &&
    (old.resultReplicas.zip target.resultReplicas).all fun (before, after) =>
      replacesReplica markers before after

/-- New work goes to eligible workers only; kept work may stay on a draining one. -/
def replacementWorkerStateAllowed (state : WorkerState) (changed : Bool) : Bool :=
  if changed then state = .eligible else state = .eligible || state = .draining

namespace Machine

/-! ## Capacity -/

/-- The tokens a job has placed on a worker, while the job is not finished. -/
def slotsUsed (job : JobRecord) (workerID : U16) : Nat :=
  if job.lifecycle.terminal then 0
  else job.assignment.elim 0 fun set => set.tasks.countP (·.workerID = workerID)

def slotsUsedByOthers (m : Machine) (excludeJob : JobID) (workerID : U16) : Nat :=
  m.jobs.sum fun jobID job => if jobID = excludeJob then 0 else slotsUsed job workerID

/-- The eligible workers with the slots that the other jobs leave them. -/
def residualEligiblePlacements (m : Machine) (excludeJob : JobID) : List WorkerPlacement :=
  let eligible := (m.workers.entries.map Prod.snd).filter fun worker => worker.state = .eligible
  (eligible.insertionSort fun a b => a.nodeID ≤ b.nodeID).filterMap fun worker =>
    let used := m.slotsUsedByOthers excludeJob worker.nodeID
    if worker.slots.toNat ≤ used then none
    else some ⟨worker.nodeID, worker.epoch, worker.slots - BitVec.ofNat 16 used⟩

def replacementEndpointCurrent (m : Machine) (workerID : U16) (epoch : WorkerEpoch) (changed : Bool) :
    Bool :=
  (m.workers.find? workerID).any fun worker =>
    worker.epoch = epoch && replacementWorkerStateAllowed worker.state changed

/-- The tokens one by one, with what the target has used so far. -/
def replacementTasksCurrent (m : Machine) (excludeJob : JobID) (used : U16 → Nat) :
    List (AssignmentToken × AssignmentToken) → Bool
  | [] => true
  | (before, token) :: rest =>
    let changed := before.workerID ≠ token.workerID ∨ before.workerEpoch ≠ token.workerEpoch
    match m.workers.find? token.workerID with
    | none => false
    | some worker =>
      let count := used token.workerID + 1
      let others := m.slotsUsedByOthers excludeJob token.workerID
      worker.epoch = token.workerEpoch && replacementWorkerStateAllowed worker.state changed &&
        !(worker.slots.toNat < others || worker.slots.toNat - others < count) &&
        m.replacementTasksCurrent excludeJob (Function.update used token.workerID count) rest

def replacementUsesCurrentWorkers (m : Machine) (old target : AssignmentSet) (excludeJob : JobID) :
    Bool :=
  m.replacementTasksCurrent excludeJob (fun _ => 0) (old.tasks.zip target.tasks) &&
    (old.resultReplicas.zip target.resultReplicas).all fun (before, after) =>
      m.replacementEndpointCurrent after.primaryNodeID after.primaryEpoch
          (before.primaryNodeID ≠ after.primaryNodeID ∨ before.primaryEpoch ≠ after.primaryEpoch) &&
        m.replacementEndpointCurrent after.secondaryNodeID after.secondaryEpoch
          (before.secondaryNodeID ≠ after.secondaryNodeID ∨ before.secondaryEpoch ≠ after.secondaryEpoch)

def replicaWorkersCurrent (m : Machine) (replica : ResultReplicaSet) : Bool :=
  match m.workers.find? replica.primaryNodeID, m.workers.find? replica.secondaryNodeID with
  | some primary, some secondary =>
    primary.state ≠ .offline && secondary.state ≠ .offline &&
      primary.epoch = replica.primaryEpoch && secondary.epoch = replica.secondaryEpoch
  | _, _ => false

/-! ## Client commands -/

def storeJob (m : Machine) (jobID : JobID) (record : JobRecord) : Machine :=
  { m with jobs := m.jobs.insert jobID record }

def activeJobCount (m : Machine) : Nat := m.jobs.entries.countP fun entry => entry.2.lifecycle.terminal = false

def sameJobDefinition (record : JobRecord) (request : ClientRequestID) (digest : Array32)
    (canonical : Bytes) : Bool :=
  record.definingRequest = request && record.topologyDigest = digest &&
    record.topologyBytes = canonical

/-- The plan that answers success for what is already so. -/
def alreadySo (subject : SubjectKey) (revision : U64) : Prepared := succeedWith subject revision 0 id

/-- A job as it is submitted. -/
def pendingJob (jobID : JobID) (request : ClientRequestID) (digest : Array32) (canonical : Bytes) :
    JobRecord :=
  ⟨jobID, request, digest, canonical, .pending, 1, none, [], [], .empty, .empty, .empty, none⟩

def prepareSubmitJob (m : Machine) (request : ClientRequestID) (jobID : JobID) (digest : Array32)
    (canonical : Bytes) : Prepared :=
  match m.jobs.find? jobID with
  | some existing =>
    if sameJobDefinition existing request digest canonical = false then
      rejectWith .identityCollision (.jobControl jobID) existing.jobControlRevision
    else alreadySo (.jobControl jobID) existing.jobControlRevision
  | none =>
    if Limits.maxRetainedJobs ≤ m.jobs.size ∨ Limits.maxActiveJobs ≤ m.activeJobCount then
      refuseForCapacity (.jobControl jobID)
    else
      succeedWith (.jobControl jobID) 1 (jobRecordFixedEstimatedBytes + canonical.length)
        fun m => m.storeJob jobID (pendingJob jobID request digest canonical)

def prepareCancelJob (m : Machine) (job : JobID) (expectedRevision : U64) : Prepared :=
  match m.jobs.find? job with
  | none => rejectWith .notFound (.jobControl job) 0
  | some record =>
    if record.lifecycle = .canceled ∧ record.jobControlRevision = expectedRevision + 1 then
      alreadySo (.jobControl job) record.jobControlRevision
    else if record.jobControlRevision ≠ expectedRevision ∨ record.lifecycle.terminal ∨
        record.jobControlRevision = BitVec.allOnes 64 then
      rejectWith .invalidTransition (.jobControl job) record.jobControlRevision
    else
      let canceled := { record with
        lifecycle := .canceled, jobControlRevision := record.jobControlRevision + 1 }
      succeedWith (.jobControl job) canceled.jobControlRevision 0 fun m => m.storeJob job canceled

/-! ## Sources -/

/-- `validateNextWorkerEvent`: the cursors of one incarnation only move up. -/
def validateNextWorkerEvent (cursors : Table WorkerEventKey WorkerEventCursor) (key : WorkerEventKey)
    (transaction : U64) (digest : Array32) : Bool :=
  (key.workerID ≠ 0 && WorkerEpoch.validate key.workerEpoch && transaction ≠ 0 && digest ≠ 0) &&
    ((cursors.find? key).map (·.transactionID)).getD 0 < transaction

/-- `coordinatorEpochOrderedBefore`: the term first, then the begin index. -/
def coordinatorEpochOrderedBefore (left right : CoordinatorEpoch) : Bool :=
  if left.term ≠ right.term then left.term < right.term else left.beginIndex < right.beginIndex

variable [Contract]

def prepareRecordSourceEOF (m : Machine) (source : TaskID) (eof currentRevision nextRevision : U64) :
    Prepared :=
  match m.jobs.find? source.jobID with
  | none => rejectWith .notFound (.sourceEOF source) currentRevision
  | some record =>
    if record.lifecycle ≠ .pending ∨ record.assignment ≠ none then
      rejectWith .invalidTransition (.sourceEOF source) currentRevision
    else do
      let topology ← orImpossible (decodeTopology record.topologyBytes)
      if sourceEOF topology source ≠ some eof then
        rejectWith .invalidTarget (.sourceEOF source) currentRevision
      else
        let candidate := { record with
          sourceEOFs := record.sourceEOFs.insert source ⟨eof, nextRevision⟩ }
        succeedWith (.sourceEOF source) nextRevision sourceEOFEntryEstimatedBytes
          fun m => m.storeJob candidate.jobID candidate

/-- What a report must agree with before it may move a checkpoint. -/
def checkpointReportValid (m : Machine) (record : JobRecord) (report : CompletionReport) : Bool :=
  let checkpoint := (record.checkpoints.find? report.source).getD ⟨0, 0⟩
  let currentEpoch := report.epoch = m.coordinatorEpoch ||
    coordinatorEpochOrderedBefore report.epoch m.coordinatorEpoch
  (record.lifecycle = .running || record.lifecycle = .draining) &&
    (match record.assignment with
      | none => false
      | some assignment =>
        record.needsReassignment.length = 0 &&
          report.jobControlRevision = record.jobControlRevision &&
          report.assignmentRevision = assignment.revision && currentEpoch &&
          assignmentToken record.assignment report.source = some report.token) &&
    (match record.sourceEOFs.find? report.source with
      | none => false
      | some eof =>
        report.eof = eof.eof && report.expectedCheckpointRevision = checkpoint.revision &&
          report.prior = checkpoint.watermark && checkpoint.watermark < report.new &&
          report.new ≤ eof.eof) &&
    (m.workers.find? report.token.workerID).any fun worker =>
      worker.epoch = report.token.workerEpoch && worker.state ≠ .offline

/-- The cursor moves with the job. -/
def storeJobEvent (m : Machine) (record : JobRecord) (key : WorkerEventKey)
    (cursor : WorkerEventCursor) : Machine :=
  { m.storeJob record.jobID record with workerEvents := m.workerEvents.insert key cursor }

def prepareAdvanceCheckpoint (m : Machine) (report : CompletionReport)
    (currentRevision nextRevision : U64) : Prepared :=
  let subject := SubjectKey.sourceCheckpoint report.jobID report.source
  match m.jobs.find? report.jobID with
  | none => rejectWith .notFound subject currentRevision
  | some record =>
    let cursorKey : WorkerEventKey := ⟨report.token.workerID, report.token.workerEpoch⟩
    if m.checkpointReportValid record report = false then
      rejectWith .invalidTarget subject currentRevision
    else if validateNextWorkerEvent m.workerEvents cursorKey report.workerTransactionID
        report.digest = false then
      rejectWith .staleWorkerEvent subject currentRevision
    else
      let candidate := { record with
        checkpoints := record.checkpoints.insert report.source ⟨report.new, nextRevision⟩ }
      let delta : Int :=
        (if record.checkpoints.contains report.source then (0 : Int)
          else checkpointEntryEstimatedBytes) +
          if m.workerEvents.contains cursorKey then (0 : Int) else workerEventEntryEstimatedBytes
      succeedWith subject nextRevision delta fun m =>
        m.storeJobEvent candidate cursorKey ⟨report.workerTransactionID, report.digest⟩

/-! ## Placements -/

def prepareInstallAssignments (m : Machine) (assignment : AssignmentSet)
    (currentRevision nextRevision : U64) : Prepared :=
  let subject := SubjectKey.jobControl assignment.jobID
  match m.jobs.find? assignment.jobID with
  | none => rejectWith .notFound subject 0
  | some record =>
    if record.lifecycle ≠ .pending ∨ record.assignment ≠ none ∨
        record.needsReassignment.length ≠ 0 ∨ allSourceEOFsPresent record = false then
      rejectWith .invalidTransition subject currentRevision
    else do
      let topology ← orImpossible (decodeTopology record.topologyBytes)
      if assignment.validate topology = false ∨ buildAssignmentSet record.jobID record.topologyDigest 1 topology
            (m.residualEligiblePlacements record.jobID) ≠ some assignment then
        rejectWith .invalidTarget subject currentRevision
      else
        let candidate := { record with
          assignment := some assignment, lifecycle := .deploying, jobControlRevision := nextRevision }
        succeedWith subject nextRevision (assignmentEncodedBytes assignment)
          fun m => m.storeJob candidate.jobID candidate

/-- The repair of the active records is the replacement that is being made. -/
def anchorProvenance (nextRevision : U64) (target : AssignmentSet) (markersDigest : Array32)
    (provenance : InvalidationProvenance) : InvalidationProvenance :=
  if provenance.repairState = .active then
    { provenance with
      repairState := .anchored, repairJobControlRevision := nextRevision
      repairAssignmentRevision := target.revision, repairAssignmentDigest := target.digest
      repairMarkersDigest := markersDigest }
  else provenance

/-- The job after a replacement. -/
def replacedJob (m : Machine) (record : JobRecord) (target : AssignmentSet) (markersDigest : Array32)
    (nextRevision : U64) : JobRecord :=
  { record with
    invalidationHistory :=
      (m.forgetJobControlInvalidationHistory record.jobID record.invalidationHistory).map
        (anchorProvenance nextRevision target markersDigest)
    assignment := some target, needsReassignment := [], jobControlRevision := nextRevision }

def prepareReplaceAssignments (m : Machine) (jobID : JobID) (expectedRevision : U64)
    (expectedDigest expectedMarkersDigest : Array32) (target : AssignmentSet)
    (currentRevision nextRevision : U64) : Prepared :=
  let subject := SubjectKey.jobControl jobID
  match (m.jobs.find? jobID).bind fun record => record.assignment.map fun set => (record, set) with
  | none => rejectWith .notFound subject currentRevision
  | some (record, assignment) =>
    if assignment.revision ≠ expectedRevision ∨ assignment.digest ≠ expectedDigest ∨
        needsReassignmentDigest record.needsReassignment ≠ expectedMarkersDigest ∨
        record.needsReassignment.length = 0 then
      rejectWith .revisionMismatch subject currentRevision
    else do
      let topology ← orImpossible (decodeTopology record.topologyBytes)
      if target.validate topology = false ∨
          validateReplacement assignment target record.needsReassignment = false ∨
          m.replacementUsesCurrentWorkers assignment target jobID = false then
        rejectWith .invalidTarget subject currentRevision
      else
        let candidate := m.replacedJob record target expectedMarkersDigest nextRevision
        let before ← orImpossible (estimateJobRecordBytes record)
        let after ← orImpossible (estimateJobRecordBytes candidate)
        succeedWith subject nextRevision (signedSizeDelta after before)
          fun m => m.storeJob candidate.jobID candidate

/-! ## Manifests, transitions and failures -/

def manifestValid (m : Machine) (record : JobRecord) (manifest : ResultManifest) (nextRevision : U64) :
    Bool :=
  record.lifecycle = .draining && record.assignment ≠ none &&
    record.needsReassignment.length = 0 && allCheckpointsFinal record &&
    manifest.manifestRevision = nextRevision && manifest.specificationHash = record.topologyDigest &&
    (match resultReplica record.assignment manifest.sinkTask with
      | none => false
      | some replica => replica = manifest.replicas && m.replicaWorkersCurrent replica) &&
    manifestTotalWithinLimit record.manifests manifest

def prepareSealManifest (m : Machine) (manifest : ResultManifest) (currentRevision nextRevision : U64) :
    Prepared :=
  let subject := SubjectKey.resultManifest manifest.jobID manifest.sinkTask
  match m.jobs.find? manifest.jobID with
  | none => rejectWith .notFound subject currentRevision
  | some record =>
    if m.manifestValid record manifest nextRevision = false then
      rejectWith .invalidTarget subject currentRevision
    else
      let candidate := { record with manifests := record.manifests.insert manifest.sinkTask manifest }
      let delta : Int :=
        if record.manifests.contains manifest.sinkTask then (0 : Int)
        else resultManifestEntryEstimatedBytes
      succeedWith subject nextRevision delta fun m => m.storeJob candidate.jobID candidate

/-- What each lifecycle edge asks of the job; every other pair is refused. -/
def transitionAllowed (record : JobRecord) : JobLifecycle → JobLifecycle → Bool
  | .deploying, .running => allSourceEOFsPresent record
  | .running, .draining => allCheckpointsFinal record
  | .draining, .succeeded => allCheckpointsFinal record && allManifestsCurrent record && record.failure = none
  | _, _ => false

/-- The job after a control command that leaves its placement alone. -/
def controlledJob (m : Machine) (record : JobRecord) (lifecycle : JobLifecycle)
    (failure : Option JobFailureReport) (nextRevision : U64) : JobRecord :=
  { record with
    invalidationHistory := m.forgetJobControlInvalidationHistory record.jobID record.invalidationHistory
    failure, lifecycle, jobControlRevision := nextRevision }

def prepareTransitionJob (m : Machine) (jobID : JobID) (origin next : JobLifecycle)
    (currentRevision nextRevision : U64) : Prepared :=
  let subject := SubjectKey.jobControl jobID
  match m.jobs.find? jobID with
  | none => rejectWith .notFound subject currentRevision
  | some record =>
    if record.lifecycle ≠ origin ∨ record.assignment = none ∨
        record.needsReassignment.length ≠ 0 ∨ transitionAllowed record origin next = false then
      rejectWith .invalidTransition subject currentRevision
    else do
      let candidate := m.controlledJob record next record.failure nextRevision
      let before ← orImpossible (estimateJobRecordBytes record)
      let after ← orImpossible (estimateJobRecordBytes candidate)
      succeedWith subject nextRevision (signedSizeDelta after before)
        fun m => m.storeJob candidate.jobID candidate

def failureReportValid (m : Machine) (record : JobRecord) (report : JobFailureReport) : Bool :=
  (record.lifecycle = .deploying || record.lifecycle = .running || record.lifecycle = .draining) &&
    (match record.assignment with
      | none => false
      | some assignment =>
        record.needsReassignment.length = 0 &&
          report.jobControlRevision = record.jobControlRevision &&
          report.assignmentRevision = assignment.revision && report.epoch = m.coordinatorEpoch &&
          assignmentToken record.assignment report.task.task = some report.task) &&
    (m.workers.find? report.task.workerID).any fun worker =>
      worker.epoch = report.task.workerEpoch && worker.state ≠ .offline

def prepareFailJob (m : Machine) (report : JobFailureReport) (currentRevision nextRevision : U64) :
    Prepared :=
  let subject := SubjectKey.jobControl report.jobID
  match m.jobs.find? report.jobID with
  | none => rejectWith .notFound subject currentRevision
  | some record =>
    let digest := failureEventDigest report
    let cursorKey : WorkerEventKey := ⟨report.task.workerID, report.task.workerEpoch⟩
    if m.failureReportValid record report = false then
      rejectWith .invalidTarget subject currentRevision
    else if validateNextWorkerEvent m.workerEvents cursorKey report.transactionID digest = false then
      rejectWith .staleWorkerEvent subject currentRevision
    else do
      let candidate := m.controlledJob record .failed (some report) nextRevision
      let before ← orImpossible (estimateJobRecordBytes record)
      let after ← orImpossible (estimateJobRecordBytes candidate)
      let delta : Int := signedSizeDelta after before +
        if m.workerEvents.contains cursorKey then (0 : Int) else workerEventEntryEstimatedBytes
      succeedWith subject nextRevision delta fun m =>
        m.storeJobEvent candidate cursorKey ⟨report.transactionID, digest⟩

end Machine

end Crane.State
