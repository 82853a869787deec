import Crane.Model.Reports

/-!
# The replicated records

What the replicated machine holds: workers (`workers.go`), jobs with their placement markers,
source bounds, checkpoints and manifests (`jobs.go`, `assignments.go`, `checkpoints.go`,
`manifests.go`), the provenance of markers, and the histories that recognise repeated commands
(`state.go`), with the checks on each record.

A number that stands for one of a fixed set of names is an inductive type; the source's zero for
"none" is `none`. A map is a `Table`, in the key order of its canonical encoding. An absent map and
an empty one are the same here, as are an absent and an empty slice: nothing the machine computes
depends on the difference.
-/

namespace Crane.State

open Wire Data Model

/-! ## Workers -/

inductive WorkerState where
  | eligible
  | draining
  | offline
  deriving DecidableEq

structure WorkerRecord where
  nodeID : U16
  epoch : WorkerEpoch
  state : WorkerState
  revision : U64
  slots : U16
  consensusFingerprint : Array32
  registryFingerprint : Array32
  deriving DecidableEq

def WorkerRecord.validate [Contract] (record : WorkerRecord) : Bool :=
  (record.nodeID ≠ 0 && record.revision ≠ 0 && record.slots ≠ 0 &&
      record.slots.toNat ≤ Limits.maxWorkerSlots) &&
    WorkerEpoch.validate record.epoch &&
    (record.consensusFingerprint = Model.consensusFingerprint &&
      record.registryFingerprint = Model.registryFingerprint)

/-- What a worker invalidation says about one affected job: the job's fences as the coordinator
saw them. -/
structure AffectedAssignment where
  jobID : JobID
  jobControlRevision : U64
  assignmentRevision : U64
  assignmentDigest : Array32
  deriving DecidableEq

def AffectedAssignment.validate (affected : AffectedAssignment) : Bool :=
  JobID.validate affected.jobID && affected.jobControlRevision ≠ 0 &&
    affected.assignmentRevision ≠ 0 && affected.assignmentDigest ≠ 0

/-- Valid items in strictly increasing order of job, no more than there can be active jobs. -/
def validateAffected (input : List AffectedAssignment) : Bool :=
  input.length ≤ Limits.maxActiveJobs && input.all AffectedAssignment.validate &&
    increasing (input.map fun affected => (affected.jobID, ()))

/-! ## Markers -/

inductive ReassignmentTargetKind where
  | task
  | resultReplica
  deriving DecidableEq

inductive ResultReplicaRole where
  | primary
  | secondary
  deriving DecidableEq

/-- One target that a worker change has invalidated: a task token, or one of a sink's two copies.
The fields of the other kind are unset. -/
structure NeedsReassignment where
  kind : ReassignmentTargetKind
  task : TaskID
  sinkTask : TaskID
  replicaRole : Option ResultReplicaRole
  oldWorkerID : U16
  oldWorkerEpoch : WorkerEpoch
  deriving DecidableEq

def NeedsReassignment.validate (marker : NeedsReassignment) : Bool :=
  marker.oldWorkerID ≠ 0 && WorkerEpoch.validate marker.oldWorkerEpoch &&
    match marker.kind with
    | .task => marker.task.validate && marker.sinkTask = TaskID.zero && marker.replicaRole = none
    | .resultReplica => marker.sinkTask.validate && marker.task = TaskID.zero && marker.replicaRole ≠ none

/-- The task a marker is about. -/
def NeedsReassignment.target (marker : NeedsReassignment) : TaskID :=
  match marker.kind with
  | .task => marker.task
  | .resultReplica => marker.sinkTask

def ReassignmentTargetKind.number : ReassignmentTargetKind → Nat
  | .task => 1
  | .resultReplica => 2

def replicaRoleNumber : Option ResultReplicaRole → Nat
  | none => 0
  | some .primary => 1
  | some .secondary => 2

def markerLess (left right : NeedsReassignment) : Bool :=
  if left.kind ≠ right.kind then left.kind.number < right.kind.number
  -- the kinds are equal, so both are about the same field
  else if left.target ≠ right.target then left.target.before right.target
  else if left.replicaRole ≠ right.replicaRole then
    replicaRoleNumber left.replicaRole < replicaRoleNumber right.replicaRole
  else if left.oldWorkerID ≠ right.oldWorkerID then left.oldWorkerID < right.oldWorkerID
  else left.oldWorkerEpoch < right.oldWorkerEpoch

/-- Each below the next. -/
def markersSorted : List NeedsReassignment → Bool
  | [] => true
  | [_] => true
  | a :: b :: rest => markerLess a b && markersSorted (b :: rest)

abbrev maxMarkers : Nat := Limits.maxTasksPerJob + 2 * Limits.maxResultManifestsPerJob

def validateMarkers (markers : List NeedsReassignment) (job : JobID) : Bool :=
  markers.length ≤ maxMarkers &&
    markers.all (fun marker => marker.validate && marker.target.jobID = job) &&
    markersSorted markers

/-- One of each run of equal markers. -/
def dropRepeats : List NeedsReassignment → List NeedsReassignment
  | [] => []
  | [marker] => [marker]
  | a :: b :: rest => if a = b then dropRepeats (b :: rest) else a :: dropRepeats (b :: rest)

def sortMarkers (markers : List NeedsReassignment) : List NeedsReassignment :=
  markers.insertionSort fun a b => markerLess b a = false

def sortedMarkerUnion (current additional : List NeedsReassignment) : List NeedsReassignment :=
  dropRepeats (sortMarkers (current ++ additional))

/-! ## Where markers come from -/

inductive WorkerInvalidationKind where
  | deactivate
  | replaceEpoch
  deriving DecidableEq

inductive InvalidationRepairState where
  | active
  | anchored
  | forgotten
  deriving DecidableEq

/-- The record that one worker change invalidated targets of a job, and what became of them. The
kind and the worker revision are cleared together once a later command on the worker has
overwritten the history they point to. -/
structure InvalidationProvenance where
  kind : Option WorkerInvalidationKind
  workerID : U16
  workerEpoch : WorkerEpoch
  workerRevision : U64
  jobControlRevision : U64
  assignmentRevision : U64
  assignmentDigest : Array32
  markers : List NeedsReassignment
  repairState : InvalidationRepairState
  repairJobControlRevision : U64
  repairAssignmentRevision : U64
  repairAssignmentDigest : Array32
  repairMarkersDigest : Array32
  deriving DecidableEq

/-! ## Jobs -/

inductive JobLifecycle where
  | pending
  | deploying
  | running
  | draining
  | succeeded
  | failed
  | canceled
  deriving DecidableEq

def JobLifecycle.terminal : JobLifecycle → Bool
  | .succeeded | .failed | .canceled => true
  | _ => false

structure SourceEOFRecord where
  eof : U64
  revision : U64
  deriving DecidableEq

structure CheckpointRecord where
  watermark : U64
  revision : U64
  deriving DecidableEq

structure ResultManifest where
  jobID : JobID
  sinkTask : TaskID
  manifestRevision : U64
  specificationHash : Array32
  recordCount : U64
  totalBytes : U64
  checksum : Array32
  replicas : ResultReplicaSet
  deriving DecidableEq

abbrev resultArtifactMinRecordBytes : Nat := 4 + (2 + 76 + 20 + 32 + 2 + 32) + 2
abbrev resultArtifactMaxRecordBytes : Nat := 680
abbrev resultArtifactMaxRecordCount : Nat := 64 * 2 ^ 20 / resultArtifactMinRecordBytes

def ResultManifest.validate (manifest : ResultManifest) : Bool :=
  JobID.validate manifest.jobID &&
    (manifest.sinkTask.validate && manifest.sinkTask.jobID = manifest.jobID &&
      manifest.manifestRevision ≠ 0 && manifest.specificationHash ≠ 0 &&
      manifest.totalBytes.toNat ≤ Limits.maxResultRecordsBytesPerJob && manifest.checksum ≠ 0) &&
    (manifest.replicas.validate && manifest.replicas.sinkTask = manifest.sinkTask) &&
    if manifest.recordCount = 0 then manifest.totalBytes = 0
    else
      (manifest.recordCount.toNat ≤ resultArtifactMaxRecordCount && manifest.totalBytes ≠ 0) &&
        (manifest.recordCount.toNat ≤ (2 ^ 64 - 1) / resultArtifactMinRecordBytes &&
          manifest.recordCount.toNat * resultArtifactMinRecordBytes ≤ manifest.totalBytes.toNat) &&
        !(manifest.recordCount.toNat ≤ (2 ^ 64 - 1) / resultArtifactMaxRecordBytes &&
          manifest.recordCount.toNat * resultArtifactMaxRecordBytes < manifest.totalBytes.toNat)

structure JobRecord where
  jobID : JobID
  definingRequest : ClientRequestID
  topologyDigest : Array32
  topologyBytes : Bytes
  lifecycle : JobLifecycle
  jobControlRevision : U64
  assignment : Option AssignmentSet
  needsReassignment : List NeedsReassignment
  invalidationHistory : List InvalidationProvenance
  sourceEOFs : Table TaskID SourceEOFRecord
  checkpoints : Table TaskID CheckpointRecord
  manifests : Table TaskID ResultManifest
  failure : Option JobFailureReport
  deriving DecidableEq

structure WorkerEventKey where
  workerID : U16
  workerEpoch : WorkerEpoch
  deriving DecidableEq

structure WorkerEventCursor where
  transactionID : U64
  digest : Array32
  deriving DecidableEq

/-! ## Subjects and histories -/

inductive SubjectKind where
  | none
  | coordinator
  | worker
  | jobControl
  | sourceEOF
  | sourceCheckpoint
  | resultManifest
  deriving DecidableEq

/-- What a revision belongs to. Only the fields of its kind are set. -/
structure SubjectKey where
  kind : SubjectKind
  jobID : JobID
  taskID : TaskID
  workerID : U16
  deriving DecidableEq

namespace SubjectKey

def unbound : SubjectKey := ⟨.none, 0, .zero, 0⟩

def coordinator : SubjectKey := ⟨.coordinator, 0, .zero, 0⟩

def worker (id : U16) : SubjectKey := ⟨.worker, 0, .zero, id⟩

def jobControl (job : JobID) : SubjectKey := ⟨.jobControl, job, .zero, 0⟩

def sourceEOF (task : TaskID) : SubjectKey := ⟨.sourceEOF, task.jobID, task, 0⟩

def sourceCheckpoint (job : JobID) (task : TaskID) : SubjectKey := ⟨.sourceCheckpoint, job, task, 0⟩

def resultManifest (job : JobID) (task : TaskID) : SubjectKey := ⟨.resultManifest, job, task, 0⟩

def validate (key : SubjectKey) : Bool :=
  match key.kind with
  | .none => false
  | .coordinator => key.jobID = 0 && key.taskID = .zero && key.workerID = 0
  | .worker => key.workerID ≠ 0 && key.jobID = 0 && key.taskID = .zero
  | .jobControl => JobID.validate key.jobID && key.taskID = .zero && key.workerID = 0
  | .sourceEOF | .sourceCheckpoint | .resultManifest =>
    JobID.validate key.jobID && key.taskID.validate && key.taskID.jobID = key.jobID &&
      key.workerID = 0

end SubjectKey

abbrev InternalCommandID := Array32

/-- The latest resolved request of a client. -/
structure ClientHistory where
  sequence : U64
  digest : Array32
  result : Bytes
  deriving DecidableEq

/-- The latest command on a subject, and the latest one that took effect. -/
structure SubjectHistory where
  revision : U64
  id : InternalCommandID
  digest : Array32
  target : Bytes
  result : Bytes
  applied : Bool
  appliedTarget : Bytes
  appliedResult : Bytes
  appliedRevision : U64
  deriving DecidableEq

end Crane.State
