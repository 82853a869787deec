import Crane.Model.Reports
import Crane.Model.Tuple
import Crane.State.Markers

/-!
# The records of a worker's store

`store/records.go`: what a worker's store keeps, record by record, with the checks of a record by itself
or against the placement that is installed: `DeriveSourceTupleID` and `DeriveChildTupleID` of
`identity.go`, `Route` of `routing.go`, `validateOutbox`, `validateSnapshotOutbox`, the provenance of a
result and the endpoints of a repair.

Of a delivery its reservation and outputs are left out, of an outbox its completion, of a result its value
and checksum, which are checked when it comes in. A message with valid fields is within the bounds of its
encoding, so `MarshalTupleDelivery` fails just where `validate` does.
-/

namespace Crane.Worker

open Wire Data Model Codec

/-! ## Identities -/

structure TupleID where
  jobID : JobID
  sourceTask : TaskID
  sourceSequence : U64
  pathDigest : Array32
  deriving DecidableEq

structure DeliveryID where
  tuple : TupleID
  edgeID : U16
  destinationTask : TaskID
  deriving DecidableEq

/-- The incarnation of a worker. -/
structure Incarnation where
  nodeID : U16
  workerEpoch : WorkerEpoch
  deriving DecidableEq

def TupleID.zero : TupleID := ⟨0, .zero, 0, 0⟩

def TupleID.validate (id : TupleID) : Bool :=
  JobID.validate id.jobID && id.sourceTask.validate && id.sourceTask.jobID = id.jobID &&
    id.sourceSequence ≠ 0 && id.pathDigest ≠ 0

def DeliveryID.validate (id : DeliveryID) : Bool :=
  id.tuple.validate && id.edgeID ≠ 0 && id.destinationTask.validate &&
    id.destinationTask.jobID = id.tuple.jobID

def tupleIDCodec : Codec TupleID :=
  (array16.seq (taskIDCodec.seq (u64.seq array32))).via
    (fun id => (id.jobID, id.sourceTask, id.sourceSequence, id.pathDigest))
    (fun p => ⟨p.1, p.2.1, p.2.2.1, p.2.2.2⟩)

@[simp] lemma tupleIDCodec_length (id : TupleID) : (tupleIDCodec.put id).length = 76 := by simp [tupleIDCodec]

lemma tupleIDCodec_dom (id : TupleID) : tupleIDCodec.dom id :=
  ⟨trivial, taskIDCodec_dom id.sourceTask, trivial, trivial⟩

/-- What the digest of a source tuple is taken over. -/
def sourceTupleBytes (job : JobID) (source : TaskID) (sequence : U64) : Bytes :=
  domainBytes "crane/source-tuple/v1" ++ array16.put job ++ taskIDCodec.put source ++ u64.put sequence

/-- What the digest of a derived tuple is taken over, behind the domain. -/
def childTupleCodec : Codec (TupleID × TaskID × U16 × U16) :=
  tupleIDCodec.seq (taskIDCodec.seq (u16.seq u16))

def childTupleBytes (parent : TupleID) (producer : TaskID) (edgeID outputOrdinal : U16) : Bytes :=
  domainBytes "crane/derived-tuple/v1" ++ childTupleCodec.put (parent, producer, edgeID, outputOrdinal)

section Derivation

variable [Contract]

def deriveSourceTupleID (job : JobID) (source : TaskID) (sequence : U64) : TupleID :=
  if JobID.validate job = false ∨ source.validate = false ∨ source.jobID ≠ job ∨ sequence = 0 then .zero
  else ⟨job, source, sequence, sum256 (sourceTupleBytes job source sequence)⟩

def deriveChildTupleID (parent : TupleID) (producer : TaskID) (edgeID outputOrdinal : U16) : TupleID :=
  if parent.validate = false ∨ producer.validate = false ∨ producer.jobID ≠ parent.jobID ∨ edgeID = 0 then
    .zero
  else { parent with pathDigest := sum256 (childTupleBytes parent producer edgeID outputOrdinal) }

/-! ## Routes -/

/-- The first eight bytes of a digest as a number, modulo the partitions. -/
def digestPartition (digest : Array32) (parallelism : U16) : U16 :=
  BitVec.ofNat 16 ((digest.extractLsb' 192 64).toNat % parallelism.toNat)

/-- `Route`: the destination partitions of a tuple along one edge. -/
def route (topology : ValidatedTopology) (edge : EdgeSpec) (tupleID : TupleID) (tuple : Tuple) :
    Option (List U16) := do
  guard tupleID.validate
  guard tuple.validate
  guard (edge ∈ topology.spec.edges)
  let destination ← topology.byStage.find? edge.destinationStageID
  guard (destination.parallelism ≠ 0)
  match edge.routing with
  | .broadcast => some ((List.range destination.parallelism.toNat).map (BitVec.ofNat 16))
  | .shuffle =>
    let encoded := domainBytes "crane/route/v1" ++ array16.put tupleID.jobID ++
      u16.put edge.edgeID ++ tupleIDCodec.put tupleID
    some [digestPartition (sum256 encoded) destination.parallelism]
  | .fieldHash => do
    let field ← tuple.fields.find? (·.name = edge.field)
    let encoded ← canonicalFieldBytes field
    some [digestPartition (sum256 encoded) destination.parallelism]

end Derivation

/-! ## Epochs -/

def compareEpochOrder (a b : CoordinatorEpoch) : Ordering :=
  (compare a.term.toNat b.term.toNat).then (compare a.beginIndex.toNat b.beginIndex.toNat)

lemma compareEpochOrder_eq_gt {a b : CoordinatorEpoch} : compareEpochOrder a b = .gt ↔
    b.term.toNat < a.term.toNat ∨ (a.term.toNat = b.term.toNat ∧ b.beginIndex.toNat < a.beginIndex.toNat) := by
  simp only [compareEpochOrder, Ordering.then_eq_gt, Nat.compare_eq_gt, Nat.compare_eq_eq]

lemma compareEpochOrder_trans {a b c : CoordinatorEpoch} (hab : compareEpochOrder a b = .gt)
    (hbc : compareEpochOrder b c = .gt) : compareEpochOrder a c = .gt := by
  rw [compareEpochOrder_eq_gt] at *
  omega

/-- The fence is the epoch, or a later one. -/
def FencedBy (fence epoch : CoordinatorEpoch) : Prop := fence = epoch ∨ compareEpochOrder fence epoch = .gt

def snapshotEpochAtOrBefore (candidate current : CoordinatorEpoch) : Bool :=
  candidate.validate && current.validate &&
    (compareEpochOrder candidate current = .lt ||
      (compareEpochOrder candidate current = .eq && candidate = current))

/-! ## Placements -/

inductive SchedulingState where
  | closed
  | running
  | draining
  deriving DecidableEq

/-- `specificationBytes` are the canonical bytes of `topology`. -/
structure InstalledAssignment where
  assignment : AssignmentSet
  specificationBytes : Bytes
  topology : ValidatedTopology
  jobControlRevision : U64
  schedulingState : SchedulingState
  coordinatorEpoch : CoordinatorEpoch
  deriving DecidableEq

def findToken (set : AssignmentSet) (task : TaskID) : Option AssignmentToken := set.tasks.find? (·.task = task)

def containsToken (set : AssignmentSet) (token : AssignmentToken) : Bool := token ∈ set.tasks

/-- The token is one of this incarnation. -/
def localToken (worker : Incarnation) (token : AssignmentToken) : Bool :=
  token.workerID = worker.nodeID && token.workerEpoch = worker.workerEpoch

def assignmentTargetsWorker (set : AssignmentSet) (worker : Incarnation) : Bool :=
  set.tasks.any (localToken worker) ||
    set.resultReplicas.any fun replica =>
      (replica.primaryNodeID = worker.nodeID && replica.primaryEpoch = worker.workerEpoch) ||
        (replica.secondaryNodeID = worker.nodeID && replica.secondaryEpoch = worker.workerEpoch)

/-! ## Deliveries and outboxes -/

inductive DeliveryState where
  | received
  | processed
  | completed
  | compacted
  deriving DecidableEq

/-- The fields that define an outbox, and the delivery it is at the destination. -/
structure OutboxDefinition where
  id : DeliveryID
  tuple : Tuple
  producer : AssignmentToken
  destination : AssignmentToken
  assignmentRevision : U64
  assignmentDigest : Array32
  coordinatorEpoch : CoordinatorEpoch
  deriving DecidableEq

structure DeliveryRecord extends OutboxDefinition where
  state : DeliveryState
  deriving DecidableEq

structure OutboxRecord extends OutboxDefinition where
  accepted : Bool
  retryDeadlineUnixNano : Int
  deriving DecidableEq

def validateDestinationEnvelope (delivery : OutboxDefinition) : Bool :=
  delivery.id.validate && delivery.destination.validate &&
    delivery.destination.task = delivery.id.destinationTask &&
    delivery.destination.task.jobID = delivery.id.tuple.jobID &&
    delivery.destination.specificationHash ≠ 0 &&
    (JobID.validate delivery.id.tuple.jobID && delivery.assignmentRevision ≠ 0 &&
      delivery.assignmentDigest ≠ 0) &&
    delivery.destination.assignmentRevision = delivery.assignmentRevision &&
    delivery.coordinatorEpoch.validate

/-- `validate` of the `TupleDelivery` that carries it. -/
def validateTupleDelivery (delivery : OutboxDefinition) : Bool :=
  validateDestinationEnvelope delivery && delivery.producer.validate &&
    delivery.producer.task.jobID = delivery.id.tuple.jobID &&
    delivery.producer.assignmentRevision = delivery.assignmentRevision &&
    (delivery.producer.specificationHash ≠ 0 &&
      delivery.producer.specificationHash = delivery.destination.specificationHash) &&
    delivery.tuple.validate

section Outboxes

variable [Contract]

/-- The destination is one that the edge routes the tuple to. -/
def validateRoute (topology : ValidatedTopology) (id : DeliveryID) (tuple : Tuple) (producer : TaskID) :
    Bool :=
  (topology.spec.edges.find? (·.edgeID = id.edgeID)).any fun edge =>
    edge.sourceStageID = producer.stageID && edge.destinationStageID = id.destinationTask.stageID &&
      (route topology edge id.tuple tuple).any fun partitions => partitions.contains id.destinationTask.partition

/-- An outbox under the placement that is installed. -/
def validateOutbox (record : OutboxRecord) (assignment : InstalledAssignment) (fence : CoordinatorEpoch) :
    Bool :=
  record.coordinatorEpoch = fence && !(record.accepted && record.retryDeadlineUnixNano = 0) &&
    validateTupleDelivery record.toOutboxDefinition &&
    (record.assignmentRevision = assignment.assignment.revision &&
      record.assignmentDigest = assignment.assignment.digest &&
      containsToken assignment.assignment record.producer &&
      containsToken assignment.assignment record.destination) &&
    validateRoute assignment.topology record.id record.tuple record.producer.task

/-- An outbox under the placement that is installed, or under an earlier one of the same topology. -/
def validateSnapshotOutbox (record : OutboxRecord) (assignment : InstalledAssignment)
    (fence : CoordinatorEpoch) : Bool :=
  (record.assignmentRevision ≠ 0 && record.assignmentRevision ≤ assignment.assignment.revision &&
    record.assignmentDigest ≠ 0 && snapshotEpochAtOrBefore record.coordinatorEpoch fence &&
    !(record.accepted && record.retryDeadlineUnixNano = 0)) &&
  if record.assignmentRevision = assignment.assignment.revision then
    validateOutbox record assignment record.coordinatorEpoch
  else
    record.producer.validate && record.destination.validate &&
      record.producer.assignmentRevision = record.assignmentRevision &&
      record.destination.assignmentRevision = record.assignmentRevision &&
      record.producer.specificationHash = assignment.topology.digest &&
      record.destination.specificationHash = assignment.topology.digest &&
      record.destination.task = record.id.destinationTask &&
      validateTupleDelivery record.toOutboxDefinition &&
      validateRoute assignment.topology record.id record.tuple record.producer.task

end Outboxes

/-! ## Results and repairs -/

structure ResultRecord where
  tupleID : TupleID
  sinkTask : TaskID
  specificationHash : Array32
  deriving DecidableEq

def ResultRecord.validate (record : ResultRecord) : Bool :=
  record.tupleID.validate && (record.sinkTask.validate && record.sinkTask.jobID = record.tupleID.jobID) &&
    record.specificationHash ≠ 0

/-- What fences one copy of a result. -/
structure ResultCopyProvenance where
  assignmentRevision : U64
  assignmentDigest : Array32
  replicaSet : ResultReplicaSet
  destinationRole : State.ResultReplicaRole
  coordinatorEpoch : CoordinatorEpoch
  deriving DecidableEq

def ResultCopyProvenance.validate (provenance : ResultCopyProvenance) (record : ResultRecord) : Bool :=
  record.validate && (provenance.assignmentRevision ≠ 0 && provenance.assignmentDigest ≠ 0) &&
    provenance.replicaSet.validate && provenance.replicaSet.sinkTask = record.sinkTask &&
    provenance.coordinatorEpoch.validate

def provenanceTargets (provenance : ResultCopyProvenance) (worker : Incarnation) : Bool :=
  State.ResultReplicaSet.endpoint provenance.replicaSet provenance.destinationRole =
    (worker.nodeID, worker.workerEpoch)

structure StoredResult where
  record : ResultRecord
  provenance : ResultCopyProvenance
  deriving DecidableEq

/-- The result is a copy of the job's that an earlier placement left. -/
def StoredResult.precedes (result : StoredResult) (candidate : AssignmentSet)
    (specification : Array32) : Bool :=
  result.record.tupleID.jobID = candidate.jobID && result.record.specificationHash = specification &&
    result.provenance.assignmentRevision < candidate.revision &&
    result.provenance.assignmentDigest ≠ candidate.digest &&
    result.provenance.validate result.record

inductive RepairEndpointRole where
  | source
  | destination
  deriving DecidableEq

/-- The endpoints of the instruction, and the one that is local. -/
structure ResultRepairRecord where
  sourceEndpoint : Incarnation
  destinationEndpoint : Incarnation
  role : RepairEndpointRole
  deriving DecidableEq

def repairTargets (repair : ResultRepairRecord) (worker : Incarnation) : Bool :=
  match repair.role with
  | .source => repair.sourceEndpoint = worker
  | .destination => repair.destinationEndpoint = worker

/-! ## Checkpoints and reports -/

structure CheckpointNotice where
  jobID : JobID
  source : TaskID
  watermark : U64
  raftIndex : U64
  epoch : CoordinatorEpoch
  deriving DecidableEq

def CheckpointNotice.validate (notice : CheckpointNotice) : Bool :=
  JobID.validate notice.jobID && (notice.source.validate && notice.source.jobID = notice.jobID) &&
    notice.raftIndex ≠ 0 && notice.epoch.validate

/-- The authority a cursor's checkpoint was taken over under. -/
structure CheckpointAuthority where
  jobControlRevision : U64
  assignmentRevision : U64
  assignmentDigest : Array32
  sourceToken : AssignmentToken
  coordinatorEpoch : CoordinatorEpoch
  deriving DecidableEq

def CheckpointAuthority.zero : CheckpointAuthority := ⟨0, 0, 0, ⟨.zero, 0, 0, 0, 0, 0⟩, .zero⟩

structure SourceCursor where
  source : TaskID
  nextSequence : U64
  eof : U64
  watermark : U64
  raftIndex : U64
  checkpointRevision : U64
  checkpointAuthority : CheckpointAuthority
  deriving DecidableEq

/-- A committed watermark, under the authority it is announced with. -/
structure CommittedCheckpoint where
  notice : CheckpointNotice
  jobControlRevision : U64
  assignmentRevision : U64
  assignmentDigest : Array32
  deriving DecidableEq

structure WorkerEvent where
  workerID : U16
  workerEpoch : WorkerEpoch
  transactionID : U64
  completion : Option CompletionReport
  failure : Option JobFailureReport
  deriving DecidableEq

end Crane.Worker
