import Crane.State.Result

/-!
# Commands

The fourteen commands of the replicated machine (`command.go`, and the command types of the other
files), their checks, and their canonical bytes (`command_codec.go`).

A command is an envelope and a target. The envelope carries the schema, the build's fingerprint,
the coordinator's fence and exactly one identity: a client's request, or an internal command with
the subject and revision it expects. The source keeps a pointer to each identity and refuses a
command with none or both; here that is a sum. The target holds the fields of the command's own
kind, and one definition with a case for each kind replaces fourteen functions of one shape.

Decoding reads envelope and target, checks the command, encodes it again and compares. The source
decodes `BeginCoordinatorEpoch` by a path of its own that accepts the same bytes.
-/

namespace Crane.State

open Wire Data Model Codec

inductive CommandKind where
  | beginCoordinatorEpoch
  | registerWorker
  | drainWorker
  | deactivateWorker
  | replaceWorkerEpoch
  | submitJob
  | cancelJob
  | recordSourceEOF
  | installAssignments
  | replaceAssignments
  | advanceCheckpoint
  | sealManifest
  | transitionJob
  | failJob
  deriving DecidableEq

namespace CommandKind

def number : CommandKind → U16
  | beginCoordinatorEpoch => 1
  | registerWorker => 2
  | drainWorker => 3
  | deactivateWorker => 4
  | replaceWorkerEpoch => 5
  | submitJob => 6
  | cancelJob => 7
  | recordSourceEOF => 8
  | installAssignments => 9
  | replaceAssignments => 10
  | advanceCheckpoint => 11
  | sealManifest => 12
  | transitionJob => 13
  | failJob => 14

def ofNumber (w : U16) : Option CommandKind :=
  [beginCoordinatorEpoch, registerWorker, drainWorker, deactivateWorker, replaceWorkerEpoch,
    submitJob, cancelJob, recordSourceEOF, installAssignments, replaceAssignments,
    advanceCheckpoint, sealManifest, transitionJob, failJob].find? fun kind => kind.number = w

end CommandKind

structure ClientEnvelope where
  request : ClientRequestID
  digest : Array32
  deriving DecidableEq

structure InternalEnvelope where
  id : InternalCommandID
  digest : Array32
  subject : SubjectKey
  expectedRevision : U64
  deriving DecidableEq

structure Envelope where
  schemaVersion : U16
  consensusFingerprint : Array32
  kind : CommandKind
  coordinatorEpoch : CoordinatorEpoch
  identity : ClientEnvelope ⊕ InternalEnvelope
  deriving DecidableEq

inductive Target where
  | beginCoordinatorEpoch (coordinator : U16) (nonce : Array16)
  | registerWorker (worker : WorkerRecord)
  | drainWorker (workerID : U16) (workerEpoch : WorkerEpoch)
  | deactivateWorker (workerID : U16) (workerEpoch : WorkerEpoch)
      (affected : List AffectedAssignment)
  | replaceWorkerEpoch (workerID : U16) (oldEpoch : WorkerEpoch) (target : WorkerRecord)
      (affected : List AffectedAssignment)
  | submitJob (topology : TopologySpec)
  | cancelJob (job : JobID) (expectedRevision : U64)
  | recordSourceEOF (source : TaskID) (eof : U64)
  | installAssignments (assignment : AssignmentSet)
  | replaceAssignments (jobID : JobID) (expectedAssignmentRevision : U64)
      (expectedDigest expectedMarkersDigest : Array32) (target : AssignmentSet)
  | advanceCheckpoint (report : CompletionReport)
  | sealManifest (manifest : ResultManifest)
  | transitionJob (jobID : JobID) (origin next : JobLifecycle)
  | failJob (report : JobFailureReport)
  deriving DecidableEq

structure Command where
  envelope : Envelope
  target : Target
  deriving DecidableEq

namespace Target

def kind : Target → CommandKind
  | beginCoordinatorEpoch .. => .beginCoordinatorEpoch
  | registerWorker .. => .registerWorker
  | drainWorker .. => .drainWorker
  | deactivateWorker .. => .deactivateWorker
  | replaceWorkerEpoch .. => .replaceWorkerEpoch
  | submitJob .. => .submitJob
  | cancelJob .. => .cancelJob
  | recordSourceEOF .. => .recordSourceEOF
  | installAssignments .. => .installAssignments
  | replaceAssignments .. => .replaceAssignments
  | advanceCheckpoint .. => .advanceCheckpoint
  | sealManifest .. => .sealManifest
  | transitionJob .. => .transitionJob
  | failJob .. => .failJob

/-- The subject the envelope of an internal command must name. Client commands carry none. -/
def subject : Target → SubjectKey
  | beginCoordinatorEpoch .. => .coordinator
  | registerWorker worker => .worker worker.nodeID
  | drainWorker workerID _ => .worker workerID
  | deactivateWorker workerID .. => .worker workerID
  | replaceWorkerEpoch workerID .. => .worker workerID
  | submitJob _ => .unbound
  | cancelJob .. => .unbound
  | recordSourceEOF source _ => .sourceEOF source
  | installAssignments assignment => .jobControl assignment.jobID
  | replaceAssignments jobID .. => .jobControl jobID
  | advanceCheckpoint report => .sourceCheckpoint report.jobID report.source
  | sealManifest manifest => .resultManifest manifest.jobID manifest.sinkTask
  | transitionJob jobID .. => .jobControl jobID
  | failJob report => .jobControl report.jobID

end Target

/-! ## Target layouts -/

def drainTargetCodec : Codec (U16 × WorkerEpoch) := u16.seq array16

def deactivateTargetCodec : Codec (U16 × WorkerEpoch × List AffectedAssignment) :=
  u16.seq (array16.seq affectedCodec)

def replaceEpochTargetCodec : Codec (U16 × WorkerEpoch × WorkerRecord × List AffectedAssignment) :=
  u16.seq (array16.seq (workerRecordCodec.seq affectedCodec))

def replaceAssignmentsTargetCodec : Codec (JobID × U64 × Array32 × Array32 × AssignmentSet) :=
  array16.seq (u64.seq (array32.seq (array32.seq assignmentSetCodec)))

def transitionTargetCodec : Codec (JobID × JobLifecycle × JobLifecycle) :=
  array16.seq (jobLifecycleCodec.seq jobLifecycleCodec)

@[simp] lemma drainTargetCodec_length (target : U16 × WorkerEpoch) :
    (drainTargetCodec.put target).length = 18 := by simp [drainTargetCodec]

lemma deactivateTargetCodec_length (workerID : U16) (epoch : WorkerEpoch)
    (affected : List AffectedAssignment) :
    (deactivateTargetCodec.put (workerID, epoch, affected)).length = 20 + affected.length * 64 := by
  simp [deactivateTargetCodec, affectedCodec_length]
  omega

lemma replaceEpochTargetCodec_length (workerID : U16) (epoch : WorkerEpoch) (record : WorkerRecord)
    (affected : List AffectedAssignment) :
    (replaceEpochTargetCodec.put (workerID, epoch, record, affected)).length = 113 + affected.length * 64 := by
  simp [replaceEpochTargetCodec, affectedCodec_length]
  omega

lemma replaceAssignmentsTargetCodec_length (jobID : JobID) (revision : U64)
    (digest markers : Array32) (set : AssignmentSet) :
    (replaceAssignmentsTargetCodec.put (jobID, revision, digest, markers, set)).length =
      148 + set.tasks.length * 86 + set.resultReplicas.length * 56 := by
  simp [replaceAssignmentsTargetCodec, assignmentSetCodec_length]
  omega

@[simp] lemma transitionTargetCodec_length (target : JobID × JobLifecycle × JobLifecycle) :
    (transitionTargetCodec.put target).length = 18 := by
  simp [transitionTargetCodec, jobLifecycleCodec]

namespace Target

/-- `beginTarget`, `registerWorkerTarget` and the others. -/
def bytes : Target → Bytes
  | beginCoordinatorEpoch coordinator nonce => drainTargetCodec.put (coordinator, nonce)
  | registerWorker worker => workerRecordCodec.put worker
  | drainWorker workerID epoch => drainTargetCodec.put (workerID, epoch)
  | deactivateWorker workerID epoch affected => deactivateTargetCodec.put (workerID, epoch, affected)
  | replaceWorkerEpoch workerID oldEpoch target affected =>
    replaceEpochTargetCodec.put (workerID, oldEpoch, target, affected)
  | submitJob topology => marshalTopology topology
  | cancelJob job expectedRevision => array16.put job ++ u64.put expectedRevision
  | recordSourceEOF source eof => taskIDCodec.put source ++ u64.put eof
  | installAssignments assignment => assignmentSetCodec.put assignment
  | replaceAssignments jobID revision digest markers target =>
    replaceAssignmentsTargetCodec.put (jobID, revision, digest, markers, target)
  | advanceCheckpoint report => completionReportCodec.put report
  | sealManifest manifest => resultManifestCodec.put manifest
  | transitionJob jobID origin next => transitionTargetCodec.put (jobID, origin, next)
  | failJob report => jobFailureReportCodec.put report

variable [Contract]

/-- `decoder.topology()`: the declared length must be all there is. -/
def decodeSubmitJob (bytes : Bytes) : Option Target := do
  guard (8 ≤ bytes.length)
  let declared := value (bytes.take 8)
  guard (declared ≤ Limits.maxTopologyBytes - 8)
  guard (declared + 8 = bytes.length)
  let validated ← decodeTopology bytes
  some (submitJob validated.spec)

/-- The bytes of a target, read as the kind says. -/
def decode (kind : CommandKind) (bytes : Bytes) : Option Target :=
  match kind with
  | .beginCoordinatorEpoch => (drainTargetCodec.decode bytes).map fun p => beginCoordinatorEpoch p.1 p.2
  | .registerWorker => (workerRecordCodec.decode bytes).map registerWorker
  | .drainWorker => (drainTargetCodec.decode bytes).map fun p => drainWorker p.1 p.2
  | .deactivateWorker => (deactivateTargetCodec.decode bytes).map fun p => deactivateWorker p.1 p.2.1 p.2.2
  | .replaceWorkerEpoch =>
    (replaceEpochTargetCodec.decode bytes).map fun p => replaceWorkerEpoch p.1 p.2.1 p.2.2.1 p.2.2.2
  | .submitJob => decodeSubmitJob bytes
  | .cancelJob => ((array16.seq u64).decode bytes).map fun p => cancelJob p.1 p.2
  | .recordSourceEOF => ((taskIDCodec.seq u64).decode bytes).map fun p => recordSourceEOF p.1 p.2
  | .installAssignments => (assignmentSetCodec.decode bytes).map installAssignments
  | .replaceAssignments =>
    (replaceAssignmentsTargetCodec.decode bytes).map fun p =>
      replaceAssignments p.1 p.2.1 p.2.2.1 p.2.2.2.1 p.2.2.2.2
  | .advanceCheckpoint => (completionReportCodec.decode bytes).map advanceCheckpoint
  | .sealManifest => (resultManifestCodec.decode bytes).map sealManifest
  | .transitionJob => (transitionTargetCodec.decode bytes).map fun p => transitionJob p.1 p.2.1 p.2.2
  | .failJob => (jobFailureReportCodec.decode bytes).map failJob

end Target

/-! ## Envelope layout -/

def commandKindCodec : Codec CommandKind :=
  enum 2 CommandKind.number CommandKind.ofNumber (by
    intro w kind
    constructor
    · intro h
      simpa using List.find?_some h
    rintro rfl
    cases kind <;> rfl)

def clientEnvelopeCodec : Codec ClientEnvelope :=
  (clientRequestIDCodec.seq array32).via (fun e => (e.request, e.digest))
    (fun p => ⟨p.1, p.2⟩)

def internalEnvelopeCodec : Codec InternalEnvelope :=
  (array32.seq (array32.seq (subjectKeyCodec.seq u64))).via
    (fun e => (e.id, e.digest, e.subject, e.expectedRevision))
    (fun p => ⟨p.1, p.2.1, p.2.2.1, p.2.2.2⟩)

def identityClient : UInt8 := 1

def identityInternal : UInt8 := 2

def identityCodec : Codec (ClientEnvelope ⊕ InternalEnvelope) :=
  tagged identityClient identityInternal (by decide) clientEnvelopeCodec internalEnvelopeCodec

def envelopeCodec : Codec Envelope :=
  (u16.seq (array32.seq (commandKindCodec.seq
      (coordinatorEpochCodec.seq identityCodec)))).via
    (fun e => (e.schemaVersion, e.consensusFingerprint, e.kind, e.coordinatorEpoch, e.identity))
    (fun p => ⟨p.1, p.2.1, p.2.2.1, p.2.2.2.1, p.2.2.2.2⟩)

/-! ## Checks -/

/-- `validateAssignmentStructure`: what can be checked of a placement without its topology. -/
def validateAssignmentStructure (set : AssignmentSet) : Bool :=
  JobID.validate set.jobID &&
    (set.revision ≠ 0 && set.digest ≠ 0 && set.tasks.length ≠ 0 &&
      set.tasks.length ≤ Limits.maxTasksPerJob &&
      set.resultReplicas.length ≤ Limits.maxResultManifestsPerJob) &&
    (set.tasks.all (fun token => token.validate && token.task.jobID = set.jobID &&
        token.assignmentRevision = set.revision) &&
      increasing (set.tasks.map fun token => (token.task, ()))) &&
    (set.resultReplicas.all (fun replica => replica.validate && replica.sinkTask.jobID = set.jobID) &&
      increasing (set.resultReplicas.map fun replica => (replica.sinkTask, ())))

section Checks

variable [Contract]

def Envelope.validate (envelope : Envelope) : Bool :=
  envelope.schemaVersion = 1 &&
    (envelope.consensusFingerprint ≠ 0 &&
      envelope.consensusFingerprint = Model.consensusFingerprint) &&
    (if envelope.kind = .beginCoordinatorEpoch then envelope.coordinatorEpoch = .zero
      else envelope.coordinatorEpoch.validate) &&
    match envelope.identity with
    | .inl client => client.request.validate && client.digest ≠ 0
    | .inr internal => internal.id ≠ 0 && internal.digest ≠ 0 && internal.subject.validate

/-- The digest that binds an internal command: every field but the digest itself. -/
def internalDigest (envelope : Envelope) (internal : InternalEnvelope) (target : Bytes) : Array32 :=
  sum256 (domainBytes "crane/internal-command/v1" ++ u16.put envelope.schemaVersion ++
    array32.put envelope.consensusFingerprint ++ commandKindCodec.put envelope.kind ++
    coordinatorEpochCodec.put envelope.coordinatorEpoch ++ [identityInternal] ++
    array32.put internal.id ++ subjectKeyCodec.put internal.subject ++
    u64.put internal.expectedRevision ++ target)

/-- What an internal command checks of its own fields, against the revision its envelope
expects. -/
def Target.fieldsValid (expectedRevision : U64) : Target → Bool
  | .beginCoordinatorEpoch coordinator nonce => coordinator ≠ 0 && nonce ≠ 0
  | .registerWorker worker =>
    worker.nodeID ≠ 0 && worker.validate &&
      (worker.revision = expectedRevision + 1 && worker.revision ≠ 0) && worker.state = .eligible
  | .drainWorker workerID epoch => workerID ≠ 0 && WorkerEpoch.validate epoch
  | .deactivateWorker workerID epoch affected =>
    workerID ≠ 0 && WorkerEpoch.validate epoch && validateAffected affected
  | .replaceWorkerEpoch workerID oldEpoch target affected =>
    workerID ≠ 0 && WorkerEpoch.validate oldEpoch && target.validate &&
      (target.nodeID = workerID && target.epoch ≠ oldEpoch &&
        target.revision = expectedRevision + 1) &&
      validateAffected affected
  | .submitJob _ => false
  | .cancelJob .. => false
  | .recordSourceEOF source _ => expectedRevision = 0 && source.validate
  | .installAssignments assignment => validateAssignmentStructure assignment
  | .replaceAssignments jobID expected digest markers target =>
    JobID.validate jobID &&
      (expected ≠ 0 && digest ≠ 0 && markers ≠ 0 && target.jobID = jobID &&
        target.revision = expected + 1) &&
      validateAssignmentStructure target
  | .advanceCheckpoint report => expectedRevision = report.expectedCheckpointRevision && report.validate
  | .sealManifest manifest => manifest.manifestRevision = expectedRevision + 1 && manifest.validate
  | .transitionJob jobID origin next => JobID.validate jobID && origin ≠ next
  | .failJob report => report.validate

/-- What a client command checks of its own fields, and the digest that binds it. -/
def Target.clientValid (client : ClientEnvelope) : Target → Bool
  | .submitJob topology =>
    match validateTopology topology with
    | none => false
    | some validated =>
      completeSubmitJobBytes validated.canonical.length &&
        client.digest = publicSubmitCommandDigest client.request validated.canonical
  | .cancelJob job expectedRevision =>
    JobID.validate job && (expectedRevision ≠ 0 && expectedRevision ≠ BitVec.allOnes 64) &&
      client.digest = publicCancelCommandDigest client.request job expectedRevision
  | _ => false

def Command.validate (command : Command) : Bool :=
  command.envelope.validate && command.envelope.kind = command.target.kind &&
    match command.envelope.identity with
    | .inl client => command.target.clientValid client
    | .inr internal =>
      internal.subject = command.target.subject &&
        command.target.fieldsValid internal.expectedRevision &&
        internal.digest = internalDigest command.envelope internal command.target.bytes

/-! ## Canonical bytes -/

def marshalCommand (command : Command) : Option Bytes :=
  let encoded := envelopeCodec.put command.envelope ++ command.target.bytes
  if command.validate ∧ encoded.length ≤ Limits.maxSubmitJobBytes then some encoded else none

def unmarshalCommand (encoded : Bytes) : Option Command := do
  guard (encoded.length ≤ Limits.maxSubmitJobBytes)
  let (envelope, rest) ← envelopeCodec.get encoded
  let target ← Target.decode envelope.kind rest
  let command : Command := ⟨envelope, target⟩
  let canonical ← marshalCommand command
  guard (canonical = encoded)
  some command

/-- What is decoded is a checked command whose encoding these bytes are. -/
lemma unmarshalCommand_eq_some {encoded : Bytes} {command : Command}
    (h : unmarshalCommand encoded = some command) :
    command.validate = true ∧ encoded = envelopeCodec.put command.envelope ++ command.target.bytes ∧
      encoded.length ≤ Limits.maxSubmitJobBytes := by
  simp only [unmarshalCommand, bind_eq_some, Prod.exists, exists_guard, Option.some.injEq] at h
  obtain ⟨hsize, envelope, rest, -, target, -, canonical, hmarshal, hequal, rfl⟩ := h
  simp only [marshalCommand, Option.ite_none_right_eq_some, Option.some.injEq] at hmarshal
  obtain ⟨⟨hval, -⟩, hcanon⟩ := hmarshal
  exact ⟨hval, by rw [← hequal, ← hcanon], hsize⟩

end Checks

end Crane.State
