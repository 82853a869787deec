import Crane.Data.Table

/-!
# Identities and fences

`identity.go`: the identities of clients, jobs, tasks and worker incarnations, the fence of a
coordinator's leadership and the token of one task assignment, with the checks that refuse unset
ones and the byte layouts the digests are taken over.

A fixed-size byte array is the number its bytes spell, most significant first; the array of zeroes
is `0`, and `bytes.Compare` on arrays is `<` on the numbers. The identities of tuples and
deliveries belong to the workers and are not here.

SHA-256 is a parameter, and so are the two fingerprints a build is compiled with: they are digests
of tables that nothing else reads.
-/

namespace Crane.Model

open Wire Data Codec

abbrev U8 := BitVec 8
abbrev U16 := BitVec 16
abbrev U64 := BitVec 64
abbrev Array16 := BitVec 128
abbrev Array32 := BitVec 256

class Contract where
  sum256 : Bytes → Array32
  consensusFingerprint : Array32
  registryFingerprint : Array32

export Contract (sum256 consensusFingerprint registryFingerprint)

abbrev ClientID := Array16
abbrev JobID := Array16
abbrev WorkerEpoch := Array16

structure ClientRequestID where
  clientID : ClientID
  sequence : U64
  deriving DecidableEq

structure TaskID where
  jobID : JobID
  stageID : U16
  partition : U16
  deriving DecidableEq

structure CoordinatorEpoch where
  term : U64
  beginIndex : U64
  coordinator : U16
  nonce : Array16
  deriving DecidableEq

structure AssignmentToken where
  task : TaskID
  workerID : U16
  workerEpoch : WorkerEpoch
  attempt : U64
  specificationHash : Array32
  assignmentRevision : U64
  deriving DecidableEq

def TaskID.zero : TaskID := ⟨0, 0, 0⟩

def CoordinatorEpoch.zero : CoordinatorEpoch := ⟨0, 0, 0, 0⟩

/-! ## Validation -/

def ClientID.validate (id : ClientID) : Bool := id != 0

def ClientRequestID.validate (id : ClientRequestID) : Bool := ClientID.validate id.clientID && id.sequence != 0

def JobID.validate (id : JobID) : Bool := id != 0

def TaskID.validate (id : TaskID) : Bool := JobID.validate id.jobID && id.stageID != 0

def WorkerEpoch.validate (epoch : WorkerEpoch) : Bool := epoch != 0

def CoordinatorEpoch.validate (epoch : CoordinatorEpoch) : Bool :=
  epoch.term != 0 && epoch.beginIndex != 0 && epoch.coordinator != 0 && epoch.nonce != 0

/-- The specification hash of a token is not looked at. -/
def AssignmentToken.validate (token : AssignmentToken) : Bool :=
  token.task.validate && token.workerID != 0 && WorkerEpoch.validate token.workerEpoch &&
    token.attempt != 0 && token.assignmentRevision != 0

@[simp] lemma JobID.validate_iff {id : JobID} : JobID.validate id = true ↔ id ≠ 0 := by simp [JobID.validate]

@[simp] lemma TaskID.validate_iff {id : TaskID} : id.validate = true ↔ id.jobID ≠ 0 ∧ id.stageID ≠ 0 := by
  simp [TaskID.validate]

@[simp] lemma CoordinatorEpoch.validate_iff {epoch : CoordinatorEpoch} : epoch.validate = true ↔
      ((epoch.term ≠ 0 ∧ epoch.beginIndex ≠ 0) ∧ epoch.coordinator ≠ 0) ∧ epoch.nonce ≠ 0 := by
  simp [CoordinatorEpoch.validate]

/-! ## Layouts -/

def clientRequestIDCodec : Codec ClientRequestID :=
  (array16.seq u64).via (fun id => (id.clientID, id.sequence)) (fun p => ⟨p.1, p.2⟩)

def taskIDCodec : Codec TaskID :=
  (array16.seq (u16.seq u16)).via
    (fun task => (task.jobID, task.stageID, task.partition)) (fun p => ⟨p.1, p.2.1, p.2.2⟩)

def coordinatorEpochCodec : Codec CoordinatorEpoch :=
  (u64.seq (u64.seq (u16.seq array16))).via
    (fun epoch => (epoch.term, epoch.beginIndex, epoch.coordinator, epoch.nonce))
    (fun p => ⟨p.1, p.2.1, p.2.2.1, p.2.2.2⟩)

def assignmentTokenCodec : Codec AssignmentToken :=
  (taskIDCodec.seq (u16.seq (array16.seq
      (u64.seq (array32.seq u64))))).via
    (fun token => (token.task, token.workerID, token.workerEpoch, token.attempt,
      token.specificationHash, token.assignmentRevision))
    (fun p => ⟨p.1, p.2.1, p.2.2.1, p.2.2.2.1, p.2.2.2.2.1, p.2.2.2.2.2⟩)

@[simp] lemma clientRequestIDCodec_length (id : ClientRequestID) :
    (clientRequestIDCodec.put id).length = 24 := by simp [clientRequestIDCodec]

@[simp] lemma taskIDCodec_length (task : TaskID) : (taskIDCodec.put task).length = 20 := by simp [taskIDCodec]

@[simp] lemma coordinatorEpochCodec_length (epoch : CoordinatorEpoch) :
    (coordinatorEpochCodec.put epoch).length = 34 := by simp [coordinatorEpochCodec]

@[simp] lemma assignmentTokenCodec_length (token : AssignmentToken) :
    (assignmentTokenCodec.put token).length = 86 := by simp [assignmentTokenCodec]

lemma taskIDCodec_dom (task : TaskID) : taskIDCodec.dom task := ⟨trivial, trivial, trivial⟩

lemma coordinatorEpochCodec_dom (epoch : CoordinatorEpoch) : coordinatorEpochCodec.dom epoch :=
  ⟨trivial, trivial, trivial, trivial⟩

instance : Ranked TaskID := Ranked.ofCodec taskIDCodec taskIDCodec_dom taskIDCodec_length

/-- `bytes.Compare(taskBytes(left), taskBytes(right)) < 0`. -/
def TaskID.before (left right : TaskID) : Bool := rank left < rank right

/-- A text that starts a digest's input, with the zero byte that ends it. -/
def domainBytes (text : String) : Bytes := ascii text ++ [0]

section Derived

variable [Contract]

/-- The first sixteen bytes of a digest of the request and the topology's digest. -/
def deriveJobID (request : ClientRequestID) (topologyDigest : Array32) : JobID :=
  (sum256 (domainBytes "crane/job/v1" ++ clientRequestIDCodec.put request ++
    array32.put topologyDigest)).extractLsb' 128 128

/-- `PublicSubmitCommandDigest`. -/
def publicSubmitCommandDigest (request : ClientRequestID) (canonicalTopology : Bytes) : Array32 :=
  sum256 (domainBytes "crane/submit-control-command/v1" ++ clientRequestIDCodec.put request ++ canonicalTopology)

/-- `PublicCancelCommandDigest`. -/
def publicCancelCommandDigest (request : ClientRequestID) (job : JobID) (expectedRevision : U64) :
    Array32 :=
  sum256 (domainBytes "crane/cancel-control-command/v1" ++ clientRequestIDCodec.put request ++
    array16.put job ++ u64.put expectedRevision)

end Derived

end Crane.Model
