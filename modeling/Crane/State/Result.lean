import Crane.State.Layouts

/-!
# Command results

`CommandResult` of `command.go`, its fixed layout, and the matrix that says which subjects a result
code may name and what its revision, identity and epoch must then look like
(`stateCommandResultMatrixV1`).
-/

namespace Crane.State

open Wire Data Model

inductive ResultCode where
  | success
  | identityReuse
  | staleRequest
  | skippedRequest
  | capacityExhausted
  | revisionMismatch
  | staleEpoch
  | resultTooLarge
  deriving DecidableEq

namespace ResultCode

/-! The names with which the commands speak of the codes. -/

abbrev notFound : ResultCode := .revisionMismatch
abbrev invalidTransition : ResultCode := .revisionMismatch
abbrev identityCollision : ResultCode := .identityReuse
abbrev invalidTarget : ResultCode := .revisionMismatch
abbrev staleWorkerEvent : ResultCode := .revisionMismatch

def number : ResultCode → U16
  | success => 1
  | identityReuse => 2
  | staleRequest => 3
  | skippedRequest => 4
  | capacityExhausted => 5
  | revisionMismatch => 6
  | staleEpoch => 7
  | resultTooLarge => 8

def ofNumber (w : U16) : Option ResultCode :=
  [success, identityReuse, staleRequest, skippedRequest, capacityExhausted, revisionMismatch,
    staleEpoch, resultTooLarge].find? fun code => code.number = w

end ResultCode

structure CommandResult where
  code : ResultCode
  subject : SubjectKind
  revision : U64
  jobID : JobID
  workerID : U16
  epoch : CoordinatorEpoch
  deriving DecidableEq

/-! ## The matrix -/

inductive RevisionPolicy where
  | zero
  | nonZero
  | any
  deriving DecidableEq

inductive IdentityPolicy where
  | unbound
  | coordinator
  | worker
  | job
  deriving DecidableEq

inductive EpochPolicy where
  | zero
  | coordinatorRevision
  | currentFence
  deriving DecidableEq

structure ResultRule where
  revision : RevisionPolicy
  identity : IdentityPolicy
  epoch : EpochPolicy
  deriving DecidableEq

/-- Whose identity a result on a subject carries: the same in every row. -/
def SubjectKind.identityPolicy : SubjectKind → IdentityPolicy
  | .none => .unbound
  | .coordinator => .coordinator
  | .worker => .worker
  | .jobControl | .sourceEOF | .sourceCheckpoint | .resultManifest => .job

/-- The epoch a result on a subject carries, in every row but those of `staleEpoch`. -/
def SubjectKind.epochPolicy : SubjectKind → EpochPolicy
  | .coordinator => .coordinatorRevision
  | _ => .zero

/-- `StateCommandResultRuleV1`. Rows that only differ in the subject are one line here. -/
def resultRule (code : ResultCode) (subject : SubjectKind) : Option ResultRule :=
  let row (revision : RevisionPolicy) : ResultRule := ⟨revision, subject.identityPolicy, subject.epochPolicy⟩
  match code, subject with
  | .success, .none => none
  | .success, _ => some (row .nonZero)
  | .identityReuse, .none => some (row .zero)
  | .identityReuse, _ => some (row .any)
  | .staleRequest, .none => some (row .zero)
  | .staleRequest, _ => none
  | .skippedRequest, .none => some (row .zero)
  | .skippedRequest, _ => none
  | .capacityExhausted, .none => some (row .zero)
  | .capacityExhausted, _ => some (row .any)
  | .revisionMismatch, .none => none
  | .revisionMismatch, _ => some (row .any)
  | .staleEpoch, .none => none
  | .staleEpoch, .coordinator => some (row .nonZero)
  | .staleEpoch, _ => some ⟨.any, subject.identityPolicy, .currentFence⟩
  | .resultTooLarge, .none => some (row .zero)
  | .resultTooLarge, _ => some (row .any)

def RevisionPolicy.accepts (policy : RevisionPolicy) (revision : U64) : Bool :=
  match policy with
  | .zero => revision = 0
  | .nonZero => revision ≠ 0
  | .any => true

def IdentityPolicy.accepts (policy : IdentityPolicy) (jobID : JobID) (workerID : U16) : Bool :=
  match policy with
  | .unbound | .coordinator => jobID = 0 && workerID = 0
  | .worker => workerID ≠ 0 && jobID = 0
  | .job => JobID.validate jobID && workerID = 0

def EpochPolicy.accepts (policy : EpochPolicy) (revision : U64) (epoch : CoordinatorEpoch) : Bool :=
  match policy with
  | .zero => epoch = .zero
  | .coordinatorRevision => if revision = 0 then epoch = .zero else epoch.validate
  | .currentFence => epoch = .zero || epoch.validate

def CommandResult.validate (result : CommandResult) : Bool :=
  match resultRule result.code result.subject with
  | none => false
  | some rule =>
    rule.revision.accepts result.revision && rule.identity.accepts result.jobID result.workerID &&
      rule.epoch.accepts result.revision result.epoch

/-! ## Layout -/

def resultCodeCodec : Codec ResultCode :=
  Codec.enum 2 ResultCode.number ResultCode.ofNumber (by
    intro w code
    constructor
    · intro h
      simpa using List.find?_some h
    rintro rfl
    cases code <;> rfl)

/-- The version stands in front; every other one is refused. -/
def commandResultCodec : Codec CommandResult :=
  ((Codec.literal [0, 1]).seq (resultCodeCodec.seq (subjectKindCodec.seq (Codec.u64.seq
      (Codec.array16.seq (Codec.u16.seq coordinatorEpochCodec)))))).via
    (fun r => ((), r.code, r.subject, r.revision, r.jobID, r.workerID, r.epoch))
    (fun (_, code, subject, revision, job, worker, epoch) => ⟨code, subject, revision, job, worker, epoch⟩)

@[simp] lemma commandResultCodec_length (result : CommandResult) :
    (commandResultCodec.put result).length = 65 := by
  simp [commandResultCodec, resultCodeCodec, subjectKindCodec]

lemma commandResultCodec_dom (result : CommandResult) : commandResultCodec.dom result :=
  ⟨trivial, trivial, trivial, trivial, trivial, trivial, coordinatorEpochCodec_dom _⟩

def marshalCommandResult (result : CommandResult) : Option Bytes :=
  if result.validate then some (commandResultCodec.put result) else none

def unmarshalCommandResult (encoded : Bytes) : Option CommandResult := do
  let result ← commandResultCodec.decode encoded
  guard result.validate
  some result

/-- The result of one outcome on a subject, with the identity its kind calls for. -/
def businessResult (code : ResultCode) (subject : SubjectKey) (revision : U64)
    (epoch : CoordinatorEpoch) : CommandResult :=
  { code, subject := subject.kind, revision, epoch
    workerID := match subject.kind with
      | .worker => subject.workerID
      | _ => 0
    jobID := match subject.kind with
      | .jobControl | .sourceEOF | .sourceCheckpoint | .resultManifest => subject.jobID
      | _ => 0 }

def marshalBusinessResult (code : ResultCode) (subject : SubjectKey) (revision : U64)
    (epoch : CoordinatorEpoch) : Option Bytes :=
  marshalCommandResult (businessResult code subject revision epoch)

lemma marshalCommandResult_eq_some {result : CommandResult} {bytes : Bytes} :
    marshalCommandResult result = some bytes ↔
      result.validate = true ∧ commandResultCodec.put result = bytes := by
  simp [marshalCommandResult]

lemma marshalCommandResult_length {result : CommandResult} {bytes : Bytes}
    (h : marshalCommandResult result = some bytes) : bytes.length = 65 := by
  obtain ⟨-, rfl⟩ := marshalCommandResult_eq_some.mp h
  exact commandResultCodec_length result

/-- What was marshalled is read back. -/
lemma unmarshal_marshalCommandResult {result : CommandResult} {bytes : Bytes}
    (h : marshalCommandResult result = some bytes) : unmarshalCommandResult bytes = some result := by
  obtain ⟨hval, rfl⟩ := marshalCommandResult_eq_some.mp h
  simp [unmarshalCommandResult, Codec.decode_put (commandResultCodec_dom result), hval]

end Crane.State
