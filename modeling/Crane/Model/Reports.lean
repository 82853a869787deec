import Crane.Model.Assignment

/-!
# Worker reports

`progress.go`: a worker's report that a source has advanced, and its report that a job has failed,
with their layouts and checks. Committed-checkpoint notices and the worker event envelope belong
to the workers and are not here.
-/

namespace Crane.Model

open Wire Data Codec

structure CompletionReport where
  jobID : JobID
  jobControlRevision : U64
  assignmentRevision : U64
  source : TaskID
  token : AssignmentToken
  epoch : CoordinatorEpoch
  expectedCheckpointRevision : U64
  prior : U64
  new : U64
  eof : U64
  workerTransactionID : U64
  digest : Array32
  deriving DecidableEq

inductive FailureCode where
  | operator
  | tupleInvalid
  | storage
  deriving DecidableEq

structure JobFailureReport where
  jobID : JobID
  jobControlRevision : U64
  assignmentRevision : U64
  task : AssignmentToken
  epoch : CoordinatorEpoch
  transactionID : U64
  code : FailureCode
  detailDigest : Array32
  deriving DecidableEq

def failureCodeCodec : Codec FailureCode :=
  enum 2
    (fun | .operator => 1 | .tupleInvalid => 2 | .storage => 3)
    (fun w => if w = 1 then some .operator else if w = 2 then some .tupleInvalid
      else if w = 3 then some .storage else none)
    (by
      intro w code
      refine ⟨fun h => ?_, fun h => by subst h; cases code <;> rfl⟩
      repeat' split at h
      all_goals cases h <;> (symm; assumption))

def completionReportCodec : Codec CompletionReport :=
  (array16.seq (u64.seq (u64.seq (taskIDCodec.seq (assignmentTokenCodec.seq
      (coordinatorEpochCodec.seq (u64.seq (u64.seq (u64.seq (u64.seq
        (u64.seq array32))))))))))).via
    (fun r => (r.jobID, r.jobControlRevision, r.assignmentRevision, r.source, r.token, r.epoch,
      r.expectedCheckpointRevision, r.prior, r.new, r.eof, r.workerTransactionID, r.digest))
    (fun (job, jobRevision, assignmentRevision, source, token, epoch, expected, prior, new, eof,
        transaction, digest) =>
      ⟨job, jobRevision, assignmentRevision, source, token, epoch, expected, prior, new, eof,
        transaction, digest⟩)

def jobFailureReportCodec : Codec JobFailureReport :=
  (array16.seq (u64.seq (u64.seq (assignmentTokenCodec.seq
      (coordinatorEpochCodec.seq (u64.seq (failureCodeCodec.seq array32))))))).via
    (fun r => (r.jobID, r.jobControlRevision, r.assignmentRevision, r.task, r.epoch,
      r.transactionID, r.code, r.detailDigest))
    (fun (job, jobRevision, assignmentRevision, task, epoch, transaction, code, detail) =>
      ⟨job, jobRevision, assignmentRevision, task, epoch, transaction, code, detail⟩)

@[simp] lemma completionReportCodec_length (report : CompletionReport) :
    (completionReportCodec.put report).length = 244 := by simp [completionReportCodec]

@[simp] lemma jobFailureReportCodec_length (report : JobFailureReport) :
    (jobFailureReportCodec.put report).length = 194 := by
  simp [jobFailureReportCodec, failureCodeCodec]

section Validation

variable [Contract]

/-- Every field but the digest. -/
def completionReportDigest (report : CompletionReport) : Array32 :=
  sum256 (domainBytes "crane/completion-report/v1" ++ array16.put report.jobID ++
    u64.put report.jobControlRevision ++ u64.put report.assignmentRevision ++
    taskIDCodec.put report.source ++ assignmentTokenCodec.put report.token ++
    coordinatorEpochCodec.put report.epoch ++ u64.put report.expectedCheckpointRevision ++
    u64.put report.prior ++ u64.put report.new ++ u64.put report.eof ++
    u64.put report.workerTransactionID)

def CompletionReport.validate (report : CompletionReport) : Bool :=
  JobID.validate report.jobID &&
    (report.jobControlRevision ≠ 0 && report.assignmentRevision ≠ 0 &&
      report.workerTransactionID ≠ 0) &&
    (report.source.validate && report.source.jobID = report.jobID) &&
    (report.token.validate && report.token.task = report.source &&
      report.token.assignmentRevision = report.assignmentRevision) &&
    report.epoch.validate &&
    (report.prior < report.new && (report.eof = 0 || report.new ≤ report.eof)) &&
    (report.digest ≠ 0 && report.digest = completionReportDigest report)

end Validation

/-- An unknown failure code cannot be written down here; the decoder refuses it. -/
def JobFailureReport.validate (report : JobFailureReport) : Bool :=
  JobID.validate report.jobID &&
    (report.jobControlRevision ≠ 0 && report.assignmentRevision ≠ 0 && report.transactionID ≠ 0) &&
    (report.task.validate && report.task.task.jobID = report.jobID &&
      report.task.assignmentRevision = report.assignmentRevision) &&
    report.epoch.validate && report.detailDigest ≠ 0

end Crane.Model
