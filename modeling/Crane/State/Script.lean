import Crane.State.Changes

/-!
# Runs that are computed

A script is a list of commands, each written by someone who sees the machine it will be applied
to. `follow` applies them one after the other, and what it computes is a run (`run_of_follow`).

The scripts of this development all speak of one small installation: three workers, and one client
who submits a job with one source and one sink. Their digests are those of `sampleContract`. A
digest decides where tasks are placed and nothing else in them, so that with another hash the same
scripts run with the workers renamed.
-/

namespace Crane.State

open Wire Data Model

section Follow

variable [Contract]

/-- An internal command as a coordinator who sees `m` writes it. -/
def Machine.issue (m : Machine) (id : InternalCommandID) (target : Target) : Command :=
  let epoch := if target.kind = .beginCoordinatorEpoch then .zero else m.coordinatorEpoch
  let unsigned : InternalEnvelope := ⟨id, 0, target.subject, m.standing target⟩
  let envelope : Envelope := ⟨1, consensusFingerprint, target.kind, epoch, .inr unsigned⟩
  let digest := internalDigest envelope unsigned target.bytes
  ⟨{ envelope with identity := .inr { unsigned with digest } }, target⟩

/-- A client's submission. -/
def Machine.submit (m : Machine) (request : ClientRequestID) (topology : TopologySpec) : Command :=
  let digest := publicSubmitCommandDigest request (marshalTopology topology)
  ⟨⟨1, consensusFingerprint, .submitJob, m.coordinatorEpoch, .inl ⟨request, digest⟩⟩, .submitJob topology⟩

/-- A client's cancellation, at the revision the job stands at. -/
def Machine.cancel (m : Machine) (request : ClientRequestID) (job : JobID) : Command :=
  let revision := m.subjectRevision (.jobControl job)
  let digest := publicCancelCommandDigest request job revision
  ⟨⟨1, consensusFingerprint, .cancelJob, m.coordinatorEpoch, .inl ⟨request, digest⟩⟩, .cancelJob job revision⟩

/-- The jobs that the loss of an incarnation affects, as a coordinator lists them. -/
def Machine.affectedBy (m : Machine) (workerID : U16) (epoch : WorkerEpoch) : List AffectedAssignment :=
  m.jobs.entries.filterMap fun (jobID, job) =>
    ((m.invalidateJob .deactivate 1 workerID epoch jobID job).bind (·.2))

/-- One command, applied in the first term. -/
def Machine.perform (m : Machine) (index : Nat) (command : Command) : Option (LogEntry × Machine) := do
  let encoded ← marshalCommand command
  let entry : LogEntry := ⟨BitVec.ofNat 64 index, 1, encoded⟩
  match m.apply entry.index entry.term entry.command with
  | .error _ => none
  | .ok (m', _) => some (entry, m')

/-- The commands one after the other, from an index on. -/
def follow (m : Machine) (index : Nat) : List (Machine → Command) → Option (List LogEntry × Machine)
  | [] => some ([], m)
  | command :: rest => do
    let (entry, m1) ← m.perform index (command m)
    let (log, m2) ← follow m1 (index + 1) rest
    some (entry :: log, m2)

lemma applies_of_perform {m m' : Machine} {index : Nat} {command : Command} {entry : LogEntry}
    (h : m.perform index command = some (entry, m')) : ∃ result, Applies m entry result m' := by
  simp only [Machine.perform, bind_eq_some] at h
  obtain ⟨encoded, -, h⟩ := h
  split at h
  · cases h
  rename_i applied result hapl
  cases h
  exact ⟨result, hapl⟩

lemma Run.cons {m m1 m2 : Machine} {entry : LogEntry} {result : Bytes} {log : List LogEntry}
    (hstep : Applies m entry result m1) (hrun : Run m1 log m2) : Run m (entry :: log) m2 := by
  induction hrun with
  | start => exact Run.next .start hstep
  | next _ hlast ih => exact ih.next hlast

lemma run_of_follow {m m' : Machine} {index : Nat} {script : List (Machine → Command)}
    {log : List LogEntry} (h : follow m index script = some (log, m')) : Run m log m' := by
  induction script generalizing m index log with
  | nil =>
    cases h
    exact .start
  | cons _ _ ih =>
    simp only [follow, bind_eq_some, Prod.exists, Option.some.injEq, Prod.mk.injEq] at h
    obtain ⟨entry, m1, hstep, tail, m2, htail, rfl, rfl⟩ := h
    obtain ⟨result, happs⟩ := applies_of_perform hstep
    exact Run.cons happs (ih htail)

/-- A script whose end has a property is a run that reaches it. -/
lemma exists_run_of_follow (script : List (Machine → Command)) (check : Machine → Bool)
    (h : ((follow .new 1 script).any fun outcome => check outcome.2) = true) :
    ∃ log m, Run .new log m ∧ check m = true := by
  obtain ⟨⟨log, m⟩, hfollow, hchk⟩ := (Option.any_eq_true _ _).mp h
  exact ⟨log, m, run_of_follow hfollow, hchk⟩

end Follow

/-! ## The sample installation -/

/-- A contract with a hash that can be computed by hand. -/
@[reducible] def sampleContract : Contract where
  sum256 bytes :=
    BitVec.ofNat 256 (bytes.foldl (fun sum byte => (sum * 257 + byte.toNat + 1) % (2 ^ 256 - 189)) 7)
  consensusFingerprint := 1
  registryFingerprint := 2

namespace Sample

attribute [local instance] sampleContract

/-- Two numbers, collected by one sink. -/
def topology : TopologySpec :=
  ⟨1, ascii "sample", [⟨1, ascii "numbers", .source, 1,
        ⟨ascii "range", 1, [⟨ascii "end_exclusive", ascii "2"⟩, ⟨ascii "start", ascii "0"⟩]⟩⟩,
      ⟨2, ascii "results", .sink, 1, ⟨ascii "collect", 1, []⟩⟩],
    [⟨1, 1, 2, .shuffle, []⟩], registryFingerprint⟩

def jobID : JobID := deriveJobID ⟨7, 1⟩ (sum256 (marshalTopology topology))

def source : TaskID := ⟨jobID, 1, 0⟩

def sink : TaskID := ⟨jobID, 2, 0⟩

def begin (m : Machine) : Command := m.issue 1 (.beginCoordinatorEpoch 9 5)

/-- A worker in its only incarnation, registered anew or once more. -/
def register (id : InternalCommandID) (workerID : U16) (m : Machine) : Command :=
  let target (revision : U64) : Target := .registerWorker
    ⟨workerID, workerID.setWidth 128, .eligible, revision, 4, consensusFingerprint, registryFingerprint⟩
  m.issue id (target (m.standing (target 0) + 1))

def submit (m : Machine) : Command := m.submit ⟨7, 1⟩ topology

def recordEOF (m : Machine) : Command := m.issue 5 (.recordSourceEOF source 2)

/-- The placement the coordinator computes. -/
def install (m : Machine) : Command :=
  let placement := (validateTopology topology).bind fun validated =>
    buildAssignmentSet jobID validated.digest 1 validated (m.residualEligiblePlacements jobID)
  m.issue 6 (.installAssignments (placement.getD ⟨0, 0, 0, [], []⟩))

def deactivate (id : InternalCommandID) (workerID : U16) (m : Machine) : Command :=
  m.issue id (.deactivateWorker workerID (workerID.setWidth 128)
    (m.affectedBy workerID (workerID.setWidth 128)))

def cancel (m : Machine) : Command := m.cancel ⟨7, 2⟩ jobID

/-- The placement with what a worker holds given to another one. -/
def reassigned (move : U16 → U16) (set : AssignmentSet) : AssignmentSet :=
  let unsigned : AssignmentSet :=
    ⟨set.jobID, set.revision + 1, 0, set.tasks.map fun token =>
        ⟨token.task, move token.workerID, (move token.workerID).setWidth 128,
          if move token.workerID = token.workerID then token.attempt else token.attempt + 1,
          token.specificationHash, set.revision + 1⟩,
      set.resultReplicas.map fun replica =>
        ⟨replica.sinkTask, move replica.primaryNodeID, move replica.secondaryNodeID,
          (move replica.primaryNodeID).setWidth 128, (move replica.secondaryNodeID).setWidth 128⟩⟩
  { unsigned with digest := assignmentDigest unsigned }

/-- The job's placement and markers, as they stand. -/
def replaceBy (id : InternalCommandID) (move : U16 → U16) (m : Machine) : Command :=
  let job := (m.jobs.find? jobID).getD (Machine.pendingJob 0 ⟨0, 0⟩ 0 [])
  let set := job.assignment.getD ⟨0, 0, 0, [], []⟩
  m.issue id (.replaceAssignments jobID set.revision set.digest
    (needsReassignmentDigest job.needsReassignment) (reassigned move set))

def replace (id : InternalCommandID) (old new : U16) : Machine → Command :=
  replaceBy id fun workerID => if workerID = old then new else workerID

/-- A job deployed on three workers: both tasks on the third, the second copy on the second. -/
def deployed : List (Machine → Command) :=
  [begin, register 2 1, register 3 2, register 4 3, submit, recordEOF, install]

/-- The coordinator has begun and one worker is there. -/
lemma registered_run : ∃ log m, Run .new log m ∧ m.coordinatorRevision = 1 ∧ m.workers.size = 1 := by
  obtain ⟨log, m, hrun, hchk⟩ := exists_run_of_follow [begin, register 2 1]
    (fun m => m.coordinatorRevision = 1 && m.workers.size = 1) (by decide +kernel)
  simp only [Bool.and_eq_true, decide_eq_true_eq] at hchk
  exact ⟨log, m, hrun, hchk⟩

end Sample

end Crane.State
