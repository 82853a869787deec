import Crane.Model.Sources
import Crane.Worker.Adoption

/-!
# Notices that workers accept

A coordinator announces a source's committed watermark to every worker of the job. The owner of the
source takes it into its cursor; the others keep it as an observation. In every run the index of a notice
is above those the worker has, the watermark is within the source's bound and no count overflows, so one
thing is left that can refuse the current notice: the owner keeps a delivery that the watermark covers
and that was never completed there.
-/

namespace Crane.Worker

open Wire Data Model State Program Table Function RecoveredWork Limits

variable {cursor prior : SourceCursor}

/-! ## Workers follow the machine -/

/-- What a worker has of a source, in its cursor or as an observation, is committed; its gate is that of a
    process that has moved as `Process.step` says, under the fence the worker has stored. -/
def Fleet.Follows (voter : U16 → Bool) (f : Fleet) (worker : Incarnation) (source : TaskID) : Prop :=
  ((f.work worker).watermark source = 0 ∨ ∃ job, f.machine.jobs.find? source.jobID = some job ∧
    (f.work worker).watermark source ≤ job.watermark source ∧
    (f.work worker).revision source ≤ (f.work worker).watermark source) ∧
  (∀ observation, (f.work worker).checkpoints.find? source = some observation → ∃ job,
    f.machine.jobs.find? source.jobID = some job ∧ observation.notice.watermark ≤ job.watermark source) ∧
  Process.start.Reaches voter (f.node worker).process ∧
  (f.node worker).process.fence = (f.work worker).fence

section Follows

variable [Contract] {voter : U16 → Bool} {admits : Fleet → Incarnation → CommittedCheckpoint → Prop}
variable {f : Fleet}

/-- No worker is ever ahead of the machine. -/
theorem workers_follow (hf : FleetRun voter admits f) (worker : Incarnation) (source : TaskID) :
    f.Follows voter worker source := by
  have hnode := hf.consistent.nodes worker
  refine ⟨?_, ?_, hnode.reached, hnode.fence⟩
  · cases hnode.cursors source with
    | zero hzero => exact .inl hzero
    | committed _ _ hcount hjob hle => exact .inr ⟨_, hjob, hle, hcount⟩
  intro observation hfind
  obtain ⟨hkey, rfl, job, hannounced⟩ := hnode.observed source observation hfind
  exact ⟨job, hkey ▸ hannounced.found, hannounced.watermark⟩

end Follows

/-! ## The check before a commit -/

/-- What `validateRecoveredWorkLocal` checks. -/
structure LocalWork [Contract] (work : RecoveredWork) (worker : Incarnation) : Prop where
  sources : ∀ source cursor, work.sources.find? source = some cursor → ∃ held,
    work.assignments.find? source.jobID = some held ∧
      (findToken held.assignment source).any (localToken worker) = true ∧
      sourceEOF held.topology source = some cursor.eof
  checkpoints : ∀ source observation, work.checkpoints.find? source = some observation → ∃ held,
    work.assignments.find? observation.notice.jobID = some held ∧
      (assignmentTargetsWorker held.assignment worker || historicalResultHolder work held worker) = true
  deliveries : ∀ delivery ∈ work.deliveries, localToken worker delivery.destination = true
  outboxes : ∀ outbox ∈ work.outboxes, ∃ held, work.assignments.find? outbox.id.tuple.jobID = some held ∧
    (localToken worker outbox.producer && validateSnapshotOutbox outbox held work.fence) = true
  results : ∀ result ∈ work.results, provenanceTargets result.provenance worker = true
  events : ∀ event ∈ work.pendingEvents,
    (event.workerID = worker.nodeID && event.workerEpoch = worker.workerEpoch : Bool) = true
  repairs : ∀ repair ∈ work.repairs, repairTargets repair worker = true

section Recheck

variable [Contract] {work : RecoveredWork} {worker : Incarnation} {source : TaskID}
variable {assignment : InstalledAssignment}

/-- A cursor of an own source at its bound passes the check, and what a checkpoint drops is not missed. -/
lemma LocalWork.moved (h : LocalWork work worker) {deliveries : DeliveryRecord → Bool}
    {outboxes : OutboxRecord → Bool} (hassignment : work.assignments.find? source.jobID = some assignment)
    (hlocal : (findToken assignment.assignment source).any (localToken worker) = true)
    (heof : sourceEOF assignment.topology source = some cursor.eof) :
    LocalWork { work with
      sources := work.sources.insert source cursor
      deliveries := work.deliveries.filter deliveries
      outboxes := work.outboxes.filter outboxes } worker where
  sources := by
    intro other found hfind
    rw [find?_insert] at hfind
    split at hfind
    · rename_i hrank
      cases Ranked.rank_injective hrank
      cases hfind
      exact ⟨assignment, hassignment, hlocal, heof⟩
    · exact h.sources other found hfind
  checkpoints := h.checkpoints
  deliveries delivery hdelivery := h.deliveries delivery (List.mem_filter.mp hdelivery).1
  outboxes outbox houtbox := h.outboxes outbox (List.mem_filter.mp houtbox).1
  results := h.results
  events := h.events
  repairs := h.repairs

/-- An observation of a job whose placement names the incarnation passes the check. -/
lemma LocalWork.observed (h : LocalWork work worker) {request : CommittedCheckpoint}
    (hassignment : work.assignments.find? request.notice.jobID = some assignment)
    (htarget : assignmentTargetsWorker assignment.assignment worker = true) :
    LocalWork { work with checkpoints := work.checkpoints.insert request.notice.source request } worker where
  sources := h.sources
  checkpoints := by
    intro other found hfind
    rw [find?_insert] at hfind
    split at hfind
    · cases hfind
      exact ⟨assignment, hassignment, by rw [htarget, Bool.true_or]⟩
    · exact h.checkpoints other found hfind
  deliveries := h.deliveries
  outboxes := h.outboxes
  results := h.results
  events := h.events
  repairs := h.repairs

end Recheck

/-! ## One notice -/

section Owner

variable [Contract] {work work' : RecoveredWork} {notice : CheckpointNotice} {worker : Incarnation}
variable {assignment : InstalledAssignment} {eof : U64} {token : AssignmentToken}

/-- What the cursor of a source is like before a notice of the present. -/
structure Precedes (cursor : SourceCursor) (notice : CheckpointNotice) : Prop where
  counted : cursor.checkpointRevision = 0 ↔ cursor.watermark = 0
  count : cursor.checkpointRevision ≤ cursor.watermark
  watermark : cursor.watermark ≤ notice.watermark
  index : cursor.watermark < notice.watermark → cursor.raftIndex < notice.raftIndex

variable {request : CommittedCheckpoint}

end Owner

section Present

variable [Contract] {voter : U16 → Bool} {admits : Fleet → Incarnation → CommittedCheckpoint → Prop}
variable {f : Fleet} {worker : Incarnation} {key : JobID} {job : JobRecord}
variable {set : AssignmentSet} {topology : ValidatedTopology} {scheduling : SchedulingState}
variable {source : TaskID} {eof : U64} {token : AssignmentToken}

/-- A job is there only after an entry. -/
lemma index_ne_zero {m : Machine} (hm : Reachable m) (hjob : m.jobs.find? key = some job) :
    m.lastAppliedIndex ≠ 0 := by
  refine hm.induct (P := fun m => ∀ job, m.jobs.find? key = some job → m.lastAppliedIndex ≠ 0) ?_ ?_
    job hjob
  · intro job hnone
    cases hnone
  intro m entry result m' _ _ happlies job _
  exact ne_zero_of_above (lt_of_applies happlies (BitVec.le_refl _))

/-- The cursor that a worker has precedes the present notice. -/
lemma precedes (hf : f.Consistent voter) (hjob : f.machine.jobs.find? key = some job)
    (hsource : source.jobID = key) (hcursor : (f.work worker).sources.find? source = some cursor) :
    Precedes cursor (announcement f.machine key job set source).notice := by
  have htracks := (hf.nodes worker).cursors source
  obtain ⟨hmark, hcount, hat⟩ := lookup_some hcursor
  rw [hmark, hcount, hat] at htracks
  have hindex := index_ne_zero hf.reachable hjob
  cases htracks with
  | zero hwatermark hraft hrevision =>
    refine ⟨?_, ?_, ?_, ?_⟩
    · rw [hwatermark, hrevision]
    · rw [hwatermark, hrevision]
      exact BitVec.le_refl _
    · rw [hwatermark]
      bv_omega
    intro _
    rw [hraft]
    change (0 : U64) < f.machine.lastAppliedIndex
    bv_omega
  | committed hwatermark hrevision hcount hjob' hle _ hlater =>
    rw [hsource] at hjob'
    cases hjob.symm.trans hjob'
    refine ⟨?_, hcount, hle, hlater⟩
    exact ⟨fun hzero => absurd hzero hrevision, fun hzero => absurd hzero hwatermark⟩

end Present

/-! ## Workers that keep deliveries -/

namespace Sample

attribute [local instance] sampleContract

open State.Sample

/-- The owner of source and sink has the first number in an outbox and the second one as a delivery when it
    is told of the first; the worker with the second copy is told as well. -/
def tells (m : Machine) : Bool :=
  (plays false m (worker 3) .new
      [.fence, .install .closed, .install .running, .emit 1, .receive 2]).any fun owner =>
    (plays false m (worker 3) owner [.notice]).any fun told =>
    (plays false m (worker 2) .new [.fence, .install .closed, .notice]).any fun observer =>
    (m.jobs.find? jobID).any fun job => job.assignment.any fun set =>
    (decodeTopology job.topologyBytes).any fun topology => (findToken set source).any fun token =>
      job.watermark source = 1 && localToken (worker 3) token && assignmentTargetsWorker set (worker 3) &&
      (sourceEOF topology source).isSome && m.coordinatorEpoch ≠ .zero &&
      owner.work.fence = m.coordinatorEpoch && owner.work.checkpoints.size = 0 &&
      owner.work.assignments.find? jobID = some (buildInstall job set topology .running m.coordinatorEpoch) &&
      owner.work.outboxes.length = 1 && owner.work.deliveries.length = 1 &&
      (owner.work.deliveries.all fun delivery => delivery.id.tuple.sourceSequence = 2) &&
      told.work.watermark source = 1 &&
      (observer.work.checkpoints.find? source).any fun observation => observation.notice.watermark = 1

/-- One number is committed, and the workers are told of it. -/
lemma tells_run : ∃ log m, Run .new log m ∧ tells m = true :=
  exists_run_of_follow (deployed ++ [activate, advance 8 1]) tells (by decide +kernel)

/-- A worker with room for one task. -/
def single (id : InternalCommandID) (workerID : U16) (m : Machine) : Command :=
  let target (revision : U64) : Target := .registerWorker
    ⟨workerID, workerID.setWidth 128, .eligible, revision, 1, consensusFingerprint, registryFingerprint⟩
  m.issue id (target (m.standing (target 0) + 1))

end Sample

section Samples

attribute [local instance] sampleContract

open State.Sample Sample

/-- The owner of the source and an observer after they were told of the first number. -/
theorem workers_follow_told : ∃ f : Fleet, (f.work (worker 3)).watermark source = 1 ∧
    (∃ observation, (f.work (worker 2)).checkpoints.find? source = some observation ∧
      observation.notice.watermark = 1) ∧
    f.Follows anyone (worker 3) source ∧ f.Follows anyone (worker 2) source := by
  obtain ⟨log, m, hrun, htells⟩ := tells_run
  simp only [tells, Option.any_eq_true, Bool.and_eq_true, decide_eq_true_eq] at htells
  obtain ⟨owner, howner, told, htold, observer, hobserver, -, -, -, -, -, -, -, -, ⟨-, hwatermark⟩,
    observation, hobservation, hmark⟩ := htells
  have hstart : GetsTo anyone (fun _ _ _ => True) m fun _ => .new := GetsTo.new.run hrun
  have hserves := getsTo_plays (fun _ _ _ => trivial) hstart rfl howner
  have htaken := getsTo_plays (fun _ _ _ => trivial) hserves (update_self ..) htold
  rw [update_idem] at htaken
  have hother : worker 2 ≠ worker 3 := by decide
  obtain ⟨f, hf, -, hnodes⟩ :=
    getsTo_plays (fun _ _ _ => trivial) htaken (update_of_ne hother ..) hobserver
  refine ⟨f, ?_, ⟨observation, ?_, hmark⟩, workers_follow hf _ _, workers_follow hf _ _⟩
  · rw [Fleet.work, hnodes, update_of_ne hother.symm, update_self]
    exact hwatermark
  · rw [Fleet.work, hnodes, update_self]
    exact hobservation

end Samples

end Crane.Worker
