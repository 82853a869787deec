import Crane.State.Records

/-!
# Layouts of the replicated records

The byte layout of each record, shared by command targets, command results and snapshots
(`command_codec.go`, `snapshot.go`). Reader and writer are one `Codec`; the counts carry the
bounds the decoders check. A number outside an enumeration is refused while it is read, where the
source reads it and refuses the record afterwards.
-/

namespace Crane.State

open Wire Data Model Codec

/-! ## Enumerations -/

def workerStateCodec : Codec WorkerState :=
  enum 1
    (fun | .eligible => 1 | .draining => 2 | .offline => 3)
    (fun w => if w = 1 then some .eligible else if w = 2 then some .draining
      else if w = 3 then some .offline else none)
    (by
      intro w state
      refine ⟨fun h => ?_, fun h => by subst h; cases state <;> rfl⟩
      repeat' split at h
      all_goals cases h <;> (symm; assumption))

def reassignmentTargetKindCodec : Codec ReassignmentTargetKind :=
  enum 1
    (fun | .task => 1 | .resultReplica => 2)
    (fun w => if w = 1 then some .task else if w = 2 then some .resultReplica else none)
    (by
      intro w kind
      refine ⟨fun h => ?_, fun h => by subst h; cases kind <;> rfl⟩
      repeat' split at h
      all_goals cases h <;> (symm; assumption))

def replicaRoleCodec : Codec (Option ResultReplicaRole) :=
  enum 1
    (fun | none => 0 | some .primary => 1 | some .secondary => 2)
    (fun w => if w = 0 then some none else if w = 1 then some (some .primary)
      else if w = 2 then some (some .secondary) else none)
    (by
      intro w role
      refine ⟨fun h => ?_, fun h => by subst h; rcases role with _ | _ | _ <;> rfl⟩
      repeat' split at h
      all_goals cases h <;> (symm; assumption))

def invalidationKindCodec : Codec (Option WorkerInvalidationKind) :=
  enum 1
    (fun | none => 0 | some .deactivate => 1 | some .replaceEpoch => 2)
    (fun w => if w = 0 then some none else if w = 1 then some (some .deactivate)
      else if w = 2 then some (some .replaceEpoch) else none)
    (by
      intro w kind
      refine ⟨fun h => ?_, fun h => by subst h; rcases kind with _ | _ | _ <;> rfl⟩
      repeat' split at h
      all_goals cases h <;> (symm; assumption))

def repairStateCodec : Codec InvalidationRepairState :=
  enum 1
    (fun | .active => 1 | .anchored => 2 | .forgotten => 3)
    (fun w => if w = 1 then some .active else if w = 2 then some .anchored
      else if w = 3 then some .forgotten else none)
    (by
      intro w state
      refine ⟨fun h => ?_, fun h => by subst h; cases state <;> rfl⟩
      repeat' split at h
      all_goals cases h <;> (symm; assumption))

def JobLifecycle.number : JobLifecycle → U8
  | .pending => 1
  | .deploying => 2
  | .running => 3
  | .draining => 4
  | .succeeded => 5
  | .failed => 6
  | .canceled => 7

def JobLifecycle.ofNumber (w : U8) : Option JobLifecycle :=
  [pending, deploying, running, draining, succeeded, failed, canceled].find? fun l => l.number = w

def jobLifecycleCodec : Codec JobLifecycle :=
  enum 1 JobLifecycle.number JobLifecycle.ofNumber (by
    intro w lifecycle
    constructor
    · intro h
      simpa using List.find?_some h
    rintro rfl
    cases lifecycle <;> rfl)

def SubjectKind.number : SubjectKind → U8
  | .none => 0
  | .coordinator => 1
  | .worker => 2
  | .jobControl => 3
  | .sourceEOF => 4
  | .sourceCheckpoint => 5
  | .resultManifest => 6

def SubjectKind.ofNumber (w : U8) : Option SubjectKind :=
  [none, coordinator, worker, jobControl, sourceEOF, sourceCheckpoint, resultManifest].find?
    fun kind => kind.number = w

def subjectKindCodec : Codec SubjectKind :=
  enum 1 SubjectKind.number SubjectKind.ofNumber (by
    intro w kind
    constructor
    · intro h
      simpa using List.find?_some h
    rintro rfl
    cases kind <;> rfl)

/-! ## Records -/

def workerRecordCodec : Codec WorkerRecord :=
  (u16.seq (array16.seq (workerStateCodec.seq (u64.seq (u16.seq
      (array32.seq array32)))))).via
    (fun w => (w.nodeID, w.epoch, w.state, w.revision, w.slots, w.consensusFingerprint, w.registryFingerprint))
    (fun (nodeID, epoch, state, revision, slots, consensus, registry) =>
      ⟨nodeID, epoch, state, revision, slots, consensus, registry⟩)

def affectedAssignmentCodec : Codec AffectedAssignment :=
  (array16.seq (u64.seq (u64.seq array32))).via
    (fun a => (a.jobID, a.jobControlRevision, a.assignmentRevision, a.assignmentDigest))
    (fun (job, jobRevision, assignmentRevision, digest) => ⟨job, jobRevision, assignmentRevision, digest⟩)

def markerCodec : Codec NeedsReassignment :=
  (reassignmentTargetKindCodec.seq (taskIDCodec.seq (taskIDCodec.seq (replicaRoleCodec.seq
      (u16.seq array16))))).via
    (fun m => (m.kind, m.task, m.sinkTask, m.replicaRole, m.oldWorkerID, m.oldWorkerEpoch))
    (fun (kind, task, sink, role, worker, epoch) => ⟨kind, task, sink, role, worker, epoch⟩)

def subjectKeyCodec : Codec SubjectKey :=
  (subjectKindCodec.seq (array16.seq (taskIDCodec.seq u16))).via
    (fun key => (key.kind, key.jobID, key.taskID, key.workerID))
    (fun (kind, job, task, worker) => ⟨kind, job, task, worker⟩)

def workerEventKeyCodec : Codec WorkerEventKey :=
  (u16.seq array16).via (fun key => (key.workerID, key.workerEpoch))
    (fun p => ⟨p.1, p.2⟩)

def resultManifestCodec : Codec ResultManifest :=
  (array16.seq (taskIDCodec.seq (u64.seq (array32.seq (u64.seq
      (u64.seq (array32.seq resultReplicaSetCodec))))))).via
    (fun m => (m.jobID, m.sinkTask, m.manifestRevision, m.specificationHash, m.recordCount,
      m.totalBytes, m.checksum, m.replicas))
    (fun (job, sink, revision, specification, records, total, checksum, replicas) =>
      ⟨job, sink, revision, specification, records, total, checksum, replicas⟩)

@[simp] lemma workerRecordCodec_length (record : WorkerRecord) :
    (workerRecordCodec.put record).length = 93 := by simp [workerRecordCodec, workerStateCodec]

@[simp] lemma affectedAssignmentCodec_length (affected : AffectedAssignment) :
    (affectedAssignmentCodec.put affected).length = 64 := by simp [affectedAssignmentCodec]

@[simp] lemma markerCodec_length (marker : NeedsReassignment) : (markerCodec.put marker).length = 60 := by
  simp [markerCodec, reassignmentTargetKindCodec, replicaRoleCodec]

@[simp] lemma subjectKeyCodec_length (key : SubjectKey) :
    (subjectKeyCodec.put key).length = 39 := by simp [subjectKeyCodec, subjectKindCodec]

@[simp] lemma workerEventKeyCodec_length (key : WorkerEventKey) :
    (workerEventKeyCodec.put key).length = 18 := by simp [workerEventKeyCodec]

@[simp] lemma resultManifestCodec_length (manifest : ResultManifest) :
    (resultManifestCodec.put manifest).length = 180 := by simp [resultManifestCodec]

lemma subjectKeyCodec_dom (key : SubjectKey) : subjectKeyCodec.dom key :=
  ⟨trivial, trivial, taskIDCodec_dom _, trivial⟩

lemma workerEventKeyCodec_dom (key : WorkerEventKey) : workerEventKeyCodec.dom key := ⟨trivial, trivial⟩

instance : Ranked SubjectKey := Ranked.ofCodec subjectKeyCodec subjectKeyCodec_dom subjectKeyCodec_length

instance : Ranked WorkerEventKey :=
  Ranked.ofCodec workerEventKeyCodec workerEventKeyCodec_dom workerEventKeyCodec_length

/-! ## Lists -/

def affectedCodec : Codec (List AffectedAssignment) :=
  counted 2 (· ≤ Limits.maxActiveJobs) 64 affectedAssignmentCodec (by decide)
    (by intro a; simp)

lemma affectedCodec_length (affected : List AffectedAssignment) :
    (affectedCodec.put affected).length = 2 + affected.length * 64 := by
  simp [affectedCodec]

/-- The markers of a job. -/
def markersCodec : Codec (List NeedsReassignment) :=
  counted 2 (· ≤ maxMarkers) 60 markerCodec (by decide) (by intro a; simp)

/-- The markers of a provenance record: there is always one. -/
def provenanceMarkersCodec : Codec (List NeedsReassignment) :=
  counted 2 (fun n => n ≠ 0 && n ≤ maxMarkers) 60 markerCodec (by decide)
    (by intro a; simp)

lemma markersCodec_length (markers : List NeedsReassignment) :
    (markersCodec.put markers).length = 2 + markers.length * 60 := by
  simp [markersCodec]

lemma provenanceMarkersCodec_length (markers : List NeedsReassignment) :
    (provenanceMarkersCodec.put markers).length = 2 + markers.length * 60 := by
  simp [provenanceMarkersCodec]

end Crane.State
