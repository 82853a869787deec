import Crane.State.Apply

/-!
# Snapshots

The canonical layout of a snapshot (`snapshot.go`): a header, the five counts, and the five
collections in key order. Each entry is one `Codec`; the counts come before all entries, so the root
is written by hand.
-/

namespace Crane.State

open Wire Data Model Codec

/-! ## Entries -/

def boolCodec : Codec Bool :=
  enum 1 (fun b => if b then 1 else 0)
    (fun w => if w = 0 then some false else if w = 1 then some true else none)
    (by
      intro w b
      refine ⟨fun h => ?_, fun h => by subst h; cases b <;> rfl⟩
      repeat' split at h
      all_goals cases h <;> (symm; assumption))

def clientEntryCodec : Codec (ClientID × ClientHistory) :=
  ((array16.seq (u64.seq (array32.seq (blob 4 maxCachedResultBytes)))).via
    (fun entry => (entry.1, entry.2.sequence, entry.2.digest, entry.2.result))
    (fun (id, sequence, digest, result) => (id, ⟨sequence, digest, result⟩))).check fun entry =>
      ClientID.validate entry.1 && entry.2.sequence ≠ 0 && entry.2.digest ≠ 0

def subjectEntryCodec : Codec (SubjectKey × SubjectHistory) :=
  ((subjectKeyCodec.seq (u64.seq (array32.seq (array32.seq
      ((blob 4 Limits.maxSubmitJobBytes).seq ((blob 4 maxCachedResultBytes).seq
        (boolCodec.seq (u64.seq ((blob 4 Limits.maxSubmitJobBytes).seq
          (blob 4 maxCachedResultBytes)))))))))).via
    (fun entry => (entry.1, entry.2.revision, entry.2.id, entry.2.digest, entry.2.target,
      entry.2.result, entry.2.applied, entry.2.appliedRevision, entry.2.appliedTarget,
      entry.2.appliedResult))
    (fun (subject, revision, id, digest, target, result, applied, appliedRevision, appliedTarget,
        appliedResult) =>
      (subject, ⟨revision, id, digest, target, result, applied, appliedTarget, appliedResult,
        appliedRevision⟩))).check fun entry =>
      entry.1.validate && entry.2.id ≠ 0 && entry.2.digest ≠ 0

def workerEntryCodec [Contract] : Codec (U16 × WorkerRecord) :=
  (u16.seq workerRecordCodec).check fun entry =>
    entry.1 ≠ 0 && entry.2.nodeID = entry.1 && entry.2.validate

def provenanceCodec : Codec InvalidationProvenance :=
  (invalidationKindCodec.seq (u16.seq (array16.seq (u64.seq (u64.seq
      (u64.seq (array32.seq (provenanceMarkersCodec.seq (repairStateCodec.seq
        (u64.seq (u64.seq (array32.seq array32)))))))))))).via
    (fun p => (p.kind, p.workerID, p.workerEpoch, p.workerRevision, p.jobControlRevision,
      p.assignmentRevision, p.assignmentDigest, p.markers, p.repairState,
      p.repairJobControlRevision, p.repairAssignmentRevision, p.repairAssignmentDigest,
      p.repairMarkersDigest))
    (fun (kind, worker, epoch, workerRevision, jobRevision, assignmentRevision, digest, markers,
        state, repairJob, repairAssignment, repairDigest, repairMarkers) =>
      ⟨kind, worker, epoch, workerRevision, jobRevision, assignmentRevision, digest, markers, state,
        repairJob, repairAssignment, repairDigest, repairMarkers⟩)

def sourceEOFEntryCodec : Codec (TaskID × SourceEOFRecord) :=
  (taskIDCodec.seq (u64.seq u64)).via
    (fun entry => (entry.1, entry.2.eof, entry.2.revision))
    (fun (task, eof, revision) => (task, ⟨eof, revision⟩))

def checkpointEntryCodec : Codec (TaskID × CheckpointRecord) :=
  (taskIDCodec.seq (u64.seq u64)).via
    (fun entry => (entry.1, entry.2.watermark, entry.2.revision))
    (fun (task, watermark, revision) => (task, ⟨watermark, revision⟩))

def manifestEntryCodec : Codec (TaskID × ResultManifest) :=
  (taskIDCodec.seq resultManifestCodec).check fun entry => entry.2.sinkTask = entry.1

@[simp] lemma sourceEOFEntryCodec_length (entry : TaskID × SourceEOFRecord) :
    (sourceEOFEntryCodec.put entry).length = 36 := by simp [sourceEOFEntryCodec]

@[simp] lemma checkpointEntryCodec_length (entry : TaskID × CheckpointRecord) :
    (checkpointEntryCodec.put entry).length = 36 := by simp [checkpointEntryCodec]

@[simp] lemma manifestEntryCodec_length (entry : TaskID × ResultManifest) :
    (manifestEntryCodec.put entry).length = 200 := by simp [manifestEntryCodec]

lemma provenanceCodec_length (provenance : InvalidationProvenance) :
    (provenanceCodec.put provenance).length = provenanceBytes provenance := by
  simp only [provenanceBytes, invalidationProvenanceFixedBytes, reassignmentMarkerEstimatedBytes]
  simp [provenanceCodec, invalidationKindCodec, repairStateCodec, provenanceMarkersCodec_length]
  omega

def provenanceHistoryCodec : Codec (List InvalidationProvenance) :=
  counted 2 (· ≤ maxInvalidationProvenance) invalidationProvenanceFixedBytes provenanceCodec
    (by decide) (by intro p; rw [provenanceCodec_length]; exact Nat.le_add_right _ _)

def sourceEOFsCodec : Codec (Table TaskID SourceEOFRecord) :=
  tableCodec (counted 2 (· ≤ Limits.maxTasksPerJob) sourceEOFEntryEstimatedBytes
    sourceEOFEntryCodec (by decide) (by intro e; simp))

def checkpointsCodec : Codec (Table TaskID CheckpointRecord) :=
  tableCodec (counted 2 (· ≤ Limits.maxTasksPerJob) checkpointEntryEstimatedBytes
    checkpointEntryCodec (by decide) (by intro e; simp))

def manifestsCodec : Codec (Table TaskID ResultManifest) :=
  tableCodec (counted 2 (· ≤ Limits.maxResultManifestsPerJob)
    resultManifestEntryEstimatedBytes manifestEntryCodec (by decide) (by intro e; simp))

/-- Everything keyed by a task of the job has the job's own tasks as keys. -/
def tasksOwned (job : JobRecord) : Bool :=
  job.sourceEOFs.keys.all (·.jobID = job.jobID) && job.checkpoints.keys.all (·.jobID = job.jobID) &&
    job.manifests.keys.all (·.jobID = job.jobID)

def jobRecordCodec : Codec JobRecord :=
  ((array16.seq (clientRequestIDCodec.seq (array32.seq
      ((blob 8 Limits.maxTopologyBytes).seq (jobLifecycleCodec.seq (u64.seq
        ((optional assignmentSetCodec).seq (markersCodec.seq (provenanceHistoryCodec.seq
          (sourceEOFsCodec.seq (checkpointsCodec.seq (manifestsCodec.seq
            (optional jobFailureReportCodec))))))))))))).via
    (fun job => (job.jobID, job.definingRequest, job.topologyDigest, job.topologyBytes,
      job.lifecycle, job.jobControlRevision, job.assignment, job.needsReassignment,
      job.invalidationHistory, job.sourceEOFs, job.checkpoints, job.manifests, job.failure))
    (fun (id, request, digest, topology, lifecycle, revision, assignment, markers, history, eofs,
        checkpoints, manifests, failure) =>
      ⟨id, request, digest, topology, lifecycle, revision, assignment, markers, history, eofs,
        checkpoints, manifests, failure⟩)).check tasksOwned

def jobEntryCodec : Codec (JobID × JobRecord) :=
  (array16.seq jobRecordCodec).check fun entry => JobID.validate entry.1 && entry.2.jobID = entry.1

def workerEventEntryCodec : Codec (WorkerEventKey × WorkerEventCursor) :=
  ((workerEventKeyCodec.seq (u64.seq array32)).via
    (fun entry => (entry.1, entry.2.transactionID, entry.2.digest))
    (fun (key, transaction, digest) => (key, ⟨transaction, digest⟩))).check fun entry => entry.1.workerID ≠ 0

/-! ## The root -/

section Root

variable [Contract]

/-- Magic, schema, fingerprint, index, coordinator revision and epoch. -/
def snapshotHeaderCodec : Codec (U64 × U64 × CoordinatorEpoch) :=
  (((literal (ascii "CRSN" ++ [0, 2])).seq ((array32.check (· = consensusFingerprint)).seq
      (u64.seq (u64.seq coordinatorEpochCodec)))).via
    (fun header => ((), consensusFingerprint, header.1, header.2.1, header.2.2))
    (fun (_, _, index, revision, epoch) => (index, revision, epoch))
    (fun _ => rfl)
    (by
      rintro ⟨⟨⟩, fingerprint, index, revision, epoch⟩ ⟨-, ⟨-, h⟩, -⟩
      have hfingerprint : fingerprint = consensusFingerprint := of_decide_eq_true h
      rw [hfingerprint]))

def putCount (n : Nat) : Bytes := u64.put (BitVec.ofNat 64 n)

def appendCanonicalSnapshot (m : Machine) : Bytes :=
  snapshotHeaderCodec.put (m.lastAppliedIndex, m.coordinatorRevision, m.coordinatorEpoch) ++
    putCount m.clients.size ++ putCount m.subjects.size ++ putCount m.workers.size ++
    putCount m.jobs.size ++ putCount m.workerEvents.size ++
    m.clients.entries.flatMap clientEntryCodec.put ++
    m.subjects.entries.flatMap subjectEntryCodec.put ++
    m.workers.entries.flatMap workerEntryCodec.put ++ m.jobs.entries.flatMap jobEntryCodec.put ++
    m.workerEvents.entries.flatMap workerEventEntryCodec.put

end Root

end Crane.State
