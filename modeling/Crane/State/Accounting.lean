import Crane.State.Shape

/-!
# The running total is exact

Every command announces how much the state grows, and its engine adds that, and the change in the
history it stores, to the running total. The announced growth is the growth there is
(`Effect.stateBytes`), so the total is always what a recomputation gives, and that is what the
canonical snapshot takes (`length_appendCanonicalSnapshot`).
-/

namespace Crane.State

open Wire Data Model Option Machine Table

/-- What everything but the histories takes. -/
def Machine.stateBytes (m : Machine) : Nat :=
  m.workers.size * workerRecordEstimatedBytes + (m.jobs.sum fun _ => jobBytes) +
    m.workerEvents.size * workerEventEntryEstimatedBytes

lemma Machine.bytes_eq (m : Machine) :
    m.bytes = estimatedSnapshotBaseBytes + (m.clients.sum fun _ => clientBytes) +
      (m.subjects.sum fun _ => subjectBytes) + m.stateBytes := by
  rw [bytes, stateBytes]
  omega

section Steps

variable [Contract]
variable {m m' : Machine} {entry : LogEntry} {result : Bytes} {index term next : U64}
variable {command : Command} {changed : Machine} {growth : Int} {key : JobID} {job job' : JobRecord}
variable {cursor : Option (WorkerEventKey × WorkerEventCursor)}

/-- A bound is recorded once. -/
lemma sourceEOF_fresh (hm : Reachable m) {envelope : Envelope} {source : TaskID} {eof : U64}
    (hisd : Issued m ⟨envelope, .recordSourceEOF source eof⟩ next)
    (hsto : m.jobs.find? source.jobID = some job) : job.sourceEOFs.find? source = none := by
  obtain ⟨-, -, hflds⟩ := hisd nofun
  simp only [Target.fieldsValid, Target.subject, Bool.and_eq_true, decide_eq_true_eq,
    subjectRevision_sourceEOF, hsto, eofRevision, bind_some] at hflds
  cases hfind : job.sourceEOFs.find? source with
  | none => rfl
  | some record =>
    rw [hfind, map_some, getD_some, ((hm.jobSources hsto).eofs source record hfind).2.1]
      at hflds
    exact absurd hflds.1 (by decide)

/-- A change of a record announces how much it grows. -/
lemma JobChange.bytes (hm : Reachable m) (hisd : Issued m command next) (hsto : m.jobs.find? key = some job)
    (h : JobChange m next command key job job' cursor growth) :
    (jobBytes job' : Int) = jobBytes job + growth := by
  cases h with
  | cancel => simp [jobBytes]
  | recordEOF hpend hassign htopo heof =>
    rename_i envelope source eof topology
    have hsize := size_insert_new (⟨eof, next⟩ : SourceEOFRecord)
      (sourceEOF_fresh hm hisd hsto)
    simp only [jobBytes, hsize]
    push_cast
    ring
  | install _ hassign =>
    simp only [jobBytes, hassign, assignmentBytes, elim_some, elim_none]
    push_cast
    ring
  | replace _ _ _ _ _ _ hbef haft | transition _ _ _ hbef haft
  | fail hval hcurs hbef haft =>
    rw [(estimateJobRecordBytes_eq_some.mp haft).1, (estimateJobRecordBytes_eq_some.mp hbef).1, signedSizeDelta]
    ring
  | advance hval hcurs =>
    rename_i envelope report
    have hsize := size_insert_growth job.checkpoints report.source ⟨report.new, next⟩
      checkpointEntryEstimatedBytes
    simp only [jobBytes]
    push_cast at hsize ⊢
    omega
  | sealManifest hval =>
    rename_i envelope manifest
    have hsize := size_insert_growth job.manifests manifest.sinkTask manifest
      resultManifestEntryEstimatedBytes
    simp only [jobBytes]
    push_cast at hsize ⊢
    omega

section

omit [Contract]

lemma moveCursor_size (m : Machine) (cursor : Option (WorkerEventKey × WorkerEventCursor)) :
    ((m.moveCursor cursor).workerEvents.size * workerEventEntryEstimatedBytes : Int) =
      m.workerEvents.size * workerEventEntryEstimatedBytes + m.cursorGrowth cursor := by
  cases cursor with
  | none => simp [moveCursor, cursorGrowth]
  | some moved => exact size_insert_growth m.workerEvents moved.1 moved.2 _

/-- Replacing one worker and all jobs. -/
lemma storeWorker_bytes {workerID : U16} {worker current : WorkerRecord}
    {jobs : Table JobID JobRecord} {delta : Int} (hcur : m.workers.find? workerID = some current)
    (hjobs : ((jobs.sum fun _ => jobBytes : Nat) : Int) = (m.jobs.sum fun _ => jobBytes) + delta) :
    ((m.storeWorker workerID worker jobs).stateBytes : Int) = m.stateBytes + delta := by
  simp only [stateBytes, storeWorker, size_insert_old worker hcur]
  push_cast
  omega

lemma pendingJob_bytes (key : JobID) (request : ClientRequestID) (digest : Array32)
    (canonical : Bytes) : jobBytes (Machine.pendingJob key request digest canonical) =
      jobRecordFixedEstimatedBytes + canonical.length := by
  simp [jobBytes, pendingJob, assignmentBytes, failureBytes, size]

end

/-- The announced growth is the growth there is. -/
lemma Effect.stateBytes (hm : Reachable m) (hisd : Issued m command next)
    (h : Effect m index term next command changed growth) :
    (changed.stateBytes : Int) = m.stateBytes + growth := by
  cases h with
  | begin => simp [stateBytes]
  | register hnew _ _ hjobs =>
    obtain ⟨-, hsum⟩ := prepareConsumedInvalidationPrune_eq_some hjobs
    simp only [stateBytes, storeWorker, size_insert_new _ hnew]
    push_cast
    omega
  | revive hcur _ _ _ _ hjobs | drain hcur _ hjobs =>
    exact storeWorker_bytes hcur (prepareConsumedInvalidationPrune_eq_some hjobs).2
  | deactivate hcur _ hjobs => exact storeWorker_bytes hcur (prepareWorkerInvalidation_eq_some hjobs).2.2
  | replaceEpoch hcur hrev hstate hjobs =>
    rename_i envelope workerID current target affected jobs delta
    have hsto : ((m.storeWorker workerID target jobs).stateBytes : Int) = m.stateBytes + delta :=
      storeWorker_bytes hcur (prepareWorkerInvalidation_eq_some hjobs).2.2
    have herased := size_erase_growth m.workerEvents ⟨workerID, current.epoch⟩
      workerEventEntryEstimatedBytes
    simp only [stateBytes, storeWorker] at hsto ⊢
    push_cast at hsto herased ⊢
    omega
  | submit hident hvald hnew hroom hnext =>
    simp only [stateBytes, storeJob, sum_insert_new _ _ hnew, pendingJob_bytes]
    push_cast
    omega
  | job hsto hplc hchg =>
    rename_i key place job job' cursor delta
    have hplc : place = key := by
      rw [hm.keyed key job hsto] at hplc
      exact hplc.elim id id
    subst hplc
    have hjob := hchg.bytes hm hisd hsto
    have hsum := sum_insert m.jobs place job' fun _ => jobBytes
    rw [hsto, elim_some] at hsum
    have hcurs := moveCursor_size (m.storeJob place job') cursor
    have hgrw : (m.storeJob place job').cursorGrowth cursor = m.cursorGrowth cursor := by cases cursor <;> rfl
    simp only [stateBytes, moveCursor_workers, moveCursor_jobs, storeJob] at hcurs hgrw ⊢
    push_cast at hcurs ⊢
    omega

/-! ## The total -/

/-- The running total is the plain sum, and fits a snapshot. -/
structure Balanced (m : Machine) : Prop where
  exact : m.estimatedSnapshotBytes = m.bytes
  fits : m.estimatedSnapshotBytes ≤ maxSnapshotBytes

omit [Contract] in
/-- A history was exchanged and the state grew as announced. -/
lemma Balanced.storeSubject (hm : Balanced m) {subject : SubjectKey} {history : SubjectHistory}
    {newSize : Nat} (hsame : SameHistories m changed)
    (hstate : (changed.stateBytes : Int) = m.stateBytes + growth)
    (haccount : Accounted m.estimatedSnapshotBytes ((m.subjects.find? subject).elim 0 subjectBytes)
      (subjectBytes history) growth newSize) : Balanced (changed.storeSubject subject history newSize) := by
  refine ⟨?_, haccount.fits⟩
  have hsum := sum_insert m.subjects subject history fun _ => subjectBytes
  have hbal := haccount.balance
  have htotal := hm.exact
  rw [bytes_eq] at htotal ⊢
  simp only [Machine.storeSubject, hsame.clients, hsame.subjects]
  change newSize = _ + _ + _ + changed.stateBytes
  omega

omit [Contract] in
lemma Balanced.storeClient (hm : Balanced m) {client : ClientID} {history : ClientHistory}
    {newSize : Nat} (hsame : SameHistories m changed)
    (hstate : (changed.stateBytes : Int) = m.stateBytes + growth)
    (haccount : Accounted m.estimatedSnapshotBytes ((m.clients.find? client).elim 0 clientBytes)
      (clientBytes history) growth newSize) : Balanced (changed.storeClient client history newSize) := by
  refine ⟨?_, haccount.fits⟩
  have hsum := sum_insert m.clients client history fun _ => clientBytes
  have hbal := haccount.balance
  have htotal := hm.exact
  rw [bytes_eq] at htotal ⊢
  simp only [Machine.storeClient, hsame.clients, hsame.subjects]
  change newSize = _ + _ + _ + changed.stateBytes
  omega

lemma Applies.balanced (hreach : Reachable m) (hm : Balanced m)
    (h : Applies m entry result m') : Balanced m' := by
  obtain ⟨command, applied, -, hval, -, -, houtc, rfl⟩ := h.outcome
  suffices hall : Balanced applied from ⟨hall.exact, hall.fits⟩
  have hkept : SameHistories m m := ⟨rfl, rfl, rfl, rfl⟩
  have hzero : (m.stateBytes : Int) = m.stateBytes + 0 := (Int.add_zero _).symm
  cases houtc with
  | client hident _ houtc =>
    cases houtc with
    | answered _ _ hresol => exact hm.storeClient hkept hzero hresol.account
    | effected heff _ hresol =>
      exact hm.storeClient heff.sameHistories
        (heff.stateBytes hreach (.of_client hval hident)) hresol.account
    | _ => exact hm
  | internal hident houtc =>
    cases houtc with
    | recalled _ _ _ _ _ hsto | mismatched _ _ _ hsto | refused _ _ _ _ hsto
    | outdated _ _ _ _ _ hsto | begun _ _ _ _ _ _ _ hsto => exact hm.storeSubject hkept hzero hsto.account
    | effected _ hexp hmax heff _ _ hsto =>
      exact hm.storeSubject heff.sameHistories (heff.stateBytes hreach
        (.of_internal hreach hval hident hexp hmax)) hsto.account
    | _ => exact hm

lemma Reachable.balanced (h : Reachable m) : Balanced m := by
  refine h.induct ⟨rfl, by decide⟩ ?_
  intro m entry result m' hreach hm happs
  exact happs.balanced hreach hm

/-! ## What the snapshot takes -/

omit [Contract] in
lemma clientEntryCodec_length (entry : ClientID × ClientHistory) :
    (clientEntryCodec.put entry).length = clientBytes entry.2 := by
  simp only [clientBytes, clientHistoryFixedBytes]
  simp [clientEntryCodec]
  omega

omit [Contract] in
lemma subjectEntryCodec_length (entry : SubjectKey × SubjectHistory) :
    (subjectEntryCodec.put entry).length = subjectBytes entry.2 := by
  simp only [subjectBytes, subjectHistoryFixedBytes]
  simp [subjectEntryCodec, boolCodec]
  omega

lemma workerEntryCodec_length (entry : U16 × WorkerRecord) :
    (workerEntryCodec.put entry).length = workerRecordEstimatedBytes := by
  simp [workerEntryCodec]

section

omit [Contract]

lemma workerEventEntryCodec_length (entry : WorkerEventKey × WorkerEventCursor) :
    (workerEventEntryCodec.put entry).length = workerEventEntryEstimatedBytes := by
  simp [workerEventEntryCodec]

lemma length_flatMap_put {α : Type} (c : Codec α) (size : α → Nat)
    (h : ∀ a, (c.put a).length = size a) (list : List α) :
    (list.flatMap c.put).length = (list.map size).sum := by
  rw [List.length_flatMap]
  simp only [h]

lemma optionalAssignment_length (assignment : Option AssignmentSet) :
    ((Codec.optional assignmentSetCodec).put assignment).length = 1 + assignmentBytes assignment := by
  cases assignment with
  | none => rfl
  | some =>
    rw [Codec.length_put_optional_some, assignmentSetCodec_length]
    rfl

lemma optionalFailure_length (failure : Option JobFailureReport) :
    ((Codec.optional jobFailureReportCodec).put failure).length = 1 + failureBytes failure := by
  cases failure with
  | none => rfl
  | some =>
    rw [Codec.length_put_optional_some, jobFailureReportCodec_length]
    rfl

lemma jobEntryCodec_length (entry : JobID × JobRecord) : (jobEntryCodec.put entry).length = jobBytes entry.2 := by
  obtain ⟨key, job⟩ := entry
  have hhist : (provenanceHistoryCodec.put job.invalidationHistory).length =
      2 + (job.invalidationHistory.map provenanceBytes).sum := by
    rw [provenanceHistoryCodec, Codec.length_put_counted]
    simp only [provenanceCodec_length]
  simp only [jobBytes, jobRecordFixedEstimatedBytes, reassignmentMarkerEstimatedBytes,
    sourceEOFEntryEstimatedBytes, checkpointEntryEstimatedBytes, resultManifestEntryEstimatedBytes]
  simp [jobEntryCodec, jobRecordCodec, optionalAssignment_length, optionalFailure_length, hhist,
    markersCodec_length, sourceEOFsCodec, checkpointsCodec, manifestsCodec, jobLifecycleCodec,
    size]
  omega

end

lemma length_appendCanonicalSnapshot (m : Machine) : (appendCanonicalSnapshot m).length = m.bytes := by
  simp only [appendCanonicalSnapshot, List.length_append, putCount, Codec.length_put_u64]
  rw [length_flatMap_put _ _ clientEntryCodec_length, length_flatMap_put _ _ subjectEntryCodec_length,
    length_flatMap_put _ _ workerEntryCodec_length, length_flatMap_put _ _ jobEntryCodec_length,
    length_flatMap_put _ _ workerEventEntryCodec_length]
  simp only [bytes, sum, size]
  simp [snapshotHeaderCodec, ascii]

/-! ## The recomputation -/

omit [Contract] in
/-- A total that fits is computed. -/
lemma addEstimates_of_le {α : Type} {estimate : α → Option Nat} {size : α → Nat} {list : List α}
    (hest : ∀ a, size a ≤ maxSnapshotBytes → estimate a = some (size a)) {base : Nat}
    (h : base + (list.map size).sum ≤ maxSnapshotBytes) :
    addEstimates estimate base list = some (base + (list.map size).sum) := by
  induction list generalizing base with
  | nil => rfl
  | cons a _ ih =>
    rw [List.map_cons, List.sum_cons, ← Nat.add_assoc] at h ⊢
    have hsize : base + size a ≤ maxSnapshotBytes := Nat.le_of_add_right_le h
    have hstep : checkedSnapshotAdd base (size a) = some (base + size a) :=
      checkedSnapshotAdd_eq_some.mpr ⟨rfl, hsize⟩
    rw [← ih h]
    simp only [addEstimates, List.foldlM_cons, hest a (Nat.le_of_add_left_le hsize),
      bind_eq_bind, bind_some, hstep]

omit [Contract] in
lemma estimateCanonicalSnapshotBytes_of_le {m : Machine} (h : m.bytes ≤ maxSnapshotBytes) :
    m.estimateCanonicalSnapshotBytes = some m.bytes := by
  have hlt : ∀ n, n ≤ maxSnapshotBytes → n < 2 ^ 64 := fun n hn => Nat.lt_of_le_of_lt hn (by decide)
  have hcli : ∀ entry : ClientID × ClientHistory, clientBytes entry.2 ≤ maxSnapshotBytes →
      clientHistoryEstimatedBytes entry.2 = some (clientBytes entry.2) :=
    fun entry hle => clientHistoryEstimatedBytes_eq_some.mpr ⟨rfl, hlt _ hle⟩
  have hsubj : ∀ entry : SubjectKey × SubjectHistory, subjectBytes entry.2 ≤ maxSnapshotBytes →
      subjectHistoryEstimatedBytes entry.2 = some (subjectBytes entry.2) :=
    fun entry hle => subjectHistoryEstimatedBytes_eq_some.mpr ⟨rfl, hlt _ hle⟩
  have hjob : ∀ entry : JobID × JobRecord, jobBytes entry.2 ≤ maxSnapshotBytes →
      estimateJobRecordBytes entry.2 = some (jobBytes entry.2) :=
    fun entry hle => estimateJobRecordBytes_of_le hle
  have hwkr : ∀ entry : U16 × WorkerRecord, (fun _ => workerRecordEstimatedBytes) entry ≤ maxSnapshotBytes →
      some workerRecordEstimatedBytes = some ((fun _ => workerRecordEstimatedBytes) entry) :=
    fun _ _ => rfl
  have hbytes : m.bytes = estimatedSnapshotBaseBytes +
      (m.clients.entries.map fun entry => clientBytes entry.2).sum +
      (m.subjects.entries.map fun entry => subjectBytes entry.2).sum +
      (m.workers.entries.map fun _ => workerRecordEstimatedBytes).sum +
      (m.jobs.entries.map fun entry => jobBytes entry.2).sum +
      m.workerEvents.size * workerEventEntryEstimatedBytes := by
    simp [bytes, sum, size]
  rw [hbytes] at h ⊢
  simp only [estimateCanonicalSnapshotBytes, bind_eq_bind]
  rw [addEstimates_of_le hcli (by omega), bind_some, addEstimates_of_le hsubj (by omega), bind_some,
    addEstimates_of_le hwkr (by omega), bind_some,
    addEstimates_of_le hjob (by omega), bind_some]
  exact checkedSnapshotAdd_eq_some.mpr ⟨rfl, h⟩

/-- Snapshot accounting is exact: the running total, the recomputed estimate and the length of the
canonical snapshot are one number, and it fits a snapshot. -/
theorem snapshot_accounting_exact (hm : Reachable m) :
    m.estimateCanonicalSnapshotBytes = some m.estimatedSnapshotBytes ∧
      (appendCanonicalSnapshot m).length = m.estimatedSnapshotBytes ∧
      m.estimatedSnapshotBytes ≤ maxSnapshotBytes := by
  obtain ⟨hexact, hfits⟩ := hm.balanced
  rw [length_appendCanonicalSnapshot, hexact] at *
  exact ⟨estimateCanonicalSnapshotBytes_of_le hfits, rfl, hfits⟩

end Steps

section Sample

attribute [local instance] sampleContract

open Sample in
/-- The totals of a machine with workers that came and went and a canceled job. -/
theorem snapshot_accounting_exact_canceled : ∃ log m job, Run .new log m ∧
      m.jobs.find? jobID = some job ∧ job.lifecycle = .canceled ∧
      m.estimateCanonicalSnapshotBytes = some m.estimatedSnapshotBytes ∧
      (appendCanonicalSnapshot m).length = m.estimatedSnapshotBytes ∧
      m.estimatedSnapshotBytes ≤ maxSnapshotBytes := by
  obtain ⟨log, m, job, hrun, hjob, hcanceled, -⟩ := canceled_run
  exact ⟨log, m, job, hrun, hjob, hcanceled, snapshot_accounting_exact ⟨log, hrun⟩⟩

end Sample

end Crane.State
