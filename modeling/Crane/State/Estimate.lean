import Crane.State.Machine

/-!
# The snapshot estimate

`snapshot_estimate.go`: what a machine will take in a snapshot, recomputed from its records. Every
addition is checked against the limit, so an estimate is absent or within it. The plain sums
(`jobBytes`, `Machine.bytes`) are what the checked ones compute when they do.
-/

namespace Crane.State

open Wire Data Model Option Nat

variable {assignment : Option AssignmentSet}
variable {current newSize target result appliedTarget appliedResult : Nat} {known : Bool}
variable {oldSize : Option Nat} {delta : Int} {m : Machine} {old : SubjectHistory}

def assignmentEncodedBytes (set : AssignmentSet) : Nat :=
  assignmentFixedBytes + set.tasks.length * assignmentTokenEstimatedBytes +
    set.resultReplicas.length * resultReplicaEstimatedBytes

/-- Running totals of the provenance records, each within the snapshot limit. -/
def invalidationProvenanceEstimatedBytes (history : List InvalidationProvenance) : Option Nat :=
  history.foldlM (fun total provenance => do
    let entry ← checkedAddMany [invalidationProvenanceFixedBytes,
      provenance.markers.length * reassignmentMarkerEstimatedBytes]
    checkedSnapshotAdd total entry) 0

def addAssignmentBytes (total : Nat) : Option AssignmentSet → Option Nat
  | none => some total
  | some set => checkedAddMany [total, assignmentEncodedBytes set]

def estimateJobRecordBytes (job : JobRecord) : Option Nat := do
  let total ← checkedAddMany [jobRecordFixedEstimatedBytes, job.topologyBytes.length]
  let total ← addAssignmentBytes total job.assignment
  let provenanceBytes ← invalidationProvenanceEstimatedBytes job.invalidationHistory
  checkedAddMany [total, job.needsReassignment.length * reassignmentMarkerEstimatedBytes,
    provenanceBytes, job.sourceEOFs.size * sourceEOFEntryEstimatedBytes,
    job.checkpoints.size * checkpointEntryEstimatedBytes,
    job.manifests.size * resultManifestEntryEstimatedBytes,
    if job.failure.isSome then jobFailureEstimatedBytes else 0]

/-- The total of one collection added to a running total. -/
def addEstimates {α : Type} (estimate : α → Option Nat) (total : Nat) (list : List α) : Option Nat :=
  list.foldlM (fun total a => do
    let value ← estimate a
    checkedSnapshotAdd total value) total

def Machine.estimateCanonicalSnapshotBytes (m : Machine) : Option Nat := do
  let total ← addEstimates (clientHistoryEstimatedBytes ·.2) estimatedSnapshotBaseBytes m.clients.entries
  let total ← addEstimates (subjectHistoryEstimatedBytes ·.2) total m.subjects.entries
  let total ← addEstimates (fun _ => some workerRecordEstimatedBytes) total m.workers.entries
  let total ← addEstimates (estimateJobRecordBytes ·.2) total m.jobs.entries
  checkedSnapshotAdd total (m.workerEvents.size * workerEventEntryEstimatedBytes)

def signedSizeDelta (next current : Nat) : Int := (next : Int) - current

/-! ## The same sums without the checks -/

def clientBytes (history : ClientHistory) : Nat := clientHistoryFixedBytes + history.result.length

def subjectBytes (history : SubjectHistory) : Nat :=
  subjectHistoryFixedBytes + history.target.length + history.result.length +
    history.appliedTarget.length + history.appliedResult.length

def provenanceBytes (provenance : InvalidationProvenance) : Nat :=
  invalidationProvenanceFixedBytes + provenance.markers.length * reassignmentMarkerEstimatedBytes

def assignmentBytes (assignment : Option AssignmentSet) : Nat := assignment.elim 0 assignmentEncodedBytes

def failureBytes (failure : Option JobFailureReport) : Nat :=
  if failure.isSome then jobFailureEstimatedBytes else 0

def jobBytes (job : JobRecord) : Nat :=
  jobRecordFixedEstimatedBytes + job.topologyBytes.length + assignmentBytes job.assignment +
    job.needsReassignment.length * reassignmentMarkerEstimatedBytes +
    (job.invalidationHistory.map provenanceBytes).sum +
    job.sourceEOFs.size * sourceEOFEntryEstimatedBytes +
    job.checkpoints.size * checkpointEntryEstimatedBytes +
    job.manifests.size * resultManifestEntryEstimatedBytes + failureBytes job.failure

def Machine.bytes (m : Machine) : Nat :=
  estimatedSnapshotBaseBytes + (m.clients.sum fun _ => clientBytes) +
    (m.subjects.sum fun _ => subjectBytes) + m.workers.size * workerRecordEstimatedBytes +
    (m.jobs.sum fun _ => jobBytes) + m.workerEvents.size * workerEventEntryEstimatedBytes

lemma checkedAddMany_eq_some {values : List Nat} {total : Nat} :
    checkedAddMany values = some total ↔ values.sum = total ∧ total < 2 ^ 64 := by
  rw [checkedAddMany, ite_none_right_eq_some, some.injEq]
  constructor
  · rintro ⟨hlt, rfl⟩
    exact ⟨rfl, hlt⟩
  rintro ⟨rfl, hlt⟩
  exact ⟨hlt, rfl⟩

lemma checkedSnapshotAdd_eq_some {left right total : Nat} :
    checkedSnapshotAdd left right = some total ↔ left + right = total ∧ total ≤ maxSnapshotBytes := by
  simp only [checkedSnapshotAdd, bind_eq_some, checkedAddMany_eq_some, exists_guard, some.injEq,
    List.sum_cons, List.sum_nil, add_zero]
  constructor
  · rintro ⟨_, ⟨rfl, -⟩, hle, rfl⟩
    exact ⟨rfl, hle⟩
  rintro ⟨rfl, hle⟩
  exact ⟨_, ⟨rfl, lt_of_le_of_lt hle (by decide)⟩, hle, rfl⟩

lemma clientHistoryEstimatedBytes_eq_some {history : ClientHistory} {n : Nat} :
    clientHistoryEstimatedBytes history = some n ↔ clientBytes history = n ∧ n < 2 ^ 64 := by
  rw [clientHistoryEstimatedBytes, checkedAddMany_eq_some]
  simp [clientBytes]

lemma subjectHistoryEstimatedBytes_eq_some {history : SubjectHistory} {n : Nat} :
    subjectHistoryEstimatedBytes history = some n ↔ subjectBytes history = n ∧ n < 2 ^ 64 := by
  rw [subjectHistoryEstimatedBytes, checkedAddMany_eq_some]
  simp [subjectBytes, add_assoc]

/-- A total of checked additions is the plain total, and there is one exactly when it is within
the limit. -/
lemma addEstimates_eq_some {α : Type} {estimate : α → Option Nat} {size : α → Nat}
    (hest : ∀ a n, estimate a = some n ↔ size a = n ∧ n < 2 ^ 64) {list : List α} {base n : Nat}
    (hbase : base ≤ maxSnapshotBytes) :
    addEstimates estimate base list = some n ↔ base + (list.map size).sum = n ∧ n ≤ maxSnapshotBytes := by
  induction list generalizing base with
  | nil =>
    simp only [addEstimates, List.foldlM_nil, pure_def, some.injEq, List.map_nil, List.sum_nil, add_zero]
    constructor
    · rintro rfl
      exact ⟨rfl, hbase⟩
    · exact fun h => h.1
  | cons a rest ih =>
    have hstep : addEstimates estimate base (a :: rest) = some n ↔
        ∃ base', (size a < 2 ^ 64 ∧ base + size a = base' ∧ base' ≤ maxSnapshotBytes) ∧
          addEstimates estimate base' rest = some n := by
      simp only [addEstimates, List.foldlM_cons, bind_eq_some, hest, checkedSnapshotAdd_eq_some]
      constructor
      · rintro ⟨base', ⟨value, ⟨rfl, hlt⟩, hadd⟩, hrest⟩
        exact ⟨base', ⟨hlt, hadd⟩, hrest⟩
      rintro ⟨base', ⟨hlt, hadd⟩, hrest⟩
      exact ⟨base', ⟨_, ⟨rfl, hlt⟩, hadd⟩, hrest⟩
    rw [hstep, List.map_cons, List.sum_cons]
    constructor
    · rintro ⟨base', ⟨-, rfl, hle⟩, hrest⟩
      obtain ⟨rfl, hn⟩ := (ih hle).mp hrest
      exact ⟨by omega, hn⟩
    rintro ⟨rfl, hn⟩
    have hle : base + size a ≤ maxSnapshotBytes := by omega
    refine ⟨base + size a, ⟨?_, rfl, hle⟩, (ih hle).mpr ⟨by omega, hn⟩⟩
    exact lt_of_le_of_lt (le_of_add_left_le hle) (by decide)

lemma invalidationProvenanceEstimatedBytes_eq_some {history : List InvalidationProvenance} {n : Nat} :
    invalidationProvenanceEstimatedBytes history = some n ↔
      (history.map provenanceBytes).sum = n ∧ n ≤ maxSnapshotBytes := by
  have hest : ∀ (p : InvalidationProvenance) n, checkedAddMany [invalidationProvenanceFixedBytes,
        p.markers.length * reassignmentMarkerEstimatedBytes] = some n ↔
      provenanceBytes p = n ∧ n < 2 ^ 64 := by
    intro p n
    rw [checkedAddMany_eq_some]
    simp [provenanceBytes]
  have := @addEstimates_eq_some _ _ _ hest history 0 n (zero_le maxSnapshotBytes)
  rwa [zero_add] at this

lemma addAssignmentBytes_eq {total n : Nat} (h : addAssignmentBytes total assignment = some n) :
    n = total + assignmentBytes assignment := by
  cases assignment with
  | none => exact (some.inj h).symm
  | some =>
    obtain ⟨rfl, -⟩ := checkedAddMany_eq_some.mp h
    simp [assignmentBytes]

lemma addAssignmentBytes_of_lt {total : Nat} (h : total + assignmentBytes assignment < 2 ^ 64) :
    addAssignmentBytes total assignment = some (total + assignmentBytes assignment) := by
  cases assignment with
  | none => rfl
  | some => exact checkedAddMany_eq_some.mpr ⟨by simp [assignmentBytes], h⟩

lemma estimateJobRecordBytes_eq_some {job : JobRecord} {n : Nat} : estimateJobRecordBytes job = some n ↔
      jobBytes job = n ∧ n < 2 ^ 64 ∧ (job.invalidationHistory.map provenanceBytes).sum ≤ maxSnapshotBytes := by
  simp only [estimateJobRecordBytes, bind_eq_some, checkedAddMany_eq_some,
    invalidationProvenanceEstimatedBytes_eq_some, List.sum_cons, List.sum_nil, add_zero]
  constructor
  · rintro ⟨_, ⟨rfl, -⟩, _, hassign, _, ⟨rfl, hprov⟩, htotal, hlt⟩
    refine ⟨?_, hlt, hprov⟩
    rw [jobBytes, failureBytes]
    have := addAssignmentBytes_eq hassign
    omega
  rintro ⟨rfl, hlt, hprov⟩
  have htotal : jobRecordFixedEstimatedBytes + job.topologyBytes.length +
      assignmentBytes job.assignment ≤ jobBytes job := by
    rw [jobBytes]
    omega
  refine ⟨_, ⟨rfl, by omega⟩, _, addAssignmentBytes_of_lt (by omega), _, ⟨rfl, hprov⟩, ?_, hlt⟩
  rw [jobBytes, failureBytes]
  omega

/-- Of a record that fits a snapshot there is an estimate. -/
lemma estimateJobRecordBytes_of_le {job : JobRecord} (h : jobBytes job ≤ maxSnapshotBytes) :
    estimateJobRecordBytes job = some (jobBytes job) := by
  refine estimateJobRecordBytes_eq_some.mpr ⟨rfl, lt_of_le_of_lt h (by decide), ?_⟩
  refine le_trans ?_ h
  rw [jobBytes]
  omega

/-! ## What a preflight computes -/

/-- A total after one entry was exchanged and the state changed by `delta`. -/
structure Accounted (before removed added : Nat) (delta : Int) (after : Nat) : Prop where
  balance : (after : Int) + removed = before + added + delta
  fits : after ≤ maxSnapshotBytes

lemma withoutEntry_eq_some {n : Nat} (h : withoutEntry current known oldSize = some n) :
    n + (if known then oldSize.getD 0 else 0) = current := by
  unfold withoutEntry at h
  split at h
  · rename_i hknw
    simp only [bind_eq_some, exists_guard, some.injEq] at h
    obtain ⟨size, rfl, hle, rfl⟩ := h
    rw [if_pos hknw, getD_some]
    omega
  rename_i hknw
  rw [if_neg hknw, some.inj h, add_zero]

lemma preflightMutationDelta_eq_some {n : Nat} (h : preflightMutationDelta current delta = some n)
    (hcur : current ≤ maxSnapshotBytes) : (n : Int) = current + delta ∧ n ≤ maxSnapshotBytes := by
  unfold preflightMutationDelta at h
  split at h
  · split at h
    · cases h
    obtain rfl := some.inj h
    omega
  obtain ⟨rfl, hfits⟩ := checkedSnapshotAdd_eq_some.mp h
  exact ⟨by omega, hfits⟩

/-- The old entry's size is known if it was subtracted. -/
lemma getD_estimate {size n : Nat} (hsize : ∀ k, oldSize = some k → size = k)
    (h : withoutEntry current known oldSize = some n) : n + (if known then size else 0) = current := by
  have hexact := withoutEntry_eq_some h
  cases known with
  | false => exact hexact
  | true =>
    cases oldSize with
    | none => cases h
    | some k =>
      rw [hsize k rfl]
      exact hexact

lemma preflightClientHistoryLength_accounted {old : ClientHistory} {resultLength : Nat}
    (h : (m.preflightClientHistoryLength old known resultLength).bind
      (preflightMutationDelta · delta) = some newSize) :
    Accounted m.estimatedSnapshotBytes (if known then clientBytes old else 0)
      (clientHistoryFixedBytes + resultLength) delta newSize := by
  simp only [Machine.preflightClientHistoryLength, bind_eq_bind, bind_eq_some_iff, checkedAddMany_eq_some,
    checkedSnapshotAdd_eq_some, List.sum_cons, List.sum_nil] at h
  obtain ⟨_, ⟨rest, hrest, _, ⟨rfl, -⟩, rfl, hfits⟩, hdelta⟩ := h
  have hold := getD_estimate
    (fun k hk => (clientHistoryEstimatedBytes_eq_some.mp hk).1) hrest
  obtain ⟨hexact, hle⟩ := preflightMutationDelta_eq_some hdelta hfits
  exact ⟨by omega, hle⟩

lemma preflightSubjectHistoryLengths_accounted
    (h : (m.preflightSubjectHistoryLengths old known target result appliedTarget appliedResult).bind
      (preflightMutationDelta · delta) = some newSize) :
    Accounted m.estimatedSnapshotBytes (if known then subjectBytes old else 0)
      (subjectHistoryFixedBytes + target + result + appliedTarget + appliedResult) delta newSize := by
  simp only [Machine.preflightSubjectHistoryLengths, bind_eq_bind, bind_eq_some_iff, checkedAddMany_eq_some,
    checkedSnapshotAdd_eq_some, List.sum_cons, List.sum_nil] at h
  obtain ⟨_, ⟨rest, hrest, _, ⟨rfl, -⟩, rfl, hfits⟩, hdelta⟩ := h
  have hold := getD_estimate
    (fun k hk => (subjectHistoryEstimatedBytes_eq_some.mp hk).1) hrest
  obtain ⟨hexact, hle⟩ := preflightMutationDelta_eq_some hdelta hfits
  exact ⟨by omega, hle⟩

lemma preflightSubjectHistoryLengths_le
    (h : m.preflightSubjectHistoryLengths old known target result appliedTarget appliedResult =
      some newSize) : newSize ≤ maxSnapshotBytes := by
  simp only [Machine.preflightSubjectHistoryLengths, bind_eq_bind, bind_eq_some_iff, checkedSnapshotAdd_eq_some] at h
  obtain ⟨_, -, _, -, -, hle⟩ := h
  exact hle

end Crane.State
