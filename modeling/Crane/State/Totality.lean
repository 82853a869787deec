import Crane.State.Accounting

/-!
# Applying never fails

No command that can be decoded makes a reachable machine fail: every answer it may give fits the
result matrix, the sizes it recomputes are within their limits, no revision overflows, and what a
job retains of its topology can be read back. One case is left out, which only the hash excludes:
a submission whose job identifier comes out as zero.
-/

namespace Crane.State

open Wire Data Model Option Nat Target SubjectKey Machine

variable {α β : Type} {f : α → Except ApplyError β} {epoch : CoordinatorEpoch} {code : ResultCode}
variable {assignment : AssignmentSet} {target : Bytes} {markers digest : Array32} {candidate : JobRecord}
variable {worker : WorkerRecord} {workerID : U16} {affected : List AffectedAssignment} {expected : U64}
variable {internal : InternalEnvelope} {old : SubjectHistory} {known : Bool} {plan : MutationPlan}
variable {subject : SubjectKey} {revision : U64}

/-- A computation that does not fail. -/
def Succeeds {α : Type} (x : Except ApplyError α) : Prop := ∃ a, x = .ok a

lemma Succeeds.ok (a : α) : Succeeds (.ok a : Except ApplyError α) := ⟨a, rfl⟩

lemma Succeeds.bind {x : Except ApplyError α} (hx : Succeeds x)
    (hf : ∀ a, x = .ok a → Succeeds (f a)) : Succeeds (x >>= f) := by
  obtain ⟨a, rfl⟩ := hx
  exact hf a rfl

lemma Succeeds.orImpossible_bind {o : Option α} (ho : o.isSome)
    (hf : ∀ a, o = some a → Succeeds (f a)) : Succeeds (orImpossible o >>= f) := by
  obtain ⟨a, rfl⟩ := isSome_iff_exists.mp ho
  exact hf a rfl

/-! ## Answers fit the matrix -/

/-- The epoch an answer about a subject carries. -/
def EpochFits (subject : SubjectKey) (revision : U64) (epoch : CoordinatorEpoch) : Prop :=
  if subject.kind = .coordinator then
    if revision = 0 then epoch = .zero else epoch.validate = true
  else epoch = .zero

lemma EpochFits.zero (h : subject.kind ≠ .coordinator) (revision : U64) : EpochFits subject revision .zero := by
  rw [EpochFits, if_neg h]

/-- The codes an answer about a subject may have at any revision. -/
inductive Plain : ResultCode → Prop where
  | reuse : Plain .identityReuse
  | full : Plain .capacityExhausted
  | mismatch : Plain .revisionMismatch

lemma businessResult_identity (hsubj : subject.validate = true) (code : ResultCode) (revision : U64)
    (epoch : CoordinatorEpoch) :
    subject.kind.identityPolicy.accepts (businessResult code subject revision epoch).jobID
      (businessResult code subject revision epoch).workerID = true := by
  obtain rfl | ⟨workerID, hwkr, rfl⟩ | ⟨job, hjob, rfl⟩ | ⟨task, htask, rfl | rfl | rfl⟩ := validate_cases hsubj
  · rfl
  · exact Bool.and_eq_true_iff.mpr ⟨decide_eq_true hwkr, rfl⟩
  · exact Bool.and_eq_true_iff.mpr ⟨JobID.validate_iff.mpr hjob, rfl⟩
  all_goals exact Bool.and_eq_true_iff.mpr ⟨JobID.validate_iff.mpr htask, rfl⟩

lemma epochPolicy_accepts (h : EpochFits subject revision epoch) :
    subject.kind.epochPolicy.accepts revision epoch = true := by
  unfold EpochFits at h
  split at h
  · rename_i hkind
    rw [hkind]
    simp only [SubjectKind.epochPolicy, EpochPolicy.accepts]
    split at h
    · rename_i hzero
      rw [if_pos hzero, h]
      rfl
    rename_i hnz
    rw [if_neg hnz]
    exact h
  rename_i hkind
  subst h
  cases hsubj : subject.kind <;> first
    | exact absurd hsubj hkind
    | rfl

lemma resultRule_plain {kind : SubjectKind} (h : Plain code) (hkind : kind ≠ .none) :
    resultRule code kind = some ⟨.any, kind.identityPolicy, kind.epochPolicy⟩ := by
  cases h <;> cases kind <;> first
    | exact absurd rfl hkind
    | rfl

lemma kind_ne_none (h : subject.validate = true) : subject.kind ≠ .none := by
  intro hkind
  rw [validate, hkind] at h
  cases h

lemma marshalBusinessResult_of_rule {rule : ResultRule}
    (hrule : resultRule code subject.kind = some rule) (hsubj : subject.validate = true)
    (hident : rule.identity = subject.kind.identityPolicy) (hrev : rule.revision.accepts revision = true)
    (hep : rule.epoch.accepts revision epoch = true) :
    (marshalBusinessResult code subject revision epoch).isSome = true := by
  have hval : (businessResult code subject revision epoch).validate = true := by
    have hbd := businessResult_identity hsubj code revision epoch
    rw [← hident] at hbd
    unfold CommandResult.validate
    rw [show (businessResult code subject revision epoch).code = code from rfl,
      show (businessResult code subject revision epoch).subject = subject.kind from rfl, hrule]
    exact Bool.and_eq_true_iff.mpr ⟨Bool.and_eq_true_iff.mpr ⟨hrev, hbd⟩, hep⟩
  rw [marshalBusinessResult, marshalCommandResult, if_pos hval]
  rfl

lemma marshal_plain (hcode : Plain code) (hsubj : subject.validate = true)
    (hep : EpochFits subject revision epoch) :
    (marshalBusinessResult code subject revision epoch).isSome = true :=
  marshalBusinessResult_of_rule (resultRule_plain hcode (kind_ne_none hsubj)) hsubj rfl rfl
    (epochPolicy_accepts hep)

lemma marshal_success (hsubj : subject.validate = true) (hrev : revision ≠ 0)
    (hep : EpochFits subject revision epoch) :
    (marshalBusinessResult .success subject revision epoch).isSome = true := by
  have hrule : resultRule .success subject.kind =
      some ⟨.nonZero, subject.kind.identityPolicy, subject.kind.epochPolicy⟩ := by
    cases hkind : subject.kind <;> first
      | exact absurd hkind (kind_ne_none hsubj)
      | rfl
  exact marshalBusinessResult_of_rule hrule hsubj rfl (decide_eq_true hrev)
    (epochPolicy_accepts hep)

/-- The answer to a stale command names the fence in force, if there is one. -/
lemma marshal_staleEpoch (hsubj : subject.validate = true) (hkind : subject.kind ≠ .coordinator)
    (hep : epoch = .zero ∨ epoch.validate = true) :
    (marshalBusinessResult .staleEpoch subject revision epoch).isSome = true := by
  have hrule : resultRule .staleEpoch subject.kind = some ⟨.any, subject.kind.identityPolicy, .currentFence⟩ := by
    cases hcase : subject.kind <;> first
      | exact absurd hcase (kind_ne_none hsubj)
      | exact absurd hcase hkind
      | rfl
  refine marshalBusinessResult_of_rule hrule hsubj rfl rfl ?_
  rw [EpochPolicy.accepts, Bool.or_eq_true, decide_eq_true_eq]
  exact hep

lemma marshal_unbound (h : Unresolved code) : (marshalBusinessResult code .unbound 0 .zero).isSome = true := by
  cases h <;> decide

/-! ## Sizes stay within their limits -/

lemma sum_filter_map_le {α : Type} (f : α → α) (p : α → Bool) (size : α → Nat)
    (hsize : ∀ a, size (f a) = size a) (list : List α) :
    (((list.map f).filter p).map size).sum ≤ (list.map size).sum := by
  induction list with
  | nil => simp
  | cons _ _ ih =>
    rw [List.map_cons, List.filter_cons]
    split
    · simp only [List.map_cons, List.sum_cons, hsize]
      exact Nat.add_le_add_left ih _
    · exact le_trans ih (by simp)

lemma overwritten_bytes (workerID : U16) (provenance : InvalidationProvenance) :
    provenanceBytes (provenance.overwritten workerID) = provenanceBytes provenance := by
  unfold InvalidationProvenance.overwritten
  split <;> rfl

lemma forget_bytes (provenance : InvalidationProvenance) :
    provenanceBytes provenance.forget = provenanceBytes provenance := by
  unfold InvalidationProvenance.forget
  split <;> rfl

lemma prunedJob_bytes (m : Machine) (workerID : U16) (key : JobID) (job : JobRecord) :
    jobBytes (m.prunedJob workerID key job) ≤ jobBytes job := by
  have hhist := sum_filter_map_le (InvalidationProvenance.overwritten · workerID)
    (m.keepsProvenance key) provenanceBytes (overwritten_bytes workerID) job.invalidationHistory
  simp only [jobBytes, prunedJob, pruneConsumedInvalidationHistory]
  omega

lemma forgotten_bytes (m : Machine) (key : JobID) (history : List InvalidationProvenance) :
    ((m.forgetJobControlInvalidationHistory key history).map provenanceBytes).sum ≤
      (history.map provenanceBytes).sum :=
  sum_filter_map_le _ _ _ forget_bytes history

lemma controlledJob_bytes_le (m : Machine) (job : JobRecord) (lifecycle : JobLifecycle)
    (failure : Option JobFailureReport) (next : U64) :
    jobBytes (m.controlledJob job lifecycle failure next) ≤ jobBytes job + jobFailureEstimatedBytes := by
  have hhist := forgotten_bytes m job.jobID job.invalidationHistory
  have hfailure : failureBytes failure ≤ jobFailureEstimatedBytes := by
    unfold failureBytes
    split
    · exact le_refl _
    · exact zero_le _
  simp only [jobBytes, controlledJob]
  omega

lemma replacedJob_history_le (m : Machine) (job : JobRecord) (target : AssignmentSet)
    (markers : Array32) (next : U64) :
    ((m.replacedJob job target markers next).invalidationHistory.map provenanceBytes).sum ≤
      (job.invalidationHistory.map provenanceBytes).sum := by
  have hanchor : ∀ provenance, provenanceBytes
      (anchorProvenance next target markers provenance) = provenanceBytes provenance := by
    intro provenance
    unfold anchorProvenance
    split <;> rfl
  simp only [replacedJob, List.map_map]
  rw [show provenanceBytes ∘ anchorProvenance next target markers = provenanceBytes from
    funext hanchor]
  exact forgotten_bytes m job.jobID job.invalidationHistory

/-- A replacement has as many tokens and copies as what it replaces, and no markers. -/
lemma replacedJob_bytes_le {m : Machine} {job : JobRecord} {target : AssignmentSet} {next : U64}
    (hassign : job.assignment = some assignment)
    (hval : validateReplacement assignment target job.needsReassignment = true) :
    jobBytes (m.replacedJob job target markers next) ≤ jobBytes job := by
  have hhist := replacedJob_history_le m job target markers next
  simp only [validateReplacement, Bool.and_eq_true, decide_eq_true_eq] at hval
  obtain ⟨⟨⟨⟨-, htasks⟩, hrepls⟩, -⟩, -⟩ := hval
  have henc : assignmentEncodedBytes target = assignmentEncodedBytes assignment := by
    rw [assignmentEncodedBytes, assignmentEncodedBytes, htasks, hrepls]
  simp only [jobBytes, hassign, assignmentBytes, elim_some] at hhist ⊢
  simp only [replacedJob, elim_some, List.length_nil, henc] at hhist ⊢
  omega

lemma resizeJob_isSome {record : JobRecord} (hrec : jobBytes record ≤ maxSnapshotBytes)
    (hcand : jobBytes candidate ≤ maxSnapshotBytes) : (resizeJob record candidate).isSome = true := by
  unfold resizeJob
  split
  · rfl
  rw [estimateJobRecordBytes_of_le hrec, estimateJobRecordBytes_of_le hcand]
  rfl

section Reachable

variable [Contract]
variable {m m' : Machine} {entry : LogEntry} {result : Bytes} {index term next : U64}
variable {command : Command} {key : JobID} {job : JobRecord}

section

variable (hm : Reachable m)

include hm

lemma Reachable.jobBytes_le (hjob : m.jobs.find? key = some job) : jobBytes job ≤ maxSnapshotBytes := by
  have hsum := Table.le_sum_of_find? (fun _ => jobBytes) hjob
  have hfits := hm.balanced.fits
  rw [hm.balanced.exact, Machine.bytes] at hfits
  omega

/-- Pruning never fails. -/
lemma Reachable.prune_isSome (workerID : U16) : (m.prepareConsumedInvalidationPrune workerID).isSome = true := by
  unfold prepareConsumedInvalidationPrune
  have htrav := Table.traverse_isSome (t := m.jobs) (f := fun jobID record => do
    let candidate := m.prunedJob workerID jobID record
    let delta ← resizeJob record candidate
    some (candidate, delta)) (by
      intro key job hjob
      have hfits := hm.jobBytes_le hjob
      have hsize := resizeJob_isSome hfits
        (le_trans (prunedJob_bytes m workerID key job) hfits)
      obtain ⟨delta, hdelta⟩ := isSome_iff_exists.mp hsize
      simp [hdelta])
  obtain ⟨outcomes, houtc⟩ := isSome_iff_exists.mp htrav
  rw [houtc]
  rfl

lemma Reachable.topology_isSome (hjob : m.jobs.find? key = some job) :
    (decodeTopology job.topologyBytes).isSome = true := by
  obtain ⟨topology, htopo, -⟩ := (hm.jobDefined hjob).topology
  rw [htopo]
  rfl

/-- A record that is no larger but for a failure report is estimated. -/
lemma Reachable.estimate_isSome (hrec : m.jobs.find? key = some job)
    (hbytes : jobBytes candidate ≤ jobBytes job + jobFailureEstimatedBytes)
    (hhist : (candidate.invalidationHistory.map provenanceBytes).sum ≤
      (job.invalidationHistory.map provenanceBytes).sum) :
    (estimateJobRecordBytes candidate).isSome = true := by
  have hfits := hm.jobBytes_le hrec
  have hpart : (job.invalidationHistory.map provenanceBytes).sum ≤ jobBytes job := by
    rw [jobBytes]
    omega
  have hlim : maxSnapshotBytes + jobFailureEstimatedBytes < 2 ^ 64 := by decide
  have hsome : estimateJobRecordBytes candidate = some (jobBytes candidate) :=
    estimateJobRecordBytes_eq_some.mpr
      ⟨rfl, by omega, le_trans hhist (le_trans hpart hfits)⟩
  rw [hsome]
  rfl

lemma Reachable.epoch_fits (hrev : subject.kind = .coordinator → revision = m.coordinatorRevision) :
    EpochFits subject revision (m.epochForSubject subject revision) := by
  unfold EpochFits epochForSubject
  split
  · rename_i hkind
    split
    · rename_i hzero
      rw [if_neg (fun h => h.2 hzero)]
    rename_i hnz
    rw [if_pos ⟨hkind, hnz⟩]
    rw [hrev hkind] at hnz
    exact (hm.fenced.resolve_left fun h => hnz h.1).2.1
  rename_i hkind
  rw [if_neg (fun h => hkind h.1)]

lemma Reachable.fence_fits : m.coordinatorEpoch = .zero ∨ m.coordinatorEpoch.validate = true :=
  hm.fenced.imp (·.2) (·.2.1)

end

/-! ## Plans -/

omit [Contract] in
lemma rejectWith_succeeds (hcode : Plain code) (hsubj : subject.validate = true)
    (hkind : subject.kind ≠ .coordinator) : Succeeds (rejectWith code subject revision) :=
  .orImpossible_bind (marshal_plain hcode hsubj (.zero hkind revision)) fun _ _ => .ok _

section

variable (hsubj : subject.validate = true)

include hsubj

section

variable (hkind : subject.kind ≠ .coordinator)

include hkind

section

omit [Contract]

lemma mismatch_succeeds : Succeeds (rejectWith .revisionMismatch subject revision) :=
  rejectWith_succeeds .mismatch hsubj hkind

lemma refuseForCapacity_succeeds : Succeeds (refuseForCapacity subject) :=
  .orImpossible_bind (marshal_plain .full hsubj (.zero hkind 0)) fun _ _ => .ok _

lemma succeedWith_succeeds {delta : Int} {commit : Machine → Machine} (hrev : revision ≠ 0) :
    Succeeds (succeedWith subject revision delta commit) :=
  .orImpossible_bind (marshal_success hsubj hrev (.zero hkind revision)) fun _ _ => .ok _

end

end

end

lemma prepareBeginCoordinator_succeeds (hm : Reachable m) {coordinator : U16} {nonce : Array16}
    (hmax : m.coordinatorRevision ≠ BitVec.allOnes 64) (hidx : index ≠ 0) (hterm : term ≠ 0)
    (hcoord : coordinator ≠ 0) (hnonce : nonce ≠ 0) :
    Succeeds (m.prepareBeginCoordinator index term coordinator nonce (m.coordinatorRevision + 1)) := by
  have hcur : m.coordinatorEpoch ≠ .zero → m.coordinatorRevision ≠ 0 ∧ m.coordinatorEpoch.validate = true := by
    intro hfen
    obtain ⟨hrev, hval, -⟩ := hm.fenced.resolve_left fun h => hfen h.2
    exact ⟨hrev, hval⟩
  have hfits : ∀ revision : U64, revision ≠ 0 → ∀ epoch : CoordinatorEpoch, epoch.validate = true →
      EpochFits .coordinator revision epoch := by
    intro revision hrev epoch hval
    rw [EpochFits, if_pos (show SubjectKey.coordinator.kind = .coordinator from rfl), if_neg hrev]
    exact hval
  simp only [prepareBeginCoordinator]
  rw [if_neg (by rw [not_not]; exact (BitVec.add_sub_cancel _ _).symm)]
  split
  · rename_i hsame
    obtain ⟨hrev, hval⟩ := hcur hsame.1
    exact .orImpossible_bind (marshal_success rfl hrev (hfits _ hrev _ hval))
      fun _ _ => .ok _
  split
  · rename_i hstale
    obtain ⟨hrev, hval⟩ := hcur hstale.1
    refine .orImpossible_bind ?_ fun _ _ => .ok _
    have hrule : resultRule .staleEpoch .coordinator =
        some ⟨.nonZero, .coordinator, .coordinatorRevision⟩ := rfl
    exact marshalBusinessResult_of_rule hrule rfl rfl (decide_eq_true hrev)
      (epochPolicy_accepts (hfits _ hrev _ hval))
  have hval : CoordinatorEpoch.validate ⟨term, index, coordinator, nonce⟩ = true :=
    CoordinatorEpoch.validate_iff.mpr ⟨⟨⟨hterm, hidx⟩, hcoord⟩, hnonce⟩
  rw [if_neg (by simp [hval])]
  have hrev := succ_ne_zero hmax
  exact .orImpossible_bind (marshal_success rfl hrev (hfits _ hrev _ hval))
    fun _ _ => .ok _

section Commands

variable (hm : Reachable m) (hnext : next ≠ 0)
include hm hnext

section

variable (hsubj : (SubjectKey.worker worker.nodeID).validate = true)

include hsubj

lemma planRegistration_succeeds {added : Int} (hrev : worker.revision = next) :
    Succeeds (m.planRegistration worker next added) := by
  unfold planRegistration
  rw [if_neg (not_not.mpr hrev)]
  exact .orImpossible_bind (hm.prune_isSome worker.nodeID) fun _ _ => succeedWith_succeeds hsubj nofun hnext

lemma prepareRegisterWorker_succeeds (hrev : worker.revision = next) :
    Succeeds (m.prepareRegisterWorker worker next) := by
  unfold prepareRegisterWorker
  split
  · split
    · exact refuseForCapacity_succeeds hsubj nofun
    · exact planRegistration_succeeds hm hnext hsubj hrev
  split
  · exact planRegistration_succeeds hm hnext hsubj hrev
  · exact mismatch_succeeds hsubj nofun

end

section

variable (hsubj : (SubjectKey.worker workerID).validate = true)

include hsubj

lemma prepareDrainWorker_succeeds {epoch : WorkerEpoch} :
    Succeeds (m.prepareDrainWorker workerID epoch next) := by
  unfold prepareDrainWorker
  split
  · exact mismatch_succeeds hsubj nofun
  split
  · exact mismatch_succeeds hsubj nofun
  · exact .orImpossible_bind (hm.prune_isSome workerID) fun _ _ => succeedWith_succeeds hsubj nofun hnext

omit hm [Contract] in
lemma prepareDeactivateWorker_succeeds {epoch : WorkerEpoch} :
    Succeeds (m.prepareDeactivateWorker workerID epoch affected next) := by
  unfold prepareDeactivateWorker
  split
  · exact mismatch_succeeds hsubj nofun
  split
  · exact mismatch_succeeds hsubj nofun
  split
  · exact mismatch_succeeds hsubj nofun
  · exact succeedWith_succeeds hsubj nofun hnext

omit hm [Contract] in
lemma prepareReplaceWorkerEpoch_succeeds {oldEpoch : WorkerEpoch} {target : WorkerRecord} :
    Succeeds (m.prepareReplaceWorkerEpoch workerID oldEpoch target affected next) := by
  unfold prepareReplaceWorkerEpoch
  split
  · exact mismatch_succeeds hsubj nofun
  split
  · exact mismatch_succeeds hsubj nofun
  split
  · exact mismatch_succeeds hsubj nofun
  · exact succeedWith_succeeds hsubj nofun hnext

end

lemma prepareRecordSourceEOF_succeeds {source : TaskID} {eof : U64}
    (hsubj : (SubjectKey.sourceEOF source).validate = true) :
    Succeeds (m.prepareRecordSourceEOF source eof revision next) := by
  unfold prepareRecordSourceEOF
  split
  · exact mismatch_succeeds hsubj nofun
  rename_i record hrec
  split
  · exact mismatch_succeeds hsubj nofun
  refine .orImpossible_bind (hm.topology_isSome hrec) ?_
  intro topology _
  split
  · exact mismatch_succeeds hsubj nofun
  · exact succeedWith_succeeds hsubj nofun hnext

lemma prepareInstallAssignments_succeeds (hsubj : (jobControl assignment.jobID).validate = true) :
    Succeeds (m.prepareInstallAssignments assignment revision next) := by
  unfold prepareInstallAssignments
  split
  · exact mismatch_succeeds hsubj nofun
  rename_i record hrec
  split
  · exact mismatch_succeeds hsubj nofun
  refine .orImpossible_bind (hm.topology_isSome hrec) ?_
  intro topology _
  split
  · exact mismatch_succeeds hsubj nofun
  · exact succeedWith_succeeds hsubj nofun hnext

lemma prepareReplaceAssignments_succeeds {jobID : JobID} {target : AssignmentSet}
    (hsubj : (jobControl jobID).validate = true) :
    Succeeds (m.prepareReplaceAssignments jobID expected digest markers target revision next) := by
  unfold prepareReplaceAssignments
  split
  · exact mismatch_succeeds hsubj nofun
  rename_i record assignment hfnd
  simp only [bind_eq_some_iff, map_eq_some_iff, Prod.mk.injEq] at hfnd
  obtain ⟨_, hrec, _, hassign, rfl, rfl⟩ := hfnd
  split
  · exact mismatch_succeeds hsubj nofun
  refine .orImpossible_bind (hm.topology_isSome hrec) ?_
  intro topology _
  split
  · exact mismatch_succeeds hsubj nofun
  rename_i hval
  simp only [not_or, Bool.not_eq_false] at hval
  refine .orImpossible_bind (hm.estimate_isSome hrec (le_add_right _ _) (le_refl _)) ?_
  intro before _
  refine .orImpossible_bind (hm.estimate_isSome hrec ?_ (replacedJob_history_le ..)) ?_
  · exact le_trans (replacedJob_bytes_le hassign hval.2.1) (le_add_right _ _)
  intro after _
  exact succeedWith_succeeds hsubj nofun hnext

omit hm [Contract] in
lemma prepareAdvanceCheckpoint_succeeds {report : CompletionReport}
    (hsubj : (SubjectKey.sourceCheckpoint report.jobID report.source).validate = true) :
    Succeeds (m.prepareAdvanceCheckpoint report revision next) := by
  unfold prepareAdvanceCheckpoint
  simp only
  split
  · exact mismatch_succeeds hsubj nofun
  split
  · exact mismatch_succeeds hsubj nofun
  split
  · exact mismatch_succeeds hsubj nofun
  · exact succeedWith_succeeds hsubj nofun hnext

omit hm [Contract] in
lemma prepareSealManifest_succeeds {manifest : ResultManifest}
    (hsubj : (SubjectKey.resultManifest manifest.jobID manifest.sinkTask).validate = true) :
    Succeeds (m.prepareSealManifest manifest revision next) := by
  unfold prepareSealManifest
  simp only
  split
  · exact mismatch_succeeds hsubj nofun
  split
  · exact mismatch_succeeds hsubj nofun
  · exact succeedWith_succeeds hsubj nofun hnext

lemma prepareTransitionJob_succeeds {jobID : JobID} {origin target : JobLifecycle}
    (hsubj : (jobControl jobID).validate = true) :
    Succeeds (m.prepareTransitionJob jobID origin target revision next) := by
  unfold prepareTransitionJob
  simp only
  split
  · exact mismatch_succeeds hsubj nofun
  rename_i record hrec
  split
  · exact mismatch_succeeds hsubj nofun
  refine .orImpossible_bind (hm.estimate_isSome hrec (le_add_right _ _) (le_refl _)) ?_
  intro before _
  refine .orImpossible_bind (hm.estimate_isSome hrec (controlledJob_bytes_le ..)
    (forgotten_bytes ..)) ?_
  intro after _
  exact succeedWith_succeeds hsubj nofun hnext

lemma prepareFailJob_succeeds {report : JobFailureReport}
    (hsubj : (jobControl report.jobID).validate = true) :
    Succeeds (m.prepareFailJob report revision next) := by
  unfold prepareFailJob
  simp only
  split
  · exact mismatch_succeeds hsubj nofun
  rename_i record hrec
  split
  · exact mismatch_succeeds hsubj nofun
  split
  · exact mismatch_succeeds hsubj nofun
  refine .orImpossible_bind (hm.estimate_isSome hrec (le_add_right _ _) (le_refl _)) ?_
  intro before _
  refine .orImpossible_bind (hm.estimate_isSome hrec (controlledJob_bytes_le ..)
    (forgotten_bytes ..)) ?_
  intro after _
  exact succeedWith_succeeds hsubj nofun hnext

end Commands

/-- No internal command fails to make a plan. -/
lemma Target.prepare_succeeds (hm : Reachable m) (hisd : Issued m command next)
    (hsubj : command.target.subject.validate = true) (hidx : index ≠ 0) (hterm : term ≠ 0) :
    Succeeds (command.target.prepare m index term next) := by
  have hbd : command.target.subject ≠ .unbound := by
    intro hunbound
    rw [hunbound] at hsubj
    cases hsubj
  obtain ⟨hmax, hstep, hflds⟩ := hisd hbd
  have hnext : next ≠ 0 := hisd.succ_ne_zero hbd
  obtain ⟨envelope, target⟩ := command
  cases target with
  | beginCoordinatorEpoch =>
    simp only [fieldsValid, Bool.and_eq_true, decide_eq_true_eq] at hflds
    subst hstep
    exact prepareBeginCoordinator_succeeds hm hmax hidx hterm hflds.1 hflds.2
  | registerWorker =>
    simp only [fieldsValid, Bool.and_eq_true, decide_eq_true_eq] at hflds
    exact prepareRegisterWorker_succeeds hm hnext hsubj (hflds.1.2.1.trans hstep.symm)
  | drainWorker => exact prepareDrainWorker_succeeds hm hnext hsubj
  | deactivateWorker => exact prepareDeactivateWorker_succeeds hnext hsubj
  | replaceWorkerEpoch => exact prepareReplaceWorkerEpoch_succeeds hnext hsubj
  | recordSourceEOF => exact prepareRecordSourceEOF_succeeds hm hnext hsubj
  | installAssignments => exact prepareInstallAssignments_succeeds hm hnext hsubj
  | replaceAssignments => exact prepareReplaceAssignments_succeeds hm hnext hsubj
  | advanceCheckpoint => exact prepareAdvanceCheckpoint_succeeds hnext hsubj
  | sealManifest => exact prepareSealManifest_succeeds hnext hsubj
  | transitionJob => exact prepareTransitionJob_succeeds hm hnext hsubj
  | failJob => exact prepareFailJob_succeeds hm hnext hsubj
  | submitJob | cancelJob => exact absurd rfl hbd

/-! ## The engines -/

omit [Contract] in
lemma reply_succeeds (h : (marshalBusinessResult code subject revision epoch).isSome = true) :
    Succeeds (m.reply code subject revision epoch) :=
  .orImpossible_bind h fun _ _ => .ok _

section

variable (hm : Reachable m)

include hm

lemma replyCapacity_succeeds (hsubj : subject.validate = true)
    (hrev : subject.kind = .coordinator → revision = m.coordinatorRevision) :
    Succeeds (m.replyCapacity subject revision) :=
  reply_succeeds (marshal_plain .full hsubj (hm.epoch_fits hrev))

lemma recallApplied_succeeds (hsubj : internal.subject.validate = true)
    (hrev : internal.subject.kind = .coordinator → old.revision = m.coordinatorRevision) :
    Succeeds (m.recallApplied internal target old) := by
  unfold recallApplied
  split
  · exact replyCapacity_succeeds hm hsubj hrev
  · exact .ok _

lemma cacheMismatch_succeeds (hsubj : internal.subject.validate = true)
    (hrev : internal.subject.kind = .coordinator → old.revision = m.coordinatorRevision) :
    Succeeds (m.cacheMismatch internal target known old) := by
  refine .orImpossible_bind (marshal_plain .mismatch hsubj (hm.epoch_fits hrev)) ?_
  intro result _
  split
  · exact replyCapacity_succeeds hm hsubj hrev
  split
  · exact replyCapacity_succeeds hm hsubj hrev
  · exact .ok _

lemma concludeInternal_succeeds {appliedTarget : Bytes}
    (hplan : Planned m index term next command command.target.subject plan)
    (hsubj : internal.subject.validate = true)
    (hrev : internal.subject.kind = .coordinator → old.revision = m.coordinatorRevision) :
    Succeeds (m.concludeInternal internal target appliedTarget known old plan) := by
  unfold concludeInternal
  rw [hplan.capResult_eq]
  simp only [bind, Except.bind]
  split
  · exact .ok _
  split
  · exact replyCapacity_succeeds hm hsubj hrev
  · exact .ok _

/-- A revision that an index is above can still be counted up. -/
lemma Reachable.standing_ne_max (hltr : m.lastAppliedIndex < index)
    (hsubj : command.target.subject.validate = true) : m.standing command.target ≠ BitVec.allOnes 64 := by
  intro hmax
  have hle := hm.revision_le hsubj
  rw [← hm.standing.standing_eq, hmax] at hle
  have hlt := Nat.lt_of_le_of_lt hle hltr
  have hbd := index.isLt
  rw [BitVec.toNat_allOnes] at hlt
  omega

end

/-- Only a `BeginCoordinatorEpoch` is about the coordinator. -/
lemma kind_ne_coordinator (hval : command.validate = true)
    (hkind : command.envelope.kind ≠ .beginCoordinatorEpoch) :
    command.target.subject.kind ≠ .coordinator := by
  simp only [Command.validate, Bool.and_eq_true, decide_eq_true_eq] at hval
  rw [hval.1.2] at hkind
  intro hsubj
  revert hkind hsubj
  cases command.target <;> intro hkind hsubj <;> first
    | exact hkind rfl
    | cases hsubj

lemma applyInternalResolvedAt_succeeds (hm : Reachable m) (hval : command.validate = true)
    (hident : command.envelope.identity = .inr internal) (hltr : m.lastAppliedIndex < index)
    (hterm : term ≠ 0) : Succeeds (m.applyInternalResolvedAt command.envelope internal command.target.bytes
      (command.target.appliedBytes term) (command.target.authoritativeRevision m)
      (command.target.prepare m index term)) := by
  obtain ⟨hsubj, heq, hbd⟩ := Command.internal_subject hval hident
  have hidx := ne_zero_of_above hltr
  have hintl : internal.subject.validate = true := by rw [heq]; exact hsubj
  -- the coordinator's history and the state stand at the same revision
  have hstand : internal.subject.kind = .coordinator → m.standing command.target = m.coordinatorRevision := by
    intro hkind
    rw [hm.standing.standing_eq]
    rw [heq] at hkind
    rw [subjectRevision, hkind]
  have hret : ∀ history, m.subjects.find? internal.subject = some history →
      internal.subject.kind = .coordinator → history.revision = m.coordinatorRevision := by
    intro history hhist hkind
    have hcoord : internal.subject = .coordinator := by
      obtain h | ⟨_, -, h⟩ | ⟨_, -, h⟩ | ⟨_, -, h | h | h⟩ := validate_cases hintl <;>
        first
          | exact h
          | (rw [h] at hkind; cases hkind)
    have hstd := hm.standing.coordinator
    rw [hcoord] at hhist
    rw [retained, hhist] at hstd
    exact hstd
  have hchkd : ¬ (command.envelope.validate = false ∨
      internal.digest ≠ internalDigest command.envelope internal command.target.bytes) := by
    simp only [Command.validate, hident, Bool.and_eq_true, decide_eq_true_eq] at hval
    obtain ⟨⟨henvel, -⟩, -, hdig⟩ := hval
    rw [henvel, not_or]
    exact ⟨by simp, not_not.mpr hdig⟩
  unfold applyInternalResolvedAt
  rw [if_neg hchkd]
  split
  · -- the identity is the retained one
    rename_i hknw
    obtain ⟨history, hhist⟩ := isSome_iff_exists.mp hknw.1
    split
    · exact .ok _
    refine reply_succeeds (marshal_plain .reuse hintl (hm.epoch_fits ?_))
    rw [hhist, getD_some]
    exact hret history hhist
  split
  · -- an old fence
    rename_i hstale
    refine reply_succeeds (marshal_staleEpoch hintl ?_ hm.fence_fits)
    rw [heq]
    exact kind_ne_coordinator hval hstale.1
  split
  · refine recallApplied_succeeds hm hintl ?_
    rw [heq] at hstand ⊢
    exact hstand
  split
  · refine reply_succeeds (marshal_plain .full hintl ?_)
    unfold EpochFits
    rw [if_pos rfl, ite_self]
  split
  · refine cacheMismatch_succeeds hm hintl ?_
    rw [heq] at hstand ⊢
    exact hstand
  rename_i hexp
  split
  · rename_i hmax
    rw [heq] at hmax
    exact absurd hmax (hm.standing_ne_max hltr hsubj)
  rename_i hmax
  rw [not_not, heq] at hexp
  rw [heq] at hmax
  have hisd := Issued.of_internal hm hval hident hexp hmax
  refine .bind ?_ ?_
  · rw [heq]
    exact prepare_succeeds hm hisd hsubj hidx hterm
  intro plan hplan
  refine concludeInternal_succeeds hm (prepare_planned hplan) hintl ?_
  rw [heq] at hstand ⊢
  exact hstand

section Clients

variable {client : ClientEnvelope}

omit [Contract] in
lemma jobControl_kind : (jobControl key).kind ≠ .coordinator := by
  intro h
  cases h

lemma prepareSubmitJob_succeeds (hm : Reachable m) {request : ClientRequestID} {canonical : Bytes}
    (hjob : key ≠ 0) : Succeeds (m.prepareSubmitJob request key digest canonical) := by
  have hsubj : (jobControl key).validate = true := by simpa [validate, jobControl] using hjob
  unfold prepareSubmitJob
  split
  · rename_i existing hexist
    split
    · exact rejectWith_succeeds .reuse hsubj jobControl_kind
    · exact succeedWith_succeeds hsubj jobControl_kind (hm.jobRevision hexist)
  split
  · exact refuseForCapacity_succeeds hsubj jobControl_kind
  · exact succeedWith_succeeds hsubj jobControl_kind (by decide)

lemma prepareCancelJob_succeeds (hm : Reachable m) (hjob : key ≠ 0) :
    Succeeds (m.prepareCancelJob key expected) := by
  have hsubj : (jobControl key).validate = true := by simpa [validate, jobControl] using hjob
  unfold prepareCancelJob
  split
  · exact mismatch_succeeds hsubj jobControl_kind
  rename_i record hrec
  split
  · exact succeedWith_succeeds hsubj jobControl_kind (hm.jobRevision hrec)
  split
  · exact mismatch_succeeds hsubj jobControl_kind
  rename_i hguards
  simp only [not_or] at hguards
  exact succeedWith_succeeds hsubj jobControl_kind (succ_ne_zero hguards.2.2)

lemma concludeClient_succeeds {old : ClientHistory} (hplan : Planned m index term next command subject plan) :
    Succeeds (m.concludeClient client old known plan) := by
  unfold concludeClient
  rw [hplan.capResult_eq]
  simp only [bind, Except.bind]
  split
  · exact .ok _
  split
  · exact reply_succeeds (marshal_unbound .full)
  · exact .ok _

lemma applyClientCommand_succeeds (hm : Reachable m) {envelope : Envelope} {prepare : Prepared}
    (hreq : client.request.validate = true) (hdig : client.digest ≠ 0) (hjob : key ≠ 0)
    (hprepare : Succeeds prepare) (hplanned : ∀ plan, prepare = .ok plan →
      ∃ index term next command, Planned m index term next command (.jobControl key) plan) :
    Succeeds (m.applyClientCommand envelope client (.jobControl key) prepare) := by
  have hsubj : (jobControl key).validate = true := by simpa [validate, jobControl] using hjob
  have hconcl : ∀ old known, Succeeds (prepare >>= m.concludeClient client old known) := by
    intro old known
    refine .bind hprepare ?_
    intro plan hplan
    obtain ⟨index, term, next, command, hplanned⟩ := hplanned plan hplan
    exact concludeClient_succeeds hplanned
  unfold applyClientCommand
  simp only
  rw [if_neg (by rw [hreq, not_or]; exact ⟨by simp, hdig⟩)]
  split
  · exact .ok _
  split
  · exact reply_succeeds (marshal_staleEpoch hsubj jobControl_kind hm.fence_fits)
  split
  · split
    · exact reply_succeeds (marshal_unbound .reuse)
    split
    · exact reply_succeeds (marshal_unbound .stale)
    split
    · exact reply_succeeds (marshal_unbound .skipped)
    · exact hconcl _ true
  split
  · exact reply_succeeds (marshal_unbound .skipped)
  split
  · exact reply_succeeds (marshal_unbound .full)
  · exact hconcl _ false

end Clients

/-- The job that a submission would create has an identifier. -/
def NamesJob (command : Command) : Prop :=
  ∀ client topology validated, command.envelope.identity = .inl client →
    command.target = .submitJob topology → validateTopology topology = some validated →
      deriveJobID client.request validated.digest ≠ 0

lemma applyCommand_succeeds (hm : Reachable m) (hval : command.validate = true)
    (hltr : m.lastAppliedIndex < index) (hterm : term ≠ 0) (hnamed : NamesJob command) :
    Succeeds (m.applyCommand index term command) := by
  unfold applyCommand
  cases hident : command.envelope.identity with
  | inr => exact applyInternalResolvedAt_succeeds hm hval hident hltr hterm
  | inl client =>
    obtain ⟨hreq, hdig⟩ := Command.client_identity hval hident
    obtain ⟨⟨topology, htarg⟩ | ⟨job, expected, htarg⟩, -⟩ := Command.client_target hval hident
    · obtain ⟨validated, hvald⟩ := Command.submit_valid hval hident htarg
      have hjob := hnamed client topology validated hident htarg hvald
      simp only [htarg, applySubmitJob, hvald]
      refine applyClientCommand_succeeds hm hreq hdig hjob
        (prepareSubmitJob_succeeds hm hjob) ?_
      intro plan hplan
      exact ⟨index, term, _, _, prepareSubmitJob_planned hident hvald hplan⟩
    have hflds : command.target.clientValid client = true := by
      simp only [Command.validate, hident, Bool.and_eq_true] at hval
      exact hval.2
    simp only [htarg, clientValid, Bool.and_eq_true, decide_eq_true_eq] at hflds ⊢
    have hjob : job ≠ 0 := by simpa [JobID.validate] using hflds.1.1
    refine applyClientCommand_succeeds hm hreq hdig hjob
      (prepareCancelJob_succeeds hm hjob) ?_
    intro plan hplan
    exact ⟨index, term, _, ⟨command.envelope, _⟩, prepareCancelJob_planned hplan⟩

lemma applies_of_ok {entry : LogEntry} {applied : Machine} {result : Bytes}
    (hltr : m.lastAppliedIndex < entry.index) (hterm : entry.term ≠ 0)
    (hdec : unmarshalCommand entry.command = some command)
    (h : m.applyCommand entry.index entry.term command = .ok (applied, result)) :
    Applies m entry result { applied with lastAppliedIndex := entry.index } := by
  have hidx := ne_zero_of_above hltr
  unfold Applies apply
  rw [if_neg (by rw [not_or]; exact ⟨hidx, hterm⟩), hdec]
  simp only
  rw [if_neg (BitVec.not_le.mpr hltr), h]
  rfl

/-- A committed command is answered. What is asked of the entry besides its index is that it was
committed in some term, and of a submission that a job identifier can be derived from it: the zero
identifier cannot be encoded in an answer. -/
theorem apply_never_fails (hm : Reachable m) {entry : LogEntry}
    (hlater : m.lastAppliedIndex < entry.index) (hterm : entry.term ≠ 0)
    (hdecoded : unmarshalCommand entry.command = some command) (hnamed : NamesJob command) :
    ∃ result m', Applies m entry result m' := by
  obtain ⟨hval, -⟩ := unmarshalCommand_eq_some hdecoded
  obtain ⟨⟨applied, result⟩, happd⟩ := applyCommand_succeeds hm hval hlater hterm hnamed
  exact ⟨result, _, applies_of_ok hlater hterm hdecoded happd⟩

end Reachable

/-! ## Entries that fail -/

section Failures

open Sample

/-- Every digest of this contract starts with sixteen zero bytes. -/
@[reducible] def zeroJobContract : Contract where
  sum256 _ := 1
  consensusFingerprint := 1
  registryFingerprint := 2

attribute [local instance] sampleContract in
/-- The first submission of a client, to a coordinator that has begun. -/
theorem apply_never_fails_submission :
    ∃ log m encoded result m', Run .new log m ∧ marshalCommand (Sample.submit m) = some encoded ∧
      Applies m ⟨2, 1, encoded⟩ result m' := by
  obtain ⟨log, m, hrun, hchk⟩ := exists_run_of_follow [begin]
    (fun m => m.lastAppliedIndex = 1 && (marshalCommand (Sample.submit m)).any fun encoded =>
      unmarshalCommand encoded = some (Sample.submit m)) (by decide +kernel)
  simp only [Bool.and_eq_true, any_eq_true, decide_eq_true_eq] at hchk
  obtain ⟨hlast, encoded, henc, hdec⟩ := hchk
  have hnamed : NamesJob (Sample.submit m) := by
    intro client spec validated hident htarg hvald
    cases hident
    cases htarg
    have hderived : ((validateTopology topology).all fun validated =>
        deriveJobID ⟨7, 1⟩ validated.digest ≠ 0) = true := by decide +kernel
    rw [hvald, all_some, decide_eq_true_eq] at hderived
    exact hderived
  have hltr : m.lastAppliedIndex < 2 := by
    rw [hlast]
    decide
  have happs : ∃ result m', Applies m ⟨2, 1, encoded⟩ result m' :=
    apply_never_fails ⟨log, hrun⟩ hltr (by decide : (1 : U64) ≠ 0) hdec hnamed
  obtain ⟨result, m', happs⟩ := happs
  exact ⟨log, m, encoded, result, m', hrun, henc, happs⟩

/-- The bytes decode, and a new machine that has them as its first entry fails. -/
def FailsFirst [Contract] (term : U64) (encoded : Bytes) : Prop :=
  (∃ command, unmarshalCommand encoded = some command) ∧ ∀ result m', ¬ Applies .new ⟨1, term, encoded⟩ result m'

lemma failsFirst_of_check [Contract] {term : U64} {command : Command}
    (h : ((marshalCommand command).any fun encoded => (unmarshalCommand encoded).isSome &&
      (new.apply 1 term encoded).toOption.isNone) = true) : ∃ encoded, FailsFirst term encoded := by
  simp only [any_eq_true, Bool.and_eq_true, isSome_iff_exists] at h
  obtain ⟨encoded, -, hdec, hfails⟩ := h
  refine ⟨encoded, hdec, ?_⟩
  intro result m' happs
  unfold Applies at happs
  rw [happs] at hfails
  cases hfails

/-- An entry of term zero fails, and a submission fails if the job identifier derived from it is
zero. -/
theorem apply_fails_without_term_or_job : (∃ encoded, @FailsFirst sampleContract 0 encoded) ∧
      ∃ encoded, @FailsFirst zeroJobContract 1 encoded := by
  refine ⟨@failsFirst_of_check sampleContract 0 (begin .new) (by decide +kernel), ?_⟩
  exact @failsFirst_of_check zeroJobContract 1
    (@submit zeroJobContract { new with coordinatorEpoch := ⟨1, 1, 9, 5⟩ } ⟨7, 1⟩
      topology) (by decide +kernel)

end Failures

end Crane.State
