import Crane.State.Snapshot

/-!
# What a command can do

Said once for all fourteen commands. `JobChange` has a constructor for each way a command changes a
job, `Effect` one for each way it changes the machine, both with everything the command checked
before; `Planned` has one for each way its plan can look. Nothing after this module unfolds a `prepare` function.
-/

namespace Crane.State

open Wire Data Model Machine

variable {subject : SubjectKey} {revision expectedRevision : U64} {delta : Int}
variable {commit : Machine → Machine} {workerID : U16} {jobID : JobID} {worker : WorkerRecord}
variable {command : Command} {epoch : WorkerEpoch} {affected : List AffectedAssignment}

/-- A plan whose result is the marshalled outcome. -/
lemma rejectWith_eq_ok {code : ResultCode} {plan : MutationPlan}
    (h : rejectWith code subject revision = .ok plan) :
    ∃ result, marshalBusinessResult code subject revision .zero = some result ∧
      plan = { result, reject := true } := by
  unfold rejectWith orImpossible at h
  split at h
  · cases h
  rename_i result hres
  cases h
  exact ⟨result, hres, rfl⟩

lemma refuseForCapacity_eq_ok {plan : MutationPlan} (h : refuseForCapacity subject = .ok plan) :
    ∃ result, marshalBusinessResult .capacityExhausted subject 0 .zero = some result ∧
      plan = { result, reject := true, capacity := true } := by
  unfold refuseForCapacity orImpossible at h
  split at h
  · cases h
  rename_i result hres
  cases h
  exact ⟨result, hres, rfl⟩

lemma succeedWith_eq_ok {plan : MutationPlan} (h : succeedWith subject revision delta commit = .ok plan) :
    ∃ result, marshalBusinessResult .success subject revision .zero = some result ∧
      plan = { result, commit, stateDelta := delta } := by
  unfold succeedWith orImpossible at h
  split at h
  · cases h
  rename_i result hres
  cases h
  exact ⟨result, hres, rfl⟩

lemma bind_eq_ok {ε α β : Type} {x : Except ε α} {f : α → Except ε β} {b : β}
    (h : (x >>= f) = .ok b) : ∃ a, x = .ok a ∧ f a = .ok b := by
  cases x with
  | error => cases h
  | ok a => exact ⟨a, rfl, h⟩

lemma orImpossible_bind_eq_ok {α β : Type} {o : Option α} {f : α → Except ApplyError β} {b : β}
    (h : (orImpossible o >>= f) = .ok b) : ∃ a, o = some a ∧ f a = .ok b := by
  cases o with
  | none => cases h
  | some a => exact ⟨a, rfl, h⟩

lemma subjectRevision_worker (m : Machine) (workerID : U16) :
    m.subjectRevision (.worker workerID) = ((m.workers.find? workerID).map (·.revision)).getD 0 := rfl

lemma subjectRevision_worker_some {m : Machine} {current : WorkerRecord}
    (h : m.workers.find? workerID = some current) :
    m.subjectRevision (.worker workerID) = current.revision := by
  rw [subjectRevision_worker, h]
  rfl

lemma subjectRevision_worker_none {m : Machine} (h : m.workers.find? workerID = none) :
    m.subjectRevision (.worker workerID) = 0 := by
  rw [subjectRevision_worker, h]
  rfl

lemma subjectRevision_jobControl_some {m : Machine} {record : JobRecord}
    (h : m.jobs.find? jobID = some record) :
    m.subjectRevision (.jobControl jobID) = record.jobControlRevision := by
  simp only [subjectRevision, SubjectKey.jobControl, h]
  rfl

lemma subjectRevision_jobControl_none {m : Machine} (h : m.jobs.find? jobID = none) :
    m.subjectRevision (.jobControl jobID) = 0 := by
  simp only [subjectRevision, SubjectKey.jobControl, h]
  rfl

lemma planRegistration_eq_ok {m : Machine} {next : U64} {plan : MutationPlan} {added : Int}
    (h : m.planRegistration worker next added = .ok plan) :
    ∃ jobs delta, worker.revision = next ∧ m.prepareConsumedInvalidationPrune worker.nodeID = some (jobs, delta) ∧
      succeedWith (.worker worker.nodeID) next (added + delta)
        (fun m => m.storeWorker worker.nodeID worker jobs) = .ok plan := by
  unfold planRegistration at h
  split at h
  · cases h
  rename_i hrev
  obtain ⟨⟨jobs, delta⟩, hjobs, hplan⟩ := orImpossible_bind_eq_ok h
  exact ⟨jobs, delta, not_not.mp hrev, hjobs, hplan⟩

section Effects

variable [Contract]

/-- What a command on one job does to the job's record: everything it checked, the new record, the
cursor it moves and the growth it announces. `next` is the revision its subject moves to. -/
inductive JobChange (m : Machine) (next : U64) :
    Command → JobID → JobRecord → JobRecord → Option (WorkerEventKey × WorkerEventCursor) → Int → Prop where
  | cancel {envelope : Envelope} {key : JobID} {job : JobRecord}
    (hlive : job.lifecycle.terminal = false)
    (hmax : job.jobControlRevision ≠ BitVec.allOnes 64)
    (hnext : next = job.jobControlRevision + 1) :
    JobChange m next ⟨envelope, .cancelJob key job.jobControlRevision⟩ key job
      { job with lifecycle := .canceled, jobControlRevision := next } none 0
  | recordEOF {envelope : Envelope} {source : TaskID} {eof : U64} {job : JobRecord}
    {topology : ValidatedTopology}
    (hpending : job.lifecycle = .pending) (hassignment : job.assignment = none)
    (htopology : decodeTopology job.topologyBytes = some topology)
    (heof : sourceEOF topology source = some eof) :
    JobChange m next ⟨envelope, .recordSourceEOF source eof⟩ source.jobID job
      { job with sourceEOFs := job.sourceEOFs.insert source ⟨eof, next⟩ } none
      sourceEOFEntryEstimatedBytes
  | install {envelope : Envelope} {assignment : AssignmentSet} {job : JobRecord}
    {topology : ValidatedTopology}
    (hpending : job.lifecycle = .pending) (hassignment : job.assignment = none)
    (hmarkers : job.needsReassignment = []) (heofs : allSourceEOFsPresent job = true)
    (htopology : decodeTopology job.topologyBytes = some topology)
    (hvalid : assignment.validate topology = true)
    (hbuild : buildAssignmentSet job.jobID job.topologyDigest 1 topology
      (m.residualEligiblePlacements job.jobID) = some assignment) :
    JobChange m next ⟨envelope, .installAssignments assignment⟩ assignment.jobID job
      { job with assignment := some assignment, lifecycle := .deploying, jobControlRevision := next }
      none (assignmentEncodedBytes assignment)
  | replace {envelope : Envelope} {key : JobID} {job : JobRecord} {assignment target : AssignmentSet}
    {topology : ValidatedTopology} {before after : Nat}
    (hassignment : job.assignment = some assignment) (hmarkers : job.needsReassignment ≠ [])
    (htopology : decodeTopology job.topologyBytes = some topology)
    (hvalid : target.validate topology = true)
    (hreplaces : validateReplacement assignment target job.needsReassignment = true)
    (hcurrent : m.replacementUsesCurrentWorkers assignment target key = true)
    (hbefore : estimateJobRecordBytes job = some before)
    (hafter : estimateJobRecordBytes (m.replacedJob job target
      (needsReassignmentDigest job.needsReassignment) next) = some after) :
    JobChange m next ⟨envelope, .replaceAssignments key assignment.revision assignment.digest
        (needsReassignmentDigest job.needsReassignment) target⟩ key job
      (m.replacedJob job target (needsReassignmentDigest job.needsReassignment) next) none
      (signedSizeDelta after before)
  | advance {envelope : Envelope} {report : CompletionReport} {job : JobRecord}
    (hvalid : m.checkpointReportValid job report = true)
    (hcursor : Machine.validateNextWorkerEvent m.workerEvents
      ⟨report.token.workerID, report.token.workerEpoch⟩ report.workerTransactionID report.digest = true) :
    JobChange m next ⟨envelope, .advanceCheckpoint report⟩ report.jobID job
      { job with checkpoints := job.checkpoints.insert report.source ⟨report.new, next⟩ }
      (some (⟨report.token.workerID, report.token.workerEpoch⟩, ⟨report.workerTransactionID, report.digest⟩))
      (if job.checkpoints.contains report.source then (0 : Int) else checkpointEntryEstimatedBytes)
  | sealManifest {envelope : Envelope} {manifest : ResultManifest} {job : JobRecord}
    (hvalid : m.manifestValid job manifest next = true) :
    JobChange m next ⟨envelope, .sealManifest manifest⟩ manifest.jobID job
      { job with manifests := job.manifests.insert manifest.sinkTask manifest } none
      (if job.manifests.contains manifest.sinkTask then (0 : Int)
        else resultManifestEntryEstimatedBytes)
  | transition {envelope : Envelope} {key : JobID} {lifecycle : JobLifecycle} {job : JobRecord}
    {before after : Nat}
    (hassignment : job.assignment ≠ none) (hmarkers : job.needsReassignment = [])
    (hallowed : Machine.transitionAllowed job job.lifecycle lifecycle = true)
    (hbefore : estimateJobRecordBytes job = some before)
    (hafter : estimateJobRecordBytes (m.controlledJob job lifecycle job.failure next) = some after) :
    JobChange m next ⟨envelope, .transitionJob key job.lifecycle lifecycle⟩ key job
      (m.controlledJob job lifecycle job.failure next) none (signedSizeDelta after before)
  | fail {envelope : Envelope} {report : JobFailureReport} {job : JobRecord} {before after : Nat}
    (hvalid : m.failureReportValid job report = true)
    (hcursor : Machine.validateNextWorkerEvent m.workerEvents
      ⟨report.task.workerID, report.task.workerEpoch⟩ report.transactionID
      (failureEventDigest report) = true)
    (hbefore : estimateJobRecordBytes job = some before)
    (hafter : estimateJobRecordBytes (m.controlledJob job .failed (some report) next) = some after) :
    JobChange m next ⟨envelope, .failJob report⟩ report.jobID job
      (m.controlledJob job .failed (some report) next)
      (some (⟨report.task.workerID, report.task.workerEpoch⟩, ⟨report.transactionID, failureEventDigest report⟩))
      (signedSizeDelta after before)

/-- The machine with the cursor moved. -/
def Machine.moveCursor (m : Machine) : Option (WorkerEventKey × WorkerEventCursor) → Machine
  | none => m
  | some (key, cursor) => { m with workerEvents := m.workerEvents.insert key cursor }

/-- What a moved cursor adds to the size. -/
def Machine.cursorGrowth (m : Machine) : Option (WorkerEventKey × WorkerEventCursor) → Int
  | none => 0
  | some (key, _) => if m.workerEvents.contains key then 0 else workerEventEntryEstimatedBytes

section MoveCursor

variable (m : Machine) (cursor : Option (WorkerEventKey × WorkerEventCursor))

section

omit [Contract]

@[simp] lemma moveCursor_clients : (m.moveCursor cursor).clients = m.clients := by cases cursor <;> rfl

@[simp] lemma moveCursor_subjects : (m.moveCursor cursor).subjects = m.subjects := by cases cursor <;> rfl

@[simp] lemma moveCursor_coordinatorRevision : (m.moveCursor cursor).coordinatorRevision = m.coordinatorRevision := by
  cases cursor <;> rfl

@[simp] lemma moveCursor_coordinatorEpoch : (m.moveCursor cursor).coordinatorEpoch = m.coordinatorEpoch := by
  cases cursor <;> rfl

@[simp] lemma moveCursor_workers : (m.moveCursor cursor).workers = m.workers := by cases cursor <;> rfl

@[simp] lemma moveCursor_jobs : (m.moveCursor cursor).jobs = m.jobs := by cases cursor <;> rfl

@[simp] lemma moveCursor_lastAppliedIndex : (m.moveCursor cursor).lastAppliedIndex = m.lastAppliedIndex := by
  cases cursor <;> rfl

@[simp] lemma moveCursor_estimatedSnapshotBytes : (m.moveCursor cursor).estimatedSnapshotBytes = m.estimatedSnapshotBytes := by
  cases cursor <;> rfl

end

end MoveCursor

/-- What an effective command does to the machine, before its history is stored: the machine it
leaves and the growth it announces. -/
inductive Effect (m : Machine) (index term next : U64) : Command → Machine → Int → Prop where
  | begin {envelope : Envelope} {coordinator : U16} {nonce : Array16}
    (hrevision : m.coordinatorRevision = next - 1)
    (hlater : m.coordinatorEpoch = .zero ∨ m.coordinatorEpoch.term < term ∨
      (m.coordinatorEpoch.term = term ∧ m.coordinatorEpoch.beginIndex < index))
    (hvalid : CoordinatorEpoch.validate ⟨term, index, coordinator, nonce⟩ = true) :
    Effect m index term next ⟨envelope, .beginCoordinatorEpoch coordinator nonce⟩
      { m with coordinatorRevision := next, coordinatorEpoch := ⟨term, index, coordinator, nonce⟩ } 0
  | register {envelope : Envelope} {worker : WorkerRecord} {jobs : Table JobID JobRecord} {delta : Int}
    (hnew : m.workers.find? worker.nodeID = none)
    (hroom : m.workers.size < Limits.maxRegisteredWorkers)
    (hrevision : worker.revision = next)
    (hjobs : m.prepareConsumedInvalidationPrune worker.nodeID = some (jobs, delta)) :
    Effect m index term next ⟨envelope, .registerWorker worker⟩
      (m.storeWorker worker.nodeID worker jobs) (workerRecordEstimatedBytes + delta)
  | revive {envelope : Envelope} {worker current : WorkerRecord} {jobs : Table JobID JobRecord}
    {delta : Int}
    (hcurrent : m.workers.find? worker.nodeID = some current)
    (hoffline : current.state = .offline) (hepoch : current.epoch = worker.epoch)
    (hslots : current.slots = worker.slots)
    (hrevision : worker.revision = next)
    (hjobs : m.prepareConsumedInvalidationPrune worker.nodeID = some (jobs, delta)) :
    Effect m index term next ⟨envelope, .registerWorker worker⟩
      (m.storeWorker worker.nodeID worker jobs) delta
  | drain {envelope : Envelope} {workerID : U16} {current : WorkerRecord}
    {jobs : Table JobID JobRecord} {delta : Int}
    (hcurrent : m.workers.find? workerID = some current) (heligible : current.state = .eligible)
    (hjobs : m.prepareConsumedInvalidationPrune workerID = some (jobs, delta)) :
    Effect m index term next ⟨envelope, .drainWorker workerID current.epoch⟩
      (m.storeWorker workerID { current with state := .draining, revision := next } jobs) delta
  | deactivate {envelope : Envelope} {workerID : U16} {current : WorkerRecord}
    {affected : List AffectedAssignment} {jobs : Table JobID JobRecord} {delta : Int}
    (hcurrent : m.workers.find? workerID = some current) (heligible : current.state = .eligible)
    (hjobs : m.prepareWorkerInvalidation .deactivate next workerID current.epoch affected = some (jobs, delta)) :
    Effect m index term next ⟨envelope, .deactivateWorker workerID current.epoch affected⟩
      (m.storeWorker workerID { current with state := .offline, revision := next } jobs) delta
  | replaceEpoch {envelope : Envelope} {workerID : U16} {current target : WorkerRecord}
    {affected : List AffectedAssignment} {jobs : Table JobID JobRecord} {delta : Int}
    (hcurrent : m.workers.find? workerID = some current) (hrevision : target.revision = next)
    (hstate : target.state = current.state)
    (hjobs : m.prepareWorkerInvalidation .replaceEpoch next workerID current.epoch affected =
      some (jobs, delta)) :
    Effect m index term next ⟨envelope, .replaceWorkerEpoch workerID current.epoch target affected⟩
      { m.storeWorker workerID target jobs with
        workerEvents := m.workerEvents.erase ⟨workerID, current.epoch⟩ }
      (delta - if m.workerEvents.contains ⟨workerID, current.epoch⟩ then
        (workerEventEntryEstimatedBytes : Int) else 0)
  | submit {envelope : Envelope} {client : ClientEnvelope} {topology : TopologySpec}
    {validated : ValidatedTopology}
    (hidentity : envelope.identity = .inl client)
    (hvalidated : validateTopology topology = some validated)
    (hnew : m.jobs.find? (deriveJobID client.request validated.digest) = none)
    (hroom : m.jobs.size < Limits.maxRetainedJobs ∧ m.activeJobCount < Limits.maxActiveJobs)
    (hnext : next = 1) :
    Effect m index term next ⟨envelope, .submitJob topology⟩
      (m.storeJob (deriveJobID client.request validated.digest)
        (Machine.pendingJob (deriveJobID client.request validated.digest) client.request
          validated.digest validated.canonical))
      (jobRecordFixedEstimatedBytes + validated.canonical.length)
  | job {command : Command} {key place : JobID} {job job' : JobRecord}
    {cursor : Option (WorkerEventKey × WorkerEventCursor)} {delta : Int}
    (hjob : m.jobs.find? key = some job) (hplace : place = key ∨ place = job.jobID)
    (hchange : JobChange m next command key job job' cursor delta) :
    Effect m index term next command ((m.storeJob place job').moveCursor cursor)
      (delta + m.cursorGrowth cursor)

/-- How the plan of a command can look. Whatever it answers is about its subject: a refusal and a
confirmation name the revision the subject stands at, a success the one it moves to. -/
inductive Planned (m : Machine) (index term next : U64) (command : Command) (subject : SubjectKey) :
    MutationPlan → Prop where
  | refused {result : Bytes} (hsubject : subject.kind ≠ .coordinator)
    (hresult : marshalBusinessResult .revisionMismatch subject (m.subjectRevision subject) .zero = some result) :
    Planned m index term next command subject { result, reject := true }
  | collided {result : Bytes} {topology : TopologySpec}
    (htarget : command.target = .submitJob topology)
    (hresult : marshalBusinessResult .identityReuse subject (m.subjectRevision subject) .zero = some result) :
    Planned m index term next command subject { result, reject := true }
  | outdated {result : Bytes} {coordinator : U16} {nonce : Array16}
    (htarget : command.target = .beginCoordinatorEpoch coordinator nonce)
    (hcurrent : m.coordinatorEpoch ≠ .zero)
    (hstale : term < m.coordinatorEpoch.term ∨
      (term = m.coordinatorEpoch.term ∧ index ≤ m.coordinatorEpoch.beginIndex))
    (hresult : marshalBusinessResult .staleEpoch subject m.coordinatorRevision m.coordinatorEpoch = some result) :
    Planned m index term next command subject { result, reject := true }
  | full {result : Bytes}
    (hkind : command.target.kind = .registerWorker ∨ command.target.kind = .submitJob)
    (hresult : marshalBusinessResult .capacityExhausted subject 0 .zero = some result) :
    Planned m index term next command subject { result, reject := true, capacity := true }
  | begun {result : Bytes} {coordinator : U16} {nonce : Array16}
    (htarget : command.target = .beginCoordinatorEpoch coordinator nonce)
    (hrevision : m.coordinatorRevision = next - 1)
    (hcurrent : m.coordinatorEpoch ≠ .zero) (hterm : m.coordinatorEpoch.term = term)
    (hcoordinator : m.coordinatorEpoch.coordinator = coordinator)
    (hnonce : m.coordinatorEpoch.nonce = nonce)
    (hresult : marshalBusinessResult .success subject m.coordinatorRevision m.coordinatorEpoch = some result) :
    Planned m index term next command subject { result }
  | already {result : Bytes}
    (htarget : (∃ topology, command.target = .submitJob topology) ∨
      ∃ job expected, command.target = .cancelJob job expected)
    (hresult : marshalBusinessResult .success subject (m.subjectRevision subject) .zero = some result) :
    Planned m index term next command subject { result }
  | effective {result : Bytes} {commit : Machine → Machine} {delta : Int} {epoch : CoordinatorEpoch}
    (heffect : Effect m index term next command (commit m) delta)
    (hepoch : epoch = if subject.kind = .coordinator then (commit m).coordinatorEpoch else .zero)
    (hresult : marshalBusinessResult .success subject next epoch = some result) :
    Planned m index term next command subject { result, commit, stateDelta := delta }

variable {m : Machine} {index term next : U64} {plan : MutationPlan} {envelope : Envelope}

lemma planned_refused (h : rejectWith .revisionMismatch subject revision = .ok plan)
    (hsubj : subject.kind ≠ .coordinator) (hrev : revision = m.subjectRevision subject) :
    Planned m index term next command subject plan := by
  obtain ⟨result, hres, rfl⟩ := rejectWith_eq_ok h
  rw [hrev] at hres
  exact .refused hsubj hres

lemma planned_full (h : refuseForCapacity subject = .ok plan)
    (hkind : command.target.kind = .registerWorker ∨ command.target.kind = .submitJob) :
    Planned m index term next command subject plan := by
  obtain ⟨result, hres, rfl⟩ := refuseForCapacity_eq_ok h
  exact .full hkind hres

lemma planned_effective (h : succeedWith subject next delta commit = .ok plan)
    (hsubj : subject.kind ≠ .coordinator) (heff : Effect m index term next command (commit m) delta) :
    Planned m index term next command subject plan := by
  obtain ⟨result, hres, rfl⟩ := succeedWith_eq_ok h
  exact .effective heff (if_neg hsubj).symm hres

/-- The commands on one job, whose announced growth is that of the record and of the cursor. -/
lemma planned_job {growth : Int} {key place : JobID} {job job' : JobRecord}
    {cursor : Option (WorkerEventKey × WorkerEventCursor)}
    (h : succeedWith subject next growth (fun m => (m.storeJob place job').moveCursor cursor) =
      .ok plan) (hsubj : subject.kind ≠ .coordinator) (hjob : m.jobs.find? key = some job)
    (hplc : place = key ∨ place = job.jobID) (hgrw : growth = delta + m.cursorGrowth cursor)
    (hchg : JobChange m next command key job job' cursor delta) :
    Planned m index term next command subject plan := by
  subst hgrw
  exact planned_effective h hsubj (.job hjob hplc hchg)

/-! ## Worker commands -/

lemma prepareRegisterWorker_planned (h : m.prepareRegisterWorker worker next = .ok plan) :
    Planned m index term next ⟨envelope, .registerWorker worker⟩ (.worker worker.nodeID) plan := by
  unfold prepareRegisterWorker at h
  split at h
  · rename_i hnew
    split at h
    · exact planned_full h (.inl rfl)
    rename_i hroom
    obtain ⟨jobs, delta, hrev, hjobs, hplan⟩ := planRegistration_eq_ok h
    exact planned_effective hplan nofun
      (.register hnew (Nat.lt_of_not_le hroom) hrev hjobs)
  rename_i current hcur
  split at h
  · rename_i hpres
    obtain ⟨jobs, delta, hrev, hjobs, hplan⟩ := planRegistration_eq_ok h
    rw [zero_add] at hplan
    obtain ⟨hoffline, hep, hslots, -⟩ := hpres
    exact planned_effective hplan nofun
      (.revive hcur hoffline hep hslots hrev hjobs)
  · exact planned_refused h nofun (subjectRevision_worker_some hcur).symm

lemma prepareDrainWorker_planned (h : m.prepareDrainWorker workerID epoch next = .ok plan) :
    Planned m index term next ⟨envelope, .drainWorker workerID epoch⟩ (.worker workerID) plan := by
  unfold prepareDrainWorker at h
  split at h
  · rename_i hnone
    exact planned_refused h nofun (subjectRevision_worker_none hnone).symm
  rename_i current hcur
  split at h
  · exact planned_refused h nofun (subjectRevision_worker_some hcur).symm
  rename_i hallow
  simp only [not_or, not_not] at hallow
  obtain ⟨rfl, helig⟩ := hallow
  obtain ⟨⟨jobs, delta⟩, hjobs, hplan⟩ := orImpossible_bind_eq_ok h
  exact planned_effective hplan nofun (.drain hcur helig hjobs)

lemma prepareDeactivateWorker_planned
    (h : m.prepareDeactivateWorker workerID epoch affected next = .ok plan) :
    Planned m index term next ⟨envelope, .deactivateWorker workerID epoch affected⟩
      (.worker workerID) plan := by
  unfold prepareDeactivateWorker at h
  split at h
  · rename_i hnone
    exact planned_refused h nofun (subjectRevision_worker_none hnone).symm
  rename_i current hcur
  split at h
  · exact planned_refused h nofun (subjectRevision_worker_some hcur).symm
  rename_i hallow
  simp only [not_or, not_not] at hallow
  obtain ⟨rfl, helig⟩ := hallow
  split at h
  · exact planned_refused h nofun (subjectRevision_worker_some hcur).symm
  rename_i jobs delta hjobs
  exact planned_effective h nofun (.deactivate hcur helig hjobs)

lemma prepareReplaceWorkerEpoch_planned {oldEpoch : WorkerEpoch} {target : WorkerRecord}
    (h : m.prepareReplaceWorkerEpoch workerID oldEpoch target affected next = .ok plan) :
    Planned m index term next ⟨envelope, .replaceWorkerEpoch workerID oldEpoch target affected⟩
      (.worker workerID) plan := by
  unfold prepareReplaceWorkerEpoch at h
  split at h
  · rename_i hnone
    exact planned_refused h nofun (subjectRevision_worker_none hnone).symm
  rename_i current hcur
  split at h
  · exact planned_refused h nofun (subjectRevision_worker_some hcur).symm
  rename_i hallow
  simp only [not_or, not_not] at hallow
  obtain ⟨rfl, hrev, hstate⟩ := hallow
  split at h
  · exact planned_refused h nofun (subjectRevision_worker_some hcur).symm
  rename_i jobs delta hjobs
  exact planned_effective h nofun (.replaceEpoch hcur hrev hstate hjobs)

/-! ## Client commands -/

lemma alreadySo_planned (h : Machine.alreadySo subject revision = .ok plan)
    (htarg : (∃ topology, command.target = .submitJob topology) ∨
      ∃ job expected, command.target = .cancelJob job expected)
    (hrev : revision = m.subjectRevision subject) : Planned m index term next command subject plan := by
  obtain ⟨result, hres, rfl⟩ := succeedWith_eq_ok h
  rw [hrev] at hres
  exact .already htarg hres

lemma prepareSubmitJob_planned {client : ClientEnvelope} {topology : TopologySpec}
    {validated : ValidatedTopology} (hident : envelope.identity = .inl client)
    (hvald : validateTopology topology = some validated)
    (h : m.prepareSubmitJob client.request (deriveJobID client.request validated.digest)
      validated.digest validated.canonical = .ok plan) :
    Planned m index term 1 ⟨envelope, .submitJob topology⟩
      (.jobControl (deriveJobID client.request validated.digest)) plan := by
  unfold prepareSubmitJob at h
  split at h
  · rename_i existing hexist
    have hrev := (subjectRevision_jobControl_some hexist).symm
    split at h
    · obtain ⟨result, hres, rfl⟩ := rejectWith_eq_ok h
      rw [hrev] at hres
      exact .collided rfl hres
    · exact alreadySo_planned h (.inl ⟨topology, rfl⟩) hrev
  rename_i hnew
  split at h
  · exact planned_full h (.inr rfl)
  rename_i hroom
  simp only [not_or, Nat.not_le] at hroom
  exact planned_effective h nofun (.submit hident hvald hnew hroom rfl)

lemma prepareCancelJob_planned {job : JobID} (h : m.prepareCancelJob job expectedRevision = .ok plan) :
    Planned m index term (expectedRevision + 1) ⟨envelope, .cancelJob job expectedRevision⟩
      (.jobControl job) plan := by
  unfold prepareCancelJob at h
  split at h
  · rename_i hnone
    exact planned_refused h nofun (subjectRevision_jobControl_none hnone).symm
  rename_i record hrec
  have hrev := (subjectRevision_jobControl_some hrec).symm
  split at h
  · exact alreadySo_planned h (.inr ⟨job, expectedRevision, rfl⟩) hrev
  split at h
  · exact planned_refused h nofun hrev
  rename_i hallow
  simp only [not_or, not_not, Bool.not_eq_true] at hallow
  obtain ⟨rfl, hlive, hmax⟩ := hallow
  exact planned_job h nofun hrec (.inl rfl) rfl (.cancel hlive hmax rfl)

/-! ## Coordinator -/

lemma prepareBeginCoordinator_planned {coordinator : U16} {nonce : Array16}
    (h : m.prepareBeginCoordinator index term coordinator nonce next = .ok plan) :
    Planned m index term next ⟨envelope, .beginCoordinatorEpoch coordinator nonce⟩ .coordinator plan := by
  simp only [prepareBeginCoordinator] at h
  split at h
  · cases h
  rename_i hrev
  simp only [ne_eq, not_not] at hrev
  split at h
  · rename_i hsame
    obtain ⟨hcur, hterm, hcoord, hnonce⟩ := hsame
    obtain ⟨result, hres, hplan⟩ := orImpossible_bind_eq_ok h
    cases hplan
    exact .begun rfl hrev hcur hterm hcoord hnonce hres
  split at h
  · rename_i hstale
    obtain ⟨result, hres, hplan⟩ := orImpossible_bind_eq_ok h
    cases hplan
    exact .outdated rfl hstale.1 hstale.2 hres
  rename_i hstale
  split at h
  · cases h
  rename_i hval
  obtain ⟨result, hres, hplan⟩ := orImpossible_bind_eq_ok h
  cases hplan
  refine .effective (.begin hrev ?_ (Bool.not_eq_false _ ▸ hval)) rfl hres
  rw [not_and_or, not_not, not_or, not_and_or] at hstale
  rcases hstale with hzero | ⟨hterm, hidx⟩
  · exact .inl hzero
  right
  by_cases hsame : m.coordinatorEpoch.term = term
  · refine .inr ⟨hsame, ?_⟩
    cases hidx with
    | inl hne => exact absurd hsame.symm hne
    | inr hle => exact BitVec.not_le.mp hle
  left
  bv_omega

/-! ## Job commands -/

lemma prepareRecordSourceEOF_planned {source : TaskID} {eof : U64}
    (h : m.prepareRecordSourceEOF source eof (m.subjectRevision (.sourceEOF source)) next = .ok plan) :
    Planned m index term next ⟨envelope, .recordSourceEOF source eof⟩ (.sourceEOF source) plan := by
  unfold prepareRecordSourceEOF at h
  split at h
  · exact planned_refused h nofun rfl
  rename_i record hrec
  split at h
  · exact planned_refused h nofun rfl
  rename_i hallow
  simp only [not_or, not_not] at hallow
  obtain ⟨hpend, hassign⟩ := hallow
  obtain ⟨topology, htopo, hplan⟩ := orImpossible_bind_eq_ok h
  split at hplan
  · exact planned_refused hplan nofun rfl
  rename_i heof
  exact planned_job hplan nofun hrec (.inr rfl) (add_zero _).symm
    (.recordEOF hpend hassign htopo (not_not.mp heof))

lemma prepareAdvanceCheckpoint_planned {report : CompletionReport} (h : m.prepareAdvanceCheckpoint report
      (m.subjectRevision (.sourceCheckpoint report.jobID report.source)) next = .ok plan) :
    Planned m index term next ⟨envelope, .advanceCheckpoint report⟩
      (.sourceCheckpoint report.jobID report.source) plan := by
  simp only [prepareAdvanceCheckpoint] at h
  split at h
  · exact planned_refused h nofun rfl
  rename_i record hrec
  split at h
  · exact planned_refused h nofun rfl
  rename_i hval
  split at h
  · exact planned_refused h nofun rfl
  rename_i hcurs
  exact planned_job h nofun hrec (.inr rfl) rfl
    (.advance (Bool.not_eq_false _ ▸ hval) (Bool.not_eq_false _ ▸ hcurs))

lemma prepareInstallAssignments_planned {assignment : AssignmentSet}
    (h : m.prepareInstallAssignments assignment
      (m.subjectRevision (.jobControl assignment.jobID)) next = .ok plan) :
    Planned m index term next ⟨envelope, .installAssignments assignment⟩
      (.jobControl assignment.jobID) plan := by
  simp only [prepareInstallAssignments] at h
  split at h
  · rename_i hnone
    exact planned_refused h nofun (subjectRevision_jobControl_none hnone).symm
  rename_i record hrec
  split at h
  · exact planned_refused h nofun rfl
  rename_i hallow
  simp only [not_or, not_not, Bool.not_eq_false, List.length_eq_zero_iff] at hallow
  obtain ⟨hpend, hassign, hmks, heofs⟩ := hallow
  obtain ⟨topology, htopo, hplan⟩ := orImpossible_bind_eq_ok h
  split at hplan
  · exact planned_refused hplan nofun rfl
  rename_i htarg
  simp only [not_or, not_not, Bool.not_eq_false] at htarg
  obtain ⟨hval, hbuild⟩ := htarg
  exact planned_job hplan nofun hrec (.inr rfl) (add_zero _).symm
    (.install hpend hassign hmks heofs htopo hval hbuild)

lemma prepareReplaceAssignments_planned {expectedDigest expectedMarkersDigest : Array32}
    {target : AssignmentSet}
    (h : m.prepareReplaceAssignments jobID expectedRevision expectedDigest expectedMarkersDigest
      target (m.subjectRevision (.jobControl jobID)) next = .ok plan) : Planned m index term next
      ⟨envelope, .replaceAssignments jobID expectedRevision expectedDigest expectedMarkersDigest target⟩
      (.jobControl jobID) plan := by
  unfold prepareReplaceAssignments at h
  split at h
  · exact planned_refused h nofun rfl
  rename_i record assignment hfnd
  simp only [Option.bind_eq_some_iff, Option.map_eq_some_iff, Prod.mk.injEq, exists_eq_right_right] at hfnd
  obtain ⟨hrec, hassign⟩ := hfnd
  split at h
  · exact planned_refused h nofun rfl
  rename_i hexp
  simp only [not_or, not_not, List.length_eq_zero_iff] at hexp
  obtain ⟨rfl, rfl, rfl, hmks⟩ := hexp
  obtain ⟨topology, htopo, hplan⟩ := orImpossible_bind_eq_ok h
  split at hplan
  · exact planned_refused hplan nofun rfl
  rename_i htarg
  simp only [not_or, Bool.not_eq_false] at htarg
  obtain ⟨hval, hrplcs, hcur⟩ := htarg
  obtain ⟨before, hbef, hplan⟩ := orImpossible_bind_eq_ok hplan
  obtain ⟨after, haft, hplan⟩ := orImpossible_bind_eq_ok hplan
  exact planned_job hplan nofun hrec (.inr rfl) (add_zero _).symm
    (.replace hassign hmks htopo hval hrplcs hcur hbef haft)

lemma prepareSealManifest_planned {manifest : ResultManifest} (h : m.prepareSealManifest manifest
      (m.subjectRevision (.resultManifest manifest.jobID manifest.sinkTask)) next = .ok plan) :
    Planned m index term next ⟨envelope, .sealManifest manifest⟩
      (.resultManifest manifest.jobID manifest.sinkTask) plan := by
  simp only [prepareSealManifest] at h
  split at h
  · exact planned_refused h nofun rfl
  rename_i record hrec
  split at h
  · exact planned_refused h nofun rfl
  rename_i hval
  exact planned_job h nofun hrec (.inr rfl) (add_zero _).symm
    (.sealManifest (Bool.not_eq_false _ ▸ hval))

lemma prepareTransitionJob_planned {origin target : JobLifecycle}
    (h : m.prepareTransitionJob jobID origin target (m.subjectRevision (.jobControl jobID)) next = .ok plan) :
    Planned m index term next ⟨envelope, .transitionJob jobID origin target⟩ (.jobControl jobID) plan := by
  unfold prepareTransitionJob at h
  split at h
  · exact planned_refused h nofun rfl
  rename_i record hrec
  split at h
  · exact planned_refused h nofun rfl
  rename_i hguards
  simp only [not_or, not_not, Bool.not_eq_false, List.length_eq_zero_iff] at hguards
  obtain ⟨rfl, hassign, hmks, hallow⟩ := hguards
  obtain ⟨before, hbef, hplan⟩ := orImpossible_bind_eq_ok h
  obtain ⟨after, haft, hplan⟩ := orImpossible_bind_eq_ok hplan
  exact planned_job hplan nofun hrec (.inr rfl) (add_zero _).symm
    (.transition hassign hmks hallow hbef haft)

lemma prepareFailJob_planned {report : JobFailureReport}
    (h : m.prepareFailJob report (m.subjectRevision (.jobControl report.jobID)) next = .ok plan) :
    Planned m index term next ⟨envelope, .failJob report⟩ (.jobControl report.jobID) plan := by
  simp only [prepareFailJob] at h
  split at h
  · exact planned_refused h nofun rfl
  rename_i record hrec
  split at h
  · exact planned_refused h nofun rfl
  rename_i hval
  split at h
  · exact planned_refused h nofun rfl
  rename_i hcurs
  obtain ⟨before, hbef, hplan⟩ := orImpossible_bind_eq_ok h
  obtain ⟨after, haft, hplan⟩ := orImpossible_bind_eq_ok hplan
  exact planned_job hplan nofun hrec (.inr rfl) rfl
    (.fail (Bool.not_eq_false _ ▸ hval) (Bool.not_eq_false _ ▸ hcurs) hbef haft)

/-- Whatever an internal command plans is one of those. -/
lemma Target.prepare_planned {target : Target} (h : target.prepare m index term next = .ok plan) :
    Planned m index term next ⟨envelope, target⟩ target.subject plan := by
  cases target with
  | beginCoordinatorEpoch => exact prepareBeginCoordinator_planned h
  | registerWorker => exact prepareRegisterWorker_planned h
  | drainWorker => exact prepareDrainWorker_planned h
  | deactivateWorker => exact prepareDeactivateWorker_planned h
  | replaceWorkerEpoch => exact prepareReplaceWorkerEpoch_planned h
  | submitJob | cancelJob => cases h
  | recordSourceEOF => exact prepareRecordSourceEOF_planned h
  | installAssignments => exact prepareInstallAssignments_planned h
  | replaceAssignments => exact prepareReplaceAssignments_planned h
  | advanceCheckpoint => exact prepareAdvanceCheckpoint_planned h
  | sealManifest => exact prepareSealManifest_planned h
  | transitionJob => exact prepareTransitionJob_planned h
  | failJob => exact prepareFailJob_planned h

/-- Every planned result has the one length all results have, so no result is ever replaced. -/
lemma Planned.result_length (h : Planned m index term next command subject plan) : plan.result.length = 65 := by
  cases h <;> exact marshalCommandResult_length ‹_›

lemma Planned.capResult_eq {named : SubjectKey} {epoch : CoordinatorEpoch}
    (h : Planned m index term next command subject plan) :
    Machine.capResult named revision epoch plan = .ok plan := by
  have hlen := h.result_length
  unfold capResult
  rw [if_neg (by rw [hlen]; decide)]

end Effects

end Crane.State
