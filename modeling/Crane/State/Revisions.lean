import Crane.State.Script

/-!
# Revisions

Each subject has a revision that commands are fenced with. Here is how an entry moves it
(`Applies.revision`): by one, if its command takes effect on the subject, and otherwise only the
revision of a job's control, by one, when the job is submitted or canceled or a worker it uses goes.
Two invariants follow. A command's expectation is always compared with the revision its subject
stands at, whether the engine takes it from the state or from the history (`Reachable.standing_eq`).
And no revision is above the last applied index, so that none overflows.
-/

namespace Crane.State

open Wire Data Model Machine Table Target State SubjectKey Bool BitVec Option

/-- A number that is not the greatest has a successor. -/
lemma toNat_succ {number : U64} (h : number ≠ allOnes 64) : (number + 1).toNat = number.toNat + 1 := by
  have hbd := number.isLt
  have hne : number.toNat ≠ 2 ^ 64 - 1 := by
    intro heq
    exact h (eq_of_toNat_eq (by rw [heq, toNat_allOnes]))
  rw [toNat_add]
  simp only [reduceToNat]
  omega

lemma succ_ne_zero {number : U64} (h : number ≠ allOnes 64) : number + 1 ≠ 0 := by
  intro hzero
  have hsucc := toNat_succ h
  rw [hzero] at hsucc
  cases hsucc

lemma ne_zero_of_above {bound number : U64} (h : bound < number) : number ≠ 0 := by
  rintro rfl
  exact BitVec.not_lt_zero h

/-! ## Subjects -/

/-- The subjects a command can name. -/
lemma SubjectKey.validate_cases {subject : SubjectKey} (h : subject.validate = true) :
    subject = .coordinator ∨ (∃ workerID, workerID ≠ 0 ∧ subject = .worker workerID) ∨
      (∃ job, job ≠ 0 ∧ subject = .jobControl job) ∨
      ∃ task : TaskID, task.jobID ≠ 0 ∧ (subject = .sourceEOF task ∨
        subject = .sourceCheckpoint task.jobID task ∨ subject = .resultManifest task.jobID task) := by
  obtain ⟨kind, job, task, workerID⟩ := subject
  cases kind <;> simp only [validate, and_eq_true, decide_eq_true_eq,
    JobID.validate_iff, TaskID.validate_iff, false_eq_true] at h
  case coordinator =>
    obtain ⟨⟨rfl, rfl⟩, rfl⟩ := h
    exact .inl rfl
  case worker =>
    obtain ⟨⟨hwkr, rfl⟩, rfl⟩ := h
    exact .inr (.inl ⟨workerID, hwkr, rfl⟩)
  case jobControl =>
    obtain ⟨⟨hjob, rfl⟩, rfl⟩ := h
    exact .inr (.inr (.inl ⟨job, hjob, rfl⟩))
  case sourceEOF =>
    obtain ⟨⟨⟨hjob, -⟩, rfl⟩, rfl⟩ := h
    exact .inr (.inr (.inr ⟨task, hjob, .inl rfl⟩))
  case sourceCheckpoint =>
    obtain ⟨⟨⟨hjob, -⟩, rfl⟩, rfl⟩ := h
    exact .inr (.inr (.inr ⟨task, hjob, .inr (.inl rfl)⟩))
  case resultManifest =>
    obtain ⟨⟨⟨hjob, -⟩, rfl⟩, rfl⟩ := h
    exact .inr (.inr (.inr ⟨task, hjob, .inr (.inr rfl)⟩))

/-! The revisions one job's entry holds. -/

def controlRevision (job : Option JobRecord) : U64 := (job.map (·.jobControlRevision)).getD 0

def eofRevision (job : Option JobRecord) (task : TaskID) : U64 :=
  ((job.bind (·.sourceEOFs.find? task)).map (·.revision)).getD 0

def checkpointRevision (job : Option JobRecord) (task : TaskID) : U64 :=
  ((job.bind (·.checkpoints.find? task)).map (·.revision)).getD 0

def manifestRevision (job : Option JobRecord) (task : TaskID) : U64 :=
  ((job.bind (·.manifests.find? task)).map (·.manifestRevision)).getD 0

lemma subjectRevision_jobControl (m : Machine) (job : JobID) :
    m.subjectRevision (.jobControl job) = controlRevision (m.jobs.find? job) := rfl

lemma subjectRevision_sourceEOF (m : Machine) (task : TaskID) :
    m.subjectRevision (.sourceEOF task) = eofRevision (m.jobs.find? task.jobID) task := rfl

lemma subjectRevision_sourceCheckpoint (m : Machine) (job : JobID) (task : TaskID) :
    m.subjectRevision (.sourceCheckpoint job task) = checkpointRevision (m.jobs.find? job) task := rfl

lemma subjectRevision_resultManifest (m : Machine) (job : JobID) (task : TaskID) :
    m.subjectRevision (.resultManifest job task) = manifestRevision (m.jobs.find? job) task := rfl

section Steps

variable [Contract]

/-- The commands that move the control revision of a job without naming it as their subject: its
submission, its cancellation, and the loss of a worker's incarnation. -/
inductive MovesControl (command : Command) (key : JobID) : Prop where
  | submission {client : ClientEnvelope} {topology : TopologySpec} {validated : ValidatedTopology}
    (htarget : command.target = .submitJob topology)
    (hidentity : command.envelope.identity = .inl client)
    (hvalidated : validateTopology topology = some validated)
    (hkey : key = deriveJobID client.request validated.digest)
  | cancellation {expected : U64} (htarget : command.target = .cancelJob key expected)
  | invalidation {kind : WorkerInvalidationKind} (hkind : command.target.kind = kind.command)

variable {m m' : Machine} {entry : LogEntry} {result : Bytes} {key : JobID}
variable {next : U64} {command : Command} {job job' : JobRecord} {old new : Option JobRecord}
variable {cursor : Option (WorkerEventKey × WorkerEventCursor)} {growth : Int}

omit [Contract] in
/-- An invalidation moves the control revision of a job or leaves it alone. -/
lemma invalidateJob_revision {kind : WorkerInvalidationKind} {revision : U64} {workerID : U16}
    {epoch : WorkerEpoch} {affected : Option AffectedAssignment}
    (h : m.invalidateJob kind revision workerID epoch key job = some (job', affected)) :
    (job'.jobControlRevision = job.jobControlRevision ∨ (job.jobControlRevision ≠ allOnes 64 ∧
        job'.jobControlRevision = job.jobControlRevision + 1)) ∧
      job'.sourceEOFs = job.sourceEOFs ∧ job'.checkpoints = job.checkpoints ∧
      job'.manifests = job.manifests := by
  cases invalidateJob_eq_some h with
  | spared => exact ⟨.inl rfl, rfl, rfl, rfl⟩
  | marked _ _ hmax => exact ⟨.inr ⟨hmax, rfl⟩, rfl, rfl, rfl⟩

/-- How a job's entry moves the control revision. -/
lemma JobStep.controlRevision (h : JobStep m next command key old new) :
    controlRevision new = controlRevision old ∨
      (command.target.subject = .jobControl key ∧ controlRevision new = next) ∨
      (MovesControl command key ∧ controlRevision old ≠ allOnes 64 ∧
        controlRevision new = controlRevision old + 1) := by
  cases h with
  | kept | pruned => exact .inl rfl
  | submitted htarg hident hvald hkey => exact .inr (.inr ⟨.submission htarg hident hvald hkey, by decide, rfl⟩)
  | invalidated _ hcmd hinv =>
    obtain ⟨hrev, -⟩ := invalidateJob_revision hinv
    cases hrev with
    | inl hkept => exact .inl hkept
    | inr hmvd => exact .inr (.inr ⟨.invalidation hcmd, hmvd⟩)
  | changed hchg =>
    cases hchg with
    | cancel _ hmax hnext => exact .inr (.inr ⟨.cancellation rfl, hmax, hnext⟩)
    | install | replace | transition | fail => exact .inr (.inl ⟨rfl, rfl⟩)
    | recordEOF | advance | sealManifest => exact .inl rfl

omit [Contract] in
/-- A table entry's number after an insertion, if the inserted entry has that number. -/
lemma revision_insert {K V : Type} [Ranked K] [DecidableEq K] (table : Table K V)
    (revision : V → U64) (inserted : K) (value : V) (key : K) :
    (((table.insert inserted value).find? key).map revision).getD 0 =
      if inserted = key then revision value else ((table.find? key).map revision).getD 0 := by
  by_cases heq : inserted = key
  · rw [if_pos heq, heq, find?_insert_self]
    rfl
  · rw [if_neg heq, find?_insert_ne _ _ heq]

section

variable (h : JobStep m next command key old new)

include h

lemma JobStep.eofRevision (task : TaskID) : eofRevision new task = eofRevision old task ∨
      (command.target.subject = .sourceEOF task ∧ key = task.jobID ∧ eofRevision new task = next) := by
  cases h with
  | kept | submitted | pruned => exact .inl rfl
  | invalidated _ _ hinv =>
    left
    simp only [eofRevision, bind_some, (invalidateJob_revision hinv).2.1]
  | changed hchg =>
    cases hchg with
    | recordEOF _ _ _ _ =>
      simp only [eofRevision, bind_some, revision_insert]
      split
      · rename_i heq
        exact .inr ⟨by rw [← heq]; rfl, by rw [← heq], rfl⟩
      · exact .inl rfl
    | _ => exact .inl rfl

lemma JobStep.checkpointRevision (task : TaskID) : checkpointRevision new task = checkpointRevision old task ∨
      (command.target.subject = .sourceCheckpoint key task ∧ checkpointRevision new task = next) := by
  cases h with
  | kept | submitted | pruned => exact .inl rfl
  | invalidated _ _ hinv =>
    left
    simp only [checkpointRevision, bind_some, (invalidateJob_revision hinv).2.2.1]
  | changed hchg =>
    cases hchg with
    | advance _ _ =>
      simp only [checkpointRevision, bind_some, revision_insert]
      split
      · rename_i heq
        exact .inr ⟨by rw [← heq]; rfl, rfl⟩
      · exact .inl rfl
    | _ => exact .inl rfl

lemma JobStep.manifestRevision (task : TaskID) : manifestRevision new task = manifestRevision old task ∨
      (command.target.subject = .resultManifest key task ∧ manifestRevision new task = next) := by
  cases h with
  | kept | submitted | pruned => exact .inl rfl
  | invalidated _ _ hinv =>
    left
    simp only [manifestRevision, bind_some, (invalidateJob_revision hinv).2.2.2]
  | changed hchg =>
    cases hchg with
    | sealManifest hval =>
      simp only [manifestValid, and_eq_true, decide_eq_true_eq] at hval
      simp only [manifestRevision, bind_some, revision_insert]
      split
      · rename_i heq
        exact .inr ⟨by rw [← heq]; rfl, hval.1.1.1.2⟩
      · exact .inl rfl
    | _ => exact .inl rfl

end

/-! ## Effective commands -/

variable {index term : U64} {changed : Machine} {subject : SubjectKey}

section

variable (h : Effect m index term next command changed growth)

include h

lemma Effect.coordinatorRevision : changed.coordinatorRevision = m.coordinatorRevision ∨
      (command.target.subject = .coordinator ∧ changed.coordinatorRevision = next) := by
  cases h with
  | begin => exact .inr ⟨rfl, rfl⟩
  | job => exact .inl (by simp [storeJob])
  | _ => exact .inl rfl

/-- A worker command stores one worker, at the next revision. -/
lemma Effect.workers :
    changed.workers = m.workers ∨ ∃ workerID worker, command.target.subject = .worker workerID ∧
      worker.revision = next ∧ changed.workers = m.workers.insert workerID worker := by
  cases h with
  | register _ _ hrev | revive _ _ _ _ hrev | replaceEpoch _ hrev => exact .inr ⟨_, _, rfl, hrev, rfl⟩
  | drain | deactivate => exact .inr ⟨_, _, rfl, rfl, rfl⟩
  | job => exact .inl (by simp [storeJob])
  | _ => exact .inl rfl

lemma Effect.workerRevision (workerID : U16) :
    changed.subjectRevision (.worker workerID) = m.subjectRevision (.worker workerID) ∨
      (command.target.subject = .worker workerID ∧ changed.subjectRevision (.worker workerID) = next) := by
  rw [subjectRevision_worker, subjectRevision_worker]
  obtain hkept | ⟨stored, worker, hsubj, hrev, hsto⟩ := h.workers
  · exact .inl (by rw [hkept])
  rw [hsto, revision_insert]
  split
  · rename_i heq
    exact .inr ⟨heq ▸ hsubj, hrev⟩
  · exact .inl rfl

end

/-- How an effective command moves the revision of a subject. -/
lemma Effect.revision (hkeyed : Keyed m) (h : Effect m index term next command changed growth)
    (hsubj : subject.validate = true) : changed.subjectRevision subject = m.subjectRevision subject ∨
      (command.target.subject = subject ∧ changed.subjectRevision subject = next) ∨
      ((∃ key, subject = .jobControl key ∧ MovesControl command key) ∧
        m.subjectRevision subject ≠ allOnes 64 ∧
        changed.subjectRevision subject = m.subjectRevision subject + 1) := by
  obtain rfl | ⟨workerID, -, rfl⟩ | ⟨job, -, rfl⟩ | ⟨task, -, rfl | rfl | rfl⟩ := validate_cases hsubj
  · cases h.coordinatorRevision with
    | inl hkept => exact .inl hkept
    | inr hmvd => exact .inr (.inl hmvd)
  · cases h.workerRevision workerID with
    | inl hkept => exact .inl hkept
    | inr hmvd => exact .inr (.inl hmvd)
  · obtain hkept | hmvd | ⟨hcmd, hmax, hmvd⟩ := (h.jobStep hkeyed job).controlRevision
    · exact .inl hkept
    · exact .inr (.inl hmvd)
    · exact .inr (.inr ⟨⟨job, rfl, hcmd⟩, hmax, hmvd⟩)
  · obtain hkept | ⟨hcmd, -, hmvd⟩ := (h.jobStep hkeyed task.jobID).eofRevision task
    · exact .inl hkept
    · exact .inr (.inl ⟨hcmd, hmvd⟩)
  · cases (h.jobStep hkeyed task.jobID).checkpointRevision task with
    | inl hkept => exact .inl hkept
    | inr hmvd => exact .inr (.inl hmvd)
  cases (h.jobStep hkeyed task.jobID).manifestRevision task with
  | inl hkept => exact .inl hkept
  | inr hmvd => exact .inr (.inl hmvd)

/-- A command on one job leaves its subject at the revision it answers with. -/
lemma JobChange.revision_self (h : JobChange m next command key job job' cursor growth)
    (hintl : command.target.subject ≠ .unbound) (hjob' : changed.jobs.find? key = some job') :
    changed.subjectRevision command.target.subject = next := by
  cases h with
  | cancel => exact absurd rfl hintl
  | install | replace | transition | fail => rw [subject, subjectRevision_jobControl, hjob']; rfl
  | recordEOF =>
    rw [subject, subjectRevision_sourceEOF, hjob', eofRevision, bind_some, revision_insert, if_pos rfl]
  | advance =>
    rw [subject, subjectRevision_sourceCheckpoint, hjob', checkpointRevision,
      bind_some, revision_insert, if_pos rfl]
  | sealManifest hval =>
    simp only [manifestValid, and_eq_true, decide_eq_true_eq] at hval
    rw [subject, subjectRevision_resultManifest, hjob', manifestRevision,
      bind_some, revision_insert, if_pos rfl]
    exact hval.1.1.1.2

/-- An internal command leaves its subject at the revision it answers with. -/
lemma Effect.revision_self (hkeyed : Keyed m) (h : Effect m index term next command changed growth)
    (hintl : command.target.subject ≠ .unbound) : changed.subjectRevision command.target.subject = next := by
  have hwkr : ∀ workerID (worker : WorkerRecord), worker.revision = next →
      changed.workers = m.workers.insert workerID worker →
      changed.subjectRevision (.worker workerID) = next := by
    intro workerID worker hrev hworkers
    rw [subjectRevision_worker, hworkers, revision_insert, if_pos rfl, hrev]
  cases h with
  | begin => rfl
  | register _ _ hrev | revive _ _ _ _ hrev | replaceEpoch _ hrev => exact hwkr _ _ hrev rfl
  | drain hcur helig hjobs =>
    rename_i envelope workerID current jobs
    exact hwkr _ { current with state := .draining, revision := next } rfl rfl
  | deactivate hcur helig hjobs =>
    rename_i envelope workerID current affected jobs
    exact hwkr _ { current with state := .offline, revision := next } rfl rfl
  | submit => exact absurd rfl hintl
  | job hjob hplc hchg =>
    rename_i key place job job' cursor growth'
    refine hchg.revision_self hintl ?_
    have hplc : place = key := by
      rw [hkeyed key job hjob] at hplc
      exact hplc.elim id id
    rw [moveCursor_jobs, storeJob, hplc, find?_insert_self]

/-! ## Histories stand where the state stands -/

omit [Contract] in
lemma retained_storeSubject (m : Machine) (stored subject : SubjectKey) (history : SubjectHistory)
    (size : Nat) : (m.storeSubject stored history size).retained subject =
      if stored = subject then history else m.retained subject := by
  unfold retained storeSubject
  by_cases heq : stored = subject
  · rw [if_pos heq, heq, find?_insert_self]
    rfl
  · rw [if_neg heq, find?_insert_ne _ _ heq]

/-- The histories of the coordinator and of the workers hold the revision the state holds, and the
history of the coordinator names the fence that is in force. -/
structure Standing (m : Machine) : Prop where
  coordinator : (m.retained .coordinator).revision = m.coordinatorRevision
  worker : ∀ workerID, (m.retained (.worker workerID)).revision = m.subjectRevision (.worker workerID)
  fence : m.coordinatorEpoch ≠ .zero → (m.subjects.find? .coordinator).isSome ∧
      (m.retained .coordinator).appliedTarget = (Target.beginCoordinatorEpoch
        m.coordinatorEpoch.coordinator m.coordinatorEpoch.nonce).appliedBytes m.coordinatorEpoch.term ∧
      (m.retained .coordinator).appliedRevision = m.coordinatorRevision

section

omit [Contract]

/-- A command is compared with the revision its subject stands at. -/
lemma Standing.standing_eq (h : Standing m) (target : Target) :
    m.standing target = m.subjectRevision target.subject := by
  cases target <;> first
    | exact h.coordinator
    | exact h.worker _
    | rfl

lemma appliedBytes_begin_ne_nil (term : U64) (coordinator : U16) (nonce : Array16) :
    (Target.beginCoordinatorEpoch coordinator nonce).appliedBytes term ≠ [] := by
  intro h
  have hlen := congrArg List.length h
  simp [appliedBytes] at hlen

/-- The case that a `BeginCoordinatorEpoch` finds its own fence in force is covered by the
repetition rule, which is tried first. -/
lemma Standing.not_begun (h : Standing m) {coordinator : U16} {nonce : Array16}
    (htarg : command.target = .beginCoordinatorEpoch coordinator nonce)
    (hcur : m.coordinatorEpoch ≠ .zero) (hterm : m.coordinatorEpoch.term = term)
    (hcoord : m.coordinatorEpoch.coordinator = coordinator) (hnonce : m.coordinatorEpoch.nonce = nonce) :
    (m.subjects.find? command.target.subject).isSome ∧ (m.retained command.target.subject).appliedTarget ≠ [] ∧
      (m.retained command.target.subject).appliedTarget = command.target.appliedBytes term ∧
      (m.retained command.target.subject).appliedRevision = m.standing command.target := by
  obtain ⟨hknw, happd, hrev⟩ := h.fence hcur
  rw [hterm, hcoord, hnonce] at happd
  rw [h.standing_eq, htarg]
  refine ⟨hknw, ?_, happd, hrev⟩
  rw [show (beginCoordinatorEpoch coordinator nonce).subject = .coordinator from rfl, happd]
  exact appliedBytes_begin_ne_nil term coordinator nonce

/-- A refused or repeated command stores a history that stands where the state stands and names the
same applied command. -/
lemma Standing.store (h : Standing m) {target : Target} {history : SubjectHistory} {size : Nat}
    (hrev : history.revision = m.standing target)
    (happd : history.appliedTarget = (m.retained target.subject).appliedTarget)
    (happl : history.appliedRevision = (m.retained target.subject).appliedRevision) :
    Standing (m.storeSubject target.subject history size) := by
  rw [h.standing_eq] at hrev
  refine ⟨?_, ?_, ?_⟩
  · rw [retained_storeSubject]
    split
    · rename_i heq
      rw [hrev, heq]
      rfl
    · exact h.coordinator
  · intro workerID
    rw [retained_storeSubject]
    split
    · rename_i heq
      rw [hrev, heq]
      rfl
    · exact h.worker workerID
  intro hcur
  obtain ⟨hknw, hfen⟩ := h.fence hcur
  rw [retained_storeSubject]
  constructor
  · unfold storeSubject
    by_cases heq : target.subject = .coordinator
    · rw [heq, find?_insert_self]
      rfl
    rw [find?_insert_ne _ _ heq]
    exact hknw
  split
  · rename_i heq
    rw [happd, happl, heq]
    exact hfen
  · exact hfen

end

lemma Effect.coordinatorEpoch (h : Effect m index term next command changed growth) :
    (changed.coordinatorEpoch = m.coordinatorEpoch ∧ command.target.subject ≠ .coordinator) ∨
      ∃ coordinator nonce, command.target = .beginCoordinatorEpoch coordinator nonce ∧
        changed.coordinatorEpoch = ⟨term, index, coordinator, nonce⟩ ∧
        CoordinatorEpoch.validate ⟨term, index, coordinator, nonce⟩ = true ∧
        (m.coordinatorEpoch = .zero ∨ m.coordinatorEpoch.term < term ∨
          (m.coordinatorEpoch.term = term ∧ m.coordinatorEpoch.beginIndex < index)) := by
  cases h with
  | begin _ hltr hval => exact .inr ⟨_, _, rfl, rfl, hval, hltr⟩
  | job _ _ hchg =>
    left
    constructor
    · simp [storeJob]
    · cases hchg <;> (intro h; cases h)
  | _ => exact .inl ⟨rfl, fun h => by cases h⟩

lemma Standing.advance (h : Standing m) (hkeyed : Keyed m) {internal : InternalEnvelope}
    {size : Nat} (hintl : command.target.subject ≠ .unbound)
    (heff : Effect m index term (m.standing command.target + 1) command changed growth) :
    Standing (changed.storeSubject command.target.subject ((m.resumed command.target).advance internal
      command.target.bytes (command.target.appliedBytes term) result) size) := by
  have hself := heff.revision_self hkeyed hintl
  have hret : ∀ subject, changed.retained subject = m.retained subject := by
    intro subject
    simp only [retained, heff.sameHistories.subjects]
  refine ⟨?_, ?_, ?_⟩
  · rw [retained_storeSubject]
    split
    · rename_i heq
      rw [heq] at hself
      exact hself.symm
    rename_i hne
    rw [hret, h.coordinator]
    obtain hkept | ⟨hsubj, -⟩ := heff.coordinatorRevision
    · exact hkept.symm
    · exact absurd hsubj hne
  · intro workerID
    rw [retained_storeSubject]
    split
    · rename_i heq
      rw [heq] at hself
      exact hself.symm
    rename_i hne
    rw [hret, h.worker]
    obtain hkept | ⟨hsubj, -⟩ := heff.workerRevision workerID
    · exact hkept.symm
    · exact absurd hsubj hne
  intro hcur
  rw [retained_storeSubject]
  obtain ⟨hkept, hne⟩ | ⟨coordinator, nonce, htarg, hep, -, -⟩ := heff.coordinatorEpoch
  · have hfen := h.fence (fun hzero => hcur (hkept.trans hzero))
    have hrev : changed.coordinatorRevision = m.coordinatorRevision := by
      obtain hsame | ⟨hsubj, -⟩ := heff.coordinatorRevision
      · exact hsame
      · exact absurd hsubj hne
    rw [if_neg hne, hret]
    unfold storeSubject
    rw [find?_insert_ne _ _ hne, heff.sameHistories.subjects]
    simp only [hkept, hrev]
    exact hfen
  -- the new fence is the one the history is stored with
  have hsubj : command.target.subject = .coordinator := by rw [htarg]; rfl
  rw [hsubj] at hself
  rw [if_pos hsubj]
  unfold storeSubject
  rw [hsubj, find?_insert_self]
  refine ⟨rfl, ?_, hself.symm⟩
  simp only [hep, htarg]
  rfl

lemma Command.internal_subject {internal : InternalEnvelope} (hval : command.validate = true)
    (hident : command.envelope.identity = .inr internal) :
    command.target.subject.validate = true ∧ internal.subject = command.target.subject ∧
      command.target.subject ≠ .unbound := by
  simp only [Command.validate, Envelope.validate, hident, and_eq_true, decide_eq_true_eq]
    at hval
  obtain ⟨⟨⟨-, -, hsubj⟩, -⟩, ⟨heq, -⟩, -⟩ := hval
  rw [heq] at hsubj
  refine ⟨hsubj, heq, ?_⟩
  intro hunbound
  rw [hunbound] at hsubj
  cases hsubj

omit [Contract] in
/-- Nothing but histories and fences matters. -/
lemma Standing.congr (h : Standing m) (hsubj : m'.subjects = m.subjects)
    (hrev : m'.coordinatorRevision = m.coordinatorRevision) (hep : m'.coordinatorEpoch = m.coordinatorEpoch)
    (hworkers : ∀ workerID, m'.subjectRevision (.worker workerID) = m.subjectRevision (.worker workerID)) :
    Standing m' := by
  have hret : ∀ subject, m'.retained subject = m.retained subject := by
    intro subject
    simp only [retained, hsubj]
  refine ⟨?_, ?_, ?_⟩
  · rw [hret, hrev]
    exact h.coordinator
  · intro workerID
    rw [hret, hworkers]
    exact h.worker workerID
  rw [hret, hrev, hep, hsubj]
  exact h.fence

lemma Applies.standing (hkeyed : Keyed m) (hm : Standing m) (h : Applies m entry result m') : Standing m' := by
  obtain ⟨command, applied, hdec, hval, hidx, hterm, houtc, rfl⟩ := h.outcome
  suffices hall : Standing applied from hall.congr rfl rfl rfl (fun _ => rfl)
  cases houtc with
  | client _ hjob houtc =>
    cases houtc with
    | answered => exact hm.congr rfl rfl rfl (fun _ => rfl)
    | effected heff =>
      -- a client's command is on no worker and not on the coordinator
      have hunbound : command.target.subject = .unbound := by
        obtain ⟨topology, validated, htarg, -⟩ | ⟨expected, htarg⟩ := hjob <;> rw [htarg] <;> rfl
      refine hm.congr heff.sameHistories.subjects ?_ ?_ ?_
      · obtain hkept | ⟨hsubj, -⟩ := heff.coordinatorRevision
        · exact hkept
        rw [hunbound] at hsubj
        cases hsubj
      · obtain ⟨hkept, -⟩ | ⟨coordinator, nonce, htarg, -⟩ := heff.coordinatorEpoch
        · exact hkept
        rw [htarg] at hunbound
        cases hunbound
      intro workerID
      obtain hkept | ⟨hsubj, -⟩ := heff.workerRevision workerID
      · exact hkept
      rw [hunbound] at hsubj
      cases hsubj
    | _ => exact hm
  | internal hident houtc =>
    cases houtc with
    | recalled | mismatched | refused | outdated => exact hm.store rfl rfl rfl
    | begun _ htarg hnew hcur hterm hcoord hnonce =>
      exact absurd (hm.not_begun htarg hcur hterm hcoord hnonce) hnew
    | effected _ _ _ heff => exact hm.advance hkeyed (Command.internal_subject hval hident).2.2 heff
    | _ => exact hm

lemma Reachable.standing (h : Reachable m) : Standing m := by
  refine h.induct ?_ ?_
  · exact ⟨rfl, fun _ => rfl, fun hcur => absurd rfl hcur⟩
  intro m entry result m' hreach hm happs
  exact happs.standing hreach.keyed hm

/-! ## How an entry moves a revision -/

/-- Client commands name no subject. -/
lemma Command.client_target {client : ClientEnvelope} (hval : command.validate = true)
    (hident : command.envelope.identity = .inl client) : ((∃ topology, command.target = .submitJob topology) ∨
      ∃ job expected, command.target = .cancelJob job expected) ∧ command.target.subject = .unbound := by
  simp only [Command.validate, hident, and_eq_true] at hval
  obtain ⟨-, htarg⟩ := hval
  revert htarg
  cases command.target <;> intro htarg <;> first
    | exact ⟨.inl ⟨_, rfl⟩, rfl⟩
    | exact ⟨.inr ⟨_, _, rfl⟩, rfl⟩
    | cases htarg

/-- The command moves the revision of that subject, as its own or as a job's control. -/
def Command.moves (command : Command) (subject : SubjectKey) : Prop :=
  command.target.subject = subject ∨ ∃ key, subject = .jobControl key ∧ MovesControl command key

lemma TakesEffect.revision (hm : Reachable m)
    (h : TakesEffect m entry m' command next changed growth) (hsubj : subject.validate = true) :
    m'.subjectRevision subject = m.subjectRevision subject ∨
      (command.moves subject ∧ m.subjectRevision subject ≠ allOnes 64 ∧
        m'.subjectRevision subject = m.subjectRevision subject + 1) := by
  have hsame : m'.subjectRevision subject = changed.subjectRevision subject := by
    simp only [subjectRevision, h.same.coordinatorRevision, h.same.workers, h.same.jobs]
  rw [hsame]
  obtain hkept | ⟨hself, hmvd⟩ | ⟨hctrl, hmax, hmvd⟩ := h.effect.revision hm.keyed hsubj
  · exact .inl hkept
  · right
    cases hident : command.envelope.identity with
    | inl =>
      rw [(Command.client_target h.valid hident).2] at hself
      subst hself
      cases hsubj
    | inr internal =>
      obtain ⟨-, -, hmax, hnext⟩ := h.internal internal hident
      rw [hm.standing.standing_eq, hself] at hmax hnext
      exact ⟨.inl hself, hmax, hmvd.trans hnext⟩
  · exact .inr ⟨.inr hctrl, hmax, hmvd⟩

omit [Contract] in
lemma SameState.subjectRevision (h : SameState m m') (subject : SubjectKey) :
    m'.subjectRevision subject = m.subjectRevision subject := by
  simp only [Machine.subjectRevision, h.coordinatorRevision, h.workers, h.jobs]

lemma Applies.revision (hm : Reachable m) (h : Applies m entry result m') (hsubj : subject.validate = true) :
    m'.subjectRevision subject = m.subjectRevision subject ∨ (m.subjectRevision subject ≠ allOnes 64 ∧
        m'.subjectRevision subject = m.subjectRevision subject + 1) := by
  obtain hsame | ⟨command, next, changed, growth, heff⟩ := h.cases
  · exact .inl (hsame.subjectRevision subject)
  obtain hkept | ⟨-, hmvd⟩ := heff.revision hm hsubj
  · exact .inl hkept
  · exact .inr hmvd

/-- Revisions only grow. -/
lemma Run.revision_le (hm : Reachable m) {log : List LogEntry} (h : Run m log m')
    (hsubj : subject.validate = true) : m.subjectRevision subject ≤ m'.subjectRevision subject := by
  induction h with
  | start => exact BitVec.le_refl _
  | next hrun hstep ih =>
    obtain hkept | ⟨hmax, hmvd⟩ := hstep.revision (hm.run hrun) hsubj
    · rw [hkept]
      exact ih
    rw [hmvd, le_def, toNat_succ hmax]
    exact Nat.le_succ_of_le ih

/-- A revision counts entries, so it is not above the index of the last one. -/
lemma Reachable.revision_le (h : Reachable m) (hsubj : subject.validate = true) :
    m.subjectRevision subject ≤ m.lastAppliedIndex := by
  refine h.induct (P := fun m => m.subjectRevision subject ≤ m.lastAppliedIndex) ?_ ?_
  · obtain rfl | ⟨workerID, -, rfl⟩ | ⟨job, -, rfl⟩ | ⟨task, -, rfl | rfl | rfl⟩ :=
      validate_cases hsubj <;> exact BitVec.le_refl _
  intro m entry result m' hreach hm happs
  obtain ⟨hlast, hltr⟩ := happs.index
  rw [hlast]
  obtain hkept | ⟨hmax, hmvd⟩ := happs.revision hreach hsubj
  · rw [hkept]
    bv_omega
  rw [hmvd, le_def, toNat_succ hmax]
  exact Nat.succ_le_of_lt (Nat.lt_of_le_of_lt hm hltr)

/-- A revision never falls and is never above the index of the last entry. -/
theorem revisions_bounded (hm : Reachable m) {log : List LogEntry} (h : Run m log m')
    (hsubj : subject.validate = true) : m.subjectRevision subject ≤ m'.subjectRevision subject ∧
      m'.subjectRevision subject ≤ m'.lastAppliedIndex :=
  ⟨h.revision_le hm hsubj, (hm.run h).revision_le hsubj⟩

end Steps

attribute [local instance] sampleContract in
theorem revisions_bounded_registered : ∃ log m, Run .new log m ∧ m.coordinatorRevision = 1 ∧
    m.subjectRevision .coordinator ≤ m.lastAppliedIndex := by
  obtain ⟨log, m, hrun, hone, -⟩ := Sample.registered_run
  exact ⟨log, m, hrun, hone, (revisions_bounded .new hrun rfl).2⟩

end Crane.State
