import Crane.State.Outcomes

/-!
# One step, job by job

What an applied entry does to each single job: `JobStep` is the whole list of possibilities, and
`Applies.jobStep` says that there is no other. It needs that every job is stored under its own
identifier, which is the first invariant (`Keyed`). The rule by which all later invariants are
proved is `Reachable.induct`.
-/

namespace Crane.State

open Wire Data Model Option Machine Table

variable {kind : WorkerInvalidationKind} {revision next : U64} {epoch : WorkerEpoch}
variable {presented : List AffectedAssignment} {key : JobID} {job job' : JobRecord}
variable {affected : Option AffectedAssignment} {changed : Machine}

/-! ## What worker commands do to all jobs -/

lemma resizeJob_eq_some {record candidate : JobRecord} {growth : Int}
    (h : Machine.resizeJob record candidate = some growth) :
    (jobBytes candidate : Int) = jobBytes record + growth := by
  unfold resizeJob at h
  split at h
  · rename_i heq
    obtain rfl := some.inj h
    rw [heq]
    omega
  simp only [bind_eq_some, estimateJobRecordBytes_eq_some] at h
  obtain ⟨before, ⟨hbef, -⟩, after, ⟨haft, -⟩, hgrw⟩ := h
  obtain rfl := some.inj hgrw
  rw [hbef, haft, signedSizeDelta]
  omega

section Jobs

variable {m : Machine} {workerID : U16} {jobs : Table JobID JobRecord} {growth : Int}

/-- A registration or a drain prunes every job. -/
lemma prepareConsumedInvalidationPrune_eq_some
    (h : m.prepareConsumedInvalidationPrune workerID = some (jobs, growth)) :
    (∀ key, jobs.find? key = (m.jobs.find? key).map (m.prunedJob workerID key)) ∧
      ((jobs.sum fun _ => jobBytes : Nat) : Int) = (m.jobs.sum fun _ => jobBytes) + growth := by
  simp only [prepareConsumedInvalidationPrune, bind_eq_some, some.injEq, Prod.mk.injEq] at h
  obtain ⟨outcomes, houtcomes, rfl, rfl⟩ := h
  constructor
  · intro key
    have hfind := find?_traverse houtcomes key
    rw [find?_map]
    cases hjob : m.jobs.find? key with
    | none =>
      rw [hjob, map_none, map_eq_none_iff] at hfind
      rw [hfind]
      rfl
    | some =>
      rw [hjob, map_some, map_eq_some_iff] at hfind
      obtain ⟨outcome, houtc, hstep⟩ := hfind
      obtain ⟨size, -, hpair⟩ := bind_eq_some_iff.mp hstep.symm
      rw [houtc, ← some.inj hpair]
      rfl
  rw [sum_map]
  refine sum_traverse houtcomes (fun _ => jobBytes) (fun _ outcome => jobBytes outcome.1)
    (fun _ outcome => outcome.2) ?_
  intro key job outcome hstep
  obtain ⟨size, hsize, hpair⟩ := bind_eq_some_iff.mp hstep
  rw [← some.inj hpair]
  exact resizeJob_eq_some hsize

/-- An invalidation goes through every job, and is counted. -/
lemma prepareWorkerInvalidation_eq_some
    (h : m.prepareWorkerInvalidation kind revision workerID epoch presented = some (jobs, growth)) :
    (∀ key, m.jobs.find? key = none → jobs.find? key = none) ∧
      (∀ key job, m.jobs.find? key = some job → ∃ job' affected,
        m.invalidateJob kind revision workerID epoch key job = some (job', affected) ∧
          jobs.find? key = some job') ∧
      ((jobs.sum fun _ => jobBytes : Nat) : Int) = (m.jobs.sum fun _ => jobBytes) + growth := by
  simp only [prepareWorkerInvalidation, bind_eq_some, exists_guard, some.injEq, Prod.mk.injEq] at h
  obtain ⟨outcomes, houtcomes, rfl, rfl, rfl⟩ := h
  refine ⟨?_, ?_, ?_⟩
  · intro key hnone
    have hfind := find?_traverse houtcomes key
    rw [hnone, map_none, map_eq_none_iff] at hfind
    rw [find?_map, hfind]
    rfl
  · intro key job hjob
    have hfind := find?_traverse houtcomes key
    rw [hjob, map_some, map_eq_some_iff] at hfind
    obtain ⟨outcome, houtc, hstep⟩ := hfind
    obtain ⟨⟨job', affected⟩, hinv, hrest⟩ := bind_eq_some_iff.mp hstep.symm
    obtain ⟨size, -, hpair⟩ := bind_eq_some_iff.mp hrest
    obtain rfl := some.inj hpair
    refine ⟨job', affected, hinv, ?_⟩
    rw [find?_map, houtc]
    rfl
  rw [sum_map]
  refine sum_traverse houtcomes (fun _ => jobBytes) (fun _ outcome => jobBytes outcome.1)
    (fun _ outcome => outcome.2.2) ?_
  intro key job outcome hstep
  obtain ⟨⟨job', affected⟩, hinv, hrest⟩ := bind_eq_some_iff.mp hstep
  obtain ⟨size, hsize, hpair⟩ := bind_eq_some_iff.mp hrest
  rw [← some.inj hpair]
  exact resizeJob_eq_some hsize

/-- What an invalidation makes of one job: nothing but the pruning of its records, or new markers
with a record of their own. -/
inductive Invalidated (m : Machine) (kind : WorkerInvalidationKind) (revision : U64) (workerID : U16)
    (epoch : WorkerEpoch) (key : JobID) (job : JobRecord) :
    JobRecord → Option AffectedAssignment → Prop where
  | spared (hadded : Machine.addedMarkers job workerID epoch = none) :
    Invalidated m kind revision workerID epoch key job (m.prunedJob workerID key job) none
  | marked {assignment : AssignmentSet} {union : List NeedsReassignment}
    (hadded : Machine.addedMarkers job workerID epoch = some (assignment, union))
    (hvalid : validateMarkers union key = true)
    (hmax : job.jobControlRevision ≠ BitVec.allOnes 64)
    (hroom : (m.prunedJob workerID key job).invalidationHistory.length ≠ maxInvalidationProvenance) :
    Invalidated m kind revision workerID epoch key job
      { m.prunedJob workerID key job with
        needsReassignment := union
        invalidationHistory := (m.prunedJob workerID key job).invalidationHistory ++
          [Machine.newProvenance kind revision workerID epoch job assignment]
        jobControlRevision := job.jobControlRevision + 1 }
      (some ⟨key, job.jobControlRevision, assignment.revision, assignment.digest⟩)

lemma invalidateJob_eq_some
    (h : m.invalidateJob kind revision workerID epoch key job = some (job', affected)) :
    Invalidated m kind revision workerID epoch key job job' affected := by
  simp only [invalidateJob] at h
  split at h
  · rename_i hadded
    cases h
    exact .spared hadded
  rename_i assignment union hadded
  split at h
  · cases h
  rename_i hguards
  simp only [not_or, Bool.not_eq_false] at hguards
  cases h
  exact .marked hadded hguards.1 hguards.2.1 hguards.2.2

end Jobs

/-! ## Entries that take effect, and the others -/

/-- The part of the machine that commands are about: everything but histories and bookkeeping. -/
structure SameState (m m' : Machine) : Prop where
  coordinatorRevision : m'.coordinatorRevision = m.coordinatorRevision
  coordinatorEpoch : m'.coordinatorEpoch = m.coordinatorEpoch
  workers : m'.workers = m.workers
  jobs : m'.jobs = m.jobs
  workerEvents : m'.workerEvents = m.workerEvents

section Steps

variable [Contract]

/-- An applied entry whose command takes effect. -/
structure TakesEffect (m : Machine) (entry : LogEntry) (m' : Machine) (command : Command)
    (next : U64) (changed : Machine) (growth : Int) : Prop where
  decoded : unmarshalCommand entry.command = some command
  valid : command.validate = true
  later : m.lastAppliedIndex < entry.index
  termed : entry.term ≠ 0
  effect : Effect m entry.index entry.term next command changed growth
  same : SameState changed m'
  /-- An internal command moves its subject from the revision it expects to the next. -/
  internal : ∀ internal, command.envelope.identity = .inr internal →
    Admitted m command internal ∧ internal.expectedRevision = m.standing command.target ∧
      m.standing command.target ≠ BitVec.allOnes 64 ∧ next = m.standing command.target + 1
  /-- A client's command is fenced and the client's next. -/
  client : ∀ client, command.envelope.identity = .inl client →
    command.envelope.coordinatorEpoch = m.coordinatorEpoch ∧ IsNext m client.request
  /-- No answer names the job zero. -/
  named : ∀ client topology validated, command.envelope.identity = .inl client →
    command.target = .submitJob topology → validateTopology topology = some validated →
      deriveJobID client.request validated.digest ≠ 0

variable {m m' : Machine} {entry : LogEntry} {result : Bytes}

omit [Contract] in
lemma marshalBusinessResult_job {code : ResultCode} {job : JobID} {epoch : CoordinatorEpoch}
    (h : marshalBusinessResult code (.jobControl job) revision epoch = some result) : job ≠ 0 := by
  intro hzero
  subst hzero
  obtain ⟨hval, -⟩ := marshalCommandResult_eq_some.mp h
  cases code <;> simp [CommandResult.validate, businessResult, resultRule, SubjectKey.jobControl,
    SubjectKind.identityPolicy, IdentityPolicy.accepts, JobID.validate] at hval

/-- An entry leaves the state alone or its command takes effect. -/
lemma Applies.cases (h : Applies m entry result m') : SameState m m' ∨ ∃ command next changed growth,
      TakesEffect m entry m' command next changed growth := by
  obtain ⟨command, applied, hdec, hval, hidx, hterm, houtc, rfl⟩ := h.outcome
  cases houtc with
  | client hident hjob houtc =>
    cases houtc with
    | effected heff hres hresol =>
      refine .inr ⟨command, _, _, _, hdec, hval, hidx, hterm, heff, ⟨rfl, rfl, rfl, rfl, rfl⟩, ?_, ?_, ?_⟩
      · intro internal hintl
        rw [hident] at hintl
        cases hintl
      · intro client' hcli
        rw [hident] at hcli
        cases hcli
        exact ⟨hresol.fence, hresol.next⟩
      intro client' topology validated hcli htarg hvald
      rw [hident] at hcli
      cases hcli
      obtain ⟨topology', validated', htarg', hvald', rfl⟩ | ⟨expected, htarg'⟩ := hjob
      · rw [htarg] at htarg'
        cases htarg'
        rw [hvald] at hvald'
        cases hvald'
        exact marshalBusinessResult_job hres
      rw [htarg] at htarg'
      cases htarg'
    | _ => exact .inl ⟨rfl, rfl, rfl, rfl, rfl⟩
  | internal hident houtc =>
    cases houtc with
    | effected hadm hexp hmax heff =>
      refine .inr ⟨command, _, _, _, hdec, hval, hidx, hterm, heff, ⟨rfl, rfl, rfl, rfl, rfl⟩, ?_, ?_, ?_⟩
      · intro internal' hintl
        rw [hident] at hintl
        cases hintl
        exact ⟨hadm, hexp, hmax, rfl⟩
      · intro client hcli
        rw [hident] at hcli
        cases hcli
      intro client _ _ hcli
      rw [hident] at hcli
      cases hcli
    | _ => exact .inl ⟨rfl, rfl, rfl, rfl, rfl⟩

lemma Applies.index (h : Applies m entry result m') :
    m'.lastAppliedIndex = entry.index ∧ m.lastAppliedIndex < entry.index := by
  obtain ⟨command, applied, hdec, hval, hidx, hterm, houtc, rfl⟩ := h.outcome
  exact ⟨rfl, hidx⟩

/-! ## Runs -/

/-- What holds of a new machine and of each machine an entry makes of one where it holds, holds of
every reachable machine. -/
lemma Reachable.induct {P : Machine → Prop} (hnew : P .new)
    (hstep : ∀ m entry result m', Reachable m → P m → Applies m entry result m' → P m')
    {m : Machine} (h : Reachable m) : P m := by
  obtain ⟨log, hrun⟩ := h
  induction hrun with
  | start => exact hnew
  | next hrun happs ih => exact hstep _ _ _ _ ⟨_, hrun⟩ ih happs

lemma Reachable.new : Reachable .new := ⟨[], .start⟩

lemma Reachable.applies (hm : Reachable m) (h : Applies m entry result m') : Reachable m' := by
  obtain ⟨log, hrun⟩ := hm
  exact ⟨_, hrun.next h⟩

/-- A run each entry of which meets a condition where it is applied. -/
inductive RunWhere (condition : Machine → LogEntry → Prop) (m : Machine) :
    List LogEntry → Machine → Prop where
  | start : RunWhere condition m [] m
  | next {log : List LogEntry} {m1 m2 : Machine} {entry : LogEntry} {result : Bytes} :
    RunWhere condition m log m1 → Applies m1 entry result m2 → condition m1 entry →
      RunWhere condition m (log ++ [entry]) m2

lemma Run.always {log : List LogEntry} (h : Run m log m') : RunWhere (fun _ _ => True) m log m' := by
  induction h with
  | start => exact .start
  | next _ hstep ih => exact ih.next hstep trivial

lemma Reachable.run (hm : Reachable m) {log : List LogEntry} (h : Run m log m') : Reachable m' := by
  induction h with
  | start => exact hm
  | next _ hstep ih => exact ih.applies hstep

/-! ## Jobs are stored under their own identifier -/

def Keyed (m : Machine) : Prop := ∀ key job, m.jobs.find? key = some job → job.jobID = key

/-- No change of a record touches its identifier or its definition. -/
structure SameDefinition (job job' : JobRecord) : Prop where
  jobID : job'.jobID = job.jobID
  definingRequest : job'.definingRequest = job.definingRequest
  topologyDigest : job'.topologyDigest = job.topologyDigest
  topologyBytes : job'.topologyBytes = job.topologyBytes

lemma JobChange.sameDefinition {command : Command}
    {cursor : Option (WorkerEventKey × WorkerEventCursor)} {growth : Int}
    (h : JobChange m next command key job job' cursor growth) : SameDefinition job job' := by
  cases h <;> exact ⟨rfl, rfl, rfl, rfl⟩

omit [Contract] in
lemma invalidateJob_sameDefinition {workerID : U16}
    (h : m.invalidateJob kind revision workerID epoch key job = some (job', affected)) :
    SameDefinition job job' := by
  cases invalidateJob_eq_some h <;> exact ⟨rfl, rfl, rfl, rfl⟩

/-- The command that invalidates in this way. -/
def WorkerInvalidationKind.command : WorkerInvalidationKind → CommandKind
  | .deactivate => .deactivateWorker
  | .replaceEpoch => .replaceWorkerEpoch

/-- What an effective command does to the entry of one job. -/
inductive JobStep (m : Machine) (next : U64) (command : Command) (key : JobID) :
    Option JobRecord → Option JobRecord → Prop where
  | kept {entry : Option JobRecord} : JobStep m next command key entry entry
  | submitted {client : ClientEnvelope} {topology : TopologySpec} {validated : ValidatedTopology}
    (htarget : command.target = .submitJob topology)
    (hidentity : command.envelope.identity = .inl client)
    (hvalidated : validateTopology topology = some validated)
    (hkey : key = deriveJobID client.request validated.digest) (hnext : next = 1) :
    JobStep m next command key none
      (some (Machine.pendingJob key client.request validated.digest validated.canonical))
  | pruned {workerID : U16} {job : JobRecord}
    (hsubject : command.target.subject = .worker workerID) :
    JobStep m next command key (some job) (some (m.prunedJob workerID key job))
  | invalidated {kind : WorkerInvalidationKind} {workerID : U16} {epoch : WorkerEpoch}
    {job job' : JobRecord} {affected : Option AffectedAssignment}
    (hsubject : command.target.subject = .worker workerID)
    (hcommand : command.target.kind = kind.command)
    (hjob : m.invalidateJob kind next workerID epoch key job = some (job', affected)) :
    JobStep m next command key (some job) (some job')
  | changed {job job' : JobRecord} {cursor : Option (WorkerEventKey × WorkerEventCursor)}
    {growth : Int} (hchange : JobChange m next command key job job' cursor growth) :
    JobStep m next command key (some job) (some job')

lemma jobStep_pruned {command : Command} {workerID : U16} {jobs : Table JobID JobRecord} {growth : Int}
    (hsubj : command.target.subject = .worker workerID)
    (hjobs : m.prepareConsumedInvalidationPrune workerID = some (jobs, growth)) (key : JobID) :
    JobStep m next command key (m.jobs.find? key) (jobs.find? key) := by
  rw [(prepareConsumedInvalidationPrune_eq_some hjobs).1 key]
  cases m.jobs.find? key with
  | none => exact .kept
  | some => exact .pruned hsubj

lemma jobStep_invalidated {command : Command} {workerID : U16} {jobs : Table JobID JobRecord}
    {growth : Int} (hsubj : command.target.subject = .worker workerID)
    (hcmd : command.target.kind = kind.command)
    (hjobs : m.prepareWorkerInvalidation kind next workerID epoch presented = some (jobs, growth))
    (key : JobID) : JobStep m next command key (m.jobs.find? key) (jobs.find? key) := by
  obtain ⟨hnone, hsome, -⟩ := prepareWorkerInvalidation_eq_some hjobs
  cases hjob : m.jobs.find? key with
  | none =>
    rw [hnone key hjob]
    exact .kept
  | some job =>
    obtain ⟨job', affected, hinv, hfind⟩ := hsome key job hjob
    rw [hfind]
    exact .invalidated hsubj hcmd hinv

/-- Effects do not touch the histories. -/
structure SameHistories (m m' : Machine) : Prop where
  clients : m'.clients = m.clients
  subjects : m'.subjects = m.subjects
  lastAppliedIndex : m'.lastAppliedIndex = m.lastAppliedIndex
  estimatedSnapshotBytes : m'.estimatedSnapshotBytes = m.estimatedSnapshotBytes

lemma Effect.sameHistories {index term : U64} {command : Command} {growth : Int}
    (h : Effect m index term next command changed growth) : SameHistories m changed := by
  cases h with
  | job => constructor <;> simp [storeJob]
  | _ => exact ⟨rfl, rfl, rfl, rfl⟩

lemma Effect.jobStep (hkeyed : Keyed m) {index term : U64} {command : Command} {growth : Int}
    (h : Effect m index term next command changed growth) (key : JobID) :
    JobStep m next command key (m.jobs.find? key) (changed.jobs.find? key) := by
  cases h with
  | begin => exact .kept
  | register _ _ _ hjobs | revive _ _ _ _ _ hjobs | drain _ _ hjobs => exact jobStep_pruned rfl hjobs key
  | deactivate _ _ hjobs | replaceEpoch _ _ _ hjobs => exact jobStep_invalidated rfl rfl hjobs key
  | submit hident hvald hnew hroom hnext =>
    rename_i envelope client topology validated
    by_cases hkey : deriveJobID client.request validated.digest = key
    · subst hkey
      rw [hnew, storeJob, find?_insert_self]
      exact .submitted rfl hident hvald rfl hnext
    rw [storeJob, find?_insert_ne _ _ hkey]
    exact .kept
  | job hjob hplc hchg =>
    rename_i key' place job job' cursor growth'
    have hplc : place = key' := by
      rw [hkeyed key' job hjob] at hplc
      exact hplc.elim id id
    subst hplc
    rw [moveCursor_jobs, storeJob]
    by_cases hkey : place = key
    · subst hkey
      rw [hjob, find?_insert_self]
      exact .changed hchg
    rw [find?_insert_ne _ _ hkey]
    exact .kept

lemma JobStep.keyed {command : Command} {old new : Option JobRecord}
    (h : JobStep m next command key old new) (hold : ∀ job ∈ old, job.jobID = key) :
    ∀ job ∈ new, job.jobID = key := by
  intro job' hjob'
  cases h with
  | kept => exact hold job' hjob'
  | submitted =>
    cases hjob'
    rfl
  | pruned hsubj =>
    rename_i workerID job
    cases hjob'
    exact hold job rfl
  | invalidated _ _ hinv =>
    cases hjob'
    rw [(invalidateJob_sameDefinition hinv).jobID]
    exact hold _ rfl
  | changed hchg =>
    cases hjob'
    rw [hchg.sameDefinition.jobID]
    exact hold _ rfl

lemma Applies.keyed (hm : Keyed m) (h : Applies m entry result m') : Keyed m' := by
  obtain hsame | ⟨command, next, changed, growth, heff⟩ := h.cases
  · intro key job hjob
    rw [hsame.jobs] at hjob
    exact hm key job hjob
  intro key job hjob
  rw [heff.same.jobs] at hjob
  exact (heff.effect.jobStep hm key).keyed (hm key) job hjob

lemma Reachable.keyed (h : Reachable m) : Keyed m := by
  refine h.induct ?_ ?_
  · intro key job hjob
    cases hjob
  intro m entry result m' _ hm happs
  exact happs.keyed hm

/-- What an applied entry does to one job: nothing, or a step of an effective command. -/
lemma Applies.jobStep (hm : Keyed m) (h : Applies m entry result m') (key : JobID) :
    m'.jobs.find? key = m.jobs.find? key ∨ ∃ command next changed growth,
      TakesEffect m entry m' command next changed growth ∧
        JobStep m next command key (m.jobs.find? key) (m'.jobs.find? key) := by
  obtain hsame | ⟨command, next, changed, growth, heff⟩ := h.cases
  · exact .inl (by rw [hsame.jobs])
  refine .inr ⟨command, next, changed, growth, heff, ?_⟩
  rw [heff.same.jobs]
  exact heff.effect.jobStep hm key

/-- A job that is there stays there, as it was or after a step of an effective command. -/
lemma Applies.jobKept (hm : Keyed m) (h : Applies m entry result m') (hjob : m.jobs.find? key = some job) :
    ∃ job', m'.jobs.find? key = some job' ∧ (job' = job ∨ ∃ command next changed growth,
      TakesEffect m entry m' command next changed growth ∧
        JobStep m next command key (some job) (some job')) := by
  obtain hsame | ⟨command, next, changed, growth, heff, hstep⟩ := h.jobStep hm key
  · exact ⟨job, hsame.trans hjob, .inl rfl⟩
  rw [hjob] at hstep
  cases hjob' : m'.jobs.find? key with
  | none =>
    rw [hjob'] at hstep
    cases hstep
  | some job' =>
    rw [hjob'] at hstep
    exact ⟨job', rfl, .inr ⟨command, next, changed, growth, heff, hstep⟩⟩

end Steps

end Crane.State
