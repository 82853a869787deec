import Crane.State.Fencing

/-!
# Checkpoints

A source's checkpoint is its watermark with the number of times it was moved. It is moved by
`AdvanceCheckpoint` alone, upwards, and not past the bound that was recorded for the source before the
job was placed. `effect_advance` and `effect_fail` say once what the two commands that report for a
worker do; the rest is by cases on what a command does to a job.
-/

namespace Crane.State

open Wire Data Model Table Bool JobRecord

variable {event : WorkerEventKey} {report : CompletionReport} {eof : SourceEOFRecord}

/-- How far a source is known to have come. -/
def JobRecord.watermark (job : JobRecord) (source : TaskID) : U64 :=
  ((job.checkpoints.find? source).map (·.watermark)).getD 0

/-- How often its checkpoint was moved. -/
def JobRecord.advances (job : JobRecord) (source : TaskID) : U64 :=
  ((job.checkpoints.find? source).map (·.revision)).getD 0

/-- The latest event that was accepted from an incarnation of a worker. -/
def Machine.lastEvent (m : Machine) (key : WorkerEventKey) : U64 :=
  ((m.workerEvents.find? key).map (·.transactionID)).getD 0

section Steps

variable {m m' : Machine} {entry : LogEntry} {result : Bytes} {command : Command}
variable {next index term : U64} {changed : Machine} {growth : Int}
variable {key : JobID} {job job' : JobRecord} {source : TaskID}

/-! ## The commands that report for a worker -/

lemma validateNextWorkerEvent_lt {transaction : U64} {digest : Array32}
    (h : Machine.validateNextWorkerEvent m.workerEvents event transaction digest = true) :
    m.lastEvent event < transaction := by
  simp only [Machine.validateNextWorkerEvent, and_eq_true, decide_eq_true_eq] at h
  exact h.2

lemma lastEvent_insert {cursor : WorkerEventCursor}
    (h : m'.workerEvents = m.workerEvents.insert event cursor) :
    m'.lastEvent event = cursor.transactionID := by
  unfold Machine.lastEvent
  rw [h, find?_insert_self]
  rfl

variable [Contract]

/-- What an effective report of progress finds and leaves. -/
structure Advanced (m m' : Machine) (report : CompletionReport) (job job' : JobRecord) (next : U64) : Prop where
  before : m.jobs.find? report.jobID = some job
  after : m'.jobs.find? report.jobID = some job'
  checkpoint : job'.checkpoints = job.checkpoints.insert report.source ⟨report.new, next⟩
  above : job.watermark report.source < report.new
  within : ∃ eof, job.sourceEOFs.find? report.source = some eof ∧ report.new ≤ eof.eof
  event : m.lastEvent ⟨report.token.workerID, report.token.workerEpoch⟩ <
    m'.lastEvent ⟨report.token.workerID, report.token.workerEpoch⟩

omit [Contract] in
lemma checkpointReportValid_eq_true (h : m.checkpointReportValid job report = true) :
    job.watermark report.source < report.new ∧
      ∃ eof, job.sourceEOFs.find? report.source = some eof ∧ report.new ≤ eof.eof := by
  simp only [Machine.checkpointReportValid, and_eq_true] at h
  obtain ⟨⟨-, hbd⟩, -⟩ := h
  split at hbd
  · cases hbd
  rename_i eof heof
  simp only [and_eq_true, decide_eq_true_eq] at hbd
  obtain ⟨⟨-, habv⟩, hwithin⟩ := hbd
  refine ⟨?_, eof, heof, hwithin⟩
  unfold watermark
  cases hckpt : job.checkpoints.find? report.source with
  | none | some =>
    rw [hckpt] at habv
    exact habv

lemma effect_advance (hm : Reachable m) (htarg : command.target = .advanceCheckpoint report)
    (h : TakesEffect m entry m' command next changed growth) :
    ∃ job job', Advanced m m' report job job' next := by
  have heff := h.effect
  obtain ⟨envelope, target⟩ := command
  cases htarg
  cases heff with
  | job hjob hplc hchg =>
    rename_i key place job job' cursor delta
    cases hchg with
    | advance hval hcurs =>
      have hsame : place = report.jobID := by
        rw [hm.keyed _ job hjob] at hplc
        exact hplc.elim id id
      obtain ⟨habv, hwithin⟩ := checkpointReportValid_eq_true hval
      refine ⟨job,
        { job with checkpoints := job.checkpoints.insert report.source ⟨report.new, next⟩ }, hjob,
        ?_, rfl, habv, hwithin, ?_⟩
      · rw [h.same.jobs, moveCursor_jobs, Machine.storeJob, hsame, find?_insert_self]
      rw [lastEvent_insert h.same.workerEvents]
      exact validateNextWorkerEvent_lt hcurs

lemma effect_fail {report : JobFailureReport} (htarg : command.target = .failJob report)
    (h : TakesEffect m entry m' command next changed growth) :
    m.lastEvent ⟨report.task.workerID, report.task.workerEpoch⟩ <
      m'.lastEvent ⟨report.task.workerID, report.task.workerEpoch⟩ := by
  have heff := h.effect
  obtain ⟨envelope, target⟩ := command
  cases htarg
  cases heff with
  | job _ _ hchg =>
    cases hchg with
    | fail _ hcurs =>
      rw [lastEvent_insert h.same.workerEvents]
      exact validateNextWorkerEvent_lt hcurs

/-! ## What an entry does to a job's checkpoints and bounds -/

/-- Checkpoints are moved by reports of progress. -/
lemma JobStep.checkpoints (h : JobStep m next command key (some job) (some job')) :
    job'.checkpoints = job.checkpoints ∨ ∃ report, command.target = .advanceCheckpoint report ∧
      report.jobID = key ∧ job.watermark report.source < report.new ∧
      job'.checkpoints = job.checkpoints.insert report.source ⟨report.new, next⟩ := by
  obtain hsame | ⟨cursor, growth, hchg⟩ := h.cases_some
  · exact .inl hsame.checkpoints
  cases hchg with
  | advance hval => exact .inr ⟨_, rfl, rfl, (checkpointReportValid_eq_true hval).1, rfl⟩
  | _ => exact .inl rfl

lemma JobStep.watermark_le (h : JobStep m next command key (some job) (some job'))
    (source : TaskID) : job.watermark source ≤ job'.watermark source := by
  obtain hsame | ⟨report, -, -, habv, hinsert⟩ := h.checkpoints
  · unfold watermark
    rw [hsame]
    exact BitVec.le_refl _
  by_cases hsrc : report.source = source
  · rw [← hsrc]
    have hnew : job'.watermark report.source = report.new := by
      unfold watermark
      rw [hinsert, find?_insert_self]
      rfl
    rw [hnew]
    exact BitVec.le_of_lt habv
  unfold watermark
  rw [hinsert, find?_insert_ne _ _ hsrc]
  exact BitVec.le_refl _

/-- Bounds stay. -/
lemma JobStep.bounds (hsrcs : JobSources key job) (hsrcs' : JobSources key job')
    (h : JobStep m next command key (some job) (some job')) (heof : job.sourceEOFs.find? source = some eof) :
    ∃ eof', job'.sourceEOFs.find? source = some eof' ∧ eof'.eof = eof.eof := by
  obtain hsame | ⟨cursor, growth, hchg⟩ := h.cases_some
  · exact ⟨eof, by rw [hsame.sourceEOFs, heof], rfl⟩
  cases hchg with
  | recordEOF hpend hassign htopo hbd =>
    rename_i recorded bound topology
    by_cases hsrc : recorded = source
    · rw [← hsrc] at heof ⊢
      have hfind := find?_insert_self job.sourceEOFs recorded ⟨bound, next⟩
      refine ⟨_, hfind, ?_⟩
      -- both are what the topology says
      obtain ⟨-, -, topology₁, htopo1, hbd1⟩ := hsrcs.eofs recorded eof heof
      obtain ⟨-, -, topology₂, htopo2, hbd2⟩ := hsrcs'.eofs recorded _ hfind
      cases htopo1.symm.trans htopo2
      exact Option.some.inj (hbd2.symm.trans hbd1)
    refine ⟨eof, ?_, rfl⟩
    rw [find?_insert_ne _ _ hsrc]
    exact heof
  | _ => exact ⟨eof, heof, rfl⟩

/-! ## Runs -/

/-- What every step on a job keeps, a run keeps. -/
lemma Run.jobKeeps (hm : Reachable m) {log : List LogEntry} (h : Run m log m')
    {P : JobRecord → Prop} (hjob : m.jobs.find? key = some job) (hP : P job)
    (hstep : ∀ {m next command job job'}, JobSources key job → JobSources key job' →
      JobStep m next command key (some job) (some job') → P job → P job') :
    ∃ job', m'.jobs.find? key = some job' ∧ P job' := by
  induction h with
  | start => exact ⟨job, hjob, hP⟩
  | next hrun hent ih =>
    rename_i log m1 m2 entry result
    obtain ⟨job1, hjob1, hP1⟩ := ih
    have hm1 := hm.run hrun
    obtain ⟨job2, hjob2, hkept⟩ := hent.jobKept hm1.keyed hjob1
    refine ⟨job2, hjob2, ?_⟩
    cases hkept with
    | inl hsame =>
      rw [hsame]
      exact hP1
    | inr hmvd =>
      obtain ⟨command, next, changed, growth, -, hjobStep⟩ := hmvd
      exact hstep (hm1.jobSources hjob1) ((hm1.applies hent).jobSources hjob2) hjobStep hP1

/-! ## All of it -/

/-- Every source of the job's topology has a bound and stands at it. -/
def AtBounds (job : JobRecord) : Prop :=
  ∃ topology, decodeTopology job.topologyBytes = some topology ∧
    ∀ stage ∈ topology.spec.stages, stage.role = .source → ∀ partition < stage.parallelism.toNat, ∃ eof,
        job.sourceEOFs.find? ⟨job.jobID, stage.stageID, BitVec.ofNat 16 partition⟩ = some eof ∧
        job.watermark ⟨job.jobID, stage.stageID, BitVec.ofNat 16 partition⟩ = eof.eof

omit [Contract] in
lemma allCheckpointsFinal_watermark (h : allCheckpointsFinal job = true)
    (heof : job.sourceEOFs.find? source = some eof) : job.watermark source = eof.eof := by
  simp only [allCheckpointsFinal, and_eq_true, List.all_eq_true] at h
  have hsrc := h.2 _ (find?_eq_some.mp heof)
  unfold watermark
  cases hckpt : job.checkpoints.find? source with
  | none =>
    simp only [hckpt, decide_eq_true_eq] at hsrc
    rw [hsrc]
    rfl
  | some =>
    simp only [hckpt, and_eq_true, decide_eq_true_eq] at hsrc
    exact hsrc.2

lemma atBounds_of_final (hprs : allSourceEOFsPresent job = true)
    (hfinal : allCheckpointsFinal job = true) : AtBounds job := by
  unfold allSourceEOFsPresent at hprs
  split at hprs
  · cases hprs
  rename_i topology htopo
  refine ⟨topology, htopo, ?_⟩
  intro stage hstg hrole partition hpart
  simp only [List.all_eq_true] at hprs
  have heof := hprs stage (List.mem_filter.mpr ⟨hstg, decide_eq_true hrole⟩) partition
    (List.mem_range.mpr hpart)
  split at heof
  · cases heof
  rename_i eof hfind
  exact ⟨eof, hfind, allCheckpointsFinal_watermark hfinal hfind⟩

structure ProgressSound (m : Machine) : Prop where
  /-- Watermarks do not go back. -/
  grows : ∀ {log m' key job job'} (source), Run m log m' → m.jobs.find? key = some job →
    m'.jobs.find? key = some job' → job.watermark source ≤ job'.watermark source
  /-- None is above the bound recorded for its source. -/
  bounded : ∀ {key job source checkpoint}, m.jobs.find? key = some job →
    job.checkpoints.find? source = some checkpoint →
    ∃ eof, job.sourceEOFs.find? source = some eof ∧ checkpoint.watermark ≤ eof.eof
  /-- A recorded bound stays as it is. -/
  immutable : ∀ {log m' key job job' source eof}, Run m log m' → m.jobs.find? key = some job →
    m'.jobs.find? key = some job' → job.sourceEOFs.find? source = some eof →
    ∃ eof', job'.sourceEOFs.find? source = some eof' ∧ eof'.eof = eof.eof
  /-- An accepted report moves the watermark up to what it says, the count by one and the worker's
  cursor up. -/
  accepted : ∀ {entry result m' command report}, Applies m entry result m' →
    unmarshalCommand entry.command = some command → command.target = .advanceCheckpoint report →
    Effective m m' → ∃ job job', m.jobs.find? report.jobID = some job ∧
      m'.jobs.find? report.jobID = some job' ∧ job.watermark report.source < report.new ∧
      job'.watermark report.source = report.new ∧
      job.advances report.source ≠ BitVec.allOnes 64 ∧
      job'.advances report.source = job.advances report.source + 1 ∧
      m.lastEvent ⟨report.token.workerID, report.token.workerEpoch⟩ <
        m'.lastEvent ⟨report.token.workerID, report.token.workerEpoch⟩
  /-- Nothing else moves either. -/
  counted : ∀ {entry result m' key job job' source}, Applies m entry result m' →
    m.jobs.find? key = some job → m'.jobs.find? key = some job' →
    job'.checkpoints.find? source ≠ job.checkpoints.find? source →
    ∃ command report, unmarshalCommand entry.command = some command ∧
      command.target = .advanceCheckpoint report ∧ report.jobID = key ∧ report.source = source ∧
      Effective m m'
  /-- An accepted failure moves the worker's cursor up. -/
  failed : ∀ {entry result m' command report}, Applies m entry result m' →
    unmarshalCommand entry.command = some command → command.target = .failJob report →
    Effective m m' → m.lastEvent ⟨report.task.workerID, report.task.workerEpoch⟩ <
      m'.lastEvent ⟨report.task.workerID, report.task.workerEpoch⟩
  /-- In a job that drains or has succeeded every source stands at its bound. -/
  final : ∀ {key job}, m.jobs.find? key = some job →
    job.lifecycle = .draining ∨ job.lifecycle = .succeeded → AtBounds job
  /-- In a job that has succeeded every sink is sealed where its copies are. -/
  sealed : ∀ {key job}, m.jobs.find? key = some job → job.lifecycle = .succeeded →
    ∃ set, job.assignment = some set ∧ ∀ replica ∈ set.resultReplicas,
      ∃ manifest, job.manifests.find? replica.sinkTask = some manifest ∧ manifest.replicas = replica

theorem checkpoint_progress_sound (hm : Reachable m) : ProgressSound m where
  grows := by
    intro log m' key job job' source hrun hjob hjob'
    obtain ⟨job1, hjob1, hle⟩ := hrun.jobKeeps hm
      (P := fun job1 => job.watermark source ≤ job1.watermark source) hjob (BitVec.le_refl _) (by
        intro m next command job1 job2 _ _ hstep hle
        exact BitVec.le_trans hle (hstep.watermark_le source))
    cases hjob'.symm.trans hjob1
    exact hle
  bounded := by
    intro key job source checkpoint hjob hckpt
    exact ((hm.jobSources hjob).checkpoints source checkpoint hckpt).2
  immutable := by
    intro log m' key job job' source eof hrun hjob hjob' heof
    obtain ⟨job1, hjob1, hbd⟩ := hrun.jobKeeps hm
      (P := fun job1 => ∃ eof', job1.sourceEOFs.find? source = some eof' ∧ eof'.eof = eof.eof) hjob
      ⟨eof, heof, rfl⟩ (by
        intro m next command job1 job2 hsrcs1 hsrcs2 hstep hbd
        obtain ⟨eof₁, heof1, hsame⟩ := hbd
        obtain ⟨eof₂, heof2, hsame2⟩ := hstep.bounds hsrcs1 hsrcs2 heof1
        exact ⟨eof₂, heof2, hsame2.trans hsame⟩)
    cases hjob'.symm.trans hjob1
    exact hbd
  accepted := by
    intro entry result m' command report happs hdec htarg heffec
    obtain ⟨next, changed, growth, heff⟩ := TakesEffect.of_effective happs hdec heffec
    obtain ⟨job, job', hadvan⟩ := effect_advance hm htarg heff
    have hisd := heff.issued hm
    obtain ⟨hmax, hnext, -⟩ := hisd (by rw [htarg]; nofun)
    have hrev : m.subjectRevision command.target.subject = job.advances report.source := by
      rw [htarg, Target.subject, subjectRevision_sourceCheckpoint, hadvan.before]
      rfl
    rw [hrev] at hmax hnext
    refine ⟨job, job', hadvan.before, hadvan.after, hadvan.above, ?_, hmax, ?_, hadvan.event⟩
    · unfold watermark
      rw [hadvan.checkpoint, find?_insert_self]
      rfl
    rw [← hnext]
    unfold advances
    rw [hadvan.checkpoint, find?_insert_self]
    rfl
  counted := by
    intro entry result m' key job job' source happs hjob hjob' hmvd
    obtain hsame | ⟨command, next, changed, growth, heff, hstep⟩ := happs.jobStep hm.keyed key
    · rw [hjob, hjob'] at hsame
      cases hsame
      exact absurd rfl hmvd
    rw [hjob, hjob'] at hstep
    obtain hsame | ⟨report, htarg, hkey, -, hinsert⟩ := hstep.checkpoints
    · rw [hsame] at hmvd
      exact absurd rfl hmvd
    refine ⟨command, report, heff.decoded, htarg, hkey, ?_, .inr (.inl ?_)⟩
    · by_contra hoth
      rw [hinsert, find?_insert_ne _ _ hoth] at hmvd
      exact hmvd rfl
    -- the job itself changed
    intro hjobs
    rw [hjobs, hjob] at hjob'
    cases hjob'
    exact hmvd rfl
  failed := by
    intro entry result m' command report happs hdec htarg heffec
    obtain ⟨next, changed, growth, heff⟩ := TakesEffect.of_effective happs hdec heffec
    exact effect_fail htarg heff
  final := by
    intro key job hjob hlife
    have hpld := hm.jobPlaced hjob
    have hassign : job.assignment ≠ none := by
      intro hnone
      cases hpld.placed hnone with
      | inl hpend | inr hpend => rw [hpend] at hlife; simp at hlife
    exact atBounds_of_final (hpld.eofs hassign) (hpld.final hlife)
  sealed := by
    intro key job hjob hlife
    have hmanifests := (hm.jobFinished hjob).manifests hlife
    unfold allManifestsCurrent at hmanifests
    split at hmanifests
    · cases hmanifests
    rename_i set hset
    simp only [and_eq_true, List.all_eq_true] at hmanifests
    refine ⟨set, hset, ?_⟩
    intro replica hrepl
    have hmanif := hmanifests.2 replica hrepl
    split at hmanif
    · cases hmanif
    rename_i manifest hfind
    simp only [and_eq_true, decide_eq_true_eq] at hmanif
    exact ⟨manifest, hfind, hmanif.1.2⟩

end Steps

/-! ## A source that has made progress -/

namespace Sample

attribute [local instance] sampleContract

def activate (m : Machine) : Command := m.issue 7 (.transitionJob jobID .deploying .running)

/-- The source's owner reports one more number. -/
def nextReport (transaction : U64) (m : Machine) : CompletionReport :=
  let job := (m.jobs.find? jobID).getD (Machine.pendingJob 0 ⟨0, 0⟩ 0 [])
  let set := job.assignment.getD ⟨0, 0, 0, [], []⟩
  let unsigned : CompletionReport :=
    ⟨jobID, job.jobControlRevision, set.revision, source,
      (assignmentToken job.assignment source).getD ⟨source, 0, 0, 0, 0, 0⟩, m.coordinatorEpoch,
      job.advances source, job.watermark source, job.watermark source + 1, 2, transaction, 0⟩
  { unsigned with digest := completionReportDigest unsigned }

def advance (id : InternalCommandID) (transaction : U64) (m : Machine) : Command :=
  m.issue id (.advanceCheckpoint (nextReport transaction m))

/-- The job runs, and the first of its two numbers is committed. -/
theorem checkpoint_progress_sound_advanced : ∃ log m job, Run .new log m ∧
    m.jobs.find? jobID = some job ∧ job.watermark source = 1 ∧ job.advances source = 1 ∧ ProgressSound m := by
  obtain ⟨log, m, hrun, hchk⟩ := exists_run_of_follow (deployed ++ [activate, advance 8 1])
    (fun m => (m.jobs.find? jobID).any fun job => job.watermark source = 1 && job.advances source = 1)
    (by decide +kernel)
  simp only [Option.any_eq_true, Bool.and_eq_true, decide_eq_true_eq] at hchk
  obtain ⟨job, hjob, hmark, hadvances⟩ := hchk
  exact ⟨log, m, job, hrun, hjob, hmark, hadvances, checkpoint_progress_sound ⟨log, hrun⟩⟩

end Sample

end Crane.State
