import Crane.State.Histories
import Crane.State.Lifecycle
import Crane.State.Markers

/-!
# What job records hold

The invariants of single job records, group by group: what defines a job, its sources and
checkpoints, its placement and markers, its manifests, its failure. All of them hold of every job
of every reachable machine, and all are proved by `Reachable.jobs`: they hold of a submitted job,
and a step on a job keeps them.
-/

namespace Crane.State

open Wire Data Model Machine Table Target Bool

section Steps

variable [Contract]

/-- An effective internal command was checked against the revision its subject stands at, and moves
it to the next. -/
def Issued (m : Machine) (command : Command) (next : U64) : Prop :=
  command.target.subject ≠ .unbound → m.subjectRevision command.target.subject ≠ BitVec.allOnes 64 ∧
      next = m.subjectRevision command.target.subject + 1 ∧
      command.target.fieldsValid (m.subjectRevision command.target.subject) = true

variable {m m' : Machine} {entry : LogEntry} {result : Bytes} {next : U64} {command : Command}
variable {changed : Machine} {growth : Int} {key : JobID} {job job' : JobRecord}
variable {cursor : Option (WorkerEventKey × WorkerEventCursor)}

lemma Issued.of_internal (hm : Reachable m) {internal : InternalEnvelope}
    (hval : command.validate = true) (hident : command.envelope.identity = .inr internal)
    (hexp : internal.expectedRevision = m.standing command.target)
    (hmax : m.standing command.target ≠ BitVec.allOnes 64) :
    Issued m command (m.standing command.target + 1) := by
  intro _
  simp only [Command.validate, hident, and_eq_true] at hval
  obtain ⟨-, ⟨-, hflds⟩, -⟩ := hval
  rw [hexp] at hflds
  rw [hm.standing.standing_eq] at hflds hmax ⊢
  exact ⟨hmax, rfl, hflds⟩

lemma Issued.of_client {client : ClientEnvelope} (hval : command.validate = true)
    (hident : command.envelope.identity = .inl client) : Issued m command next := by
  intro hbd
  exact absurd (Command.client_target hval hident).2 hbd

lemma TakesEffect.issued (hm : Reachable m)
    (h : TakesEffect m entry m' command next changed growth) : Issued m command next := by
  cases hident : command.envelope.identity with
  | inl client => exact .of_client h.valid hident
  | inr internal =>
    obtain ⟨-, hexp, hmax, rfl⟩ := h.internal internal hident
    exact .of_internal hm h.valid hident hexp hmax

/-- What holds of submitted jobs and is kept by every step on a job holds of every job. -/
lemma Reachable.jobs {P : JobID → JobRecord → Prop}
    (hsubm : ∀ {key request validated}, key ≠ 0 → ClientRequestID.validate request = true →
      decodeTopology validated.canonical = some validated → deriveJobID request validated.digest = key →
        P key (Machine.pendingJob key request validated.digest validated.canonical))
    (hstep : ∀ {m next command key job job'}, Reachable m → m.jobs.find? key = some job →
      Issued m command next → JobStep m next command key (some job) (some job') → P key job → P key job')
    (h : Reachable m) {key : JobID} {job : JobRecord} (hjob : m.jobs.find? key = some job) : P key job := by
  refine h.induct (P := fun m => ∀ key job, m.jobs.find? key = some job → P key job) ?_ ?_ key job hjob
  · intro key job hjob
    cases hjob
  intro m entry result m' hm ih happs key job' hjob'
  obtain hsame | ⟨command, next, changed, growth, heff, hjobStep⟩ := happs.jobStep hm.keyed key
  · rw [hsame] at hjob'
    exact ih key job' hjob'
  rw [hjob'] at hjobStep
  cases hold : m.jobs.find? key with
  | some job =>
    rw [hold] at hjobStep
    exact hstep hm hold (heff.issued hm) hjobStep (ih key job hold)
  | none =>
    rw [hold] at hjobStep
    cases hjobStep with
    | submitted htarg hident hvald hkey hnext =>
      rename_i client topology validated
      have hreq := (Command.client_identity heff.valid hident).1
      subst hkey
      exact hsubm (heff.named client topology validated hident htarg hvald)
        hreq (decodeTopology_canonical hvald) rfl

/-- The part of a record that worker commands leave alone. -/
structure Untouched (job job' : JobRecord) : Prop extends SameDefinition job job' where
  lifecycle : job'.lifecycle = job.lifecycle
  assignment : job'.assignment = job.assignment
  sourceEOFs : job'.sourceEOFs = job.sourceEOFs
  checkpoints : job'.checkpoints = job.checkpoints
  manifests : job'.manifests = job.manifests
  failure : job'.failure = job.failure

lemma JobStep.cases_some (h : JobStep m next command key (some job) (some job')) :
    Untouched job job' ∨ ∃ cursor growth, JobChange m next command key job job' cursor growth := by
  cases h with
  | kept | pruned _ => exact .inl ⟨⟨rfl, rfl, rfl, rfl⟩, rfl, rfl, rfl, rfl, rfl, rfl⟩
  | invalidated _ _ hjob =>
    left
    cases invalidateJob_eq_some hjob <;> exact ⟨⟨rfl, rfl, rfl, rfl⟩, rfl, rfl, rfl, rfl, rfl, rfl⟩
  | changed hchg => exact .inr ⟨_, _, hchg⟩

/-! ## What defines a job -/

structure JobDefined (key : JobID) (job : JobRecord) : Prop where
  named : key ≠ 0
  jobID : job.jobID = key
  request : job.definingRequest.validate = true
  derived : deriveJobID job.definingRequest job.topologyDigest = key
  topology : ∃ topology, decodeTopology job.topologyBytes = some topology ∧ topology.digest = job.topologyDigest

lemma JobDefined.congr (h : JobDefined key job) (hsame : SameDefinition job job') : JobDefined key job' where
  named := h.named
  jobID := hsame.jobID.trans h.jobID
  request := by
    rw [hsame.definingRequest]
    exact h.request
  derived := by
    rw [hsame.definingRequest, hsame.topologyDigest]
    exact h.derived
  topology := by
    rw [hsame.topologyBytes, hsame.topologyDigest]
    exact h.topology

lemma Reachable.jobDefined (h : Reachable m) (hjob : m.jobs.find? key = some job) : JobDefined key job := by
  refine h.jobs (P := JobDefined) ?_ ?_ hjob
  · intro key request validated hnamed hreq htopo hderived
    exact ⟨hnamed, rfl, hreq, hderived, validated, htopo, rfl⟩
  intro m next command key job job' _ _ _ hstep ih
  obtain huntouc | ⟨cursor, growth, hchg⟩ := hstep.cases_some
  · exact ih.congr huntouc.toSameDefinition
  · exact ih.congr hchg.sameDefinition

/-! ## Sources -/

/-- Bounds are those of the topology and recorded once; a checkpoint is below its bound. -/
structure JobSources (key : JobID) (job : JobRecord) : Prop where
  eofs : ∀ source eof, job.sourceEOFs.find? source = some eof →
    source.jobID = key ∧ eof.revision = 1 ∧ ∃ topology,
      decodeTopology job.topologyBytes = some topology ∧ sourceEOF topology source = some eof.eof
  checkpoints : ∀ source checkpoint, job.checkpoints.find? source = some checkpoint →
    checkpoint.revision ≠ 0 ∧ ∃ eof, job.sourceEOFs.find? source = some eof ∧ checkpoint.watermark ≤ eof.eof

lemma Issued.succ_ne_zero (h : Issued m command next)
    (hbd : command.target.subject ≠ .unbound) : next ≠ 0 := by
  obtain ⟨hmax, rfl, -⟩ := h hbd
  exact State.succ_ne_zero hmax

lemma JobChange.sources (h : JobChange m next command key job job' cursor growth)
    (hisd : Issued m command next) (hjob : JobSources key job) : JobSources key job' := by
  cases h with
  | recordEOF hpend hassign htopo heof =>
    rename_i envelope source eof topology
    obtain ⟨-, hnext, hflds⟩ := hisd nofun
    simp only [fieldsValid, and_eq_true, decide_eq_true_eq] at hflds
    rw [hflds.1] at hnext
    constructor
    · intro source' eof' hfind
      by_cases heq : source = source'
      · subst heq
        rw [find?_insert_self] at hfind
        cases hfind
        exact ⟨rfl, hnext, topology, htopo, heof⟩
      rw [find?_insert_ne _ _ heq] at hfind
      exact hjob.eofs source' eof' hfind
    intro source' checkpoint hfind
    obtain ⟨hrev, eof', hfnd, hle⟩ := hjob.checkpoints source' checkpoint hfind
    refine ⟨hrev, ?_⟩
    by_cases heq : source = source'
    · -- a second bound would be the same
      subst heq
      obtain ⟨-, -, topology', htopo', heof'⟩ := hjob.eofs source eof' hfnd
      rw [htopo] at htopo'
      cases htopo'
      rw [heof] at heof'
      cases heof'
      exact ⟨_, find?_insert_self _ _ _, hle⟩
    · exact ⟨eof', by rw [find?_insert_ne _ _ heq]; exact hfnd, hle⟩
  | advance hval hcurs =>
    rename_i envelope report
    refine ⟨hjob.eofs, ?_⟩
    intro source' checkpoint hfind
    by_cases heq : report.source = source'
    · subst heq
      rw [find?_insert_self] at hfind
      cases hfind
      refine ⟨hisd.succ_ne_zero nofun, ?_⟩
      simp only [checkpointReportValid, and_eq_true] at hval
      obtain ⟨⟨-, hbd⟩, -⟩ := hval
      split at hbd
      · cases hbd
      rename_i eof heof
      simp only [and_eq_true, decide_eq_true_eq] at hbd
      exact ⟨eof, heof, hbd.2⟩
    rw [find?_insert_ne _ _ heq] at hfind
    exact hjob.checkpoints source' checkpoint hfind
  | _ => exact ⟨hjob.eofs, hjob.checkpoints⟩

lemma JobSources.congr (h : JobSources key job) (hsame : Untouched job job') : JobSources key job' where
  eofs := by
    rw [hsame.sourceEOFs, hsame.topologyBytes]
    exact h.eofs
  checkpoints := by
    rw [hsame.checkpoints, hsame.sourceEOFs]
    exact h.checkpoints

lemma Reachable.jobSources (h : Reachable m) (hjob : m.jobs.find? key = some job) : JobSources key job := by
  refine h.jobs (P := JobSources) ?_ ?_ hjob
  · intro key request validated _ _ _ _
    exact ⟨nofun, nofun⟩
  intro m next command key job job' _ _ hisd hstep ih
  obtain huntouc | ⟨cursor, growth, hchg⟩ := hstep.cases_some
  · exact ih.congr huntouc
  · exact hchg.sources hisd ih

/-! ## Placement and progress -/

/-- When a job has a placement, and how far it has come in each phase. -/
structure JobPlaced (key : JobID) (job : JobRecord) : Prop where
  valid : ∀ assignment, job.assignment = some assignment → assignment.jobID = key ∧
    ∃ topology, decodeTopology job.topologyBytes = some topology ∧ assignment.validate topology = true
  pending : job.lifecycle = .pending → job.assignment = none
  placed : job.assignment = none → job.lifecycle = .pending ∨ job.lifecycle = .canceled
  eofs : job.assignment ≠ none → allSourceEOFsPresent job = true
  final : job.lifecycle = .draining ∨ job.lifecycle = .succeeded → allCheckpointsFinal job = true

omit [Contract] in
/-- Nothing is left to report once every source stands at its bound. -/
lemma not_checkpointReportValid (hfinal : allCheckpointsFinal job = true)
    {report : CompletionReport} : m.checkpointReportValid job report ≠ true := by
  intro hval
  simp only [checkpointReportValid, and_eq_true] at hval
  obtain ⟨⟨-, hbd⟩, -⟩ := hval
  split at hbd
  · cases hbd
  rename_i eof heof
  simp only [and_eq_true, decide_eq_true_eq] at hbd
  obtain ⟨⟨-, hbelow⟩, hle⟩ := hbd
  simp only [allCheckpointsFinal, and_eq_true, List.all_eq_true] at hfinal
  have hsrc := hfinal.2 _ (find?_eq_some.mp heof)
  cases hckpt : job.checkpoints.find? report.source with
  | none =>
    simp only [hckpt, decide_eq_true_eq, Option.getD_none] at hsrc hbelow
    rw [hsrc] at hle
    exact absurd (Nat.lt_of_lt_of_le hbelow hle) (Nat.lt_irrefl _)
  | some =>
    simp only [hckpt, and_eq_true, decide_eq_true_eq, Option.getD_some] at hsrc hbelow
    rw [← hsrc.2] at hle
    exact absurd (Nat.lt_of_lt_of_le hbelow hle) (Nat.lt_irrefl _)

omit [Contract] in
/-- A failure is reported by the holder of a token. -/
lemma failureReportValid_held {report : JobFailureReport} (h : m.failureReportValid job report = true) :
    ∃ assignment, job.assignment = some assignment ∧ job.needsReassignment = [] ∧
      report.jobControlRevision = job.jobControlRevision ∧ report.assignmentRevision = assignment.revision ∧
        assignmentToken job.assignment report.task.task = some report.task := by
  simp only [failureReportValid, and_eq_true] at h
  obtain ⟨⟨-, hassig⟩, -⟩ := h
  split at hassig
  · cases hassig
  rename_i assignment hassign
  simp only [and_eq_true, decide_eq_true_eq, List.length_eq_zero_iff] at hassig
  obtain ⟨⟨⟨⟨hmks, hctrl⟩, hrev⟩, -⟩, htok⟩ := hassig
  exact ⟨assignment, hassign, hmks, hctrl, hrev, htok⟩

lemma JobChange.placed (h : JobChange m next command key job job' cursor growth)
    (hisd : Issued m command next) (hjob : JobPlaced key job) : JobPlaced key job' := by
  cases h with
  | cancel => exact ⟨hjob.valid, nofun, fun _ => .inr rfl, hjob.eofs, by simp⟩
  | recordEOF hpend hassign =>
    refine ⟨hjob.valid, hjob.pending, hjob.placed, fun hpld => absurd hassign hpld, ?_⟩
    simp [hpend]
  | install _ hassign _ heofs htopo hval =>
    refine ⟨?_, nofun, nofun, fun _ => heofs, by simp⟩
    intro assignment hassign
    cases hassign
    exact ⟨rfl, _, htopo, hval⟩
  | replace hassign _ htopo hval =>
    obtain ⟨-, -, hflds⟩ := hisd nofun
    simp only [fieldsValid, and_eq_true, decide_eq_true_eq] at hflds
    obtain ⟨⟨-, ⟨-, hjobID⟩, -⟩, -⟩ := hflds
    have hpld : job.assignment ≠ none := by
      rw [hassign]
      exact nofun
    refine ⟨?_, fun hpend => absurd (hjob.pending hpend) hpld, nofun,
      fun _ => hjob.eofs hpld, hjob.final⟩
    intro assignment hassig
    cases hassig
    exact ⟨hjobID, _, htopo, hval⟩
  | advance hval =>
    refine ⟨hjob.valid, hjob.pending, hjob.placed, hjob.eofs, ?_⟩
    intro hphase
    exact absurd hval (not_checkpointReportValid (hjob.final hphase))
  | sealManifest => exact ⟨hjob.valid, hjob.pending, hjob.placed, hjob.eofs, hjob.final⟩
  | transition hassign hmks hallow hbef haft =>
    rename_i envelope lifecycle before after
    refine ⟨hjob.valid, ?_, fun hnone => absurd hnone hassign, hjob.eofs, ?_⟩
    · intro hpend
      change lifecycle = .pending at hpend
      rw [hpend] at hallow
      cases hold : job.lifecycle <;> rw [hold] at hallow <;> cases hallow
    intro hphase
    change allCheckpointsFinal job = true
    change lifecycle = .draining ∨ lifecycle = .succeeded at hphase
    cases hphase with
    | inl hdrain =>
      rw [hdrain] at hallow
      cases hold : job.lifecycle <;> rw [hold] at hallow <;> first
        | exact hallow
        | cases hallow
    | inr hsucc =>
      rw [hsucc] at hallow
      cases hold : job.lifecycle <;> rw [hold] at hallow <;> first
        | exact hjob.final (.inl hold)
        | cases hallow
  | fail hval hcurs hbef haft =>
    obtain ⟨assignment, hassign, -⟩ := failureReportValid_held hval
    refine ⟨hjob.valid, nofun, ?_, hjob.eofs, by simp [controlledJob]⟩
    intro hnone
    rw [show job.assignment = none from hnone] at hassign
    cases hassign

lemma JobPlaced.congr (h : JobPlaced key job) (hsame : Untouched job job') : JobPlaced key job' where
  valid := by
    rw [hsame.assignment, hsame.topologyBytes]
    exact h.valid
  pending := by
    rw [hsame.assignment, hsame.lifecycle]
    exact h.pending
  placed := by
    rw [hsame.assignment, hsame.lifecycle]
    exact h.placed
  eofs := by
    unfold allSourceEOFsPresent
    rw [hsame.assignment, hsame.topologyBytes, hsame.jobID, hsame.sourceEOFs]
    exact h.eofs
  final := by
    unfold allCheckpointsFinal
    rw [hsame.lifecycle, hsame.sourceEOFs, hsame.checkpoints]
    exact h.final

lemma Reachable.jobPlaced (h : Reachable m) (hjob : m.jobs.find? key = some job) : JobPlaced key job := by
  refine h.jobs (P := JobPlaced) ?_ ?_ hjob
  · intro key request validated _ _ _ _
    exact ⟨nofun, fun _ => rfl, fun _ => .inl rfl, fun hpld => absurd rfl hpld, by simp [pendingJob]⟩
  intro m next command key job job' _ _ hisd hstep ih
  obtain huntouc | ⟨cursor, growth, hchg⟩ := hstep.cases_some
  · exact ih.congr huntouc
  · exact hchg.placed hisd ih

lemma JobPlaced.complete (h : JobPlaced key job) {assignment : AssignmentSet}
    (hassign : job.assignment = some assignment) :
    ∃ topology, Complete assignment topology ∧ StagesBounded topology.spec.stages := by
  obtain ⟨-, topology, hdec, hval⟩ := h.valid assignment hassign
  obtain ⟨hvald, -⟩ := decodeTopology_eq_some hdec
  exact ⟨topology, AssignmentSet.validate_eq_true hval, (validateTopology_eq_some hvald).2.2.2⟩

/-! ## Markers -/

/-- Every marker is about a target of the placement. -/
structure JobMarked (key : JobID) (job : JobRecord) : Prop where
  valid : validateMarkers job.needsReassignment key = true
  targets : ∀ marker ∈ job.needsReassignment, snapshotMarkerTargetsAssignment marker job.assignment = true
  finished : job.lifecycle = .succeeded ∨ job.lifecycle = .failed → job.needsReassignment = []

omit [Contract] in
lemma JobMarked.of_nil (h : job.needsReassignment = []) : JobMarked key job := by
  refine ⟨?_, ?_, fun _ => h⟩
  · rw [h]
    rfl
  rw [h]
  exact nofun

lemma JobChange.marked (h : JobChange m next command key job job' cursor growth)
    (hjob : JobMarked key job) : JobMarked key job' := by
  cases h with
  | cancel => exact ⟨hjob.valid, hjob.targets, by simp⟩
  | recordEOF | advance | sealManifest => exact ⟨hjob.valid, hjob.targets, hjob.finished⟩
  | install _ _ hmks | transition _ hmks => exact .of_nil hmks
  | replace => exact .of_nil rfl
  | fail hval =>
    obtain ⟨assignment, -, hmks, -⟩ := failureReportValid_held hval
    exact .of_nil hmks

lemma Invalidated.jobMarked {kind : WorkerInvalidationKind} {revision : U64} {workerID : U16}
    {epoch : WorkerEpoch} {affected : Option AffectedAssignment} (hpld : JobPlaced key job)
    (h : Invalidated m kind revision workerID epoch key job job' affected)
    (hjob : JobMarked key job) : JobMarked key job' := by
  cases h with
  | spared => exact ⟨hjob.valid, hjob.targets, hjob.finished⟩
  | marked hadded hval hmax hroom =>
    obtain ⟨hassign, hlive, rfl⟩ := addedMarkers_eq_some hadded
    refine ⟨hval, ?_, ?_⟩
    · intro marker hmk
      cases mem_sortedMarkerUnion.mp hmk with
      | inl hold => exact hjob.targets marker hold
      | inr hnew =>
        obtain ⟨topology, hcompl, -⟩ := hpld.complete hassign
        change snapshotMarkerTargetsAssignment marker job.assignment = true
        rw [hassign]
        exact markersForWorker_targets hcompl hnew
    intro hfin
    have htermnl : job.lifecycle.terminal = true := by
      cases hfin with
      | inl h => rw [show job.lifecycle = .succeeded from h]; rfl
      | inr h => rw [show job.lifecycle = .failed from h]; rfl
    rw [hlive] at htermnl
    cases htermnl

lemma Reachable.jobMarked (h : Reachable m) (hjob : m.jobs.find? key = some job) : JobMarked key job := by
  refine h.jobs (P := JobMarked) ?_ ?_ hjob
  · intro key request validated _ _ _ _
    exact .of_nil rfl
  intro m next command key job job' hm hjob _ hstep ih
  cases hstep with
  | kept => exact ih
  | pruned => exact ⟨ih.valid, ih.targets, ih.finished⟩
  | invalidated _ _ hinv => exact (invalidateJob_eq_some hinv).jobMarked (hm.jobPlaced hjob) ih
  | changed hchg => exact hchg.marked ih

/-! ## Finished jobs -/

/-- A failed job has its report, and a job that succeeded all its manifests. -/
structure JobFinished (key : JobID) (job : JobRecord) : Prop where
  reported : job.lifecycle = .failed → job.failure ≠ none
  failure : ∀ report, job.failure = some report →
    job.lifecycle = .failed ∧ report.validate = true ∧ report.jobID = key ∧
      (∃ assignment, job.assignment = some assignment ∧ report.assignmentRevision = assignment.revision) ∧
      assignmentToken job.assignment report.task.task = some report.task ∧
      report.jobControlRevision ≠ BitVec.allOnes 64 ∧
      report.jobControlRevision + 1 = job.jobControlRevision
  manifests : job.lifecycle = .succeeded → allManifestsCurrent job = true

/-- Only a canceled job can change once it is finished. -/
lemma JobChange.not_finished (h : JobChange m next command key job job' cursor growth)
    (hmkd : JobMarked key job) : job.lifecycle ≠ .succeeded ∧ job.lifecycle ≠ .failed := by
  constructor
  · intro hsucc
    exact (h.replaceable (by rw [hsucc]; rfl)).1 (hmkd.finished (.inl hsucc))
  · intro hfailed
    exact (h.replaceable (by rw [hfailed]; rfl)).1 (hmkd.finished (.inr hfailed))

lemma JobChange.finished (hm : Reachable m) (hsto : m.jobs.find? key = some job)
    (h : JobChange m next command key job job' cursor growth) (hisd : Issued m command next)
    (hjob : JobFinished key job) : JobFinished key job' := by
  obtain ⟨hsucc, hfailed⟩ := h.not_finished (hm.jobMarked hsto)
  -- the job had no report before
  have hnone : job.failure = none := by
    cases hfailure : job.failure with
    | none => rfl
    | some report => exact absurd (hjob.failure report hfailure).1 hfailed
  have hkept : job'.failure = job.failure → job'.lifecycle ≠ .failed →
      job'.lifecycle ≠ .succeeded → JobFinished key job' := by
    intro hsame hnotF hnotS
    refine ⟨fun h => absurd h hnotF, ?_, fun h => absurd h hnotS⟩
    rw [hsame, hnone]
    exact nofun
  cases h with
  | cancel | install => exact hkept rfl nofun nofun
  | recordEOF | advance | sealManifest => exact hkept rfl hfailed hsucc
  | replace => exact hkept rfl hfailed hsucc
  | transition hassign hmks hallow hbef haft =>
    rename_i envelope lifecycle before after
    refine ⟨?_, ?_, ?_⟩
    · intro hfailed
      change lifecycle = .failed at hfailed
      rw [hfailed] at hallow
      cases hold : job.lifecycle <;> rw [hold] at hallow <;> cases hallow
    · intro report hrpt
      rw [show job.failure = some report from hrpt] at hnone
      cases hnone
    intro hsucc
    change lifecycle = .succeeded at hsucc
    change allManifestsCurrent job = true
    rw [hsucc] at hallow
    cases hold : job.lifecycle <;> rw [hold] at hallow
    case draining =>
      simp only [transitionAllowed, and_eq_true] at hallow
      exact hallow.1.2
    all_goals cases hallow
  | fail hval hcurs hbef haft =>
    rename_i envelope report before after
    obtain ⟨assignment, hassign, -, hctrl, hrev, htok⟩ := failureReportValid_held hval
    obtain ⟨hmax, hnext, hflds⟩ := hisd nofun
    have hstand : m.subjectRevision (.jobControl report.jobID) = job.jobControlRevision :=
      subjectRevision_jobControl_some hsto
    refine ⟨fun _ => nofun, ?_, nofun⟩
    intro report' hrpt
    obtain rfl : report = report' := Option.some.inj hrpt
    simp only [subject, hstand] at hmax hnext
    rw [← hctrl] at hmax hnext
    exact ⟨rfl, hflds, rfl, ⟨assignment, hassign, hrev⟩, htok, hmax, hnext.symm⟩

lemma Reachable.jobFinished (h : Reachable m) (hjob : m.jobs.find? key = some job) : JobFinished key job := by
  refine h.jobs (P := JobFinished) ?_ ?_ hjob
  · intro key request validated _ _ _ _
    exact ⟨nofun, nofun, nofun⟩
  intro m next command key job job' hm hsto hisd hstep ih
  cases hstep with
  | kept => exact ih
  | pruned => exact ⟨ih.reported, ih.failure, ih.manifests⟩
  | invalidated _ _ hinv =>
    cases invalidateJob_eq_some hinv with
    | spared => exact ⟨ih.reported, ih.failure, ih.manifests⟩
    | marked hadded _ _ _ =>
      -- only a job under way gets markers
      obtain ⟨-, hlive, -⟩ := addedMarkers_eq_some hadded
      refine ⟨ih.reported, ?_, ih.manifests⟩
      intro report hrpt
      rw [(ih.failure report hrpt).1] at hlive
      cases hlive
  | changed hchg => exact hchg.finished hm hsto hisd ih

/-- The control revision of a job is never zero. -/
lemma Reachable.jobRevision (h : Reachable m) (hjob : m.jobs.find? key = some job) :
    job.jobControlRevision ≠ 0 := by
  refine h.jobs (P := fun _ job => job.jobControlRevision ≠ 0) ?_ ?_ hjob
  · intro key request validated _ _ _ _
    exact (by decide : (1 : U64) ≠ 0)
  intro m next command key job job' _ _ hisd hstep ih
  obtain hkept | ⟨hself, hmvd⟩ | ⟨-, hmax, hmvd⟩ := hstep.controlRevision
  · exact fun hzero => ih (hkept.symm.trans hzero)
  · rw [show job'.jobControlRevision = next from hmvd]
    exact hisd.succ_ne_zero (by rw [hself]; exact nofun)
  rw [show job'.jobControlRevision = job.jobControlRevision + 1 from hmvd]
  exact State.succ_ne_zero hmax

/-! ## Workers -/

/-- A worker's record is well formed and stored under its node. -/
def WorkerShape (workerID : U16) (worker : WorkerRecord) : Prop :=
  workerID ≠ 0 ∧ worker.nodeID = workerID ∧ worker.validate = true

variable {workerID : U16} {worker : WorkerRecord} {index term : U64}

lemma WorkerShape.move (h : WorkerShape workerID worker) (hnext : next ≠ 0) (state : WorkerState) :
    WorkerShape workerID { worker with state, revision := next } := by
  refine ⟨h.1, h.2.1, ?_⟩
  have hval := h.2.2
  simp only [WorkerRecord.validate, and_eq_true, decide_eq_true_eq] at hval ⊢
  obtain ⟨⟨⟨⟨⟨hnode, -⟩, hslots⟩, hlim⟩, hep⟩, hprints⟩ := hval
  exact ⟨⟨⟨⟨⟨hnode, hnext⟩, hslots⟩, hlim⟩, hep⟩, hprints⟩

lemma Effect.workerShape (h : Effect m index term next command changed growth) (hisd : Issued m command next)
    (hm : ∀ workerID worker, m.workers.find? workerID = some worker → WorkerShape workerID worker)
    (hfind : changed.workers.find? workerID = some worker) : WorkerShape workerID worker := by
  -- one record is stored, all others stay
  have hstore : ∀ stored record, changed.workers = m.workers.insert stored record →
      WorkerShape stored record → WorkerShape workerID worker := by
    intro stored record hworkers hshp
    rw [hworkers] at hfind
    by_cases heq : stored = workerID
    · subst heq
      rw [find?_insert_self] at hfind
      cases hfind
      exact hshp
    rw [find?_insert_ne _ _ heq] at hfind
    exact hm workerID worker hfind
  cases h with
  | begin | submit => exact hm workerID worker hfind
  | register | revive =>
    obtain ⟨-, -, hflds⟩ := hisd nofun
    simp only [fieldsValid, and_eq_true, decide_eq_true_eq] at hflds
    exact hstore _ _ rfl ⟨hflds.1.1.1, rfl, hflds.1.1.2⟩
  | drain hcur => exact hstore _ _ rfl ((hm _ _ hcur).move (hisd.succ_ne_zero nofun) .draining)
  | deactivate hcur => exact hstore _ _ rfl ((hm _ _ hcur).move (hisd.succ_ne_zero nofun) .offline)
  | replaceEpoch =>
    obtain ⟨-, -, hflds⟩ := hisd nofun
    simp only [fieldsValid, and_eq_true, decide_eq_true_eq] at hflds
    exact hstore _ _ rfl ⟨hflds.1.1.1.1, hflds.1.2.1.1, hflds.1.1.2⟩
  | job =>
    rw [moveCursor_workers] at hfind
    exact hm workerID worker hfind

lemma Reachable.workerShape (h : Reachable m) (hwkr : m.workers.find? workerID = some worker) :
    WorkerShape workerID worker := by
  refine h.induct (P := fun m => ∀ workerID worker, m.workers.find? workerID = some worker →
    WorkerShape workerID worker) ?_ ?_ workerID worker hwkr
  · intro workerID worker hfind
    cases hfind
  intro m entry result m' hm ih happs workerID worker hfind
  obtain hsame | ⟨command, next, changed, growth, heff⟩ := happs.cases
  · rw [hsame.workers] at hfind
    exact ih workerID worker hfind
  rw [heff.same.workers] at hfind
  exact heff.effect.workerShape (heff.issued hm) ih hfind

/-- What a machine's records, histories and fence satisfy. -/
structure WellFormed (m : Machine) : Prop where
  jobs : ∀ {key job}, m.jobs.find? key = some job →
    JobDefined key job ∧ JobSources key job ∧ JobPlaced key job ∧ JobMarked key job ∧ JobFinished key job
  workers : ∀ {workerID worker}, m.workers.find? workerID = some worker → WorkerShape workerID worker
  histories : Histories m
  fence : Fenced m

/-- Whatever was applied, the machine is well formed. -/
theorem reachable_wellFormed (hm : Reachable m) : WellFormed m where
  jobs hjob :=
    ⟨hm.jobDefined hjob, hm.jobSources hjob, hm.jobPlaced hjob, hm.jobMarked hjob, hm.jobFinished hjob⟩
  workers hworker := hm.workerShape hworker
  histories := hm.histories
  fence := hm.fenced

/-! ## Finished jobs stay as they are -/

/-- The entry is a `ReplaceAssignments`, admitted and with the revision it expects, that finds the
job canceled with markers left and names its placement and its markers. -/
def Revives (m : Machine) (entry : LogEntry) (key : JobID) (job : JobRecord) : Prop :=
  job.lifecycle = .canceled ∧ ∃ command internal, unmarshalCommand entry.command = some command ∧
    command.envelope.identity = .inr internal ∧ Admitted m command internal ∧
    internal.expectedRevision = m.standing command.target ∧ Replaceable m key job command

/-- The entry revives no job. -/
def SparesCanceled (m : Machine) (entry : LogEntry) : Prop :=
  ∀ key job, m.jobs.find? key = some job → ¬ Revives m entry key job

omit [Contract] in
/-- A finished job with markers is a canceled one. -/
lemma JobMarked.canceled (h : JobMarked key job) (hfin : job.lifecycle.terminal = true)
    (hmks : job.needsReassignment ≠ []) : job.lifecycle = .canceled := by
  cases hlife : job.lifecycle with
  | canceled => rfl
  | succeeded => exact absurd (h.finished (.inl hlife)) hmks
  | failed => exact absurd (h.finished (.inr hlife)) hmks
  | _ =>
    rw [hlife] at hfin
    cases hfin

lemma Applies.frozen (hm : Reachable m) (h : Applies m entry result m')
    (hjob : m.jobs.find? key = some job) (hfin : job.lifecycle.terminal = true) :
    (∃ job', m'.jobs.find? key = some job' ∧ Frozen job job') ∨ Revives m entry key job := by
  obtain hkept | ⟨command, next, changed, growth, heff, hstep⟩ := h.jobStep hm.keyed key
  · rw [hkept]
    exact .inl ⟨job, hjob, .refl job⟩
  rw [hjob] at hstep
  refine (hstep.frozen hfin).imp id ?_
  intro hrplc
  refine ⟨(hm.jobMarked hjob).canceled hfin hrplc.1, command, ?_⟩
  cases hident : command.envelope.identity with
  | inl client =>
    -- no client asks for a placement
    have hbd := (Command.client_target heff.valid hident).2
    obtain ⟨-, _, _, _, -, htarg, -⟩ := hrplc
    rw [htarg] at hbd
    cases hbd
  | inr internal =>
    obtain ⟨hadm, hexp, -⟩ := heff.internal internal hident
    exact ⟨internal, heff.decoded, rfl, hadm, hexp, hrplc⟩

/-- Along a run whose entries do not revive the job as it was finished, it stays as it is. -/
lemma RunWhere.frozen {condition : Machine → LogEntry → Prop} {log : List LogEntry} (hm : Reachable m)
    (hrun : RunWhere condition m log m') (hjob : m.jobs.find? key = some job)
    (hfin : job.lifecycle.terminal = true)
    (hspares : ∀ m entry job', condition m entry → m.jobs.find? key = some job' →
      job'.lifecycle = job.lifecycle → ¬ Revives m entry key job') :
    ∃ job', m'.jobs.find? key = some job' ∧ Frozen job job' := by
  have hall : Reachable m' ∧ ∃ job', m'.jobs.find? key = some job' ∧ Frozen job job' := by
    induction hrun with
    | start => exact ⟨hm, job, hjob, .refl job⟩
    | next _ hstep hcond ih =>
      obtain ⟨hreach, job1, hjob1, hfrozen⟩ := ih
      have hfin1 : job1.lifecycle.terminal = true := by rw [hfrozen.lifecycle, hfin]
      obtain ⟨job2, hjob2, hfrozen2⟩ := (hstep.frozen hreach hjob1 hfin1).resolve_right
        (hspares _ _ job1 hcond hjob1 hfrozen.lifecycle)
      exact ⟨hreach.applies hstep, job2, hjob2, hfrozen.trans hfrozen2⟩
  exact hall.2

/-- Succeeded and failed jobs are frozen along every run, and canceled ones along every run that
revives none of them; an entry that changes a finished job is one that revives it. Until a job is
finished its lifecycle only moves along the edges. -/
theorem finished_jobs_are_frozen (hm : Reachable m) :
    (∀ log m' key job, RunWhere SparesCanceled m log m' → m.jobs.find? key = some job →
        job.lifecycle.terminal = true → ∃ job', m'.jobs.find? key = some job' ∧ Frozen job job') ∧
      (∀ log m' key job, Run m log m' → m.jobs.find? key = some job →
        job.lifecycle = .succeeded ∨ job.lifecycle = .failed →
          ∃ job', m'.jobs.find? key = some job' ∧ Frozen job job') ∧
      ∀ entry result m' key, Applies m entry result m' →
        LifecycleStep (m.jobs.find? key) (m'.jobs.find? key) ∧
          ∀ job, m.jobs.find? key = some job → job.lifecycle.terminal = true →
            (∃ job', m'.jobs.find? key = some job' ∧ Frozen job job') ∨ Revives m entry key job := by
  refine ⟨?_, ?_, ?_⟩
  · intro log m' key job hrun hjob hfin
    refine hrun.frozen hm hjob hfin ?_
    intro m entry job' hspares hjob' _
    exact hspares key job' hjob'
  · intro log m' key job hrun hjob hphase
    have hfin : job.lifecycle.terminal = true := by rcases hphase with h | h <;> rw [h] <;> rfl
    refine hrun.always.frozen hm hjob hfin ?_
    rintro m entry job' - - hkept ⟨hcanc, -⟩
    rw [hkept] at hcanc
    rcases hphase with h | h <;> rw [h] at hcanc <;> cases hcanc
  intro entry result m' key happs
  constructor
  · obtain hkept | ⟨command, next, changed, growth, heff, hstep⟩ := happs.jobStep hm.keyed key
    · rw [hkept]
      exact .refl _
    · exact hstep.lifecycle
  intro job hjob hfin
  exact happs.frozen hm hjob hfin

lemma sparesCanceled_of_kind (h : ((unmarshalCommand entry.command).all fun command =>
      command.target.kind ≠ .replaceAssignments) = true) : SparesCanceled m entry := by
  rintro key job - ⟨-, command, internal, hdec, -, -, -, -, _, _, _, -, htarg, -⟩
  rw [hdec, Option.all_some, htarg] at h
  cases h

end Steps

/-! ## A canceled job that is given a new placement -/

section Canceled

local instance canceledContract : Contract := sampleContract

open Sample

/-- The second worker goes, so that the copy it holds is marked, and the job is canceled. Then two
commands are possible: the worker comes back, or the copy is placed anew. -/
lemma canceled_run : ∃ log m job, Run .new log m ∧ m.jobs.find? jobID = some job ∧ job.lifecycle = .canceled ∧
      (∃ entry m', m.perform 10 (register 8 2 m) = some (entry, m') ∧
        ((unmarshalCommand entry.command).all fun command =>
          command.target.kind ≠ .replaceAssignments) = true) ∧
      ∃ entry m' job', m.perform 10 (replace 8 2 1 m) = some (entry, m') ∧
        m'.jobs.find? jobID = some job' ∧ job'.assignment ≠ job.assignment ∧
        job'.needsReassignment ≠ job.needsReassignment ∧
        job'.jobControlRevision ≠ job.jobControlRevision := by
  obtain ⟨log, m, hrun, hchk⟩ :=
    exists_run_of_follow (deployed ++ [deactivate 7 2, cancel])
      (fun m => (m.jobs.find? jobID).any fun job => job.lifecycle = .canceled &&
        ((m.perform 10 (register 8 2 m)).any fun step =>
          (unmarshalCommand step.1.command).all fun command => command.target.kind ≠ .replaceAssignments) &&
        (m.perform 10 (replace 8 2 1 m)).any fun step =>
          (step.2.jobs.find? jobID).any fun job' => job'.assignment ≠ job.assignment &&
            (job'.needsReassignment ≠ job.needsReassignment &&
              job'.jobControlRevision ≠ job.jobControlRevision)) (by decide +kernel)
  simp only [Option.any_eq_true, and_eq_true, decide_eq_true_eq] at hchk
  obtain ⟨job, hjob, ⟨hcanc, ⟨entry, m'⟩, hback, hkind⟩, ⟨entry', m''⟩, hrplc, job', hjob', hchgd⟩ := hchk
  exact ⟨log, m, job, hrun, hjob, hcanc, ⟨entry, m', hback, hkind⟩, entry', m'', job', hrplc, hjob', hchgd⟩

/-- The hypotheses are met by the canceled job when the worker comes back. -/
theorem finished_jobs_are_frozen_canceled :
    ∃ log m entry m' job job', Run .new log m ∧ RunWhere SparesCanceled m [entry] m' ∧
      m.jobs.find? jobID = some job ∧ job.lifecycle = .canceled ∧
      m'.jobs.find? jobID = some job' ∧ Frozen job job' := by
  obtain ⟨log, m, job, hrun, hjob, hcanc, ⟨entry, m', hback, hkind⟩, -⟩ := canceled_run
  obtain ⟨result, hstep⟩ := applies_of_perform hback
  have hspared : RunWhere SparesCanceled m [entry] m' :=
    RunWhere.next .start hstep (sparesCanceled_of_kind hkind)
  obtain ⟨job', hjob', hfrozen⟩ := (finished_jobs_are_frozen ⟨log, hrun⟩).1 [entry] m' jobID job
    hspared hjob (by rw [hcanc]; rfl)
  exact ⟨log, m, entry, m', job, job', hrun, hspared, hjob, hcanc, hjob', hfrozen⟩

/-- A replacement changes the canceled job: its placement, its markers and its revision. -/
theorem canceled_job_is_replaced : ∃ log m entry result m' job job', Run .new log m ∧ Applies m entry result m' ∧
      m.jobs.find? jobID = some job ∧ job.lifecycle = .canceled ∧
      m'.jobs.find? jobID = some job' ∧ job'.assignment ≠ job.assignment ∧
      job'.needsReassignment ≠ job.needsReassignment ∧
      job'.jobControlRevision ≠ job.jobControlRevision := by
  obtain ⟨log, m, job, hrun, hjob, hcanc, -, entry, m', job', hrplc, hjob', hchgd⟩ := canceled_run
  obtain ⟨result, hstep⟩ := applies_of_perform hrplc
  exact ⟨log, m, entry, result, m', job, job', hrun, hstep, hjob, hcanc, hjob', hchgd⟩

/-- A machine with workers that came and went and a canceled job. -/
theorem reachable_wellFormed_canceled : ∃ log m job, Run .new log m ∧ m.jobs.find? jobID = some job ∧
    job.lifecycle = .canceled ∧ WellFormed m := by
  obtain ⟨log, m, job, hrun, hjob, hcanc, -⟩ := canceled_run
  exact ⟨log, m, job, hrun, hjob, hcanc, reachable_wellFormed ⟨log, hrun⟩⟩

end Canceled

end Crane.State
