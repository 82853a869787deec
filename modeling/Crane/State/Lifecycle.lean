import Crane.State.Script

/-!
# The life of a job

A job's lifecycle only moves along its edges, and a finished job is left alone by every command but
one: `ReplaceAssignments` looks at the markers of a job and not at its lifecycle.
-/

namespace Crane.State

open Wire Data Model Bool

variable {kind : WorkerInvalidationKind} {revision : U64} {workerID : U16} {epoch : WorkerEpoch}
variable {affected : Option AffectedAssignment} {target : JobLifecycle} {new : Option JobRecord}

/-- Everything of a job that is not to change once it is finished. The records of why its markers
were set are not among it: they follow the workers. -/
structure Frozen (job job' : JobRecord) : Prop where
  lifecycle : job'.lifecycle = job.lifecycle
  jobControlRevision : job'.jobControlRevision = job.jobControlRevision
  assignment : job'.assignment = job.assignment
  needsReassignment : job'.needsReassignment = job.needsReassignment
  sourceEOFs : job'.sourceEOFs = job.sourceEOFs
  checkpoints : job'.checkpoints = job.checkpoints
  manifests : job'.manifests = job.manifests
  failure : job'.failure = job.failure

lemma Frozen.refl (job : JobRecord) : Frozen job job := ⟨rfl, rfl, rfl, rfl, rfl, rfl, rfl, rfl⟩

lemma Frozen.trans {a b c : JobRecord} (hab : Frozen a b) (hbc : Frozen b c) : Frozen a c where
  lifecycle := hbc.lifecycle.trans hab.lifecycle
  jobControlRevision := hbc.jobControlRevision.trans hab.jobControlRevision
  assignment := hbc.assignment.trans hab.assignment
  needsReassignment := hbc.needsReassignment.trans hab.needsReassignment
  sourceEOFs := hbc.sourceEOFs.trans hab.sourceEOFs
  checkpoints := hbc.checkpoints.trans hab.checkpoints
  manifests := hbc.manifests.trans hab.manifests
  failure := hbc.failure.trans hab.failure

/-- The edges of the lifecycle. -/
inductive LifecycleEdge : JobRecord → JobRecord → Prop where
  | deploy {job job' : JobRecord} (hold : job.lifecycle = .pending)
    (hnew : job'.lifecycle = .deploying) : LifecycleEdge job job'
  | run {job job' : JobRecord} (hold : job.lifecycle = .deploying)
    (hnew : job'.lifecycle = .running) : LifecycleEdge job job'
  | drain {job job' : JobRecord} (hold : job.lifecycle = .running)
    (hnew : job'.lifecycle = .draining) : LifecycleEdge job job'
  | succeed {job job' : JobRecord} (hold : job.lifecycle = .draining)
    (hnew : job'.lifecycle = .succeeded) : LifecycleEdge job job'
  | fail {job job' : JobRecord} (hassigned : job.assignment ≠ none)
    (hold : job.lifecycle = .deploying ∨ job.lifecycle = .running ∨ job.lifecycle = .draining)
    (hnew : job'.lifecycle = .failed) : LifecycleEdge job job'
  | cancel {job job' : JobRecord} (hold : job.lifecycle.terminal = false)
    (hnew : job'.lifecycle = .canceled) : LifecycleEdge job job'

/-- A job that is there stays, with its lifecycle kept or moved along an edge; a new one is
pending. -/
def LifecycleStep (old new : Option JobRecord) : Prop :=
  match old with
  | none => ∀ job ∈ new, job.lifecycle = .pending
  | some job => ∃ job', new = some job' ∧ (job'.lifecycle = job.lifecycle ∨ LifecycleEdge job job')

lemma LifecycleStep.refl (entry : Option JobRecord) : LifecycleStep entry entry := by
  cases entry with
  | none => exact fun job hjob => nomatch hjob
  | some job => exact ⟨job, rfl, .inl rfl⟩

section Steps

variable {m m' : Machine} {entry : LogEntry} {result : Bytes} {key : JobID}
variable {next : U64} {command : Command} {job job' : JobRecord}
variable {cursor : Option (WorkerEventKey × WorkerEventCursor)} {growth : Int}

section

variable (h : m.invalidateJob kind revision workerID epoch key job = some (job', affected))

include h

lemma invalidateJob_lifecycle : job'.lifecycle = job.lifecycle := by cases invalidateJob_eq_some h <;> rfl

/-- A finished job has no markers added. -/
lemma invalidateJob_frozen (hfin : job.lifecycle.terminal = true) : Frozen job job' := by
  have hnone : Machine.addedMarkers job workerID epoch = none := by simp [Machine.addedMarkers, hfin, guard]
  cases invalidateJob_eq_some h with
  | spared => exact ⟨rfl, rfl, rfl, rfl, rfl, rfl, rfl, rfl⟩
  | marked hadded =>
    rw [hnone] at hadded
    cases hadded

end

variable [Contract]

lemma transitionAllowed_edge (h : Machine.transitionAllowed job job.lifecycle target = true)
    (hnew : job'.lifecycle = target) : LifecycleEdge job job' := by
  cases hold : job.lifecycle <;> rw [hold] at h <;> cases target <;> first
    | exact .run hold hnew
    | exact .drain hold hnew
    | exact .succeed hold hnew
    | cases h

lemma transitionAllowed_live {origin : JobLifecycle}
    (h : Machine.transitionAllowed job origin target = true) : origin.terminal = false := by
  cases origin <;> first
    | rfl
    | cases target <;> cases h

lemma JobChange.lifecycle (h : JobChange m next command key job job' cursor growth) :
    job'.lifecycle = job.lifecycle ∨ LifecycleEdge job job' := by
  cases h with
  | cancel hlive => exact .inr (.cancel hlive rfl)
  | recordEOF | replace | advance | sealManifest => exact .inl rfl
  | install hpend => exact .inr (.deploy hpend rfl)
  | transition _ _ hallow => exact .inr (transitionAllowed_edge hallow rfl)
  | fail hval =>
    simp only [Machine.failureReportValid, and_eq_true, or_eq_true, decide_eq_true_eq]
      at hval
    obtain ⟨⟨hlife, hassig⟩, -⟩ := hval
    refine .inr (.fail ?_ (or_assoc.mp hlife) rfl)
    intro hnone
    rw [hnone] at hassig
    cases hassig

lemma JobStep.lifecycle {old : Option JobRecord} (h : JobStep m next command key old new) :
    LifecycleStep old new := by
  cases h with
  | kept => exact .refl _
  | submitted =>
    intro job hjob
    cases hjob
    rfl
  | pruned => exact ⟨_, rfl, .inl rfl⟩
  | invalidated _ _ hinv => exact ⟨_, rfl, .inl (invalidateJob_lifecycle hinv)⟩
  | changed hchg => exact ⟨_, rfl, hchg.lifecycle⟩

/-- The command asks for another placement of the job, and names the placement and the markers as
they stand: a job with markers is given the new placement whatever its lifecycle is. -/
def Replaceable (m : Machine) (key : JobID) (job : JobRecord) (command : Command) : Prop :=
  job.needsReassignment ≠ [] ∧ ∃ assignment target topology, job.assignment = some assignment ∧
    command.target = .replaceAssignments key assignment.revision assignment.digest
      (needsReassignmentDigest job.needsReassignment) target ∧
    decodeTopology job.topologyBytes = some topology ∧ target.validate topology = true ∧
    validateReplacement assignment target job.needsReassignment = true ∧
    m.replacementUsesCurrentWorkers assignment target key = true

/-- Of the commands on one job, only a replacement changes a finished one. -/
lemma JobChange.replaceable (h : JobChange m next command key job job' cursor growth)
    (hfin : job.lifecycle.terminal = true) : Replaceable m key job command := by
  cases h with
  | cancel hlive =>
    rw [hfin] at hlive
    cases hlive
  | recordEOF hpend | install hpend =>
    rw [hpend] at hfin
    cases hfin
  | replace hassign hmks htopo hval hrplcs hcur =>
    exact ⟨hmks, _, _, _, hassign, rfl, htopo, hval, hrplcs, hcur⟩
  | advance hval =>
    simp only [Machine.checkpointReportValid, and_eq_true, or_eq_true, decide_eq_true_eq] at hval
    obtain hphase | hphase := hval.1.1.1 <;> rw [hphase] at hfin <;> cases hfin
  | sealManifest hval =>
    simp only [Machine.manifestValid, and_eq_true, decide_eq_true_eq] at hval
    rw [hval.1.1.1.1.1.1.1] at hfin
    cases hfin
  | transition _ _ hallow =>
    rw [transitionAllowed_live hallow] at hfin
    cases hfin
  | fail hval =>
    simp only [Machine.failureReportValid, and_eq_true, or_eq_true, decide_eq_true_eq]
      at hval
    obtain (hphase | hphase) | hphase := hval.1.1 <;> rw [hphase] at hfin <;> cases hfin

lemma JobStep.frozen (h : JobStep m next command key (some job) new)
    (hfin : job.lifecycle.terminal = true) :
    (∃ job', new = some job' ∧ Frozen job job') ∨ Replaceable m key job command := by
  cases h with
  | kept => exact .inl ⟨job, rfl, .refl job⟩
  | pruned => exact .inl ⟨_, rfl, ⟨rfl, rfl, rfl, rfl, rfl, rfl, rfl, rfl⟩⟩
  | invalidated _ _ hinv => exact .inl ⟨_, rfl, invalidateJob_frozen hinv hfin⟩
  | changed hchg => exact .inr (hchg.replaceable hfin)

end Steps

end Crane.State
