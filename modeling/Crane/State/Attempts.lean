import Crane.State.Shape

/-!
# Attempts

A task keeps its place until its place is marked. The command that replaces a placement moves every
marked target and no other, and the attempt of a task counts its moves. An attempt therefore stands
for one place of its task over the whole run (`AttemptsFence.attempt`).
-/

namespace Crane.State

open Wire Data Model List ResultReplicaSet

variable {marker : NeedsReassignment} {before after : ResultReplicaSet} {role : ResultReplicaRole}

/-- Two lists with the same keys in the same order pair up what has the same key. -/
lemma mem_zip_of_key {A B K : Type} {f : A → K} {g : B → K} {as : List A} {bs : List B}
    (hkeys : as.map f = bs.map g) (hnodup : (as.map f).Nodup) {a : A} {b : B} (ha : a ∈ as)
    (hb : b ∈ bs) (hkey : f a = g b) : (a, b) ∈ as.zip bs := by
  induction as generalizing bs with
  | nil => cases ha
  | cons _ _ ih =>
    cases bs with
    | nil => cases hb
    | cons =>
      obtain ⟨hhead, hrest⟩ := cons.inj hkeys
      obtain ⟨hfrs, hnodup⟩ := nodup_cons.mp hnodup
      rw [zip_cons_cons, mem_cons]
      cases mem_cons.mp ha with
      | inl ha =>
        cases mem_cons.mp hb with
        | inl hb => exact .inl (by rw [ha, hb])
        | inr hb =>
          -- the first key does not come again
          refine absurd ?_ hfrs
          rw [hrest, ← ha, hkey]
          exact mem_map_of_mem hb
      | inr ha =>
        cases mem_cons.mp hb with
        | inl hb =>
          refine absurd ?_ hfrs
          rw [hhead, ← hb, ← hkey]
          exact mem_map_of_mem ha
        | inr hb => exact .inr (ih hrest hnodup ha hb)

/-! ## One replacement -/

/-- The marker is about the task. -/
def NeedsReassignment.ofTask (marker : NeedsReassignment) (task : TaskID) : Prop :=
  marker.kind = .task ∧ marker.task = task

/-- The marker is about one copy of the sink's results. -/
def NeedsReassignment.ofReplica (marker : NeedsReassignment) (sink : TaskID)
    (role : ResultReplicaRole) : Prop :=
  marker.kind = .resultReplica ∧ marker.sinkTask = sink ∧ marker.replicaRole = some role

/-- What becomes of a token. -/
inductive TokenStep (markers : List NeedsReassignment) (before after : AssignmentToken) : Prop where
  | kept (hworker : after.workerID = before.workerID) (hepoch : after.workerEpoch = before.workerEpoch)
    (hattempt : after.attempt = before.attempt)
    (hunmarked : ∀ marker ∈ markers, ¬ marker.ofTask before.task)
  | moved (hplace : ¬ (after.workerID = before.workerID ∧ after.workerEpoch = before.workerEpoch))
    (hmax : before.attempt ≠ BitVec.allOnes 64) (hattempt : after.attempt = before.attempt + 1)
    (hmarked : ∃ marker ∈ markers, marker.ofTask before.task)
    (hleft : ∀ marker ∈ markers, marker.ofTask before.task →
      ¬ (after.workerID = marker.oldWorkerID ∧ after.workerEpoch = marker.oldWorkerEpoch))

/-- What becomes of a copy. -/
inductive EndpointStep (markers : List NeedsReassignment) (sink : TaskID) (role : ResultReplicaRole)
    (before after : U16 × WorkerEpoch) : Prop where
  | kept (hsame : after = before) (hunmarked : ∀ marker ∈ markers, ¬ marker.ofReplica sink role)
  | moved (hchanged : after ≠ before) (hmarked : ∃ marker ∈ markers, marker.ofReplica sink role)
    (hleft : ∀ marker ∈ markers, marker.ofReplica sink role → after ≠ (marker.oldWorkerID, marker.oldWorkerEpoch))

/-- One placement follows another, target by target. -/
structure Replaced (markers : List NeedsReassignment) (old new : AssignmentSet) : Prop where
  revision : old.revision ≠ BitVec.allOnes 64 ∧ new.revision = old.revision + 1
  tasks : new.tasks.map (·.task) = old.tasks.map (·.task)
  tokens : ∀ before ∈ old.tasks, ∀ after ∈ new.tasks, after.task = before.task → TokenStep markers before after
  sinks : new.resultReplicas.map (·.sinkTask) = old.resultReplicas.map (·.sinkTask)
  replicas : ∀ before ∈ old.resultReplicas, ∀ after ∈ new.resultReplicas,
    after.sinkTask = before.sinkTask → ∀ role, EndpointStep markers before.sinkTask role
      (endpoint before role) (endpoint after role)

section Steps

variable {m m' : Machine} {entry : LogEntry} {result : Bytes} {command : Command} {next : U64}
variable {key : JobID} {job job' : JobRecord} {old new : AssignmentSet}
variable {markers : List NeedsReassignment}

lemma markedTask_eq_none {task : TaskID} :
    markedTask markers task = none ↔ ∀ marker ∈ markers, ¬ marker.ofTask task := by
  simp [markedTask, NeedsReassignment.ofTask]

lemma markedTask_eq_some {task : TaskID} (h : markedTask markers task = some marker) :
    marker ∈ markers ∧ marker.ofTask task := by
  have hmem := mem_of_find?_eq_some h
  have hmarks := find?_some h
  rw [decide_eq_true_eq] at hmarks
  exact ⟨mem_reverse.mp hmem, hmarks⟩

/-- A task's markers name the place it has. -/
lemma ofTask_place (hnodup : (old.tasks.map (·.task)).Nodup)
    (htargs : ∀ marker ∈ markers, snapshotMarkerTargetsAssignment marker (some old) = true)
    {before : AssignmentToken} (hbef : before ∈ old.tasks) (hmk : marker ∈ markers)
    (htask : marker.ofTask before.task) :
    marker.oldWorkerID = before.workerID ∧ marker.oldWorkerEpoch = before.workerEpoch := by
  have htarg := htargs marker hmk
  simp only [snapshotMarkerTargetsAssignment, htask.1, any_eq_true, decide_eq_true_eq] at htarg
  obtain ⟨token, htok, hsame, hplc⟩ := htarg
  -- no other token has the task
  have heq : token = before := by
    refine inj_on_of_nodup_map hnodup htok hbef ?_
    rw [← hsame, htask.2]
  rw [← heq]
  exact hplc

lemma tokenStep_of_replaces (hnodup : (old.tasks.map (·.task)).Nodup)
    (htargs : ∀ marker ∈ markers, snapshotMarkerTargetsAssignment marker (some old) = true)
    {before after : AssignmentToken} {revision : U64} (hbef : before ∈ old.tasks)
    (hatt : after.attempt ≠ 0) (h : replacesTask markers revision before after = true) :
    TokenStep markers before after := by
  simp only [replacesTask, Bool.and_eq_true, decide_eq_true_eq] at h
  obtain ⟨⟨⟨hiff, hcnt⟩, -⟩, -⟩ := h
  by_cases hchgd : before.workerID ≠ after.workerID ∨ before.workerEpoch ≠ after.workerEpoch
  · rw [if_pos hchgd] at hcnt
    have hplc : ¬ (after.workerID = before.workerID ∧ after.workerEpoch = before.workerEpoch) := by
      intro hsame
      cases hchgd with
      | inl hwkr => exact hwkr hsame.1.symm
      | inr hep => exact hep hsame.2.symm
    obtain ⟨marker, hmk⟩ := Option.isSome_iff_exists.mp (hiff.mp hchgd)
    refine .moved hplc ?_ hcnt ⟨marker, markedTask_eq_some hmk⟩ ?_
    · -- an attempt that wraps around is zero, and zero is no attempt
      intro hmax
      rw [hcnt, hmax] at hatt
      exact hatt rfl
    intro marker hmk htask hsame
    obtain ⟨hwkr, hep⟩ := ofTask_place hnodup htargs hbef hmk htask
    rw [hwkr, hep] at hsame
    exact hplc hsame
  rw [if_neg hchgd] at hcnt
  have hnone : markedTask markers before.task = none := by
    rw [← Option.not_isSome_iff_eq_none]
    exact fun hsome => hchgd (hiff.mpr hsome)
  simp only [not_or, not_not] at hchgd
  exact .kept hchgd.1.symm hchgd.2.symm hcnt (markedTask_eq_none.mp hnone)

lemma markedReplica_iff {sink : TaskID} :
    markedReplica markers sink role = true ↔ ∃ marker ∈ markers, marker.ofReplica sink role := by
  have hkind : ∀ marker : NeedsReassignment, marker.kind ≠ .task ↔ marker.kind = .resultReplica := by
    intro marker
    cases marker.kind <;> simp
  simp only [markedReplica, any_eq_true, decide_eq_true_eq, NeedsReassignment.ofReplica, hkind]

/-- The markers of a copy name the place it has. -/
lemma ofReplica_place (hnodup : (old.resultReplicas.map (·.sinkTask)).Nodup)
    (htargs : ∀ marker ∈ markers, snapshotMarkerTargetsAssignment marker (some old) = true)
    (hbef : before ∈ old.resultReplicas) (hmk : marker ∈ markers)
    (hrepl : marker.ofReplica before.sinkTask role) :
    (marker.oldWorkerID, marker.oldWorkerEpoch) = endpoint before role := by
  have htarg := htargs marker hmk
  obtain ⟨hkind, hsink, hrole⟩ := hrepl
  simp only [snapshotMarkerTargetsAssignment, hkind, hrole, hsink,
    find?_of_nodup_map hnodup hbef, decide_eq_true_eq] at htarg
  exact htarg

lemma endpointStep_of_marked (hnodup : (old.resultReplicas.map (·.sinkTask)).Nodup)
    (htargs : ∀ marker ∈ markers, snapshotMarkerTargetsAssignment marker (some old) = true)
    (hbef : before ∈ old.resultReplicas)
    (h : endpoint after role ≠ endpoint before role ↔
      markedReplica markers before.sinkTask role = true) :
    EndpointStep markers before.sinkTask role (endpoint before role)
      (endpoint after role) := by
  by_cases hchgd : endpoint after role = endpoint before role
  · refine .kept hchgd ?_
    intro marker hmk hrepl
    exact h.mpr (markedReplica_iff.mpr ⟨marker, hmk, hrepl⟩) hchgd
  refine .moved hchgd (markedReplica_iff.mp (h.mp hchgd)) ?_
  intro marker hmk hrepl
  rw [ofReplica_place hnodup htargs hbef hmk hrepl]
  exact hchgd

lemma replacesReplica_endpoint (h : replacesReplica markers before after = true) (role : ResultReplicaRole) :
    endpoint after role ≠ endpoint before role ↔
      markedReplica markers before.sinkTask role = true := by
  simp only [replacesReplica, Bool.and_eq_true, decide_eq_true_eq] at h
  have hpair : ∀ (id id' : U16) (epoch epoch' : WorkerEpoch),
      (id', epoch') ≠ (id, epoch) ↔ id ≠ id' ∨ epoch ≠ epoch' := by
    intro id id' epoch epoch'
    rw [ne_eq, Prod.mk.injEq, not_and_or]
    exact or_congr ne_comm ne_comm
  cases role with
  | primary => exact (hpair _ _ _ _).trans h.1
  | secondary => exact (hpair _ _ _ _).trans h.2

variable [Contract]

/-- A replacement that is accepted follows the placement it replaces. -/
lemma JobChange.replaced (hpld : JobPlaced key job) (hmkd : JobMarked key job)
    {target : AssignmentSet} {topology : ValidatedTopology} (hassign : job.assignment = some old)
    (htopo : decodeTopology job.topologyBytes = some topology) (hval : target.validate topology = true)
    (hrplcs : validateReplacement old target job.needsReassignment = true) :
    Replaced job.needsReassignment old target := by
  obtain ⟨-, topology', htopo', hval'⟩ := hpld.valid old hassign
  cases htopo.symm.trans htopo'
  have hold := AssignmentSet.validate_eq_true hval'
  have hnew := AssignmentSet.validate_eq_true hval
  have hstgs := (validateTopology_eq_some (decodeTopology_eq_some htopo).1).2.2.2
  have htargs := hmkd.targets
  rw [hassign] at htargs
  simp only [validateReplacement, Bool.and_eq_true, decide_eq_true_eq, all_eq_true, Prod.forall] at hrplcs
  obtain ⟨⟨⟨⟨⟨hjob, hrev⟩, -⟩, -⟩, htasks⟩, hrepls⟩ := hrplcs
  have hsameT : target.tasks.map (·.task) = old.tasks.map (·.task) := by rw [hnew.tasks, hold.tasks, hjob]
  have hsameS : target.resultReplicas.map (·.sinkTask) = old.resultReplicas.map (·.sinkTask) := by
    rw [hnew.sinks, hold.sinks, hjob]
  refine ⟨⟨?_, hrev⟩, hsameT, ?_, hsameS, ?_⟩
  · intro hmax
    rw [hmax] at hrev
    exact hnew.revision hrev
  · intro before hbef after haft htask
    have hpair := mem_zip_of_key hsameT.symm (hold.nodup_tasks hstgs) hbef haft htask.symm
    have hatt : after.attempt ≠ 0 := by
      obtain ⟨hval, -⟩ := hnew.tokens after haft
      simp only [AssignmentToken.validate, Bool.and_eq_true, bne_iff_ne] at hval
      exact hval.1.2
    exact tokenStep_of_replaces (hold.nodup_tasks hstgs) htargs hbef hatt
      (htasks before after hpair)
  intro before hbef after haft hsink role
  have hpair := mem_zip_of_key hsameS.symm hold.nodup_sinks hbef haft hsink.symm
  exact endpointStep_of_marked hold.nodup_sinks htargs hbef
    (replacesReplica_endpoint (hrepls before after hpair) role)

/-! ## One entry -/

/-- What an entry makes of the placement of a job. -/
inductive PlacementStep (entry : LogEntry) (key : JobID) (job job' : JobRecord) : Prop where
  /-- A replacement that leaves the placement as it is was refused, and leaves the job as it is. -/
  | kept (hsame : job'.assignment = job.assignment)
    (hrefused : ∀ command expected digest markers target, unmarshalCommand entry.command = some command →
      command.target = .replaceAssignments key expected digest markers target → job' = job)
  | installed {set : AssignmentSet} (hnone : job.assignment = none) (hset : job'.assignment = some set)
  | replaced {command : Command} {expected : U64} {digest markers : Array32} {old new : AssignmentSet}
    (hdecoded : unmarshalCommand entry.command = some command)
    (htarget : command.target = .replaceAssignments key expected digest markers new)
    (hold : job.assignment = some old) (hnew : job'.assignment = some new)
    (hreplaced : Replaced job.needsReassignment old new)

lemma JobChange.placementStep (hm : Reachable m) (hjob : m.jobs.find? key = some job)
    {cursor : Option (WorkerEventKey × WorkerEventCursor)} {growth : Int}
    (hdec : unmarshalCommand entry.command = some command)
    (h : JobChange m next command key job job' cursor growth) : PlacementStep entry key job job' := by
  have hoth : (∀ expected digest markers target,
        command.target ≠ .replaceAssignments key expected digest markers target) →
      ∀ command expected digest markers target, unmarshalCommand entry.command = some command →
        command.target = .replaceAssignments key expected digest markers target → job' = job := by
    intro hkind command' expected digest markers target hdec' htarg
    cases hdec.symm.trans hdec'
    exact absurd htarg (hkind expected digest markers target)
  cases h with
  | install _ hnone => exact .installed hnone rfl
  | replace hassign _ htopo hval hrplcs =>
    exact .replaced hdec rfl hassign rfl
      (JobChange.replaced (hm.jobPlaced hjob) (hm.jobMarked hjob) hassign htopo hval
        hrplcs)
  | cancel | recordEOF | advance | sealManifest | transition | fail => exact .kept rfl (hoth nofun)

lemma Applies.placementStep (hm : Reachable m) (h : Applies m entry result m')
    (hjob : m.jobs.find? key = some job) :
    ∃ job', m'.jobs.find? key = some job' ∧ PlacementStep entry key job job' := by
  obtain ⟨job', hjob', hkept⟩ := h.jobKept hm.keyed hjob
  refine ⟨job', hjob', ?_⟩
  obtain hsame | ⟨command, next, changed, growth, heff, hstep⟩ := hkept
  · rw [hsame]
    exact .kept rfl (fun _ _ _ _ _ _ _ => rfl)
  -- a worker's command is no replacement
  have hwkr : ∀ {workerID}, command.target.subject = .worker workerID →
      ∀ command' expected digest markers target, unmarshalCommand entry.command = some command' →
        command'.target = .replaceAssignments key expected digest markers target → job' = job := by
    intro workerID hsubj command' expected digest markers target hdec htarg
    cases heff.decoded.symm.trans hdec
    rw [htarg] at hsubj
    cases hsubj
  cases hstep with
  | kept => exact .kept rfl (fun _ _ _ _ _ _ _ => rfl)
  | pruned hsubj => exact .kept rfl (hwkr hsubj)
  | invalidated hsubj _ hinv =>
    refine .kept ?_ (hwkr hsubj)
    cases invalidateJob_eq_some hinv <;> rfl
  | changed hchg => exact hchg.placementStep hm hjob heff.decoded

/-! ## Runs -/

/-- A later placement of the same tasks: attempts do not go back, and one attempt is one place. -/
structure Follows (old new : AssignmentSet) : Prop where
  revision : old.revision ≤ new.revision
  tasks : new.tasks.map (·.task) = old.tasks.map (·.task)
  attempts : ∀ before ∈ old.tasks, ∀ after ∈ new.tasks, after.task = before.task →
    before.attempt ≤ after.attempt ∧ (after.attempt = before.attempt →
      after.workerID = before.workerID ∧ after.workerEpoch = before.workerEpoch)

section

omit [Contract]

lemma Follows.refl (hnodup : (old.tasks.map (·.task)).Nodup) : Follows old old where
  revision := BitVec.le_refl _
  tasks := rfl
  attempts before hbef after haft htask := by
    have heq : after = before := inj_on_of_nodup_map hnodup haft hbef htask
    rw [heq]
    exact ⟨BitVec.le_refl _, fun _ => ⟨rfl, rfl⟩⟩

lemma Follows.trans {middle : AssignmentSet} (h : Follows old middle) (h' : Follows middle new) :
    Follows old new where
  revision := BitVec.le_trans h.revision h'.revision
  tasks := h'.tasks.trans h.tasks
  attempts before hbef after haft htask := by
    have hmem : before.task ∈ middle.tasks.map (·.task) := by
      rw [h.tasks]
      exact mem_map_of_mem hbef
    obtain ⟨between, hbetween, hsame⟩ := mem_map.mp hmem
    obtain ⟨hle, hplc⟩ := h.attempts before hbef between hbetween hsame
    obtain ⟨hle', hplc'⟩ := h'.attempts between hbetween after haft (htask.trans hsame.symm)
    refine ⟨BitVec.le_trans hle hle', ?_⟩
    intro heq
    -- between equal attempts there is no other
    have hbetween : between.attempt = before.attempt := by
      rw [heq] at hle'
      exact BitVec.le_antisymm hle' hle
    obtain ⟨hwkr, hep⟩ := hplc hbetween
    obtain ⟨hwkr', hep'⟩ := hplc' (heq.trans hbetween.symm)
    exact ⟨hwkr'.trans hwkr, hep'.trans hep⟩

lemma Replaced.follows (h : Replaced markers old new) : Follows old new where
  revision := by
    rw [h.revision.2, BitVec.le_def, toNat_succ h.revision.1]
    exact Nat.le_succ _
  tasks := h.tasks
  attempts before hbef after haft htask := by
    cases h.tokens before hbef after haft htask with
    | kept hwkr hep hatt =>
      rw [hatt]
      exact ⟨BitVec.le_refl _, fun _ => ⟨hwkr, hep⟩⟩
    | moved _ hmax hatt =>
      have hnext : after.attempt.toNat = before.attempt.toNat + 1 := by rw [hatt, toNat_succ hmax]
      constructor
      · rw [BitVec.le_def, hnext]
        exact Nat.le_succ _
      intro heq
      rw [heq] at hnext
      exact absurd hnext (Nat.ne_of_lt (Nat.lt_succ_self _))

end

lemma Run.follows (hm : Reachable m) {log : List LogEntry} (h : Run m log m')
    (hjob : m.jobs.find? key = some job) (hold : job.assignment = some old) :
    ∃ job' new, m'.jobs.find? key = some job' ∧ job'.assignment = some new ∧ Follows old new := by
  induction h with
  | start =>
    obtain ⟨topology, hcompl, hstgs⟩ := (hm.jobPlaced hjob).complete hold
    exact ⟨job, old, hjob, hold, .refl (hcompl.nodup_tasks hstgs)⟩
  | next hrun hstep ih =>
    obtain ⟨job1, middle, hjob1, hmiddle, hfollows⟩ := ih
    obtain ⟨job2, hjob2, hplac⟩ := hstep.placementStep (hm.run hrun) hjob1
    cases hplac with
    | kept hsame => exact ⟨job2, middle, hjob2, hsame.trans hmiddle, hfollows⟩
    | installed hnone => cases hmiddle.symm.trans hnone
    | replaced _ _ hold' hnew hrplcd =>
      cases hmiddle.symm.trans hold'
      exact ⟨job2, _, hjob2, hnew, hfollows.trans hrplcd.follows⟩

/-! ## All of it -/

structure AttemptsFence (m : Machine) : Prop where
  /-- Placements change by replacement only, from one revision to the next; a token is a new attempt
  exactly if it moves, exactly the marked targets move, and none of them to where it was. -/
  step : ∀ {entry result m' key job}, Applies m entry result m' → m.jobs.find? key = some job →
    ∃ job', m'.jobs.find? key = some job' ∧ PlacementStep entry key job job'
  /-- Over a run, one attempt of a task is one place. -/
  attempt : ∀ {log m' key job job' old new}, Run m log m' → m.jobs.find? key = some job →
    m'.jobs.find? key = some job' → job.assignment = some old → job'.assignment = some new →
    Follows old new

theorem attempts_fence_placements (hm : Reachable m) : AttemptsFence m where
  step := by
    intro entry result m' key job happs hjob
    exact happs.placementStep hm hjob
  attempt := by
    intro log m' key job job' old new hrun hjob hjob' hold hnew
    obtain ⟨job'', new', hjob'', hnew', hfollows⟩ := hrun.follows hm hjob hold
    cases hjob'.symm.trans hjob''
    cases hnew.symm.trans hnew'
    exact hfollows

end Steps

section Moved

attribute [local instance] sampleContract

open Sample

/-- The second worker is lost, and the copy it holds goes to the first. -/
theorem attempts_fence_placements_moved : ∃ log m, Run .new log m ∧
      (∃ job set, m.jobs.find? jobID = some job ∧ job.assignment = some set ∧ set.revision = 2) ∧
      AttemptsFence m := by
  obtain ⟨log, m, hrun, hchk⟩ := exists_run_of_follow (deployed ++ [deactivate 7 2, replace 8 2 1])
    (fun m => (m.jobs.find? jobID).any fun job => job.assignment.any fun set => set.revision = 2)
    (by decide +kernel)
  simp only [Option.any_eq_true, decide_eq_true_eq] at hchk
  obtain ⟨job, hjob, set, hset, hrev⟩ := hchk
  exact ⟨log, m, hrun, ⟨job, set, hjob, hset, hrev⟩, attempts_fence_placements ⟨log, hrun⟩⟩

end Moved

end Crane.State
