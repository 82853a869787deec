import Mathlib.Data.List.Sort
import Crane.Model.Topology

/-!
# Assignments

`assignment.go`: the complete placement of a job's tasks and result copies. `placeTasks` gives
every task, in order, to the worker with a free slot that scores highest for it;
`buildAssignmentSet` adds the two copies of each sink partition; `AssignmentSet.validate` accepts
exactly complete placements for a topology.
-/

namespace Crane.Model

open Wire Data List Codec

variable {job : JobID} {hash : Array32} {revision : U64} {tokens : List AssignmentToken}
variable {capacity : U16 → Nat} {epochs : Table U16 WorkerEpoch}

structure WorkerPlacement where
  nodeID : U16
  workerEpoch : WorkerEpoch
  slotCapacity : U16
  deriving DecidableEq

structure ResultReplicaSet where
  sinkTask : TaskID
  primaryNodeID : U16
  secondaryNodeID : U16
  primaryEpoch : WorkerEpoch
  secondaryEpoch : WorkerEpoch
  deriving DecidableEq

structure AssignmentSet where
  jobID : JobID
  revision : U64
  digest : Array32
  tasks : List AssignmentToken
  resultReplicas : List ResultReplicaSet
  deriving DecidableEq

/-! ## Layouts -/

def resultReplicaSetCodec : Codec ResultReplicaSet :=
  (taskIDCodec.seq (u16.seq (u16.seq (array16.seq array16)))).via
    (fun set => (set.sinkTask, set.primaryNodeID, set.secondaryNodeID, set.primaryEpoch, set.secondaryEpoch))
    (fun p => ⟨p.1, p.2.1, p.2.2.1, p.2.2.2.1, p.2.2.2.2⟩)

@[simp] lemma resultReplicaSetCodec_length (set : ResultReplicaSet) :
    (resultReplicaSetCodec.put set).length = 56 := by simp [resultReplicaSetCodec]

def assignmentSetCodec : Codec AssignmentSet :=
  (array16.seq (u64.seq (array32.seq
      ((counted 2 (fun n => n ≠ 0 && n ≤ Limits.maxTasksPerJob) 86 assignmentTokenCodec
          (by decide) (by intro a; simp)).seq
        (counted 2 (· ≤ Limits.maxResultManifestsPerJob) 56 resultReplicaSetCodec
          (by decide) (by intro a; simp)))))).via
    (fun set => (set.jobID, set.revision, set.digest, set.tasks, set.resultReplicas))
    (fun p => ⟨p.1, p.2.1, p.2.2.1, p.2.2.2.1, p.2.2.2.2⟩)

lemma assignmentSetCodec_length (set : AssignmentSet) : (assignmentSetCodec.put set).length =
      60 + set.tasks.length * 86 + set.resultReplicas.length * 56 := by
  simp [assignmentSetCodec]
  omega

/-! ## Placement -/

def ResultReplicaSet.validate (set : ResultReplicaSet) : Bool :=
  set.sinkTask.validate &&
    (set.primaryNodeID ≠ 0 && set.secondaryNodeID ≠ 0 && set.primaryNodeID ≠ set.secondaryNodeID) &&
    WorkerEpoch.validate set.primaryEpoch && WorkerEpoch.validate set.secondaryEpoch

def topologyTasks (job : JobID) (spec : TopologySpec) : List TaskID :=
  spec.stages.flatMap fun stage =>
    (List.range stage.parallelism.toNat).map fun partition => ⟨job, stage.stageID, BitVec.ofNat 16 partition⟩

/-- The workers by node, each listed once and able to take work. -/
def validateWorkers (input : List WorkerPlacement) : Option (List WorkerPlacement) :=
  let workers := input.insertionSort fun a b => a.nodeID ≤ b.nodeID
  if input ≠ [] ∧ input.length ≤ Limits.maxRegisteredWorkers ∧
      (∀ worker ∈ workers, worker.nodeID ≠ 0 ∧ worker.slotCapacity ≠ 0 ∧
        worker.slotCapacity.toNat ≤ Limits.maxWorkerSlots ∧ WorkerEpoch.validate worker.workerEpoch) ∧
      (workers.map (·.nodeID)).Nodup then
    some workers
  else none

section Placing

variable [Contract]

/-- The rendezvous score of a worker for a task. -/
def rendezvousScore (job : JobID) (task : TaskID) (worker : WorkerPlacement) : Array32 :=
  sum256 (domainBytes "crane/rendezvous/v1" ++ array16.put job ++ taskIDCodec.put task ++
    u16.put worker.nodeID ++ array16.put worker.workerEpoch)

def preferRendezvous (candidate : Array32) (candidateNode : U16) (current : Array32)
    (currentNode : U16) : Bool :=
  current < candidate || (candidate = current && candidateNode < currentNode)

/-- The highest score among the eligible workers, the smaller node on a tie. -/
def bestWorker (job : JobID) (task : TaskID) (eligible : WorkerPlacement → Bool)
    (workers : List WorkerPlacement) : Option WorkerPlacement :=
  workers.foldl (fun best worker =>
    if eligible worker then
      match best with
      | none => some worker
      | some current =>
        if preferRendezvous (rendezvousScore job task worker) worker.nodeID
            (rendezvousScore job task current) current.nodeID then some worker
        else some current
    else best) none

lemma bestWorker_eq_some {task : TaskID} {eligible : WorkerPlacement → Bool}
    {workers : List WorkerPlacement} {worker : WorkerPlacement}
    (h : bestWorker job task eligible workers = some worker) : worker ∈ workers ∧ eligible worker = true := by
  -- the loop starts without a candidate and takes none but eligible ones
  refine foldlRecOn (motive := fun best => ∀ current ∈ best, current ∈ workers ∧ eligible current = true)
    workers _ (b := none) nofun ?_ worker h
  intro best hbest next hnext current hcur
  split at hcur
  · rename_i helig
    split at hcur
    · cases hcur
      exact ⟨hnext, helig⟩
    split at hcur
    · cases hcur
      exact ⟨hnext, helig⟩
    · exact hbest current hcur
  · exact hbest current hcur

/-- The tokens of the tasks in order, with the slots already used. -/
def placeLoop (job : JobID) (specificationHash : Array32) (revision : U64)
    (workers : List WorkerPlacement) (used : U16 → Nat) : List TaskID → Option (List AssignmentToken)
  | [] => some []
  | task :: rest => do
    let worker ← bestWorker job task
      (fun candidate => used candidate.nodeID < candidate.slotCapacity.toNat) workers
    let tokens ← placeLoop job specificationHash revision workers
      (Function.update used worker.nodeID (used worker.nodeID + 1)) rest
    some (⟨task, worker.nodeID, worker.workerEpoch, 1, specificationHash, revision⟩ :: tokens)

/-- Tasks are given to workers of the list, and to none more than it has room for. -/
lemma placeLoop_eq_some {workers : List WorkerPlacement} {used : U16 → Nat} {tasks : List TaskID}
    (h : placeLoop job hash revision workers used tasks = some tokens)
    (hcap : ∀ worker ∈ workers, worker.slotCapacity.toNat ≤ capacity worker.nodeID)
    (hused : ∀ node, used node ≤ capacity node) : (∀ token ∈ tokens, ∃ worker ∈ workers,
      worker.nodeID = token.workerID ∧ worker.workerEpoch = token.workerEpoch) ∧
      ∀ node, used node + tokens.countP (·.workerID = node) ≤ capacity node := by
  induction tasks generalizing used tokens with
  | nil =>
    cases h
    exact ⟨nofun, hused⟩
  | cons task rest ih =>
    simp only [placeLoop, bind_eq_some, Option.some.injEq] at h
    obtain ⟨worker, hwkr, placed, hpld, rfl⟩ := h
    obtain ⟨hmem, hfree⟩ := bestWorker_eq_some hwkr
    rw [decide_eq_true_eq] at hfree
    have hroom := hcap worker hmem
    obtain ⟨hworkers, hcnts⟩ := ih hpld (by
      intro node
      rw [Function.update_apply]
      split
      · rename_i hnode
        rw [hnode]
        omega
      · exact hused node)
    constructor
    · exact forall_mem_cons.mpr ⟨⟨worker, hmem, rfl, rfl⟩, hworkers⟩
    intro node
    have hcnt := hcnts node
    rw [Function.update_apply] at hcnt
    rw [countP_cons]
    by_cases hnode : node = worker.nodeID
    · rw [if_pos hnode] at hcnt
      rw [hnode] at hcnt ⊢
      simp only [decide_true, if_true]
      omega
    rw [if_neg hnode] at hcnt
    rw [if_neg (by simpa using Ne.symm hnode)]
    exact hcnt

omit [Contract] in
lemma validateWorkers_eq_some {input workers : List WorkerPlacement}
    (h : validateWorkers input = some workers) : ∀ worker ∈ workers, worker ∈ input := by
  simp only [validateWorkers] at h
  split at h
  · cases h
    intro worker hwkr
    exact (mem_insertionSort _).mp hwkr
  · cases h

def placeTasks (job : JobID) (specificationHash : Array32) (assignmentRevision : U64)
    (tasks : List TaskID) (workers : List WorkerPlacement) : Option (List AssignmentToken) := do
  guard (JobID.validate job)
  guard (specificationHash ≠ 0)
  guard (assignmentRevision ≠ 0)
  guard (tasks ≠ [] ∧ tasks.length ≤ Limits.maxTasksPerJob)
  guard (workers ≠ [] ∧ workers.length ≤ Limits.maxRegisteredWorkers)
  let canonicalTasks := tasks.insertionSort fun a b =>
    a.stageID < b.stageID ∨ (a.stageID = b.stageID ∧ a.partition ≤ b.partition)
  guard (∀ task ∈ canonicalTasks, task.validate ∧ task.jobID = job)
  guard canonicalTasks.Nodup
  let canonicalWorkers ← validateWorkers workers
  placeLoop job specificationHash assignmentRevision canonicalWorkers (fun _ => 0) canonicalTasks

/-- The identity of a complete placement: every field but the digest itself. -/
def assignmentDigest (set : AssignmentSet) : Array32 :=
  sum256 (domainBytes "crane/assignment-set/v1" ++ array16.put set.jobID ++
    u64.put set.revision ++ bigEndian 2 set.tasks.length ++
    set.tasks.flatMap assignmentTokenCodec.put ++ bigEndian 2 set.resultReplicas.length ++
    set.resultReplicas.flatMap resultReplicaSetCodec.put)

/-! ## Complete placements -/

/-- One worker takes part in one incarnation only. -/
def registerEpoch (epochs : Table U16 WorkerEpoch) (nodeID : U16) (epoch : WorkerEpoch) :
    Option (Table U16 WorkerEpoch) :=
  if (epochs.find? nodeID).all (· = epoch) then some (epochs.insert nodeID epoch) else none

def validateTokens (set : AssignmentSet) (specificationHash : Array32) :
    Table U16 WorkerEpoch → List AssignmentToken → List TaskID → Option (Table U16 WorkerEpoch)
  | epochs, token :: tokens, want :: wanted => do
    guard token.validate
    guard (token.task = want ∧ token.task.jobID = set.jobID ∧
      token.assignmentRevision = set.revision ∧ token.specificationHash = specificationHash)
    let epochs ← registerEpoch epochs token.workerID token.workerEpoch
    validateTokens set specificationHash epochs tokens wanted
  | epochs, _, _ => some epochs

def validateReplicas (set : AssignmentSet) (sinkID : U16) :
    Nat → Table U16 WorkerEpoch → List ResultReplicaSet → Bool
  | _, _, [] => true
  | index, epochs, replica :: rest =>
    let want : TaskID := ⟨set.jobID, sinkID, BitVec.ofNat 16 index⟩
    replica.sinkTask = want && replica.validate &&
      match registerEpoch epochs replica.primaryNodeID replica.primaryEpoch with
      | none => false
      | some epochs =>
        match registerEpoch epochs replica.secondaryNodeID replica.secondaryEpoch with
        | none => false
        | some epochs =>
          (match set.tasks.find? (·.task = want) with
            | none => false
            | some token => replica.primaryNodeID = token.workerID &&
                replica.primaryEpoch = token.workerEpoch) &&
            validateReplicas set sinkID (index + 1) epochs rest

/-- The sink's identifier and parallelism; zeroes if there were none. -/
def sinkStage (spec : TopologySpec) : U16 × Nat :=
  match (spec.stages.filter fun stage => stage.role = .sink).getLast? with
  | none => (0, 0)
  | some stage => (stage.stageID, stage.parallelism.toNat)

def AssignmentSet.validate (set : AssignmentSet) (topology : ValidatedTopology) : Bool :=
  let wantTasks := topologyTasks set.jobID topology.spec
  let (sinkID, sinkParallelism) := sinkStage topology.spec
  JobID.validate set.jobID && set.revision ≠ 0 && topology.canonical ≠ [] &&
    set.tasks.length = wantTasks.length &&
    match validateTokens set topology.digest .empty set.tasks wantTasks with
    | none => false
    | some epochs =>
      set.resultReplicas.length = sinkParallelism &&
        validateReplicas set sinkID 0 epochs set.resultReplicas &&
        (set.digest ≠ 0 && set.digest = assignmentDigest set)

/-- What a placement that was accepted for a topology is known to hold. -/
structure Complete (set : AssignmentSet) (topology : ValidatedTopology) : Prop where
  jobID : set.jobID ≠ 0
  revision : set.revision ≠ 0
  tasks : set.tasks.map (·.task) = topologyTasks set.jobID topology.spec
  tokens : ∀ token ∈ set.tasks, token.validate = true ∧ token.task.jobID = set.jobID ∧
    token.assignmentRevision = set.revision
  sinks : set.resultReplicas.map (·.sinkTask) = (List.range (sinkStage topology.spec).2).map
    fun partition => ⟨set.jobID, (sinkStage topology.spec).1, BitVec.ofNat 16 partition⟩
  /-- The first copy is where the sink's task is. -/
  replicas : ∀ replica ∈ set.resultReplicas, replica.validate = true ∧
    ∃ token ∈ set.tasks, token.task = replica.sinkTask ∧
      replica.primaryNodeID = token.workerID ∧ replica.primaryEpoch = token.workerEpoch
  digest : set.digest ≠ 0

omit [Contract] in
lemma validateTokens_eq_some {set : AssignmentSet} {epochs' : Table U16 WorkerEpoch}
    {wanted : List TaskID} (h : validateTokens set hash epochs tokens wanted = some epochs')
    (hlen : tokens.length = wanted.length) :
    tokens.map (·.task) = wanted ∧ ∀ token ∈ tokens, token.validate = true ∧
      token.task.jobID = set.jobID ∧ token.assignmentRevision = set.revision := by
  induction tokens generalizing epochs wanted with
  | nil =>
    cases wanted with
    | nil => exact ⟨rfl, nofun⟩
    | cons => cases hlen
  | cons _ _ ih =>
    cases wanted with
    | nil => cases hlen
    | cons =>
      simp only [validateTokens, bind_eq_some, exists_guard] at h
      obtain ⟨hval, ⟨htask, hjob, hrev, -⟩, between, -, hrest⟩ := h
      obtain ⟨htasks, htoks⟩ := ih hrest (Nat.succ.inj hlen)
      exact ⟨by rw [map_cons, htask, htasks], forall_mem_cons.mpr ⟨⟨hval, hjob, hrev⟩, htoks⟩⟩

omit [Contract] in
lemma validateReplicas_eq_true {set : AssignmentSet} {sinkID : U16} {index : Nat}
    {replicas : List ResultReplicaSet} (h : validateReplicas set sinkID index epochs replicas = true) :
    replicas.map (·.sinkTask) = (List.range' index replicas.length).map
        (fun partition => ⟨set.jobID, sinkID, BitVec.ofNat 16 partition⟩) ∧
      ∀ replica ∈ replicas, replica.validate = true ∧ ∃ token ∈ set.tasks, token.task = replica.sinkTask ∧
          replica.primaryNodeID = token.workerID ∧ replica.primaryEpoch = token.workerEpoch := by
  induction replicas generalizing index epochs with
  | nil => exact ⟨rfl, nofun⟩
  | cons replica rest ih =>
    simp only [validateReplicas, Bool.and_eq_true, decide_eq_true_eq] at h
    obtain ⟨⟨hsink, hval⟩, hrest⟩ := h
    split at hrest
    · cases hrest
    split at hrest
    · cases hrest
    rw [Bool.and_eq_true] at hrest
    obtain ⟨hprim, hrest⟩ := hrest
    obtain ⟨hsinks, hrepls⟩ := ih hrest
    constructor
    · rw [map_cons, hsinks, hsink]
      rfl
    refine forall_mem_cons.mpr ⟨⟨hval, ?_⟩, hrepls⟩
    split at hprim
    · cases hprim
    rename_i token htok
    simp only [Bool.and_eq_true, decide_eq_true_eq] at hprim
    refine ⟨token, mem_of_find?_eq_some htok, ?_, hprim⟩
    rw [hsink]
    simpa using find?_some htok

lemma AssignmentSet.validate_eq_true {set : AssignmentSet} {topology : ValidatedTopology}
    (h : set.validate topology = true) : Complete set topology := by
  simp only [AssignmentSet.validate, Bool.and_eq_true, decide_eq_true_eq, JobID.validate_iff] at h
  obtain ⟨⟨⟨⟨hjob, hrev⟩, -⟩, hlen⟩, hrest⟩ := h
  split at hrest
  · cases hrest
  rename_i epochs htoks
  simp only [Bool.and_eq_true, decide_eq_true_eq] at hrest
  obtain ⟨⟨hcnt, hrepls⟩, hdig, -⟩ := hrest
  obtain ⟨htasks, htoks⟩ := validateTokens_eq_some htoks hlen
  obtain ⟨hsinks, hrepls⟩ := validateReplicas_eq_true hrepls
  refine ⟨hjob, hrev, htasks, htoks, ?_, hrepls, hdig⟩
  rw [hsinks, hcnt, range_eq_range']

omit [Contract] in
/-- Different stages and different partitions are different tasks. -/
lemma nodup_topologyTasks (job : JobID) {spec : TopologySpec} (h : StagesBounded spec.stages) :
    (topologyTasks job spec).Nodup := by
  refine nodup_flatMap.mpr ⟨?_, ?_⟩
  · intro stage _
    refine List.Nodup.map_on ?_ nodup_range
    intro a ha b hb heq
    simp only [TaskID.mk.injEq, true_and] at heq
    have hbd := stage.parallelism.isLt
    rw [mem_range] at ha hb
    have := congrArg BitVec.toNat heq
    simp only [BitVec.toNat_ofNat] at this
    omega
  refine h.ordered.imp ?_
  intro a b hlt task ha hb
  simp only [mem_map] at ha hb
  obtain ⟨partition, -, rfl⟩ := ha
  obtain ⟨partition', -, heq⟩ := hb
  simp only [TaskID.mk.injEq, true_and] at heq
  rw [heq.1] at hlt
  exact absurd hlt (BitVec.lt_irrefl _)

section Complete

variable {set : AssignmentSet} {topology : ValidatedTopology}

omit [Contract] in
lemma Complete.nodup_tasks (h : Complete set topology)
    (hstgs : StagesBounded topology.spec.stages) : (set.tasks.map (·.task)).Nodup := by
  rw [h.tasks]
  exact nodup_topologyTasks set.jobID hstgs

omit [Contract] in
lemma Complete.nodup_sinks (h : Complete set topology) : (set.resultReplicas.map (·.sinkTask)).Nodup := by
  rw [h.sinks]
  refine List.Nodup.map_on ?_ nodup_range
  intro a ha b hb heq
  have hbd : (sinkStage topology.spec).2 < 2 ^ 16 := by
    unfold sinkStage
    split
    · decide
    · exact BitVec.isLt _
  simp only [TaskID.mk.injEq, true_and] at heq
  rw [mem_range] at ha hb
  have := congrArg BitVec.toNat heq
  simp only [BitVec.toNat_ofNat] at this
  omega

end Complete

/-- The two copies of each sink partition: the sink task's own worker, and the best other one. -/
def placeReplicas (job : JobID) (collectStageID : U16) (tokens : List AssignmentToken)
    (workers : List WorkerPlacement) : List U16 → Option (List ResultReplicaSet)
  | [] => some []
  | partition :: rest => do
    let task : TaskID := ⟨job, collectStageID, partition⟩
    let (primaryID, primaryEpoch) :=
      ((tokens.find? (·.task = task)).map fun token => (token.workerID, token.workerEpoch)).getD (0, 0)
    let secondary ← bestWorker job task (fun candidate => candidate.nodeID ≠ primaryID) workers
    let replicas ← placeReplicas job collectStageID tokens workers rest
    some (⟨task, primaryID, secondary.nodeID, primaryEpoch, secondary.workerEpoch⟩ :: replicas)

def buildAssignmentSet (job : JobID) (specificationHash : Array32) (assignmentRevision : U64)
    (topology : ValidatedTopology) (workers : List WorkerPlacement) : Option AssignmentSet := do
  guard (JobID.validate job)
  guard (specificationHash ≠ 0 ∧ specificationHash = topology.digest ∧ topology.canonical ≠ [])
  guard (assignmentRevision ≠ 0)
  let tokens ← placeTasks job specificationHash assignmentRevision
    (topologyTasks job topology.spec) workers
  let canonicalWorkers ← validateWorkers workers
  let replicas ← placeReplicas job topology.collectStageID tokens canonicalWorkers
    topology.collectPartitions
  let unsigned : AssignmentSet := ⟨job, assignmentRevision, 0, tokens, replicas⟩
  let set := { unsigned with digest := assignmentDigest unsigned }
  guard (set.validate topology)
  some set

lemma placeReplicas_eq_some {stage : U16} {workers : List WorkerPlacement} {partitions : List U16}
    {replicas : List ResultReplicaSet}
    (h : placeReplicas job stage tokens workers partitions = some replicas) :
    ∀ replica ∈ replicas, ∃ worker ∈ workers,
      worker.nodeID = replica.secondaryNodeID ∧ worker.workerEpoch = replica.secondaryEpoch := by
  induction partitions generalizing replicas with
  | nil =>
    cases h
    exact nofun
  | cons _ _ ih =>
    simp only [placeReplicas, bind_eq_some, Option.some.injEq] at h
    obtain ⟨secondary, hsec, placed, hpld, rfl⟩ := h
    exact forall_mem_cons.mpr ⟨⟨secondary, (bestWorker_eq_some hsec).1, rfl, rfl⟩, ih hpld⟩

/-- Every task and every second copy of a placement that was built is on one of the workers, and no
worker has more tasks than slots. -/
lemma buildAssignmentSet_eq_some {topology : ValidatedTopology} {workers : List WorkerPlacement}
    {set : AssignmentSet} (h : buildAssignmentSet job hash revision topology workers = some set)
    (hcap : ∀ worker ∈ workers, worker.slotCapacity.toNat ≤ capacity worker.nodeID) :
    (∀ token ∈ set.tasks, ∃ worker ∈ workers,
      worker.nodeID = token.workerID ∧ worker.workerEpoch = token.workerEpoch) ∧
      (∀ node, set.tasks.countP (·.workerID = node) ≤ capacity node) ∧
      ∀ replica ∈ set.resultReplicas, ∃ worker ∈ workers,
        worker.nodeID = replica.secondaryNodeID ∧ worker.workerEpoch = replica.secondaryEpoch := by
  simp only [buildAssignmentSet, placeTasks, bind_eq_some, exists_guard, Option.some.injEq] at h
  obtain ⟨-, -, -, tokens, ⟨-, -, -, -, -, -, -, sorted, hsort, htoks⟩, sorted', hsort',
    replicas, hrepls, -, rfl⟩ := h
  have hmem := validateWorkers_eq_some hsort
  obtain ⟨hpld, hcnts⟩ := placeLoop_eq_some htoks
    (fun worker hwkr => hcap worker (hmem worker hwkr)) (fun _ => Nat.zero_le _)
  refine ⟨?_, ?_, ?_⟩
  · intro token htok
    obtain ⟨worker, hwkr, hsame⟩ := hpld token htok
    exact ⟨worker, hmem worker hwkr, hsame⟩
  · intro node
    have hcnt := hcnts node
    rw [Nat.zero_add] at hcnt
    exact hcnt
  intro replica hrepl
  obtain ⟨worker, hwkr, hsame⟩ := placeReplicas_eq_some hrepls replica hrepl
  exact ⟨worker, validateWorkers_eq_some hsort' worker hwkr, hsame⟩

end Placing

end Crane.Model
