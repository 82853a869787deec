import Crane.State.Estimate

/-!
# Worker commands

`workers.go`: registering, draining, deactivating a worker, and replacing its incarnation. The last
two invalidate every target the incarnation holds: in each job that is not finished they add the
missing markers, move the job's control revision and append a provenance record. All four clear
what the provenance records of the worker point to, because the worker's retained command is the
new one from then on.

The source visits the jobs in no particular order and stores the records that changed; here the
whole table is carried over, entry by entry.
-/

namespace Crane.State

open Wire Data Model

/-! ## Markers of a worker -/

def taskMarker (task : TaskID) (workerID : U16) (epoch : WorkerEpoch) : NeedsReassignment :=
  ⟨.task, task, .zero, none, workerID, epoch⟩

def replicaMarker (sink : TaskID) (role : ResultReplicaRole) (workerID : U16) (epoch : WorkerEpoch) :
    NeedsReassignment :=
  ⟨.resultReplica, .zero, sink, some role, workerID, epoch⟩

/-- The markers of one sink's two copies that the worker holds. -/
def replicaMarkers (replica : ResultReplicaSet) (workerID : U16) (epoch : WorkerEpoch) : List NeedsReassignment :=
  (if replica.primaryNodeID = workerID ∧ replica.primaryEpoch = epoch then
      [replicaMarker replica.sinkTask .primary workerID epoch] else []) ++
    if replica.secondaryNodeID = workerID ∧ replica.secondaryEpoch = epoch then
      [replicaMarker replica.sinkTask .secondary workerID epoch] else []

def markersForWorker (set : AssignmentSet) (workerID : U16) (epoch : WorkerEpoch) : List NeedsReassignment :=
  let held := set.tasks.filter fun token => token.workerID = workerID ∧ token.workerEpoch = epoch
  sortMarkers ((held.map fun token => taskMarker token.task workerID epoch) ++
    set.resultReplicas.flatMap fun replica => replicaMarkers replica workerID epoch)

/-! ## Provenance -/

/-- The bytes tell the two invalidating commands apart by their length. -/
def decodeWorkerInvalidationTarget (target : Bytes) :
    Option (WorkerInvalidationKind × U16 × WorkerEpoch × Option WorkerRecord ×
      List AffectedAssignment) :=
  if 20 ≤ target.length ∧ (target.length - 20) % 64 = 0 then
    (deactivateTargetCodec.decode target).map fun (worker, epoch, affected) =>
      (.deactivate, worker, epoch, none, affected)
  else if 113 ≤ target.length ∧ (target.length - 113) % 64 = 0 then
    (replaceEpochTargetCodec.decode target).map fun (worker, epoch, record, affected) =>
      (.replaceEpoch, worker, epoch, some record, affected)
  else none

/-- What the invalidating command said of this job. -/
def InvalidationProvenance.fence (provenance : InvalidationProvenance) (jobID : JobID) :
    AffectedAssignment :=
  ⟨jobID, provenance.jobControlRevision, provenance.assignmentRevision, provenance.assignmentDigest⟩

/-- The worker of the record has taken another command. -/
def InvalidationProvenance.overwritten (provenance : InvalidationProvenance) (workerID : U16) :
    InvalidationProvenance :=
  if workerID ≠ 0 ∧ provenance.workerID = workerID then
    { provenance with kind := none, workerRevision := 0 }
  else provenance

/-- The job has taken another job-control command. -/
def InvalidationProvenance.forget (provenance : InvalidationProvenance) : InvalidationProvenance :=
  if provenance.repairState = .anchored then
    { provenance with
      repairState := .forgotten, repairJobControlRevision := 0, repairAssignmentRevision := 0
      repairAssignmentDigest := 0, repairMarkersDigest := 0 }
  else provenance

namespace Machine

/-- The retained command of the worker is the one this record came from. -/
def subjectRetainsInvalidation (m : Machine) (jobID : JobID) (provenance : InvalidationProvenance) :
    Bool :=
  match m.subjects.find? (.worker provenance.workerID) with
  | none => false
  | some history =>
    history.appliedRevision = provenance.workerRevision &&
      match decodeWorkerInvalidationTarget history.appliedTarget with
      | none => false
      | some (kind, worker, epoch, _, affected) =>
        some kind = provenance.kind && worker = provenance.workerID &&
          epoch = provenance.workerEpoch && provenance.fence jobID ∈ affected

/-- Records that neither the job nor the worker's history needs any more go. -/
def keepsProvenance (m : Machine) (jobID : JobID) (provenance : InvalidationProvenance) : Bool :=
  provenance.repairState ≠ .forgotten || m.subjectRetainsInvalidation jobID provenance

def pruneConsumedInvalidationHistory (m : Machine) (jobID : JobID)
    (history : List InvalidationProvenance) (overwrittenWorker : U16) :
    List InvalidationProvenance :=
  (history.map (·.overwritten overwrittenWorker)).filter (m.keepsProvenance jobID)

def forgetJobControlInvalidationHistory (m : Machine) (jobID : JobID)
    (history : List InvalidationProvenance) : List InvalidationProvenance :=
  (history.map (·.forget)).filter (m.keepsProvenance jobID)

/-! ## What a worker command does to the jobs -/

/-- How much a record grows; nothing is estimated of one that stays as it is. -/
def resizeJob (record candidate : JobRecord) : Option Int :=
  if candidate = record then some 0
  else do
    let before ← estimateJobRecordBytes record
    let after ← estimateJobRecordBytes candidate
    some (signedSizeDelta after before)

def prunedJob (m : Machine) (workerID : U16) (jobID : JobID) (record : JobRecord) : JobRecord :=
  { record with
    invalidationHistory := m.pruneConsumedInvalidationHistory jobID record.invalidationHistory workerID }

/-- The markers of a job once the incarnation is gone, if that adds any. -/
def addedMarkers (record : JobRecord) (workerID : U16) (epoch : WorkerEpoch) :
    Option (AssignmentSet × List NeedsReassignment) := do
  let assignment ← record.assignment
  let union := sortedMarkerUnion record.needsReassignment (markersForWorker assignment workerID epoch)
  guard (record.lifecycle.terminal = false ∧ union.length ≠ record.needsReassignment.length)
  some (assignment, union)

/-- The record that says why a job's markers were added. -/
def newProvenance (kind : WorkerInvalidationKind) (workerRevision : U64) (workerID : U16)
    (epoch : WorkerEpoch) (record : JobRecord) (assignment : AssignmentSet) :
    InvalidationProvenance :=
  { kind := some kind, workerID, workerEpoch := epoch, workerRevision
    jobControlRevision := record.jobControlRevision, assignmentRevision := assignment.revision
    assignmentDigest := assignment.digest
    markers := markersForWorker assignment workerID epoch
    repairState := .active, repairJobControlRevision := 0, repairAssignmentRevision := 0
    repairAssignmentDigest := 0, repairMarkersDigest := 0 }

/-- One job under an invalidation: its successor, and its line in the list of affected jobs if it
is affected. -/
def invalidateJob (m : Machine) (kind : WorkerInvalidationKind) (workerRevision : U64)
    (workerID : U16) (epoch : WorkerEpoch) (jobID : JobID) (record : JobRecord) :
    Option (JobRecord × Option AffectedAssignment) :=
  let pruned := m.prunedJob workerID jobID record
  match addedMarkers record workerID epoch with
  | none => some (pruned, none)
  | some (assignment, union) =>
    if validateMarkers union jobID = false ∨ record.jobControlRevision = BitVec.allOnes 64 ∨
        pruned.invalidationHistory.length = maxInvalidationProvenance then none
    else
      some ({ pruned with
          needsReassignment := union
          invalidationHistory := pruned.invalidationHistory ++
            [newProvenance kind workerRevision workerID epoch record assignment]
          jobControlRevision := record.jobControlRevision + 1 },
        some ⟨jobID, record.jobControlRevision, assignment.revision, assignment.digest⟩)

/-- The jobs after the invalidation and the change in size, if the presented list is the list of
affected jobs. -/
def prepareWorkerInvalidation (m : Machine) (kind : WorkerInvalidationKind) (workerRevision : U64)
    (workerID : U16) (epoch : WorkerEpoch) (presented : List AffectedAssignment) :
    Option (Table JobID JobRecord × Int) := do
  let outcomes ← m.jobs.traverse fun jobID record => do
    let (candidate, affected) ← m.invalidateJob kind workerRevision workerID epoch jobID record
    let delta ← resizeJob record candidate
    some (candidate, affected, delta)
  guard (outcomes.entries.filterMap (fun entry => entry.2.2.1) = presented)
  some (outcomes.map fun _ outcome => outcome.1, (outcomes.entries.map fun entry => entry.2.2.2).sum)

def prepareConsumedInvalidationPrune (m : Machine) (workerID : U16) : Option (Table JobID JobRecord × Int) := do
  let outcomes ← m.jobs.traverse fun jobID record => do
    let candidate := m.prunedJob workerID jobID record
    let delta ← resizeJob record candidate
    some (candidate, delta)
  some (outcomes.map fun _ outcome => outcome.1, (outcomes.entries.map fun entry => entry.2.2).sum)

/-! ## The commands -/

/-- The worker's record and the jobs are replaced together. -/
def storeWorker (m : Machine) (workerID : U16) (worker : WorkerRecord)
    (jobs : Table JobID JobRecord) : Machine :=
  { m with workers := m.workers.insert workerID worker, jobs }

/-- The end of a registration that is allowed. -/
def planRegistration (m : Machine) (worker : WorkerRecord) (nextRevision : U64) (added : Int) :
    Prepared :=
  if worker.revision ≠ nextRevision then .error .impossible
  else do
    let (jobs, pruneDelta) ← orImpossible (m.prepareConsumedInvalidationPrune worker.nodeID)
    succeedWith (.worker worker.nodeID) nextRevision (added + pruneDelta)
      fun m => m.storeWorker worker.nodeID worker jobs

def prepareRegisterWorker (m : Machine) (worker : WorkerRecord) (nextRevision : U64) : Prepared :=
  match m.workers.find? worker.nodeID with
  | none =>
    if Limits.maxRegisteredWorkers ≤ m.workers.size then refuseForCapacity (.worker worker.nodeID)
    else m.planRegistration worker nextRevision workerRecordEstimatedBytes
  | some current =>
    if current.state = .offline ∧ current.epoch = worker.epoch ∧ current.slots = worker.slots ∧
        current.consensusFingerprint = worker.consensusFingerprint ∧
        current.registryFingerprint = worker.registryFingerprint then
      m.planRegistration worker nextRevision 0
    else rejectWith .invalidTransition (.worker worker.nodeID) current.revision

def prepareDrainWorker (m : Machine) (workerID : U16) (epoch : WorkerEpoch) (nextRevision : U64) :
    Prepared :=
  match m.workers.find? workerID with
  | none => rejectWith .notFound (.worker workerID) 0
  | some current =>
    if current.epoch ≠ epoch ∨ current.state ≠ .eligible then
      rejectWith .invalidTransition (.worker workerID) current.revision
    else do
      let (jobs, delta) ← orImpossible (m.prepareConsumedInvalidationPrune workerID)
      let drained := { current with state := .draining, revision := nextRevision }
      succeedWith (.worker workerID) nextRevision delta fun m => m.storeWorker workerID drained jobs

def prepareDeactivateWorker (m : Machine) (workerID : U16) (epoch : WorkerEpoch)
    (affected : List AffectedAssignment) (nextRevision : U64) : Prepared :=
  match m.workers.find? workerID with
  | none => rejectWith .notFound (.worker workerID) 0
  | some current =>
    if current.epoch ≠ epoch ∨ current.state ≠ .eligible then
      rejectWith .invalidTransition (.worker workerID) current.revision
    else
      match m.prepareWorkerInvalidation .deactivate nextRevision workerID epoch affected with
      | none => rejectWith .revisionMismatch (.worker workerID) current.revision
      | some (jobs, delta) =>
        let offline := { current with state := .offline, revision := nextRevision }
        succeedWith (.worker workerID) nextRevision delta fun m => m.storeWorker workerID offline jobs

def prepareReplaceWorkerEpoch (m : Machine) (workerID : U16) (oldEpoch : WorkerEpoch)
    (target : WorkerRecord) (affected : List AffectedAssignment) (nextRevision : U64) : Prepared :=
  match m.workers.find? workerID with
  | none => rejectWith .notFound (.worker workerID) 0
  | some current =>
    if current.epoch ≠ oldEpoch ∨ target.revision ≠ nextRevision ∨ target.state ≠ current.state then
      rejectWith .invalidTransition (.worker workerID) current.revision
    else
      match m.prepareWorkerInvalidation .replaceEpoch nextRevision workerID oldEpoch affected with
      | none => rejectWith .revisionMismatch (.worker workerID) current.revision
      | some (jobs, delta) =>
        -- the cursor of the old incarnation goes with it
        let oldCursor : WorkerEventKey := ⟨workerID, oldEpoch⟩
        let released : Int := if m.workerEvents.contains oldCursor then workerEventEntryEstimatedBytes else 0
        succeedWith (.worker workerID) nextRevision (delta - released) fun m =>
          { m.storeWorker workerID target jobs with workerEvents := m.workerEvents.erase oldCursor }

end Machine

end Crane.State
