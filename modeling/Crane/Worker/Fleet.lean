import Crane.Program.Ensures
import Crane.State.Progress
import Crane.Worker.Gate

/-!
# Coordinators and workers

Coordinators of any epoch send what the machine has: the placement of a job, in the scheduling state they
want, and the committed checkpoint of a source. What they send comes late, repeatedly or not at all.
A worker takes one request at a time (`handleAssignment` and `handleCheckpoint` of `control_session.go`)
and commits transactions of its own in between. Its gate moves as the process of `Gate` does: an install
that is to run opens it, and a fence is stored once it has drained.

`committed` is not part of the program. It is the set of watermarks that the machine has had of a source.
-/

namespace Crane.Worker

open Wire Data Model State Program Table Function RecoveredWork

/-! ## The engine -/

/-- The notice has the authority that the cursor was moved under. -/
def provenAuthority (cursor : SourceCursor) (request : CommittedCheckpoint) : Bool :=
  let proof := cursor.checkpointAuthority
  proof.coordinatorEpoch = request.notice.epoch &&
    proof.jobControlRevision = request.jobControlRevision &&
    proof.assignmentRevision = request.assignmentRevision &&
    proof.assignmentDigest = request.assignmentDigest &&
    proof.sourceToken.task = request.notice.source

/-- The report the engine waits with: the last one that is pending. -/
def completionReport (work : RecoveredWork) (source : TaskID) : Option CompletionReport :=
  (work.pendingEvents.filterMap (·.completion)).reverse.find? (·.source = source)

section Engine

variable [Contract]

/-- The engine's `applyCheckpoint`; its table of cursors is the store's. -/
def engineApplyCheckpoint (work : RecoveredWork) (request : CommittedCheckpoint) :
    Except StoreError RecoveredWork :=
  let notice := request.notice
  let adopt : Except StoreError RecoveredWork :=
    match work.assignments.find? notice.jobID with
    | none => .error .refused
    | some assignment =>
      if installedAuthority work request assignment = false ∨
          (findToken assignment.assignment notice.source).isNone then .error .refused
      else
        match sourceEOF assignment.topology notice.source with
        | none => .error .refused
        | some eof =>
          if eof < notice.watermark then .error .refused
          -- nothing is to be kept of the watermark zero
          else if notice.watermark = 0 then .ok work
          else applyCheckpoint work notice
  match work.sources.find? notice.source with
  | none => adopt
  | some cursor =>
    if notice.watermark = cursor.watermark then
      if cursor.checkpointRevision = 0 ∧ cursor.checkpointAuthority = .zero then
        match work.assignments.find? notice.jobID with
        | none => .error .refused
        | some assignment =>
          if installedAuthority work request assignment = false then .error .refused
          else
            match completionReport work notice.source with
            | none => .error .authorityUnavailable
            | some report =>
              if report.expectedCheckpointRevision = BitVec.allOnes 64 ∨
                  report.new ≠ cursor.watermark ∨ report.eof ≠ cursor.eof ∨
                  report.jobControlRevision ≠ request.jobControlRevision ∨
                  report.assignmentRevision ≠ request.assignmentRevision ∨
                  report.token.task ≠ notice.source ∨ report.epoch ≠ notice.epoch ∨
                  report.digest ≠ completionReportDigest report then .error .authorityUnavailable
              else applyCheckpoint work notice
      else if notice.raftIndex = cursor.raftIndex ∧ provenAuthority cursor request then
        applyCheckpoint work notice
      else .ok work
    else if notice.watermark < cursor.watermark then .ok work
    else adopt

/-- The report the engine makes of a source once it is complete up to a later watermark. -/
def buildCompletionReport (assignment : InstalledAssignment) (source : TaskID) (token : AssignmentToken)
    (cursor : SourceCursor) (watermark transactionID : U64) : CompletionReport :=
  let unsigned : CompletionReport :=
    ⟨source.jobID, assignment.jobControlRevision, assignment.assignment.revision, source, token,
      assignment.coordinatorEpoch, cursor.checkpointRevision, cursor.watermark, watermark, cursor.eof,
      transactionID, 0⟩
  { unsigned with digest := completionReportDigest unsigned }

end Engine

/-! ## The handlers -/

/-- A worker's store, and the process that has its gate. -/
structure Node where
  work : RecoveredWork
  process : Process

def Node.new : Node := ⟨newRecoveredWork, .start⟩

inductive ControlError where
  | unauthorized
  | staleEpoch
  | staleAssignment
  | capacity
  | store (error : StoreError)
  | engine
  | gate (error : GateError)
  deriving DecidableEq

def localTaskCount (set : AssignmentSet) (worker : Incarnation) : Nat :=
  set.tasks.countP (localToken worker)

/-- The worker has slots for what it runs of other jobs and, unless it is closed, for the candidate. -/
def validateLocalSlots (worker : Incarnation) (workerSlots : Nat) (work : RecoveredWork)
    (candidate : AssignmentSet) (scheduling : SchedulingState) : Bool :=
  let used := work.assignments.sum fun jobID assignment =>
    if jobID = candidate.jobID ∨ assignment.schedulingState = .closed then 0
    else localTaskCount assignment.assignment worker
  let added := if scheduling = .closed then 0 else localTaskCount candidate worker
  used + added ≤ workerSlots

/-- The node kept a result of an earlier placement, in this incarnation or before. -/
def historicalResultsAuthorizeAssignment (worker : Incarnation) (work : RecoveredWork)
    (candidate : AssignmentSet) (specification : Array32) : Bool :=
  work.results.any fun result => result.precedes candidate specification &&
    (ResultReplicaSet.endpoint result.provenance.replicaSet
      result.provenance.destinationRole).1 = worker.nodeID

/-- A redelivery that needs no write. -/
def checkpointAlreadyDurable (work : RecoveredWork) (request : CommittedCheckpoint) : Bool :=
  match work.sources.find? request.notice.source with
  | none => request.notice.watermark = 0
  | some cursor =>
    if cursor.watermark = 0 ∧ cursor.checkpointRevision = 0 then request.notice.watermark = 0
    else
      request.notice.watermark = cursor.watermark && cursor.checkpointRevision ≠ 0 &&
        cursor.raftIndex < request.notice.raftIndex && provenAuthority cursor request

section Handlers

variable [Contract] (voter : U16 → Bool) (peer : U16) (worker : Incarnation)

/-- What an install makes of the node, and the answer. What is stored stays stored where the engine
    (`reconciled` is the result of `ReconcileAssignment`) or the gate refuses. -/
def handleAssignment (workerSlots : Nat) (reconciled : Bool) (node : Node)
    (request : InstalledAssignment) : Node × Except ControlError Unit :=
  if authorizeCoordinator voter peer request.coordinatorEpoch = false then (node, .error .unauthorized)
  else if node.work.fence = .zero ∨ request.coordinatorEpoch ≠ node.work.fence then
    (node, .error .staleEpoch)
  -- a placement was missed
  else if (node.work.assignments.find? request.assignment.jobID).any fun prior =>
      prior.assignment.revision.toNat + 1 < request.assignment.revision.toNat then
    (node, .error .staleAssignment)
  else if assignmentTargetsWorker request.assignment worker = false ∧
      (request.schedulingState = .running ∨ historicalResultsAuthorizeAssignment worker node.work
        request.assignment request.topology.digest = false) then (node, .error .staleAssignment)
  else if validateLocalSlots worker workerSlots node.work request.assignment
      request.schedulingState = false then (node, .error .capacity)
  else
    match commitWork worker (applyAssignment node.work request) with
    | .error e => (node, .error (.store e))
    | .ok work =>
      if reconciled = false then ({ node with work }, .error .engine)
      else if request.schedulingState ≠ .running then ({ node with work }, .ok ())
      else
        match node.process.gate.openEpoch request.coordinatorEpoch with
        | .error e => ({ node with work }, .error (.gate e))
        | .ok gate => (⟨work, { node.process with gate }⟩, .ok ())

/-- The answer to a notice: the owner of the source takes it into its cursor, another worker keeps it as
    an observation. -/
def handleCheckpoint (work : RecoveredWork) (request : CommittedCheckpoint) :
    Except ControlError RecoveredWork :=
  if authorizeCoordinator voter peer request.notice.epoch = false then .error .unauthorized
  else if work.fence = .zero ∨ request.notice.epoch ≠ work.fence then .error .staleEpoch
  else
    match work.assignments.find? request.notice.jobID with
    | none => .error .staleAssignment
    | some assignment =>
      if installedAuthority work request assignment = false ∨
          (assignmentTargetsWorker assignment.assignment worker = false ∧
            (assignment.schedulingState = .running ∨ historicalResultsAuthorizeAssignment worker work
              assignment.assignment assignment.topology.digest = false)) then .error .staleAssignment
      else
        match findToken assignment.assignment request.notice.source with
        | none => .error .staleAssignment
        | some token =>
          if sourceStage assignment.topology request.notice.source = false then .error .staleAssignment
          else if localToken worker token then
            if checkpointAlreadyDurable work request then .ok work
            else (commitWork worker (engineApplyCheckpoint work request)).mapError .store
          else (commitWork worker (applyCheckpointObservation work request)).mapError .store

end Handlers

/-! ## What coordinators send -/

/-- The install of a job's placement. -/
def buildInstall (job : JobRecord) (set : AssignmentSet) (topology : ValidatedTopology)
    (scheduling : SchedulingState) (epoch : CoordinatorEpoch) : InstalledAssignment :=
  ⟨set, job.topologyBytes, topology, job.jobControlRevision, scheduling, epoch⟩

/-- A placement is closed at any time, and run or drained only while the job is. -/
def sends : JobLifecycle → SchedulingState → Bool
  | _, .closed => true
  | lifecycle, .running => lifecycle = .running
  | lifecycle, .draining => lifecycle = .draining

/-- The notice of a source's checkpoint as the machine has it. -/
def announcement (m : Machine) (jobID : JobID) (job : JobRecord) (set : AssignmentSet)
    (source : TaskID) : CommittedCheckpoint :=
  ⟨⟨jobID, source, job.watermark source, m.lastAppliedIndex, m.coordinatorEpoch⟩,
    job.jobControlRevision, set.revision, set.digest⟩

/-! ## The fleet -/

/-- The watermark that the machine has of a source. -/
def committedWatermark (m : Machine) (source : TaskID) : U64 :=
  ((m.jobs.find? source.jobID).map (·.watermark source)).getD 0

/-- The machine, its workers, and every install and notice that was ever sent. -/
structure Fleet where
  machine : Machine
  node : Incarnation → Node
  offered : List InstalledAssignment
  sent : List CommittedCheckpoint
  committed : TaskID → Finset ℕ

def Fleet.new : Fleet := ⟨.new, fun _ => .new, [], [], fun _ => {0}⟩

abbrev Fleet.work (f : Fleet) (worker : Incarnation) : RecoveredWork := (f.node worker).work

def Fleet.apply (f : Fleet) (m : Machine) : Fleet :=
  { f with
    machine := m
    committed := fun source => insert (committedWatermark m source).toNat (f.committed source) }

def Fleet.put (f : Fleet) (worker : Incarnation) (node : Node) : Fleet :=
  { f with node := Function.update f.node worker node }

lemma Fleet.node_put (f : Fleet) (worker : Incarnation) (node : Node) :
    (f.put worker node).node worker = node := update_self ..

section Runs

variable [Contract] (voter : U16 → Bool) (admits : Fleet → Incarnation → CommittedCheckpoint → Prop)

/-- What can happen: an entry is applied; an install or a notice is sent; the process of a worker moves;
    a worker stores a fence, answers an install or takes a notice in that was sent at any time before and
    that gets through; it moves a cursor, or commits one of its other transactions, which leave fence,
    placements, cursors and observations alone. -/
inductive FleetStep (f : Fleet) : Fleet → Prop where
  | command {entry : LogEntry} {result : Bytes} {m' : Machine}
    (happlies : Applies f.machine entry result m') : FleetStep f (f.apply m')
  | offer {jobID : JobID} {job : JobRecord} {set : AssignmentSet} {topology : ValidatedTopology}
    {scheduling : SchedulingState} (epoch : CoordinatorEpoch)
    (hjob : f.machine.jobs.find? jobID = some job) (hset : job.assignment = some set)
    (htopology : decodeTopology job.topologyBytes = some topology)
    (hsends : sends job.lifecycle scheduling = true) :
    FleetStep f { f with offered := buildInstall job set topology scheduling epoch :: f.offered }
  | announce {jobID : JobID} {job : JobRecord} {set : AssignmentSet} (source : TaskID)
    (hjob : f.machine.jobs.find? jobID = some job) (hset : job.assignment = some set) :
    FleetStep f { f with sent := announcement f.machine jobID job set source :: f.sent }
  | process {worker : Incarnation} {event : GateEvent} {process : Process}
    (hinstall : ∀ peer epoch, event ≠ .runningInstall peer epoch)
    (hstep : (f.node worker).process.step voter event = some process)
    (hfence : process.fence = (f.node worker).process.fence) :
    FleetStep f (f.put worker ⟨f.work worker, process⟩)
  | fence {worker : Incarnation} {epoch : CoordinatorEpoch} {channel : Option Nat} {process : Process}
    {work : RecoveredWork} (hhandling : (f.node worker).process.handling = some (epoch, channel))
    (hdrained : (f.node worker).process.step voter .fenceDrained = some process)
    (hcommit : commitWork worker (applyFence (f.work worker) epoch) = .ok work) :
    FleetStep f (f.put worker ⟨work, process⟩)
  | install {worker : Incarnation} {peer : U16} {workerSlots : Nat} {reconciled : Bool}
    {request : InstalledAssignment} (hidle : (f.node worker).process.handling = none)
    (hoffered : request ∈ f.offered) : FleetStep f (f.put worker
      (handleAssignment voter peer worker workerSlots reconciled (f.node worker) request).1)
  | notice {worker : Incarnation} {peer : U16} {request : CommittedCheckpoint} {work : RecoveredWork}
    (hsent : request ∈ f.sent) (hadmits : admits f worker request)
    (hcommit : handleCheckpoint voter peer worker (f.work worker) request = .ok work) :
    FleetStep f (f.put worker ⟨work, (f.node worker).process⟩)
  | source {worker : Incarnation} {cursor : SourceCursor} {outboxes : List OutboxRecord}
    {work : RecoveredWork}
    (hcommit : commitWork worker (applySource (f.work worker) cursor outboxes) = .ok work) :
    FleetStep f (f.put worker ⟨work, (f.node worker).process⟩)
  | other {worker : Incarnation} {work : RecoveredWork} (hfence : work.fence = (f.work worker).fence)
    (hassignments : work.assignments = (f.work worker).assignments)
    (hsources : work.sources = (f.work worker).sources)
    (hcheckpoints : work.checkpoints = (f.work worker).checkpoints)
    (hchecked : validateRecoveredWorkLocal work worker = true) :
    FleetStep f (f.put worker ⟨work, (f.node worker).process⟩)

inductive FleetRun : Fleet → Prop where
  | start : FleetRun .new
  | step {f f' : Fleet} (hrun : FleetRun f) (hstep : FleetStep voter admits f f') : FleetRun f'

end Runs

/-! ## What a transaction does to a cursor -/

/-- The watermark a store has of a source. -/
def RecoveredWork.watermark (work : RecoveredWork) (source : TaskID) : U64 :=
  ((work.sources.find? source).map (·.watermark)).getD 0

/-- The count a store has of a source's advances. -/
def RecoveredWork.revision (work : RecoveredWork) (source : TaskID) : U64 :=
  ((work.sources.find? source).map (·.checkpointRevision)).getD 0

/-- The log index a store has of a source's checkpoint. -/
def RecoveredWork.raftIndex (work : RecoveredWork) (source : TaskID) : U64 :=
  ((work.sources.find? source).map (·.raftIndex)).getD 0

section Lookups

variable {work work' : RecoveredWork} {source : TaskID} {cursor : SourceCursor}

lemma RecoveredWork.lookup_congr (h : work'.sources = work.sources) :
    work'.watermark source = work.watermark source ∧ work'.revision source = work.revision source ∧
      work'.raftIndex source = work.raftIndex source := by
  unfold watermark revision raftIndex
  rw [h]
  exact ⟨rfl, rfl, rfl⟩

lemma RecoveredWork.lookup_some (h : work.sources.find? source = some cursor) :
    work.watermark source = cursor.watermark ∧ work.revision source = cursor.checkpointRevision ∧
      work.raftIndex source = cursor.raftIndex := by
  unfold watermark revision raftIndex
  rw [h]
  exact ⟨rfl, rfl, rfl⟩

lemma RecoveredWork.lookup_insert_ne {other : TaskID} (hne : source ≠ other)
    (h : work'.sources = work.sources.insert source cursor) :
    work'.watermark other = work.watermark other ∧ work'.revision other = work.revision other ∧
      work'.raftIndex other = work.raftIndex other := by
  unfold watermark revision raftIndex
  rw [h, find?_insert_ne _ _ hne]
  exact ⟨rfl, rfl, rfl⟩

/-- Something holds of the watermark, the index and the count that the store has of each source. -/
abbrev RecoveredWork.EachCursor (P : TaskID → U64 → U64 → U64 → Prop) (work : RecoveredWork) : Prop :=
  ∀ source, P source (work.watermark source) (work.raftIndex source) (work.revision source)

variable {P : TaskID → U64 → U64 → U64 → Prop} {key : TaskID}

lemma eachCursor_kept (h : work.EachCursor P) (hsources : work'.sources = work.sources) :
    work'.EachCursor P := by
  intro source
  obtain ⟨hwatermark, hrevision, hindex⟩ := lookup_congr hsources
  rw [hwatermark, hrevision, hindex]
  exact h source

lemma eachCursor_insert (h : work.EachCursor P)
    (hsources : work'.sources = work.sources.insert key cursor)
    (hcursor : P key cursor.watermark cursor.raftIndex cursor.checkpointRevision) : work'.EachCursor P := by
  intro source
  by_cases hsame : key = source
  · subst hsame
    obtain ⟨hwatermark, hrevision, hindex⟩ :=
      lookup_some (hsources ▸ find?_insert_self ..)
    rw [hwatermark, hrevision, hindex]
    exact hcursor
  obtain ⟨hwatermark, hrevision, hindex⟩ := lookup_insert_ne hsame hsources
  rw [hwatermark, hrevision, hindex]
  exact h source

end Lookups

/-- A transaction leaves the fence and the observations alone. -/
structure Spares (work work' : RecoveredWork) : Prop where
  fence : work'.fence = work.fence
  checkpoints : work'.checkpoints = work.checkpoints

/-- A checkpoint transaction leaves the cursors alone, or moves the cursor of its source up and counts
one on. -/
inductive Moves (work : RecoveredWork) (notice : CheckpointNotice) (work' : RecoveredWork) : Prop where
  | kept (hsources : work'.sources = work.sources) (hspares : Spares work work')
  | moved {cursor : SourceCursor} (hjob : notice.source.jobID = notice.jobID)
    (hspares : Spares work work')
    (hsources : work'.sources = work.sources.insert notice.source cursor)
    (hwatermark : cursor.watermark = notice.watermark)
    (habove : work.watermark notice.source < notice.watermark)
    (hrevision : cursor.checkpointRevision = work.revision notice.source + 1)
    (hcounted : cursor.checkpointRevision ≠ 0) (hindex : cursor.raftIndex = notice.raftIndex)

section Checkpoints

variable [Contract] {assignment installed : InstalledAssignment} {prior : SourceCursor}
variable {work work' : RecoveredWork} {notice : CheckpointNotice}

lemma CompletionReport.validate_new {report : CompletionReport} (h : report.validate = true) : report.new ≠ 0 := by
  simp only [CompletionReport.validate, Bool.and_eq_true, decide_eq_true_eq] at h
  obtain ⟨⟨-, habv, -⟩, -⟩ := h
  bv_omega

/-- A cursor with a watermark and no count is one of the first schema. -/
abbrev SourceCursor.Legacy (cursor : SourceCursor) : Prop :=
  cursor.watermark ≠ 0 ∧ cursor.checkpointRevision = 0

lemma matchingCompletionReport_eq_some {eof : U64} {report : CompletionReport}
    (hcounted : ¬ prior.Legacy)
    (h : matchingCompletionReport work assignment notice prior eof = some report) :
    report.expectedCheckpointRevision = prior.checkpointRevision := by
  simp only [matchingCompletionReport, bind_eq_some, exists_guard, Option.some.injEq, Prod.exists] at h
  obtain ⟨source, -, event, found, -, ⟨-, hexp, -⟩, hrpt⟩ := h
  cases hrpt
  cases hexp with
  | inl hlegacy =>
    simp only [Bool.and_eq_true, decide_eq_true_eq] at hlegacy
    exact absurd hlegacy.1 hcounted
  | inr hsame => exact hsame

lemma matchingLegacyCompletionReport_eq_some {report : CompletionReport}
    (h : matchingLegacyCompletionReport work assignment notice prior = some report) :
    prior.watermark ≠ 0 := by
  simp only [matchingLegacyCompletionReport, bind_eq_some, exists_guard, Option.some.injEq, Prod.exists] at h
  obtain ⟨source, -, event, found, -, ⟨hauth, hnew, -⟩, hrpt⟩ := h
  simp only [reportAuthorized, Bool.and_eq_true] at hauth
  rw [← hnew]
  exact CompletionReport.validate_new hauth.1.1.1.1.1.1.1

lemma adoptedAuthority_eq_ok {eof : U64} {revision : U64} {authority : CheckpointAuthority}
    (hcounted : ¬ prior.Legacy) (hmax : prior.checkpointRevision ≠ BitVec.allOnes 64)
    (h : adoptedAuthority work assignment notice prior eof = .ok (revision, authority)) :
    revision = prior.checkpointRevision + 1 ∧ revision ≠ 0 := by
  unfold adoptedAuthority at h
  split at h
  · rename_i report hreport
    replace h := ok_of_ite h
    cases h
    rw [matchingCompletionReport_eq_some hcounted hreport]
    exact ⟨rfl, succ_ne_zero hmax⟩
  split at h
  · cases h
  replace h := ok_of_ite h
  cases h
  exact ⟨rfl, succ_ne_zero hmax⟩

/-- The cursor that is there has a count, if it has a watermark. -/
def RecoveredWork.Counted (work : RecoveredWork) (source : TaskID) : Prop :=
  ∀ prior, work.sources.find? source = some prior → ¬ prior.Legacy

lemma advanceCheckpoint_moves (hcounted : work.Counted notice.source)
    (hjob : notice.source.jobID = notice.jobID)
    (habove : notice.watermark ≠ 0 → work.watermark notice.source < notice.watermark)
    (h : advanceCheckpoint work notice (work.sources.find? notice.source) = .ok work') :
    Moves work notice work' := by
  unfold advanceCheckpoint at h
  replace h := ok_of_ite h
  split at h
  · cases h
  replace h := ok_of_ite h
  split at h
  · cases h
  simp only [ite_error_eq_ok] at h
  obtain ⟨hbounds, h⟩ := h
  split at h
  · cases h
  rename_i revision authority hadopted
  replace h := ok_of_ite h
  cases h
  push Not at hbounds
  -- the cursor it starts from is the one that is there, or one at zero
  have hstart : ∀ eof, ¬ ((work.sources.find? notice.source).getD
        ⟨notice.source, 1, eof, 0, 0, 0, .zero⟩).Legacy ∧ work.revision notice.source =
      ((work.sources.find? notice.source).getD ⟨notice.source, 1, eof, 0, 0, 0, .zero⟩).checkpointRevision := by
    intro eof
    unfold RecoveredWork.revision
    cases hprior : work.sources.find? notice.source with
    | none => exact ⟨fun h => h.1 rfl, rfl⟩
    | some prior => exact ⟨hcounted prior hprior, rfl⟩
  obtain ⟨hnext, hsome⟩ := adoptedAuthority_eq_ok (hstart _).1 hbounds.2.2.2 hadopted
  rw [← (hstart _).2] at hnext
  exact .moved hjob ⟨rfl, rfl⟩ rfl rfl (habove hbounds.2.1) hnext hsome rfl

lemma confirmCheckpoint_moves (hcounted : work.Counted notice.source)
    (hprior : work.sources.find? notice.source = some prior)
    (h : confirmCheckpoint work notice prior = .ok work') : Moves work notice work' := by
  unfold confirmCheckpoint at h
  replace h := ok_of_ite h
  split at h
  · rename_i hrevision
    split at h
    · cases h
    split at h
    · cases h
    rename_i report hreport
    exact absurd ⟨matchingLegacyCompletionReport_eq_some hreport, hrevision⟩ (hcounted prior hprior)
  rw [ite_error_eq_ok] at h
  cases h.2
  exact .kept rfl ⟨rfl, rfl⟩

lemma applyCheckpoint_moves (hcounted : work.Counted notice.source)
    (h : applyCheckpoint work notice = .ok work') : Moves work notice work' := by
  unfold applyCheckpoint at h
  rw [ite_error_eq_ok] at h
  obtain ⟨hvalid, h⟩ := h
  rw [Bool.not_eq_false] at hvalid
  have hjob : notice.source.jobID = notice.jobID := by
    simp only [CheckpointNotice.validate, Bool.and_eq_true, decide_eq_true_eq] at hvalid
    exact hvalid.1.1.2.2
  cases hprior : work.sources.find? notice.source with
  | none =>
    rw [hprior] at h
    refine advanceCheckpoint_moves hcounted hjob ?_ (hprior ▸ h)
    intro hnonzero
    rw [watermark, hprior]
    change (0 : U64) < notice.watermark
    bv_omega
  | some prior =>
    rw [hprior] at h
    simp only at h
    split at h
    · exact confirmCheckpoint_moves hcounted hprior h
    rename_i hdiffers
    simp only [ite_error_eq_ok] at h
    obtain ⟨hfalls, -, h⟩ := h
    push Not at hfalls
    refine advanceCheckpoint_moves hcounted hjob ?_ (hprior ▸ h)
    intro _
    rw [watermark, hprior]
    change prior.watermark < notice.watermark
    have hle := hfalls.1
    bv_omega

lemma engineApplyCheckpoint_moves {request : CommittedCheckpoint}
    (hcounted : work.Counted request.notice.source)
    (h : engineApplyCheckpoint work request = .ok work') : Moves work request.notice work' := by
  unfold engineApplyCheckpoint at h
  extract_lets notice adopt at h
  -- whatever is not refused is kept, or left to the store
  have hadopt : adopt = .ok work' → Moves work notice work' := by
    intro h
    unfold adopt at h
    split at h
    · cases h
    replace h := ok_of_ite h
    split at h
    · cases h
    replace h := ok_of_ite h
    split at h
    · cases h
      exact .kept rfl ⟨rfl, rfl⟩
    · exact applyCheckpoint_moves hcounted h
  split at h
  · exact hadopt h
  split at h
  · split at h
    · split at h
      · cases h
      replace h := ok_of_ite h
      split at h
      · cases h
      rw [ite_error_eq_ok] at h
      exact applyCheckpoint_moves hcounted h.2
    split at h
    · exact applyCheckpoint_moves hcounted h
    cases h
    exact .kept rfl ⟨rfl, rfl⟩
  split at h
  · cases h
    exact .kept rfl ⟨rfl, rfl⟩
  · exact hadopt h

/-! ## What the other transactions do -/

omit [Contract] in
/-- Fences only rise. -/
lemma applyFence_eq_ok {epoch : CoordinatorEpoch} (h : applyFence work epoch = .ok work') :
    work' = { work with fence := epoch } ∧ (work.fence = .zero ∨ FencedBy epoch work.fence) := by
  unfold applyFence at h
  replace h := ok_of_ite h
  split at h
  · rename_i hzero
    cases h
    exact ⟨rfl, .inl hzero⟩
  split at h
  · cases h
  · rw [ite_error_eq_ok] at h
    have hsame := Decidable.not_not.mp h.1
    cases h.2
    exact ⟨by rw [hsame], .inr (.inl hsame)⟩
  rename_i hgt
  cases h
  exact ⟨rfl, .inr (.inr hgt)⟩

/-- An install that is accepted is stored under the fence, or is there already. -/
lemma applyAssignment_eq_ok (h : applyAssignment work installed = .ok work') :
    work.fence ≠ .zero ∧ installed.coordinatorEpoch = work.fence ∧ ∃ decoded,
      decodeTopology installed.specificationBytes = some decoded ∧
      (work' = work ∨ work' =
        { work with
          assignments := work.assignments.insert installed.assignment.jobID
            { installed with topology := decoded } }) := by
  unfold applyAssignment at h
  rw [ite_error_eq_ok] at h
  obtain ⟨hfen, h⟩ := h
  obtain ⟨hzero, hep⟩ := not_or.mp hfen
  split at h
  · cases h
  rename_i decoded hdec
  rw [ite_error_eq_ok, ite_error_eq_ok] at h
  obtain ⟨-, -, h⟩ := h
  refine ⟨hzero, Decidable.not_not.mp hep, decoded, hdec, ?_⟩
  simp only at h
  split at h
  · rw [ite_error_eq_ok] at h
    cases h.2
    exact .inr rfl
  replace h := ok_of_ite h
  split at h
  · split at h
    · cases h
      exact .inl rfl
    split at h
    · cases h
      exact .inr rfl
    split at h
    · cases h
      exact .inr rfl
    rw [ite_error_eq_ok] at h
    cases h.2
    exact .inr rfl
  rw [ite_error_eq_ok, ite_error_eq_ok] at h
  cases h.2.2
  exact .inr rfl

omit [Contract] in
/-- A source that moves on keeps its checkpoint. -/
lemma applySource_eq_ok {cursor : SourceCursor} {outboxes : List OutboxRecord}
    (h : applySource work cursor outboxes = .ok work') : work' = work ∨
      (work' = { work with
        sources := work.sources.insert cursor.source cursor, outboxes := work.outboxes ++ outboxes } ∧
        cursor.watermark = work.watermark cursor.source ∧
        cursor.checkpointRevision = work.revision cursor.source ∧
        cursor.raftIndex = work.raftIndex cursor.source) := by
  unfold applySource at h
  replace h := ok_of_ite h
  split at h
  · cases h
  simp only [ite_error_eq_ok] at h
  obtain ⟨-, h⟩ := h
  split at h
  · rename_i prior hpri
    split at h
    · cases h
      exact .inl rfl
    rw [ite_error_eq_ok] at h
    obtain ⟨hsame, h⟩ := h
    cases h
    push Not at hsame
    refine .inr ⟨rfl, ?_, ?_, ?_⟩
    · rw [watermark, hpri]
      exact hsame.2.2.1
    · rw [revision, hpri]
      exact hsame.2.2.2.2.1
    rw [raftIndex, hpri]
    exact hsame.2.2.2.1
  rename_i hpri
  rw [ite_error_eq_ok] at h
  obtain ⟨hzero, h⟩ := h
  cases h
  push Not at hzero
  refine .inr ⟨rfl, ?_, ?_, ?_⟩
  · rw [watermark, hpri]
    exact hzero.2.1
  · rw [revision, hpri]
    exact hzero.2.2.2.1
  rw [raftIndex, hpri]
  exact hzero.2.2.1

end Checkpoints

/-! ## What the handlers store -/

section Stored

variable [Contract] {voter : U16 → Bool} {peer : U16} {worker : Incarnation} {work work' : RecoveredWork}
variable {request : CommittedCheckpoint} {node : Node}

lemma commitWork_iff {reduced : Except StoreError RecoveredWork} : commitWork worker reduced = .ok work ↔
      reduced = .ok work ∧ validateRecoveredWorkLocal work worker = true := by
  cases reduced with
  | error => simp [commitWork]
  | ok reduced =>
    simp only [commitWork, Except.ok.injEq]
    split
    · rename_i hval
      rw [Except.ok.injEq]
      constructor
      · intro heq
        subst heq
        exact ⟨rfl, hval⟩
      · exact fun h => h.1
    rename_i hinvalid
    constructor
    · intro h
      cases h
    intro h
    rw [h.1] at hinvalid
    exact absurd h.2 hinvalid

omit [Contract] in
lemma mapError_eq_ok {reduced : Except StoreError RecoveredWork} :
    reduced.mapError ControlError.store = .ok work ↔ reduced = .ok work := by
  cases reduced with
  | error | ok => simp [Except.mapError]

omit [Contract] in
lemma applyCheckpointObservation_eq_ok (h : applyCheckpointObservation work request = .ok work') :
    work' = work ∨ (request.notice.jobID = request.notice.source.jobID ∧
      work' = { work with checkpoints := work.checkpoints.insert request.notice.source request }) := by
  unfold applyCheckpointObservation at h
  simp only [ite_error_eq_ok] at h
  obtain ⟨hvalid, h⟩ := h
  rw [Bool.not_eq_false] at hvalid
  have hjobID : request.notice.jobID = request.notice.source.jobID := by
    simp only [validateCheckpointObservation, CheckpointNotice.validate, Bool.and_eq_true,
      decide_eq_true_eq] at hvalid
    exact hvalid.1.1.1.1.1.2.2.symm
  split at h
  · cases h
  replace h := ok_of_ite h
  split at h
  · cases h
  replace h := ok_of_ite h
  split at h
  · split at h
    · split at h
      · cases h
        exact .inl rfl
      · cases h
    rw [ite_error_eq_ok] at h
    cases h.2
    exact .inr ⟨hjobID, rfl⟩
  rw [ite_error_eq_ok] at h
  cases h.2
  exact .inr ⟨hjobID, rfl⟩

/-- The placement that is installed has the source on this incarnation. -/
def ownsSource (worker : Incarnation) (work : RecoveredWork) (notice : CheckpointNotice) : Bool :=
  (work.assignments.find? notice.jobID).any fun assignment =>
    (findToken assignment.assignment notice.source).any (localToken worker)

/-- A notice is answered without a write, by the cursor of an own source, or by an observation. -/
lemma handleCheckpoint_eq_ok (h : handleCheckpoint voter peer worker work request = .ok work') :
    work' = work ∨
      (ownsSource worker work request.notice = true ∧
        commitWork worker (engineApplyCheckpoint work request) = .ok work') ∨
      commitWork worker (applyCheckpointObservation work request) = .ok work' := by
  unfold handleCheckpoint at h
  replace h := ok_of_ite (ok_of_ite h)
  split at h
  · cases h
  rename_i assignment hassignment
  replace h := ok_of_ite h
  split at h
  · cases h
  rename_i token htoken
  replace h := ok_of_ite h
  split at h
  · rename_i hlocal
    split at h
    · cases h
      exact .inl rfl
    refine .inr (.inl ⟨?_, mapError_eq_ok.mp h⟩)
    simp only [ownsSource, hassignment, Option.any_some, htoken, hlocal]
  · exact .inr (.inr (mapError_eq_ok.mp h))

/-- An install leaves the node as it is, or is stored; the gate then moves as the process has it. -/
lemma handleAssignment_cases (peer : U16) (worker : Incarnation) (workerSlots : Nat) (reconciled : Bool)
    (install : InstalledAssignment) (hidle : node.process.handling = none)
    (hfence : node.process.fence = node.work.fence) :
    (handleAssignment voter peer worker workerSlots reconciled node install).1 = node ∨
      ∃ work process, commitWork worker (applyAssignment node.work install) = .ok work ∧
        (handleAssignment voter peer worker workerSlots reconciled node install).1 = ⟨work, process⟩ ∧
        (process = node.process ∨
          node.process.step voter (.runningInstall peer install.coordinatorEpoch) = some process) := by
  unfold handleAssignment
  split
  · exact .inl rfl
  rename_i hauthorized
  split
  · exact .inl rfl
  rename_i hepoch
  split
  · exact .inl rfl
  split
  · exact .inl rfl
  split
  · exact .inl rfl
  split
  · exact .inl rfl
  rename_i work hcommit
  split
  · exact .inr ⟨work, node.process, hcommit, rfl, .inl rfl⟩
  split
  · exact .inr ⟨work, node.process, hcommit, rfl, .inl rfl⟩
  split
  · exact .inr ⟨work, node.process, hcommit, rfl, .inl rfl⟩
  rename_i gate hopened
  refine .inr ⟨work, _, hcommit, rfl, .inr ?_⟩
  rw [← hfence] at hepoch
  have hanswered : ¬ (authorizeCoordinator voter peer install.coordinatorEpoch = false ∨
      node.process.fence = .zero ∨ install.coordinatorEpoch ≠ node.process.fence) := by
    rintro (hnot | hstale)
    · exact hauthorized hnot
    · exact hepoch hstale
  simp only [Process.step, hidle, hanswered, Gate.afterOpen, hopened, ne_eq, not_true_eq_false, if_false]

end Stored

/-! ## What workers know -/

/-- A notice of a state the machine was in, and of the present one if it has its index. -/
structure Announced (m : Machine) (request : CommittedCheckpoint) (job : JobRecord) : Prop where
  found : m.jobs.find? request.notice.jobID = some job
  watermark : request.notice.watermark ≤ job.watermark request.notice.source
  index : request.notice.raftIndex ≤ m.lastAppliedIndex
  present : request.notice.raftIndex = m.lastAppliedIndex → ∃ set, job.assignment = some set ∧
    request = announcement m request.notice.jobID job set request.notice.source

/-- A cursor is at zero, or at a watermark that was announced, which it counted at most that often. -/
inductive Tracks (m : Machine) (source : TaskID) (watermark raftIndex revision : U64) : Prop where
  | zero (hwatermark : watermark = 0) (hindex : raftIndex = 0) (hrevision : revision = 0)
  | committed {job : JobRecord} (hwatermark : watermark ≠ 0) (hrevision : revision ≠ 0)
    (hcount : revision ≤ watermark) (hjob : m.jobs.find? source.jobID = some job)
    (hle : watermark ≤ job.watermark source) (hindex : raftIndex ≤ m.lastAppliedIndex)
    (hlater : watermark < job.watermark source → raftIndex < m.lastAppliedIndex)

abbrev RecoveredWork.Tracked (work : RecoveredWork) (m : Machine) : Prop := work.EachCursor (Tracks m)

/-- An observation is of its source, and was announced. -/
structure Observed (m : Machine) (source : TaskID) (observation : CommittedCheckpoint) : Prop where
  jobID : observation.notice.jobID = source.jobID
  source : observation.notice.source = source
  announced : ∃ job, Announced m observation job

section Knowledge

variable [Contract] {m m' : Machine} {entry : LogEntry} {result : Bytes} {source : TaskID}
variable {watermark raftIndex revision : U64} {request : CommittedCheckpoint} {job : JobRecord}
variable {work work' : RecoveredWork} {cursor : SourceCursor}

/-- What one entry does to a checkpoint: it stays, or its watermark grows and its count goes on by one. -/
lemma applies_checkpoint (hm : Reachable m) (h : Applies m entry result m') {key : JobID}
    (hjob : m.jobs.find? key = some job) (source : TaskID) : ∃ job', m'.jobs.find? key = some job' ∧
      ((job'.watermark source = job.watermark source ∧ job'.advances source = job.advances source) ∨
        (job.watermark source < job'.watermark source ∧
          job'.advances source = job.advances source + 1 ∧ job.advances source ≠ BitVec.allOnes 64)) := by
  obtain ⟨job', hjob', hkept⟩ := h.jobKept hm.keyed hjob
  refine ⟨job', hjob', ?_⟩
  obtain hsame | ⟨command, next, changed, growth, heff, hstep⟩ := hkept
  · rw [hsame]
    exact .inl ⟨rfl, rfl⟩
  unfold JobRecord.watermark JobRecord.advances
  obtain hsame | ⟨report, htarget, hkey, habove, hinsert⟩ := hstep.checkpoints
  · rw [hsame]
    exact .inl ⟨rfl, rfl⟩
  rw [hinsert]
  by_cases hsource : report.source = source
  · subst hsource
    rw [find?_insert_self]
    -- the command takes the next count of the checkpoint
    have hissued := heff.issued hm
    rw [Issued, htarget] at hissued
    obtain ⟨hmax, hnext, -⟩ := hissued (fun h => nomatch h)
    have hcount : m.subjectRevision (Target.advanceCheckpoint report).subject =
        job.advances report.source := by
      simp only [Machine.subjectRevision, Target.subject, SubjectKey.sourceCheckpoint, hkey, hjob]
      rfl
    rw [hcount] at hmax hnext
    exact .inr ⟨habove, hnext, hmax⟩
  rw [find?_insert_ne _ _ hsource]
  exact .inl ⟨rfl, rfl⟩

lemma lt_of_applies {index : U64} (h : Applies m entry result m') (hle : index ≤ m.lastAppliedIndex) :
    index < m'.lastAppliedIndex := by
  obtain ⟨hlast, hlater⟩ := h.index
  rw [hlast]
  exact Nat.lt_of_le_of_lt hle hlater

/-- A watermark that was reached stays below the committed one. -/
lemma exists_reached (hm : Reachable m) (happlies : Applies m entry result m') {key : JobID}
    (hjob : m.jobs.find? key = some job) (hle : watermark ≤ job.watermark source) :
    ∃ job', m'.jobs.find? key = some job' ∧ watermark ≤ job'.watermark source := by
  obtain ⟨job', hjob', hstays | hgrows⟩ := applies_checkpoint hm happlies hjob source
  · exact ⟨job', hjob', hstays.1.symm ▸ hle⟩
  · exact ⟨job', hjob', BitVec.le_trans hle (BitVec.le_of_lt hgrows.1)⟩

lemma Announced.applies (h : Announced m request job) (hm : Reachable m)
    (happlies : Applies m entry result m') : ∃ job', Announced m' request job' := by
  obtain ⟨job', hjob', hle⟩ := exists_reached hm happlies h.found h.watermark
  have hindex := lt_of_applies happlies h.index
  refine ⟨job', hjob', hle, BitVec.le_of_lt hindex, ?_⟩
  intro hpresent
  rw [hpresent] at hindex
  exact absurd hindex (BitVec.lt_irrefl _)

lemma Tracks.applies (h : Tracks m source watermark raftIndex revision) (hm : Reachable m)
    (happlies : Applies m entry result m') : Tracks m' source watermark raftIndex revision := by
  cases h with
  | zero hwatermark hindex hrevision => exact .zero hwatermark hindex hrevision
  | committed hwatermark hrevision hcount hjob hle hindex =>
    obtain ⟨job', hjob', hle'⟩ := exists_reached hm happlies hjob hle
    have hlater := lt_of_applies happlies hindex
    exact .committed hwatermark hrevision hcount hjob' hle' (BitVec.le_of_lt hlater) fun _ => hlater

lemma Observed.applies {observation : CommittedCheckpoint} (h : Observed m source observation)
    (hm : Reachable m) (happlies : Applies m entry result m') : Observed m' source observation := by
  obtain ⟨hjobID, hsource, job, hannounced⟩ := h
  exact ⟨hjobID, hsource, hannounced.applies hm happlies⟩

omit [Contract] in
/-- A cursor that takes an announced watermark over. -/
lemma Tracks.moved (hannounced : Announced m request job)
    (hkey : request.notice.source.jobID = request.notice.jobID)
    (h : Tracks m request.notice.source watermark raftIndex revision)
    (habove : watermark < request.notice.watermark) (hcounted : revision + 1 ≠ 0) :
    Tracks m request.notice.source request.notice.watermark request.notice.raftIndex (revision + 1) := by
  have hle : revision ≤ watermark := by
    cases h with
    | zero hwatermark _ hrevision =>
      rw [hwatermark, hrevision]
      exact BitVec.le_refl _
    | committed _ _ hcount => exact hcount
  have hmax : revision ≠ BitVec.allOnes 64 := by
    intro hmax
    rw [hmax] at hcounted
    exact hcounted (by decide)
  have hcount : revision + 1 ≤ request.notice.watermark := by
    rw [BitVec.le_def, toNat_succ hmax]
    exact Nat.succ_le_of_lt (Nat.lt_of_le_of_lt hle habove)
  refine .committed (ne_zero_of_above habove) hcounted hcount (hkey ▸ hannounced.found)
    hannounced.watermark hannounced.index ?_
  intro hbehind
  -- at the present index the notice has the present watermark
  by_cases hpresent : request.notice.raftIndex = m.lastAppliedIndex
  · obtain ⟨set, -, heq⟩ := hannounced.present hpresent
    have hsame := congrArg (fun request : CommittedCheckpoint => request.notice.watermark) heq
    rw [show request.notice.watermark = job.watermark request.notice.source from hsame] at hbehind
    exact absurd hbehind (BitVec.lt_irrefl _)
  have hindex := hannounced.index
  bv_omega

omit [Contract] in
/-- A cursor in track with a watermark has a count. -/
lemma tracked_counted (h : work.Tracked m) : work.Counted source := by
  rintro prior hprior ⟨hwatermark, hrevision⟩
  have htracks := h source
  obtain ⟨hwatermark', hrevision', -⟩ := lookup_some hprior
  rw [hwatermark', hrevision'] at htracks
  cases htracks with
  | zero hzero => exact hwatermark hzero
  | committed _ hcount => exact hcount hrevision

omit [Contract] in
/-- A notice that is taken over leaves the cursors in track. -/
lemma Moves.tracked (hmoves : Moves work request.notice work') (h : work.Tracked m)
    (hannounced : ∃ job, Announced m request job) : Spares work work' ∧ work'.Tracked m := by
  cases hmoves with
  | kept hsources hspares => exact ⟨hspares, eachCursor_kept h hsources⟩
  | moved hkey hspares hsources hwatermark habove hrevision hcounted hindex =>
    obtain ⟨job, hannounced⟩ := hannounced
    refine ⟨hspares, eachCursor_insert h hsources ?_⟩
    rw [hrevision] at hcounted
    rw [hwatermark, hrevision, hindex]
    exact Tracks.moved hannounced hkey (h request.notice.source) habove hcounted

end Knowledge

/-! ## What holds in every run -/

/-- What a worker keeps goes back to what the machine had, passes the check before a commit, and is under
    the fence of its process. -/
structure Node.Keeps [Contract] (voter : U16 → Bool) (m : Machine) (worker : Incarnation) (node : Node) :
    Prop where
  cursors : node.work.Tracked m
  observed : ∀ source observation, node.work.checkpoints.find? source = some observation →
    Observed m source observation
  checked : validateRecoveredWorkLocal node.work worker = true
  reached : Process.start.Reaches voter node.process
  fence : node.process.fence = node.work.fence

structure Fleet.Consistent [Contract] (voter : U16 → Bool) (f : Fleet) : Prop where
  reachable : Reachable f.machine
  sent : ∀ request ∈ f.sent, ∃ job, Announced f.machine request job
  nodes : ∀ worker, (f.node worker).Keeps voter f.machine worker

section Consistent

variable [Contract] {voter : U16 → Bool} {admits : Fleet → Incarnation → CommittedCheckpoint → Prop}
variable {f f' : Fleet} {m : Machine} {worker : Incarnation} {node : Node} {work : RecoveredWork}
variable {process : Process} {peer : U16} {request : CommittedCheckpoint}

lemma Node.Keeps.new (m : Machine) (worker : Incarnation) : Node.new.Keeps voter m worker :=
  ⟨fun _ => .zero rfl rfl rfl, fun _ _ h => (by cases h), rfl, .refl, rfl⟩

lemma Node.Keeps.applies (h : node.Keeps voter m worker) (hm : Reachable m) {entry : LogEntry}
    {result : Bytes} {m' : Machine} (happlies : Applies m entry result m') : node.Keeps voter m' worker :=
  ⟨fun source => (h.cursors source).applies hm happlies,
    fun source observation hfind => (h.observed source observation hfind).applies hm happlies,
    h.checked, h.reached, h.fence⟩

/-- A transaction on the store alone. -/
lemma Node.Keeps.store (h : node.Keeps voter m worker) (hspares : Spares node.work work)
    (hcursors : work.Tracked m) (hchecked : validateRecoveredWorkLocal work worker = true) :
    Node.Keeps voter m worker ⟨work, node.process⟩ := by
  refine ⟨hcursors, ?_, hchecked, h.reached, ?_⟩
  · intro source observation hfind
    rw [hspares.checkpoints] at hfind
    exact h.observed source observation hfind
  · exact h.fence.trans hspares.fence.symm

/-- The process moves and keeps its fence. -/
lemma Node.Keeps.moves (h : node.Keeps voter m worker) (hstep : node.process.Steps voter process)
    (hfence : process.fence = node.process.fence) : Node.Keeps voter m worker ⟨node.work, process⟩ :=
  ⟨h.cursors, h.observed, h.checked, h.reached.tail hstep, hfence.trans h.fence⟩

/-- A fence is stored once the gate has drained. -/
lemma Node.Keeps.fenced (h : node.Keeps voter m worker) {epoch : CoordinatorEpoch} {channel : Option Nat}
    (hhandling : node.process.handling = some (epoch, channel))
    (hdrained : node.process.step voter .fenceDrained = some process)
    (hcommit : commitWork worker (applyFence node.work epoch) = .ok work) :
    Node.Keeps voter m worker ⟨work, process⟩ := by
  obtain ⟨happlied, hchecked⟩ := commitWork_iff.mp hcommit
  obtain ⟨rfl, hrises⟩ := applyFence_eq_ok happlied
  refine ⟨eachCursor_kept h.cursors rfl, h.observed, hchecked, h.reached.tail ⟨_, hdrained⟩, ?_⟩
  simp only [Process.step, hhandling] at hdrained
  split at hdrained
  · cases hdrained
  split at hdrained
  · -- the process does not go on: the fence is there already
    rename_i hstays
    cases hdrained
    have hfence := h.fence
    rw [← Bool.not_eq_true, fenceAdvances, decide_eq_true_eq, not_or, hfence] at hstays
    obtain hzero | hsame | hnewer := hrises
    · exact absurd hzero hstays.1
    · exact hfence.trans hsame.symm
    · exact absurd hnewer hstays.2
  · cases hdrained
    rfl

lemma Node.Keeps.install (h : node.Keeps voter m worker) {workerSlots : Nat} {reconciled : Bool}
    {install : InstalledAssignment} (hidle : node.process.handling = none) :
    Node.Keeps voter m worker
      (handleAssignment voter peer worker workerSlots reconciled node install).1 := by
  obtain hsame | ⟨work, process, hcommit, hnode, hprocess⟩ :=
    handleAssignment_cases peer worker workerSlots reconciled install hidle h.fence
  · rw [hsame]
    exact h
  rw [hnode]
  obtain ⟨happlied, hchecked⟩ := commitWork_iff.mp hcommit
  have hstored : Node.Keeps voter m worker ⟨work, node.process⟩ := by
    obtain ⟨-, -, decoded, -, rfl | rfl⟩ := applyAssignment_eq_ok happlied
    · exact h
    · exact h.store ⟨rfl, rfl⟩ (eachCursor_kept h.cursors rfl) hchecked
  obtain rfl | hstep := hprocess
  · exact hstored
  refine hstored.moves ⟨_, hstep⟩ ?_
  simp only [Process.step, hidle, ne_eq, not_true_eq_false, if_false] at hstep
  split at hstep <;> cases hstep <;> rfl

lemma Node.Keeps.noticed (h : node.Keeps voter m worker) (hannounced : ∃ job, Announced m request job)
    (hcommit : handleCheckpoint voter peer worker node.work request = .ok work) :
    Node.Keeps voter m worker ⟨work, node.process⟩ := by
  obtain rfl | ⟨-, howned⟩ | hobserved := handleCheckpoint_eq_ok hcommit
  · exact h
  · obtain ⟨hengine, hchecked⟩ := commitWork_iff.mp howned
    obtain ⟨hspares, hcursors⟩ :=
      (engineApplyCheckpoint_moves (tracked_counted h.cursors) hengine).tracked h.cursors hannounced
    exact h.store hspares hcursors hchecked
  obtain ⟨happlied, hchecked⟩ := commitWork_iff.mp hobserved
  obtain rfl | ⟨hjobID, rfl⟩ := applyCheckpointObservation_eq_ok happlied
  · exact h
  refine ⟨eachCursor_kept h.cursors rfl, ?_, hchecked, h.reached, h.fence⟩
  intro source observation hfind
  rw [find?_insert] at hfind
  split at hfind
  · rename_i hrank
    cases hfind
    have hsource := Ranked.rank_injective hrank
    exact ⟨hsource ▸ hjobID, hsource, hannounced⟩
  · exact h.observed source observation hfind

lemma Node.Keeps.sourced (h : node.Keeps voter m worker) {cursor : SourceCursor}
    {outboxes : List OutboxRecord}
    (hcommit : commitWork worker (applySource node.work cursor outboxes) = .ok work) :
    Node.Keeps voter m worker ⟨work, node.process⟩ := by
  obtain ⟨happlied, hchecked⟩ := commitWork_iff.mp hcommit
  obtain rfl | ⟨rfl, hwatermark, hrevision, hindex⟩ := applySource_eq_ok happlied
  · exact h
  refine h.store ⟨rfl, rfl⟩ (eachCursor_insert h.cursors rfl ?_) hchecked
  rw [hwatermark, hrevision, hindex]
  exact h.cursors cursor.source

lemma Fleet.Consistent.put (h : f.Consistent voter) (hnode : node.Keeps voter f.machine worker) :
    (f.put worker node).Consistent voter := by
  refine ⟨h.reachable, h.sent, ?_⟩
  exact (forall_update_iff _ fun worker (node : Node) => node.Keeps voter f.machine worker).mpr
    ⟨hnode, fun other _ => h.nodes other⟩

lemma Fleet.Consistent.step (h : f.Consistent voter) (hstep : FleetStep voter admits f f') :
    f'.Consistent voter := by
  cases hstep with
  | command happlies =>
    refine ⟨h.reachable.applies happlies, ?_, fun worker => (h.nodes worker).applies h.reachable happlies⟩
    intro request hrequest
    obtain ⟨job, hannounced⟩ := h.sent request hrequest
    exact hannounced.applies h.reachable happlies
  | offer => exact ⟨h.reachable, h.sent, h.nodes⟩
  | announce _ hjob hset =>
    refine ⟨h.reachable, ?_, h.nodes⟩
    intro request hrequest
    cases List.mem_cons.mp hrequest with
    | inl hnew =>
      subst hnew
      exact ⟨_, hjob, BitVec.le_refl _, BitVec.le_refl _, fun _ => ⟨_, hset, rfl⟩⟩
    | inr hold => exact h.sent request hold
  | process _ hmoves hfence => exact h.put ((h.nodes _).moves ⟨_, hmoves⟩ hfence)
  | fence hhandling hdrained hcommit => exact h.put ((h.nodes _).fenced hhandling hdrained hcommit)
  | install hidle => exact h.put ((h.nodes _).install hidle)
  | notice hsent _ hcommit => exact h.put ((h.nodes _).noticed (h.sent _ hsent) hcommit)
  | source hcommit => exact h.put ((h.nodes _).sourced hcommit)
  | other hfence _ hsources hcheckpoints hchecked =>
    exact h.put ((h.nodes _).store ⟨hfence, hcheckpoints⟩ (eachCursor_kept (h.nodes _).cursors hsources)
      hchecked)

lemma FleetRun.consistent (h : FleetRun voter admits f) : f.Consistent voter := by
  induction h with
  | start => exact ⟨.new, fun _ h => (by cases h), fun worker => .new _ worker⟩
  | step _ hstep ih => exact ih.step hstep

end Consistent

end Crane.Worker
