import Crane.Model.Operator

/-!
# Topologies

`topology.go`: the graph of a job, the checks that accept it, and its canonical bytes. Validation
goes over the stages once and over the edges once, then asks for a topological order, for every
stage to lie between the source and the sink, and for the worst-case expansion and durable
reservations to stay within their limits. A decoded topology is validated again and must encode
to the bytes it came from.

The loops over a queue take fuel, one unit for each stage a queue can hold. The source's error
texts are left out: a check that fails is `none`.
-/

namespace Crane.Model

open Wire Data List Codec Codec Limits

inductive RoutingMode where
  | shuffle
  | fieldHash
  | broadcast
  deriving DecidableEq

structure StageSpec where
  stageID : U16
  name : Bytes
  role : StageRole
  parallelism : U16
  operator : OperatorSpec
  deriving DecidableEq

structure EdgeSpec where
  edgeID : U16
  sourceStageID : U16
  destinationStageID : U16
  routing : RoutingMode
  field : Bytes
  deriving DecidableEq

structure TopologySpec where
  schemaVersion : U16
  name : Bytes
  stages : List StageSpec
  edges : List EdgeSpec
  registryFingerprint : Array32
  deriving DecidableEq

structure ValidatedTopology where
  spec : TopologySpec
  canonical : Bytes
  digest : Array32
  byStage : Table U16 StageSpec
  eofs : Table U16 (List U64)
  downstreamDeliveries : Table U16 Nat
  custodyBytesByStage : Table U16 Nat
  collectStageID : U16
  collectPartitions : List U16
  deriving DecidableEq

/-! ## Canonical bytes -/

def stageRoleCodec : Codec StageRole :=
  enum 1
    (fun | .source => 1 | .transform => 2 | .sink => 3)
    (fun w => if w = 1 then some .source else if w = 2 then some .transform
      else if w = 3 then some .sink else none)
    (by
      intro w role
      refine ⟨fun h => ?_, fun h => by subst h; cases role <;> rfl⟩
      repeat' split at h
      all_goals cases h <;> (symm; assumption))

def routingModeCodec : Codec RoutingMode :=
  enum 1
    (fun | .shuffle => 1 | .fieldHash => 2 | .broadcast => 3)
    (fun w => if w = 1 then some .shuffle else if w = 2 then some .fieldHash
      else if w = 3 then some .broadcast else none)
    (by
      intro w mode
      refine ⟨fun h => ?_, fun h => by subst h; cases mode <;> rfl⟩
      repeat' split at h
      all_goals cases h <;> (symm; assumption))

def settingCodec : Codec Setting :=
  ((blob 2 maxSettingKeyBytes).seq (blob 2 maxSettingValueBytes)).via
    (fun setting => (setting.key, setting.value)) (fun p => ⟨p.1, p.2⟩)

lemma four_le_settingCodec (a : Setting) : 4 ≤ (settingCodec.put a).length := by
  simp [settingCodec]
  omega

def operatorSpecCodec : Codec OperatorSpec :=
  ((blob 2 maxIdentifierBytes).seq (u16.seq
      (counted 2 (· ≤ maxSettingsPerStage) 4 settingCodec (by decide)
        four_le_settingCodec))).via
    (fun operator => (operator.name, operator.version, operator.settings))
    (fun p => ⟨p.1, p.2.1, p.2.2⟩)

def stageSpecCodec : Codec StageSpec :=
  (u16.seq ((blob 2 maxIdentifierBytes).seq (stageRoleCodec.seq
      (u16.seq operatorSpecCodec)))).via
    (fun stage => (stage.stageID, stage.name, stage.role, stage.parallelism, stage.operator))
    (fun p => ⟨p.1, p.2.1, p.2.2.1, p.2.2.2.1, p.2.2.2.2⟩)

def edgeSpecCodec : Codec EdgeSpec :=
  (u16.seq (u16.seq (u16.seq (routingModeCodec.seq
      (blob 2 maxIdentifierBytes))))).via
    (fun edge => (edge.edgeID, edge.sourceStageID, edge.destinationStageID, edge.routing, edge.field))
    (fun p => ⟨p.1, p.2.1, p.2.2.1, p.2.2.2.1, p.2.2.2.2⟩)

lemma ten_le_stageSpecCodec (a : StageSpec) : 10 ≤ (stageSpecCodec.put a).length := by
  simp [stageSpecCodec, operatorSpecCodec, stageRoleCodec]
  omega

lemma nine_le_edgeSpecCodec (a : EdgeSpec) : 9 ≤ (edgeSpecCodec.put a).length := by
  simp [edgeSpecCodec, routingModeCodec]
  omega

/-- What stands behind the length of a topology's canonical bytes. -/
def topologyBodyCodec : Codec TopologySpec :=
  (u16.seq ((blob 2 maxIdentifierBytes).seq (array32.seq
      ((counted 2 (· ≤ maxStages) 10 stageSpecCodec (by decide)
          ten_le_stageSpecCodec).seq
        (counted 2 (· ≤ maxEdges) 9 edgeSpecCodec (by decide)
          nine_le_edgeSpecCodec))))).via
    (fun spec => (spec.schemaVersion, spec.name, spec.registryFingerprint, spec.stages, spec.edges))
    (fun p => ⟨p.1, p.2.1, p.2.2.2.1, p.2.2.2.2, p.2.2.1⟩)

def marshalTopology (spec : TopologySpec) : Bytes :=
  (blob 8 maxTopologyBytes).put (topologyBodyCodec.put spec)

/-! ## Before anything is copied -/

/-- The settings of one stage, with the bytes of all settings so far. -/
def preflightSettings (total : Nat) : List Setting → Option Nat
  | [] => some total
  | setting :: rest => do
    guard (setting.key.length ≤ maxSettingKeyBytes ∧ setting.value.length ≤ maxSettingValueBytes)
    let size ← checkedAdd setting.key.length setting.value.length
    let total ← checkedAdd total size
    guard (total ≤ maxTotalSettingsBytes)
    preflightSettings total rest

def preflightStages (tasks total : Nat) : List StageSpec → Bool
  | [] => true
  | stage :: rest =>
    stage.name.length ≤ maxIdentifierBytes &&
      stage.operator.name.length ≤ maxIdentifierBytes &&
      stage.parallelism.toNat ≤ maxTasksPerStage &&
      match checkedAdd tasks stage.parallelism.toNat with
      | none => false
      | some tasks =>
        tasks ≤ maxTasksPerJob &&
          stage.operator.settings.length ≤ maxSettingsPerStage &&
          match preflightSettings total stage.operator.settings with
          | none => false
          | some total => preflightStages tasks total rest

def preflightTopologyInput (spec : TopologySpec) : Bool :=
  spec.stages.length ≤ maxStages && spec.edges.length ≤ maxEdges &&
    spec.name.length ≤ maxIdentifierBytes &&
    spec.edges.all (fun edge => edge.field.length ≤ maxIdentifierBytes) &&
    preflightStages 0 0 spec.stages

lemma preflightSettings_dom {settings : List Setting} {total after : Nat}
    (h : preflightSettings total settings = some after) : ∀ setting ∈ settings, settingCodec.dom setting := by
  induction settings generalizing total with
  | nil => exact nofun
  | cons setting rest ih =>
    simp only [preflightSettings, bind_eq_some, exists_guard] at h
    obtain ⟨⟨hkey, hvalue⟩, size, -, sum, -, -, hrest⟩ := h
    rintro _ (_ | ⟨_, hmem⟩)
    · exact ⟨blob_dom hkey, blob_dom hvalue⟩
    · exact ih hrest _ hmem

lemma preflightStages_dom {stages : List StageSpec} {tasks total : Nat}
    (h : preflightStages tasks total stages = true) : ∀ stage ∈ stages, stageSpecCodec.dom stage := by
  induction stages generalizing tasks total with
  | nil => exact nofun
  | cons stage rest ih =>
    simp only [preflightStages, Bool.and_eq_true, decide_eq_true_eq] at h
    obtain ⟨⟨⟨hname, hoper⟩, -⟩, h⟩ := h
    split at h
    · cases h
    simp only [Bool.and_eq_true] at h
    obtain ⟨⟨-, hcnt⟩, h⟩ := h
    split at h
    · cases h
    rename_i hsett
    rintro _ (_ | ⟨_, hmem⟩)
    · exact ⟨trivial, blob_dom hname, trivial, trivial, blob_dom hoper, trivial,
        counted_dom hcnt (of_decide_eq_true hcnt) (preflightSettings_dom hsett)⟩
    · exact ih h _ hmem

/-- What may be encoded is read back. -/
lemma topologyBodyCodec_dom {spec : TopologySpec} (h : preflightTopologyInput spec = true) :
    topologyBodyCodec.dom spec := by
  simp only [preflightTopologyInput, Bool.and_eq_true, all_eq_true, decide_eq_true_eq] at h
  obtain ⟨⟨⟨⟨hstgs, hedges⟩, hname⟩, hflds⟩, hprefl⟩ := h
  refine ⟨trivial, blob_dom hname, trivial, counted_dom (decide_eq_true hstgs) hstgs
    (preflightStages_dom hprefl), counted_dom (decide_eq_true hedges) hedges ?_⟩
  intro edge hedge
  exact ⟨trivial, trivial, trivial, trivial, blob_dom (hflds edge hedge)⟩

/-! ## The stages, one by one -/

/-- What the pass over the stages has gathered. An identifier of zero is one not seen yet. -/
structure StageScan where
  last : U16
  names : List Bytes
  taskCount : Nat
  sourceID : U16
  sinkID : U16
  byStage : Table U16 StageSpec
  outputBounds : Table U16 Nat
  eofs : Table U16 (List U64)

def StageScan.start : StageScan := ⟨0, [], 0, 0, 0, .empty, .empty, .empty⟩

def StageScan.step (scan : StageScan) (stage : StageSpec) : Option StageScan := do
  guard (stage.stageID ≠ 0 ∧ scan.last < stage.stageID)
  guard (validateASCIIName stage.name maxIdentifierBytes)
  guard (stage.name ∉ scan.names)
  guard (stage.parallelism ≠ 0 ∧ stage.parallelism.toNat ≤ maxTasksPerStage)
  let taskCount ← checkedAdd scan.taskCount stage.parallelism.toNat
  guard (taskCount ≤ maxTasksPerJob)
  let descriptor ← validateOperatorSpec stage.operator
  guard (descriptor.role = stage.role)
  let scan := { scan with
    last := stage.stageID, names := stage.name :: scan.names, taskCount
    byStage := scan.byStage.insert stage.stageID stage
    outputBounds := scan.outputBounds.insert stage.stageID descriptor.maxOutputs }
  match stage.role with
  | .source =>
    guard (scan.sourceID = 0)
    let partitionEOFs ← rangeEOFs stage.operator stage.parallelism.toNat
    some { scan with
      sourceID := stage.stageID, eofs := scan.eofs.insert stage.stageID partitionEOFs }
  | .transform => some scan
  | .sink =>
    guard (stage.operator.name = ascii "collect" ∧ scan.sinkID = 0)
    some { scan with sinkID := stage.stageID }

lemma checkedAdd_eq_some {left right total : Nat} (h : checkedAdd left right = some total) :
    total = left + right := by
  unfold checkedAdd at h
  split at h
  · exact (Option.some.inj h).symm
  · cases h

/-- What one stage must be like, and how it moves the scan. -/
lemma StageScan.step_inv {scan scan' : StageScan} {stage : StageSpec} (h : scan.step stage = some scan') :
    ∃ eofs, (scan.last < stage.stageID ∧ scan'.last = stage.stageID ∧ stage.stageID ≠ 0 ∧
      stage.parallelism ≠ 0 ∧ stage.parallelism.toNat ≤ maxTasksPerStage ∧
      scan'.taskCount = scan.taskCount + stage.parallelism.toNat ∧ scan'.taskCount ≤ maxTasksPerJob) ∧
    scan'.byStage = scan.byStage.insert stage.stageID stage ∧
    scan'.eofs = (if stage.role = .source then scan.eofs.insert stage.stageID eofs else scan.eofs) ∧
    (stage.role = .source → rangeEOFs stage.operator stage.parallelism.toNat = some eofs) ∧
    (scan'.sourceID = scan.sourceID ∨ scan'.sourceID = stage.stageID) ∧
    (scan'.sinkID = scan.sinkID ∨ scan'.sinkID = stage.stageID) := by
  simp only [StageScan.step, bind_eq_some, exists_guard] at h
  obtain ⟨⟨hid, hlast⟩, -, -, ⟨hpar, hbd⟩, count, hcnt, hlim, descriptor, -, -, hrole⟩ := h
  have hcnt := checkedAdd_eq_some hcnt
  cases hr : stage.role with
  | source =>
    simp only [hr, bind_eq_some, exists_guard, Option.some.injEq] at hrole
    obtain ⟨-, eofs, heofs, rfl⟩ := hrole
    exact ⟨eofs, ⟨hlast, rfl, hid, hpar, hbd, hcnt, hlim⟩, rfl, rfl,
      fun _ => heofs, .inr rfl, .inl rfl⟩
  | transform =>
    simp only [hr, Option.some.injEq] at hrole
    exact hrole ▸ ⟨[], ⟨hlast, rfl, hid, hpar, hbd, hcnt, hlim⟩, rfl, rfl, fun h => (by cases h),
      .inl rfl, .inl rfl⟩
  | sink =>
    simp only [hr, bind_eq_some, exists_guard, Option.some.injEq] at hrole
    obtain ⟨-, rfl⟩ := hrole
    exact ⟨[], ⟨hlast, rfl, hid, hpar, hbd, hcnt, hlim⟩, rfl, rfl, fun h => (by cases h),
      .inl rfl, .inr rfl⟩

/-- The stages in increasing order, each of them and all together within their limits. -/
structure StagesBounded (stages : List StageSpec) : Prop where
  ordered : stages.Pairwise fun a b => a.stageID < b.stageID
  named : ∀ stage ∈ stages, stage.stageID ≠ 0
  parallel : ∀ stage ∈ stages, stage.parallelism ≠ 0 ∧ stage.parallelism.toNat ≤ maxTasksPerStage
  total : (stages.map (·.parallelism.toNat)).sum ≤ maxTasksPerJob

lemma stagesBounded_of_scan {scan scan' : StageScan} {stages : List StageSpec}
    (h : stages.foldlM StageScan.step scan = some scan') (hcnt : scan.taskCount ≤ maxTasksPerJob) :
    (∀ stage ∈ stages, scan.last < stage.stageID) ∧
      scan.taskCount + (stages.map (·.parallelism.toNat)).sum ≤ maxTasksPerJob ∧
      StagesBounded stages := by
  induction stages generalizing scan with
  | nil => exact ⟨nofun, by simpa using hcnt, .nil, nofun, nofun, by simp⟩
  | cons stage rest ih =>
    simp only [foldlM_cons, bind_eq_some] at h
    obtain ⟨between, hstep, hrest⟩ := h
    obtain ⟨-, ⟨hlast, hmvd, hid, hpar, hbd, hadded, hlim⟩, -⟩ := StageScan.step_inv hstep
    obtain ⟨habv, htotal, hordered, hnamed, hpos, -⟩ := ih hrest hlim
    rw [hmvd] at habv
    rw [hadded] at htotal
    have hsum : scan.taskCount + ((stage :: rest).map (·.parallelism.toNat)).sum ≤
        maxTasksPerJob := by
      rw [map_cons, sum_cons]
      omega
    refine ⟨?_, hsum, ?_, ?_, ?_, Nat.le_of_add_left_le hsum⟩
    · exact forall_mem_cons.mpr ⟨hlast, fun other hmem => BitVec.lt_trans hlast (habv other hmem)⟩
    · exact pairwise_cons.mpr ⟨habv, hordered⟩
    · exact forall_mem_cons.mpr ⟨hid, hnamed⟩
    · exact forall_mem_cons.mpr ⟨⟨hpar, hbd⟩, hpos⟩

/-! ## The edges -/

def outgoing (edges : List EdgeSpec) (id : U16) : List EdgeSpec := edges.filter (·.sourceStageID = id)

def incoming (edges : List EdgeSpec) (id : U16) : List EdgeSpec := edges.filter (·.destinationStageID = id)

def validateEdge (scan : StageScan) (last : U16) (edge : EdgeSpec) : Bool :=
  edge.edgeID ≠ 0 && last < edge.edgeID &&
    scan.byStage.contains edge.sourceStageID && scan.byStage.contains edge.destinationStageID &&
    edge.sourceStageID ≠ edge.destinationStageID &&
    (match edge.routing with
      | .shuffle => edge.field = []
      | .broadcast => edge.field = [] && edge.destinationStageID ≠ scan.sinkID
      | .fieldHash => edge.field = ascii "value")

def validateEdges (scan : StageScan) (last : U16) : List EdgeSpec → Bool
  | [] => true
  | edge :: rest => validateEdge scan last edge && validateEdges scan edge.edgeID rest

/-! ## The graph -/

/-- The degrees and the queue once the edges out of one stage have been taken away. -/
def releaseEdges (degree : U16 → Int) (queue : List U16) : List EdgeSpec → (U16 → Int) × List U16
  | [] => (degree, queue)
  | edge :: rest =>
    let left := degree edge.destinationStageID - 1
    releaseEdges (Function.update degree edge.destinationStageID left)
      (if left = 0 then queue ++ [edge.destinationStageID] else queue) rest

def orderLoop (edges : List EdgeSpec) : Nat → List U16 → (U16 → Int) → List U16 → List U16
  | 0, _, _, order => order
  | _ + 1, [], _, order => order
  | fuel + 1, id :: queue, degree, order =>
    let (degree, queue) := releaseEdges degree queue (outgoing edges id)
    orderLoop edges fuel queue degree (order ++ [id])

def topologicalOrder (stages : List StageSpec) (edges : List EdgeSpec) : Option (List U16) :=
  let degree : U16 → Int := fun id => (incoming edges id).length
  let queue := (stages.map (·.stageID)).filter fun id => degree id = 0
  let order := orderLoop edges (stages.length + 1) queue degree []
  if order.length = stages.length then some order else none

/-- The identifiers a breadth-first search from the queue has seen when it ends. `next` gives the
stages one edge away. -/
def reachLoop (next : U16 → List U16) : Nat → List U16 → List U16 → List U16
  | 0, _, seen => seen
  | _ + 1, [], seen => seen
  | fuel + 1, id :: queue, seen =>
    let fresh := (next id).foldl (fun acc n => if n ∈ seen ++ acc then acc else acc ++ [n]) []
    reachLoop next fuel (queue ++ fresh) (seen ++ fresh)

def allReachable (start : U16) (edges : List EdgeSpec) (want : Nat) : Bool :=
  (reachLoop (fun id => (outgoing edges id).map (·.destinationStageID)) (want + 1)
    [start] [start]).length = want

def allCanReach (sink : U16) (edges : List EdgeSpec) (want : Nat) : Bool :=
  (reachLoop (fun id => (incoming edges id).map (·.sourceStageID)) (want + 1)
    [sink] [sink]).length = want

/-! ## Expansion and reservations, last stage first -/

def routeFactor (byStage : Table U16 StageSpec) (edge : EdgeSpec) : Nat :=
  match edge.routing with
  | .broadcast => ((byStage.find? edge.destinationStageID).map (·.parallelism.toNat)).getD 0
  | _ => 1

/-- The deliveries one output of a stage gives rise to, edge by edge. -/
def expandEdges (byStage : Table U16 StageSpec) (deliveries : Table U16 Nat) (limit total : Nat) :
    List EdgeSpec → Option Nat
  | [] => some total
  | edge :: rest => do
    let factor := routeFactor byStage edge
    let child := (deliveries.find? edge.destinationStageID).getD 0
    guard (child ≠ 2 ^ 64 - 1 ∧ factor ≤ limit / (child + 1))
    let contribution := factor * (child + 1)
    guard (total ≤ limit - contribution)
    expandEdges byStage deliveries limit (total + contribution) rest

/-- `order` is the topological order from its end. -/
def validateExpansion (edges : List EdgeSpec) (scan : StageScan) (limit : Nat)
    (deliveries : Table U16 Nat) : List U16 → Option (Table U16 Nat)
  | [] => some deliveries
  | id :: order => do
    let perOutput ← expandEdges scan.byStage deliveries limit 0 (outgoing edges id)
    let total ← checkedMultiply perOutput ((scan.outputBounds.find? id).getD 0)
    guard (total ≤ limit)
    validateExpansion edges scan limit (deliveries.insert id total) order

def custodyEdges (byStage : Table U16 StageSpec) (reservations : Table U16 Nat)
    (outbox routed : Nat) : List EdgeSpec → Option Nat
  | [] => some routed
  | edge :: rest => do
    let factor := routeFactor byStage edge
    let perDelivery ← checkedAdd outbox ((reservations.find? edge.destinationStageID).getD 0)
    let edgeBytes ← checkedMultiply factor perDelivery
    let routed ← checkedAdd routed edgeBytes
    custodyEdges byStage reservations outbox routed rest

def calculateCustodyReservations (edges : List EdgeSpec) (scan : StageScan)
    (reservations : Table U16 Nat) : List U16 → Option (Table U16 Nat)
  | [] => some reservations
  | id :: order => do
    let inbox ← checkedAdd custodyInboxFixedBytes maxTuplePayloadBytes
    let outbox ← checkedAdd custodyOutboxFixedBytes maxTuplePayloadBytes
    let result ← checkedAdd resultCopyFixedBytes maxTuplePayloadBytes
    let total ←
      if id = scan.sinkID then do
        let copies ← checkedMultiply 2 result
        checkedAdd inbox copies
      else do
        let routed ← custodyEdges scan.byStage reservations outbox 0 (outgoing edges id)
        let routed ← checkedMultiply routed ((scan.outputBounds.find? id).getD 0)
        checkedAdd inbox routed
    guard (total ≤ maxCustodyReservationBytes)
    calculateCustodyReservations edges scan (reservations.insert id total) order

/-! ## Validation and decoding -/

section Validation

variable [Contract]

def validateTopology (spec : TopologySpec) : Option ValidatedTopology := do
  guard (preflightTopologyInput spec)
  guard (spec.schemaVersion = 1)
  guard (validateASCIIName spec.name maxIdentifierBytes)
  guard (spec.registryFingerprint = registryFingerprint)
  guard (spec.stages.length ≠ 0 ∧ spec.stages.length ≤ maxStages)
  guard (spec.edges.length ≠ 0 ∧ spec.edges.length ≤ maxEdges)
  let scan ← spec.stages.foldlM StageScan.step StageScan.start
  guard (scan.sourceID ≠ 0 ∧ scan.sinkID ≠ 0)
  guard (validateEdges scan 0 spec.edges)
  guard (incoming spec.edges scan.sourceID = [] ∧ outgoing spec.edges scan.sinkID = [])
  guard (∀ stage ∈ spec.stages, (stage.stageID ≠ scan.sourceID → incoming spec.edges stage.stageID ≠ []) ∧
    (stage.stageID ≠ scan.sinkID → outgoing spec.edges stage.stageID ≠ []))
  let order ← topologicalOrder spec.stages spec.edges
  guard (allReachable scan.sourceID spec.edges spec.stages.length ∧
    allCanReach scan.sinkID spec.edges spec.stages.length)
  let downstream ←
    validateExpansion spec.edges scan maxDerivedDeliveries .empty order.reverse
  let custody ← calculateCustodyReservations spec.edges scan .empty order.reverse
  let canonical := marshalTopology spec
  guard (canonical.length ≤ maxTopologyBytes)
  let sinkParallelism := ((scan.byStage.find? scan.sinkID).map (·.parallelism.toNat)).getD 0
  some {
    spec, canonical
    digest := sum256 canonical
    byStage := scan.byStage
    eofs := scan.eofs
    downstreamDeliveries := downstream
    custodyBytesByStage := custody
    collectStageID := scan.sinkID
    collectPartitions := (List.range sinkParallelism).map (BitVec.ofNat 16) }

def decodeTopology (encoded : Bytes) : Option ValidatedTopology := do
  guard (8 ≤ encoded.length)
  let declared := value (encoded.take 8)
  guard (declared ≤ maxTopologyBytes)
  guard (declared = encoded.length - 8)
  let spec ← topologyBodyCodec.decode (encoded.drop 8)
  let validated ← validateTopology spec
  guard (validated.canonical = encoded)
  some validated

/-- What a validated topology keeps of its input. -/
lemma validateTopology_eq_some {spec : TopologySpec} {validated : ValidatedTopology}
    (h : validateTopology spec = some validated) :
    validated.spec = spec ∧ validated.canonical = marshalTopology spec ∧
      validated.canonical.length ≤ maxTopologyBytes ∧ StagesBounded spec.stages := by
  simp only [validateTopology, bind_eq_some, exists_guard, Option.some.injEq] at h
  obtain ⟨-, -, -, -, -, -, scan, hscan, -, -, -, -, order, -, -, downstream, -, custody, -, hsize, rfl⟩ := h
  exact ⟨rfl, rfl, hsize, (stagesBounded_of_scan hscan (Nat.zero_le _)).2.2⟩

/-- A decoded topology is the validated one of the bytes. -/
lemma decodeTopology_eq_some {encoded : Bytes} {validated : ValidatedTopology}
    (h : decodeTopology encoded = some validated) :
    validateTopology validated.spec = some validated ∧ validated.canonical = encoded := by
  simp only [decodeTopology, bind_eq_some, exists_guard, Option.some.injEq] at h
  obtain ⟨-, -, -, spec, -, validated', hvald, hcanon, rfl⟩ := h
  rw [(validateTopology_eq_some hvald).1]
  exact ⟨hvald, hcanon⟩

/-- A validated topology is read back from its canonical bytes. -/
lemma decodeTopology_canonical {spec : TopologySpec} {validated : ValidatedTopology}
    (h : validateTopology spec = some validated) : decodeTopology validated.canonical = some validated := by
  obtain ⟨-, hcanon, hsize, -⟩ := validateTopology_eq_some h
  have hprefl : preflightTopologyInput spec = true := by
    simp only [validateTopology, bind_eq_some, exists_guard] at h
    exact h.1
  have hbody : validated.canonical =
      bigEndian 8 (topologyBodyCodec.put spec).length ++ topologyBodyCodec.put spec := hcanon
  have hlen : validated.canonical.length = 8 + (topologyBodyCodec.put spec).length := by
    rw [hbody, length_append, bigEndian_length]
  have hlim : maxTopologyBytes < 256 ^ 8 := by decide
  have hdecl : value (validated.canonical.take 8) = (topologyBodyCodec.put spec).length := by
    rw [hbody, take_left' (bigEndian_length ..), value_bigEndian]
    exact Nat.mod_eq_of_lt (by omega)
  simp only [decodeTopology, bind_eq_some, exists_guard, hdecl]
  refine ⟨by omega, by omega, by omega, spec, ?_, validated, h, rfl, rfl⟩
  rw [hbody, drop_left' (bigEndian_length ..)]
  exact decode_put (topologyBodyCodec_dom hprefl)

end Validation

/-- `SourceEOF`: the last valid sequence number of a source task. -/
def sourceEOF (topology : ValidatedTopology) (task : TaskID) : Option U64 := do
  guard task.validate
  let stage ← topology.byStage.find? task.stageID
  guard (stage.role = .source)
  guard (task.partition < stage.parallelism)
  let eofs ← topology.eofs.find? stage.stageID
  eofs[task.partition.toNat]?

end Crane.Model
