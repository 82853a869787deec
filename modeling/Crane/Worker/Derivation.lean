import Crane.State.Script
import Crane.Worker.Records

/-!
# The deliveries a source tuple gives rise to

The outboxes a store expects of a source step and of a processed delivery (`expectedSourceOutboxes`,
`expectedProcessedOutboxes`). An outbox at the destination is a delivery, so that the two together make
the tree of deliveries of one source tuple.

A child's identity is a digest of its parent's, the task that made it, the edge it leaves by and its
ordinal. The edge its parent came in by is not part of it. The result is when that keeps the identities
of the tree apart: SHA-256 is assumed to tell the byte strings apart that the tree's identities are made
of.
-/

namespace Crane.Worker

open Wire Data Model List Option

variable {task producer : TaskID} {tupleID parent : TupleID} {edgeID ordinal : U16}

/-! ## Outboxes -/

section Derivation

variable [Contract]

/-- The outboxes along one edge, one for each partition it is routed to. -/
def edgeOutboxes (assignment : InstalledAssignment) (producer : AssignmentToken) (tupleID : TupleID)
    (tuple : Tuple) (edge : EdgeSpec) : Option (List OutboxDefinition) := do
  let partitions ← route assignment.topology edge tupleID tuple
  partitions.mapM fun partition => do
    let task : TaskID := ⟨tupleID.jobID, edge.destinationStageID, partition⟩
    let destination ← findToken assignment.assignment task
    some ⟨⟨tupleID, edge.edgeID, task⟩, tuple, producer, destination, assignment.assignment.revision,
      assignment.assignment.digest, assignment.coordinatorEpoch⟩

/-- No two of them have one identity. -/
def distinctOutboxes (outboxes : List OutboxDefinition) : Bool := (outboxes.map (·.id)).Nodup

/-- The outboxes of the step that takes a source to the sequence number after this one. -/
def expectedSourceOutboxes (assignment : InstalledAssignment) (source : AssignmentToken)
    (sequence : U64) : Option (List OutboxDefinition) := do
  let found ← sourceTuple assignment.topology source.task sequence
  let tuple ← found
  let tupleID := deriveSourceTupleID source.task.jobID source.task sequence
  let perEdge ← (outgoing assignment.topology.spec.edges source.task.stageID).mapM
    (edgeOutboxes assignment source tupleID tuple)
  guard (distinctOutboxes perEdge.flatten)
  some perEdge.flatten

/-- The token of the task in the assignment if it is the same incarnation, or the delivery's own. -/
def currentProducerToken (assignment : InstalledAssignment) (destination : AssignmentToken) :
    AssignmentToken :=
  match findToken assignment.assignment destination.task with
  | some current =>
    if current.workerID = destination.workerID ∧ current.workerEpoch = destination.workerEpoch ∧
        current.attempt = destination.attempt ∧
        current.specificationHash = destination.specificationHash then current
    else destination
  | none => destination

def expectedProcessedOutboxes (assignment : InstalledAssignment) (delivery : OutboxDefinition)
    (outputs : List Tuple) : Option (List OutboxDefinition) := do
  let producer := currentProducerToken assignment delivery.destination
  let task := delivery.destination.task
  let perOutput ← outputs.zipIdx.mapM fun (tuple, outputIndex) => do
    let perEdge ← (outgoing assignment.topology.spec.edges task.stageID).mapM fun edge => do
      guard (outputIndex ≤ 65535)
      let child := deriveChildTupleID delivery.id.tuple task edge.edgeID (BitVec.ofNat 16 outputIndex)
      edgeOutboxes assignment producer child tuple edge
    some perEdge.flatten
  guard (distinctOutboxes perOutput.flatten)
  guard (perOutput.flatten.length ≤ Limits.maxDerivedDeliveries)
  some perOutput.flatten

def findStage (topology : ValidatedTopology) (id : U16) : Option StageSpec :=
  topology.spec.stages.find? (·.stageID = id)

/-- What processing a delivery puts into its outboxes. -/
def processedOutboxes (assignment : InstalledAssignment) (delivery : OutboxDefinition) :
    Option (List OutboxDefinition) := do
  let stage ← findStage assignment.topology delivery.destination.task.stageID
  let outputs ← executeOperator stage.operator delivery.tuple
  expectedProcessedOutboxes assignment delivery outputs

/-- The deliveries of one source tuple: those of the source, and those of a delivery's processing. -/
inductive Derived (assignment : InstalledAssignment) (source : AssignmentToken) (sequence : U64) :
    OutboxDefinition → Prop
  | source {outboxes : List OutboxDefinition} {delivery : OutboxDefinition} :
    expectedSourceOutboxes assignment source sequence = some outboxes → delivery ∈ outboxes →
    Derived assignment source sequence delivery
  | child {parent delivery : OutboxDefinition} {outboxes : List OutboxDefinition} :
    Derived assignment source sequence parent → processedOutboxes assignment parent = some outboxes →
    delivery ∈ outboxes → Derived assignment source sequence delivery

end Derivation

/-! ## What an outbox is made from -/

lemma DeliveryID.ext {first second : DeliveryID} (htup : first.tuple = second.tuple)
    (hedge : first.edgeID = second.edgeID) (htask : first.destinationTask = second.destinationTask) :
    first = second := by
  cases first
  cases second
  cases htup
  cases hedge
  cases htask
  rfl

section Facts

variable [Contract] {assignment : InstalledAssignment} {source : AssignmentToken} {sequence : U64}
variable {outboxes : List OutboxDefinition} {delivery outbox first second : OutboxDefinition}

omit [Contract] in
lemma findToken_task {set : AssignmentSet} {token : AssignmentToken}
    (h : findToken set task = some token) : token.task = task := by
  have htask := find?_some h
  exact of_decide_eq_true htask

lemma route_validates {topology : ValidatedTopology} {edge : EdgeSpec} {tuple : Tuple}
    {partitions : List U16} (h : route topology edge tupleID tuple = some partitions) :
    tupleID.validate = true := by
  simp only [route, bind_eq_bind, bind_eq_some_iff, guard_eq_some', exists_const] at h
  exact h.1

/-- An outbox along an edge: it has the tuple's identity, the edge's, and a task of its stage. -/
structure Along (assignment : InstalledAssignment) (tupleID : TupleID) (tuple : Tuple) (edge : EdgeSpec)
    (outbox : OutboxDefinition) : Prop where
  valid : tupleID.validate = true
  tupleID : outbox.id.tuple = tupleID
  tuple : outbox.tuple = tuple
  stage : outbox.id.destinationTask.stageID = edge.destinationStageID
  edge : outbox.id.edgeID = edge.edgeID
  job : outbox.id.destinationTask.jobID = outbox.id.tuple.jobID
  branded : outbox.assignmentRevision = assignment.assignment.revision ∧
    outbox.assignmentDigest = assignment.assignment.digest ∧
    outbox.coordinatorEpoch = assignment.coordinatorEpoch
  token : findToken assignment.assignment outbox.id.destinationTask = some outbox.destination

lemma edgeOutboxes_along {producer : AssignmentToken} {tuple : Tuple} {edge : EdgeSpec}
    (h : edgeOutboxes assignment producer tupleID tuple edge = some outboxes) (hmem : outbox ∈ outboxes) :
    Along assignment tupleID tuple edge outbox := by
  simp only [edgeOutboxes, bind_eq_bind, bind_eq_some_iff] at h
  obtain ⟨partitions, hroute, hmap⟩ := h
  obtain ⟨partition, -, hmade⟩ := exists_of_mem_mapM hmap hmem
  simp only [bind_eq_some_iff, some.injEq] at hmade
  obtain ⟨token, htok, rfl⟩ := hmade
  exact ⟨route_validates hroute, rfl, rfl, rfl, rfl, rfl, ⟨rfl, rfl, rfl⟩, htok⟩

lemma expectedSourceOutboxes_along
    (h : expectedSourceOutboxes assignment source sequence = some outboxes) (hmem : outbox ∈ outboxes) :
    ∃ tuple edge, sourceTuple assignment.topology source.task sequence = some (some tuple) ∧
      edge ∈ outgoing assignment.topology.spec.edges source.task.stageID ∧
      Along assignment (deriveSourceTupleID source.task.jobID source.task sequence) tuple edge outbox := by
  simp only [expectedSourceOutboxes, bind_eq_bind, bind_eq_some_iff,
    guard_eq_some', exists_const, some.injEq] at h
  obtain ⟨found, hfnd, tuple, htup, perEdge, hmap, -, rfl⟩ := h
  cases htup
  obtain ⟨some', hsome, hmem⟩ := mem_flatten.mp hmem
  obtain ⟨edge, hedge, hmade⟩ := exists_of_mem_mapM hmap hsome
  exact ⟨tuple, edge, hfnd, hedge, edgeOutboxes_along hmade hmem⟩

/-- The operator of a delivery's task yields a tuple with that number. -/
def Yields (assignment : InstalledAssignment) (delivery : OutboxDefinition) (index : Nat) : Prop :=
  ∃ stage outputs, findStage assignment.topology delivery.destination.task.stageID = some stage ∧
    executeOperator stage.operator delivery.tuple = some outputs ∧ index < outputs.length

/-- An outbox of a delivery's processing: an output of its operator, along an edge of its stage. -/
structure Made (assignment : InstalledAssignment) (delivery outbox : OutboxDefinition) (tuple : Tuple)
    (edge : EdgeSpec) (index : Nat) : Prop where
  yields : Yields assignment delivery index
  leaves : edge ∈ outgoing assignment.topology.spec.edges delivery.destination.task.stageID
  along : Along assignment (deriveChildTupleID delivery.id.tuple delivery.destination.task edge.edgeID
    (BitVec.ofNat 16 index)) tuple edge outbox

lemma processedOutboxes_made (h : processedOutboxes assignment delivery = some outboxes)
    (hmem : outbox ∈ outboxes) : ∃ tuple edge index, Made assignment delivery outbox tuple edge index := by
  simp only [processedOutboxes, bind_eq_bind, bind_eq_some_iff] at h
  obtain ⟨stage, hstage, outputs, houtputs, hexp⟩ := h
  simp only [expectedProcessedOutboxes, bind_eq_bind, bind_eq_some_iff,
    guard_eq_some', exists_const, some.injEq] at hexp
  obtain ⟨perOutput, hmap, -, -, rfl⟩ := hexp
  obtain ⟨some', hsome, hmem⟩ := mem_flatten.mp hmem
  obtain ⟨⟨tuple, index⟩, houtput, hedges⟩ := exists_of_mem_mapM hmap hsome
  simp only [bind_eq_some_iff, some.injEq] at hedges
  obtain ⟨perEdge, hedges, rfl⟩ := hedges
  obtain ⟨some', hsome, hmem⟩ := mem_flatten.mp hmem
  obtain ⟨edge, hedge, hmade⟩ := exists_of_mem_mapM hedges hsome
  simp only [bind_eq_some_iff, guard_eq_some', exists_const] at hmade
  exact ⟨tuple, edge, index, ⟨stage, outputs, hstage, houtputs, snd_lt_of_mem_zipIdx houtput⟩, hedge,
    edgeOutboxes_along hmade.2 hmem⟩

lemma route_ne_nil {topology : ValidatedTopology} {edge : EdgeSpec} {tuple : Tuple} {partitions : List U16}
    (h : route topology edge tupleID tuple = some partitions) : partitions ≠ [] := by
  simp only [route, bind_eq_bind, bind_eq_some_iff, guard_eq_some', exists_const] at h
  obtain ⟨-, -, -, destination, -, hparallel, h⟩ := h
  split at h
  · cases h
    simpa [← BitVec.toNat_inj] using hparallel
  · cases h
    exact cons_ne_nil _ _
  simp only [bind_eq_some_iff, some.injEq] at h
  obtain ⟨_, -, _, -, rfl⟩ := h
  exact cons_ne_nil _ _

/-- What an operator yields goes somewhere, where there is an edge to go by. -/
lemma processedOutboxes_ne_nil {edge : EdgeSpec} {index : Nat} (hyields : Yields assignment delivery index)
    (hedge : edge ∈ outgoing assignment.topology.spec.edges delivery.destination.task.stageID)
    (h : processedOutboxes assignment delivery = some outboxes) : outboxes ≠ [] := by
  obtain ⟨stage, outputs, hstage, houtputs, hlt⟩ := hyields
  simp only [processedOutboxes, bind_eq_bind, hstage, houtputs, Option.bind_some, expectedProcessedOutboxes,
    bind_eq_some_iff, guard_eq_some', exists_const, some.injEq] at h
  obtain ⟨perOutput, hmap, -, -, rfl⟩ := h
  have houtput : (outputs[index], index) ∈ outputs.zipIdx := by simp [mem_zipIdx_iff_getElem?, hlt]
  obtain ⟨made, hmade, hedges⟩ := exists_mem_of_mapM hmap houtput
  simp only [bind_eq_some_iff, some.injEq] at hedges
  obtain ⟨perEdge, hedges, rfl⟩ := hedges
  obtain ⟨boxes, hboxes, hout⟩ := exists_mem_of_mapM hedges hedge
  simp only [edgeOutboxes, bind_eq_bind, bind_eq_some_iff, guard_eq_some', exists_const] at hout
  obtain ⟨-, partitions, hroute, hparts⟩ := hout
  obtain ⟨partition, hpartition⟩ := exists_mem_of_ne_nil _ (route_ne_nil hroute)
  obtain ⟨outbox, houtbox, -⟩ := exists_mem_of_mapM hparts hpartition
  exact ne_nil_of_mem (mem_flatten_of_mem hmade (mem_flatten_of_mem hboxes houtbox))

/-- Every stage but the sink has an edge to go by. -/
lemma exists_outgoing {spec : TopologySpec} {topology : ValidatedTopology} {id : U16} {stage : StageSpec}
    (h : validateTopology spec = some topology) (hstage : findStage topology id = some stage)
    (hne : id ≠ topology.collectStageID) : ∃ edge, edge ∈ outgoing topology.spec.edges id := by
  unfold findStage at hstage
  have hid : stage.stageID = id := by simpa using find?_some hstage
  have hmem := mem_of_find?_eq_some hstage
  simp only [validateTopology, bind_eq_bind, bind_eq_some_iff, guard_eq_some', exists_const, some.injEq] at h
  obtain ⟨-, -, -, -, -, -, scan, -, -, -, -, hjoined, order, -, -, downstream, -, custody, -, -, rfl⟩ := h
  exact exists_mem_of_ne_nil _ (hid ▸ (hjoined stage hmem).2 (hid ▸ hne))

/-- Processing looks at a delivery's tuple, its tuple's identity and its destination only. -/
lemma processedOutboxes_congr (hid : first.id.tuple = second.id.tuple)
    (htup : first.tuple = second.tuple) (hdest : first.destination = second.destination) :
    processedOutboxes assignment first = processedOutboxes assignment second := by
  simp only [processedOutboxes, expectedProcessedOutboxes, hid, htup, hdest]

lemma Derived.along (h : Derived assignment source sequence delivery) :
    ∃ tuple edge, Along assignment delivery.id.tuple tuple edge delivery := by
  cases h with
  | source houtbs hmem =>
    obtain ⟨tuple, edge, -, -, halong⟩ := expectedSourceOutboxes_along houtbs hmem
    exact ⟨tuple, edge, halong.tupleID ▸ halong⟩
  | child _ houtbs hmem =>
    obtain ⟨tuple, edge, index, hmade⟩ := processedOutboxes_made houtbs hmem
    exact ⟨tuple, edge, hmade.along.tupleID ▸ hmade.along⟩

lemma Derived.token (h : Derived assignment source sequence delivery) :
    findToken assignment.assignment delivery.id.destinationTask = some delivery.destination := by
  obtain ⟨tuple, edge, halong⟩ := h.along
  exact halong.token

/-! ## Identities and the bytes they are made of -/

/-- A source tuple's identity that is not the empty one carries the digest of its bytes. -/
lemma deriveSourceTupleID_digest {job : JobID} (h : (deriveSourceTupleID job task sequence).validate = true) :
    (deriveSourceTupleID job task sequence).pathDigest = sum256 (sourceTupleBytes job task sequence) := by
  unfold deriveSourceTupleID at h ⊢
  split
  · rename_i hinvalid
    rw [if_pos hinvalid] at h
    cases h
  · rfl

lemma deriveChildTupleID_digest (h : (deriveChildTupleID parent producer edgeID ordinal).validate = true) :
    (deriveChildTupleID parent producer edgeID ordinal).pathDigest =
      sum256 (childTupleBytes parent producer edgeID ordinal) := by
  unfold deriveChildTupleID at h ⊢
  split
  · rename_i hinvalid
    rw [if_pos hinvalid] at h
    cases h
  · rfl

omit [Contract] in
lemma childTupleBytes_inj {parent' : TupleID} {producer' : TaskID} {edgeID' ordinal' : U16}
    (h : childTupleBytes parent producer edgeID ordinal = childTupleBytes parent' producer' edgeID' ordinal')
    : parent = parent' ∧ producer = producer' ∧ edgeID = edgeID' := by
  have hbody := append_cancel_left h
  have hdom : ∀ p, childTupleCodec.dom p := fun p =>
    ⟨tupleIDCodec_dom p.1, taskIDCodec_dom p.2.1, trivial, trivial⟩
  have heq := childTupleCodec.put_inj (hdom _) (hdom _) hbody
  simp only [Prod.mk.injEq] at heq
  exact ⟨heq.1, heq.2.1, heq.2.2.1⟩

omit [Contract] in
/-- No bytes are those of a source tuple and of a derived one: the lengths differ. -/
lemma sourceTupleBytes_ne {job : JobID} :
    sourceTupleBytes job task sequence ≠ childTupleBytes parent producer edgeID ordinal := by
  intro h
  have hlen := congrArg length h
  simp [sourceTupleBytes, childTupleBytes, childTupleCodec, domainBytes, ascii] at hlen

/-- The byte strings whose digests are the path digests of the tree. -/
inductive Hashed (assignment : InstalledAssignment) (source : AssignmentToken) (sequence : U64) : Bytes → Prop
  | source : Hashed assignment source sequence
      (sourceTupleBytes source.task.jobID source.task sequence)
  | child {parent : OutboxDefinition} {edge : EdgeSpec} {index : Nat} :
    Derived assignment source sequence parent → Yields assignment parent index →
    edge ∈ outgoing assignment.topology.spec.edges parent.destination.task.stageID →
    Hashed assignment source sequence
      (childTupleBytes parent.id.tuple parent.destination.task edge.edgeID (BitVec.ofNat 16 index))

/-- SHA-256 tells the byte strings of the tree's identities apart. -/
def CollisionFree (assignment : InstalledAssignment) (source : AssignmentToken) (sequence : U64) : Prop :=
  Set.InjOn sum256 (Set.ofPred (Hashed assignment source sequence))

/-- Two deliveries of one tuple have the same edge, or both come from the source. -/
lemma Derived.same_edge (hfree : CollisionFree assignment source sequence)
    (hfst : Derived assignment source sequence first)
    (hscd : Derived assignment source sequence second) (htup : first.id.tuple = second.id.tuple) :
    first.id.edgeID = second.id.edgeID ∨
      ∃ outboxes, expectedSourceOutboxes assignment source sequence = some outboxes ∧
        first ∈ outboxes ∧ second ∈ outboxes := by
  have hdigest := congrArg TupleID.pathDigest htup
  cases hfst with
  | source houtbs hmem =>
    obtain ⟨_, _, -, -, halong⟩ := expectedSourceOutboxes_along houtbs hmem
    cases hscd with
    | source houtbs' hmem' =>
      cases houtbs.symm.trans houtbs'
      exact .inr ⟨_, houtbs, hmem, hmem'⟩
    | child hparent hproc hmem' =>
      obtain ⟨_, edge, index, hmade⟩ := processedOutboxes_made hproc hmem'
      rw [halong.tupleID, hmade.along.tupleID, deriveSourceTupleID_digest halong.valid,
        deriveChildTupleID_digest hmade.along.valid] at hdigest
      exact absurd (hfree .source (.child hparent hmade.yields hmade.leaves) hdigest) sourceTupleBytes_ne
  | child hparent hproc hmem =>
    obtain ⟨_, edge, index, hmade⟩ := processedOutboxes_made hproc hmem
    have hhashed := Hashed.child hparent hmade.yields hmade.leaves
    cases hscd with
    | source houtbs' hmem' =>
      obtain ⟨_, _, -, -, halong'⟩ := expectedSourceOutboxes_along houtbs' hmem'
      rw [hmade.along.tupleID, halong'.tupleID, deriveSourceTupleID_digest halong'.valid,
        deriveChildTupleID_digest hmade.along.valid] at hdigest
      exact absurd (hfree .source hhashed hdigest.symm) sourceTupleBytes_ne
    | child hparent' hproc' hmem' =>
      obtain ⟨_, edge', index', hmade'⟩ := processedOutboxes_made hproc' hmem'
      rw [hmade.along.tupleID, hmade'.along.tupleID, deriveChildTupleID_digest hmade.along.valid,
        deriveChildTupleID_digest hmade'.along.valid] at hdigest
      have hbytes := hfree hhashed (.child hparent' hmade'.yields hmade'.leaves) hdigest
      left
      rw [hmade.along.edge, hmade'.along.edge]
      exact (childTupleBytes_inj hbytes).2.2

/-- Deliveries with a common outbox identity are of one tuple, at one task. -/
lemma Derived.of_common_outbox (hfree : CollisionFree assignment source sequence)
    {outbox' : OutboxDefinition} {outboxes' : List OutboxDefinition}
    (hfst : Derived assignment source sequence first) (hscd : Derived assignment source sequence second)
    (hout : processedOutboxes assignment first = some outboxes) (hmem : outbox ∈ outboxes)
    (hout' : processedOutboxes assignment second = some outboxes') (hmem' : outbox' ∈ outboxes')
    (hsame : outbox.id = outbox'.id) :
    first.id.tuple = second.id.tuple ∧ first.id.destinationTask = second.id.destinationTask := by
  obtain ⟨_, edge, index, hmade⟩ := processedOutboxes_made hout hmem
  obtain ⟨_, edge', index', hmade'⟩ := processedOutboxes_made hout' hmem'
  have hdigest : outbox.id.tuple.pathDigest = outbox'.id.tuple.pathDigest := by rw [hsame]
  rw [hmade.along.tupleID, hmade'.along.tupleID, deriveChildTupleID_digest hmade.along.valid,
    deriveChildTupleID_digest hmade'.along.valid] at hdigest
  have hbytes := hfree (.child hfst hmade.yields hmade.leaves) (.child hscd hmade'.yields hmade'.leaves) hdigest
  obtain ⟨htup, htask, -⟩ := childTupleBytes_inj hbytes
  rw [findToken_task hfst.token, findToken_task hscd.token] at htask
  exact ⟨htup, htask⟩

end Facts

/-! ## Disjointness -/

section Disjointness

variable [Contract]

/-- Different deliveries of the tree have different outboxes, and different deliveries at the sink give
    results under different keys. -/
structure DisjointIdentities (assignment : InstalledAssignment) (source : AssignmentToken)
    (sequence : U64) : Prop where
  outboxes : ∀ first second, Derived assignment source sequence first →
    Derived assignment source sequence second → first.id ≠ second.id →
    ∀ outboxes outboxes', processedOutboxes assignment first = some outboxes →
      processedOutboxes assignment second = some outboxes' →
      ∀ outbox ∈ outboxes, ∀ outbox' ∈ outboxes', outbox.id ≠ outbox'.id
  results : ∀ first second, Derived assignment source sequence first →
    Derived assignment source sequence second → first.id ≠ second.id →
    first.id.destinationTask.stageID = assignment.topology.collectStageID →
    second.id.destinationTask.stageID = assignment.topology.collectStageID →
    (first.id.destinationTask, first.id.tuple) ≠ (second.id.destinationTask, second.id.tuple)

variable {spec : TopologySpec} {assignment : InstalledAssignment} {source : AssignmentToken} {sequence : U64}

/-- No task gets the source tuple along two edges, unless the task is not the sink's and its operator yields
    nothing of the tuple, or nothing that can be sent on. -/
def SourceApart (assignment : InstalledAssignment) (source : AssignmentToken) (sequence : U64) : Prop :=
  ∀ outboxes, expectedSourceOutboxes assignment source sequence = some outboxes →
    ∀ first ∈ outboxes, ∀ second ∈ outboxes, first.id ≠ second.id →
      first.id.destinationTask = second.id.destinationTask →
      first.id.destinationTask.stageID ≠ assignment.topology.collectStageID ∧
        ∀ stage outputs, findStage assignment.topology first.destination.task.stageID = some stage →
          executeOperator stage.operator first.tuple = some outputs →
          outputs = [] ∨ processedOutboxes assignment first = none

lemma DisjointIdentities.sourceApart (htopology : validateTopology spec = some assignment.topology)
    (h : DisjointIdentities assignment source sequence) : SourceApart assignment source sequence := by
  intro outboxes houtbs first hfst second hscd hdiffer htask
  have hderived := Derived.source houtbs hfst
  have hderived' := Derived.source houtbs hscd
  obtain ⟨tuple, _, hsrc, -, halong⟩ := expectedSourceOutboxes_along houtbs hfst
  obtain ⟨tuple', _, hsrc', -, halong'⟩ := expectedSourceOutboxes_along houtbs hscd
  cases hsrc.symm.trans hsrc'
  have htup : first.id.tuple = second.id.tuple := halong.tupleID.trans halong'.tupleID.symm
  have hinner : first.id.destinationTask.stageID ≠ assignment.topology.collectStageID := by
    intro hsink
    apply h.results first second hderived hderived' hdiffer hsink (htask ▸ hsink)
    rw [htask, htup]
  refine ⟨hinner, ?_⟩
  intro stage outputs hstage houtputs
  cases outputs with
  | nil => exact .inl rfl
  | cons =>
    right
    rw [eq_none_iff_forall_ne_some]
    intro made hmade
    rw [← findToken_task halong.token] at hinner
    obtain ⟨edge, hedge⟩ := exists_outgoing htopology hstage hinner
    obtain ⟨outbox, houtbox⟩ := exists_mem_of_ne_nil _
      (processedOutboxes_ne_nil ⟨stage, _, hstage, houtputs, Nat.succ_pos _⟩ hedge hmade)
    -- the other delivery makes the very same outboxes
    have hdest : first.destination = second.destination := by
      have hfnd := halong.token
      rw [htask, halong'.token] at hfnd
      exact (some.inj hfnd).symm
    have hmade' := hmade
    rw [processedOutboxes_congr htup (halong.tuple.trans halong'.tuple.symm) hdest] at hmade'
    exact absurd rfl (h.outboxes first second hderived hderived' hdiffer _ _ hmade hmade'
      outbox houtbox outbox houtbox)

lemma SourceApart.disjoint (hfree : CollisionFree assignment source sequence)
    (h : SourceApart assignment source sequence) : DisjointIdentities assignment source sequence := by
  constructor
  · intro first second hfst hscd hdiffer outboxes outboxes' hout hout' outbox hmem outbox' hmem' hsame
    obtain ⟨htup, htask⟩ := hfst.of_common_outbox hfree hscd hout hmem hout' hmem' hsame
    cases hfst.same_edge hfree hscd htup with
    | inl hedge => exact hdiffer (DeliveryID.ext htup hedge htask)
    | inr hsrc =>
      obtain ⟨emitted, hemitted, hin, hin'⟩ := hsrc
      obtain ⟨_, _, _, hmade⟩ := processedOutboxes_made hout hmem
      obtain ⟨stage, outputs, hstage, houtputs, hlt⟩ := hmade.yields
      obtain ⟨-, hnothing⟩ := h emitted hemitted first hin second hin' hdiffer htask
      rcases hnothing stage outputs hstage houtputs with hnil | hnone
      · rw [hnil] at hlt
        exact Nat.not_lt_zero _ hlt
      · rw [hnone] at hout
        cases hout
  intro first second hfst hscd hdiffer hsink _ hsame
  simp only [Prod.mk.injEq] at hsame
  obtain ⟨htask, htup⟩ := hsame
  cases hfst.same_edge hfree hscd htup with
  | inl hedge => exact hdiffer (DeliveryID.ext htup hedge htask)
  | inr hsrc =>
    obtain ⟨emitted, hemitted, hin, hin'⟩ := hsrc
    exact (h emitted hemitted first hin second hin' hdiffer htask).1 hsink

/-- A task gets the source tuple once where no two edges of the source lead to its stage. -/
lemma sourceApart_of_edges
    (h : ∀ edge ∈ outgoing assignment.topology.spec.edges source.task.stageID,
      ∀ edge' ∈ outgoing assignment.topology.spec.edges source.task.stageID,
        edge.destinationStageID = edge'.destinationStageID → edge = edge') :
    SourceApart assignment source sequence := by
  intro outboxes houtbs first hfst second hscd hdiffer htask
  obtain ⟨_, edge, -, hedge, halong⟩ := expectedSourceOutboxes_along houtbs hfst
  obtain ⟨_, edge', -, hedge', halong'⟩ := expectedSourceOutboxes_along houtbs hscd
  have hsame : edge = edge' := h edge hedge edge' hedge' (by rw [← halong.stage, ← halong'.stage, htask])
  refine absurd (DeliveryID.ext ?_ ?_ htask) hdiffer
  · rw [halong.tupleID, halong'.tupleID]
  · rw [halong.edge, halong'.edge, hsame]

/-- The identities of a tree are disjoint exactly if no task gets the source tuple along two edges, unless
    the task is not the sink's and its operator yields nothing of the tuple that can be sent on. In
    particular they are if no two edges of the source lead to one stage. -/
theorem derived_identities_disjoint_iff (htopology : validateTopology spec = some assignment.topology)
    (hfree : CollisionFree assignment source sequence) :
    (DisjointIdentities assignment source sequence ↔ SourceApart assignment source sequence) ∧
      ((∀ edge ∈ outgoing assignment.topology.spec.edges source.task.stageID,
        ∀ edge' ∈ outgoing assignment.topology.spec.edges source.task.stageID,
          edge.destinationStageID = edge'.destinationStageID → edge = edge') →
        DisjointIdentities assignment source sequence) :=
  ⟨⟨fun h => h.sourceApart htopology, fun h => h.disjoint hfree⟩,
    fun h => (sourceApart_of_edges h).disjoint hfree⟩

end Disjointness

set_option maxRecDepth 20000

namespace Sample

attribute [local instance] Crane.State.sampleContract

/-- Numbers that go to a filter and to the sink, to each along two edges. -/
def parallelSpec : TopologySpec :=
  ⟨1, ascii "parallel", [⟨1, ascii "numbers", .source, 1,
        ⟨ascii "range", 1, [⟨ascii "end_exclusive", ascii "2"⟩, ⟨ascii "start", ascii "0"⟩]⟩⟩,
      ⟨2, ascii "filter", .transform, 1, ⟨ascii "even", 1, []⟩⟩,
      ⟨3, ascii "results", .sink, 1, ⟨ascii "collect", 1, []⟩⟩],
    [⟨1, 1, 2, .shuffle, []⟩, ⟨2, 1, 2, .shuffle, []⟩, ⟨3, 2, 3, .shuffle, []⟩, ⟨4, 1, 3, .shuffle, []⟩,
      ⟨5, 1, 3, .shuffle, []⟩], registryFingerprint⟩

lemma parallelSpec_valid : (validateTopology parallelSpec).isSome = true := by decide

/-- Numbers that go to the sink by way of a filter and straight away. -/
def forkedSpec : TopologySpec :=
  { parallelSpec with edges := [⟨1, 1, 2, .shuffle, []⟩, ⟨2, 2, 3, .shuffle, []⟩, ⟨3, 1, 3, .shuffle, []⟩] }

lemma forkedSpec_valid : (validateTopology forkedSpec).isSome = true := by decide

def token (stage : U16) : AssignmentToken := ⟨⟨5, stage, 0⟩, 1, 1, 1, 1, 1⟩

def installed (topology : ValidatedTopology) : InstalledAssignment :=
  ⟨⟨5, 1, 9, [token 1, token 2, token 3], []⟩, topology.canonical, topology, 1, .running, ⟨1, 1, 1, 1⟩⟩

def parallel : InstalledAssignment := installed ((validateTopology parallelSpec).get parallelSpec_valid)

def forked : InstalledAssignment := installed ((validateTopology forkedSpec).get forkedSpec_valid)

lemma parallel_topology : validateTopology parallelSpec = some parallel.topology := by
  rw [parallel, installed, some_get]

lemma forked_topology : validateTopology forkedSpec = some forked.topology := by
  rw [forked, installed, some_get]

/-- The first number, as it arrives at a stage along an edge. -/
def arrival (edge stage : U16) : OutboxDefinition :=
  ⟨⟨deriveSourceTupleID 5 ⟨5, 1, 0⟩ 1, edge, ⟨5, stage, 0⟩⟩, intTupleValue 0, token 1, token stage, 1, 9,
    ⟨1, 1, 1, 1⟩⟩

/-- The first number, as the filter passes it on along an edge. -/
def passedOn (edge : U16) : OutboxDefinition :=
  ⟨⟨deriveChildTupleID (arrival 1 2).id.tuple ⟨5, 2, 0⟩ edge 0, edge, ⟨5, 3, 0⟩⟩, intTupleValue 0, token 2,
    token 3, 1, 9, ⟨1, 1, 1, 1⟩⟩

lemma parallel_emits : expectedSourceOutboxes parallel (token 1) 1 =
    some [arrival 1 2, arrival 2 2, arrival 4 3, arrival 5 3] := by decide

lemma parallel_processes (edge : U16) : processedOutboxes parallel (arrival edge 2) = some [passedOn 3] := by
  have hfst : processedOutboxes parallel (arrival 1 2) = some [passedOn 3] := by decide
  rw [← hfst]
  exact processedOutboxes_congr rfl rfl rfl

lemma forked_emits : expectedSourceOutboxes forked (token 1) 1 = some [arrival 1 2, arrival 3 3] := by decide

lemma forked_processes : processedOutboxes forked (arrival 1 2) = some [passedOn 2] := by decide

lemma forked_sink : outgoing forked.topology.spec.edges 3 = [] := by decide

/-- The tree: the number at the filter, and twice at the sink. -/
lemma forked_derived {delivery : OutboxDefinition} (h : Derived forked (token 1) 1 delivery) :
    delivery = arrival 1 2 ∨ delivery.destination.task.stageID = 3 := by
  induction h with
  | source houtbs hmem =>
    rw [forked_emits] at houtbs
    cases houtbs
    rcases mem_pair.mp hmem with rfl | rfl
    · exact .inl rfl
    · exact .inr rfl
  | child _ houtbs hmem ih =>
    rcases ih with rfl | hsink
    · rw [forked_processes] at houtbs
      cases houtbs
      rw [mem_singleton.mp hmem]
      exact .inr rfl
    -- the sink has no edge to go on by
    obtain ⟨_, edge, _, hmade⟩ := processedOutboxes_made houtbs hmem
    have hedge := hmade.leaves
    rw [hsink, forked_sink] at hedge
    cases hedge

lemma forked_hashed {bytes : Bytes} (h : Hashed forked (token 1) 1 bytes) :
    bytes = sourceTupleBytes 5 (token 1).task 1 ∨
      bytes = childTupleBytes (arrival 1 2).id.tuple (token 2).task 2 0 := by
  cases h with
  | source => exact .inl rfl
  | child hparent hyields hedge =>
    rcases forked_derived hparent with rfl | hsink
    · have hout : outgoing forked.topology.spec.edges 2 = [⟨2, 2, 3, .shuffle, []⟩] := by decide
      change _ ∈ outgoing forked.topology.spec.edges 2 at hedge
      rw [hout, mem_singleton] at hedge
      obtain ⟨stage, outputs, hstage, houtputs, hlt⟩ := hyields
      have hone : ((findStage forked.topology 2).bind fun stage =>
          executeOperator stage.operator (arrival 1 2).tuple) = some [intTupleValue 0] := by decide
      change findStage forked.topology 2 = some stage at hstage
      rw [hstage, Option.bind_some, houtputs] at hone
      cases hone
      rw [hedge, Nat.lt_one_iff.mp hlt]
      exact .inr rfl
    rw [hsink, forked_sink] at hedge
    cases hedge

lemma forked_collisionFree : CollisionFree forked (token 1) 1 := by
  have hapart : sum256 (sourceTupleBytes 5 (token 1).task 1) ≠
      sum256 (childTupleBytes (arrival 1 2).id.tuple (token 2).task 2 0) := by decide
  intro first hfst second hscd hsame
  rcases forked_hashed hfst with rfl | rfl <;> rcases forked_hashed hscd with rfl | rfl
  · rfl
  · exact absurd hsame hapart
  · exact absurd hsame.symm hapart
  · rfl

end Sample

section Examples

attribute [local instance] Crane.State.sampleContract

open Sample

/-- One edge to the filter and one to the sink, where the number comes twice, under two identities. -/
theorem derived_identities_disjoint_forked : CollisionFree forked (token 1) 1 ∧
    Derived forked (token 1) 1 (arrival 1 2) ∧ Derived forked (token 1) 1 (arrival 3 3) ∧
    Derived forked (token 1) 1 (passedOn 2) ∧ DisjointIdentities forked (token 1) 1 := by
  have hfirst := Derived.source forked_emits mem_cons_self
  exact ⟨forked_collisionFree, hfirst, .source forked_emits (mem_cons_of_mem _ mem_cons_self),
    .child hfirst forked_processes mem_cons_self,
    (derived_identities_disjoint_iff forked_topology forked_collisionFree).2 (by decide)⟩

/-- Edges 1 and 2 take one number to the filter, edges 4 and 5 to the sink. The two deliveries at the
    filter are of the same tuple, so that their outboxes have the same identity; the two at the sink have
    the same result key. -/
theorem parallel_edges_share_identities : validateTopology parallelSpec = some parallel.topology ∧
    (∃ first second outbox, Derived parallel (token 1) 1 first ∧ Derived parallel (token 1) 1 second ∧
      first.id.edgeID = 1 ∧ second.id.edgeID = 2 ∧ first.id.tuple = second.id.tuple ∧
      processedOutboxes parallel first = some [outbox] ∧
      processedOutboxes parallel second = some [outbox]) ∧
    (∃ first second, Derived parallel (token 1) 1 first ∧ Derived parallel (token 1) 1 second ∧
      first.id.edgeID = 4 ∧ second.id.edgeID = 5 ∧
      first.id.destinationTask.stageID = parallel.topology.collectStageID ∧
      (first.id.destinationTask, first.id.tuple) = (second.id.destinationTask, second.id.tuple)) := by
  refine ⟨parallel_topology, ?_, ?_⟩
  · have hfst := Derived.source parallel_emits mem_cons_self
    have hscd := Derived.source parallel_emits (mem_cons_of_mem _ mem_cons_self)
    exact ⟨arrival 1 2, arrival 2 2, passedOn 3, hfst, hscd, rfl, rfl, rfl, parallel_processes 1,
      parallel_processes 2⟩
  have hlast := mem_cons_of_mem (arrival 2 2)
    (mem_cons_of_mem (arrival 4 3) (mem_singleton_self (arrival 5 3)))
  have hthird := mem_cons_of_mem (arrival 2 2)
    (mem_cons_self (a := arrival 4 3) (l := [arrival 5 3]))
  exact ⟨arrival 4 3, arrival 5 3, .source parallel_emits (mem_cons_of_mem _ hthird),
    .source parallel_emits (mem_cons_of_mem _ hlast), rfl, rfl, by decide, rfl⟩

end Examples

end Crane.Worker
