import Crane.Worker.Derivation
import Crane.Worker.Fleet

/-!
# Checkpoints that workers take over

The machine counts the advances of a source. A worker that owns the source keeps a count of its own,
in the cursor, and the next report it makes is accepted only at the machine's count. The worker counts
the notices it took over, not the advances they announce: an owner that missed one, because another
worker held the source then, stays behind for good. Counts agree in every run in which no owner is told of
a watermark with a committed one between its own and that.
-/

namespace Crane.Worker

open Wire Data Model State Program Table Function Finset

/-! ## Counting marks -/

section Passed

variable {marks : Finset ℕ} {low high : ℕ}

/-- How many of the marks are above zero and up to a number. -/
def passed (marks : Finset ℕ) (high : ℕ) : ℕ := (marks.filter fun mark => 0 < mark ∧ mark ≤ high).card

lemma passed_zero (marks : Finset ℕ) : passed marks 0 = 0 := by
  rw [passed, card_eq_zero, filter_eq_empty_iff]
  intro mark _ hmark
  exact absurd (Nat.lt_of_lt_of_le hmark.1 hmark.2) (Nat.lt_irrefl 0)

/-- A mark above does not count. -/
lemma passed_insert_of_lt (h : low < high) : passed (insert high marks) low = passed marks low := by
  rw [passed, filter_insert, if_neg]
  · rfl
  · intro hmark
    exact absurd hmark.2 (Nat.not_le.mpr h)

/-- From one mark to the next there is one more. -/
lemma passed_next (hhigh : high ∈ marks) (hlt : low < high)
    (hnone : ∀ mark ∈ marks, low < mark → high ≤ mark) : passed marks high = passed marks low + 1 := by
  have hsplit : (marks.filter fun mark => 0 < mark ∧ mark ≤ high) =
      insert high (marks.filter fun mark => 0 < mark ∧ mark ≤ low) := by
    ext mark
    simp only [mem_filter, mem_insert]
    constructor
    · rintro ⟨hmark, hpos, hle⟩
      by_cases hlow : low < mark
      · exact .inl (Nat.le_antisymm hle (hnone mark hmark hlow))
      · exact .inr ⟨hmark, hpos, Nat.not_lt.mp hlow⟩
    · rintro (rfl | ⟨hmark, hpos, hle⟩)
      · exact ⟨hhigh, Nat.lt_of_le_of_lt (Nat.zero_le _) hlt, Nat.le_refl _⟩
      · exact ⟨hmark, hpos, Nat.le_trans hle (Nat.le_of_lt hlt)⟩
  rw [passed, hsplit, card_insert_of_notMem]
  · rfl
  · intro hmem
    exact absurd (mem_filter.mp hmem).2.2 (Nat.not_le.mpr hlt)

end Passed

/-! ## Counts agree -/

/-- How often the machine moved the checkpoint of a source. -/
def committedAdvances (m : Machine) (source : TaskID) : U64 :=
  ((m.jobs.find? source.jobID).map (·.advances source)).getD 0

/-- No committed watermark is above what the owner has of the source and below what it is told. -/
def Fleet.NoneMissed (f : Fleet) (worker : Incarnation) (request : CommittedCheckpoint) : Prop :=
  ownsSource worker (f.work worker) request.notice = true →
    ∀ mark ∈ f.committed request.notice.source,
      ((f.work worker).watermark request.notice.source).toNat < mark → request.notice.watermark.toNat ≤ mark

/-- The report starts at the checkpoint that the machine has, in its count and its watermark. -/
def StartsAtCheckpoint (job : JobRecord) (report : CompletionReport) : Prop :=
  let checkpoint := (job.checkpoints.find? report.source).getD ⟨0, 0⟩
  report.expectedCheckpointRevision = checkpoint.revision ∧ report.prior = checkpoint.watermark

/-- The owner of a source that has its committed watermark has its count of advances, and so whatever
    report it makes next starts at the checkpoint. -/
def Fleet.RevisionsAgree [Contract] (f : Fleet) : Prop :=
  ∀ worker source job token cursor, f.machine.jobs.find? source.jobID = some job →
    assignmentToken job.assignment source = some token → localToken worker token = true →
    (f.work worker).sources.find? source = some cursor → cursor.watermark = job.watermark source →
    cursor.checkpointRevision = job.advances source ∧ ∀ assignment watermark transactionID,
      StartsAtCheckpoint job (buildCompletionReport assignment source token cursor watermark transactionID)

section Agreement

variable [Contract] {voter : U16 → Bool} {f f' : Fleet} {m m' : Machine} {entry : LogEntry}
variable {result : Bytes} {worker : Incarnation} {node : Node} {work : RecoveredWork}

/-- What one entry does to what the machine has committed of a source. -/
lemma applies_committed (hm : Reachable m) (h : Applies m entry result m') (source : TaskID) :
    (committedWatermark m' source = committedWatermark m source ∧
        committedAdvances m' source = committedAdvances m source) ∨
      (committedWatermark m source < committedWatermark m' source ∧
        committedAdvances m' source = committedAdvances m source + 1) := by
  unfold committedWatermark committedAdvances
  cases hjob : m.jobs.find? source.jobID with
  | some job =>
    obtain ⟨job', hjob', hstays | hgrows⟩ := applies_checkpoint hm h hjob source
    · rw [hjob']
      exact .inl hstays
    · rw [hjob']
      exact .inr ⟨hgrows.1, hgrows.2.1⟩
  | none =>
    -- a job that comes up has no checkpoint yet
    left
    obtain hsame | ⟨command, next, changed, growth, -, hstep⟩ := h.jobStep hm.keyed source.jobID
    · rw [hsame, hjob]
      exact ⟨rfl, rfl⟩
    rw [hjob] at hstep
    cases hjob' : m'.jobs.find? source.jobID with
    | none => exact ⟨rfl, rfl⟩
    | some job' =>
      rw [hjob'] at hstep
      cases hstep with
      | submitted => exact ⟨rfl, rfl⟩

/-- A count is the number of marks up to the watermark. -/
def Fleet.Counts (f : Fleet) (source : TaskID) (watermark _ revision : U64) : Prop :=
  revision = BitVec.ofNat 64 (passed (f.committed source) watermark.toNat)

/-- The machine's counts and those of the cursors are the numbers of marks passed. -/
structure Fleet.Counted (f : Fleet) : Prop where
  marks : ∀ source, ∀ mark ∈ f.committed source, mark ≤ (committedWatermark f.machine source).toNat
  latest : ∀ source, (committedWatermark f.machine source).toNat ∈ f.committed source
  advances : ∀ source, committedAdvances f.machine source =
    BitVec.ofNat 64 (passed (f.committed source) (committedWatermark f.machine source).toNat)
  sent : ∀ request ∈ f.sent, request.notice.source.jobID = request.notice.jobID →
    request.notice.watermark.toNat ∈ f.committed request.notice.source
  cursors : ∀ worker, (f.work worker).EachCursor f.Counts

omit [Contract] in
lemma Fleet.Counted.new : Fleet.new.Counted := by
  refine ⟨?_, ?_, ?_, ?_, ?_⟩
  · intro source mark hmark
    rw [mem_singleton.mp hmark]
    exact Nat.zero_le _
  · intro source
    exact mem_singleton_self 0
  · intro source
    exact (congrArg (BitVec.ofNat 64) (passed_zero {0})).symm
  · intro request hrequest
    cases hrequest
  · intro worker source
    exact (congrArg (BitVec.ofNat 64) (passed_zero {0})).symm

omit [Contract] in
lemma Fleet.Counted.put (h : f.Counted) (hcursors : node.work.EachCursor f.Counts) :
    (f.put worker node).Counted := by
  refine ⟨h.marks, h.latest, h.advances, h.sent, ?_⟩
  exact (forall_update_iff _ fun _ (node : Node) => node.work.EachCursor f.Counts).mpr
    ⟨hcursors, fun other _ => h.cursors other⟩

omit [Contract] in
lemma Fleet.Counted.kept (h : f.Counted) (hsources : node.work.sources = (f.work worker).sources) :
    (f.put worker node).Counted := h.put (eachCursor_kept (h.cursors worker) hsources)

/-- An entry adds a mark above all others, or none. -/
lemma Fleet.Counted.applies (h : f.Counted) (hf : f.Consistent voter)
    (happlies : Applies f.machine entry result m') : (f.apply m').Counted := by
  have hstep := applies_committed hf.reachable happlies
  have hbound : ∀ worker source, ((f.work worker).watermark source).toNat ≤
      (committedWatermark f.machine source).toNat := by
    intro worker source
    cases (hf.nodes worker).cursors source with
    | zero hwatermark =>
      rw [hwatermark]
      exact Nat.zero_le _
    | committed _ _ _ hjob hle =>
      rw [committedWatermark, hjob]
      exact hle
  -- below the mark that was the latest the count stays
  have hbelow : ∀ source n, n ≤ (committedWatermark f.machine source).toNat →
      passed (insert (committedWatermark m' source).toNat (f.committed source)) n =
        passed (f.committed source) n := by
    intro source n hn
    obtain hsame | hgrows := hstep source
    · rw [hsame.1, insert_eq_of_mem (h.latest source)]
    · exact passed_insert_of_lt (Nat.lt_of_le_of_lt hn hgrows.1)
  refine ⟨?_, ?_, ?_, ?_, ?_⟩
  · intro source mark hmark
    obtain rfl | hmark := mem_insert.mp hmark
    · exact Nat.le_refl _
    have hle := h.marks source mark hmark
    obtain hsame | hgrows := hstep source
    · rw [← hsame.1] at hle
      exact hle
    · exact Nat.le_trans hle (Nat.le_of_lt hgrows.1)
  · intro source
    exact mem_insert_self ..
  · intro source
    change committedAdvances m' source = BitVec.ofNat 64 (passed (insert _ (f.committed source))
      (committedWatermark m' source).toNat)
    obtain hsame | hgrows := hstep source
    · rw [hsame.2, h.advances source, hsame.1, insert_eq_of_mem (h.latest source)]
    have hnext := passed_next (mem_insert_self (committedWatermark m' source).toNat
      (f.committed source)) hgrows.1 (by
        intro mark hmark hlt
        obtain rfl | hmark := mem_insert.mp hmark
        · exact Nat.le_refl _
        · exact absurd (h.marks source mark hmark) (Nat.not_le.mpr hlt))
    rw [hgrows.2, h.advances source, hnext, hbelow source _ (Nat.le_refl _), BitVec.ofNat_add]
    rfl
  · intro request hrequest hkey
    exact mem_insert_of_mem (h.sent request hrequest hkey)
  · intro worker source
    refine Eq.trans (h.cursors worker source) (congrArg (BitVec.ofNat 64) ?_)
    exact (hbelow source _ (hbound worker source)).symm

omit [Contract] in
/-- A notice that is taken over adds one mark if none was missed. -/
lemma Fleet.Counted.noticed (h : f.Counted) {request : CommittedCheckpoint}
    (hsent : request ∈ f.sent) (hmissed : f.NoneMissed worker request)
    (howns : ownsSource worker (f.work worker) request.notice = true)
    (hmoves : Moves (f.work worker) request.notice work) :
    (f.put worker ⟨work, (f.node worker).process⟩).Counted := by
  cases hmoves with
  | kept hsources => exact h.kept hsources
  | moved hkey _ hsources hwatermark habove hrevision =>
    refine h.put (eachCursor_insert (h.cursors worker) hsources ?_)
    have hcount : (f.work worker).revision request.notice.source = _ := h.cursors worker _
    rw [Fleet.Counts, hwatermark, hrevision, hcount,
      passed_next (h.sent request hsent hkey) habove (hmissed howns), BitVec.ofNat_add]
    rfl

lemma Fleet.Counted.step (h : f.Counted) (hf : f.Consistent voter)
    (hstep : FleetStep voter Fleet.NoneMissed f f') : f'.Counted := by
  cases hstep with
  | command happlies => exact h.applies hf happlies
  | offer => exact ⟨h.marks, h.latest, h.advances, h.sent, h.cursors⟩
  | announce source hjob hset =>
    rename_i jobID job set
    refine ⟨h.marks, h.latest, h.advances, ?_, h.cursors⟩
    intro request hrequest hkey
    cases List.mem_cons.mp hrequest with
    | inl hnew =>
      subst hnew
      have hlatest := h.latest source
      rw [committedWatermark, show source.jobID = jobID from hkey, hjob] at hlatest
      exact hlatest
    | inr hold => exact h.sent request hold hkey
  | process => exact h.kept rfl
  | fence _ _ hcommit =>
    obtain ⟨rfl, -⟩ := applyFence_eq_ok (commitWork_iff.mp hcommit).1
    exact h.kept rfl
  | install hidle hoffered =>
    rename_i worker peer workerSlots reconciled install
    refine h.kept ?_
    obtain hsame | ⟨work, process, hcommit, hnode, -⟩ :=
      handleAssignment_cases peer worker workerSlots reconciled install hidle (hf.nodes worker).fence
    · rw [hsame]
    rw [hnode]
    obtain ⟨-, -, decoded, -, rfl | rfl⟩ := applyAssignment_eq_ok (commitWork_iff.mp hcommit).1
    · rfl
    · rfl
  | notice hsent hmissed hcommit =>
    obtain rfl | ⟨howns, howned⟩ | hobserved := handleCheckpoint_eq_ok hcommit
    · exact h.kept rfl
    · exact h.noticed hsent hmissed howns (engineApplyCheckpoint_moves
        (tracked_counted (hf.nodes _).cursors) (commitWork_iff.mp howned).1)
    obtain rfl | ⟨-, rfl⟩ := applyCheckpointObservation_eq_ok (commitWork_iff.mp hobserved).1
    · exact h.kept rfl
    · exact h.kept rfl
  | source hcommit =>
    rename_i worker cursor outboxes work
    obtain rfl | ⟨rfl, hwatermark, hrevision, -⟩ := applySource_eq_ok (commitWork_iff.mp hcommit).1
    · exact h.kept rfl
    refine h.put (eachCursor_insert (h.cursors worker) rfl ?_)
    rw [Fleet.Counts, hwatermark, hrevision]
    exact h.cursors worker cursor.source
  | other _ _ hsources => exact h.kept hsources

lemma FleetRun.counted (h : FleetRun voter Fleet.NoneMissed f) : f.Counted := by
  induction h with
  | start => exact .new
  | step hrun hstep ih => exact ih.step hrun.consistent hstep

/-- In every run in which no owner misses an advance, the owner of a source that has its committed
    watermark reports at the machine's count. -/
theorem checkpoint_revisions_agree (h : FleetRun voter Fleet.NoneMissed f) : f.RevisionsAgree := by
  intro worker source job token cursor hjob _ _ hcursor hwatermark
  have hagree : cursor.checkpointRevision = job.advances source := by
    have hcursors := h.counted.cursors worker source
    have hadvances := h.counted.advances source
    obtain ⟨hmark, hcount, -⟩ := RecoveredWork.lookup_some hcursor
    rw [Fleet.Counts, hcount, hmark, hwatermark] at hcursors
    rw [committedAdvances, committedWatermark, hjob] at hadvances
    exact hcursors.trans hadvances.symm
  refine ⟨hagree, fun assignment watermark transactionID => ?_⟩
  unfold JobRecord.advances at hagree
  unfold JobRecord.watermark at hwatermark
  cases hcheckpoint : job.checkpoints.find? source with
  | none =>
    rw [hcheckpoint] at hagree hwatermark
    simp only [StartsAtCheckpoint, buildCompletionReport, hcheckpoint]
    exact ⟨hagree, hwatermark⟩
  | some checkpoint =>
    rw [hcheckpoint] at hagree hwatermark
    simp only [StartsAtCheckpoint, buildCompletionReport, hcheckpoint]
    exact ⟨hagree, hwatermark⟩

end Agreement

/-! ## Runs of single workers -/

section Histories

variable [Contract] {voter : U16 → Bool} {admits : Fleet → Incarnation → CommittedCheckpoint → Prop}
variable {m m' : Machine} {nodes : Incarnation → Node}

/-- Some run brings the machine and the workers as far as this. -/
def GetsTo (voter : U16 → Bool) (admits : Fleet → Incarnation → CommittedCheckpoint → Prop) (m : Machine)
    (nodes : Incarnation → Node) : Prop :=
  ∃ f : Fleet, FleetRun voter admits f ∧ f.machine = m ∧ f.node = nodes

lemma GetsTo.new : GetsTo voter admits .new fun _ => .new := ⟨.new, .start, rfl, rfl⟩

lemma GetsTo.run (h : GetsTo voter admits m nodes) {log : List LogEntry} (hrun : Run m log m') :
    GetsTo voter admits m' nodes := by
  induction hrun with
  | start => exact h
  | next _ happlies ih =>
    obtain ⟨f, hf, rfl, rfl⟩ := ih
    exact ⟨_, hf.step (.command happlies), rfl, rfl⟩

end Histories

namespace Sample

attribute [local instance] sampleContract

open State.Sample

def worker (nodeID : U16) : Incarnation := ⟨nodeID, nodeID.setWidth 128⟩

/-- Every node is a voter. -/
def anyone (_ : U16) : Bool := true

/-- What a worker does under the coordinator of the present epoch. -/
inductive Move where
  | fence
  | install (scheduling : SchedulingState)
  | notice
  /-- The owner of the source puts the tuple of a sequence number into its outboxes. -/
  | emit (sequence : U64)
  /-- The sink receives the tuple of a sequence number. -/
  | receive (sequence : U64)

/-- The tuple's outboxes under the placement the worker holds. -/
def outboxes (work : RecoveredWork) (sequence : U64) : Option (List OutboxDefinition) := do
  let held ← work.assignments.find? jobID
  let token ← findToken held.assignment source
  expectedSourceOutboxes held token sequence

/-- Where `stepwise` is set, a notice is of the next number only. -/
def Move.play (stepwise : Bool) (m : Machine) (worker : Incarnation) (node : Node) : Move → Option Node
  | .fence => do
    let closing ← node.process.step anyone (.fenceRequest m.coordinatorEpoch.coordinator m.coordinatorEpoch)
    guard (closing.fence = node.process.fence)
    let (epoch, _) ← closing.handling
    let drained ← closing.step anyone .fenceDrained
    let work ← (commitWork worker (applyFence node.work epoch)).toOption
    some ⟨work, drained⟩
  | .install scheduling => do
    let job ← m.jobs.find? jobID
    let set ← job.assignment
    let topology ← decodeTopology job.topologyBytes
    let record ← m.workers.find? worker.nodeID
    guard (sends job.lifecycle scheduling = true ∧ node.process.handling = none)
    some (handleAssignment anyone m.coordinatorEpoch.coordinator worker record.slots.toNat true node
      (buildInstall job set topology scheduling m.coordinatorEpoch)).1
  | .notice => do
    let job ← m.jobs.find? jobID
    let set ← job.assignment
    guard (stepwise = true → (job.watermark source).toNat ≤ (node.work.watermark source).toNat + 1)
    let work ← (handleCheckpoint anyone m.coordinatorEpoch.coordinator worker node.work
      (announcement m jobID job set source)).toOption
    some ⟨work, node.process⟩
  | .emit sequence => do
    let held ← node.work.assignments.find? jobID
    let eof ← sourceEOF held.topology source
    let outboxes ← outboxes node.work sequence
    let cursor := (node.work.sources.find? source).getD ⟨source, 1, eof, 0, 0, 0, .zero⟩
    let work ← (commitWork worker (applySource node.work { cursor with nextSequence := sequence + 1 }
      (outboxes.map fun outbox => ⟨outbox, false, 0⟩))).toOption
    some ⟨work, node.process⟩
  | .receive sequence => do
    let outboxes ← outboxes node.work sequence
    let work :=
      { node.work with
        deliveries := node.work.deliveries ++ outboxes.map fun outbox => ⟨outbox, .received⟩ }
    guard (validateRecoveredWorkLocal work worker = true)
    some ⟨work, node.process⟩

def plays (stepwise : Bool) (m : Machine) (worker : Incarnation) (node : Node) : List Move → Option Node
  | [] => some node
  | move :: moves => do
    let played ← move.play stepwise m worker node
    plays stepwise m worker played moves

/-- Every notice that a worker plays gets through. -/
def GetsThrough (admits : Fleet → Incarnation → CommittedCheckpoint → Prop) (stepwise : Bool)
    (worker : Incarnation) : Prop :=
  ∀ f : Fleet, ∀ request, (stepwise = true → request.notice.watermark.toNat ≤
    ((f.work worker).watermark request.notice.source).toNat + 1) → admits f worker request

section Plays

variable {admits : Fleet → Incarnation → CommittedCheckpoint → Prop} {m : Machine} {stepwise : Bool}
variable {nodes : Incarnation → Node} {worker : Incarnation} {node : Node} {move : Move}

/-- A move is some steps of the fleet. -/
lemma getsTo_play (hadmits : GetsThrough admits stepwise worker)
    (h : GetsTo anyone admits m nodes) (hplay : move.play stepwise m worker (nodes worker) = some node) :
    GetsTo anyone admits m (update nodes worker node) := by
  obtain ⟨f, hf, rfl, rfl⟩ := h
  cases move with
  | fence =>
    simp only [Move.play, bind_eq_some, exists_guard, toOption_eq_some, Prod.exists, Option.some.injEq]
      at hplay
    obtain ⟨closing, hclosing, hfence, epoch, channel, hhandling, drained, hdrained, work, hwork, rfl⟩ :=
      hplay
    have hclose := hf.step (.process (fun _ _ h => (by cases h)) hclosing hfence)
    have hstore : FleetStep anyone admits (f.put worker ⟨f.work worker, closing⟩)
        ((f.put worker ⟨f.work worker, closing⟩).put worker ⟨work, drained⟩) := by
      apply FleetStep.fence
      · rw [Fleet.node_put]
        exact hhandling
      · rw [Fleet.node_put]
        exact hdrained
      · rw [Fleet.work, Fleet.node_put]
        exact hwork
    refine ⟨_, hclose.step hstore, rfl, ?_⟩
    exact update_idem ..
  | install scheduling =>
    simp only [Move.play, bind_eq_some, exists_guard, Option.some.injEq] at hplay
    obtain ⟨job, hjob, set, hset, topology, htopology, record, -, ⟨hsends, hidle⟩, rfl⟩ := hplay
    have hoffer := hf.step (.offer f.machine.coordinatorEpoch hjob hset htopology hsends)
    exact ⟨_, hoffer.step (.install hidle List.mem_cons_self), rfl, rfl⟩
  | notice =>
    simp only [Move.play, bind_eq_some, exists_guard, toOption_eq_some, Option.some.injEq] at hplay
    obtain ⟨job, hjob, set, hset, hnext, work, hwork, rfl⟩ := hplay
    have hannounce := hf.step (.announce source hjob hset)
    exact ⟨_, hannounce.step (.notice List.mem_cons_self (hadmits _ _ hnext) hwork), rfl, rfl⟩
  | emit sequence =>
    simp only [Move.play, bind_eq_some, toOption_eq_some, Option.some.injEq] at hplay
    obtain ⟨held, -, eof, -, outboxes, -, work, hwork, rfl⟩ := hplay
    exact ⟨_, hf.step (.source hwork), rfl, rfl⟩
  | receive sequence =>
    simp only [Move.play, bind_eq_some, exists_guard, Option.some.injEq] at hplay
    obtain ⟨outboxes, -, hchecked, rfl⟩ := hplay
    have hreceived : FleetStep anyone admits f (f.put worker ⟨{ f.work worker with
        deliveries := (f.work worker).deliveries ++ outboxes.map fun outbox => ⟨outbox, .received⟩ },
        (f.node worker).process⟩) := .other rfl rfl rfl rfl hchecked
    exact ⟨_, hf.step hreceived, rfl, rfl⟩

lemma getsTo_plays {moves : List Move} (hadmits : GetsThrough admits stepwise worker)
    (h : GetsTo anyone admits m nodes) {before : Node} (hbefore : nodes worker = before)
    (hplays : plays stepwise m worker before moves = some node) :
    GetsTo anyone admits m (update nodes worker node) := by
  induction moves generalizing nodes before with
  | nil =>
    cases hplays
    rw [← hbefore, update_eq_self]
    exact h
  | cons move moves ih =>
    simp only [plays, bind_eq_some] at hplays
    obtain ⟨played, hplay, hplays⟩ := hplays
    rw [← hbefore] at hplay
    have hrest := ih (getsTo_play hadmits h hplay) (update_self ..) hplays
    rw [update_idem] at hrest
    exact hrest

end Plays

end Sample

section Samples

attribute [local instance] sampleContract

open State.Sample Sample

/-- The owner of the source takes over two advances, one after the other. -/
theorem checkpoint_revisions_agree_stepwise : ∃ (f : Fleet) (job : JobRecord) (cursor : SourceCursor),
    f.machine.jobs.find? source.jobID = some job ∧ job.watermark source = 2 ∧ job.advances source = 2 ∧
    (f.work (worker 3)).sources.find? source = some cursor ∧ cursor.watermark = 2 ∧
    cursor.checkpointRevision = 2 ∧ f.RevisionsAgree := by
  have hscript : ((follow .new 1 (deployed ++ [activate, advance 8 1])).any fun first =>
      (plays true first.2 (worker 3) .new [.fence, .install .closed, .notice]).any fun node =>
        (follow first.2 10 [advance 9 2]).any fun second =>
          (plays true second.2 (worker 3) node [.notice]).any fun last =>
            (second.2.jobs.find? source.jobID).any fun job =>
              job.watermark source = 2 && job.advances source = 2 &&
                (last.work.sources.find? source).any fun cursor =>
                  cursor.watermark = 2 && cursor.checkpointRevision = 2) = true := by
    decide +kernel
  simp only [Option.any_eq_true, Prod.exists, Bool.and_eq_true, decide_eq_true_eq] at hscript
  obtain ⟨log1, m1, hfirst, node, hnode, log2, m2, hsecond, last, hlast, job, hjob,
    ⟨hwatermark, hadvances⟩, cursor, hcursor, hmark, hrevision⟩ := hscript
  have hadmits : GetsThrough Fleet.NoneMissed true (worker 3) := by
    intro f request hnext _ mark _ hlt
    exact Nat.le_trans (hnext rfl) hlt
  have hold := getsTo_plays hadmits (GetsTo.new.run (run_of_follow hfirst)) rfl hnode
  obtain ⟨f, hf, hmachine, hnodes⟩ :=
    getsTo_plays hadmits (hold.run (run_of_follow hsecond)) (update_self ..) hlast
  refine ⟨f, job, cursor, hmachine ▸ hjob, hwatermark, hadvances, ?_, hmark, hrevision,
    checkpoint_revisions_agree hf⟩
  rw [Fleet.work, hnodes, update_self]
  exact hcursor

/-- The source moves to another worker after two advances: the new owner takes over the second alone,
    counts one, and its next report will be refused. -/
theorem adopted_revision_lags : ∃ f : Fleet, FleetRun anyone (fun _ _ _ => True) f ∧ ¬ f.RevisionsAgree := by
  have hscript : ((follow .new 1 (deployed ++
      [activate, advance 8 1, advance 9 2, deactivate 10 3, replace 11 3 1])).any fun outcome =>
      (plays false outcome.2 (worker 1) .new [.fence, .install .closed, .notice]).any fun node =>
        (outcome.2.jobs.find? source.jobID).any fun job =>
          (assignmentToken job.assignment source).any fun token => localToken (worker 1) token &&
            (node.work.sources.find? source).any fun cursor =>
              cursor.watermark = job.watermark source &&
                cursor.checkpointRevision ≠ job.advances source) = true := by
    decide +kernel
  simp only [Option.any_eq_true, Prod.exists, Bool.and_eq_true, decide_eq_true_eq] at hscript
  obtain ⟨log, m, hfollow, node, hnode, job, hjob, token, htoken, hlocal, cursor, hcursor, hwatermark,
    hdiffers⟩ := hscript
  have hstart : GetsTo anyone (fun _ _ _ => True) m fun _ => .new := GetsTo.new.run (run_of_follow hfollow)
  obtain ⟨f, hf, hmachine, hnodes⟩ := getsTo_plays (fun _ _ _ => trivial) hstart rfl hnode
  refine ⟨f, hf, fun hagree => ?_⟩
  have hheld : (f.work (worker 1)).sources.find? source = some cursor := by
    rw [Fleet.work, hnodes, update_self]
    exact hcursor
  exact hdiffers (hagree (worker 1) source job token cursor (hmachine ▸ hjob) htoken hlocal hheld hwatermark).1

end Samples

end Crane.Worker
