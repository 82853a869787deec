import Mathlib.Data.Prod.Lex
import Crane.State.Apply

/-!
# Markers

The lists of markers a job and its records carry. `key` is what markers are sorted by. A marker made
for a worker names a task or a copy of a result that the assignment has placed there.
-/

namespace Crane.State

open Wire Data Model

variable {markers current added : List NeedsReassignment} {assignment : AssignmentSet}

/-- The node and incarnation of one of the two copies. -/
def ResultReplicaSet.endpoint (replica : ResultReplicaSet) : ResultReplicaRole → U16 × WorkerEpoch
  | .primary => (replica.primaryNodeID, replica.primaryEpoch)
  | .secondary => (replica.secondaryNodeID, replica.secondaryEpoch)

def snapshotMarkerTargetsAssignment (marker : NeedsReassignment) (assignment : Option AssignmentSet) :
    Bool :=
  match assignment with
  | none => false
  | some set =>
    match marker.kind with
    | .task => set.tasks.any fun token =>
        marker.task = token.task ∧ marker.oldWorkerID = token.workerID ∧ marker.oldWorkerEpoch = token.workerEpoch
    | .resultReplica =>
      match set.resultReplicas.find? (·.sinkTask = marker.sinkTask), marker.replicaRole with
      | some replica, some role =>
        (marker.oldWorkerID, marker.oldWorkerEpoch) = ResultReplicaSet.endpoint replica role
      | _, _ => false

/-- What a marker is sorted by. -/
def NeedsReassignment.key (marker : NeedsReassignment) : Nat ×ₗ Nat ×ₗ Nat ×ₗ Nat ×ₗ Nat :=
  toLex (marker.kind.number, toLex (rank marker.target, toLex (replicaRoleNumber marker.replicaRole,
    toLex (marker.oldWorkerID.toNat, marker.oldWorkerEpoch.toNat))))

lemma ReassignmentTargetKind.number_inj {a b : ReassignmentTargetKind} (h : a.number = b.number) : a = b := by
  cases a <;> cases b <;> first
    | rfl
    | cases h

lemma replicaRoleNumber_inj {a b : Option ResultReplicaRole}
    (h : replicaRoleNumber a = replicaRoleNumber b) : a = b := by
  obtain _ | ⟨⟨⟩⟩ := a <;> obtain _ | ⟨⟨⟩⟩ := b <;> first
    | rfl
    | cases h

lemma markerLess_iff {a b : NeedsReassignment} : markerLess a b = true ↔ a.key < b.key := by
  unfold markerLess NeedsReassignment.key
  simp only [Prod.Lex.toLex_lt_toLex]
  by_cases hkind : a.kind = b.kind
  · by_cases htarg : a.target = b.target
    · by_cases hrole : a.replicaRole = b.replicaRole
      · by_cases hwkr : a.oldWorkerID = b.oldWorkerID
        · simp [hkind, htarg, hrole, hwkr, BitVec.lt_def]
        have hne : a.oldWorkerID.toNat ≠ b.oldWorkerID.toNat := fun heq => hwkr (BitVec.eq_of_toNat_eq heq)
        simp [hkind, htarg, hrole, hwkr, hne, BitVec.lt_def]
      have hne : replicaRoleNumber a.replicaRole ≠ replicaRoleNumber b.replicaRole :=
        fun heq => hrole (replicaRoleNumber_inj heq)
      simp [hkind, htarg, hrole, hne]
    have hne : rank a.target ≠ rank b.target := rank_ne htarg
    simp [hkind, htarg, hne, TaskID.before]
  have hne : a.kind.number ≠ b.kind.number := fun heq => hkind (a.kind.number_inj heq)
  simp [hkind, hne]

/-! ## Sorted lists -/

lemma mem_sortMarkers {marker : NeedsReassignment} : marker ∈ sortMarkers markers ↔ marker ∈ markers :=
  (List.perm_insertionSort _ markers).mem_iff

lemma mem_dropRepeats {marker : NeedsReassignment} : marker ∈ dropRepeats markers ↔ marker ∈ markers := by
  induction markers using dropRepeats.induct with
  | case1 | case2 => rfl
  | case3 _ _ ih =>
    rw [dropRepeats, if_pos rfl, ih]
    simp
  | case4 _ _ _ hne ih =>
    rw [dropRepeats, if_neg hne, List.mem_cons, ih]
    simp

lemma markersSorted_iff : markersSorted markers = true ↔ markers.Pairwise fun a b => a.key < b.key := by
  induction markers using markersSorted.induct with
  | case1 | case2 => simp [markersSorted]
  | case3 _ b _ ih =>
    rw [markersSorted, Bool.and_eq_true, markerLess_iff, ih]
    constructor
    · intro ⟨hlt, hrest⟩
      refine List.pairwise_cons.mpr ⟨?_, hrest⟩
      intro marker hmk
      cases List.mem_cons.mp hmk with
      | inl heq => rw [heq]; exact hlt
      | inr hmem => exact lt_trans hlt ((List.pairwise_cons.mp hrest).1 marker hmem)
    intro hall
    obtain ⟨hhead, hrest⟩ := List.pairwise_cons.mp hall
    exact ⟨hhead b List.mem_cons_self, hrest⟩

/-- The checks on a list of markers. -/
lemma validateMarkers_iff {job : JobID} : validateMarkers markers job = true ↔ markers.length ≤ maxMarkers ∧
      (∀ marker ∈ markers, marker.validate = true ∧ marker.target.jobID = job) ∧
      markers.Pairwise fun a b => a.key < b.key := by
  simp only [validateMarkers, Bool.and_eq_true, decide_eq_true_eq, List.all_eq_true, markersSorted_iff, and_assoc]

lemma nodup_of_sorted (h : markers.Pairwise fun a b => a.key < b.key) : markers.Nodup := by
  refine List.Pairwise.imp ?_ h
  intro a b hlt heq
  rw [heq] at hlt
  exact lt_irrefl _ hlt

lemma mem_sortedMarkerUnion {marker : NeedsReassignment} :
    marker ∈ sortedMarkerUnion current added ↔ marker ∈ current ∨ marker ∈ added := by
  rw [sortedMarkerUnion, mem_dropRepeats, mem_sortMarkers, List.mem_append]

/-- A union that is no longer than its first part has added nothing. -/
lemma subset_of_length_sortedMarkerUnion (hcur : current.Nodup)
    (hlen : (sortedMarkerUnion current added).length = current.length) :
    ∀ marker ∈ added, marker ∈ current := by
  have hsubset : current ⊆ sortedMarkerUnion current added := by
    intro marker hmk
    exact mem_sortedMarkerUnion.mpr (.inl hmk)
  have hperm := (hcur.subperm hsubset).perm_of_length_le (Nat.le_of_eq hlen)
  intro marker hmk
  exact hperm.mem_iff.mpr (mem_sortedMarkerUnion.mpr (.inr hmk))

/-! ## The markers of a worker -/

/-- What has a key of its own is found by it. -/
lemma find?_of_nodup_map {α β : Type} [DecidableEq β] {list : List α} {f : α → β}
    (h : (list.map f).Nodup) {a : α} (ha : a ∈ list) : list.find? (f · = f a) = some a := by
  cases hfind : list.find? (f · = f a) with
  | none =>
    have := List.find?_eq_none.mp hfind a ha
    simp at this
  | some b =>
    have hf : f b = f a := by simpa using List.find?_some hfind
    rw [List.inj_on_of_nodup_map h (List.mem_of_find?_eq_some hfind) ha hf]

lemma mem_replicaMarkers {marker : NeedsReassignment} {replica : ResultReplicaSet} {workerID : U16}
    {epoch : WorkerEpoch} : marker ∈ replicaMarkers replica workerID epoch ↔ ∃ role,
      ResultReplicaSet.endpoint replica role = (workerID, epoch) ∧
        marker = replicaMarker replica.sinkTask role workerID epoch := by
  unfold replicaMarkers
  rw [List.mem_append]
  constructor
  · intro h
    cases h with
    | inl hprim =>
      split at hprim
      · rename_i heq
        exact ⟨.primary, Prod.ext heq.1 heq.2, List.mem_singleton.mp hprim⟩
      · cases hprim
    | inr hsec =>
      split at hsec
      · rename_i heq
        exact ⟨.secondary, Prod.ext heq.1 heq.2, List.mem_singleton.mp hsec⟩
      · cases hsec
  intro ⟨role, hendp, hmk⟩
  cases role with
  | primary =>
    obtain ⟨rfl, rfl⟩ := Prod.mk.inj hendp
    exact .inl (by rw [if_pos ⟨rfl, rfl⟩]; exact List.mem_singleton.mpr hmk)
  | secondary =>
    obtain ⟨rfl, rfl⟩ := Prod.mk.inj hendp
    exact .inr (by rw [if_pos ⟨rfl, rfl⟩]; exact List.mem_singleton.mpr hmk)

lemma mem_markersForWorker {marker : NeedsReassignment} {set : AssignmentSet} {workerID : U16}
    {epoch : WorkerEpoch} : marker ∈ markersForWorker set workerID epoch ↔
      (∃ token ∈ set.tasks, token.workerID = workerID ∧ token.workerEpoch = epoch ∧
        marker = taskMarker token.task workerID epoch) ∨
      ∃ replica ∈ set.resultReplicas, ∃ role, ResultReplicaSet.endpoint replica role = (workerID, epoch) ∧
          marker = replicaMarker replica.sinkTask role workerID epoch := by
  simp only [markersForWorker, mem_sortMarkers, List.mem_append, List.mem_map, List.mem_filter,
    decide_eq_true_eq, List.mem_flatMap, mem_replicaMarkers, and_assoc, @eq_comm _ _ marker]

section Complete

variable {set : AssignmentSet} {topology : ValidatedTopology} {workerID : U16} {epoch : WorkerEpoch}
variable {marker : NeedsReassignment}

/-- A marker of the worker is about a target of the placement. -/
lemma markersForWorker_targets (h : Complete set topology)
    (hmk : marker ∈ markersForWorker set workerID epoch) :
    snapshotMarkerTargetsAssignment marker (some set) = true := by
  obtain ⟨token, htok, rfl, rfl, rfl⟩ | ⟨replica, hrepl, role, hendp, rfl⟩ := mem_markersForWorker.mp hmk
  · refine List.any_eq_true.mpr ⟨token, htok, ?_⟩
    simp [taskMarker]
  have hfind := find?_of_nodup_map h.nodup_sinks hrepl
  change (match set.resultReplicas.find? (·.sinkTask = replica.sinkTask), some role with
    | some found, some role => decide ((workerID, epoch) = ResultReplicaSet.endpoint found role)
    | _, _ => false) = true
  rw [hfind]
  exact decide_eq_true hendp.symm

end Complete

/-- Markers are added to a job that is under way, all those of the worker at once. -/
lemma addedMarkers_eq_some {job : JobRecord} {workerID : U16} {epoch : WorkerEpoch}
    {union : List NeedsReassignment}
    (h : Machine.addedMarkers job workerID epoch = some (assignment, union)) :
    job.assignment = some assignment ∧ job.lifecycle.terminal = false ∧
      union = sortedMarkerUnion job.needsReassignment (markersForWorker assignment workerID epoch) := by
  simp only [Machine.addedMarkers, bind_eq_some, exists_guard, Option.some.injEq, Prod.mk.injEq] at h
  obtain ⟨_, hassign, ⟨hlive, -⟩, rfl, rfl⟩ := h
  exact ⟨hassign, hlive, rfl⟩

/-- No markers are added to a finished job, and none to one that has them all. -/
lemma addedMarkers_eq_none {job : JobRecord} {workerID : U16} {epoch : WorkerEpoch}
    (h : Machine.addedMarkers job workerID epoch = none) (hassign : job.assignment = some assignment)
    (hlive : job.lifecycle.terminal = false) (hnodup : job.needsReassignment.Nodup) :
    ∀ marker ∈ markersForWorker assignment workerID epoch, marker ∈ job.needsReassignment := by
  apply subset_of_length_sortedMarkerUnion hnodup
  by_contra hlng
  simp [Machine.addedMarkers, hassign, hlive, hlng, guard] at h

end Crane.State
