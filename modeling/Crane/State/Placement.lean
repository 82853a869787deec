import Crane.State.Shape

/-!
# Where work may be

What a job that is not finished has placed on workers and not marked is *open*. An open token or copy
is on a worker that serves: registered in that very incarnation, and not offline. A worker's open
tokens fit into its slots. Commands that take a worker away mark everything it holds; commands that
place something check where they place it.
-/

namespace Crane.State

open Wire Data Model List Machine Table Nat Bool

variable {token : AssignmentToken} {worker : WorkerRecord} {revision : U64} {epoch : WorkerEpoch}
variable {stored : U16} {jobs : Table JobID JobRecord} {kind : WorkerInvalidationKind}

/-- The tokens of a job that is not finished, but for those that are marked. -/
def JobRecord.openTokens (job : JobRecord) : List AssignmentToken :=
  if job.lifecycle.terminal then []
  else (job.assignment.elim [] (·.tasks)).filter fun token =>
    taskMarker token.task token.workerID token.workerEpoch ∉ job.needsReassignment

/-- One of the two copies of a sink's results is there and is not marked. -/
def JobRecord.OpenEndpoint (job : JobRecord) (endpoint : U16 × WorkerEpoch) : Prop :=
  job.lifecycle.terminal = false ∧ ∃ set, job.assignment = some set ∧
    ∃ replica ∈ set.resultReplicas, ∃ role, ResultReplicaSet.endpoint replica role = endpoint ∧
      replicaMarker replica.sinkTask role endpoint.1 endpoint.2 ∉ job.needsReassignment

/-- The worker is registered in that incarnation and not offline. -/
def Machine.Serves (m : Machine) (workerID : U16) (epoch : WorkerEpoch) : Prop :=
  ∃ worker, m.workers.find? workerID = some worker ∧ worker.epoch = epoch ∧ worker.state ≠ .offline

/-- How many open tokens there are on a worker. -/
def Machine.openOn (m : Machine) (workerID : U16) : Nat :=
  m.jobs.sum fun _ job => job.openTokens.countP (·.workerID = workerID)

/-- The slots of a worker that jobs other than this one leave. -/
def Machine.freeSlots (m : Machine) (key : JobID) (workerID : U16) : Nat :=
  (m.workers.find? workerID).elim 0 fun worker => worker.slots.toNat - m.slotsUsedByOthers key workerID

structure PlacementSafe (m : Machine) : Prop where
  tokens : ∀ key job, m.jobs.find? key = some job → ∀ token ∈ job.openTokens,
    m.Serves token.workerID token.workerEpoch
  endpoints : ∀ key job, m.jobs.find? key = some job → ∀ endpoint, job.OpenEndpoint endpoint →
    m.Serves endpoint.1 endpoint.2
  slots : ∀ workerID worker, m.workers.find? workerID = some worker → m.openOn workerID ≤ worker.slots.toNat

section Steps

variable {m m' : Machine} {command : Command} {next : U64} {key : JobID} {job job' : JobRecord}

lemma mem_openTokens : token ∈ job.openTokens ↔ job.lifecycle.terminal = false ∧
      ∃ set, job.assignment = some set ∧ token ∈ set.tasks ∧
        taskMarker token.task token.workerID token.workerEpoch ∉ job.needsReassignment := by
  unfold JobRecord.openTokens
  cases htermnl : job.lifecycle.terminal with
  | true => simp
  | false =>
    cases hassign : job.assignment with
    | none | some => simp

/-- The second job has nothing open that the first has not. -/
structure Lighter (job job' : JobRecord) : Prop where
  tokens : job'.openTokens.Sublist job.openTokens
  endpoints : ∀ endpoint, job'.OpenEndpoint endpoint → job.OpenEndpoint endpoint

lemma Lighter.of_markers (hlive : job.lifecycle.terminal = true → job'.lifecycle.terminal = true)
    (hassign : job'.assignment = job.assignment)
    (hmks : ∀ marker ∈ job.needsReassignment, marker ∈ job'.needsReassignment) : Lighter job job' := by
  constructor
  · unfold JobRecord.openTokens
    cases htermnl' : job'.lifecycle.terminal with
    | true => exact nil_sublist _
    | false =>
      have htermnl : job.lifecycle.terminal = false := by
        rw [eq_false_iff]
        intro htermnl
        rw [hlive htermnl] at htermnl'
        cases htermnl'
      rw [htermnl, hassign]
      refine monotone_filter_right _ ?_
      intro token htok
      rw [decide_eq_true_eq] at htok ⊢
      exact fun hmkd => htok (hmks _ hmkd)
  intro endpoint hopen
  obtain ⟨hlive', set, hset, replica, hrepl, role, hendp, hunmar⟩ := hopen
  refine ⟨?_, set, hassign ▸ hset, replica, hrepl, role, hendp, ?_⟩
  · rw [eq_false_iff]
    intro htermnl
    rw [hlive htermnl] at hlive'
    cases hlive'
  · exact fun hmkd => hunmar (hmks _ hmkd)

/-- Where everything open of a job may be, with the slots that the other jobs leave. -/
structure Fits (m : Machine) (key : JobID) (job : JobRecord) : Prop where
  tokens : ∀ token ∈ job.openTokens, m.Serves token.workerID token.workerEpoch
  endpoints : ∀ endpoint, job.OpenEndpoint endpoint → m.Serves endpoint.1 endpoint.2
  slots : ∀ workerID worker, m.workers.find? workerID = some worker →
    job.openTokens.countP (·.workerID = workerID) = 0 ∨
      m.slotsUsedByOthers key workerID + job.openTokens.countP (·.workerID = workerID) ≤
        worker.slots.toNat

/-! ## A first placement -/

variable {workerID : U16}

lemma countP_openTokens_le (job : JobRecord) (workerID : U16) :
    job.openTokens.countP (·.workerID = workerID) ≤ Machine.slotsUsed job workerID := by
  unfold JobRecord.openTokens slotsUsed
  cases job.lifecycle.terminal with
  | true => exact zero_le _
  | false =>
    cases job.assignment with
    | none => exact zero_le _
    | some => exact filter_sublist.countP_le

variable [Contract]

lemma mem_residualEligiblePlacements (hm : Reachable m) {placement : WorkerPlacement}
    (h : placement ∈ m.residualEligiblePlacements key) :
    ∃ worker, m.workers.find? placement.nodeID = some worker ∧ worker.epoch = placement.workerEpoch ∧
      worker.state = .eligible ∧ placement.slotCapacity.toNat =
        worker.slots.toNat - m.slotsUsedByOthers key placement.nodeID := by
  simp only [residualEligiblePlacements, mem_filterMap, mem_insertionSort,
    mem_filter, mem_map, decide_eq_true_eq] at h
  obtain ⟨worker, ⟨⟨⟨stored, record⟩, hent, hrec⟩, helig⟩, hplac⟩ := h
  subst hrec
  have hfind := find?_eq_some.mpr hent
  split at hplac
  · cases hplac
  rename_i hroom
  obtain rfl := Option.some.inj hplac
  refine ⟨record, ?_, rfl, helig, ?_⟩
  · rw [← (hm.workerShape hfind).2.1] at hfind
    exact hfind
  have hbd := record.slots.isLt
  rw [not_le] at hroom
  rw [BitVec.toNat_sub_of_le]
  · rw [BitVec.toNat_ofNat, mod_eq_of_lt (lt_trans hroom hbd)]
  rw [BitVec.le_def, BitVec.toNat_ofNat, mod_eq_of_lt (lt_trans hroom hbd)]
  exact le_of_lt hroom

omit [Contract] in
lemma replacementWorkerStateAllowed_offline (changed : Bool) :
    replacementWorkerStateAllowed .offline changed = false := by
  cases changed <;> rfl

omit [Contract] in
lemma serves_of_eligible (hfind : m.workers.find? workerID = some worker)
    (helig : worker.state = .eligible) : m.Serves workerID worker.epoch :=
  ⟨worker, hfind, rfl, by rw [helig]; exact nofun⟩

/-- A placement that was built fits: tasks and second copies are on eligible workers with slots left,
and a first copy is where its task is. -/
lemma fits_of_built (hm : Reachable m) {hash : Array32} {topology : ValidatedTopology}
    {set : AssignmentSet} (hassign : job'.assignment = some set) (hval : set.validate topology = true)
    (hbuild : buildAssignmentSet key hash revision topology (m.residualEligiblePlacements key) =
      some set) : Fits m key job' := by
  have hcap : ∀ placement ∈ m.residualEligiblePlacements key,
      placement.slotCapacity.toNat ≤ m.freeSlots key placement.nodeID := by
    intro placement hplac
    obtain ⟨worker, hfind, -, -, hslots⟩ := mem_residualEligiblePlacements hm hplac
    rw [hslots, freeSlots, hfind]
    exact le_refl _
  obtain ⟨htasks, hcnts, hrepls⟩ := buildAssignmentSet_eq_some hbuild hcap
  have hsrv : ∀ node epoch, (∃ placement ∈ m.residualEligiblePlacements key,
      placement.nodeID = node ∧ placement.workerEpoch = epoch) → m.Serves node epoch := by
    intro node epoch ⟨placement, hplac, hnode, hep⟩
    obtain ⟨worker, hfind, hsame, helig, -⟩ := mem_residualEligiblePlacements hm hplac
    rw [← hnode, ← hep, ← hsame]
    exact serves_of_eligible hfind helig
  refine ⟨?_, ?_, ?_⟩
  · intro token htok
    obtain ⟨-, placed, hpld, hmem, -⟩ := mem_openTokens.mp htok
    cases hassign.symm.trans hpld
    exact hsrv _ _ (htasks token hmem)
  · intro endpoint hopen
    obtain ⟨-, placed, hpld, replica, hrepl, role, rfl, -⟩ := hopen
    cases hassign.symm.trans hpld
    cases role with
    | primary =>
      obtain ⟨-, token, htok, -, hnode, hep⟩ := (AssignmentSet.validate_eq_true hval).replicas replica hrepl
      change m.Serves replica.primaryNodeID replica.primaryEpoch
      rw [hnode, hep]
      exact hsrv _ _ (htasks token htok)
    | secondary => exact hsrv _ _ (hrepls replica hrepl)
  intro node worker hfind
  have hopen := countP_openTokens_le job' node
  have hused : slotsUsed job' node ≤ set.tasks.countP (·.workerID = node) := by
    unfold slotsUsed
    rw [hassign]
    split
    · exact zero_le _
    · exact le_refl _
  have hcnt := hcnts node
  rw [freeSlots, hfind, Option.elim_some] at hcnt
  omega

/-! ## A placement that replaces another -/

section

omit [Contract]

/-- The tokens were checked one by one: each is on a worker that serves, and they fit together with
what was counted before them. -/
lemma replacementTasksCurrent_eq_true {used : U16 → Nat} {pairs : List (AssignmentToken × AssignmentToken)}
    (h : m.replacementTasksCurrent key used pairs = true) :
    (∀ token ∈ pairs.map Prod.snd, m.Serves token.workerID token.workerEpoch) ∧
      ∀ node worker, m.workers.find? node = some worker →
        (pairs.map Prod.snd).countP (·.workerID = node) = 0 ∨ m.slotsUsedByOthers key node +
            (used node + (pairs.map Prod.snd).countP (·.workerID = node)) ≤ worker.slots.toNat := by
  induction pairs generalizing used with
  | nil => exact ⟨nofun, fun _ _ _ => .inl rfl⟩
  | cons pair _ ih =>
    obtain ⟨before, token⟩ := pair
    rw [replacementTasksCurrent] at h
    cases hwkr : m.workers.find? token.workerID with
    | none => simp [hwkr] at h
    | some worker =>
      simp only [hwkr, and_eq_true, decide_eq_true_eq, not_eq_true',
        or_eq_false_iff, decide_eq_false_iff_not] at h
      obtain ⟨⟨⟨hep, hallow⟩, hoths, hroom⟩, hrest⟩ := h
      obtain ⟨hsrv, hslots⟩ := ih hrest
      constructor
      · intro other hoth
        rw [map_cons, mem_cons] at hoth
        cases hoth with
        | inl hsame =>
          subst hsame
          refine ⟨worker, hwkr, hep, ?_⟩
          intro hoffline
          rw [hoffline, replacementWorkerStateAllowed_offline] at hallow
          cases hallow
        | inr hmem => exact hsrv other hmem
      intro node worker' hwkr'
      rw [map_cons, countP_cons]
      by_cases hnode : token.workerID = node
      · subst hnode
        cases hwkr.symm.trans hwkr'
        right
        have hcnt := hslots _ _ hwkr
        rw [Function.update_self] at hcnt
        simp only [decide_true, if_true]
        omega
      have hcnt := hslots node worker' hwkr'
      rw [Function.update_of_ne (Ne.symm hnode)] at hcnt
      simpa [hnode] using hcnt

lemma replacementEndpointCurrent_serves {changed : Bool}
    (h : m.replacementEndpointCurrent workerID epoch changed = true) : m.Serves workerID epoch := by
  simp only [replacementEndpointCurrent, Option.any_eq_true, and_eq_true, decide_eq_true_eq] at h
  obtain ⟨worker, hfind, hep, hallow⟩ := h
  refine ⟨worker, hfind, hep, ?_⟩
  intro hoffline
  rw [hoffline, replacementWorkerStateAllowed_offline] at hallow
  cases hallow

lemma fits_of_replaced {old target : AssignmentSet} {markers : List NeedsReassignment}
    (hassign : job'.assignment = some target) (hrplcs : validateReplacement old target markers = true)
    (hcur : m.replacementUsesCurrentWorkers old target key = true) : Fits m key job' := by
  simp only [validateReplacement, and_eq_true, decide_eq_true_eq] at hrplcs
  obtain ⟨⟨⟨⟨-, htasks⟩, hrepls⟩, -⟩, -⟩ := hrplcs
  rw [replacementUsesCurrentWorkers, and_eq_true, all_eq_true] at hcur
  obtain ⟨htoks, hendp⟩ := hcur
  obtain ⟨hsrv, hslots⟩ := replacementTasksCurrent_eq_true htoks
  rw [map_snd_zip (le_of_eq htasks)] at hsrv hslots
  refine ⟨?_, ?_, ?_⟩
  · intro token htok
    obtain ⟨-, placed, hpld, hmem, -⟩ := mem_openTokens.mp htok
    cases hassign.symm.trans hpld
    exact hsrv token hmem
  · intro endpoint hopen
    obtain ⟨-, placed, hpld, replica, hrepl, role, rfl, -⟩ := hopen
    cases hassign.symm.trans hpld
    rw [← map_snd_zip (le_of_eq hrepls), mem_map] at hrepl
    obtain ⟨pair, hpair, rfl⟩ := hrepl
    have hboth := hendp pair hpair
    rw [and_eq_true] at hboth
    cases role with
    | primary => exact replacementEndpointCurrent_serves hboth.1
    | secondary => exact replacementEndpointCurrent_serves hboth.2
  intro node worker hfind
  have hopen := countP_openTokens_le job' node
  have hused : slotsUsed job' node ≤ target.tasks.countP (·.workerID = node) := by
    unfold slotsUsed
    rw [hassign]
    split
    · exact zero_le _
    · exact le_refl _
  have hcnt := hslots node worker hfind
  omega

end

/-! ## One step -/

variable {cursor : Option (WorkerEventKey × WorkerEventCursor)} {growth : Int}

/-- A command on one job opens nothing, or what it places fits. -/
lemma JobChange.lighter_or_fits (hm : Reachable m) (hjob : m.jobs.find? key = some job)
    (h : JobChange m next command key job job' cursor growth) : Lighter job job' ∨ Fits m key job' := by
  cases h with
  | cancel | fail => exact .inl (.of_markers (fun _ => rfl) rfl fun _ h => h)
  | recordEOF => exact .inl (.of_markers id rfl fun _ h => h)
  | install _ _ _ _ _ hval hbuild =>
    rw [hm.keyed _ _ hjob] at hbuild
    exact .inr (fits_of_built hm rfl hval hbuild)
  | replace _ _ _ _ hrplcs hcur => exact .inr (fits_of_replaced rfl hrplcs hcur)
  | advance | sealManifest => exact .inl (.of_markers id rfl fun _ h => h)
  | transition _ _ hallow =>
    refine .inl (.of_markers ?_ rfl fun _ h => h)
    intro htermnl
    cases hold : job.lifecycle <;> rw [hold] at hallow htermnl <;> cases htermnl <;>
      cases hallow

omit [Contract] in
/-- The open tokens of the other jobs are among the slots they use. -/
lemma PlacementSafe.placeJob (hm : PlacementSafe m) (hjob : m.jobs.find? key = some job)
    (hfits : Fits m key job') (hjobs : m'.jobs = m.jobs.insert key job')
    (hworkers : m'.workers = m.workers) : PlacementSafe m' := by
  have hsrv : ∀ node epoch, m.Serves node epoch → m'.Serves node epoch := by
    intro node epoch hsrv
    unfold Machine.Serves
    rw [hworkers]
    exact hsrv
  refine ⟨?_, ?_, ?_⟩
  · intro key' other hoth token htok
    rw [hjobs, find?_insert] at hoth
    split at hoth
    · cases hoth
      exact hsrv _ _ (hfits.tokens token htok)
    · exact hsrv _ _ (hm.tokens key' other hoth token htok)
  · intro key' other hoth endpoint hopen
    rw [hjobs, find?_insert] at hoth
    split at hoth
    · cases hoth
      exact hsrv _ _ (hfits.endpoints endpoint hopen)
    · exact hsrv _ _ (hm.endpoints key' other hoth endpoint hopen)
  intro node worker hfind
  rw [hworkers] at hfind
  have hsum := sum_insert m.jobs key job' fun _ job => job.openTokens.countP (·.workerID = node)
  rw [hjob, Option.elim_some] at hsum
  have hoths := sum_erase m.jobs key fun _ job => job.openTokens.countP (·.workerID = node)
  rw [hjob, Option.elim_some] at hoths
  have hused : (m.jobs.erase key).sum (fun _ job => job.openTokens.countP (·.workerID = node)) ≤
      m.slotsUsedByOthers key node := by
    refine sum_le_sum ?_
    intro key' other hoth
    rw [find?_erase] at hoth
    split at hoth
    · cases hoth
    rename_i hne
    rw [hoth, Option.elim_some, if_neg (fun heq => hne (by rw [heq]))]
    exact countP_openTokens_le other node
  have hbef := hm.slots node worker hfind
  have hfits := hfits.slots node worker hfind
  unfold openOn at hbef ⊢
  rw [hjobs]
  omega

/-- Nothing open is on the worker. -/
def Machine.Cleared (m : Machine) (workerID : U16) : Prop :=
  ∀ key job, m.jobs.find? key = some job → (∀ token ∈ job.openTokens, token.workerID ≠ workerID) ∧
      ∀ endpoint, job.OpenEndpoint endpoint → endpoint.1 ≠ workerID

/-- Each job of the second machine has nothing open that it had not in the first. -/
def JobsLighter (m m' : Machine) : Prop :=
  ∀ key job', m'.jobs.find? key = some job' →
    job'.assignment = none ∨ ∃ job, m.jobs.find? key = some job ∧ Lighter job job'

section

omit [Contract]

lemma JobsLighter.tokens (h : JobsLighter m m') (hjob' : m'.jobs.find? key = some job')
    (htok : token ∈ job'.openTokens) : ∃ job, m.jobs.find? key = some job ∧ token ∈ job.openTokens := by
  cases h key job' hjob' with
  | inl hnone =>
    obtain ⟨-, set, hset, -⟩ := mem_openTokens.mp htok
    cases hnone.symm.trans hset
  | inr hltr =>
    obtain ⟨job, hjob, hltr⟩ := hltr
    exact ⟨job, hjob, hltr.tokens.subset htok⟩

lemma JobsLighter.endpoints (h : JobsLighter m m') (hjob' : m'.jobs.find? key = some job')
    {endpoint : U16 × WorkerEpoch} (hopen : job'.OpenEndpoint endpoint) :
    ∃ job, m.jobs.find? key = some job ∧ job.OpenEndpoint endpoint := by
  cases h key job' hjob' with
  | inl hnone =>
    obtain ⟨-, set, hset, -⟩ := hopen
    cases hnone.symm.trans hset
  | inr hltr =>
    obtain ⟨job, hjob, hltr⟩ := hltr
    exact ⟨job, hjob, hltr.endpoints endpoint hopen⟩

lemma JobsLighter.openOn_le (h : JobsLighter m m') (workerID : U16) : m'.openOn workerID ≤ m.openOn workerID := by
  refine sum_le_sum ?_
  intro key job' hjob'
  cases h key job' hjob' with
  | inl hnone =>
    have hnil : job'.openTokens = [] := eq_nil_iff_forall_not_mem.mpr (by
      intro token htok
      obtain ⟨-, set, hset, -⟩ := mem_openTokens.mp htok
      cases hnone.symm.trans hset)
    rw [hnil]
    exact zero_le _
  | inr hltr =>
    obtain ⟨job, hjob, hltr⟩ := hltr
    rw [hjob, Option.elim_some]
    exact hltr.tokens.countP_le

lemma Machine.Cleared.openOn (h : m.Cleared workerID) : m.openOn workerID = 0 := by
  refine le_zero.mp ?_
  refine le_of_le_of_eq (sum_le_sum (t := (empty : Table JobID Nat)) (f := fun _ n => n) ?_)
    (sum_empty _)
  intro key job hjob
  rw [countP_eq_zero.mpr]
  · exact zero_le _
  intro token htok hon
  exact (h key job hjob).1 token htok (decide_eq_true_eq.mp hon)

end

/-- A worker is as it was, or still serves with the same slots, or nothing open is on it. -/
inductive WorkerStep (m m' : Machine) (workerID : U16) : Prop where
  | same (h : m'.workers.find? workerID = m.workers.find? workerID)
  | serving {worker worker' : WorkerRecord} (hworker : m.workers.find? workerID = some worker)
    (hworker' : m'.workers.find? workerID = some worker') (hepoch : worker'.epoch = worker.epoch)
    (hslots : worker'.slots = worker.slots) (hstate : worker'.state ≠ .offline)
  | cleared (h : m'.Cleared workerID)

section

omit [Contract]

lemma WorkerStep.serves (h : WorkerStep m m' workerID) (hopen : ¬ m'.Cleared workerID)
    (hsrv : m.Serves workerID epoch) : m'.Serves workerID epoch := by
  cases h with
  | same h =>
    unfold Machine.Serves
    rw [h]
    exact hsrv
  | serving hwkr hwkr' hep _ hstate =>
    obtain ⟨worker, hfind, hsame, -⟩ := hsrv
    cases hwkr.symm.trans hfind
    exact ⟨_, hwkr', hep.trans hsame, hstate⟩
  | cleared h => exact absurd h hopen

lemma PlacementSafe.lighten (hm : PlacementSafe m) (hjobs : JobsLighter m m')
    (hworkers : ∀ workerID, WorkerStep m m' workerID) : PlacementSafe m' := by
  refine ⟨?_, ?_, ?_⟩
  · intro key job' hjob' token htok
    obtain ⟨job, hjob, hold⟩ := hjobs.tokens hjob' htok
    refine (hworkers token.workerID).serves ?_ (hm.tokens key job hjob token hold)
    intro hclrd
    exact (hclrd key job' hjob').1 token htok rfl
  · intro key job' hjob' endpoint hopen
    obtain ⟨job, hjob, hold⟩ := hjobs.endpoints hjob' hopen
    refine (hworkers endpoint.1).serves ?_ (hm.endpoints key job hjob endpoint hold)
    intro hclrd
    exact (hclrd key job' hjob').2 endpoint hopen rfl
  intro node worker' hwkr'
  have hle := hjobs.openOn_le node
  cases hworkers node with
  | same h => exact le_trans hle (hm.slots node worker' (h.symm.trans hwkr'))
  | serving hwkr hsto _ hslots =>
    cases hsto.symm.trans hwkr'
    rw [hslots]
    exact le_trans hle (hm.slots node _ hwkr)
  | cleared h =>
    rw [h.openOn]
    exact zero_le _

lemma workerStep_storeWorker (h : WorkerStep m (m.storeWorker stored worker jobs) stored) (workerID : U16) :
    WorkerStep m (m.storeWorker stored worker jobs) workerID := by
  by_cases heq : stored = workerID
  · subst heq
    exact h
  · exact .same (find?_insert_ne _ _ heq)

/-- Nothing open is on a worker that does not serve. -/
lemma JobsLighter.cleared (h : JobsLighter m m') (hm : PlacementSafe m)
    (hwkr : ∀ epoch, ¬ m.Serves workerID epoch) : m'.Cleared workerID := by
  intro key job' hjob'
  constructor
  · intro token htok hon
    obtain ⟨job, hjob, hold⟩ := h.tokens hjob' htok
    subst hon
    exact hwkr _ (hm.tokens key job hjob token hold)
  intro endpoint hopen hon
  obtain ⟨job, hjob, hold⟩ := h.endpoints hjob' hopen
  subst hon
  exact hwkr _ (hm.endpoints key job hjob endpoint hold)

/-- A registration, a revival or a drain: the jobs are pruned. -/
lemma jobsLighter_of_pruned (hjobs : m.prepareConsumedInvalidationPrune workerID = some (jobs, growth)) :
    JobsLighter m (m.storeWorker stored worker jobs) := by
  intro key job' hjob'
  right
  change jobs.find? key = some job' at hjob'
  rw [(prepareConsumedInvalidationPrune_eq_some hjobs).1 key, Option.map_eq_some_iff] at hjob'
  obtain ⟨job, hjob, rfl⟩ := hjob'
  exact ⟨job, hjob, .of_markers id rfl fun _ h => h⟩

lemma PlacementSafe.registered (hm : PlacementSafe m)
    (hjobs : m.prepareConsumedInvalidationPrune workerID = some (jobs, growth))
    (hwkr : ∀ epoch, ¬ m.Serves workerID epoch) : PlacementSafe (m.storeWorker workerID worker jobs) := by
  have hltr : JobsLighter m (m.storeWorker workerID worker jobs) := jobsLighter_of_pruned hjobs
  exact hm.lighten hltr (workerStep_storeWorker (.cleared (hltr.cleared hm hwkr)))

/-- What the markers of a job are once an incarnation is taken away: those it had, and if the job is
under way all those of the incarnation. -/
lemma Invalidated.markers {affected : Option AffectedAssignment} (hmkd : JobMarked key job)
    (h : Invalidated m kind revision workerID epoch key job job' affected) :
    (∀ marker ∈ job.needsReassignment, marker ∈ job'.needsReassignment) ∧
      ∀ set, job.assignment = some set → job.lifecycle.terminal = false →
        ∀ marker ∈ markersForWorker set workerID epoch, marker ∈ job'.needsReassignment := by
  cases h with
  | spared hadded =>
    refine ⟨fun _ h => h, ?_⟩
    intro set hset hlive
    exact addedMarkers_eq_none hadded hset hlive
      (nodup_of_sorted (validateMarkers_iff.mp hmkd.valid).2.2)
  | marked hadded =>
    obtain ⟨hassign, hlive, rfl⟩ := addedMarkers_eq_some hadded
    constructor
    · intro marker hmk
      exact mem_sortedMarkerUnion.mpr (.inl hmk)
    intro set hset _ marker hmk
    cases hassign.symm.trans hset
    exact mem_sortedMarkerUnion.mpr (.inr hmk)

end

/-- When an incarnation is taken away, everything it holds is marked. -/
lemma invalidation_clears (hm : Reachable m) (hsafe : PlacementSafe m) {current : WorkerRecord}
    {presented : List AffectedAssignment} (hcur : m.workers.find? workerID = some current)
    (hjobs : m.prepareWorkerInvalidation kind revision workerID current.epoch presented = some (jobs, growth)) :
    JobsLighter m (m.storeWorker workerID worker jobs) ∧
      (m.storeWorker workerID worker jobs).Cleared workerID := by
  obtain ⟨hnone, hsome, -⟩ := prepareWorkerInvalidation_eq_some hjobs
  -- each job that is stored comes from one that was there
  have hinvd : ∀ key job', jobs.find? key = some job' → ∃ job affected, m.jobs.find? key = some job ∧
        Invalidated m kind revision workerID current.epoch key job job' affected := by
    intro key job' hjob'
    cases hjob : m.jobs.find? key with
    | none =>
      rw [hnone key hjob] at hjob'
      cases hjob'
    | some job =>
      obtain ⟨job'', affected, hinv, hfind⟩ := hsome key job hjob
      cases hjob'.symm.trans hfind
      exact ⟨job, affected, rfl, invalidateJob_eq_some hinv⟩
  have hltr : JobsLighter m (m.storeWorker workerID worker jobs) := by
    intro key job' hjob'
    obtain ⟨job, affected, hjob, hstep⟩ := hinvd key job' hjob'
    refine .inr ⟨job, hjob, .of_markers ?_ ?_ (hstep.markers (hm.jobMarked hjob)).1⟩
    · cases hstep <;> exact id
    · cases hstep <;> rfl
  refine ⟨hltr, ?_⟩
  intro key job' hjob'
  obtain ⟨job, affected, hjob, hstep⟩ := hinvd key job' hjob'
  have hmks := (hstep.markers (hm.jobMarked hjob)).2
  -- an open token of the new record is one of the old, and served by the very incarnation
  have hcurr : ∀ epoch, m.Serves workerID epoch → current.epoch = epoch := by
    intro epoch hsrv
    obtain ⟨stored, hsto, hep, -⟩ := hsrv
    cases hcur.symm.trans hsto
    exact hep
  constructor
  · intro token htok hon
    obtain ⟨job0, hjob0, hold⟩ := hltr.tokens hjob' htok
    cases hjob.symm.trans hjob0
    have hep := hsafe.tokens key job hjob token hold
    rw [hon] at hep
    have hep := hcurr _ hep
    obtain ⟨hlive, set, hset, hmem, -⟩ := mem_openTokens.mp hold
    obtain ⟨-, -, -, -, hunmar⟩ := mem_openTokens.mp htok
    refine hunmar (hmks set hset hlive _ (mem_markersForWorker.mpr (.inl ?_)))
    refine ⟨token, hmem, hon, hep.symm, ?_⟩
    rw [hon, hep]
  intro endpoint hopen hon
  obtain ⟨job0, hjob0, hold⟩ := hltr.endpoints hjob' hopen
  cases hjob.symm.trans hjob0
  have hep := hsafe.endpoints key job hjob endpoint hold
  rw [hon] at hep
  have hep := hcurr _ hep
  have hsame : job'.assignment = job.assignment := by cases hstep <;> rfl
  obtain ⟨hlive, -⟩ := hold
  obtain ⟨-, set, hset, replica, hrepl, role, hendp, hunmar⟩ := hopen
  rw [hsame] at hset
  refine hunmar (hmks set hset hlive _ (mem_markersForWorker.mpr (.inr ?_)))
  refine ⟨replica, hrepl, role, ?_, ?_⟩
  · rw [hendp, hep, ← hon]
  · rw [hon, hep]

lemma Effect.placementSafe {index term : U64} {changed : Machine} (hm : Reachable m)
    (hsafe : PlacementSafe m) (h : Effect m index term next command changed growth) :
    PlacementSafe changed := by
  cases h with
  | begin => exact ⟨hsafe.tokens, hsafe.endpoints, hsafe.slots⟩
  | register hnew _ _ hjobs =>
    refine hsafe.registered hjobs ?_
    intro epoch hsrv
    obtain ⟨worker, hfind, -⟩ := hsrv
    cases hnew.symm.trans hfind
  | revive hcur hoffline _ _ _ hjobs =>
    refine hsafe.registered hjobs ?_
    intro epoch hsrv
    obtain ⟨worker, hfind, -, hstate⟩ := hsrv
    cases hcur.symm.trans hfind
    exact hstate hoffline
  | drain hcur _ hjobs =>
    refine hsafe.lighten (jobsLighter_of_pruned hjobs) (workerStep_storeWorker ?_)
    exact .serving hcur (find?_insert_self _ _ _) rfl rfl (by simp)
  | deactivate hcur _ hjobs =>
    obtain ⟨hltr, hclrd⟩ := invalidation_clears hm hsafe hcur hjobs
    exact hsafe.lighten hltr (workerStep_storeWorker (.cleared hclrd))
  | replaceEpoch hcur hrev hstate hjobs =>
    rename_i envelope workerID current target affected jobs delta
    have hsto : PlacementSafe (m.storeWorker workerID target jobs) := by
      obtain ⟨hltr, hclrd⟩ := invalidation_clears hm hsafe hcur hjobs
      exact hsafe.lighten hltr (workerStep_storeWorker (.cleared hclrd))
    exact ⟨hsto.tokens, hsto.endpoints, hsto.slots⟩
  | submit =>
    refine hsafe.lighten ?_ fun _ => .same rfl
    intro key job' hjob'
    rw [storeJob, find?_insert] at hjob'
    split at hjob'
    · cases hjob'
      exact .inl rfl
    · exact .inr ⟨job', hjob', .of_markers id rfl fun _ h => h⟩
  | job hjob hplc hchg =>
    rename_i key place job job' cursor delta
    have hplc : place = key := by
      rw [hm.keyed key job hjob] at hplc
      exact hplc.elim id id
    subst hplc
    cases hchg.lighter_or_fits hm hjob with
    | inl hltr =>
      refine hsafe.lighten ?_ fun _ => .same (by simp [storeJob])
      intro key other hoth
      rw [moveCursor_jobs, storeJob, find?_insert] at hoth
      split at hoth
      · rename_i heq
        cases hoth
        rw [Ranked.rank_injective heq] at hjob
        exact .inr ⟨job, hjob, hltr⟩
      · exact .inr ⟨other, hoth, .of_markers id rfl fun _ h => h⟩
    | inr hfits => exact hsafe.placeJob hjob hfits (by simp [storeJob]) (by simp [storeJob])

/-- In every reachable state, what is open is on workers that serve and within their slots. -/
theorem placement_safe (hm : Reachable m) : PlacementSafe m := by
  refine hm.induct ?_ ?_
  · exact ⟨nofun, nofun, nofun⟩
  intro m entry result m' hm hsafe happs
  obtain hsame | ⟨command, next, changed, growth, heff⟩ := happs.cases
  · refine hsafe.lighten ?_ fun _ => .same (by rw [hsame.workers])
    intro key job' hjob'
    rw [hsame.jobs] at hjob'
    exact .inr ⟨job', hjob', .of_markers id rfl fun _ h => h⟩
  have hchgd := heff.effect.placementSafe hm hsafe
  refine hchgd.lighten ?_ fun _ => .same (by rw [heff.same.workers])
  intro key job' hjob'
  rw [heff.same.jobs] at hjob'
  exact .inr ⟨job', hjob', .of_markers id rfl fun _ h => h⟩

end Steps

section Deployed

attribute [local instance] sampleContract

open Sample

/-- A job of two tasks is deployed, both of them on the third worker. -/
theorem placement_safe_deployed : ∃ log m, Run .new log m ∧ m.openOn 3 = 2 ∧ PlacementSafe m := by
  obtain ⟨log, m, hrun, hchk⟩ := exists_run_of_follow deployed (fun m => m.openOn 3 = 2)
    (by decide +kernel)
  rw [decide_eq_true_eq] at hchk
  exact ⟨log, m, hrun, hchk, placement_safe ⟨log, hrun⟩⟩

end Deployed

end Crane.State
