import Crane.Swim.Table
import Mathlib.Data.Nat.Size

/-!
# The membership half of the engine

`swim/suspicion.go` and `ApplyIncarnationFloor` of `swim/engine.go`: updates and floors as they reach a
node, the suspicions and tombstones they start, and the timers that end these. A node that hears itself
suspected answers with a higher incarnation of itself.

Probing, the messages and the disseminator's queue read the table and never write it; they are left out,
and so is a graceful departure. Times are nanoseconds since the zero of the source's clock. The timers
may fire at any time and in any order: a step takes the time it is given.

The result is that whatever is given to a node and in whatever order, it knows of every node the greatest
version that has been applied, and a node known to be dead does not come back in the same incarnation
(`known_is_greatest`).
-/

namespace Crane.Swim

open List Table

open Table (weight Raised)

variable {m current : Member} {t t' : Table} {update : Update} {event : MembershipEvent}

/-! ## Times -/

abbrev Time := Nat

abbrev Duration := Nat

def maxDuration : Duration := 2 ^ 63 - 1

/-- The last instant that the source's clock can hold. -/
def maxTime : Time := (2 ^ 63 - 1) * 1000000000 + 999999999

def minimumSuspicionDuration : Duration := 5 * 1000000000

def suspicionDuration (multiplier : Nat) (probeInterval : Duration) (aliveMembers : Nat) : Duration :=
  if multiplier = 0 ∨ probeInterval = 0 ∨ aliveMembers = 0 then minimumSuspicionDuration
  else
    let levels := aliveMembers.size
    if multiplier > maxDuration / levels then maxDuration
    else
      let factor := multiplier * levels
      if probeInterval > maxDuration / factor then maxDuration
      else max (factor * probeInterval) minimumSuspicionDuration

def multiplyDurationSaturated (duration : Duration) (factor : Nat) : Duration :=
  if duration = 0 ∨ factor = 0 then 0
  else if duration > maxDuration / factor then maxDuration
  else duration * factor

def addDurationSaturated (now : Time) (duration : Duration) : Time := min (now + duration) maxTime

/-! ## The engine -/

structure EngineConfig where
  selfID : NodeID
  probeInterval : Duration
  suspicionMultiplier : BitVec 16
  deriving DecidableEq

structure SuspicionState where
  incarnation : BitVec 64
  deadline : Time
  duration : Duration
  reporters : List NodeID
  deriving DecidableEq

structure TombstoneState where
  incarnation : BitVec 64
  status : Status
  deadline : Time
  deriving DecidableEq

inductive TimerKind where
  | suspicion
  | tombstone
  deriving DecidableEq

structure TimerRequest where
  kind : TimerKind
  nodeID : NodeID
  incarnation : BitVec 64
  status : Status
  deadline : Time
  deriving DecidableEq

structure Effects where
  timers : List TimerRequest := []
  events : List MembershipEvent := []
  persistIncarnation : Option (BitVec 64) := none
  deriving DecidableEq

structure Engine where
  config : EngineConfig
  table : Table
  suspicions : Data.Table NodeID SuspicionState
  tombstones : Data.Table NodeID TombstoneState

namespace Engine

def new (config : EngineConfig) : Engine := ⟨config, .new, .empty, .empty⟩

def aliveMembers (e : Engine) : Nat := e.table.members.sum fun _ m => if m.status = .alive then 1 else 0

def validUpdate (update : Update) : Bool :=
  update.member.nodeID ≠ 0 ∧ update.member.incarnation ≠ 0 ∧ update.reporterID ≠ 0

def suspicionTimer (nodeID : NodeID) (incarnation : BitVec 64) (deadline : Time) : TimerRequest :=
  ⟨.suspicion, nodeID, incarnation, default, deadline⟩

def beginSuspicion (e : Engine) (member : Member) (reporterID : NodeID) (aliveMembers : Nat)
    (now : Time) : Engine × TimerRequest :=
  let duration := suspicionDuration e.config.suspicionMultiplier.toNat e.config.probeInterval aliveMembers
  let deadline := addDurationSaturated now duration
  let suspicion := ⟨member.incarnation, deadline, duration, [reporterID]⟩
  ({ e with suspicions := e.suspicions.insert member.nodeID suspicion },
    suspicionTimer member.nodeID member.incarnation deadline)

def corroborateSuspicion (e : Engine) (member : Member) (reporterID : NodeID) (now : Time) : Engine × Effects :=
  match e.suspicions.find? member.nodeID with
  | none => (e, {})
  | some suspicion =>
    if suspicion.incarnation ≠ member.incarnation ∨ reporterID ∈ suspicion.reporters then (e, {})
    else
      let reporters := reporterID :: suspicion.reporters
      let remaining := max (suspicion.duration / reporters.length) e.config.probeInterval
      let candidate := addDurationSaturated now remaining
      let shortened := candidate < suspicion.deadline
      let suspicion := { suspicion with
        reporters := reporters
        deadline := if shortened then candidate else suspicion.deadline }
      ({ e with suspicions := e.suspicions.insert member.nodeID suspicion },
        { timers := if shortened then [suspicionTimer member.nodeID member.incarnation candidate] else [] })

def beginTombstone (e : Engine) (member : Member) (now : Time) : Engine × TimerRequest :=
  let retention := multiplyDurationSaturated
    (suspicionDuration e.config.suspicionMultiplier.toNat e.config.probeInterval e.aliveMembers) 10
  let deadline := addDurationSaturated now retention
  let tombstone := ⟨member.incarnation, member.status, deadline⟩
  ({ e with tombstones := e.tombstones.insert member.nodeID tombstone },
    ⟨.tombstone, member.nodeID, member.incarnation, member.status, deadline⟩)

/-- The update suspects this node, of the incarnation `current` that it shows. -/
def suspectsSelf (e : Engine) (current : Member) (update : Update) : Bool :=
  current.nodeID = e.config.selfID ∧ update.member.status = .suspect ∧
    update.member.incarnation = current.incarnation ∧
    current.status.severity ≤ Status.suspect.severity

/-- Of the incarnation after the one suspected. -/
def refutation (current : Member) : Member :=
  { current with incarnation := current.incarnation + 1, status := .alive }

def forget (e : Engine) (nodeID : NodeID) : Engine :=
  { e with suspicions := e.suspicions.erase nodeID, tombstones := e.tombstones.erase nodeID }

def refute (e : Engine) (current : Member) : Engine × Effects :=
  if current.incarnation = BitVec.allOnes 64 then (e, {})
  else
    let refuted := refutation current
    match e.table.merge ⟨refuted, e.config.selfID⟩ with
    | (_, false, _) => (e, {})
    | (table, true, event) =>
      ({ e with table := table }.forget current.nodeID,
        { events := [event], persistIncarnation := some refuted.incarnation })

/-- What a merge that went through starts and ends. -/
def transition (e : Engine) (event : MembershipEvent) (reporterID : NodeID) (aliveBefore : Nat)
    (now : Time) : Engine × Effects :=
  let current := event.current
  match current.status with
  | .alive => (e.forget current.nodeID, { events := [event] })
  | .suspect =>
    let cleared := { e with tombstones := e.tombstones.erase current.nodeID }
    let (begun, timer) := cleared.beginSuspicion current reporterID aliveBefore now
    (begun, { timers := [timer], events := [event] })
  | .dead | .left =>
    let cleared := { e with suspicions := e.suspicions.erase current.nodeID }
    let (begun, timer) := cleared.beginTombstone current now
    (begun, { timers := [timer], events := [event] })

def mergeUpdate (e : Engine) (update : Update) (now : Time) : Engine × Effects :=
  match e.table.merge update with
  | (_, false, _) =>
    match e.table.members.find? update.member.nodeID with
    | none => (e, {})
    | some current =>
      if update.member.status = .suspect ∧ current.status = .suspect ∧
          update.member.incarnation = current.incarnation then
        e.corroborateSuspicion current update.reporterID now
      else (e, {})
  | (table, true, event) => { e with table := table }.transition event update.reporterID e.aliveMembers now

/-- The record of this node that the update suspects. -/
def suspectedSelf (e : Engine) (update : Update) : Option Member :=
  (e.table.members.find? update.member.nodeID).filter fun current => e.suspectsSelf current update

def applyUpdate (e : Engine) (update : Update) (now : Time) : Engine × Effects :=
  if validUpdate update = false then (e, {})
  else
    match e.suspectedSelf update with
    | some current => e.refute current
    | none => e.mergeUpdate update now

/-- The record that the timeout finds still suspected. -/
def overdue (e : Engine) (nodeID : NodeID) (incarnation : BitVec 64) : Option Member :=
  (e.table.members.find? nodeID).filter fun member =>
    member.incarnation = incarnation ∧ member.status = .suspect

def handleSuspicionTimeout (e : Engine) (nodeID : NodeID) (incarnation : BitVec 64) (now : Time) :
    Engine × Effects :=
  match e.suspicions.find? nodeID with
  | none => (e, {})
  | some suspicion =>
    if suspicion.incarnation ≠ incarnation ∨ now < suspicion.deadline then (e, {})
    else
      let ended := { e with suspicions := e.suspicions.erase nodeID }
      match e.overdue nodeID incarnation with
      | none => (ended, {})
      | some member => ended.applyUpdate ⟨{ member with status := .dead }, e.config.selfID⟩ now

def expireTombstone (e : Engine) (nodeID : NodeID) (incarnation : BitVec 64) (status : Status)
    (now : Time) : Engine × Effects :=
  match e.tombstones.find? nodeID with
  | none => (e, {})
  | some tombstone =>
    if tombstone.incarnation ≠ incarnation ∨ tombstone.status ≠ status ∨ now < tombstone.deadline then
      (e, {})
    else
      let ended := { e with tombstones := e.tombstones.erase nodeID }
      match e.table.members.find? nodeID with
      | none => (ended, {})
      | some member =>
        if member.incarnation ≠ incarnation ∨ member.status ≠ status then (ended, {})
        else ({ ended with table := (e.table.expireTerminal member).1 }, {})

def applyIncarnationFloor (e : Engine) (floor : Member) (reporterID : NodeID) (now : Time) : Engine × Effects :=
  match e.table.mergeIncarnationFloor floor reporterID with
  | (_, false, _) => (e, {})
  | (table, true, event) =>
    let merged := { e with table := table }
    if event.current.nodeID = 0 then (merged, {})
    else
      let cleared := { merged with suspicions := merged.suspicions.erase event.current.nodeID }
      let (begun, timer) := cleared.beginTombstone event.current now
      (begun, { timers := [timer], events := [event] })

/-! ## Runs -/

inductive Input where
  | update (update : Update) (now : Time)
  | floor (floor : Member) (reporterID : NodeID) (now : Time)
  | suspicionTimeout (nodeID : NodeID) (incarnation : BitVec 64) (now : Time)
  | tombstoneTimeout (nodeID : NodeID) (incarnation : BitVec 64) (status : Status) (now : Time)
  | expire (member : Member)

def step (e : Engine) : Input → Engine
  | .update update now => (e.applyUpdate update now).1
  | .floor floor reporterID now => (e.applyIncarnationFloor floor reporterID now).1
  | .suspicionTimeout nodeID incarnation now => (e.handleSuspicionTimeout nodeID incarnation now).1
  | .tombstoneTimeout nodeID incarnation status now => (e.expireTombstone nodeID incarnation status now).1
  | .expire member => { e with table := (e.table.expireTerminal member).1 }

def run (e : Engine) (inputs : List Input) : Engine := inputs.foldl step e

/-- The records that an update brings: itself and, when it suspects the node, the refutation. A
suspicion that no incarnation is left to refute is dropped. -/
def brought (e : Engine) (update : Update) : List Member :=
  if validUpdate update = false then []
  else
    match e.suspectedSelf update with
    | some current =>
      if current.incarnation = BitVec.allOnes 64 then [] else [update.member, refutation current]
    | none => [update.member]

/-- The records that one input applies. -/
def applied (e : Engine) : Input → List Member
  | .update update _ => e.brought update
  | .floor floor reporterID _ =>
    if floor.nodeID = 0 ∨ floor.incarnation = 0 ∨ reporterID = 0 ∨ floor.status.terminal = false then []
    else [floor]
  | .suspicionTimeout nodeID incarnation now =>
    match e.suspicions.find? nodeID with
    | none => []
    | some suspicion =>
      if suspicion.incarnation ≠ incarnation ∨ now < suspicion.deadline then []
      else
        match e.overdue nodeID incarnation with
        | none => []
        | some member => e.brought ⟨{ member with status := .dead }, e.config.selfID⟩
  | .tombstoneTimeout .. => []
  | .expire _ => []

/-- Everything that a run applies. -/
def everything (e : Engine) : List Input → List Member
  | [] => []
  | input :: rest => e.applied input ++ (e.step input).everything rest

end Engine

/-- The greatest version of the node among the records. -/
def greatest (records : List Member) (n : NodeID) : WithBot Version :=
  ((records.filter fun m => m.nodeID = n).map Member.version).maximum

@[simp] lemma greatest_nil (n : NodeID) : greatest [] n = ⊥ := rfl

@[simp] lemma greatest_cons (m : Member) (ms : List Member) (n : NodeID) :
    greatest (m :: ms) n = max (weight m n) (greatest ms n) := by
  unfold greatest weight
  by_cases hn : m.nodeID = n
  · rw [filter_cons_of_pos (by simpa using hn), if_pos hn, map_cons, maximum_cons]
  · rw [filter_cons_of_neg (by simpa using hn), if_neg hn, max_eq_right bot_le]

lemma greatest_append (ms rest : List Member) (n : NodeID) :
    greatest (ms ++ rest) n = max (greatest ms n) (greatest rest n) := by
  induction ms with
  | nil => exact (max_eq_right bot_le).symm
  | cons _ _ ih => rw [cons_append, greatest_cons, greatest_cons, ih, max_assoc]

lemma le_greatest {ms : List Member} (h : m ∈ ms) : m.version ≤ greatest ms m.nodeID := by
  apply le_maximum_of_mem'
  exact mem_map_of_mem (mem_filter.mpr ⟨h, by simp⟩)

/-- `Raised` for any number of records. -/
structure Learnt (t t' : Table) (records : List Member) : Prop where
  valid : t'.Valid
  effective : ∀ n, t'.effective n = max (t.effective n) (greatest records n)

lemma Learnt.nothing (hval : t.Valid) : Learnt t t [] := ⟨hval, fun _ => (max_eq_left bot_le).symm⟩

lemma Learnt.of_raised (h : Raised t t' m) : Learnt t t' [m] :=
  ⟨h.valid, fun n => by rw [h.effective, greatest_cons, greatest_nil, max_eq_left bot_le]⟩

lemma Learnt.of_kept (h : t'.Valid ∧ ∀ n, t'.effective n = t.effective n) : Learnt t t' [] :=
  ⟨h.1, fun n => (h.2 n).trans (max_eq_left bot_le).symm⟩

lemma Learnt.trans {t'' : Table} {ms rest : List Member} (h : Learnt t t' ms) (h' : Learnt t' t'' rest) :
    Learnt t t'' (ms ++ rest) where
  valid := h'.valid
  effective n := by rw [h'.effective, h.effective, greatest_append, max_assoc]

namespace Engine

variable {e : Engine}

/-! ## One step -/

lemma transition_table (e : Engine) (event : MembershipEvent) (reporterID : NodeID)
    (aliveBefore : Nat) (now : Time) : (e.transition event reporterID aliveBefore now).1.table = e.table := by
  unfold transition
  simp only
  split <;> rfl

lemma corroborateSuspicion_table (e : Engine) (member : Member) (reporterID : NodeID) (now : Time) :
    (e.corroborateSuspicion member reporterID now).1.table = e.table := by
  unfold corroborateSuspicion
  split
  · rfl
  · split <;> rfl

/-- A merge that reports no change has made none. -/
lemma merge_refused (h : t.merge update = (t', false, event)) : t' = t := by
  unfold Table.merge Table.adopt at h
  grind

lemma mergeUpdate_learnt (hval : e.table.Valid) (hupd : validUpdate update = true) (now : Time) :
    Learnt e.table (e.mergeUpdate update now).1.table [update.member] := by
  have hwell : update.member.nodeID ≠ 0 ∧ update.member.incarnation ≠ 0 ∧ update.reporterID ≠ 0 := by
    simpa [validUpdate] using hupd
  have hraised := hval.merge_raised hwell.1 hwell.2.2
  unfold mergeUpdate
  split
  · rename_i t' event hmerge
    have hsame : Learnt e.table e.table [update.member] := by
      rw [hmerge, merge_refused hmerge] at hraised
      exact Learnt.of_raised hraised
    split
    · exact hsame
    split
    · rw [corroborateSuspicion_table]
      exact hsame
    · exact hsame
  rename_i t' event hmerge
  rw [transition_table]
  rw [hmerge] at hraised
  exact Learnt.of_raised hraised

lemma suspectedSelf_spec (hval : e.table.Valid) (h : e.suspectedSelf update = some current) :
    current.nodeID = update.member.nodeID ∧ current.nodeID = e.config.selfID ∧
      update.member.incarnation = current.incarnation := by
  obtain ⟨hmemb, hself⟩ := Option.filter_eq_some_iff.mp h
  have hself : current.nodeID = e.config.selfID ∧ update.member.status = .suspect ∧
      update.member.incarnation = current.incarnation ∧
      current.status.severity ≤ Status.suspect.severity := by
    simpa [suspectsSelf] using hself
  exact ⟨hval.members_key hmemb, hself.1, hself.2.2.1⟩

lemma version_lt_refutation (hsame : m.incarnation = current.incarnation)
    (hleft : current.incarnation ≠ BitVec.allOnes 64) : m.version < (refutation current).version := by
  rw [Member.version_lt, hsame]
  left
  show current.incarnation < current.incarnation + 1
  have hlast : current.incarnation.toNat ≠ 2 ^ 64 - 1 := fun h =>
    hleft (BitVec.eq_of_toNat_eq (h.trans BitVec.toNat_allOnes.symm))
  bv_omega

lemma refute_learnt (hval : e.table.Valid) (hupd : validUpdate update = true)
    (hself : e.suspectedSelf update = some current) (hleft : current.incarnation ≠ BitVec.allOnes 64) :
    Learnt e.table (e.refute current).1.table [update.member, refutation current] := by
  obtain ⟨hnode, hid, hsame⟩ := suspectedSelf_spec hval hself
  have hzero : update.member.nodeID ≠ 0 := by
    simp only [validUpdate, decide_eq_true_eq] at hupd
    exact hupd.1
  have hraised : Raised e.table (e.table.merge ⟨refutation current, e.config.selfID⟩).1
      (refutation current) :=
    hval.merge_raised (fun h => hzero (hnode.symm.trans h)) fun h => hzero (hnode.symm.trans (hid.trans h))
  -- the suspicion itself is below the refutation
  have hboth : ∀ {t' : Table}, Raised e.table t' (refutation current) →
      Learnt e.table t' [update.member, refutation current] := by
    intro t' h
    refine ⟨h.valid, fun n => ?_⟩
    have hle : weight update.member n ≤ weight (refutation current) n := by
      unfold weight
      rw [show (refutation current).nodeID = update.member.nodeID from hnode]
      split
      · exact WithBot.coe_le_coe.mpr (version_lt_refutation hsame hleft).le
      · exact le_refl _
    rw [h.effective, greatest_cons, greatest_cons, greatest_nil, max_eq_left bot_le, max_eq_right hle]
  unfold refute
  rw [if_neg hleft]
  simp only
  split
  · rename_i t' event hmerge
    rw [hmerge, merge_refused hmerge] at hraised
    exact hboth hraised
  rename_i t' event hmerge
  rw [hmerge] at hraised
  exact hboth hraised

lemma applyUpdate_learnt (hval : e.table.Valid) (update : Update) (now : Time) :
    Learnt e.table (e.applyUpdate update now).1.table (e.brought update) := by
  unfold applyUpdate brought
  by_cases hupd : validUpdate update = false
  · rw [if_pos hupd, if_pos hupd]
    exact Learnt.nothing hval
  rw [if_neg hupd, if_neg hupd]
  have hupd : validUpdate update = true := by simpa using hupd
  cases hself : e.suspectedSelf update with
  | none => exact mergeUpdate_learnt hval hupd now
  | some current =>
    simp only
    split
    · rename_i hlast
      rw [refute, if_pos hlast]
      exact Learnt.nothing hval
    rename_i hleft
    exact refute_learnt hval hupd hself hleft

/-- A floor that is refused changes nothing. -/
lemma mergeIncarnationFloor_refused {floor : Member} {reporterID : NodeID}
    (h : t.mergeIncarnationFloor floor reporterID = (t', false, event)) : t' = t := by
  unfold mergeIncarnationFloor surfaceFloor at h
  grind [merge_refused]

lemma applyIncarnationFloor_table (e : Engine) (floor : Member) (reporterID : NodeID) (now : Time) :
    (e.applyIncarnationFloor floor reporterID now).1.table =
      (e.table.mergeIncarnationFloor floor reporterID).1 := by
  unfold applyIncarnationFloor
  split
  · rename_i t' event hmerge
    rw [hmerge]
    exact (mergeIncarnationFloor_refused hmerge).symm
  rename_i t' event hmerge
  rw [hmerge]
  simp only
  split <;> rfl

lemma step_learnt (hval : e.table.Valid) (input : Input) :
    Learnt e.table (e.step input).table (e.applied input) := by
  cases input with
  | update update now => exact applyUpdate_learnt hval update now
  | floor floor reporterID now =>
    show Learnt e.table (e.applyIncarnationFloor floor reporterID now).1.table _
    rw [applyIncarnationFloor_table]
    unfold applied
    simp only
    split
    · rename_i hill
      rw [mergeIncarnationFloor, if_pos hill]
      exact Learnt.nothing hval
    rename_i hwell
    obtain ⟨hnode, hincarn, hrptr, htermnl⟩ : floor.nodeID ≠ 0 ∧ floor.incarnation ≠ 0 ∧
        reporterID ≠ 0 ∧ floor.status.terminal = true := by
      simpa only [not_or, Bool.not_eq_false] using hwell
    exact Learnt.of_raised (hval.mergeIncarnationFloor_raised hnode hincarn hrptr htermnl)
  | suspicionTimeout nodeID incarnation now =>
    show Learnt e.table (e.handleSuspicionTimeout nodeID incarnation now).1.table _
    unfold handleSuspicionTimeout applied
    cases hsusp : e.suspicions.find? nodeID with
    | none =>
      simp only [hsusp]
      exact Learnt.nothing hval
    | some =>
      simp only [hsusp]
      split
      · exact Learnt.nothing hval
      cases hoverdue : e.overdue nodeID incarnation with
      | none => exact Learnt.nothing hval
      | some => exact applyUpdate_learnt (e := { e with suspicions := e.suspicions.erase nodeID }) hval _ now
  | tombstoneTimeout nodeID incarnation status now =>
    show Learnt e.table (e.expireTombstone nodeID incarnation status now).1.table []
    unfold expireTombstone
    split
    · exact Learnt.nothing hval
    split
    · exact Learnt.nothing hval
    simp only
    split
    · exact Learnt.nothing hval
    split
    · exact Learnt.nothing hval
    · exact Learnt.of_kept (hval.expireTerminal_kept _)
  | expire member => exact Learnt.of_kept (hval.expireTerminal_kept member)

/-! ## Whole runs -/

lemma run_learnt (inputs : List Input) (hval : e.table.Valid) :
    Learnt e.table (e.run inputs).table (e.everything inputs) := by
  induction inputs generalizing e with
  | nil => exact Learnt.nothing hval
  | cons input _ ih =>
    have hstep := step_learnt hval input
    exact hstep.trans (ih hstep.valid)

/-- Whatever reaches a node, in whatever order: it knows of each node the greatest version applied, a
visible record is not below the floor, and after a terminal record the node is not shown as alive or
suspected up to that incarnation. -/
theorem known_is_greatest (config : EngineConfig) (inputs : List Input) (n : NodeID) :
    ((new config).run inputs).table.effective n = greatest ((new config).everything inputs) n ∧
      (∀ m, ((new config).run inputs).table.members.find? n = some m →
        versionOf (((new config).run inputs).table.floors.find? n) ≤ m.version) ∧
      ∀ terminal ∈ (new config).everything inputs, terminal.nodeID = n → terminal.status.terminal = true →
        ∀ m, ((new config).run inputs).table.members.find? n = some m → m.status.terminal = false →
          terminal.incarnation < m.incarnation := by
  have hrun := run_learnt (e := new config) inputs Table.Valid.new
  have hgreat : ((new config).run inputs).table.effective n = greatest ((new config).everything inputs) n := by
    rw [hrun.effective]
    exact max_eq_right bot_le
  refine ⟨hgreat, fun m hm => hrun.valid.floor_le hm, ?_⟩
  intro terminal happd hnode htermnl m hm hlive
  refine Member.incarnation_lt ?_ htermnl hlive
  -- the visible record is all that is known, and that is at least the terminal record
  have hvisible : ((new config).run inputs).table.effective n = m.version := by
    rw [effective, hm, versionOf_some]
    exact max_eq_left (hrun.valid.floor_le hm)
  rw [← WithBot.coe_le_coe, ← hvisible, hgreat, ← hnode]
  exact le_greatest happd

/-- The records of the updates and floors that are given. -/
def given : Input → List Member
  | .update update _ => [update.member]
  | .floor floor _ _ => [floor]
  | _ => []

def sampleConfig : EngineConfig := ⟨1, 1000000000, 5⟩

def sampleUpdate (nodeID : NodeID) (incarnation : BitVec 64) (status : Status) : Input :=
  .update ⟨⟨nodeID, "localhost", 7000, incarnation, status⟩, 3⟩ 0

/-- Node 2 is told to be alive, then dead, and comes back in its next incarnation. -/
def rejoined : List Input := [sampleUpdate 2 1 .alive, sampleUpdate 2 1 .dead, sampleUpdate 2 2 .alive]

theorem known_is_greatest_rejoined : ((new sampleConfig).run rejoined).table.effective 2 = toLex (2, 0) ∧
      ∃ dead ∈ (new sampleConfig).everything rejoined,
        ∃ m, ((new sampleConfig).run rejoined).table.members.find? 2 = some m ∧
          dead.incarnation < m.incarnation := by
  have hknw := known_is_greatest sampleConfig rejoined 2
  refine ⟨hknw.1.trans (by decide), ⟨2, "localhost", 7000, 1, .dead⟩, by decide,
    ⟨2, "localhost", 7000, 2, .alive⟩, by decide, ?_⟩
  exact hknw.2.2 ⟨2, "localhost", 7000, 1, .dead⟩ (by decide) rfl rfl
    ⟨2, "localhost", 7000, 2, .alive⟩ (by decide) rfl

/-- This node is told to be alive and then suspected, of one incarnation. -/
def suspected (incarnation : BitVec 64) : List Input :=
  [sampleUpdate 1 incarnation .alive, sampleUpdate 1 incarnation .suspect]

/-- A node that is suspected refutes it, and so knows more than it was given; suspected of the last
incarnation it can only drop the suspicion, and knows less. -/
theorem known_is_not_greatest_given :
    greatest ((suspected 1).flatMap given) 1 < ((new sampleConfig).run (suspected 1)).table.effective 1 ∧
      ((new sampleConfig).run (suspected (BitVec.allOnes 64))).table.effective 1 <
        greatest ((suspected (BitVec.allOnes 64)).flatMap given) 1 := by
  decide

end Engine

end Crane.Swim
