import Crane.Program.Ensures
import Crane.Worker.Work
import Mathlib.Logic.Relation

/-!
# The admission gate of a process

`admission/gate.go` and the parties that drive the one gate of a node: the worker's control owner,
which closes it for a fence and opens it for a `Running` install (`handleFence`, `handleAssignment`),
the coordinator actor, whose leader loop opens it and which closes it when a session stops (`Run`,
`runLeader`), and everyone who enters and leaves.

A call of the gate under its lock is one step. `CloseAndWait` is two: it closes, and it returns once the
entrants it found have left, so that other parties come in between. A worker handles one control
request at a time. What a request does besides (the assignment that is installed, the sessions that are
closed) does not touch the gate and is left out.

The gate remembers the epoch that was open when it was closed, whoever closed it. The result is when
that retires an epoch on behalf of an older coordinator session.
-/

namespace Crane.Worker

open Wire Data Model Program Option

variable {epoch : CoordinatorEpoch}

/-! ## The gate -/

inductive GateError where
  | closed
  | staleEpoch
  | invalidEpoch
  deriving DecidableEq

/-- `drained` is the channel the last entrant closes; `channels` counts those made so far. -/
structure Gate where
  isOpen : Bool
  epoch : CoordinatorEpoch
  closedThrough : CoordinatorEpoch
  active : Nat
  drained : Option Nat
  channels : Nat
  deriving DecidableEq

def newGate : Gate := ⟨false, .zero, .zero, 0, none, 0⟩

abbrev compareEpoch : CoordinatorEpoch → CoordinatorEpoch → Ordering := compareEpochOrder

abbrev compareControlEpoch : CoordinatorEpoch → CoordinatorEpoch → Ordering := compareEpochOrder

/-- `Open`. -/
def Gate.openEpoch (gate : Gate) (epoch : CoordinatorEpoch) : Except GateError Gate :=
  if epoch.validate = false then .error .invalidEpoch
  else if gate.isOpen = true ∧ epoch = gate.epoch then .ok gate
  else if gate.active ≠ 0 then .error .closed
  else if gate.isOpen = true ∨ gate.closedThrough ≠ .zero then
    let floor := if gate.isOpen then gate.epoch else gate.closedThrough
    if compareEpoch epoch floor ≠ .gt then .error .staleEpoch
    else .ok { gate with isOpen := true, epoch }
  else .ok { gate with isOpen := true, epoch }

def Gate.enter (gate : Gate) : Except GateError Gate :=
  if gate.isOpen = false then .error .closed
  else if gate.active = 0 then
    .ok { gate with active := 1, drained := some gate.channels, channels := gate.channels + 1 }
  else .ok { gate with active := gate.active + 1 }

/-- The function that `Enter` returns. -/
def Gate.release (gate : Gate) : Gate :=
  { gate with
    active := gate.active - 1
    drained := if gate.active - 1 = 0 then none else gate.drained }

/-- `CloseAndWait` up to where it waits, with the channel it waits on. -/
def Gate.closeAndWait (gate : Gate) : Gate × Option Nat :=
  let shut := if gate.isOpen then { gate with closedThrough := gate.epoch, isOpen := false } else gate
  (shut, if gate.active = 0 then none else gate.drained)

/-- A channel other than the gate's own one has been closed. -/
def Gate.hasDrained (gate : Gate) (channel : Option Nat) : Bool := channel = none ∨ gate.drained ≠ channel

/-! ## The process -/

/-- Where `stopSession` is with a session. -/
inductive SessionPhase where
  | leading
  | closing (channel : Option Nat)
  | canceled
  deriving DecidableEq

/-- A leader session; it has an epoch once `establishEpoch` has returned one. -/
structure LeaderSession where
  term : U64
  epoch : Option CoordinatorEpoch
  phase : SessionPhase
  done : Bool
  deriving DecidableEq

/-- `handling` is the fence request that waits for the gate to drain, `established` the last epoch a
    session of this node was given. -/
structure Process where
  gate : Gate
  fence : CoordinatorEpoch
  handling : Option (CoordinatorEpoch × Option Nat)
  session : Option LeaderSession
  established : CoordinatorEpoch
  deriving DecidableEq

def Process.start : Process := ⟨newGate, .zero, none, none, .zero⟩

inductive GateEvent where
  | enter
  | release
  | fenceRequest (peer : U16) (epoch : CoordinatorEpoch)
  | fenceDrained
  | fenceAbandoned
  | runningInstall (peer : U16) (epoch : CoordinatorEpoch)
  | startLeaderSession (term : U64)
  | establishEpoch (epoch : CoordinatorEpoch)
  | leaderOpens
  | leaderDone
  | stopSession
  | cancelSession
  | joinSession
  /-- A service or the runtime shuts down. -/
  | shutDown
  /-- A new process over the same store. -/
  | restart
  deriving DecidableEq

section Steps

variable (voter : U16 → Bool)

def authorizeCoordinator (peer : U16) (epoch : CoordinatorEpoch) : Bool :=
  voter peer && epoch.validate && epoch.coordinator = peer

/-- What `handleFence` says of a request before it closes the gate and again after: whether it goes on. -/
def fenceAdvances (fence request : CoordinatorEpoch) : Bool :=
  fence = .zero ∨ compareControlEpoch request fence = .gt

/-- The gate after `Open`, which leaves it alone when it refuses. -/
def Gate.afterOpen (gate : Gate) (epoch : CoordinatorEpoch) : Gate :=
  match gate.openEpoch epoch with
  | .ok opened => opened
  | .error _ => gate

/-- What an event makes of the process; nothing, where it cannot happen. -/
def Process.step (process : Process) : GateEvent → Option Process
  | .enter =>
    match process.gate.enter with
    | .ok gate => some { process with gate }
    | .error _ => some process
  | .release => if process.gate.active = 0 then none else some { process with gate := process.gate.release }
  | .fenceRequest peer epoch =>
    if process.handling ≠ none then none
    else if authorizeCoordinator voter peer epoch = false ∨ fenceAdvances process.fence epoch = false then
      some process
    else
      let (gate, channel) := process.gate.closeAndWait
      some { process with gate, handling := some (epoch, channel) }
  | .fenceDrained =>
    match process.handling with
    | none => none
    | some (epoch, channel) =>
      if process.gate.hasDrained channel = false then none
      else if fenceAdvances process.fence epoch = false then some { process with handling := none }
      else some { process with fence := epoch, handling := none }
  | .fenceAbandoned => if process.handling = none then none else some { process with handling := none }
  | .runningInstall peer epoch =>
    if process.handling ≠ none then none
    else if authorizeCoordinator voter peer epoch = false ∨ process.fence = .zero ∨ epoch ≠ process.fence then
      some process
    else some { process with gate := process.gate.afterOpen epoch }
  | .startLeaderSession term =>
    if process.session ≠ none then none
    else some { process with session := some ⟨term, none, .leading, false⟩ }
  | .establishEpoch epoch =>
    match process.session with
    | none => none
    | some session =>
      -- the epoch is that of a command that was applied after every one before it
      if session.done = true ∨ session.epoch ≠ none ∨ epoch.validate = false ∨
          (process.established ≠ .zero ∧ compareEpoch epoch process.established ≠ .gt) then none
      else some { process with session := some { session with epoch := some epoch }, established := epoch }
  | .leaderOpens =>
    match process.session with
    | none => none
    | some session =>
      match session.epoch with
      | none => none
      | some epoch => if session.done then none else some { process with gate := process.gate.afterOpen epoch }
  | .leaderDone =>
    process.session.map fun session => { process with session := some { session with done := true } }
  | .stopSession =>
    match process.session with
    | none => none
    | some session =>
      if session.phase ≠ .leading then none
      else
        let (gate, channel) := process.gate.closeAndWait
        some { process with gate, session := some { session with phase := .closing channel } }
  | .cancelSession =>
    match process.session with
    | none => none
    | some session =>
      match session.phase with
      | .closing channel =>
        if process.gate.hasDrained channel = false then none
        else some { process with session := some { session with phase := .canceled } }
      | _ => none
  | .joinSession =>
    match process.session with
    | none => none
    | some session =>
      if session.phase ≠ .canceled ∨ session.done = false then none
      else some { process with session := none }
  | .shutDown => some { process with gate := process.gate.closeAndWait.1 }
  | .restart => some { process with gate := newGate, handling := none, session := none }

def Process.Steps (process process' : Process) : Prop := ∃ event, process.step voter event = some process'

abbrev Process.Reaches : Process → Process → Prop := Relation.ReflTransGen (Process.Steps voter)

end Steps

/-! ## Epochs -/

open Gate

lemma not_newer_self (epoch : CoordinatorEpoch) : compareEpochOrder epoch epoch ≠ .gt := by
  rw [Ne, compareEpochOrder_eq_gt]
  intro h
  cases h with
  | inl hterm => exact absurd hterm (Nat.lt_irrefl _)
  | inr hidx => exact absurd hidx.2 (Nat.lt_irrefl _)

/-- A valid epoch has a term. -/
lemma newer_than_zero (hval : epoch.validate = true) : compareEpochOrder epoch .zero = .gt := by
  rw [compareEpochOrder_eq_gt]
  left
  have hterm : epoch.term ≠ 0 := (CoordinatorEpoch.validate_iff.mp hval).1.1.1
  exact Nat.pos_of_ne_zero fun hzero => hterm (BitVec.eq_of_toNat_eq hzero)

lemma ne_zero_of_validate (hval : epoch.validate = true) : epoch ≠ .zero := by
  intro hzero
  rw [hzero] at hval
  cases hval

lemma FencedBy.trans {a b c : CoordinatorEpoch} (hab : FencedBy a b) (hbc : FencedBy b c) : FencedBy a c := by
  cases hab with
  | inl heq => rw [heq]; exact hbc
  | inr hgt =>
    cases hbc with
    | inl heq => rw [← heq]; exact .inr hgt
    | inr hgt' => exact .inr (compareEpochOrder_trans hgt hgt')

lemma newer_of_fenceAdvances {fence request : CoordinatorEpoch} (hval : request.validate = true)
    (h : fenceAdvances fence request = true) : compareEpochOrder request fence = .gt := by
  rw [fenceAdvances, decide_eq_true_iff] at h
  cases h with
  | inl hzero => rw [hzero]; exact newer_than_zero hval
  | inr hgt => exact hgt

/-! ## Which epochs the gate has retired -/

/-- `Open` refuses the epoch as stale, as soon as nobody is inside. -/
def Gate.Retired (gate : Gate) (epoch : CoordinatorEpoch) : Prop :=
  { gate with active := 0 }.openEpoch epoch = .error .staleEpoch

/-- The epoch is not above the one the gate is open under, or above those it was closed through. -/
def Gate.Below (gate : Gate) (epoch : CoordinatorEpoch) : Prop :=
  (gate.isOpen = true ∧ epoch ≠ gate.epoch ∧ compareEpochOrder epoch gate.epoch ≠ .gt) ∨
    (gate.isOpen = false ∧ gate.closedThrough ≠ .zero ∧ compareEpochOrder epoch gate.closedThrough ≠ .gt)

lemma Gate.openEpoch_stale_iff {gate : Gate} : gate.openEpoch epoch = .error .staleEpoch ↔
      gate.active = 0 ∧ epoch.validate = true ∧ gate.Below epoch := by
  unfold openEpoch Gate.Below compareEpoch
  cases hval : epoch.validate with
  | false => simp
  | true =>
    by_cases hact : gate.active = 0
    · cases hopen : gate.isOpen with
      | true =>
        by_cases heq : epoch = gate.epoch
        · simp [heq]
        by_cases hgt : compareEpochOrder epoch gate.epoch = .gt
        · simp [heq, hgt, hact]
        · simp [heq, hgt, hact]
      | false =>
        by_cases hzero : gate.closedThrough = .zero
        · simp [hzero, hact]
        by_cases hgt : compareEpochOrder epoch gate.closedThrough = .gt
        · simp [hzero, hgt, hact]
        · simp [hzero, hgt, hact]
    by_cases hsame : gate.isOpen = true ∧ epoch = gate.epoch
    · simp [hsame, hact]
    · simp [hsame, hact]

lemma Gate.retired_iff {gate : Gate} : gate.Retired epoch ↔ epoch.validate = true ∧ gate.Below epoch := by
  rw [Gate.Retired, openEpoch_stale_iff]
  exact and_iff_right rfl

/-- Closing retires the epoch the gate is open under, and no other. -/
lemma Gate.retired_closeAndWait {gate : Gate} : gate.closeAndWait.1.Retired epoch ↔
      gate.Retired epoch ∨ (epoch.validate = true ∧ gate.isOpen = true ∧ epoch = gate.epoch) := by
  rw [retired_iff, retired_iff, closeAndWait]
  cases hopen : gate.isOpen with
  | false => simp
  | true =>
    simp only [Gate.Below, hopen, ↓reduceIte, Bool.false_eq_true, false_and, false_or, true_and,
      Bool.true_eq_false, or_false]
    constructor
    · intro h
      obtain ⟨hval, -, hnot⟩ := h
      by_cases heq : epoch = gate.epoch
      · exact .inr ⟨hval, heq⟩
      · exact .inl ⟨hval, heq, hnot⟩
    intro h
    cases h with
    | inl hretired =>
      obtain ⟨hval, -, hnot⟩ := hretired
      refine ⟨hval, ?_, hnot⟩
      intro hzero
      rw [hzero] at hnot
      exact hnot (newer_than_zero hval)
    | inr hequal =>
      obtain ⟨hval, heq⟩ := hequal
      rw [← heq]
      exact ⟨hval, ne_zero_of_validate hval, not_newer_self epoch⟩

lemma Gate.retired_release {gate : Gate} : gate.release.Retired epoch ↔ gate.Retired epoch := by
  rw [retired_iff, retired_iff]
  exact Iff.rfl

/-! ## What holds in every process -/

/-- The gate is open under an epoch that the worker was fenced to or that a session of this node was
    given. -/
structure Process.Sound (process : Process) : Prop where
  opened : process.gate.isOpen = true → process.gate.epoch.validate = true ∧
    (FencedBy process.fence process.gate.epoch ∨ FencedBy process.established process.gate.epoch)
  handled : ∀ epoch channel, process.handling = some (epoch, channel) → epoch.validate = true
  session : ∀ session epoch, process.session = some session → session.epoch = some epoch →
    epoch.validate = true ∧ process.established = epoch

lemma Gate.afterOpen_eq (gate : Gate) (epoch : CoordinatorEpoch) : gate.afterOpen epoch = gate ∨
      (epoch.validate = true ∧ gate.afterOpen epoch = { gate with isOpen := true, epoch }) := by
  unfold afterOpen
  cases hopen : gate.openEpoch epoch with
  | error => exact .inl rfl
  | ok opened =>
    unfold openEpoch at hopen
    simp only at hopen
    split at hopen
    · cases hopen
    rename_i hval
    rw [Bool.not_eq_false] at hval
    split at hopen
    · cases hopen; exact .inl rfl
    split at hopen
    · cases hopen
    split at hopen
    · rw [ite_error_eq_ok] at hopen
      cases hopen.2
      exact .inr ⟨hval, rfl⟩
    cases hopen
    exact .inr ⟨hval, rfl⟩

namespace Process.Sound

variable {process : Process}

/-- An opening for the worker's fence or for an epoch this node was given. -/
lemma afterOpen (h : process.Sound) (hep : process.fence = epoch ∨ process.established = epoch) :
    Process.Sound { process with gate := process.gate.afterOpen epoch } := by
  refine ⟨?_, h.handled, h.session⟩
  intro hopen
  cases process.gate.afterOpen_eq epoch with
  | inl hsame =>
    simp only [hsame] at hopen ⊢
    exact h.opened hopen
  | inr hopn =>
    simp only [hopn.2]
    exact ⟨hopn.1, hep.imp .inl .inl⟩

lemma closeAndWait (h : process.Sound) : Process.Sound { process with gate := process.gate.closeAndWait.1 } := by
  refine ⟨?_, h.handled, h.session⟩
  intro hopen
  exfalso
  simp only [Gate.closeAndWait] at hopen
  split at hopen
  · cases hopen
  rename_i hcls
  exact hcls hopen

/-- Who is inside is of no account. -/
lemma withGate (h : process.Sound) {gate : Gate} (hopen : gate.isOpen = process.gate.isOpen)
    (hep : gate.epoch = process.gate.epoch) : Process.Sound { process with gate } := by
  refine ⟨?_, h.handled, h.session⟩
  simp only [hopen, hep]
  exact h.opened

end Process.Sound

section Runs

variable {voter : U16 → Bool} {process process' : Process}

/-- Every step keeps the process sound and never takes the worker's fence back. -/
lemma Process.Sound.step (h : process.Sound) {event : GateEvent}
    (hstep : process.step voter event = some process') :
    process'.Sound ∧ FencedBy process'.fence process.fence := by
  cases event with
  | enter =>
    simp only [Process.step, enter] at hstep
    split at hstep
    · rename_i gate hgate
      cases hstep
      rw [ite_error_eq_ok] at hgate
      refine ⟨?_, .inl rfl⟩
      split at hgate
      · cases hgate.2
        exact h.withGate rfl rfl
      cases hgate.2
      exact h.withGate rfl rfl
    cases hstep
    exact ⟨h, .inl rfl⟩
  | release =>
    simp only [Process.step, ite_none_left_eq_some] at hstep
    cases hstep.2
    exact ⟨h.withGate rfl rfl, .inl rfl⟩
  | fenceRequest peer epoch =>
    simp only [Process.step, ite_none_left_eq_some] at hstep
    obtain ⟨-, hstep⟩ := hstep
    split at hstep
    · cases hstep
      exact ⟨h, .inl rfl⟩
    rename_i hgoes
    cases hstep
    rw [not_or, Bool.not_eq_false, authorizeCoordinator] at hgoes
    simp only [Bool.and_eq_true] at hgoes
    refine ⟨⟨h.closeAndWait.opened, ?_, h.session⟩, .inl rfl⟩
    intro handled channel hhndl
    cases hhndl
    exact hgoes.1.1.2
  | fenceDrained =>
    simp only [Process.step] at hstep
    split at hstep
    · cases hstep
    rename_i epoch channel hhandl
    rw [ite_none_left_eq_some] at hstep
    obtain ⟨-, hstep⟩ := hstep
    split at hstep
    · cases hstep
      exact ⟨⟨h.opened, fun _ _ h => (by cases h), h.session⟩, .inl rfl⟩
    rename_i hadvan
    cases hstep
    rw [Bool.not_eq_false] at hadvan
    -- the fence rises, so it stays at or above the epoch the gate is open under
    have hrises : FencedBy epoch process.fence :=
      .inr (newer_of_fenceAdvances (h.handled epoch channel hhandl) hadvan)
    refine ⟨⟨?_, fun _ _ h => (by cases h), h.session⟩, hrises⟩
    intro hopen
    obtain ⟨hval, hfnd⟩ := h.opened hopen
    exact ⟨hval, hfnd.imp_left hrises.trans⟩
  | fenceAbandoned =>
    simp only [Process.step, ite_none_left_eq_some] at hstep
    cases hstep.2
    exact ⟨⟨h.opened, fun _ _ h => (by cases h), h.session⟩, .inl rfl⟩
  | runningInstall peer epoch =>
    simp only [Process.step, ite_none_left_eq_some] at hstep
    obtain ⟨-, hstep⟩ := hstep
    split at hstep
    · cases hstep
      exact ⟨h, .inl rfl⟩
    rename_i hcur
    cases hstep
    rw [not_or, not_or, not_not] at hcur
    exact ⟨h.afterOpen (.inl hcur.2.2.symm), .inl rfl⟩
  | startLeaderSession =>
    simp only [Process.step, ite_none_left_eq_some] at hstep
    cases hstep.2
    refine ⟨⟨h.opened, h.handled, ?_⟩, .inl rfl⟩
    intro session epoch hsess hep
    cases hsess
    cases hep
  | establishEpoch epoch =>
    simp only [Process.step] at hstep
    split at hstep
    · cases hstep
    simp only [ite_none_left_eq_some, not_or, Bool.not_eq_false] at hstep
    obtain ⟨⟨-, -, hval, hnwr⟩, hstep⟩ := hstep
    cases hstep
    have hrises : FencedBy epoch process.established := by
      right
      by_cases hzero : process.established = .zero
      · rw [hzero]; exact newer_than_zero hval
      · by_contra hnot; exact hnwr ⟨hzero, hnot⟩
    refine ⟨⟨?_, h.handled, ?_⟩, .inl rfl⟩
    · intro hopen
      obtain ⟨hopn, hfnd⟩ := h.opened hopen
      exact ⟨hopn, hfnd.imp_right hrises.trans⟩
    intro given epoch' hgiven hep
    cases hgiven
    cases hep
    exact ⟨hval, rfl⟩
  | leaderOpens =>
    simp only [Process.step] at hstep
    split at hstep
    · cases hstep
    rename_i session hsess
    split at hstep
    · cases hstep
    rename_i epoch hep
    rw [ite_none_left_eq_some] at hstep
    cases hstep.2
    exact ⟨h.afterOpen (.inr (h.session session epoch hsess hep).2), .inl rfl⟩
  | leaderDone =>
    simp only [Process.step, map_eq_some_iff] at hstep
    obtain ⟨session, hsess, hstep⟩ := hstep
    cases hstep
    refine ⟨⟨h.opened, h.handled, ?_⟩, .inl rfl⟩
    intro given epoch hgiven hep
    cases hgiven
    exact h.session session epoch hsess hep
  | stopSession =>
    simp only [Process.step] at hstep
    split at hstep
    · cases hstep
    rename_i session hsess
    rw [ite_none_left_eq_some] at hstep
    cases hstep.2
    refine ⟨⟨h.closeAndWait.opened, h.handled, ?_⟩, .inl rfl⟩
    intro given epoch hgiven hep
    cases hgiven
    exact h.session session epoch hsess hep
  | cancelSession =>
    simp only [Process.step] at hstep
    split at hstep
    · cases hstep
    rename_i session hsess
    split at hstep
    · rw [ite_none_left_eq_some] at hstep
      cases hstep.2
      refine ⟨⟨h.opened, h.handled, ?_⟩, .inl rfl⟩
      intro given epoch hgiven hep
      cases hgiven
      exact h.session session epoch hsess hep
    · cases hstep
  | joinSession =>
    simp only [Process.step] at hstep
    split at hstep
    · cases hstep
    rw [ite_none_left_eq_some] at hstep
    cases hstep.2
    exact ⟨⟨h.opened, h.handled, fun _ _ h => by cases h⟩, .inl rfl⟩
  | shutDown =>
    cases hstep
    exact ⟨h.closeAndWait, .inl rfl⟩
  | restart =>
    cases hstep
    refine ⟨⟨?_, fun _ _ h => (by cases h), fun _ _ h => by cases h⟩, .inl rfl⟩
    intro hopen
    cases hopen

lemma Process.Sound.start : Process.start.Sound := by
  refine ⟨?_, nofun, nofun⟩
  intro hopen
  cases hopen

lemma Process.Sound.reaches (h : process.Sound) (hruns : process.Reaches voter process') :
    process'.Sound ∧ FencedBy process'.fence process.fence := by
  induction hruns with
  | refl => exact ⟨h, .inl rfl⟩
  | tail _ hstep ih =>
    obtain ⟨event, hstep⟩ := hstep
    obtain ⟨hsnd, hfnd⟩ := ih.1.step hstep
    exact ⟨hsnd, hfnd.trans ih.2⟩

/-- However the parties interleave, the gate is open only under an epoch that the worker was fenced to or a
    session of this node was given, and the fence never goes back. -/
theorem gate_open_known (hruns : Process.start.Reaches voter process)
    (hlater : process.Reaches voter process') : process.Sound ∧ FencedBy process'.fence process.fence := by
  obtain ⟨hsnd, -⟩ := Process.Sound.start.reaches hruns
  exact ⟨hsnd, (hsnd.reaches hlater).2⟩

/-- The gate changes its channel only where it is empty, and has one while it is not. -/
lemma Process.step_drained {event : GateEvent} (hstep : process.step voter event = some process') :
    (process'.gate.drained = process.gate.drained ∨ process.gate.active = 0 ∨ process'.gate.active = 0) ∧
      ((process.gate.drained = none → process.gate.active = 0) →
        process'.gate.drained = none → process'.gate.active = 0) := by
  cases event <;> simp only [Process.step, map_eq_some_iff] at hstep
  all_goals grind [enter, release, newGate, closeAndWait, afterOpen_eq]

/-- A wait is over only after a moment, not before it began, at which nobody was inside. -/
theorem wait_ends_empty (hruns : Process.start.Reaches voter process) (hlater : process.Reaches voter process')
    (hdrained : process'.gate.hasDrained process.gate.closeAndWait.2 = true) :
    ∃ empty, process.Reaches voter empty ∧ empty.Reaches voter process' ∧ empty.gate.active = 0 := by
  have hchannel : process.gate.drained = none → process.gate.active = 0 := by
    clear hlater hdrained
    induction hruns with
    | refl => exact fun _ => rfl
    | tail _ hstep ih =>
      obtain ⟨event, hstep⟩ := hstep
      exact (Process.step_drained hstep).2 ih
  by_contra hnone
  push Not at hnone
  -- while it was never empty, the gate kept the channel
  have hkept : process'.gate.drained = process.gate.drained := by
    clear hdrained
    induction hlater with
    | refl => rfl
    | tail hrun hstep ih =>
      obtain hsame | hempty | hempty := (Process.step_drained hstep.choose_spec).1
      · exact hsame.trans (ih fun empty hto hfrom => hnone empty hto (hfrom.tail hstep))
      · exact absurd hempty (hnone _ hrun (.single hstep))
      · exact absurd hempty (hnone _ (hrun.tail hstep) .refl)
  have hactive := hnone process .refl hlater
  simp [hasDrained, closeAndWait, hactive, hkept] at hdrained
  exact hactive (hchannel hdrained)

/-- The process after a list of events. -/
def Process.follow (voter : U16 → Bool) (process : Process) : List GateEvent → Option Process
  | [] => some process
  | event :: events => process.step voter event >>= fun next => next.follow voter events

lemma Process.reaches_of_follow {events : List GateEvent}
    (h : process.follow voter events = some process') : process.Reaches voter process' := by
  induction events generalizing process with
  | nil =>
    cases h
    exact .refl
  | cons event _ ih =>
    rw [Process.follow, bind_eq_bind, bind_eq_some_iff] at h
    obtain ⟨next, hstep, hrest⟩ := h
    exact .head ⟨event, hstep⟩ (ih hrest)

/-! ## What a session's end retires -/

/-- From here on to there, every process has the epoch retired. -/
def Process.Withholds (voter : U16 → Bool) (epoch : CoordinatorEpoch) (process process' : Process) : Prop :=
  process.gate.Retired epoch ∧
    Relation.ReflTransGen (fun before after => before.Steps voter after ∧ after.gate.Retired epoch)
      process process'

section

variable (h : process.Withholds voter epoch process')

include h

lemma Process.Withholds.reaches : process.Reaches voter process' :=
  Relation.ReflTransGen.mono (fun _ _ hstep => hstep.1) _ _ h.2

lemma Process.Withholds.retired : process'.gate.Retired epoch := by
  obtain ⟨hfst, hruns⟩ := h
  cases hruns with
  | refl => exact hfst
  | tail _ hstep => exact hstep.2

/-- Whoever is inside can leave, and the epoch stays retired meanwhile. -/
lemma Process.Withholds.drains :
    ∃ empty, process.Withholds voter epoch empty ∧ empty.fence = process'.fence ∧ empty.gate.active = 0 := by
  generalize hact : process'.gate.active = inside
  induction inside generalizing process' with
  | zero => exact ⟨process', h, rfl, hact⟩
  | succ inside ih =>
    have hleaves : process'.Steps voter { process' with gate := process'.gate.release } := by
      refine ⟨.release, ?_⟩
      rw [Process.step, if_neg (by rw [hact]; exact Nat.succ_ne_zero inside)]
    have hretired := retired_release.mpr h.retired
    have hless : process'.gate.release.active = inside := by
      rw [release, hact]
      rfl
    obtain ⟨empty, hempty, hfen, hzero⟩ := ih ⟨h.1, h.2.tail ⟨hleaves, hretired⟩⟩ hless
    exact ⟨empty, hempty, hfen, hzero⟩

end

/-- The process after `stopSession`. -/
lemma Process.step_stopSession (hstop : process.step voter .stopSession = some process') :
    process'.gate = process.gate.closeAndWait.1 ∧ process'.fence = process.fence := by
  simp only [Process.step] at hstop
  split at hstop
  · cases hstop
  rw [ite_none_left_eq_some] at hstop
  cases hstop.2
  exact ⟨rfl, rfl⟩

end Runs

/-- A session of epoch `e` stops. There is no later fence of the worker, newer than `e`, for which
    `Open` fails as stale because of this close, exactly if the gate was not open under the worker's
    fence of that time with that newer than `e`. Because of this close is: the gate had not retired the
    epoch before it and has it retired from then on. -/
theorem close_spares_newer_fence_iff {voter : U16 → Bool} {process process' : Process}
    {session : LeaderSession} {e : CoordinatorEpoch} (hruns : Process.start.Reaches voter process)
    (hsession : process.session = some session) (hepoch : session.epoch = some e)
    (hstop : process.step voter .stopSession = some process') :
    (∀ later, process'.Withholds voter later.fence later → compareEpoch later.fence e = .gt →
      ¬ process.gate.Retired later.fence → later.gate.openEpoch later.fence ≠ .error .staleEpoch) ↔
    ¬ (process.gate.isOpen = true ∧ process.gate.epoch = process.fence ∧ compareEpoch process.fence e = .gt) := by
  have hsnd := (Process.Sound.start.reaches hruns).1
  obtain ⟨hgate, hfen⟩ := Process.step_stopSession hstop
  constructor
  · intro hspares hopen
    obtain ⟨hopen, hequal, hnwr⟩ := hopen
    obtain ⟨hval, -⟩ := hsnd.opened hopen
    rw [hequal] at hval
    -- the close itself retires the fence; then everybody leaves
    have hretired : process'.gate.Retired process.fence := by
      rw [hgate, retired_closeAndWait]
      exact .inr ⟨hval, hopen, hequal.symm⟩
    have hfrs : ¬ process.gate.Retired process.fence := by
      rw [retired_iff, Gate.Below, hopen, hequal]
      simp
    have hwithh : process'.Withholds voter process.fence process' := ⟨hretired, .refl⟩
    obtain ⟨empty, hempty, hsame, hzero⟩ := hwithh.drains
    rw [hfen] at hsame
    rw [← hsame] at hempty hnwr hfrs
    exact hspares empty hempty hnwr hfrs
      (openEpoch_stale_iff.mpr ⟨hzero, retired_iff.mp hempty.retired⟩)
  intro hnot later hwithh hnwr hfrs hstale
  apply hnot
  -- what the close retires is the epoch the gate was open under
  have hretired := hwithh.1
  rw [hgate, retired_closeAndWait] at hretired
  obtain ⟨-, hopen, hequal⟩ := hretired.resolve_left hfrs
  obtain ⟨hval, hfnd⟩ := hsnd.opened hopen
  have hsteps : process.Steps voter process' := ⟨.stopSession, hstop⟩
  have hrises : FencedBy later.fence process.fence := (hsnd.reaches (.head hsteps hwithh.reaches)).2
  rw [← hequal] at hfnd
  have hsame : later.fence = process.fence := by
    cases hfnd with
    | inl hbelow =>
      cases hbelow with
      | inl heq => exact heq.symm
      | inr hgt =>
        cases hrises with
        | inl heq => exact heq
        | inr hgt' => exact absurd (compareEpochOrder_trans hgt hgt') (not_newer_self _)
    | inr hgiven =>
      -- this node was given no epoch newer than the session's own
      rw [(hsnd.session session e hsession hepoch).2] at hgiven
      cases hgiven with
      | inl heq =>
        rw [← heq] at hnwr
        exact absurd hnwr (not_newer_self _)
      | inr hgt => exact absurd (compareEpochOrder_trans hgt hnwr) (not_newer_self _)
  rw [← hsame]
  exact ⟨hopen, hequal.symm, hnwr⟩

namespace Sample

/-- The epochs of two coordinators, one after the other. -/
def first : CoordinatorEpoch := ⟨1, 1, 1, 1⟩

def second : CoordinatorEpoch := ⟨2, 9, 2, 2⟩

/-- Node 1 leads under the first epoch, and its worker runs under it. -/
def leads : List GateEvent :=
  [.startLeaderSession 1, .establishEpoch first, .fenceRequest 1 first, .fenceDrained,
    .runningInstall 1 first, .leaderOpens]

/-- Node 2 takes the worker over, while node 1 has not noticed yet. -/
def takenOver : List GateEvent := [.fenceRequest 2 second, .fenceDrained, .runningInstall 2 second]

def leading : Process := ((Process.start.follow (fun _ => true) leads).getD .start)

def superseded : Process := ((Process.start.follow (fun _ => true) (leads ++ takenOver)).getD .start)

def session : LeaderSession := ⟨1, some first, .leading, false⟩

lemma leading_follow : Process.start.follow (fun _ => true) leads = some leading := by decide

lemma superseded_follow : Process.start.follow (fun _ => true) (leads ++ takenOver) = some superseded := by decide

end Sample

open Sample in
theorem gate_open_known_leading : leading.gate.isOpen = true ∧ leading.Sound ∧ FencedBy second leading.fence := by
  have hlater : leading.follow (fun _ => true) takenOver = some superseded := by decide
  exact ⟨by decide, gate_open_known (Process.reaches_of_follow leading_follow)
    (Process.reaches_of_follow hlater)⟩

open Sample in
theorem wait_ends_empty_entered : ∃ process process' : Process, process.gate.active = 1 ∧ ∃ empty,
    process.Reaches (fun _ => true) empty ∧ empty.Reaches (fun _ => true) process' ∧ empty.gate.active = 0 := by
  have hin : Process.start.follow (fun _ => true) (leads ++ [.enter]) =
    some { leading with gate := ⟨true, first, .zero, 1, some 0, 1⟩ } := by decide
  exact ⟨_, _, rfl, wait_ends_empty (Process.reaches_of_follow hin) (.single ⟨.release, rfl⟩) (by decide)⟩

open Sample in
/-- The first session stops before anyone else has come. -/
theorem close_spares_newer_fence_undisturbed : (∀ later, Process.Withholds (fun _ => true) later.fence
        { leading with
          gate := leading.gate.closeAndWait.1, session := some { session with phase := .closing none } }
        later →
      compareEpoch later.fence first = .gt → ¬ leading.gate.Retired later.fence →
      later.gate.openEpoch later.fence ≠ .error .staleEpoch) ↔
    ¬ (leading.gate.isOpen = true ∧ leading.gate.epoch = leading.fence ∧
      compareEpoch leading.fence first = .gt) := by
  have hsess : leading.session = some session := by decide
  have hstop : leading.step (fun _ => true) .stopSession = some { leading with
        gate := leading.gate.closeAndWait.1, session := some { session with phase := .closing none } } := by
    decide
  exact close_spares_newer_fence_iff (Process.reaches_of_follow leading_follow) hsess rfl hstop

open Sample in
/-- Node 1's session of the first epoch stops while the gate is open under the second, which the worker
    is fenced to: `Open` for the worker's fence worked before and is stale from then on. -/
theorem session_end_retires_newer_fence : ∃ process', Process.start.Reaches (fun _ => true) superseded ∧
      superseded.session = some session ∧ session.epoch = some first ∧
      superseded.step (fun _ => true) .stopSession = some process' ∧
      process'.fence = second ∧ compareEpoch second first = .gt ∧
      superseded.gate.openEpoch second = .ok superseded.gate ∧
      process'.Withholds (fun _ => true) second process' ∧
      process'.gate.openEpoch process'.fence = .error .staleEpoch := by
  refine ⟨{ superseded with
      gate := superseded.gate.closeAndWait.1, session := some { session with phase := .closing none } },
    Process.reaches_of_follow superseded_follow, by decide, rfl, by decide, by decide, by decide,
    by decide, ⟨?_, .refl⟩, ?_⟩
  · rw [Gate.Retired]
    decide
  · decide

end Crane.Worker
