import Crane.State.Effects

/-!
# What an entry of the log can do

The two engines, said once. `ClientOutcome` and `InternalOutcome` have a constructor for each way
an engine ends, with what it checked on the way there, and `Applies.outcome` says that an applied
entry is a decoded command with one of those outcomes. Everything about runs is by cases on them.
-/

namespace Crane.State

open Wire Data Model Machine Option

variable {target : Target} {history : SubjectHistory} {subject : SubjectKey} {plan : MutationPlan}
variable {expected : U64}

namespace Machine

/-- What is retained of a subject; empty for one that never took a command. -/
def retained (m : Machine) (subject : SubjectKey) : SubjectHistory := (m.subjects.find? subject).getD .zero

/-- The revision a command's expectation is compared with. -/
def standing (m : Machine) (target : Target) : U64 :=
  (target.authoritativeRevision m).getD (m.retained target.subject).revision

/-- The history a command continues. -/
def resumed (m : Machine) (target : Target) : SubjectHistory :=
  { m.retained target.subject with revision := m.standing target }

end Machine

/-! The three histories a command can leave behind. -/

namespace SubjectHistory

/-- The command's target was in force already. -/
def recalled (old : SubjectHistory) (internal : InternalEnvelope) (target : Bytes) : SubjectHistory :=
  { old with id := internal.id, digest := internal.digest, target
             result := old.appliedResult, applied := true }

/-- The command was refused. -/
def refuse (old : SubjectHistory) (internal : InternalEnvelope) (target result : Bytes) :
    SubjectHistory :=
  { old with id := internal.id, digest := internal.digest, target, result, applied := false }

/-- The command took effect. -/
def advance (old : SubjectHistory) (internal : InternalEnvelope) (target appliedTarget result : Bytes) :
    SubjectHistory :=
  { revision := old.revision + 1, id := internal.id, digest := internal.digest, target, result
    applied := true, appliedTarget, appliedResult := result, appliedRevision := old.revision + 1 }

end SubjectHistory

/-- The command is not the one retained, and its fence is the committed one. -/
structure Admitted (m : Machine) (command : Command) (internal : InternalEnvelope) : Prop where
  fresh : ∀ history, m.subjects.find? command.target.subject = some history → history.id ≠ internal.id
  fence : command.envelope.kind = .beginCoordinatorEpoch ∨ command.envelope.coordinatorEpoch = m.coordinatorEpoch

/-- The total with that history in the place of the subject's, if it fits. -/
def Machine.preflight (m : Machine) (target : Target) (history : SubjectHistory) (delta : Int) : Option Nat :=
  (m.preflightSubjectHistoryLengths (m.resumed target) (m.subjects.find? target.subject).isSome
    history.target.length history.result.length history.appliedTarget.length
    history.appliedResult.length).bind (preflightMutationDelta · delta)

/-- A history is stored: there is room for it in the table and in the snapshot. -/
structure Stored (m : Machine) (target : Target) (history : SubjectHistory) (delta : Int)
    (newSize : Nat) : Prop where
  room : m.subjects.find? target.subject = none → m.subjects.size < maxSubjectHistories
  preflight : m.preflight target history delta = some newSize

lemma resumed_bytes (m : Machine) (target : Target) :
    (if (m.subjects.find? target.subject).isSome then subjectBytes (m.resumed target) else 0) =
      (m.subjects.find? target.subject).elim 0 subjectBytes := by
  unfold resumed retained
  cases m.subjects.find? target.subject <;> rfl

/-- What is stored is accounted for. -/
lemma Stored.account {m : Machine} {delta : Int} {newSize : Nat} (h : Stored m target history delta newSize) :
    Accounted m.estimatedSnapshotBytes ((m.subjects.find? target.subject).elim 0 subjectBytes)
      (subjectBytes history) delta newSize := by
  rw [← resumed_bytes]
  exact preflightSubjectHistoryLengths_accounted h.preflight

section Outcomes

variable [Contract]

/-- The history a command would leave behind if there were room for it, with its growth. -/
inductive Attempt (m : Machine) (index term : U64) (command : Command) (internal : InternalEnvelope) :
    SubjectHistory → Int → Prop where
  | recalled (happlied : (m.retained command.target.subject).appliedTarget ≠ []) :
    Attempt m index term command internal
      ((m.resumed command.target).recalled internal command.target.bytes) 0
  | mismatch {result : Bytes} (hexpected : internal.expectedRevision ≠ m.standing command.target)
    (hlength : result.length = 65) :
    Attempt m index term command internal
      ((m.resumed command.target).refuse internal command.target.bytes result) 0
  | settle {plan : MutationPlan} (hexpected : internal.expectedRevision = m.standing command.target)
    (hplan : Planned m index term (m.standing command.target + 1) command command.target.subject plan) :
    Attempt m index term command internal (Machine.resolvedHistory internal command.target.bytes
      (command.target.appliedBytes term) (m.resumed command.target) plan) plan.stateDelta

/-- Why an internal command finds no room, and what its answer then names. -/
inductive NoRoom (m : Machine) (index term : U64) (command : Command) (internal : InternalEnvelope) :
    U64 → CoordinatorEpoch → Prop where
  | table (hnew : m.subjects.find? command.target.subject = none)
    (hsize : maxSubjectHistories ≤ m.subjects.size) :
    NoRoom m index term command internal 0 .zero
  | workers (hkind : command.target.kind = .registerWorker)
    (hroom : m.subjects.find? command.target.subject = none → m.subjects.size < maxSubjectHistories) :
    NoRoom m index term command internal 0 .zero
  | snapshot {history : SubjectHistory} {delta : Int}
    (hroom : m.subjects.find? command.target.subject = none → m.subjects.size < maxSubjectHistories)
    (hattempt : Attempt m index term command internal history delta)
    (hpreflight : m.preflight command.target history delta = none) :
    NoRoom m index term command internal (m.standing command.target)
      (m.epochForSubject command.target.subject (m.standing command.target))

inductive InternalOutcome (m : Machine) (index term : U64) (command : Command)
    (internal : InternalEnvelope) : Machine → Bytes → Prop where
  | replayed {history : SubjectHistory}
    (hretained : m.subjects.find? command.target.subject = some history)
    (hid : history.id = internal.id) (hdigest : history.digest = internal.digest)
    (htarget : history.target = command.target.bytes) :
    InternalOutcome m index term command internal m history.result
  | reused {history : SubjectHistory} {result : Bytes}
    (hretained : m.subjects.find? command.target.subject = some history)
    (hid : history.id = internal.id)
    (hother : ¬ (history.digest = internal.digest ∧ history.target = command.target.bytes))
    (hresult : marshalBusinessResult .identityReuse command.target.subject history.revision
      (m.epochForSubject command.target.subject history.revision) = some result) :
    InternalOutcome m index term command internal m result
  | fenced {result : Bytes}
    (hfresh : ∀ history, m.subjects.find? command.target.subject = some history → history.id ≠ internal.id)
    (hkind : command.envelope.kind ≠ .beginCoordinatorEpoch)
    (hepoch : command.envelope.coordinatorEpoch ≠ m.coordinatorEpoch)
    (hresult : marshalBusinessResult .staleEpoch command.target.subject
      (m.standing command.target) m.coordinatorEpoch = some result) :
    InternalOutcome m index term command internal m result
  | full {revision : U64} {epoch : CoordinatorEpoch} {result : Bytes}
    (hadmitted : Admitted m command internal)
    (hroom : NoRoom m index term command internal revision epoch)
    (hresult : marshalBusinessResult .capacityExhausted command.target.subject revision epoch = some result) :
    InternalOutcome m index term command internal m result
  | recalled {history : SubjectHistory} {newSize : Nat}
    (hadmitted : Admitted m command internal)
    (hretained : m.subjects.find? command.target.subject = some history)
    (happlied : history.appliedTarget ≠ [])
    (htarget : history.appliedTarget = command.target.appliedBytes term)
    (hrevision : history.appliedRevision = m.standing command.target)
    (hstored : Stored m command.target
      ((m.resumed command.target).recalled internal command.target.bytes) 0 newSize) :
    InternalOutcome m index term command internal
      (m.storeSubject command.target.subject
        ((m.resumed command.target).recalled internal command.target.bytes) newSize)
      history.appliedResult
  | mismatched {result : Bytes} {newSize : Nat}
    (hadmitted : Admitted m command internal)
    (hexpected : internal.expectedRevision ≠ m.standing command.target)
    (hresult : marshalBusinessResult .revisionMismatch command.target.subject
      (m.standing command.target)
      (m.epochForSubject command.target.subject (m.standing command.target)) = some result)
    (hstored : Stored m command.target
      ((m.resumed command.target).refuse internal command.target.bytes result) 0 newSize) :
    InternalOutcome m index term command internal
      (m.storeSubject command.target.subject
        ((m.resumed command.target).refuse internal command.target.bytes result) newSize) result
  | refused {result : Bytes} {newSize : Nat}
    (hadmitted : Admitted m command internal)
    (hsubj : command.target.subject.kind ≠ .coordinator)
    (hexpected : internal.expectedRevision = m.standing command.target)
    (hresult : marshalBusinessResult .revisionMismatch command.target.subject
      (m.subjectRevision command.target.subject) .zero = some result)
    (hstored : Stored m command.target
      ((m.resumed command.target).refuse internal command.target.bytes result) 0 newSize) :
    InternalOutcome m index term command internal
      (m.storeSubject command.target.subject
        ((m.resumed command.target).refuse internal command.target.bytes result) newSize) result
  | outdated {coordinator : U16} {nonce : Array16} {result : Bytes} {newSize : Nat}
    (hadmitted : Admitted m command internal)
    (htarget : command.target = .beginCoordinatorEpoch coordinator nonce)
    (hcurrent : m.coordinatorEpoch ≠ .zero)
    (hstale : term < m.coordinatorEpoch.term ∨
      (term = m.coordinatorEpoch.term ∧ index ≤ m.coordinatorEpoch.beginIndex))
    (hresult : marshalBusinessResult .staleEpoch command.target.subject m.coordinatorRevision
      m.coordinatorEpoch = some result)
    (hstored : Stored m command.target
      ((m.resumed command.target).refuse internal command.target.bytes result) 0 newSize) :
    InternalOutcome m index term command internal
      (m.storeSubject command.target.subject
        ((m.resumed command.target).refuse internal command.target.bytes result) newSize) result
  | begun {coordinator : U16} {nonce : Array16} {result : Bytes} {newSize : Nat}
    (hadmitted : Admitted m command internal)
    (htarget : command.target = .beginCoordinatorEpoch coordinator nonce)
    (hnew : ¬ ((m.subjects.find? command.target.subject).isSome ∧
      (m.retained command.target.subject).appliedTarget ≠ [] ∧
      (m.retained command.target.subject).appliedTarget = command.target.appliedBytes term ∧
      (m.retained command.target.subject).appliedRevision = m.standing command.target))
    (hcurrent : m.coordinatorEpoch ≠ .zero) (hterm : m.coordinatorEpoch.term = term)
    (hcoordinator : m.coordinatorEpoch.coordinator = coordinator)
    (hnonce : m.coordinatorEpoch.nonce = nonce)
    (hstored : Stored m command.target ((m.resumed command.target).advance internal
      command.target.bytes (command.target.appliedBytes term) result) 0 newSize) :
    InternalOutcome m index term command internal
      (m.storeSubject command.target.subject ((m.resumed command.target).advance internal
        command.target.bytes (command.target.appliedBytes term) result) newSize) result
  | effected {changed : Machine} {delta : Int} {epoch : CoordinatorEpoch} {result : Bytes}
    {newSize : Nat}
    (hadmitted : Admitted m command internal)
    (hexpected : internal.expectedRevision = m.standing command.target)
    (hmax : m.standing command.target ≠ BitVec.allOnes 64)
    (heffect : Effect m index term (m.standing command.target + 1) command changed delta)
    (hepoch : epoch =
      if command.target.subject.kind = .coordinator then changed.coordinatorEpoch else .zero)
    (hresult : marshalBusinessResult .success command.target.subject
      (m.standing command.target + 1) epoch = some result)
    (hstored : Stored m command.target ((m.resumed command.target).advance internal
      command.target.bytes (command.target.appliedBytes term) result) delta newSize) :
    InternalOutcome m index term command internal
      (changed.storeSubject command.target.subject ((m.resumed command.target).advance internal
        command.target.bytes (command.target.appliedBytes term) result) newSize) result

/-- A client's answer that is not remembered. -/
inductive Unresolved : ResultCode → Prop where
  | reuse : Unresolved .identityReuse
  | stale : Unresolved .staleRequest
  | skipped : Unresolved .skippedRequest
  | full : Unresolved .capacityExhausted

/-- The request a client may make next. -/
def IsNext (m : Machine) (request : ClientRequestID) : Prop :=
  match m.clients.find? request.clientID with
  | none => request.sequence = 1 ∧ m.clients.size < maxClientSessions
  | some history => history.sequence ≠ BitVec.allOnes 64 ∧ request.sequence = history.sequence + 1

/-- The client's request is stored as resolved and the new total accounts for it. -/
structure Resolved (m : Machine) (command : Command) (client : ClientEnvelope) (result : Bytes)
    (delta : Int) (newSize : Nat) : Prop where
  fence : command.envelope.coordinatorEpoch = m.coordinatorEpoch
  next : IsNext m client.request
  account : Accounted m.estimatedSnapshotBytes
    ((m.clients.find? client.request.clientID).elim 0 clientBytes)
    (clientBytes ⟨client.request.sequence, client.digest, result⟩) delta newSize

inductive ClientOutcome (m : Machine) (index term : U64) (command : Command)
    (client : ClientEnvelope) (job : JobID) : Machine → Bytes → Prop where
  | replayed {history : ClientHistory}
    (hretained : m.clients.find? client.request.clientID = some history)
    (hsequence : client.request.sequence = history.sequence)
    (hdigest : client.digest = history.digest) :
    ClientOutcome m index term command client job m history.result
  | fenced {result : Bytes}
    (hepoch : command.envelope.coordinatorEpoch ≠ m.coordinatorEpoch)
    (hresult : marshalBusinessResult .staleEpoch (.jobControl job)
      (m.subjectRevision (.jobControl job)) m.coordinatorEpoch = some result) :
    ClientOutcome m index term command client job m result
  | unresolved {code : ResultCode} {result : Bytes} (hcode : Unresolved code)
    (hresult : marshalBusinessResult code .unbound 0 .zero = some result) :
    ClientOutcome m index term command client job m result
  | full {result : Bytes}
    (hresult : marshalBusinessResult .capacityExhausted (.jobControl job) 0 .zero = some result) :
    ClientOutcome m index term command client job m result
  | answered {code : ResultCode} {result : Bytes} {newSize : Nat}
    (hcode : code = .success ∨ code = .revisionMismatch ∨
      (code = .identityReuse ∧ ∃ topology, command.target = .submitJob topology))
    (hresult : marshalBusinessResult code (.jobControl job)
      (m.subjectRevision (.jobControl job)) .zero = some result)
    (hresolved : Resolved m command client result 0 newSize) :
    ClientOutcome m index term command client job
      (m.storeClient client.request.clientID
        ⟨client.request.sequence, client.digest, result⟩ newSize) result
  | effected {next : U64} {changed : Machine} {delta : Int} {result : Bytes} {newSize : Nat}
    (heffect : Effect m index term next command changed delta)
    (hresult : marshalBusinessResult .success (.jobControl job) next .zero = some result)
    (hresolved : Resolved m command client result delta newSize) :
    ClientOutcome m index term command client job
      (changed.storeClient client.request.clientID
        ⟨client.request.sequence, client.digest, result⟩ newSize) result

/-! ## The engines end in no other way -/

variable {m m' : Machine} {index term : U64} {command : Command} {result : Bytes}

omit [Contract] in
lemma reply_eq_ok {code : ResultCode} {revision : U64} {epoch : CoordinatorEpoch}
    (h : m.reply code subject revision epoch = .ok (m', result)) :
    m' = m ∧ marshalBusinessResult code subject revision epoch = some result := by
  obtain ⟨bytes, hbytes, hok⟩ := orImpossible_bind_eq_ok h
  cases hok
  exact ⟨rfl, hbytes⟩

omit [Contract] in
/-- A preflight that asks nothing more of the state. -/
lemma preflight_eq : m.preflight target history 0 =
      m.preflightSubjectHistoryLengths (m.resumed target) (m.subjects.find? target.subject).isSome
        history.target.length history.result.length history.appliedTarget.length
        history.appliedResult.length := by
  unfold preflight
  cases hsize : m.preflightSubjectHistoryLengths (m.resumed target)
      (m.subjects.find? target.subject).isSome history.target.length history.result.length
      history.appliedTarget.length history.appliedResult.length with
  | none => rfl
  | some size => exact checkedSnapshotAdd_eq_some.mpr ⟨rfl, preflightSubjectHistoryLengths_le hsize⟩

section Internal

variable {internal : InternalEnvelope}

omit [Contract] in
lemma room_of_not_full
    (h : ¬ ((m.subjects.find? subject).isSome = false ∧ maxSubjectHistories ≤ m.subjects.size)) :
    m.subjects.find? subject = none → m.subjects.size < maxSubjectHistories := by
  intro hnone
  simpa [hnone] using h

lemma recallApplied_outcome (hsubj : internal.subject = command.target.subject)
    (hadm : Admitted m command internal) (hret : m.subjects.find? command.target.subject = some history)
    (happd : history.appliedTarget ≠ []) (htarg : history.appliedTarget = command.target.appliedBytes term)
    (hrev : history.appliedRevision = m.standing command.target)
    (h : m.recallApplied internal command.target.bytes (m.resumed command.target) = .ok (m', result)) :
    InternalOutcome m index term command internal m' result := by
  have hroom : m.subjects.find? command.target.subject = none → m.subjects.size < maxSubjectHistories := by
    intro hnone
    rw [hnone] at hret
    cases hret
  have hprefl : m.preflight command.target
      ((m.resumed command.target).recalled internal command.target.bytes) 0 =
      m.preflightSubjectHistoryLengths (m.resumed command.target) true command.target.bytes.length
        (m.resumed command.target).appliedResult.length
        (m.resumed command.target).appliedTarget.length
        (m.resumed command.target).appliedResult.length := by
    rw [preflight_eq, hret]
    rfl
  unfold recallApplied at h
  rw [hsubj] at h
  split at h
  · rename_i hsize
    obtain ⟨rfl, hres⟩ := reply_eq_ok h
    refine .full hadm (.snapshot hroom (.recalled ?_) (hprefl.trans hsize)) hres
    rw [retained, hret]
    exact happd
  rename_i newSize hsize
  have hresumed : (m.resumed command.target).appliedResult = history.appliedResult := by
    simp [resumed, retained, hret]
  cases h
  have houtc : InternalOutcome m index term command internal _ _ :=
    .recalled hadm hret happd htarg hrev ⟨hroom, hprefl.trans hsize⟩
  rwa [← hresumed] at houtc

lemma cacheMismatch_outcome (hsubj : internal.subject = command.target.subject)
    (hadm : Admitted m command internal)
    (hroom : ¬ ((m.subjects.find? command.target.subject).isSome = false ∧ maxSubjectHistories ≤ m.subjects.size))
    (hexp : internal.expectedRevision ≠ m.standing command.target)
    (h : m.cacheMismatch internal command.target.bytes
      (m.subjects.find? command.target.subject).isSome (m.resumed command.target) = .ok (m', result)) :
    InternalOutcome m index term command internal m' result := by
  unfold cacheMismatch at h
  rw [hsubj] at h
  obtain ⟨bytes, hbytes, h⟩ := orImpossible_bind_eq_ok h
  rw [if_neg hroom] at h
  split at h
  · rename_i hsize
    obtain ⟨rfl, hres⟩ := reply_eq_ok h
    exact .full hadm (.snapshot (room_of_not_full hroom)
      (.mismatch hexp (marshalCommandResult_length hbytes)) (preflight_eq.trans hsize)) hres
  rename_i newSize hsize
  cases h
  exact .mismatched hadm hexp hbytes ⟨room_of_not_full hroom, preflight_eq.trans hsize⟩

omit [Contract] in
/-- The preflight of a plan is the preflight of the history it leaves behind. -/
lemma preflight_resolvedHistory (m : Machine) (target : Target) (internal : InternalEnvelope)
    (appliedTarget : Bytes) (plan : MutationPlan) :
    m.preflight target (Machine.resolvedHistory internal target.bytes appliedTarget (m.resumed target)
        plan) plan.stateDelta =
      (m.preflightSubjectHistoryLengths (m.resumed target) (m.subjects.find? target.subject).isSome
        target.bytes.length plan.result.length
        (Machine.resolvedHistory internal target.bytes appliedTarget (m.resumed target)
          plan).appliedTarget.length
        (Machine.resolvedHistory internal target.bytes appliedTarget (m.resumed target)
          plan).appliedResult.length).bind (preflightMutationDelta · plan.stateDelta) := by
  have htarg : (resolvedHistory internal target.bytes appliedTarget (m.resumed target)
      plan).target = target.bytes := by
    unfold resolvedHistory
    split <;> rfl
  have hres : (resolvedHistory internal target.bytes appliedTarget (m.resumed target)
      plan).result = plan.result := by
    unfold resolvedHistory
    split <;> rfl
  rw [preflight, htarg, hres]

section

variable (hsubj : internal.subject = command.target.subject)

include hsubj

/-- What `concludeInternal` does with a plan. -/
lemma concludeInternal_eq_ok {history : SubjectHistory} (hhistory : history = Machine.resolvedHistory internal
      command.target.bytes (command.target.appliedBytes term) (m.resumed command.target) plan)
    (hplan : Planned m index term (m.standing command.target + 1) command command.target.subject plan)
    (h : m.concludeInternal internal command.target.bytes (command.target.appliedBytes term)
      (m.subjects.find? command.target.subject).isSome (m.resumed command.target) plan = .ok (m', result)) :
    (plan.capacity = true ∧ m' = m ∧ result = plan.result) ∨
      (m' = m ∧ m.preflight command.target history plan.stateDelta = none ∧
        marshalBusinessResult .capacityExhausted command.target.subject (m.standing command.target)
          (m.epochForSubject command.target.subject (m.standing command.target)) = some result) ∨
      (plan.capacity = false ∧ result = plan.result ∧ ∃ newSize,
        m' = (m.settle plan).storeSubject command.target.subject history newSize ∧
        m.preflight command.target history plan.stateDelta = some newSize) := by
  rw [hhistory, preflight_resolvedHistory]
  unfold concludeInternal at h
  rw [hplan.capResult_eq] at h
  simp only [bind, Except.bind] at h
  split at h
  · rename_i hcap
    cases h
    exact .inl ⟨hcap, rfl, rfl⟩
  rename_i hcap
  simp only [Bool.not_eq_true] at hcap
  split at h
  · rename_i hsize
    rw [hsubj] at h
    obtain ⟨rfl, hres⟩ := reply_eq_ok h
    exact .inr (.inl ⟨rfl, hsize, hres⟩)
  rename_i newSize hsize
  cases h
  exact .inr (.inr ⟨hcap, rfl, newSize, by rw [hsubj], hsize⟩)

/-- A plan that was carried out, by what it planned. -/
lemma concludeInternal_outcome (hflds : command.target.fieldsValid expected = true)
    (hadm : Admitted m command internal) (hnew : ¬ ((m.subjects.find? command.target.subject).isSome ∧
      (m.retained command.target.subject).appliedTarget ≠ [] ∧
      (m.retained command.target.subject).appliedTarget = command.target.appliedBytes term ∧
      (m.retained command.target.subject).appliedRevision = m.standing command.target))
    (hroom : ¬ ((m.subjects.find? command.target.subject).isSome = false ∧ maxSubjectHistories ≤ m.subjects.size))
    (hexp : internal.expectedRevision = m.standing command.target)
    (hmax : m.standing command.target ≠ BitVec.allOnes 64)
    (hplan : Planned m index term (m.standing command.target + 1) command command.target.subject plan)
    (h : m.concludeInternal internal command.target.bytes (command.target.appliedBytes term)
      (m.subjects.find? command.target.subject).isSome (m.resumed command.target) plan = .ok (m', result)) :
    InternalOutcome m index term command internal m' result := by
  have hcli : (∀ topology, command.target ≠ .submitJob topology) ∧
      ∀ job revision, command.target ≠ .cancelJob job revision := by
    constructor
    · intro topology heq
      rw [heq] at hflds
      cases hflds
    intro job revision heq
    rw [heq] at hflds
    cases hflds
  have hroom := room_of_not_full hroom
  obtain ⟨hcap, rfl, rfl⟩ | ⟨rfl, hsize, hres⟩ | ⟨hcap, rfl, newSize, rfl, hsize⟩ :=
    concludeInternal_eq_ok hsubj rfl hplan h
  · cases hplan with
    | full hkind hres =>
      refine .full hadm (.workers ?_ hroom) hres
      cases hkind with
      | inl hreg => exact hreg
      | inr hsubmit =>
        revert hsubmit hcli
        cases command.target <;> intro hcli hsubmit <;> first
          | exact absurd rfl (hcli.1 _)
          | cases hsubmit
    | _ => cases hcap
  · exact .full hadm (.snapshot hroom (.settle hexp hplan) hsize) hres
  have hsto : Stored m command.target _ _ newSize := ⟨hroom, hsize⟩
  cases hplan with
  | refused hkind hres => exact .refused hadm hkind hexp hres hsto
  | collided htarg => exact absurd htarg (hcli.1 _)
  | outdated htarg hcur hstale hres => exact .outdated hadm htarg hcur hstale hres hsto
  | full => cases hcap
  | begun htarg _ hcur hterm hcoord hnonce => exact .begun hadm htarg hnew hcur hterm hcoord hnonce hsto
  | already htarg =>
    obtain ⟨topology, htarg⟩ | ⟨job, revision, htarg⟩ := htarg
    · exact absurd htarg (hcli.1 topology)
    · exact absurd htarg (hcli.2 job revision)
  | effective heff hep hres => exact .effected hadm hexp hmax heff hep hres hsto

lemma applyInternalResolvedAt_outcome (hflds : command.target.fieldsValid expected = true)
    (h : m.applyInternalResolvedAt command.envelope internal command.target.bytes
      (command.target.appliedBytes term) (command.target.authoritativeRevision m)
      (command.target.prepare m index term) = .ok (m', result)) :
    InternalOutcome m index term command internal m' result := by
  simp only [applyInternalResolvedAt, hsubj] at h
  split at h
  · cases h
  split at h
  · -- the identity is the retained one
    rename_i hknw
    obtain ⟨hsome, hid⟩ := hknw
    obtain ⟨history, hret⟩ := isSome_iff_exists.mp hsome
    simp only [hret, getD_some] at hid h
    split at h
    · rename_i hsame
      cases h
      exact .replayed hret hid hsame.1 hsame.2
    rename_i hoth
    obtain ⟨rfl, hres⟩ := reply_eq_ok h
    exact .reused hret hid hoth hres
  rename_i hoth
  have hfrs : ∀ history, m.subjects.find? command.target.subject = some history →
      history.id ≠ internal.id := by
    intro history hret hid
    exact hoth (by simp [hret, hid])
  split at h
  · rename_i hfen
    obtain ⟨rfl, hres⟩ := reply_eq_ok h
    exact .fenced hfrs hfen.1 hfen.2 hres
  rename_i hfen
  have hadm : Admitted m command internal := ⟨hfrs, by rwa [not_and_or, not_not, not_not] at hfen⟩
  split at h
  · rename_i hrecall
    obtain ⟨hsome, happd, htarg, hrev⟩ := hrecall
    obtain ⟨history, hret⟩ := isSome_iff_exists.mp hsome
    simp only [hret, getD_some] at happd htarg
    refine recallApplied_outcome hsubj hadm hret happd htarg ?_ h
    rw [hret, getD_some] at hrev
    rw [hrev, standing, retained, hret, getD_some]
  rename_i hnew
  split at h
  · rename_i hfull
    obtain ⟨rfl, hres⟩ := reply_eq_ok h
    refine .full hadm (.table ?_ hfull.2) hres
    simpa using hfull.1
  rename_i hroom
  split at h
  · rename_i hexp
    exact cacheMismatch_outcome hsubj hadm hroom hexp h
  rename_i hexp
  split at h
  · cases h
  rename_i hmax
  rw [not_not] at hexp
  obtain ⟨plan, hprepare, hconcl⟩ := bind_eq_ok h
  exact concludeInternal_outcome hsubj hflds hadm hnew hroom hexp hmax
    (Target.prepare_planned hprepare) hconcl

end

end Internal

section Client

variable {client : ClientEnvelope} {job : JobID}

lemma concludeClient_outcome {next : U64} {old : ClientHistory} {known : Bool}
    (hold : (if known then clientBytes old else 0) = (m.clients.find? client.request.clientID).elim 0 clientBytes)
    (htarg : (∃ topology, command.target = .submitJob topology) ∨
      ∃ cancelled expected, command.target = .cancelJob cancelled expected)
    (hfen : command.envelope.coordinatorEpoch = m.coordinatorEpoch) (hnext : IsNext m client.request)
    (hplan : Planned m index term next command (.jobControl job) plan)
    (h : m.concludeClient client old known plan = .ok (m', result)) :
    ClientOutcome m index term command client job m' result := by
  have hbegin : ∀ coordinator nonce, command.target ≠ .beginCoordinatorEpoch coordinator nonce := by
    intro coordinator nonce heq
    obtain ⟨topology, htarg⟩ | ⟨cancelled, expected, htarg⟩ := htarg
    · rw [htarg] at heq
      cases heq
    rw [htarg] at heq
    cases heq
  unfold concludeClient at h
  rw [hplan.capResult_eq] at h
  simp only [bind, Except.bind] at h
  split at h
  · rename_i hcap
    cases h
    cases hplan with
    | full _ hres => exact .full hres
    | _ => cases hcap
  rename_i hcap
  split at h
  · obtain ⟨rfl, hres⟩ := reply_eq_ok h
    exact .unresolved .full hres
  rename_i newSize hsize
  have haccount := preflightClientHistoryLength_accounted hsize
  rw [hold] at haccount
  have hresol : Resolved m command client plan.result plan.stateDelta newSize := ⟨hfen, hnext, haccount⟩
  cases h
  cases hplan with
  | refused _ hres => exact .answered (.inr (.inl rfl)) hres hresol
  | collided htarg hres => exact .answered (.inr (.inr ⟨rfl, _, htarg⟩)) hres hresol
  | outdated htarg | begun htarg => exact absurd htarg (hbegin _ _)
  | full => exact absurd rfl hcap
  | already _ hres => exact .answered (.inl rfl) hres hresol
  | effective heff hep hres =>
    rw [hep, if_neg nofun] at hres
    exact .effected heff hres hresol

lemma applyClientCommand_outcome {next : U64} {prepare : Prepared}
    (htarg : (∃ topology, command.target = .submitJob topology) ∨
      ∃ cancelled expected, command.target = .cancelJob cancelled expected)
    (hprepare : ∀ plan, prepare = .ok plan → Planned m index term next command (.jobControl job) plan)
    (h : m.applyClientCommand command.envelope client (.jobControl job) prepare = .ok (m', result)) :
    ClientOutcome m index term command client job m' result := by
  simp only [applyClientCommand] at h
  split at h
  · cases h
  split at h
  · rename_i hsame
    obtain ⟨history, hret, hmch⟩ := (any_eq_true _ _).mp hsame
    simp only [decide_eq_true_eq] at hmch
    simp only [hret, getD_some] at h
    cases h
    exact .replayed hret hmch.1 hmch.2
  split at h
  · rename_i hep
    obtain ⟨rfl, hres⟩ := reply_eq_ok h
    exact .fenced hep hres
  rename_i hfen
  rw [not_not] at hfen
  split at h
  · rename_i old hold
    split at h
    · obtain ⟨rfl, hres⟩ := reply_eq_ok h
      exact .unresolved .reuse hres
    split at h
    · obtain ⟨rfl, hres⟩ := reply_eq_ok h
      exact .unresolved .stale hres
    split at h
    · obtain ⟨rfl, hres⟩ := reply_eq_ok h
      exact .unresolved .skipped hres
    rename_i hoth hlower hhigher
    rw [not_or] at hhigher
    obtain ⟨plan, hplan, hconcl⟩ := bind_eq_ok h
    refine concludeClient_outcome (by rw [hold]; rfl) htarg hfen ?_
      (hprepare plan hplan) hconcl
    simp only [IsNext, hold]
    -- neither below nor above the next number
    exact ⟨hhigher.1, by bv_omega⟩
  rename_i hnone
  split at h
  · obtain ⟨rfl, hres⟩ := reply_eq_ok h
    exact .unresolved .skipped hres
  split at h
  · obtain ⟨rfl, hres⟩ := reply_eq_ok h
    exact .unresolved .full hres
  rename_i hfst hroom
  obtain ⟨plan, hplan, hconcl⟩ := bind_eq_ok h
  refine concludeClient_outcome (by rw [hnone]; rfl) htarg hfen ?_
    (hprepare plan hplan) hconcl
  simp only [IsNext, hnone]
  exact ⟨not_not.mp hfst, Nat.lt_of_not_le hroom⟩

end Client

/-- The outcome of a decoded command. -/
inductive Outcome (m : Machine) (index term : U64) (command : Command) (m' : Machine)
    (result : Bytes) : Prop where
  | client {client : ClientEnvelope} {job : JobID}
    (hidentity : command.envelope.identity = .inl client)
    (hjob : (∃ topology validated, command.target = .submitJob topology ∧
        validateTopology topology = some validated ∧
        job = deriveJobID client.request validated.digest) ∨
      ∃ expected, command.target = .cancelJob job expected)
    (houtcome : ClientOutcome m index term command client job m' result)
  | internal {internal : InternalEnvelope}
    (hidentity : command.envelope.identity = .inr internal)
    (houtcome : InternalOutcome m index term command internal m' result)

lemma applyCommand_outcome (hval : command.validate = true)
    (h : m.applyCommand index term command = .ok (m', result)) : Outcome m index term command m' result := by
  obtain ⟨envelope, target⟩ := command
  simp only [applyCommand] at h
  simp only [Command.validate, Bool.and_eq_true, decide_eq_true_eq] at hval
  obtain ⟨-, hmch⟩ := hval
  split at h
  · rename_i client hident
    split at h
    · rename_i topology
      obtain ⟨validated, hvald, hapl⟩ := orImpossible_bind_eq_ok h
      refine .client hident (.inl ⟨topology, validated, rfl, hvald, rfl⟩) ?_
      exact applyClientCommand_outcome (.inl ⟨topology, rfl⟩)
        (fun plan hplan => prepareSubmitJob_planned hident hvald hplan) hapl
    · rename_i job expected
      refine .client hident (.inr ⟨expected, rfl⟩) ?_
      exact applyClientCommand_outcome (.inr ⟨job, expected, rfl⟩)
        (fun plan hplan => prepareCancelJob_planned hplan) h
    · cases h
  rename_i internal hident
  simp only [hident, Bool.and_eq_true, decide_eq_true_eq] at hmch
  obtain ⟨⟨hsubj, hflds⟩, -⟩ := hmch
  exact .internal hident (applyInternalResolvedAt_outcome hsubj hflds h)

/-- An applied entry is a decoded command with an outcome, at an index above the last. -/
lemma Applies.outcome {entry : LogEntry} (h : Applies m entry result m') :
    ∃ command applied, unmarshalCommand entry.command = some command ∧ command.validate = true ∧
      m.lastAppliedIndex < entry.index ∧ entry.term ≠ 0 ∧
      Outcome m entry.index entry.term command applied result ∧
      m' = { applied with lastAppliedIndex := entry.index } := by
  unfold Applies apply at h
  split at h
  · cases h
  rename_i hnz
  split at h
  · cases h
  rename_i command hdec
  split at h
  · cases h
  rename_i hidx
  obtain ⟨⟨applied, answer⟩, hapl, hok⟩ := bind_eq_ok h
  cases hok
  have hval := (unmarshalCommand_eq_some hdec).1
  exact ⟨command, applied, hdec, hval, BitVec.not_le.mp hidx, (not_or.mp hnz).2,
    applyCommand_outcome hval hapl, rfl⟩

end Outcomes

end Crane.State
