import Crane.State.Totality

/-!
# Fences, and commands delivered again

An internal command names the epoch of the coordinator that wrote it and the revision its subject
stood at. The epoch decides whether the command is looked at, the revision whether it can take
effect: an effective command moves its subject to the next revision, revisions never go back, and
so the command finds another one when it comes again.
-/

namespace Crane.State

open Wire Data Model Machine

/-- An entry is effective if it changes what commands are about. -/
def Effective (m m' : Machine) : Prop :=
  m'.workers ≠ m.workers ∨ m'.jobs ≠ m.jobs ∨ m'.workerEvents ≠ m.workerEvents ∨
    m'.coordinatorEpoch ≠ m.coordinatorEpoch

/-- Epochs in the order in which they are committed. -/
def EpochLess (old new : CoordinatorEpoch) : Prop :=
  old.term < new.term ∨ (old.term = new.term ∧ old.beginIndex < new.beginIndex)

lemma EpochLess.trans {a b c : CoordinatorEpoch} (hab : EpochLess a b) (hbc : EpochLess b c) : EpochLess a c := by
  cases hab with
  | inl hterm =>
    cases hbc with
    | inl hterm' => exact .inl (BitVec.lt_trans hterm hterm')
    | inr hsame => exact .inl (hsame.1 ▸ hterm)
  | inr hsame =>
    cases hbc with
    | inl hterm => exact .inl (hsame.1 ▸ hterm)
    | inr hsame' => exact .inr ⟨hsame.1.trans hsame'.1, BitVec.lt_trans hsame.2 hsame'.2⟩

lemma EpochLess.ne {a b : CoordinatorEpoch} (h : EpochLess a b) : b ≠ a := by
  intro heq
  subst heq
  cases h with
  | inl hterm => exact BitVec.lt_irrefl _ hterm
  | inr hsame => exact BitVec.lt_irrefl _ hsame.2

/-- The same machine at a later entry. -/
def Machine.later (m : Machine) (index : U64) : Machine := { m with lastAppliedIndex := index }

section Steps

variable [Contract]
variable {m m' : Machine} {entry : LogEntry} {result : Bytes}
variable {next index term : U64} {command : Command} {changed : Machine} {growth : Int}
variable {subject : SubjectKey} {internal : InternalEnvelope}

omit [Contract] in
lemma SameState.not_effective (h : SameState m m') : ¬ Effective m m' := by
  intro heffec
  obtain hworkers | hjobs | hevs | hep := heffec
  · exact hworkers h.workers
  · exact hjobs h.jobs
  · exact hevs h.workerEvents
  · exact hep h.coordinatorEpoch

/-! ## Commands that are not admitted -/

/-- The answers that do not depend on what the command asks for. -/
inductive Barred (m : Machine) (command : Command) (internal : InternalEnvelope) : Bytes → Prop where
  | replayed {history : SubjectHistory}
    (hretained : m.subjects.find? command.target.subject = some history)
    (hid : history.id = internal.id)
    (hsame : history.digest = internal.digest ∧ history.target = command.target.bytes) :
    Barred m command internal history.result
  | reused {history : SubjectHistory} {result : Bytes}
    (hretained : m.subjects.find? command.target.subject = some history)
    (hid : history.id = internal.id)
    (hother : ¬ (history.digest = internal.digest ∧ history.target = command.target.bytes))
    (hresult : marshalBusinessResult .identityReuse command.target.subject history.revision
      (m.epochForSubject command.target.subject history.revision) = some result) :
    Barred m command internal result
  | fenced {result : Bytes}
    (hfresh : ∀ history, m.subjects.find? command.target.subject = some history → history.id ≠ internal.id)
    (hresult : marshalBusinessResult .staleEpoch command.target.subject
      (m.standing command.target) m.coordinatorEpoch = some result) :
    Barred m command internal result

lemma InternalOutcome.barred (h : InternalOutcome m index term command internal m' result)
    (hcls : ¬ Admitted m command internal) : m' = m ∧ Barred m command internal result := by
  cases h with
  | replayed hret hid hdig htarg => exact ⟨rfl, .replayed hret hid ⟨hdig, htarg⟩⟩
  | reused hret hid hoth hres => exact ⟨rfl, .reused hret hid hoth hres⟩
  | fenced hfrs _ _ hres => exact ⟨rfl, .fenced hfrs hres⟩
  | full hadm | recalled hadm | mismatched hadm | refused hadm | outdated hadm
  | begun hadm | effected hadm => exact absurd hadm hcls

omit [Contract] in
lemma Barred.unique {again : Bytes} (h : Barred m command internal result)
    (h' : Barred m command internal again) : again = result := by
  cases h with
  | replayed hret hid hsame =>
    cases h' with
    | replayed hret' =>
      cases hret.symm.trans hret'
      rfl
    | reused hret' _ hoth =>
      cases hret.symm.trans hret'
      exact absurd hsame hoth
    | fenced hfrs => exact absurd hid (hfrs _ hret)
  | reused hret hid hoth hres =>
    cases h' with
    | replayed hret' _ hsame =>
      cases hret.symm.trans hret'
      exact absurd hsame hoth
    | reused hret' _ _ hres' =>
      cases hret.symm.trans hret'
      exact Option.some.inj (hres'.symm.trans hres)
    | fenced hfrs => exact absurd hid (hfrs _ hret)
  | fenced hfrs hres =>
    cases h' with
    | replayed hret hid | reused hret hid => exact absurd hid (hfrs _ hret)
    | fenced _ hres' => exact Option.some.inj (hres'.symm.trans hres)

omit [Contract] in
lemma Barred.of_later {later : U64} (h : Barred (m.later later) command internal result) :
    Barred m command internal result := by
  cases h with
  | replayed hret hid hsame => exact .replayed hret hid hsame
  | reused hret hid hoth hres => exact .reused hret hid hoth hres
  | fenced hfrs hres => exact .fenced hfrs hres

/-- An applied internal command with the outcome it had. -/
lemma Applies.internal_outcome (h : Applies m entry result m')
    (hdec : unmarshalCommand entry.command = some command)
    (hident : command.envelope.identity = .inr internal) : ∃ applied, m' = applied.later entry.index ∧
      InternalOutcome m entry.index entry.term command internal applied result := by
  obtain ⟨command', applied, hdec', -, -, -, houtc, rfl⟩ := h.outcome
  cases hdec.symm.trans hdec'
  cases houtc with
  | client hident' => cases hident.symm.trans hident'
  | internal hident' houtc =>
    cases hident.symm.trans hident'
    exact ⟨applied, rfl, houtc⟩

/-- A command of another epoch is answered and changes nothing. -/
lemma Applies.foreign (h : Applies m entry result m') (hdec : unmarshalCommand entry.command = some command)
    (hident : command.envelope.identity = .inr internal)
    (hkind : command.envelope.kind ≠ .beginCoordinatorEpoch)
    (hep : command.envelope.coordinatorEpoch ≠ m.coordinatorEpoch) : m' = m.later entry.index := by
  obtain ⟨applied, rfl, houtc⟩ := h.internal_outcome hdec hident
  have hcls : ¬ Admitted m command internal := by
    intro hadm
    cases hadm.fence with
    | inl hbegin => exact hkind hbegin
    | inr hsame => exact hep hsame
  rw [(houtc.barred hcls).1]

/-! ## The order of epochs -/

lemma TakesEffect.epoch (h : TakesEffect m entry m' command next changed growth) :
    (m'.coordinatorEpoch = m.coordinatorEpoch ∧ command.target.subject ≠ .coordinator) ∨
      EpochLess m.coordinatorEpoch m'.coordinatorEpoch := by
  rw [h.same.coordinatorEpoch]
  obtain hkept | ⟨coordinator, nonce, -, hchgd, -, horder⟩ := h.effect.coordinatorEpoch
  · exact .inl hkept
  right
  rw [hchgd]
  obtain hzero | hterm | hsame := horder
  · -- before the first coordinator the epoch is zero, and a term is not
    rw [hzero]
    left
    exact Nat.pos_of_ne_zero fun hterm => h.termed (BitVec.eq_of_toNat_eq hterm)
  · exact .inl hterm
  · exact .inr hsame

lemma Applies.epoch (h : Applies m entry result m') : m'.coordinatorEpoch = m.coordinatorEpoch ∨
      EpochLess m.coordinatorEpoch m'.coordinatorEpoch := by
  obtain hsame | ⟨command, next, changed, growth, heff⟩ := h.cases
  · exact .inl hsame.coordinatorEpoch
  obtain hkept | hless := heff.epoch
  · exact .inl hkept.1
  · exact .inr hless

lemma Run.epoch {log : List LogEntry} (h : Run m log m') : m'.coordinatorEpoch = m.coordinatorEpoch ∨
      EpochLess m.coordinatorEpoch m'.coordinatorEpoch := by
  induction h with
  | start => exact .inl rfl
  | next _ hstep ih =>
    obtain hkept | hless := hstep.epoch
    · rw [hkept]
      exact ih
    right
    obtain hkept | hless' := ih
    · rw [hkept] at hless
      exact hless
    · exact hless'.trans hless

/-! ## Revisions -/

/-- An effective internal command moves its subject to the next revision. -/
lemma TakesEffect.revision_self (hm : Reachable m) (h : TakesEffect m entry m' command next changed growth)
    (hident : command.envelope.identity = .inr internal) :
    internal.expectedRevision = m.subjectRevision command.target.subject ∧
      m.subjectRevision command.target.subject ≠ BitVec.allOnes 64 ∧
      m'.subjectRevision command.target.subject = m.subjectRevision command.target.subject + 1 := by
  obtain ⟨-, hexp, hmax, hnext⟩ := h.internal internal hident
  rw [hm.standing.standing_eq] at hexp hmax hnext
  obtain ⟨-, -, hbd⟩ := Command.internal_subject h.valid hident
  refine ⟨hexp, hmax, ?_⟩
  rw [h.same.subjectRevision, h.effect.revision_self hm.keyed hbd, hnext]

/-- A subject whose revision moves was moved by an effective command. -/
lemma TakesEffect.effective_of_revision (h : TakesEffect m entry m' command next changed growth)
    (hmvd : m'.subjectRevision subject ≠ m.subjectRevision subject) : Effective m m' := by
  by_contra hidle
  simp only [Effective, not_or, not_not] at hidle
  obtain ⟨hworkers, hjobs, -, hep⟩ := hidle
  apply hmvd
  -- workers and jobs hold the revisions of all subjects but one
  have hcoord : m'.coordinatorRevision = m.coordinatorRevision := by
    rw [h.same.coordinatorRevision]
    obtain hkept | ⟨hsubj, -⟩ := h.effect.coordinatorRevision
    · exact hkept
    obtain ⟨-, hoth⟩ | hless := h.epoch
    · exact absurd hsubj hoth
    · exact absurd hep hless.ne
  simp only [subjectRevision, hcoord, hworkers, hjobs]

/-- The same command does not take effect twice. -/
lemma TakesEffect.once (hm : Reachable m) (h : TakesEffect m entry m' command next changed growth)
    (hident : command.envelope.identity = .inr internal) {log : List LogEntry} {m1 m2 : Machine}
    (hrun : Run m' log m1) {entry' : LogEntry} {next' : U64} {changed' : Machine} {growth' : Int}
    (hm' : Reachable m') (h' : TakesEffect m1 entry' m2 command next' changed' growth') : False := by
  obtain ⟨hexp, hmax, hmvd⟩ := h.revision_self hm hident
  obtain ⟨hexp', -, -⟩ := h'.revision_self (hm'.run hrun) hident
  have hle := hrun.revision_le hm' (Command.internal_subject h.valid hident).1
  rw [hmvd, ← hexp', hexp, BitVec.le_def, toNat_succ hmax] at hle
  exact Nat.not_succ_le_self _ hle

/-! ## The answer to a command that comes again at once -/

/-- The command is the latest of its subject, and was answered so. -/
def Remembers (m : Machine) (command : Command) (internal : InternalEnvelope) (result : Bytes) :
    Prop :=
  ∃ history, m.subjects.find? command.target.subject = some history ∧ history.id = internal.id ∧
    history.digest = internal.digest ∧ history.target = command.target.bytes ∧ history.result = result

omit [Contract] in
lemma remembers_storeSubject {history : SubjectHistory} {size : Nat}
    (hid : history.id = internal.id) (hdig : history.digest = internal.digest)
    (htarg : history.target = command.target.bytes) (hres : history.result = result) :
    Remembers (m.storeSubject command.target.subject history size) command internal result :=
  ⟨history, Table.find?_insert_self _ _ _, hid, hdig, htarg, hres⟩

/-- An admitted command is remembered, unless there was no room for it. -/
lemma InternalOutcome.remembers_or_full (h : InternalOutcome m index term command internal m' result)
    (hadm : Admitted m command internal) : Remembers m' command internal result ∨
      (m' = m ∧ ∃ revision epoch, NoRoom m index term command internal revision epoch ∧
        marshalBusinessResult .capacityExhausted command.target.subject revision epoch = some result) := by
  cases h with
  | replayed hret hid | reused hret hid => exact absurd hid (hadm.fresh _ hret)
  | fenced _ hkind hep =>
    cases hadm.fence with
    | inl hbegin => exact absurd hbegin hkind
    | inr hsame => exact absurd hsame hep
  | full _ hroom hres => exact .inr ⟨rfl, _, _, hroom, hres⟩
  | recalled _ hret =>
    refine .inl (remembers_storeSubject rfl rfl rfl ?_)
    simp only [SubjectHistory.recalled, resumed, retained, hret, Option.getD_some]
  | mismatched | refused | outdated | begun | effected => exact .inl (remembers_storeSubject rfl rfl rfl rfl)

/-- What is remembered is what a repetition is told. -/
lemma Remembers.answer (h : Remembers m command internal result) {again : Bytes}
    (houtc : InternalOutcome m index term command internal m' again) : again = result := by
  obtain ⟨history, hret, hid, hdig, htarg, rfl⟩ := h
  have hknw : ¬ Admitted m command internal := by
    intro hadm
    exact hadm.fresh history hret hid
  exact (Barred.replayed hret hid ⟨hdig, htarg⟩).unique (houtc.barred hknw).2

/-! ### Commands that find no room

What a command other than `BeginCoordinatorEpoch` is answered does not depend on the entry that
carries it, so that it finds no room again. -/

omit [Contract] in
lemma replacementTasksCurrent_later (m : Machine) (later : U64) (job : JobID) (used : U16 → Nat)
    (tokens : List (AssignmentToken × AssignmentToken)) :
    (m.later later).replacementTasksCurrent job used tokens = m.replacementTasksCurrent job used tokens := by
  induction tokens generalizing used with
  | nil => rfl
  | cons pair _ ih =>
    obtain ⟨before, token⟩ := pair
    unfold replacementTasksCurrent
    simp only [ih]
    rfl

lemma prepare_later {target : Target} (htarg : target.subject ≠ .coordinator) (later : U64)
    (index term index' term' next : U64) :
    target.prepare (m.later later) index' term' next = target.prepare m index term next := by
  cases target with
  | beginCoordinatorEpoch => exact absurd rfl htarg
  | replaceAssignments job _ _ _ assignment =>
    have hworkers : ∀ old, (m.later later).replacementUsesCurrentWorkers old assignment job =
        m.replacementUsesCurrentWorkers old assignment job := by
      intro old
      unfold replacementUsesCurrentWorkers
      rw [replacementTasksCurrent_later]
      rfl
    unfold Target.prepare
    simp only [prepareReplaceAssignments, hworkers]
    rfl
  | _ => rfl

/-- The answer of an engine, without the machine. -/
def answer (outcome : Except ApplyError (Machine × Bytes)) : Except ApplyError Bytes := outcome.map Prod.snd

section

omit [Contract]

lemma answer_ite {c : Prop} {decide decide' : Decidable c}
    {yes yes' no no' : Except ApplyError (Machine × Bytes)} (hyes : answer yes = answer yes')
    (hno : answer no = answer no') :
    answer (@ite _ c decide yes no) = answer (@ite _ c decide' yes' no') := by
  cases decide with
  | isTrue hc => rw [if_pos hc, if_pos hc, hyes]
  | isFalse hc => rw [if_neg hc, if_neg hc, hno]

lemma reply_later (later : U64) (code : ResultCode) (revision : U64) (epoch : CoordinatorEpoch) :
    answer ((m.later later).reply code subject revision epoch) =
      answer (m.reply code subject revision epoch) := by
  unfold answer reply
  cases marshalBusinessResult code subject revision epoch <;> rfl

lemma replyCapacity_later (later : U64) (revision : U64) :
    answer ((m.later later).replyCapacity subject revision) = answer (m.replyCapacity subject revision) :=
  reply_later later .capacityExhausted revision _

/-- A history that is stored if it fits. -/
lemma answer_preflight {size : Option Nat} {later revision : U64} {stored stored' : Nat → Machine} :
    answer (match (motive := Option Nat → Except ApplyError (Machine × Bytes)) size with
      | none => (m.later later).replyCapacity subject revision
      | some newSize => .ok (stored newSize, result)) =
    answer (match (motive := Option Nat → Except ApplyError (Machine × Bytes)) size with
      | none => m.replyCapacity subject revision
      | some newSize => .ok (stored' newSize, result)) := by
  cases size with
  | none => exact replyCapacity_later later revision
  | some => rfl

lemma cacheMismatch_later (later : U64) (target : Bytes) (known : Bool) (old : SubjectHistory) :
    answer ((m.later later).cacheMismatch internal target known old) =
      answer (m.cacheMismatch internal target known old) := by
  have hep : (m.later later).epochForSubject internal.subject old.revision =
    m.epochForSubject internal.subject old.revision := rfl
  unfold cacheMismatch
  rw [hep]
  cases marshalBusinessResult .revisionMismatch internal.subject old.revision
      (m.epochForSubject internal.subject old.revision) with
  | none => rfl
  | some cached => exact answer_ite (replyCapacity_later later old.revision) answer_preflight

lemma concludeInternal_later (later : U64) (target applied : Bytes) (known : Bool)
    (old : SubjectHistory) (plan : MutationPlan) :
    answer ((m.later later).concludeInternal internal target applied known old plan) =
      answer (m.concludeInternal internal target applied known old plan) := by
  have hep : (m.later later).epochForSubject internal.subject old.revision =
    m.epochForSubject internal.subject old.revision := rfl
  unfold concludeInternal
  rw [hep]
  cases capResult internal.subject old.revision
      (m.epochForSubject internal.subject old.revision) plan with
  | error _ => rfl
  | ok capped => exact answer_ite rfl answer_preflight

end

lemma applyInternalResolvedAt_later (later : U64) (envelope : Envelope) (target applied : Bytes)
    (authoritative : Option U64) (prepare : U64 → Prepared) :
    answer ((m.later later).applyInternalResolvedAt envelope internal target applied authoritative prepare) =
      answer (m.applyInternalResolvedAt envelope internal target applied authoritative prepare) := by
  unfold applyInternalResolvedAt
  -- the branches in the order of the engine
  refine answer_ite rfl (answer_ite ?_ ?_)
  · refine answer_ite ?_ (reply_later later _ _ _)
    rfl
  refine answer_ite (reply_later later _ _ _) (answer_ite ?_ ?_)
  · exact answer_preflight
  refine answer_ite (reply_later later _ _ _) (answer_ite (cacheMismatch_later later _ _ _) ?_)
  refine answer_ite rfl ?_
  change answer (prepare (authoritative.getD
    ((m.subjects.find? internal.subject).getD .zero).revision + 1) >>= _) = _
  cases prepare (authoritative.getD ((m.subjects.find? internal.subject).getD .zero).revision + 1) with
  | error => rfl
  | ok => exact concludeInternal_later later _ _ _ _ _

/-- The answer to a command on anything but the coordinator does not depend on its entry. -/
lemma applyCommand_later (hident : command.envelope.identity = .inr internal)
    (htarg : command.target.subject ≠ .coordinator) (later index' term' : U64) :
    answer ((m.later later).applyCommand index' term' command) = answer (m.applyCommand index term command) := by
  have hprepare : command.target.prepare (m.later later) index' term' = command.target.prepare m index term := by
    funext next
    exact prepare_later htarg later index term index' term' next
  have hauth : command.target.authoritativeRevision (m.later later) =
      command.target.authoritativeRevision m := by
    cases command.target <;> rfl
  unfold applyCommand
  simp only [hident]
  rw [hprepare, hauth, Target.appliedBytes_eq htarg, Target.appliedBytes_eq htarg]
  exact applyInternalResolvedAt_later later _ _ _ _ _

/-! What `BeginCoordinatorEpoch` does depends on the term and the index it is committed with, but
what it would store has the same size each time. -/

lemma appliedTarget_of_begun (hm : Reachable m) (hcur : m.coordinatorEpoch ≠ .zero) :
    (m.retained .coordinator).appliedTarget ≠ [] := by
  obtain ⟨-, happd, -⟩ := hm.standing.fence hcur
  rw [happd]
  exact appliedBytes_begin_ne_nil _ _ _

lemma appliedTarget_length (hm : Reachable m) (h : (m.retained .coordinator).appliedTarget ≠ []) :
    (m.retained .coordinator).appliedTarget.length = 26 ∧
      (m.retained .coordinator).appliedResult.length = 65 := by
  have hhist := hm.histories.applied .coordinator rfl
  obtain ⟨-, hnone, -⟩ | ⟨hrev, -, -, hres⟩ := hhist.applied
  · exact absurd hnone h
  refine ⟨?_, hres⟩
  -- it was applied, so that a coordinator has begun
  have hcur : m.coordinatorEpoch ≠ .zero := by
    obtain ⟨happd, hstand⟩ := hhist.exact nofun
    obtain ⟨hzero, -⟩ | ⟨-, hval, -⟩ := hm.fenced
    · have hsame : m.subjectRevision .coordinator = m.coordinatorRevision := rfl
      rw [happd, hstand, hsame, hzero] at hrev
      exact absurd rfl hrev
    intro hep
    rw [hep] at hval
    cases hval
  obtain ⟨-, happd, -⟩ := hm.standing.fence hcur
  rw [happd]
  simp [Target.appliedBytes, Target.bytes]

/-- The sizes of what a `BeginCoordinatorEpoch` would store. -/
structure BeginSizes (m : Machine) (command : Command) (internal : InternalEnvelope)
    (history : SubjectHistory) (delta : Int) : Prop where
  delta : delta = 0
  target : history.target.length = command.target.bytes.length
  result : history.result.length = 65
  applied : (history.appliedTarget.length, history.appliedResult.length) =
    if internal.expectedRevision = m.standing command.target ∨
      (m.retained .coordinator).appliedTarget ≠ [] then (26, 65) else (0, 0)

omit [Contract] in
lemma BeginSizes.preflight {history history' : SubjectHistory} {delta delta' : Int}
    (h : BeginSizes m command internal history delta) (h' : BeginSizes m command internal history' delta') :
    m.preflight command.target history delta = m.preflight command.target history' delta' := by
  have happd := h.applied.trans h'.applied.symm
  simp only [Prod.mk.injEq] at happd
  unfold Machine.preflight
  rw [h.delta, h'.delta, h.target, h'.target, h.result, h'.result, happd.1, happd.2]

section Begin

variable {coordinator : U16} {nonce : Array16} {history : SubjectHistory} {delta : Int}

lemma Effect.begin_growth (htarg : command.target = .beginCoordinatorEpoch coordinator nonce)
    (h : Effect m index term next command changed growth) : growth = 0 := by
  obtain ⟨envelope, target⟩ := command
  cases htarg
  cases h with
  | begin => rfl
  | job _ _ hchg => cases hchg

/-- A history that keeps what was applied before. -/
lemma BeginSizes.kept (hm : Reachable m)
    (hbytes : history.target = command.target.bytes) (hres : history.result.length = 65)
    (happd : history.appliedTarget = (m.retained .coordinator).appliedTarget ∧
      history.appliedResult = (m.retained .coordinator).appliedResult)
    (hearlier : internal.expectedRevision = m.standing command.target →
      (m.retained .coordinator).appliedTarget ≠ []) : BeginSizes m command internal history 0 := by
  refine ⟨rfl, congrArg List.length hbytes, hres, ?_⟩
  rw [happd.1, happd.2]
  by_cases hnone : (m.retained .coordinator).appliedTarget = []
  · have hnew : internal.expectedRevision ≠ m.standing command.target := by
      intro hexp
      exact hearlier hexp hnone
    have hres : (m.retained .coordinator).appliedResult = [] := by
      obtain ⟨-, -, hres⟩ | ⟨-, hsome, -⟩ := (hm.histories.applied .coordinator rfl).applied
      · exact hres
      · exact absurd hnone hsome
    rw [if_neg (by rw [not_or]; exact ⟨hnew, not_not.mpr hnone⟩), hnone, hres]
    rfl
  obtain ⟨hlen, hlen'⟩ := appliedTarget_length hm hnone
  rw [if_pos (.inr hnone), hlen, hlen']

omit [Contract] in
/-- A history of a new epoch. -/
lemma BeginSizes.advanced (htarg : command.target = .beginCoordinatorEpoch coordinator nonce)
    (hexp : internal.expectedRevision = m.standing command.target)
    (hbytes : history.target = command.target.bytes) (hres : history.result.length = 65)
    (happd : history.appliedTarget = command.target.appliedBytes term ∧
      history.appliedResult = history.result) : BeginSizes m command internal history 0 := by
  refine ⟨rfl, congrArg List.length hbytes, hres, ?_⟩
  rw [if_pos (.inl hexp), happd.1, happd.2, hres, htarg]
  simp [Target.appliedBytes, Target.bytes]

lemma Attempt.beginSizes (hm : Reachable m)
    (htarg : command.target = .beginCoordinatorEpoch coordinator nonce)
    (h : Attempt m index term command internal history delta) :
    BeginSizes m command internal history delta := by
  have hsubj : command.target.subject = .coordinator := by
    rw [htarg]
    rfl
  have hret : (m.resumed command.target).appliedTarget = (m.retained .coordinator).appliedTarget ∧
      (m.resumed command.target).appliedResult = (m.retained .coordinator).appliedResult := by
    rw [← hsubj]
    exact ⟨rfl, rfl⟩
  cases h with
  | recalled happd =>
    rw [hsubj] at happd
    refine .kept hm rfl ?_ hret (fun _ => happd)
    simp only [SubjectHistory.recalled, hret.2, (appliedTarget_length hm happd).2]
  | mismatch hexp hlen => exact .kept hm rfl hlen hret (fun hsame => absurd hsame hexp)
  | settle hexp hplan =>
    have hlen := hplan.result_length
    cases hplan with
    | refused hkind => exact absurd (by rw [hsubj]; rfl) hkind
    | collided htarg' => cases htarg.symm.trans htarg'
    | outdated _ hcur => exact .kept hm rfl hlen hret (fun _ => appliedTarget_of_begun hm hcur)
    | full hkind =>
      rw [htarg] at hkind
      cases hkind with
      | inl hreg | inr hreg => cases hreg
    | begun => exact .advanced htarg hexp rfl hlen ⟨rfl, rfl⟩
    | already htarg' =>
      rw [htarg] at htarg'
      obtain ⟨topology, htarg'⟩ | ⟨job, expected, htarg'⟩ := htarg'
      · cases htarg'
      · cases htarg'
    | effective heff =>
      rw [heff.begin_growth htarg]
      exact .advanced htarg hexp rfl hlen ⟨rfl, rfl⟩

/-- What an admitted `BeginCoordinatorEpoch` stores has those sizes too. -/
lemma InternalOutcome.begin_stored (hm : Reachable m)
    (htarg : command.target = .beginCoordinatorEpoch coordinator nonce)
    (h : InternalOutcome m index term command internal m' result) (hadm : Admitted m command internal) :
    (∃ history delta newSize, BeginSizes m command internal history delta ∧
      Stored m command.target history delta newSize) ∨
      ∃ revision epoch, NoRoom m index term command internal revision epoch ∧
        marshalBusinessResult .capacityExhausted command.target.subject revision epoch = some result := by
  have hsubj : command.target.subject = .coordinator := by
    rw [htarg]
    rfl
  have hatt : ∀ {history : SubjectHistory} {delta : Int} {newSize : Nat},
      Attempt m index term command internal history delta →
      Stored m command.target history delta newSize →
      ∃ history delta newSize, BeginSizes m command internal history delta ∧
        Stored m command.target history delta newSize := by
    intro history delta newSize hatt hsto
    exact ⟨history, delta, newSize, hatt.beginSizes hm htarg, hsto⟩
  cases h with
  | replayed hret hid | reused hret hid => exact absurd hid (hadm.fresh _ hret)
  | fenced _ hkind hep =>
    cases hadm.fence with
    | inl hbegin => exact absurd hbegin hkind
    | inr hsame => exact absurd hsame hep
  | full _ hroom hres => exact .inr ⟨_, _, hroom, hres⟩
  | recalled _ hret happd _ _ hsto =>
    refine .inl (hatt (.recalled ?_) hsto)
    simp only [retained, hret, Option.getD_some]
    exact happd
  | mismatched _ hexp hres hsto => exact .inl (hatt (.mismatch hexp (marshalCommandResult_length hres)) hsto)
  | refused _ hkind => exact absurd (by rw [hsubj]; rfl) hkind
  | outdated _ _ hcur _ hres hsto =>
    refine .inl ⟨_, _, _, ?_, hsto⟩
    exact .kept hm rfl (marshalCommandResult_length hres) (by rw [← hsubj]; exact ⟨rfl, rfl⟩)
      (fun _ => appliedTarget_of_begun hm hcur)
  | begun _ htarg' hnew hcur hterm hcoord hnonce =>
    exact absurd (hm.standing.not_begun htarg' hcur hterm hcoord hnonce) hnew
  | effected _ hexp _ heff _ hres hsto =>
    rw [heff.begin_growth htarg] at hsto
    refine .inl ⟨_, _, _, ?_, hsto⟩
    exact .advanced htarg hexp rfl (marshalCommandResult_length hres) ⟨rfl, rfl⟩

/-- A `BeginCoordinatorEpoch` that found no room finds none again. -/
lemma NoRoom.again (hm : Reachable m) {later index' term' : U64} {again : Bytes}
    (hm' : Reachable (m.later later)) (htarg : command.target = .beginCoordinatorEpoch coordinator nonce)
    (hadm : Admitted m command internal) {revision : U64} {epoch : CoordinatorEpoch}
    (hroom : NoRoom m index term command internal revision epoch)
    (hres : marshalBusinessResult .capacityExhausted command.target.subject revision epoch = some result)
    (houtc : InternalOutcome (m.later later) index' term' command internal m' again) : again = result := by
  have hkind : command.target.kind ≠ .registerWorker := by
    rw [htarg]
    nofun
  obtain ⟨history, delta, newSize, hsizes, hsto⟩ | ⟨revision', epoch', hroom', hres'⟩ :=
    houtc.begin_stored hm' htarg ⟨hadm.fresh, hadm.fence⟩
  · cases hroom with
    | table hnew hsize => exact absurd (hsto.room hnew) (Nat.not_lt.mpr hsize)
    | workers hreg => exact absurd hreg hkind
    | snapshot _ hatt hprefl =>
      have hsizes' : BeginSizes m command internal history delta :=
        ⟨hsizes.delta, hsizes.target, hsizes.result, hsizes.applied⟩
      have hfits : m.preflight command.target history delta = some newSize := hsto.preflight
      rw [hsizes'.preflight (hatt.beginSizes hm htarg), hprefl] at hfits
      cases hfits
  cases hroom with
  | workers hreg => exact absurd hreg hkind
  | table hnew hsize =>
    cases hroom' with
    | table => exact Option.some.inj (hres'.symm.trans hres)
    | workers hreg => exact absurd hreg hkind
    | snapshot hroom' => exact absurd (hroom' hnew) (Nat.not_lt.mpr hsize)
  | snapshot hroom =>
    cases hroom' with
    | table hnew hsize => exact absurd (hroom hnew) (Nat.not_lt.mpr hsize)
    | workers hreg => exact absurd hreg hkind
    | snapshot => exact Option.some.inj (hres'.symm.trans hres)

end Begin

lemma Applies.answered (h : Applies m entry result m')
    (hdec : unmarshalCommand entry.command = some command) :
    answer (m.applyCommand entry.index entry.term command) = .ok result := by
  unfold Applies apply at h
  rw [hdec] at h
  split at h
  · cases h
  simp only at h
  split at h
  · cases h
  obtain ⟨⟨applied, answered⟩, happd, h⟩ := bind_eq_ok h
  cases h
  rw [happd]
  rfl

/-- Delivered again at once, with whatever index and term, a command gets the same answer. -/
lemma Applies.redelivered (hm : Reachable m) (h : Applies m entry result m')
    (hdec : unmarshalCommand entry.command = some command)
    (hident : command.envelope.identity = .inr internal) {entry' : LogEntry}
    (hsame : entry'.command = entry.command) (hltr : entry.index < entry'.index)
    (hterm : entry'.term ≠ 0) : ∃ m2, Applies m' entry' result m2 := by
  have hm' := hm.applies h
  have hdec' : unmarshalCommand entry'.command = some command := hsame ▸ hdec
  have hlast : m'.lastAppliedIndex < entry'.index := by
    rw [h.index.1]
    exact hltr
  have hnamed : NamesJob command := by
    intro client topology validated hcli
    cases hident.symm.trans hcli
  obtain ⟨⟨answered, again⟩, hansw⟩ :=
    applyCommand_succeeds hm' (unmarshalCommand_eq_some hdec).1 hlast hterm hnamed
  have happs := applies_of_ok hlast hterm hdec' hansw
  suffices hans : again = result from ⟨_, hans ▸ happs⟩
  obtain ⟨applied, rfl, houtc⟩ := h.internal_outcome hdec hident
  obtain ⟨applied', -, houtc'⟩ := happs.internal_outcome hdec' hident
  by_cases hadm : Admitted m command internal
  · obtain hremem | ⟨rfl, revision, epoch, hroom, hres⟩ := houtc.remembers_or_full hadm
    · have hremem' : Remembers (applied.later entry.index) command internal result := hremem
      exact hremem'.answer houtc'
    by_cases htarg : command.target.subject = .coordinator
    · cases hbegin : command.target with
      | beginCoordinatorEpoch => exact hroom.again hm hm' hbegin hadm hres houtc'
      | _ =>
        rw [hbegin] at htarg
        cases htarg
    have hcongr : answer ((applied.later entry.index).applyCommand entry'.index entry'.term
        command) = answer (applied.applyCommand entry.index entry.term command) :=
      applyCommand_later hident htarg entry.index entry'.index entry'.term
    rw [happs.answered hdec', h.answered hdec] at hcongr
    exact Except.ok.inj hcongr
  obtain ⟨rfl, hbarred⟩ := houtc.barred hadm
  have hcls : ¬ Admitted (applied.later entry.index) command internal := by
    intro hadm'
    exact hadm ⟨hadm'.fresh, hadm'.fence⟩
  exact hbarred.unique (houtc'.barred hcls).2.of_later

/-! ## All of it -/

/-- What holds of the internal commands that come to a machine. -/
structure Fencing (m : Machine) : Prop where
  /-- A command written under another epoch changes nothing. The command that begins an epoch names
  none. -/
  foreign : ∀ {entry result m' command internal}, Applies m entry result m' →
    unmarshalCommand entry.command = some command → command.envelope.identity = .inr internal →
    command.envelope.kind ≠ .beginCoordinatorEpoch →
    command.envelope.coordinatorEpoch ≠ m.coordinatorEpoch → m' = m.later entry.index
  /-- Once effective, a command has no effect at any later time. -/
  once : ∀ {entry result m' command internal}, Applies m entry result m' →
    unmarshalCommand entry.command = some command → command.envelope.identity = .inr internal →
    Effective m m' → ∀ {log m1 entry' result' m2}, Run m' log m1 → Applies m1 entry' result' m2 →
    entry'.command = entry.command → ¬ Effective m1 m2
  /-- Delivered again at once, it gets the same answer. -/
  again : ∀ {entry result m' command internal}, Applies m entry result m' →
    unmarshalCommand entry.command = some command → command.envelope.identity = .inr internal →
    ∀ {entry' : LogEntry}, entry'.command = entry.command → entry.index < entry'.index →
    entry'.term ≠ 0 → ∃ m2, Applies m' entry' result m2
  /-- An effective command moves the revision of its subject by one. -/
  moves : ∀ {entry result m' command internal}, Applies m entry result m' →
    unmarshalCommand entry.command = some command → command.envelope.identity = .inr internal →
    Effective m m' → m.subjectRevision command.target.subject ≠ BitVec.allOnes 64 ∧
      m'.subjectRevision command.target.subject = m.subjectRevision command.target.subject + 1
  /-- A revision that moves does so by one, by an effective command on the subject, or, if it is that
  of a job's control, by a submission, a cancellation or the loss of a worker's incarnation. -/
  moved : ∀ {entry result m' subject}, Applies m entry result m' → subject.validate = true →
    m'.subjectRevision subject ≠ m.subjectRevision subject →
    Effective m m' ∧ m.subjectRevision subject ≠ BitVec.allOnes 64 ∧
      m'.subjectRevision subject = m.subjectRevision subject + 1 ∧
      ∃ command, unmarshalCommand entry.command = some command ∧
        (command.target.subject = subject ∨ ∃ key, subject = .jobControl key ∧ MovesControl command key)
  /-- Committed epochs grow. -/
  epochs : ∀ {log m'}, Run m log m' →
    m'.coordinatorEpoch = m.coordinatorEpoch ∨ EpochLess m.coordinatorEpoch m'.coordinatorEpoch

lemma TakesEffect.of_effective (h : Applies m entry result m')
    (hdec : unmarshalCommand entry.command = some command) (heffec : Effective m m') :
    ∃ next changed growth, TakesEffect m entry m' command next changed growth := by
  obtain hsame | ⟨command', next, changed, growth, heff⟩ := h.cases
  · exact absurd heffec hsame.not_effective
  cases hdec.symm.trans heff.decoded
  exact ⟨next, changed, growth, heff⟩

theorem coordinator_fencing (hm : Reachable m) : Fencing m where
  foreign := by
    intro entry result m' command internal happs hdec hident hkind hep
    exact happs.foreign hdec hident hkind hep
  once := by
    intro entry result m' command internal happs hdec hident heffec log m1 entry'
      result' m2 hrun happs' hsame heffec'
    obtain ⟨next, changed, growth, heff⟩ := TakesEffect.of_effective happs hdec heffec
    obtain ⟨next', changed', growth', heff'⟩ := TakesEffect.of_effective happs' (hsame ▸ hdec) heffec'
    exact heff.once hm hident hrun (hm.applies happs) heff'
  again := by
    intro entry result m' command internal happs hdec hident entry' hsame hltr hterm
    exact happs.redelivered hm hdec hident hsame hltr hterm
  moves := by
    intro entry result m' command internal happs hdec hident heffec
    obtain ⟨next, changed, growth, heff⟩ := TakesEffect.of_effective happs hdec heffec
    exact (heff.revision_self hm hident).2
  moved := by
    intro entry result m' subject happs hsubj hmvd
    obtain hsame | ⟨command, next, changed, growth, heff⟩ := happs.cases
    · exact absurd (hsame.subjectRevision subject) hmvd
    obtain hkept | ⟨hmoves, hmax, hnext⟩ := heff.revision hm hsubj
    · exact absurd hkept hmvd
    · exact ⟨heff.effective_of_revision hmvd, hmax, hnext, command, heff.decoded, hmoves⟩
  epochs := by
    intro log m' hrun
    exact hrun.epoch

end Steps

/-! ## The command that begins an epoch -/

section Begins

attribute [local instance] sampleContract

open Sample

theorem coordinator_fencing_registered : ∃ log m, Run .new log m ∧ m.coordinatorRevision = 1 ∧ Fencing m := by
  obtain ⟨log, m, hrun, hrev, -⟩ := registered_run
  exact ⟨log, m, hrun, hrev, coordinator_fencing ⟨log, hrun⟩⟩

/-- A second coordinator. -/
def beginAgain (m : Machine) : Command := m.issue 2 (.beginCoordinatorEpoch 9 6)

/-- An internal command whose epoch is not the committed one takes effect. -/
theorem begin_is_not_fenced :
    ∃ log m entry result m' command internal, Run .new log m ∧ Applies m entry result m' ∧
      unmarshalCommand entry.command = some command ∧ command.envelope.identity = .inr internal ∧
      command.envelope.coordinatorEpoch ≠ m.coordinatorEpoch ∧ Effective m m' := by
  obtain ⟨log, m, hrun, hchk⟩ := exists_run_of_follow [begin]
    (fun m => (m.perform 2 (beginAgain m)).any fun step =>
      unmarshalCommand step.1.command = some (beginAgain m) &&
        ((beginAgain m).envelope.coordinatorEpoch ≠ m.coordinatorEpoch &&
          step.2.coordinatorEpoch ≠ m.coordinatorEpoch)) (by decide +kernel)
  simp only [Option.any_eq_true, Bool.and_eq_true, decide_eq_true_eq] at hchk
  obtain ⟨⟨entry, m'⟩, hstep, hdec, hep, hchgd⟩ := hchk
  obtain ⟨result, happs⟩ := applies_of_perform hstep
  exact ⟨log, m, entry, result, m', beginAgain m, _, hrun, happs, hdec, rfl, hep, .inr (.inr (.inr hchgd))⟩

end Begins

end Crane.State
