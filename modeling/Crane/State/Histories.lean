import Crane.State.Revisions

/-!
# What histories hold

The invariants of the retained histories. What a history says of the latest effective command is
`AppliedOK`; what it says of the latest command, effective or not, is `RecordOK`. Outside of job
control a subject stands at the revision of its latest effective command; a job's control may have
moved on since, because cancellations and worker changes move it as well.
-/

namespace Crane.State

open Wire Data Model Target Command

/-- What a history says of the latest effective command. -/
structure AppliedOK (m : Machine) (subject : SubjectKey) (history : SubjectHistory) : Prop where
  applied : (history.appliedRevision = 0 ∧ history.appliedTarget = [] ∧ history.appliedResult = []) ∨
    (history.appliedRevision ≠ 0 ∧ history.appliedTarget ≠ [] ∧
      history.appliedTarget.length ≤ Limits.maxSubmitJobBytes ∧ history.appliedResult.length = 65)
  order : history.appliedRevision ≤ history.revision
  standing : history.revision ≤ m.subjectRevision subject
  /-- Only the revision of a job's control moves without a command on it. -/
  exact : subject.kind ≠ .jobControl →
    history.appliedRevision = history.revision ∧ history.revision = m.subjectRevision subject

/-- What a history says of the latest command. -/
structure RecordOK (subject : SubjectKey) (history : SubjectHistory) : Prop where
  id : history.id ≠ 0
  digest : history.digest ≠ 0
  target : history.target ≠ []
  short : history.target.length ≤ Limits.maxSubmitJobBytes
  result : history.result.length = 65
  /-- A command that took effect, or repeats one that did, is remembered with that one's result. -/
  current : history.applied = true → history.appliedRevision ≠ 0 ∧
    history.appliedRevision = history.revision ∧ history.result = history.appliedResult ∧
    (subject.kind = .coordinator ∨ history.target = history.appliedTarget)

structure Histories (m : Machine) : Prop where
  applied : ∀ subject, subject.validate = true → AppliedOK m subject (m.retained subject)
  record : ∀ subject history, m.subjects.find? subject = some history →
    subject.validate = true ∧ RecordOK subject history

section Steps

variable {m m' : Machine} {entry : LogEntry} {result : Bytes}
variable {next index term : U64} {command : Command} {changed : Machine} {growth : Int}
variable {subject : SubjectKey} {history : SubjectHistory} {internal : InternalEnvelope}

lemma AppliedOK.mono (h : AppliedOK m subject history)
    (hle : m.subjectRevision subject ≤ m'.subjectRevision subject)
    (heq : subject.kind ≠ .jobControl → m'.subjectRevision subject = m.subjectRevision subject) :
    AppliedOK m' subject history where
  applied := h.applied
  order := h.order
  standing := BitVec.le_trans h.standing hle
  exact hkind := by
    rw [heq hkind]
    exact h.exact hkind

/-! ## The bytes of a command -/

lemma Target.bytes_ne_nil {target : Target} (h : target.subject ≠ .unbound) : target.bytes ≠ [] := by
  intro hnil
  have hlen := congrArg List.length hnil
  revert hlen
  cases target <;> simp only [bytes, List.length_append, drainTargetCodec_length,
      deactivateTargetCodec_length, replaceEpochTargetCodec_length, workerRecordCodec_length,
      taskIDCodec_length, assignmentSetCodec_length, replaceAssignmentsTargetCodec_length,
      completionReportCodec_length, resultManifestCodec_length, transitionTargetCodec_length,
      jobFailureReportCodec_length, List.length_nil] <;> first
    | exact absurd rfl h
    | omega

/-- Outside of the coordinator's commands a repetition is recognised by the target alone. -/
lemma Target.appliedBytes_eq {target : Target} (h : target.subject ≠ .coordinator) (term : U64) :
    target.appliedBytes term = target.bytes := by
  cases target <;> first
    | exact absurd rfl h
    | rfl

lemma Target.appliedBytes_ok {target : Target} (h : target.subject ≠ .unbound)
    (hshort : target.bytes.length ≤ Limits.maxSubmitJobBytes) (term : U64) :
    target.appliedBytes term ≠ [] ∧ (target.appliedBytes term).length ≤ Limits.maxSubmitJobBytes := by
  by_cases hsubj : target.subject = .coordinator
  · cases target <;> try cases hsubj
    refine ⟨appliedBytes_begin_ne_nil term _ _, ?_⟩
    simp [appliedBytes, bytes]
    decide
  rw [appliedBytes_eq hsubj]
  exact ⟨bytes_ne_nil h, hshort⟩

variable [Contract]

lemma unmarshalCommand_short {encoded : Bytes} (h : unmarshalCommand encoded = some command) :
    command.target.bytes.length ≤ Limits.maxSubmitJobBytes := by
  obtain ⟨-, hbytes, hlen⟩ := unmarshalCommand_eq_some h
  rw [hbytes, List.length_append] at hlen
  exact Nat.le_of_add_left_le hlen

section

variable (hval : command.validate = true)

include hval

/-- What a checked internal command's envelope is known to hold. -/
lemma Command.internal_identity (hident : command.envelope.identity = .inr internal) :
    internal.id ≠ 0 ∧ internal.digest ≠ 0 := by
  simp only [validate, Envelope.validate, hident, Bool.and_eq_true, decide_eq_true_eq]
    at hval
  obtain ⟨⟨⟨-, ⟨hid, hdig⟩, -⟩, -⟩, -⟩ := hval
  exact ⟨hid, hdig⟩

lemma Command.client_identity {client : ClientEnvelope} (hident : command.envelope.identity = .inl client) :
    client.request.validate = true ∧ client.digest ≠ 0 := by
  simp only [validate, Envelope.validate, hident, Bool.and_eq_true, decide_eq_true_eq]
    at hval
  obtain ⟨⟨⟨-, hreq, hdig⟩, -⟩, -⟩ := hval
  exact ⟨hreq, hdig⟩

lemma Command.submit_valid {client : ClientEnvelope} {topology : TopologySpec}
    (hident : command.envelope.identity = .inl client) (htarg : command.target = .submitJob topology) :
    ∃ validated, validateTopology topology = some validated := by
  simp only [validate, hident, htarg, clientValid, Bool.and_eq_true] at hval
  obtain ⟨-, hval⟩ := hval
  split at hval
  · cases hval
  rename_i validated hvald
  exact ⟨validated, hvald⟩

end

/-! ## The invariant -/

/-- An entry moves the revision of another subject only if that is the control of a job. -/
lemma Applies.revision_other (hm : Reachable m) (h : Applies m entry result m')
    (hdec : unmarshalCommand entry.command = some command) (hval : subject.validate = true)
    (hoth : command.target.subject ≠ subject) : m.subjectRevision subject ≤ m'.subjectRevision subject ∧
      (subject.kind ≠ .jobControl → m'.subjectRevision subject = m.subjectRevision subject) := by
  obtain hsame | ⟨command', next, changed, growth, heff⟩ := h.cases
  · rw [hsame.subjectRevision]
    exact ⟨BitVec.le_refl _, fun _ => rfl⟩
  obtain rfl : command' = command := by
    rw [heff.decoded] at hdec
    exact Option.some.inj hdec
  obtain hkept | ⟨hmoves, hmax, hmvd⟩ := heff.revision hm hval
  · rw [hkept]
    exact ⟨BitVec.le_refl _, fun _ => rfl⟩
  obtain hself | ⟨key, rfl, -⟩ := hmoves
  · exact absurd hself hoth
  rw [hmvd, BitVec.le_def, toNat_succ hmax]
  exact ⟨Nat.le_succ _, fun hkind => absurd rfl hkind⟩

section

omit [Contract]

/-- A command without effect leaves a history that stands where its subject stands. -/
lemma AppliedOK.resume (h : AppliedOK m subject (m.retained subject))
    (hrev : history.revision = m.subjectRevision subject)
    (hsame : m'.subjectRevision subject = m.subjectRevision subject)
    (htarg : history.appliedTarget = (m.retained subject).appliedTarget)
    (hres : history.appliedResult = (m.retained subject).appliedResult)
    (happd : history.appliedRevision = (m.retained subject).appliedRevision) :
    AppliedOK m' subject history where
  applied := by
    rw [htarg, hres, happd]
    exact h.applied
  order := by
    rw [hrev, happd]
    exact BitVec.le_trans h.order h.standing
  standing := by
    rw [hrev, hsame]
    exact BitVec.le_refl _
  exact hkind := by
    rw [happd, hrev, hsame]
    obtain ⟨hexact, hstand⟩ := h.exact hkind
    exact ⟨hexact.trans hstand, rfl⟩

lemma Histories.store (h : Histories m) (hsubj : m'.subjects = m.subjects.insert subject history)
    (hval : subject.validate = true) (happd : AppliedOK m' subject history) (hrec : RecordOK subject history)
    (hoths : ∀ other, other.validate = true → subject ≠ other →
      AppliedOK m' other (m.retained other)) : Histories m' where
  applied other hoth := by
    unfold Machine.retained
    rw [hsubj]
    by_cases heq : subject = other
    · rw [← heq, Table.find?_insert_self]
      exact happd
    rw [Table.find?_insert_ne _ _ heq]
    exact hoths other hoth heq
  record other stored hsto := by
    rw [hsubj] at hsto
    by_cases heq : subject = other
    · rw [← heq, Table.find?_insert_self] at hsto
      rw [← heq, ← Option.some.inj hsto]
      exact ⟨hval, hrec⟩
    rw [Table.find?_insert_ne _ _ heq] at hsto
    exact h.record other stored hsto

lemma Histories.keep (h : Histories m) (hsubj : m'.subjects = m.subjects)
    (hoths : ∀ subject, subject.validate = true → AppliedOK m' subject (m.retained subject)) :
    Histories m' where
  applied subject hval := by
    unfold Machine.retained
    rw [hsubj]
    exact hoths subject hval
  record subject history hsto := by
    rw [hsubj] at hsto
    exact h.record subject history hsto

end

/-- What a refused command is remembered with. -/
lemma RecordOK.refuse (old : SubjectHistory) (hval : command.validate = true)
    (hident : command.envelope.identity = .inr internal)
    (hshort : command.target.bytes.length ≤ Limits.maxSubmitJobBytes) (hres : result.length = 65) :
    RecordOK command.target.subject (old.refuse internal command.target.bytes result) where
  id := (internal_identity hval hident).1
  digest := (internal_identity hval hident).2
  target := Target.bytes_ne_nil (internal_subject hval hident).2.2
  short := hshort
  result := hres
  current := nofun

/-- What a command on a subject leaves in its history. -/
lemma InternalOutcome.histories {applied : Machine} (hm : Reachable m) (hhists : Histories m)
    (hval : command.validate = true) (hident : command.envelope.identity = .inr internal)
    (hshort : command.target.bytes.length ≤ Limits.maxSubmitJobBytes)
    (hoths : ∀ other, other.validate = true → command.target.subject ≠ other →
      AppliedOK applied other (m.retained other))
    (h : InternalOutcome m index term command internal applied result) : Histories applied := by
  obtain ⟨hsubj, -, hbd⟩ := internal_subject hval hident
  obtain ⟨hid, hdig⟩ := internal_identity hval hident
  have hret := hhists.applied _ hsubj
  have hstand := hm.standing.standing_eq command.target
  -- a refusal of whatever kind
  have hrefuse : ∀ answer size, answer.length = 65 →
      applied = m.storeSubject command.target.subject ((m.resumed command.target).refuse internal
        command.target.bytes answer) size → Histories applied := by
    intro answer size hlen happd
    refine hhists.store (by rw [happd]; rfl) hsubj ?_
      (.refuse _ hval hident hshort hlen) hoths
    exact hret.resume hstand (by rw [happd]; rfl) rfl rfl rfl
  cases h with
  | recalled hadm hfind hne htarg hrev hsto =>
    rename_i history newSize
    have heq : m.retained command.target.subject = history := by
      rw [Machine.retained, hfind]
      rfl
    rw [← heq] at hne htarg hrev
    have happd := hret.applied.resolve_left (fun hnone => hne hnone.2.1)
    refine hhists.store rfl hsubj (hret.resume hstand rfl rfl rfl rfl)
      ⟨hid, hdig, bytes_ne_nil hbd, hshort, happd.2.2.2, ?_⟩ hoths
    intro _
    refine ⟨happd.1, hrev, rfl, ?_⟩
    by_cases hkind : command.target.subject = .coordinator
    · exact .inl (by rw [hkind]; rfl)
    · exact .inr (by rw [← appliedBytes_eq hkind term]; exact htarg.symm)
  | mismatched _ _ hres | refused _ _ _ hres | outdated _ _ _ _ hres =>
    exact hrefuse _ _ (marshalCommandResult_length hres) rfl
  | begun _ htarg hnew hcur hterm hcoord hnonce =>
    exact absurd (hm.standing.not_begun htarg hcur hterm hcoord hnonce) hnew
  | effected hadm hexp hmax heff hep hres hsto =>
    rename_i changed delta epoch newSize
    have hlen := marshalCommandResult_length hres
    obtain ⟨hfull, hfits⟩ := appliedBytes_ok hbd hshort term
    have hnext : m.standing command.target + 1 ≠ 0 := succ_ne_zero hmax
    have hself : changed.subjectRevision command.target.subject = m.standing command.target + 1 :=
      heff.revision_self hm.keyed hbd
    have hsubjects := congrArg (fun subjects : Table SubjectKey SubjectHistory =>
      subjects.insert command.target.subject ((m.resumed command.target).advance internal
        command.target.bytes (command.target.appliedBytes term) result)) heff.sameHistories.subjects
    refine hhists.store hsubjects hsubj ?_ ?_ hoths
    · exact ⟨.inr ⟨hnext, hfull, hfits, hlen⟩, BitVec.le_refl _, BitVec.le_of_eq hself.symm,
        fun _ => ⟨rfl, hself.symm⟩⟩
    refine ⟨hid, hdig, bytes_ne_nil hbd, hshort, hlen, fun _ => ⟨hnext, rfl, rfl, ?_⟩⟩
    by_cases hkind : command.target.subject = .coordinator
    · exact .inl (by rw [hkind]; rfl)
    · exact .inr (appliedBytes_eq hkind term).symm
  | _ =>
    refine hhists.keep rfl ?_
    intro other hoth
    exact hhists.applied other hoth

lemma Applies.histories (hm : Reachable m) (hhists : Histories m)
    (h : Applies m entry result m') : Histories m' := by
  obtain ⟨command, applied, hdec, hval, -, -, houtc, rfl⟩ := h.outcome
  -- the last index matters to no history
  suffices hall : Histories applied from ⟨fun subject hsubj => (hall.applied subject hsubj).mono
    (BitVec.le_refl _) (fun _ => rfl), hall.record⟩
  have hoths : ∀ other, other.validate = true → command.target.subject ≠ other →
      AppliedOK applied other (m.retained other) := by
    intro other hoth hne
    obtain ⟨hle, heq⟩ := h.revision_other hm hdec hoth hne
    exact (hhists.applied other hoth).mono hle heq
  cases houtc with
  | internal hident houtc => exact houtc.histories hm hhists hval hident (unmarshalCommand_short hdec) hoths
  | client hident _ houtc =>
    have hunbound := (client_target hval hident).2
    refine hhists.keep ?_ ?_
    · cases houtc with
      | effected heff => exact heff.sameHistories.subjects
      | _ => rfl
    intro subject hsubj
    refine hoths subject hsubj ?_
    intro heq
    rw [← heq, hunbound] at hsubj
    cases hsubj

lemma Reachable.histories (h : Reachable m) : Histories m := by
  refine h.induct ?_ ?_
  · refine ⟨?_, nofun⟩
    intro subject hsubj
    have hzero : Machine.new.subjectRevision subject = 0 := by
      obtain rfl | ⟨workerID, -, rfl⟩ | ⟨job, -, rfl⟩ | ⟨task, -, rfl | rfl | rfl⟩ :=
        SubjectKey.validate_cases hsubj <;> rfl
    exact ⟨.inl ⟨rfl, rfl, rfl⟩, BitVec.le_refl _, BitVec.le_def.mpr (Nat.zero_le _), fun _ => ⟨rfl, hzero.symm⟩⟩
  intro m entry result m' hreach hm happs
  exact happs.histories hreach hm

/-! ## The fence -/

/-- There is a fence as soon as there was a coordinator, and it was begun by an applied entry. -/
def Fenced (m : Machine) : Prop :=
  (m.coordinatorRevision = 0 ∧ m.coordinatorEpoch = .zero) ∨
    (m.coordinatorRevision ≠ 0 ∧ m.coordinatorEpoch.validate = true ∧
      m.coordinatorEpoch.beginIndex ≤ m.lastAppliedIndex)

lemma Applies.fenced (hm : Reachable m) (hfnd : Fenced m) (h : Applies m entry result m') : Fenced m' := by
  obtain ⟨hlast, hltr⟩ := h.index
  have hkept : m'.coordinatorRevision = m.coordinatorRevision →
      m'.coordinatorEpoch = m.coordinatorEpoch → Fenced m' := by
    intro hrev hep
    rw [Fenced, hrev, hep, hlast]
    refine hfnd.imp_right ?_
    intro ⟨hrev, hval, hbegun⟩
    exact ⟨hrev, hval, Nat.le_of_lt (Nat.lt_of_le_of_lt hbegun hltr)⟩
  obtain hsame | ⟨command, next, changed, growth, heff⟩ := h.cases
  · exact hkept hsame.coordinatorRevision hsame.coordinatorEpoch
  have hrev := heff.effect.coordinatorRevision
  obtain ⟨hep, hoth⟩ | ⟨coordinator, nonce, htarg, hep, hval, -⟩ := heff.effect.coordinatorEpoch
  · refine hkept ?_ (heff.same.coordinatorEpoch.trans hep)
    exact heff.same.coordinatorRevision.trans (hrev.resolve_right fun h => hoth h.1)
  -- the new fence is begun by this very entry
  right
  rw [heff.same.coordinatorRevision, heff.same.coordinatorEpoch, hep, hlast]
  refine ⟨?_, hval, BitVec.le_refl _⟩
  have hsubj : command.target.subject = .coordinator := by rw [htarg]; rfl
  have hself := heff.effect.revision_self hm.keyed (by rw [hsubj]; exact nofun)
  rw [hsubj] at hself
  cases hident : command.envelope.identity with
  | inl =>
    rw [(client_target heff.valid hident).2] at hsubj
    cases hsubj
  | inr internal =>
    obtain ⟨-, -, hmax, hnext⟩ := heff.internal internal hident
    rw [show changed.coordinatorRevision = next from hself, hnext]
    exact succ_ne_zero hmax

lemma Reachable.fenced (h : Reachable m) : Fenced m := by
  refine h.induct (.inl ⟨rfl, rfl⟩) ?_
  intro m entry result m' hreach hm happs
  exact happs.fenced hreach hm

end Steps

end Crane.State
