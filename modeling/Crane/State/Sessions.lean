import Crane.State.Fencing

/-!
# What clients are promised

A client numbers its requests from one. Of each client the machine remembers the latest request that
it resolved, with the answer. A client's command either changes nothing but the index, or is the
client's next request and becomes the remembered one (`Applies.client_cases`); the order of the
requests, the answers to repetitions and the uniqueness of submitted jobs all follow from that.
-/

namespace Crane.State

open Wire Data Model Machine

variable {log : List LogEntry} {key : JobID}

/-- The client's latest resolved request; zero if there is none. -/
def Machine.lastSequence (m : Machine) (client : ClientID) : U64 :=
  ((m.clients.find? client).map (·.sequence)).getD 0

/-- The answers that leave a client's request open. An answer of identity reuse that names a job is
not one of them: it says that the identifier derived for the job is taken (`ResultIdentityCollision`
has the code of `ResultIdentityReuse`). -/
def LeavesOpen (answer : CommandResult) : Prop :=
  answer.code = .capacityExhausted ∨ answer.code = .staleEpoch ∨ answer.code = .staleRequest ∨
    answer.code = .skippedRequest ∨ (answer.code = .identityReuse ∧ answer.subject = .none)

section Steps

variable {m m' : Machine} {entry : LogEntry} {result : Bytes} {command : Command}
variable {client : ClientEnvelope} {internal : InternalEnvelope} {id : ClientID}

lemma lastSequence_congr (h : m'.clients.find? id = m.clients.find? id) :
    m'.lastSequence id = m.lastSequence id := by
  unfold lastSequence
  rw [h]

lemma IsNext.sequence {request : ClientRequestID} (h : IsNext m request) :
    m.lastSequence request.clientID ≠ BitVec.allOnes 64 ∧
      request.sequence = m.lastSequence request.clientID + 1 := by
  unfold IsNext at h
  unfold lastSequence
  cases hret : m.clients.find? request.clientID with
  | none =>
    rw [hret] at h
    exact ⟨by decide, h.1⟩
  | some =>
    rw [hret] at h
    exact h

variable [Contract]

/-! ## One entry -/

/-- The request is resolved: it was the next one and is the latest now. -/
structure ResolvedAs (m m' : Machine) (client : ClientEnvelope) (result : Bytes) : Prop where
  next : IsNext m client.request
  retained : m'.clients.find? client.request.clientID = some ⟨client.request.sequence, client.digest, result⟩
  others : ∀ id, id ≠ client.request.clientID → m'.clients.find? id = m.clients.find? id

omit [Contract] in
lemma resolvedAs_storeClient {changed : Machine} {size : Nat} (hnext : IsNext m client.request)
    (hsame : changed.clients = m.clients) : ResolvedAs m (changed.storeClient client.request.clientID
      ⟨client.request.sequence, client.digest, result⟩ size) client result := by
  refine ⟨hnext, Table.find?_insert_self _ _ _, ?_⟩
  intro id hoth
  unfold storeClient
  rw [Table.find?_insert_ne _ _ (Ne.symm hoth), hsame]

section

variable (h : Applies m entry result m')

include h

section

variable (hdecoded : unmarshalCommand entry.command = some command)

include hdecoded

lemma Applies.client_cases (hident : command.envelope.identity = .inl client) :
    m' = m.later entry.index ∨ ResolvedAs m m' client result := by
  obtain ⟨command', applied, hdecoded', -, -, -, houtc, rfl⟩ := h.outcome
  cases hdecoded.symm.trans hdecoded'
  cases houtc with
  | internal hident' => cases hident.symm.trans hident'
  | client hident' _ houtc =>
    cases hident.symm.trans hident'
    have hresolve : ∀ {stored : Machine}, ResolvedAs m stored client result →
        ResolvedAs m (stored.later entry.index) client result := by
      intro stored hsto
      exact ⟨hsto.next, hsto.retained, hsto.others⟩
    cases houtc with
    | replayed | fenced | unresolved | full => exact .inl rfl
    | answered _ _ hresol => exact .inr (hresolve (resolvedAs_storeClient hresol.next rfl))
    | effected heff _ hresol =>
      exact .inr (hresolve (resolvedAs_storeClient hresol.next heff.sameHistories.clients))

/-- Internal commands leave the clients alone. -/
lemma Applies.clients_internal (hident : command.envelope.identity = .inr internal)
    : m'.clients = m.clients := by
  obtain ⟨applied, rfl, houtc⟩ := h.internal_outcome hdecoded hident
  cases houtc with
  | effected _ _ _ heff => exact heff.sameHistories.clients
  | _ => rfl

end

/-- A client's record stands, or the client's next request takes its place. -/
lemma Applies.session (id : ClientID) : m'.clients.find? id = m.clients.find? id ∨ ∃ command client,
      unmarshalCommand entry.command = some command ∧ command.envelope.identity = .inl client ∧
        client.request.clientID = id ∧ ResolvedAs m m' client result := by
  obtain ⟨command, -, hdecoded, -⟩ := h.outcome
  cases hident : command.envelope.identity with
  | inr =>
    left
    rw [h.clients_internal hdecoded hident]
  | inl client =>
    obtain rfl | hresol := h.client_cases hdecoded hident
    · exact .inl rfl
    by_cases hid : id = client.request.clientID
    · exact .inr ⟨command, client, hdecoded, hident, hid.symm, hresol⟩
    · exact .inl (hresol.others id hid)

end

omit [Contract] in
lemma ResolvedAs.lastSequence (h : ResolvedAs m m' client result) :
    m.lastSequence client.request.clientID ≠ BitVec.allOnes 64 ∧
      m'.lastSequence client.request.clientID = m.lastSequence client.request.clientID + 1 := by
  obtain ⟨hmax, hnext⟩ := h.next.sequence
  refine ⟨hmax, ?_⟩
  rw [← hnext]
  unfold Machine.lastSequence
  rw [h.retained]
  rfl

/-! ## Runs -/

/-- While a client's sequence stands, so does its record. -/
lemma Run.session (h : Run m log m') (id : ClientID) :
    m'.clients.find? id = m.clients.find? id ∨ m.lastSequence id < m'.lastSequence id := by
  induction h with
  | start => exact .inl rfl
  | next hrun hstep ih =>
    rename_i m1 m2 entry result
    obtain hkept | ⟨command, client, -, -, rfl, hresol⟩ := hstep.session id
    · rw [hkept, lastSequence_congr hkept]
      exact ih
    right
    obtain ⟨hmax, hnext⟩ := hresol.lastSequence
    have hgrow : m1.lastSequence client.request.clientID <
        m2.lastSequence client.request.clientID := by
      rw [hnext, BitVec.lt_def, toNat_succ hmax]
      exact Nat.lt_succ_self _
    obtain hkept | hless := ih
    · rw [← lastSequence_congr hkept]
      exact hgrow
    · exact BitVec.lt_trans hless hgrow

lemma Run.lastSequence_le (h : Run m log m') (id : ClientID) : m.lastSequence id ≤ m'.lastSequence id := by
  obtain hkept | hless := h.session id
  · rw [lastSequence_congr hkept]
    exact BitVec.le_refl _
  · exact BitVec.le_of_lt hless

/-! ## Answers -/

/-- The latest resolved request is answered as it was, under whatever epoch it comes. -/
lemma applies_replay {history : ClientHistory} (hdecoded : unmarshalCommand entry.command = some command)
    (hident : command.envelope.identity = .inl client)
    (hret : m.clients.find? client.request.clientID = some history)
    (hseq : client.request.sequence = history.sequence)
    (hdig : client.digest = history.digest) (hltr : m.lastAppliedIndex < entry.index)
    (hterm : entry.term ≠ 0) : Applies m entry history.result (m.later entry.index) := by
  obtain ⟨hval, -⟩ := unmarshalCommand_eq_some hdecoded
  obtain ⟨hreq, hnz⟩ := Command.client_identity hval hident
  have hcli : ∀ subject prepare,
      m.applyClientCommand command.envelope client subject prepare = .ok (m, history.result) := by
    intro subject prepare
    unfold applyClientCommand
    simp only [hret, Option.any_some, Option.getD_some]
    rw [if_neg (by rw [hreq, not_or]; exact ⟨nofun, hnz⟩), if_pos (decide_eq_true ⟨hseq, hdig⟩)]
  have hcmd : m.applyCommand entry.index entry.term command = .ok (m, history.result) := by
    unfold applyCommand
    obtain ⟨⟨topology, htarg⟩ | ⟨job, expected, htarg⟩, -⟩ := Command.client_target hval hident
    · obtain ⟨validated, hvald⟩ := Command.submit_valid hval hident htarg
      simp only [hident, htarg, applySubmitJob, hvald]
      exact hcli _ _
    simp only [hident, htarg]
    exact hcli _ _
  exact applies_of_ok hltr hterm hdecoded hcmd

lemma Applies.leaves_open (h : Applies m entry result m')
    (hdecoded : unmarshalCommand entry.command = some command)
    (hident : command.envelope.identity = .inl client) {answer : CommandResult}
    (hans : unmarshalCommandResult result = some answer) (hopen : LeavesOpen answer) :
    m' = m.later entry.index := by
  obtain ⟨command', applied, hdecoded', -, -, -, houtc, rfl⟩ := h.outcome
  cases hdecoded.symm.trans hdecoded'
  cases houtc with
  | internal hident' => cases hident.symm.trans hident'
  | client _ _ houtc =>
    -- an answer that is remembered has one of three codes, and names the job
    have hcls : ∀ {code job revision epoch},
        code = .success ∨ code = .revisionMismatch ∨ code = .identityReuse →
        marshalBusinessResult code (.jobControl job) revision epoch = some result → False := by
      intro code job revision epoch hcode hres
      have hsame := (unmarshal_marshalCommandResult hres).symm.trans hans
      cases hsame
      obtain rfl | rfl | rfl := hcode <;> obtain h | h | h | h | ⟨-, h⟩ := hopen <;> cases h
    cases houtc with
    | replayed | fenced | unresolved | full => rfl
    | answered hcode hres =>
      refine absurd hres (hcls ?_)
      obtain hcode | hcode | ⟨hcode, -⟩ := hcode
      · exact .inl hcode
      · exact .inr (.inl hcode)
      · exact .inr (.inr hcode)
    | effected _ hres => exact absurd hres (hcls (.inl rfl))

/-! ## Jobs and the requests that define them -/

/-- A job of the next machine was there, or the entry submitted it. -/
lemma Applies.definitions (hm : Reachable m) (h : Applies m entry result m') {job' : JobRecord}
    (hjob' : m'.jobs.find? key = some job') : (∃ job, m.jobs.find? key = some job ∧ SameDefinition job job') ∨
      ∃ command client topology validated, unmarshalCommand entry.command = some command ∧
        command.envelope.identity = .inl client ∧ command.target = .submitJob topology ∧
        validateTopology topology = some validated ∧
        key = deriveJobID client.request validated.digest ∧ job'.definingRequest = client.request ∧
        ResolvedAs m m' client result := by
  obtain hsame | ⟨command, next, changed, growth, heff, hstep⟩ := h.jobStep hm.keyed key
  · exact .inl ⟨job', hsame ▸ hjob', ⟨rfl, rfl, rfl, rfl⟩⟩
  rw [hjob'] at hstep
  cases hold : m.jobs.find? key with
  | some job =>
    rw [hold] at hstep
    obtain hsame | ⟨cursor, delta, hchg⟩ := hstep.cases_some
    · exact .inl ⟨job, rfl, hsame.toSameDefinition⟩
    · exact .inl ⟨job, rfl, hchg.sameDefinition⟩
  | none =>
    rw [hold] at hstep
    cases hstep with
    | submitted htarg hident hvald hkey hnext =>
      rename_i client topology validated
      obtain rfl | hresol := h.client_cases heff.decoded hident
      · -- the job is new, so that more than the index changed
        rw [later, hold] at hjob'
        cases hjob'
      · exact .inr ⟨command, client, topology, validated, heff.decoded, hident, htarg, hvald, hkey, rfl, hresol⟩

/-- The jobs and the requests that define them. -/
structure Defined (m : Machine) : Prop where
  resolved : ∀ key job, m.jobs.find? key = some job →
    job.definingRequest.sequence ≤ m.lastSequence job.definingRequest.clientID
  unique : ∀ key key' job job', m.jobs.find? key = some job → m.jobs.find? key' = some job' →
    job.definingRequest = job'.definingRequest → key = key'

omit [Contract] in
/-- A request that is resolved now defines no job yet. -/
lemma Defined.fresh (hm : Defined m) (hresol : ResolvedAs m m' client result) {job : JobRecord}
    (hjob : m.jobs.find? key = some job) : job.definingRequest ≠ client.request := by
  intro hreq
  have hle := hm.resolved key job hjob
  obtain ⟨hmax, hnext⟩ := hresol.next.sequence
  rw [hreq, hnext, BitVec.le_def, toNat_succ hmax] at hle
  exact Nat.not_succ_le_self _ hle

lemma Applies.defined (hreach : Reachable m) (hm : Defined m) (h : Applies m entry result m') : Defined m' where
  resolved key job' hjob' := by
    obtain ⟨job, hjob, hsame⟩ | ⟨command, client, topology, validated, -, -, -, -, -, hreq,
      hresol⟩ := h.definitions hreach hjob'
    · rw [hsame.definingRequest]
      exact BitVec.le_trans (hm.resolved key job hjob)
        ((Run.next .start h).lastSequence_le job.definingRequest.clientID)
    rw [hreq, hresol.lastSequence.2, hresol.next.sequence.2]
    exact BitVec.le_refl _
  unique key₁ key₂ job1 job2 hjob1 hjob2 hreq := by
    obtain ⟨old₁, hold1, hsame1⟩ | ⟨command₁, client₁, topology₁, validated₁, hdecoded1, hident1,
      htarg1, hvald1, hkey1, hreq1, hresol1⟩ := h.definitions hreach hjob1 <;>
    obtain ⟨old₂, hold2, hsame2⟩ | ⟨command₂, client₂, topology₂, validated₂, hdecoded2, hident2,
      htarg2, hvald2, hkey2, hreq2, hresol2⟩ := h.definitions hreach hjob2
    · rw [hsame1.definingRequest, hsame2.definingRequest] at hreq
      exact hm.unique key₁ key₂ old₁ old₂ hold1 hold2 hreq
    · rw [hsame1.definingRequest, hreq2] at hreq
      exact absurd hreq (hm.fresh hresol2 hold1)
    · rw [hsame2.definingRequest, hreq1] at hreq
      exact absurd hreq.symm (hm.fresh hresol1 hold2)
    -- one entry submits one job
    cases hdecoded1.symm.trans hdecoded2
    cases hident1.symm.trans hident2
    cases htarg1.symm.trans htarg2
    cases hvald1.symm.trans hvald2
    rw [hkey1, hkey2]

lemma Reachable.defined (h : Reachable m) : Defined m := by
  refine h.induct ?_ ?_
  · constructor
    · intro key job hjob
      cases hjob
    intro key key' job job' hjob
    cases hjob
  intro m entry result m' hreach hm happs
  exact happs.defined hreach hm

/-- Jobs stay, and keep their definitions. -/
lemma Run.definition (hm : Reachable m) (h : Run m log m') {job : JobRecord}
    (hjob : m.jobs.find? key = some job) :
    ∃ job', m'.jobs.find? key = some job' ∧ job'.definingRequest = job.definingRequest := by
  induction h with
  | start => exact ⟨job, hjob, rfl⟩
  | next hrun hstep ih =>
    rename_i m1 m2 entry result
    obtain ⟨job1, hjob1, hreq⟩ := ih
    obtain ⟨job2, hjob2, hkept⟩ := hstep.jobKept (hm.run hrun).keyed hjob1
    refine ⟨job2, hjob2, ?_⟩
    cases hkept with
    | inl hsame =>
      rw [hsame]
      exact hreq
    | inr hmvd =>
      obtain ⟨command, next, changed, growth, -, hjobStep⟩ := hmvd
      obtain hsame | ⟨cursor, delta, hchg⟩ := hjobStep.cases_some
      · exact hsame.definingRequest.trans hreq
      · exact hchg.sameDefinition.definingRequest.trans hreq

/-! ## All of it -/

/-- The entry resolves a request of the client. -/
def Resolves (m m' : Machine) (id : ClientID) : Prop := m'.clients.find? id ≠ m.clients.find? id

structure ExactlyOnce (m : Machine) : Prop where
  /-- Requests are resolved one after the other, the first of them being number one. -/
  ordered : ∀ {entry result m' id}, Applies m entry result m' → Resolves m m' id →
    ∃ command client, unmarshalCommand entry.command = some command ∧
      command.envelope.identity = .inl client ∧ client.request.clientID = id ∧
      m.lastSequence id ≠ BitVec.allOnes 64 ∧ client.request.sequence = m.lastSequence id + 1 ∧
      m'.clients.find? id = some ⟨client.request.sequence, client.digest, result⟩
  /-- What is resolved later has a higher number. -/
  once : ∀ {entry result m' log m1 entry' result' m2 id}, Applies m entry result m' →
    Resolves m m' id → Run m' log m1 → Applies m1 entry' result' m2 → Resolves m1 m2 id →
    m'.lastSequence id < m2.lastSequence id
  /-- While a request is the latest resolved, its repetitions get its answer and change nothing. -/
  replayed : ∀ {entry result m' command client log m1}, Applies m entry result m' →
    unmarshalCommand entry.command = some command → command.envelope.identity = .inl client →
    Resolves m m' client.request.clientID → Run m' log m1 →
    m1.lastSequence client.request.clientID = client.request.sequence →
    ∀ {entry' : LogEntry} {command' client'}, unmarshalCommand entry'.command = some command' →
    command'.envelope.identity = .inl client' → client'.request = client.request →
    client'.digest = client.digest → m1.lastAppliedIndex < entry'.index → entry'.term ≠ 0 →
    Applies m1 entry' result (m1.later entry'.index)
  /-- The answers that resolve nothing change nothing. -/
  leftOpen : ∀ {entry result m' command client answer}, Applies m entry result m' →
    unmarshalCommand entry.command = some command → command.envelope.identity = .inl client →
    unmarshalCommandResult result = some answer → LeavesOpen answer → m' = m.later entry.index
  /-- One request defines one job, now and at any later time. -/
  oneJob : ∀ {log m' key key' job job'}, Run m log m' → m.jobs.find? key = some job →
    m'.jobs.find? key' = some job' → job.definingRequest = job'.definingRequest → key = key'

theorem client_commands_exactly_once (hm : Reachable m) : ExactlyOnce m where
  ordered := by
    intro entry result m' id happs hresolves
    obtain hkept | ⟨command, client, hdecoded, hident, rfl, hresol⟩ := happs.session id
    · exact absurd hkept hresolves
    obtain ⟨hmax, hnext⟩ := hresol.next.sequence
    exact ⟨command, client, hdecoded, hident, rfl, hmax, hnext, hresol.retained⟩
  once := by
    intro entry result m' log m1 entry' result' m2 id happs hresolves hrun happs' hresol'
    obtain hkept | ⟨command, client, -, -, rfl, hresol⟩ := happs'.session id
    · exact absurd hkept hresol'
    obtain ⟨hmax, hnext⟩ := hresol.lastSequence
    have hle := hrun.lastSequence_le client.request.clientID
    rw [hnext, BitVec.lt_def, toNat_succ hmax]
    exact Nat.lt_succ_of_le hle
  replayed := by
    intro entry result m' command client log m1 happs hdecoded hident hresolves hrun hlast
      entry' command' client' hdecoded' hident' hreq hdig hltr hterm
    obtain rfl | hresol := happs.client_cases hdecoded hident
    · exact absurd rfl hresolves
    -- the sequence still stands, hence so does the record
    have hret : m1.clients.find? client'.request.clientID =
        some ⟨client.request.sequence, client.digest, result⟩ := by
      rw [hreq]
      obtain hkept | hless := hrun.session client.request.clientID
      · rw [hkept, hresol.retained]
      rw [hlast, hresol.lastSequence.2, hresol.next.sequence.2] at hless
      exact absurd hless (BitVec.lt_irrefl _)
    exact applies_replay hdecoded' hident' hret (congrArg (·.sequence) hreq) hdig
      hltr hterm
  leftOpen := by
    intro entry result m' command client answer happs hdecoded hident hans hopen
    exact happs.leaves_open hdecoded hident hans hopen
  oneJob := by
    intro log m' key key' job job' hrun hjob hjob' hreq
    obtain ⟨job1, hjob1, hreq1⟩ := hrun.definition hm hjob
    exact (hm.run hrun).defined.unique key key' job1 job' hjob1 hjob' (hreq1.trans hreq)

end Steps

section Submitted

attribute [local instance] sampleContract

open Sample

/-- A client has submitted its first job. -/
theorem client_commands_exactly_once_submitted :
    ∃ log m, Run .new log m ∧ m.lastSequence 7 = 1 ∧ m.jobs.size = 1 ∧ ExactlyOnce m := by
  obtain ⟨log, m, hrun, hchk⟩ := exists_run_of_follow [begin, submit]
    (fun m => m.lastSequence 7 = 1 && m.jobs.size = 1) (by decide +kernel)
  simp only [Bool.and_eq_true, decide_eq_true_eq] at hchk
  exact ⟨log, m, hrun, hchk.1, hchk.2, client_commands_exactly_once ⟨log, hrun⟩⟩

end Submitted

end Crane.State
