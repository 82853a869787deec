import Crane.Raft.Phases

/-!
# Every input keeps a voter in line

One lemma for each input of `Process.step`, then `Host.step` as a whole: whatever a voter does on
an input is an action of that voter in the history (mostly none at all), after which its store and
its place are in line again, everything it sent is true and everything it showed is about
committed entries.
-/

namespace Crane.Raft

open Consensus Program List Except Prod Option

variable {σ : Type} [Hash] {cfg : Config σ} {s : History} {n : Nat} {store : MemoryStore}
  {node : Node σ} {ready : Ready}
variable {c : Core} {token sample : Nat} {d : RecoveredState} {node' : Node σ} {m : PeerMessage}

/-- An effect is accounted for by an action of the voter. -/
def Effect.Ok (cfg : Config σ) (s : History) (n : Nat) (effect : Effect σ) : Prop :=
  ∃ s', Acts cfg.voters.setting n s s' ∧ HostOk cfg s' n effect.host ∧
    (∀ envelope ∈ effect.sent, Sent cfg s' envelope) ∧
    ∀ event ∈ effect.events, Witnessed cfg s' event

lemma Stored.stopped (h : Stored cfg s n store) : HostOk cfg s n (.stopped store) :=
  ⟨h.stage none, fun _ hp => absurd hp (by simp [Host.stopped])⟩

lemma Stored.running (h : Stored cfg s n store) (phase : Phase)
    (hp : ProcessOk cfg s n store ⟨node, phase⟩) : HostOk cfg s n (.running store node phase) := by
  refine ⟨h, fun process hproc => ?_⟩
  obtain rfl := some.inj hproc
  exact hp

/-- Nothing happens in the history, nothing is sent or shown. -/
lemma HostOk.silent {host : Host σ} (h : HostOk cfg s n host) : (Effect.silent host).Ok cfg s n :=
  ⟨s, .refl s, h, by simp [Effect.silent], by simp [Effect.silent]⟩

/-! ## Events -/

section

variable (hst : Stored cfg s n store)

include hst

section

variable (h : Waiting cfg s n store node)

include h

/-- A core input in a waiting node. -/
lemma Waiting.onCore {α : Type} {fatal : RaftError → Bool} {program : CoreM α}
    {accept : α → Node σ → Node σ} (rpc : Option RPC) (hj : ∀ r, rpc = some r → Justified cfg s r)
    (hspec : Ensures program node.core
      (fun a c' => ∃ before, Handled store.state.snapshot before rpc node.core c' ∧
        accept a { node with core := c' } = { node with core := c', pendingLocal := before })
      (fun e c' => fatal e = true ∨ c' = node.core))
    :
    (node.onCore store fatal program accept).Ok cfg s n := by
  unfold Node.onCore
  unfold Ensures at hspec
  cases hrun : program node.core with
  | ok =>
    rw [hrun] at hspec
    obtain ⟨before, hh, hnode⟩ := hspec
    refine (hst.running .draining ?_).silent
    rw [hnode]
    exact ⟨⟨h.owns.options, h.owns.durable, h.owns.captured⟩, ⟨node.core, rpc, h.steady, hh, hj⟩, h.applied⟩
  | error _ c' =>
    rw [hrun] at hspec
    simp only
    split
    · exact hst.stopped.silent
    next hfatal =>
    obtain rfl : c' = node.core := hspec.resolve_left hfatal
    exact (hst.running .waiting ⟨h.owns, h.steady, h.pending, h.applied⟩).silent

lemma Waiting.tick (now sample : Nat) :
    (node.onCore store (fun _ => true) (Core.tick now sample) fun _ node => node).Ok cfg s n := by
  refine h.onCore hst none (by simp) ?_
  refine (Core.tick_spec h.steady.settled now sample).mono (fun _ c' hc' => ?_) fun _ _ _ => .inl rfl
  exact ⟨_, hc', by rw [← h.pending]⟩

lemma Waiting.propose (kind : EntryKind) (command : Bytes) :
    (node.onCore store (fun _ => false) (Core.proposeTracked kind command) fun proposal node =>
      { node with pendingLocal := put node.pendingLocal proposal.1 proposal.2 }).Ok cfg s n := by
  refine h.onCore hst none (by simp) ?_
  refine (Core.proposeTracked_spec h.steady.settled kind command).mono (fun p c' hc' => ?_)
    fun _ _ he => .inr he
  exact ⟨_, hc', by rw [← h.pending]⟩

lemma Waiting.deliver {envelope : Envelope} (hsent : Sent cfg s envelope)
    (hto : envelope.message.toID = n) (sample : Nat) :
    (node.onCore store fatalCoreError (Core.step envelope.senderID envelope.message.rpc sample)
      fun _ node => node).Ok cfg s n := by
  have hne : envelope.senderID ≠ node.core.localID := by
    rw [h.steady.localID, ← hto]
    exact (cfg.voters.mem_peers.mp hsent.1).2.symm
  refine h.onCore hst (some envelope.message.rpc) ?_ ?_
  · rintro r hr
    obtain rfl := some.inj hr
    exact hsent.2
  refine (Core.step_spec h.steady.settled _ envelope.message.rpc sample).mono
    (fun _ c' hc' => ?_) fun e _ he => he.imp (fun h => by rw [h]; rfl) fun h => h
  exact ⟨_, hc' hne, by rw [← h.pending]⟩

end

end

/-! ## Draining -/

omit [Hash] in
/-- The batch of a core that has not been numbered. -/
lemma Core.ready_cases (ht : c.pendingReady.token = 0) : (c.hasPending = false ∧ c.ready = (c, none)) ∨
      (c.ready = ({ c with terminalErr := some .readyTokenExhausted }, none)) ∨
      (c.ready = ({ c with
          nextToken := c.nextToken + 1
          pendingReady := { c.pendingReady with token := c.nextToken + 1 } },
        some { c.pendingReady with token := c.nextToken + 1 })) := by
  by_cases hp : c.hasPending = false
  · exact .inl ⟨hp, by rw [Core.ready, if_pos hp]⟩
  by_cases hn : c.nextToken = maxUint64
  · exact .inr (.inl (by rw [Core.ready, if_neg hp, if_pos ht, if_pos hn]))
  · exact .inr (.inr (by rw [Core.ready, if_neg hp, if_pos ht, if_neg hn]))

/-- What a batch that passed the self-check leads to. -/
lemma Node.validateReadyAndDerive_eq {batch : PersistenceBatch} {p : RecoveredState}
    (h : node.validateReadyAndDerive ready = .ok (batch, p)) :
    batch = persistenceBatchForReady ready ∧ p = node.durableState.withBatch batch := by
  unfold Node.validateReadyAndDerive at h
  simp only [bind, Except.bind, pure, Except.pure] at h
  split at h
  · cases h
  split at h
  · split at h
    · exact absurd h (by simp [throw, throwThe, MonadExceptOf.throw])
    next q hq =>
    unfold applyPersistenceBatch at hq
    split at hq
    · cases hq
    obtain ⟨rfl, -⟩ := applyValidated_ok ⟨rfl, rfl, rfl⟩ hq
    split at h
    · cases h
    split at h
    · cases h
    simp only [Except.ok.injEq] at h
    obtain ⟨rfl, rfl⟩ := h
    exact ⟨rfl, rfl⟩
  next heff =>
  split at h
  · cases h
  split at h
  · cases h
  simp only [Except.ok.injEq] at h
  obtain ⟨rfl, rfl⟩ := h
  exact ⟨rfl, (node.durableState.withBatch_idle heff).symm⟩

/-- A written batch is taken over from the core, numbered. -/
lemma Written.acting {next : Nat} (hw : Written cfg s n store node) (ho : node.options = cfg.options n)
    (hd : d = store.state) :
    ProcessOk cfg s n store ⟨{ node with
      core := { node.core with
        nextToken := next
        pendingReady := { node.core.pendingReady with token } }
      durableState := d }, .acting { node.core.pendingReady with token }⟩ := by
  refine ⟨⟨⟨ho, hd, hw.captured⟩, ?_, rfl, hw.sent, hw.resolves, hw.base, hw.indexed, hw.length⟩,
    hw.applied, fun a ha => ?_⟩
  · obtain ⟨h1, h2, h3, h4, h5, h6, h7⟩ := hw.steady
    exact ⟨h1, h2, ⟨h3.idle, h3.roles.congr rfl, h3.terminal, rfl⟩,
      ⟨h4.hardState, h4.base_index, h4.base_term, h4.entries⟩, h5,
      ⟨h6.leader, h6.candidate, h6.matched⟩, h7⟩
  obtain ⟨hl, hs⟩ := hw.actions a ha
  exact ⟨hl, hs⟩

/-- An empty batch leaves the node where it was before the event. -/
lemma Written.waiting (hw : Written cfg s n store node) (ho : node.options = cfg.options n)
    (hd : node.durableState = store.state) (hrdy : node.core.pendingReady = .empty)
    (hpend : node.core.hasPending = false) (hdone : node.core.snapshotActionDone = false) :
    Waiting cfg s n store node := by
  have happd : node.core.log.appliedIndex = node.core.log.commitIndex := by
    have := hw.length
    rw [hrdy] at this
    exact this
  have hsteady := hw.steady
  rw [Core.released_self happd hrdy hpend hdone] at hsteady
  have hrest := hw.applied
  rw [hrdy] at hrest
  refine ⟨⟨ho, hd, hw.captured⟩, hsteady, ?_, hrest⟩
  funext id
  have := hw.resolves.after_eq id
  rw [hrdy] at this
  exact this.symm

/-- A frozen application state is a snapshot of what is committed. -/
lemma Waiting.capture (hI : Inv cfg.voters.setting s) (hst : Stored cfg s n store)
    (h : Waiting cfg s n store node) (retained : Nat)
    (hr : node.maybeStartSnapshotCapture cfg.sm retained = .ok node') : Waiting cfg s n store node' := by
  unfold Node.maybeStartSnapshotCapture at hr
  simp only at hr
  split at hr
  · obtain rfl := ok.inj hr
    exact h
  split at hr
  · cases hr
  split at hr
  · obtain rfl := ok.inj hr
    exact h
  split at hr
  · obtain rfl := ok.inj hr
    exact h
  split at hr
  · cases hr
  next term hterm =>
  split at hr
  · cases hr
  next schema bytes hcapture =>
  split at hr
  · cases hr
  obtain rfl := ok.inj hr
  refine ⟨⟨h.owns.options, h.owns.durable, fun sn hsn => ?_⟩, h.steady, h.pending, h.applied⟩
  rw [some.injEq, h.owns.options] at hsn
  obtain ⟨hmeta, hstate, hseal⟩ := newSnapshot_ok hsn
  refine ⟨hseal, ?_⟩
  have hs := h.steady.settled.idle.sound
  have he := hst.embodies h.steady.durable
  have hcmt : node.core.log.appliedIndex = (s.node n).commit :=
    h.steady.applied.trans (Eq.trans hs.commit he.commit)
  have hlen : ((s.node n).log.take (s.node n).commit).length = (s.node n).commit := by
    rw [length_take]
    exact Nat.min_eq_left (hI.commit_le n)
  have hterm' : cfg.voters.setting.lastTerm ((s.node n).log.take (s.node n).commit) = term := by
    rw [Setting.lastTerm, hlen, ((he.term_iff hs.log).mp hterm).2.2, hcmt]
    exact Setting.termAt_shorten (List.take_prefix _ _) hlen.ge
  rw [hmeta, hstate]
  refine ⟨?_, _, hst.represents.indexed.take _, hI.committed n, ?_, hterm',
    fun hash => ⟨node.app, h.applied.reached hI hash, hcapture⟩⟩
  · have h1 : node.core.log.commitIndex ≤ node.core.log.lastIndex := hs.log.commit_le
    have h2 : node.core.log.lastIndex ≤ maxUint64 := hs.log.bound
    have h3 := h.steady.applied
    show node.core.log.appliedIndex ≤ maxUint64
    omega
  · rw [hlen, hcmt]

/-- Starting a transfer is an event of its own. -/
lemma Waiting.transfer (h : Waiting cfg s n store node) (transferID : Bytes) {started : Bool}
    (hr : node.maybeStartSnapshotTransfer transferID = .ok (node', started)) :
    (started = false ∧ node' = node) ∨ (started = true ∧ Draining cfg s n store node') := by
  unfold Node.maybeStartSnapshotTransfer at hr
  split at hr
  · simp only [ok.injEq, mk.injEq] at hr
    exact .inl ⟨hr.2.symm, hr.1.symm⟩
  split at hr
  · simp only [ok.injEq, mk.injEq] at hr
    exact .inl ⟨hr.2.symm, hr.1.symm⟩
  next peer hpeer =>
  split at hr
  · cases hr
  next sn hsn =>
  split at hr
  · cases hr
  split at hr
  · cases hr
  split at hr
  · cases hr
  split at hr
  · cases hr
  next core hrun =>
  simp only [ok.injEq, mk.injEq] at hr
  obtain ⟨rfl, rfl⟩ := hr
  have hmem : peer ∈ node.core.voters.voters := by
    have := mem_of_find?_eq_some hpeer
    rwa [h.owns.options, cfg.sameVoters n h.steady.voter, ← h.steady.voters] at this
  rw [h.owns.durable] at hsn
  have hspec := (Core.startSnapshotTransfer_spec h.steady.settled peer sn transferID
    node.options.maxSnapshotChunkBytes).of_ok hrun ⟨hsn, hmem⟩
  refine .inr ⟨rfl, ⟨h.owns.options, h.owns.durable, h.owns.captured⟩,
    ⟨node.core, none, h.steady, ?_, by simp⟩, h.applied⟩
  rw [← h.pending] at hspec
  exact hspec

/-- An event that left no batch changed nothing durable. -/
lemma Draining.waiting (hI : Inv cfg.voters.setting s) (hst : Stored cfg s n store)
    (h : Draining cfg s n store node) (hidle : node.core.hasPending = false) :
    ∃ s', Acts cfg.voters.setting n s s' ∧ Stored cfg s' n store ∧ Waiting cfg s' n store node := by
  obtain ⟨c, rpc, hc, hh, hj⟩ := h.handled
  have hrdy : node.core.pendingReady = .empty := hh.output.quiet hidle
  obtain ⟨s', hacts, hw⟩ := h.persist hI hst 0
  rw [hrdy] at hw
  have hstore : Written cfg s' n store node := hw
  exact ⟨s', hacts, hstore.stored, hstore.waiting h.owns.options h.owns.durable hrdy hidle hh.done⟩

lemma Draining.drain (hI : Inv cfg.voters.setting s) (hst : Stored cfg s n store)
    (h : Draining cfg s n store node) (transferID : Bytes) (retained : Nat) :
    (Effect.silent (node.drain cfg.sm store transferID retained)).Ok cfg s n := by
  obtain ⟨c, rpc, hc, hh, hj⟩ := h.handled
  have htermnl := hh.terminal
  rcases Core.ready_cases hh.output.token with ⟨hp, hr⟩ | hr | hr
  · obtain ⟨s', hacts, hst', hwait⟩ := h.waiting hI hst hp
    refine ⟨s', hacts, ?_, by simp [Effect.silent], by simp [Effect.silent]⟩
    simp only [Effect.silent, Node.drain, hr]
    rw [if_neg (by rw [htermnl]; simp)]
    cases ht : node.maybeStartSnapshotTransfer transferID with
    | error => exact hst'.stopped
    | ok result =>
      obtain ⟨node', started⟩ := result
      rcases hwait.transfer transferID ht with ⟨rfl, rfl⟩ | ⟨rfl, hdrain⟩
      · simp only
        cases hcap : node'.maybeStartSnapshotCapture cfg.sm retained with
        | error => exact hst'.stopped
        | ok => exact hst'.running _ (hwait.capture (hacts.inv hI) hst' retained hcap)
      · exact hst'.running _ hdrain
  · refine ⟨s, .refl s, ?_, by simp [Effect.silent], by simp [Effect.silent]⟩
    simp only [Effect.silent, Node.drain, hr]
    rw [if_pos (by rfl)]
    exact hst.stopped
  simp only [Effect.silent, Node.drain, hr]
  generalize hnumb : ({ node.core.pendingReady with token := node.core.nextToken + 1 } :
    Ready) = numbered
  split
  · exact hst.stopped.silent
  next batch prospective hderive =>
  obtain ⟨rfl, hpros⟩ := Node.validateReadyAndDerive_eq hderive
  change prospective = node.durableState.withBatch _ at hpros
  rw [h.owns.durable] at hpros
  subst hnumb
  obtain ⟨s', hacts, hw⟩ := h.persist hI hst (node.core.nextToken + 1)
  split
  · split
    · exact hst.stopped.silent
    next store' hpers =>
    obtain rfl := persist_ok ⟨rfl, rfl, rfl⟩ hpers
    exact ⟨s', hacts, hw.stored.running _ (hw.acting h.owns.options hpros), by simp, by simp⟩
  next heff =>
  rw [store.state.withBatch_idle heff] at hw
  exact ⟨s', hacts, hw.stored.running _ (hw.acting h.owns.options h.owns.durable), by simp,
    by simp⟩

/-! ## Finishing a capture -/

/-- A waiting node may drain; there is nothing to drain then. -/
lemma Waiting.draining (h : Waiting cfg s n store node) : Draining cfg s n store node := by
  refine ⟨h.owns, ⟨node.core, none, h.steady, ?_, by simp⟩, h.applied⟩
  rw [h.pending]
  exact h.steady.settled.still none rfl rfl rfl rfl

lemma Waiting.captured (hst : Stored cfg s n store) (h : Waiting cfg s n store node) :
    Stored cfg s n (node.finishSnapshotCapture store).1 ∧
      ∀ node', (node.finishSnapshotCapture store).2 = .ok node' →
        Draining cfg s n (node.finishSnapshotCapture store).1 node' := by
  unfold Node.finishSnapshotCapture
  split
  · exact ⟨hst, by simp⟩
  · exact ⟨hst, by simp⟩
  next sn hflight =>
  obtain ⟨hseal, hstd⟩ := h.owns.captured sn hflight
  have howns : Owns cfg s n store { node with captureInFlight := none } :=
    ⟨h.owns.options, h.owns.durable, by simp⟩
  simp only
  split
  · refine ⟨hst, fun node' hnode' => ?_⟩
    obtain rfl := ok.inj hnode'
    exact Waiting.draining ⟨howns, h.steady, h.pending, h.applied⟩
  next hnew =>
  split
  · exact ⟨hst, by simp⟩
  rw [h.owns.options, h.owns.durable, cfg.sameVoters n h.steady.voter]
  split
  · exact ⟨hst, by simp⟩
  next p hp =>
  split
  · exact ⟨hst, by simp⟩
  next store' hpers =>
  obtain ⟨p', hp', rfl⟩ := persistSnapshot_ok hpers
  rw [hst.identity, hst.voters, hst.limit] at hp'
  obtain rfl : p = p' := ok.inj (hp.symm.trans hp')
  have hst' := hst.compact h.steady hseal hstd (not_le.mp hnew) hp
  split
  · exact ⟨hst', by simp⟩
  next core hrun =>
  refine ⟨hst', fun node' hnode' => ?_⟩
  obtain rfl := ok.inj hnode'
  obtain ⟨hset, hcomp, hlog⟩ := (Core.compactSnapshot_spec h.steady.settled sn.metadata (some sn)).of_ok hrun
  have hsteady := h.steady.compact hseal (not_le.mp hnew) hp hset hcomp hlog
  refine Waiting.draining ⟨⟨rfl, rfl, by simp⟩, hsteady, ?_, h.applied⟩
  rw [hcomp.frame]
  exact h.pending

/-! ## Sending, applying, releasing -/

lemma Taken.apply (hI : Inv cfg.voters.setting s) (hst : Stored cfg s n store)
    (h : Taken cfg s n store node ready) {entry : Entry} {rest : List Entry}
    (hb : Behind cfg s n node.app (entry :: rest)) :
    (∀ event ∈ (node.applyCommitted cfg.sm entry).1, Witnessed cfg s event) ∧
      ∀ node' result, (node.applyCommitted cfg.sm entry).2 = some (node', result) →
        Taken cfg s n store node' ready ∧ Behind cfg s n node'.app rest := by
  obtain ⟨a, hle, hr, hrest⟩ := hb
  have hmem : entry ∈ (s.node n).log.take (s.node n).commit := mem_of_mem_drop (hrest ▸ mem_cons_self)
  have hlt : a < ((s.node n).log.take (s.node n).commit).length := by
    by_contra hge
    rw [drop_eq_nil_of_le (not_lt.mp hge)] at hrest
    cases hrest
  have hcmt := hI.commit_le n
  rw [length_take, Nat.min_eq_left hcmt] at hlt
  have hdrop := drop_eq_getElem_cons (i := a)
    (show a < ((s.node n).log.take (s.node n).commit).length by
      rw [length_take, Nat.min_eq_left hcmt]; exact hlt)
  rw [← hrest, cons.injEq] at hdrop
  have hnext : (s.node n).log.take (a + 1) = (s.node n).log.take a ++ [entry] := by
    rw [hdrop.1, getElem_take, ← take_append_getElem (by omega)]
  have hwitness : Witnessed cfg s (.applied node.options.localID entry) := hst.witnessed hI hmem
  have hskip : ∀ app', (CollisionFree → Reached cfg.sm app' ((s.node n).log.take a ++ [entry])) →
      Behind cfg s n app' rest :=
    fun app' happ' => ⟨a + 1, hlt, hnext ▸ happ', hdrop.2⟩
  unfold Node.applyCommitted
  split
  · next hkind =>
    split
    · exact ⟨by simpa using hwitness, by simp⟩
    next app result hapl =>
    refine ⟨by simpa using hwitness, fun node' result' hres => ?_⟩
    simp only [some.injEq, mk.injEq] at hres
    obtain ⟨rfl, rfl⟩ := hres
    exact ⟨⟨⟨h.owns.options, h.owns.durable, h.owns.captured⟩, h.steady, h.batch, h.sent,
      h.resolves, h.base, h.indexed, h.length⟩, hskip app fun hash => .apply (hr hash) hkind hapl⟩
  next hkind =>
  refine ⟨by simp, fun node' result' hres => ?_⟩
  simp only [some.injEq, mk.injEq] at hres
  obtain ⟨rfl, rfl⟩ := hres
  exact ⟨h, hskip _ fun hash => .skip (hr hash) hkind⟩

omit [Hash] in
/-- Releasing a batch whose entries end at the commit index. -/
lemma Core.advance_spec (hidxd : Contiguous c.log.appliedIndex c.pendingReady.committedEntries)
    (hlen : c.log.appliedIndex + c.pendingReady.committedEntries.length = c.log.commitIndex) (token : Nat) :
    Ensures (Core.advance token) c (fun _ c' => c' = c.released) (fun _ _ => True) := by
  unfold Core.advance
  simp only [ensures_bind, ensures_get]
  cases hterm : c.terminalErr with
  | some => exact trivial
  | none =>
    simp only
    rw [ensures_ite]
    refine ⟨fun _ => trivial, fun _ => ?_⟩
    rw [ensures_ite]
    refine ⟨fun _ => trivial, fun _ => ?_⟩
    rw [← hterm]
    simp only [ensures_bind, ensures_lift, ensures_set]
    refine ⟨fun log hlog => ?_, fun _ _ => trivial⟩
    suffices hlog : log = { c.log with appliedIndex := c.log.commitIndex } by
      rw [hlog]
      rfl
    by_cases hne : c.pendingReady.committedEntries = []
    · rw [hne] at hlog hlen
      rw [← ok.inj hlog, ← hlen]
      rfl
    rw [getLast?_eq_getLast_of_ne_nil hne] at hlog
    rw [(Log.advanceApplied_eq_ok.mp hlog).2.2, hidxd.last_index hne, hlen]

/-- A map without some keys. -/
def without (m : Nat → Option Entry) (ids : List Nat) : Nat → Option Entry :=
  fun id => if id ∈ ids then none else m id

section

omit [Hash]

lemma without_cons (m : Nat → Option Entry) (id : Nat) (ids : List Nat) :
    without (erase m id) ids = without m (id :: ids) := by
  funext k
  by_cases hk : k = id <;> simp [without, erase, hk]

lemma Node.completeProposals_spec (results : List ProposalResult)
    (proposals : List CommittedProposal) (node : Node σ) :
    (∀ event ∈ (node.completeProposals results proposals).1,
      ∃ id proposal result, event = .completed id proposal result) ∧
    ∀ node', (node.completeProposals results proposals).2 = .ok node' → node' = { node with
      pendingLocal := without node.pendingLocal (proposals.map (·.id)) } := by
  induction proposals generalizing node with
  | nil => exact ⟨by simp [Node.completeProposals], fun node' h => (ok.inj h).symm⟩
  | cons p _ ih =>
    unfold Node.completeProposals
    split
    · exact ⟨by simp, by simp⟩
    split
    · exact ⟨by simp, by simp⟩
    next result hres =>
    split
    · exact ⟨by simp, by simp⟩
    obtain ⟨h1, h2⟩ := ih { node with pendingLocal := erase node.pendingLocal p.id }
    refine ⟨forall_mem_cons.mpr ⟨⟨_, _, _, rfl⟩, h1⟩, fun node' hnode' => ?_⟩
    rw [h2 node' hnode', map_cons, ← without_cons]

lemma Node.failProposals_spec (proposals : List FailedProposal) (node : Node σ) :
    (∀ event ∈ (node.failProposals proposals).1, ∃ id proposal err, event = .failed id proposal err) ∧
    ∀ node', (node.failProposals proposals).2 = .ok node' → node' = { node with
      pendingLocal := without node.pendingLocal (proposals.map (·.id)) } := by
  induction proposals generalizing node with
  | nil => exact ⟨by simp [Node.failProposals], fun node' h => (ok.inj h).symm⟩
  | cons p _ ih =>
    unfold Node.failProposals
    split
    · exact ⟨by simp, by simp⟩
    obtain ⟨h1, h2⟩ := ih { node with pendingLocal := erase node.pendingLocal p.id }
    refine ⟨forall_mem_cons.mpr ⟨⟨_, _, _, rfl⟩, h1⟩, fun node' hnode' => ?_⟩
    rw [h2 node' hnode', map_cons, ← without_cons]

end

lemma Taken.finish (h : Taken cfg s n store node ready) (hb : Behind cfg s n node.app [])
    (results : List ProposalResult) : (∀ event ∈ (node.finishReady ready results).1, Witnessed cfg s event) ∧
      ∀ node', (node.finishReady ready results).2 = .ok node' → Draining cfg s n store node' := by
  obtain ⟨hdone, hnode1⟩ := Node.completeProposals_spec results ready.committedProposals node
  have hcompld : ∀ event ∈ (node.completeProposals results ready.committedProposals).1,
      Witnessed cfg s event := by
    intro event hev
    obtain ⟨_, _, _, rfl⟩ := hdone event hev
    trivial
  unfold Node.finishReady
  cases hcompl : node.completeProposals results ready.committedProposals with
  | mk events outcome =>
    rw [hcompl] at hnode1 hcompld
    cases outcome with
    | error => exact ⟨hcompld, by simp⟩
    | ok node1 =>
      obtain ⟨hfail, hnode2⟩ := Node.failProposals_spec ready.failedProposals node1
      have hfailed : ∀ event ∈ (node1.failProposals ready.failedProposals).1, Witnessed cfg s event := by
        intro event hev
        obtain ⟨_, _, _, rfl⟩ := hfail event hev
        trivial
      simp only
      cases hfailRun : node1.failProposals ready.failedProposals with
      | mk failures outcome =>
        rw [hfailRun] at hnode2 hfailed
        have hevs : ∀ event ∈ events ++ failures, Witnessed cfg s event := fun event hev =>
          (mem_append.mp hev).elim (hcompld event) (hfailed event)
        cases outcome with
        | error => exact ⟨hevs, by simp⟩
        | ok node2 =>
          simp only
          have hcore : node2.core = node.core := by rw [hnode2 _ rfl, hnode1 _ rfl]
          cases hadvance : Core.advance ready.token node2.core with
          | error => exact ⟨hevs, by simp⟩
          | ok =>
            refine ⟨hevs, fun node' hnode' => ?_⟩
            obtain rfl := ok.inj hnode'
            rw [hcore] at hadvance
            have hbat := h.batch
            obtain rfl := (Core.advance_spec (hbat ▸ h.indexed) (hbat ▸ h.length) _).of_ok
              hadvance
            rw [hnode2 _ rfl, hnode1 _ rfl]
            refine Waiting.draining
              ⟨⟨h.owns.options, h.owns.durable, h.owns.captured⟩, h.steady, ?_, hb⟩
            funext id
            show without (without node.pendingLocal _) _ id = node.core.pendingProposals id
            rw [h.resolves.after_eq id, without, without]
            simp only [mem_append]
            by_cases h1 : id ∈ ready.failedProposals.map (·.id)
            · simp [h1]
            · simp [h1]

/-! ## Snapshot actions -/

/-- Only the transfer in progress changed: it was given up, or a chunk further on. -/
def Core.Staged (c c' : Core) : Prop :=
  ∃ incoming, c' = { c with incomingSnapshot := incoming, snapshotActionDone := true } ∧
    (incoming = none ∨ ∃ i next, c.incomingSnapshot = some i ∧ incoming = some { i with nextOffset := next })

/-- The core took over an installed snapshot. -/
def Core.Adopted (c : Core) (state : RecoveredState) (c' : Core) : Prop :=
  ∃ log, newLog state.snapshotBase.lastIncludedIndex state.snapshotBase.lastIncludedTerm
      state.hardState.commitIndex state.appliedIndex state.entries = .ok log ∧
    c' = { c with
      log
      hardState := state.hardState
      incomingSnapshot := none
      snapshotActionDone := true }

omit [Hash] in
/-- Completing an action answers the leader; only a finished installation is taken over, and a
    finished installation is taken over or fails. -/
lemma Core.completeSnapshotAction_spec {action : SnapshotAction} {rest : List SnapshotAction}
    (ha : c.pendingReady.snapshotActions = action :: rest) (token : Nat) (result : SnapshotActionResult) :
    Ensures (Core.completeSnapshotAction token result) c
      (fun m c' => m.toID = action.request.leaderID ∧ (∃ r, m.rpc = .installSnapshotResponse r) ∧
        ((c.Staged c' ∧ (action.kind = .abort ∨ result.rejected = true ∨ result.done = false)) ∨
          ∃ state, result.state = some state ∧ c.Adopted state c')) (fun _ _ => True) := by
  unfold Core.completeSnapshotAction
  simp only [ensures_bind, ensures_get]
  cases hterm : c.terminalErr with
  | some => simp
  | none =>
    rw [ha]
    cases rest with
    | cons => simp
    | nil =>
      simp only
      rw [ensures_ite]
      refine ⟨fun _ => by simp, fun _ => ?_⟩
      rw [ensures_ite]
      refine ⟨fun hk => ?_, fun hk => ?_⟩
      · simp only [ensures_bind, ensures_set, ensures_pure]
        exact ⟨rfl, ⟨_, rfl⟩, .inl ⟨⟨none, by rw [← hterm], .inl rfl⟩, .inl hk⟩⟩
      cases hi : c.incomingSnapshot with
      | none => simp
      | some incoming =>
        simp only
        rw [ensures_ite]
        refine ⟨fun _ => by simp, fun _ => ?_⟩
        rw [ensures_ite]
        refine ⟨fun hrejec => ?_, fun _ => ?_⟩
        · simp only [ensures_bind, ensures_set, ensures_pure]
          exact ⟨rfl, ⟨_, rfl⟩, .inl ⟨⟨none, by rw [← hterm], .inl rfl⟩, .inr (.inl hrejec)⟩⟩
        rw [ensures_ite]
        refine ⟨fun _ => by simp, fun _ => ?_⟩
        rw [ensures_ite]
        refine ⟨fun _ => by simp, fun _ => ?_⟩
        rw [ensures_ite]
        refine ⟨fun hdone => ?_, fun hdone => ?_⟩
        · rw [ensures_ite]
          refine ⟨fun _ => by simp, fun _ => ?_⟩
          simp only [ensures_bind, ensures_set, ensures_pure]
          exact ⟨rfl, ⟨_, rfl⟩, .inl ⟨⟨_, by rw [← hterm], .inr ⟨incoming, _, hi, rfl⟩⟩, .inr (.inr hdone)⟩⟩
        rw [ensures_ite]
        refine ⟨fun _ => by simp, fun _ => ?_⟩
        unfold Core.adoptInstalledState
        simp only [ensures_bind, ensures_get]
        cases hstate : result.state with
        | none => simp
        | some state =>
          simp only
          rw [ensures_ite]
          refine ⟨fun _ => by simp, fun _ => ?_⟩
          cases hlog : newLog state.snapshotBase.lastIncludedIndex
              state.snapshotBase.lastIncludedTerm state.hardState.commitIndex state.appliedIndex
              state.entries with
          | error e => simp
          | ok log =>
            simp only [ensures_bind, ensures_set, ensures_pure]
            exact ⟨rfl, ⟨_, rfl⟩, .inr ⟨state, rfl, log, hlog, rfl⟩⟩

omit [Hash] in
/-- A transfer that is given up or goes on. -/
lemma Steady.incoming (h : Steady cfg s n d c) {incoming : Option IncomingSnapshotProgress}
    (hi : incoming = none ∨ ∃ i next, c.incomingSnapshot = some i ∧
      incoming = some { i with nextOffset := next }) :
    Steady cfg s n d { c with incomingSnapshot := incoming } := by
  have hroles := h.settled.roles
  refine ⟨h.localID, h.voters, ⟨h.settled.idle, ?_, h.settled.terminal, h.settled.done⟩,
    h.durable, h.applied, ⟨h.linked.leader, h.linked.candidate, h.linked.matched⟩, ?_⟩
  · refine ⟨hroles.limits, hroles.votes, hroles.leading, hroles.progress, fun id t ht => ?_,
      fun j hj => ?_⟩
    · obtain ⟨h1, h2, h3, h4, h5, h6, h7, h8⟩ := hroles.outgoing id t ht
      exact ⟨h1, h2, h3, h4, h5, h6, h7, h8⟩
    rcases hi with rfl | ⟨i, next, hi, rfl⟩
    · cases hj
    obtain rfl := some.inj hj
    obtain ⟨h1, h2, h3, h4, h5⟩ := hroles.incoming i hi
    exact ⟨h1, h2, h3, h4, h5⟩
  rintro j hj
  rcases hi with rfl | ⟨i, next, hi, rfl⟩
  · cases hj
  obtain rfl := some.inj hj
  exact h.offered i hi

/-- A follower that takes over the log of an installed snapshot. -/
lemma Steady.adopt {s' : History} (h : Steady cfg s n d c) (hst : Stored cfg s' n store)
    (hrole : c.role = .follower) :
    Steady cfg s' n store.state { c with
      log := store.state.log store.state.hardState.commitIndex
      hardState := store.state.hardState
      incomingSnapshot := none } := by
  have hroles := h.settled.roles
  obtain ⟨hsnd, hdurable⟩ := Stored.sound (c := { c with
      log := store.state.log store.state.hardState.commitIndex
      hardState := store.state.hardState
      incomingSnapshot := none }) hst h.localID h.voters h.voter rfl rfl
    h.settled.idle.sound.proposal
  refine ⟨h.localID, h.voters, ⟨⟨hsnd, h.settled.idle.empty, h.settled.idle.settled⟩, ?_,
    h.settled.terminal, h.settled.done⟩, hdurable, rfl, ⟨?_, ?_, ?_⟩, by simp⟩
  · refine Core.Roles.quiet hroles.limits hroles.votes (by simp [hrole]) ?_ ?_ (by simp)
    · exact funext (hroles.progress_none (by simp [hrole]))
    · exact funext (hroles.outgoing_none (by simp [hrole]))
  · exact fun hr => nomatch hrole.symm.trans hr
  · exact fun hr => nomatch hrole.symm.trans hr
  · exact fun hr => nomatch hrole.symm.trans hr

lemma Taken.stage (h : Taken cfg s n store node ready) (stage : Option MemorySnapshotStage) :
    Taken cfg s n { store with stage } node ready :=
  ⟨⟨h.owns.options, h.owns.durable, h.owns.captured⟩, h.steady, h.batch, h.sent, h.resolves,
    h.base, h.indexed, h.length⟩

section Act

variable {action : SnapshotAction} {rest : List SnapshotAction}

/-- The answer to a chunk is addressed to the leader that sent it. -/
lemma Sent.answer (hl : action.request.leaderID ∈ cfg.voters.peers n)
    (hto : m.toID = action.request.leaderID) (hr : ∃ r, m.rpc = .installSnapshotResponse r) :
    Sent cfg s ⟨n, m⟩ := by
  obtain ⟨r, hr⟩ := hr
  refine ⟨by rw [hto]; exact hl, ?_⟩
  rw [hr]
  trivial

/-- Reporting a result that installs nothing. -/
lemma Taken.complete (h : Taken cfg s n store node ready) (ha : ready.snapshotActions = action :: rest)
    (hl : action.request.leaderID ∈ cfg.voters.peers n) {result : SnapshotActionResult}
    (hres : result.state = none) (hrun : node.completeAction token result = .ok (node', m)) :
    Taken cfg s n store node' ready ∧ node'.app = node.app ∧ Sent cfg s ⟨n, m⟩ := by
  unfold Node.completeAction at hrun
  split at hrun
  · cases hrun
  next message core hcore =>
  simp only [ok.injEq, mk.injEq] at hrun
  obtain ⟨rfl, rfl⟩ := hrun
  obtain ⟨hto, hr, ⟨⟨incoming, rfl, hi⟩, -⟩ | ⟨state, hstate, -⟩⟩ :=
    (Core.completeSnapshotAction_spec (by rw [h.batch]; exact ha) token result).of_ok hcore
  · refine ⟨⟨⟨h.owns.options, h.owns.durable, h.owns.captured⟩, ?_, h.batch, h.sent, h.resolves,
      h.base, h.indexed, h.length⟩, rfl, .answer hl hto hr⟩
    exact h.steady.incoming hi
  rw [hres] at hstate
  cases hstate

/-- Restoring the application from a snapshot that has just been installed. -/
lemma Stored.restoreInstalled (hI : Inv cfg.voters.setting s) (hst : Stored cfg s n store)
    (hsn : ∃ sn, store.state.snapshot = some sn) (node : Node σ) :
    (∀ event ∈ (node.restoreInstalled cfg.sm store.state).1, Witnessed cfg s event) ∧
    ∀ node', (node.restoreInstalled cfg.sm store.state).2 = .ok node' →
      ∃ app, node' = { node with app, durableState := store.state } ∧ Behind cfg s n app [] := by
  obtain ⟨sn, hsn⟩ := hsn
  obtain ⟨hrstd, hrepl⟩ := hst.rebuilt hI
    (fun hnone => nomatch hsn.symm.trans hnone) node.options.localID
  unfold Node.restoreInstalled
  rw [hsn] at hrstd hrepl ⊢
  simp only
  split
  · exact ⟨by simp, by simp⟩
  split
  · next events hrun =>
    rw [hrun] at hrstd
    exact ⟨hrstd, by simp⟩
  next events app hrun =>
  rw [hrun] at hrstd hrepl
  obtain ⟨hevs, happ⟩ := hrepl app rfl
  split
  · next replayed hreplay =>
    rw [hreplay] at hevs
    exact ⟨forall_mem_append.mpr ⟨hrstd, hevs⟩, by simp⟩
  next replayed app' hreplay =>
  rw [hreplay] at hevs happ
  refine ⟨forall_mem_append.mpr ⟨hrstd, hevs⟩, fun node' hnode' => ?_⟩
  obtain rfl := ok.inj hnode'
  exact ⟨app', rfl, .of_reached (happ app' rfl)⟩

/-- Reporting an installed snapshot to the core. -/
lemma Taken.adopt {s' : History} {store' : MemoryStore} {app : σ} (hI : Inv cfg.voters.setting s)
    (hacts : Acts cfg.voters.setting n s s') (h : Taken cfg s n store node ready)
    (ha : ready.snapshotActions = action :: rest) (hact : Actionable cfg s n node.core ready action)
    (hk : action.kind = .stage) (hst : Stored cfg s' n store')
    (hterm : (s'.node n).term = (s.node n).term) (happ : Behind cfg s' n app []) {next : Nat}
    (hrun : ({ node with app, durableState := store'.state } : Node σ).completeAction token
      ⟨next, true, some { store'.state with appliedIndex := store'.state.hardState.commitIndex },
        false⟩ = .ok (node', m)) :
    Taken cfg s' n store' node' ready ∧ Behind cfg s' n node'.app ready.committedEntries ∧
      Sent cfg s' ⟨n, m⟩ := by
  have hg := hacts.grows hI
  obtain ⟨-, -, hrole, hnone⟩ := hact.stage hk
  unfold Node.completeAction at hrun
  split at hrun
  · cases hrun
  next message core hcore =>
  simp only [ok.injEq, mk.injEq] at hrun
  obtain ⟨rfl, rfl⟩ := hrun
  obtain ⟨hto, hr, ⟨-, hstgd⟩ | ⟨state, hstate, log, hlog, rfl⟩⟩ :=
    (Core.completeSnapshotAction_spec (by rw [h.batch]; exact ha) token _).of_ok hcore
  · rw [hk] at hstgd
    simp at hstgd
  obtain rfl := some.inj hstate
  obtain rfl := hst.valid.newLog_ok hlog
  refine ⟨⟨⟨h.owns.options, rfl, fun sn hsn => ?_⟩, h.steady.adopt hst hrole, h.batch,
    fun m hm => (h.sent m hm).grow hI hg, h.resolves, ?_, ?_, ?_⟩, ?_, .answer hact.leader hto hr⟩
  · obtain ⟨hseal, hstd⟩ := h.owns.captured sn hsn
    exact ⟨hseal, hstd.grow hI hg hterm.ge⟩
  · exact hst.valid.applied_ge.trans hst.valid.applied_le
  · rw [hnone]
    exact .nil _
  · rw [hnone]
    rfl
  rw [hnone]
  exact happ

/-- Carrying out the snapshot action of a batch. -/
lemma Taken.act (hI : Inv cfg.voters.setting s)
    (hst : Stored cfg s n store) (h : Taken cfg s n store node ready)
    (hb : Behind cfg s n node.app ready.committedEntries) (ha : ready.snapshotActions = action :: rest)
    (hact : Actionable cfg s n node.core ready action) : ∃ s', Acts cfg.voters.setting n s s' ∧
      Stored cfg s' n (node.executeSnapshotAction cfg.sm store ready.token action).store ∧
      (∀ event ∈ (node.executeSnapshotAction cfg.sm store ready.token action).events, Witnessed cfg s' event) ∧
      ∀ node' m, (node.executeSnapshotAction cfg.sm store ready.token action).result = .ok (node', m) →
        Taken cfg s' n (node.executeSnapshotAction cfg.sm store ready.token action).store node' ready ∧
        Behind cfg s' n node'.app ready.committedEntries ∧ Sent cfg s' ⟨n, m⟩ := by
  -- A result that installs nothing leaves the history alone, whatever happened to the stage.
  have hplain : ∀ (stage : Option MemorySnapshotStage) {result : SnapshotActionResult},
      result.state = none → ∀ node' m, node.completeAction ready.token result = .ok (node', m) →
      Taken cfg s n { store with stage } node' ready ∧
        Behind cfg s n node'.app ready.committedEntries ∧ Sent cfg s ⟨n, m⟩ := by
    intro stage result hres node' m hrun
    obtain ⟨ht, happ, hm⟩ := (h.stage stage).complete ha hact.leader hres hrun
    exact ⟨ht, happ ▸ hb, hm⟩
  unfold Node.executeSnapshotAction
  have hreset : ∃ stage, (if action.reset then store.abortSnapshotStage else store) =
      { store with stage } := by
    split
    · exact ⟨none, rfl⟩
    · exact ⟨store.stage, rfl⟩
  obtain ⟨stage, hstg⟩ := hreset
  simp only [hstg]
  cases hk : action.kind with
  | abort => exact ⟨s, .refl s, hst.stage none, by simp, hplain none rfl⟩
  | stage =>
    simp only
    have hspec := stageSnapshotChunk_spec action.request { store with stage }
    unfold Ensures at hspec
    cases hrun : MemoryStore.stageSnapshotChunk action.request { store with stage } with
    | error =>
      rw [hrun] at hspec
      obtain ⟨stage', rfl⟩ := hspec
      split
      · next heq =>
        obtain ⟨rfl, rfl⟩ := EStateM.Result.error.inj heq
        exact ⟨s, .refl s, hst.stage stage', by simp, hplain stage' rfl⟩
      · next heq =>
        obtain ⟨rfl, rfl⟩ := EStateM.Result.error.inj heq
        exact ⟨s, .refl s, hst.stage stage', by simp, by simp⟩
      · next heq => cases heq
    | ok =>
      rw [hrun] at hspec
      rcases hspec with ⟨hnone, stage', rfl⟩ | ⟨p, hp, hinst, rfl⟩
      · simp only [hnone]
        exact ⟨s, .refl s, hst.stage stage', by simp, hplain stage' rfl⟩
      obtain ⟨hj, hterm, -⟩ := hact.stage hk
      obtain ⟨s', hacts, hst', hterm', hsn⟩ := (hst.stage stage).install hI
        h.steady.durable h.steady.settled.idle.sound hj hterm hinst
      obtain ⟨hevs, hnodes⟩ := hst'.restoreInstalled (hacts.inv hI) hsn node
      simp only [hp]
      split
      · next events e hrestore =>
        rw [show node.restoreInstalled cfg.sm p = _ from hrestore] at hevs
        exact ⟨s', hacts, hst', hevs, by simp⟩
      next events node1 hrestore =>
      rw [show node.restoreInstalled cfg.sm p = _ from hrestore] at hevs hnodes
      obtain ⟨app, rfl, happ⟩ := hnodes node1 rfl
      exact ⟨s', hacts, hst', hevs, fun node' m hrun => h.adopt hI hacts ha hact hk hst' hterm' happ hrun⟩

end Act

/-! ## Recovery -/

omit [Hash] in
/-- A new core is an initial one with usable limits. -/
lemma newCore_ok {options : CoreOptions} (h : newCore options sample = .ok c) : ∃ log heartbeat deadline,
      newLog options.log.snapshotIndex options.log.snapshotTerm options.log.commitIndex
        options.log.appliedIndex options.log.entries = .ok log ∧
      c = initialCore options log heartbeat deadline ∧ c.appendLimits.Resolved := by
  unfold newCore at h
  simp only at h
  generalize (if options.heartbeatInterval = 0 then 1 else options.heartbeatInterval) = heartbeat
    at h
  simp only [ite_error_eq_ok] at h
  obtain ⟨-, -, -, husable, -, -, -, -, h⟩ := h
  split at h
  · cases h
  next log hlog =>
  split at h
  · cases h
  next deadline hdeadl =>
  obtain rfl := ok.inj h
  refine ⟨log, _, deadline, hlog, rfl, ?_⟩
  have husable : appendLimitsUsable options.localID
      (appendLimitsFor options.maxAppendEntries options.maxAppendBytes) = true :=
    not_not.mp husable
  unfold appendLimitsUsable at husable
  cases hencode : encodeAppendRequest ⟨options.localID, 1, 1, 0, 0, 0, []⟩
      (appendLimitsFor options.maxAppendEntries options.maxAppendBytes) with
  | error e => simp [hencode, Except.isOk, Except.toBool] at husable
  | ok out => exact (encodeAppendRequest_eq_ok (by simp) hencode).1

lemma Stored.checkRecoveredSnapshot (hst : Stored cfg s n store) {snapshot : Option Snapshot}
    (h : Node.checkRecoveredSnapshot (cfg.options n) store.state = .ok snapshot) :
    snapshot = store.state.snapshot ∧
      (store.state.snapshot = none → store.state.snapshotBase.lastIncludedIndex = 0) := by
  unfold Node.checkRecoveredSnapshot at h
  split at h
  · next hnone =>
    split at h
    · cases h
    next hbase =>
    rw [hnone]
    exact ⟨(ok.inj h).symm, fun _ => not_not.mp hbase⟩
  next sn hsn =>
  rw [(hst.encoded sn hsn).1] at h
  simp only at h
  split at h
  · cases h
  rw [hsn]
  exact ⟨(ok.inj h).symm, by simp⟩

/-- The core that recovery builds is in line with the store. -/
lemma Stored.recoverCore (hst : Stored cfg s n store) (hn : n ∈ cfg.voters.voters)
    (h : Node.recoverCore (cfg.options n) store.state sample = .ok c) {log : Log}
    (hlog : c.log.advanceApplied store.state.hardState.commitIndex = .ok log) :
    Steady cfg s n store.state { c with log } ∧ c.pendingProposals = fun _ => none := by
  unfold Node.recoverCore at h
  simp only at h
  split at h
  · cases h
  next l hl =>
  obtain rfl := hst.valid.newLog_ok hl
  obtain ⟨l', heartbeat, deadline, hl', rfl, hlimits⟩ := newCore_ok h
  obtain rfl := hst.valid.newLog_ok hl'
  obtain ⟨-, -, rfl⟩ := Log.advanceApplied_eq_ok.mp hlog
  refine ⟨?_, rfl⟩
  have hid := cfg.localID n hn
  have hvtrs := cfg.sameVoters n hn
  generalize hcore : ({ initialCore _ _ heartbeat deadline with log := _ } : Core) = core
  have hlog' : core.log = store.state.log store.state.hardState.commitIndex := by rw [← hcore]; rfl
  have hlimits' : core.appendLimits.Resolved := by rw [← hcore]; exact hlimits
  have hrole : core.role = .follower := by rw [← hcore]; rfl
  obtain ⟨hsnd, hdurable⟩ := hst.sound (c := core) (by rw [← hcore]; exact hid)
    (by rw [← hcore]; exact hvtrs) hn (by rw [← hcore]; rfl) hlog' (by rw [← hcore]; rfl)
  refine ⟨by rw [← hcore]; exact hid, by rw [← hcore]; exact hvtrs, ⟨⟨hsnd, ?_, ?_⟩, ?_, ?_, ?_⟩,
    hdurable, by rw [hlog']; rfl, ⟨?_, ?_, ?_⟩, ?_⟩
  · rw [← hcore]; rfl
  · rw [← hcore]; rfl
  · refine Core.Roles.quiet hlimits' ?_ (by simp [hrole]) ?_ ?_ ?_
    all_goals rw [← hcore]
    · simp [initialCore]
    · rfl
    · rfl
    · simp [initialCore]
  · rw [← hcore]; rfl
  · rw [← hcore]; rfl
  · exact fun hr => nomatch hrole.symm.trans hr
  · exact fun hr => nomatch hrole.symm.trans hr
  · exact fun hr => nomatch hrole.symm.trans hr
  rw [← hcore]
  simp [initialCore]

lemma Stored.recovered (hI : Inv cfg.voters.setting s) (hst : Stored cfg s n store)
    (hn : n ∈ cfg.voters.voters) (sample : Nat) :
    (∀ event ∈ (Node.recoverPreparedState cfg.sm (cfg.options n) store sample).1, Witnessed cfg s event) ∧
    ∀ node, (Node.recoverPreparedState cfg.sm (cfg.options n) store sample).2 = .ok node →
      Waiting cfg s n store node := by
  unfold Node.recoverPreparedState
  have hrecover : ∀ {r}, store.recover = .ok r → r = store.state := by
    intro r hr
    unfold MemoryStore.recover at hr
    split at hr
    · cases hr
    · exact (ok.inj hr).symm
  split
  · exact ⟨by simp, by simp⟩
  next recovered hrec =>
  obtain rfl := hrecover hrec
  split
  · exact ⟨by simp, by simp⟩
  split
  · exact ⟨by simp, by simp⟩
  next snapshot hsnap =>
  obtain ⟨rfl, hfst⟩ := hst.checkRecoveredSnapshot hsnap
  obtain ⟨hrstd, hrepl⟩ := hst.rebuilt hI hfst (cfg.options n).localID
  simp only
  split
  · exact ⟨by simp, by simp⟩
  next core hcore =>
  split
  · next events hrun =>
    rw [hrun] at hrstd
    exact ⟨hrstd, by simp⟩
  next events app hrun =>
  rw [hrun] at hrstd hrepl
  obtain ⟨hevs, happ⟩ := hrepl app rfl
  split
  · next replayed hreplay =>
    rw [hreplay] at hevs
    exact ⟨forall_mem_append.mpr ⟨hrstd, hevs⟩, by simp⟩
  next replayed app' hreplay =>
  rw [hreplay] at hevs happ
  split
  · exact ⟨forall_mem_append.mpr ⟨hrstd, hevs⟩, by simp⟩
  next log hlog =>
  refine ⟨forall_mem_append.mpr ⟨hrstd, hevs⟩, fun node hnode => ?_⟩
  obtain rfl := ok.inj hnode
  obtain ⟨hsteady, hpend⟩ := hst.recoverCore hn hcore hlog
  exact ⟨⟨rfl, rfl, by simp⟩, hsteady, hpend.symm, .of_reached (happ app' rfl)⟩

/-! ## Every input -/

section Step

variable {process : Process σ}

/-- The options of the node name the voter itself. -/
lemma Owns.localID (h : Owns cfg s n store node) (hn : n ∈ cfg.voters.voters) : node.options.localID = n := by
  rw [h.options]
  exact cfg.localID n hn

lemma ProcessOk.step (hI : Inv cfg.voters.setting s) (hn : n ∈ cfg.voters.voters) (hst : Stored cfg s n store)
    (h : ProcessOk cfg s n store process) (input : Input)
    (hin : ∀ envelope sample, input = .deliver envelope sample → Sent cfg s envelope) :
    (process.step cfg.sm store input).Ok cfg s n := by
  obtain ⟨node, phase⟩ := process
  have hidle : (Effect.silent (⟨store, some ⟨node, phase⟩⟩ : Host σ)).Ok cfg s n := (hst.running _ h).silent
  cases phase with
  | waiting =>
    have h : Waiting cfg s n store node := h
    cases input with
    | stop => exact hst.stopped.silent
    | tick now sample => exact h.tick hst now sample
    | deliver _ sample =>
      simp only [Process.step]
      split
      · next hto =>
        rw [h.owns.localID hn] at hto
        exact h.deliver hst (hin _ _ rfl) hto sample
      · exact hidle
    | propose kind command => exact h.propose hst kind command
    | captured =>
      obtain ⟨hst', hnode⟩ := h.captured hst
      simp only [Process.step]
      split
      · exact hidle
      split
      · next store' e hrun =>
        rw [hrun] at hst'
        exact hst'.stopped.silent
      next store' node' hrun =>
      rw [hrun] at hst' hnode
      exact (hst'.running .draining (hnode node' rfl)).silent
    | _ => exact hidle
  | draining =>
    have h : Draining cfg s n store node := h
    cases input with
    | stop => exact hst.stopped.silent
    | drain transferID retained => exact h.drain hI hst transferID retained
    | _ => exact hidle
  | acting ready =>
    obtain ⟨ht, hb, hactions⟩ := h
    cases input with
    | stop => exact hst.stopped.silent
    | act =>
      simp only [Process.step]
      split
      · exact (hst.running (.sending ready ready.messages) ⟨ht, hb, ht.sent⟩).silent
      next action rest ha =>
      obtain ⟨s', hacts, hst', hevs, hnode⟩ := ht.act hI hst hb ha
        (hactions action (ha ▸ mem_cons_self))
      split
      · next store' events e hrun =>
        rw [hrun] at hst' hevs
        exact ⟨s', hacts, hst'.stopped, by simp, hevs⟩
      next store' events node' message hrun =>
      rw [hrun] at hst' hevs hnode
      obtain ⟨ht', hb', hm⟩ := hnode node' message rfl
      refine ⟨s', hacts, hst'.running _ ⟨ht', hb', ht'.sent⟩, fun envelope henv => ?_, hevs⟩
      rw [mem_singleton.mp henv, ht.owns.localID hn]
      exact hm
    | actAndStop =>
      simp only [Process.step]
      split
      · exact hidle
      next action rest ha =>
      obtain ⟨s', hacts, hst', hevs, -⟩ := ht.act hI hst hb ha
        (hactions action (ha ▸ mem_cons_self))
      exact ⟨s', hacts, hst'.stopped, by simp,
        fun event hev => hevs event (mem_of_mem_take hev)⟩
    | _ => exact hidle
  | sending ready rest =>
    obtain ⟨ht, hb, hrest⟩ := h
    cases input with
    | stop => exact hst.stopped.silent
    | send =>
      cases rest with
      | nil => exact (hst.running (.applying ready ready.committedEntries []) ⟨ht, hb⟩).silent
      | cons message =>
        refine ⟨s, .refl s, hst.running _ ⟨ht, hb, fun m hm => hrest m (mem_cons_of_mem _ hm)⟩,
          fun envelope henv => ?_, by simp [Process.step]⟩
        rw [mem_singleton.mp henv, ht.owns.localID hn]
        exact hrest message mem_cons_self
    | _ => exact hidle
  | applying _ rest results =>
    obtain ⟨ht, hb⟩ := h
    cases input with
    | stop => exact hst.stopped.silent
    | apply =>
      cases rest with
      | nil => exact hidle
      | cons =>
        obtain ⟨hevs, hnode⟩ := ht.apply hI hst hb
        simp only [Process.step]
        split
        · next events hrun =>
          rw [hrun] at hevs
          exact ⟨s, .refl s, hst.stopped, by simp, hevs⟩
        next events node' result hrun =>
        rw [hrun] at hevs hnode
        exact ⟨s, .refl s, hst.running _ (hnode node' result rfl), by simp, hevs⟩
    | finish =>
      cases rest with
      | nil =>
        obtain ⟨hevs, hnode⟩ := ht.finish hb results
        simp only [Process.step]
        split
        · next events e hrun =>
          rw [hrun] at hevs
          exact ⟨s, .refl s, hst.stopped, by simp, hevs⟩
        next events node' hrun =>
        rw [hrun] at hevs hnode
        exact ⟨s, .refl s, hst.running _ (hnode node' rfl), by simp, hevs⟩
      | cons => exact hidle
    | finishAndStop =>
      cases rest with
      | nil =>
        obtain ⟨hevs, -⟩ := ht.finish hb results
        exact ⟨s, .refl s, hst.stopped, by simp [Process.step],
          fun event hev => hevs event (mem_of_mem_take hev)⟩
      | cons => exact hidle
    | _ => exact hidle

/-- **Every input of every voter** is an action of that voter. -/
lemma HostOk.step (hI : Inv cfg.voters.setting s)
    (hn : n ∈ cfg.voters.voters) {host : Host σ} (h : HostOk cfg s n host) (input : Input)
    (hin : ∀ envelope sample, input = .deliver envelope sample → Sent cfg s envelope) :
    (host.step cfg.sm (cfg.options n) input).Ok cfg s n := by
  obtain ⟨store, process⟩ := host
  have hst : Stored cfg s n store := h.stored
  cases process with
  | some process => exact ProcessOk.step hI hn hst (h.process process rfl) input hin
  | none =>
    cases input with
    | recover sample =>
      obtain ⟨hevs, hnode⟩ := hst.recovered hI hn sample
      simp only [Host.step]
      split
      · next events e hrun =>
        rw [hrun] at hevs
        exact ⟨s, .refl s, hst.stopped, by simp, hevs⟩
      next events node hrun =>
      rw [hrun] at hevs hnode
      exact ⟨s, .refl s, hst.running .waiting (hnode node rfl), by simp, hevs⟩
    | recoverAndStop sample =>
      obtain ⟨hevs, -⟩ := hst.recovered hI hn sample
      exact ⟨s, .refl s, hst.stopped, by simp [Host.step],
        fun event hev => hevs event (mem_of_mem_take hev)⟩
    | _ => exact h.silent

end Step

end Crane.Raft
