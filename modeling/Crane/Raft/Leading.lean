import Crane.Raft.Handled

/-!
# The leader's side

Replication to a peer, snapshot chunks, and the advance of the commit index. `Leads v c` is the
state of a leader in the middle of an event that started with the view `v`: its batch is in order
so far, and no peer's record points past the entries that were durable when the event started —
which is why the position before the first entry of an append request is always durable.
-/

namespace Crane.Raft

open Program List

variable {r : AppendEntriesRequest} {c' : Core} {id : Nat}

namespace Core

/-! ## Filling an append request -/

/-- A request that carries a stretch of the leader's log is well formed. -/
lemma stretch_wellFormed {c : Core} (hs : c.view.Sound) (hterm : c.hardState.term ≠ 0)
    (hl : r.leaderID = c.localID) (ht : r.term = c.hardState.term) (hg : r.generation ≠ 0)
    (hp : c.log.term r.prevLogIndex = .ok r.prevLogTerm)
    (he : r.entries = (c.log.entries.drop (r.prevLogIndex - c.log.snapshotIndex)).take r.entries.length) :
    r.WellFormed := by
  have hlog : c.log.Valid := hs.log
  have hlast := hlog.last
  have hbd := hlog.bound
  have hle : ∀ {i t}, c.log.term i = .ok t → t ≤ r.term :=
    fun h => ht ▸ (hlog.term_le_lastTerm h).trans hs.terms
  obtain ⟨hlo, hhi⟩ := hlog.term_range hp
  have hmem : ∀ e ∈ r.entries, e ∈ c.log.entries := by
    intro e h
    rw [he] at h
    exact mem_of_mem_drop (mem_of_mem_take h)
  refine ⟨?_, ht ▸ hterm, hg, hlog.term_zero_iff hp, hle hp, ?_, fun e h => hlog.valid e (hmem e h),
    ?_, fun e h => hle (hlog.term_entry (hlog.entry_of_mem (hmem e h))), fun _ => ?_⟩
  · rw [hl]
    exact c.voters.nonzero _ hs.voter
  · have hc := (hlog.indexed.drop (r.prevLogIndex - c.log.snapshotIndex)).take r.entries.length
    rwa [← he, show c.log.snapshotIndex + (r.prevLogIndex - c.log.snapshotIndex) = r.prevLogIndex by
      omega] at hc
  · rw [he]
    exact (hlog.sorted_drop hp).sublist (((take_sublist _ _).map _).cons_cons _)
  have hlen := congrArg length he
  rw [length_take, length_drop] at hlen
  omega

lemma gatherEntries_spec {c : Core} (hs : c.view.Sound) (hlim : c.appendLimits.Resolved)
    (hterm : c.hardState.term ≠ 0) (fuel index : Nat) (hl : r.leaderID = c.localID)
    (ht : r.term = c.hardState.term) (hg : r.generation ≠ 0)
    (hp : c.log.term r.prevLogIndex = .ok r.prevLogTerm)
    (he : r.entries = (c.log.entries.drop (r.prevLogIndex - c.log.snapshotIndex)).take r.entries.length)
    (hi : index = r.prevLogIndex + r.entries.length + 1) (hf : index + fuel = c.log.lastIndex + 1) :
    ∃ entries, c.gatherEntries fuel index r = .ok { r with entries } ∧ entries =
      (c.log.entries.drop (r.prevLogIndex - c.log.snapshotIndex)).take entries.length := by
  have hlog : c.log.Valid := hs.log
  have hlast := hlog.last
  have hbd := hlog.bound
  obtain ⟨hlo, hhi⟩ := hlog.term_range hp
  induction fuel generalizing index r with
  | zero => exact ⟨r.entries, by rw [gatherEntries], he⟩
  | succ _ ih =>
    rw [gatherEntries]
    split
    · exact ⟨r.entries, rfl, he⟩
    obtain ⟨e, hent⟩ := hlog.exists_entry (i := index) (by omega) (by omega)
    rw [hent]
    simp only
    have hget := (hlog.entry_eq_ok.mp hent).2
    have hnext : r.entries ++ [e] = (c.log.entries.drop
        (r.prevLogIndex - c.log.snapshotIndex)).take (r.entries ++ [e]).length := by
      rw [length_append, length_singleton, take_add_one, getElem?_drop, ← he]
      congr 1
      rw [show r.prevLogIndex - c.log.snapshotIndex + r.entries.length =
        index - c.log.snapshotIndex - 1 by omega, hget]
      rfl
    have hwf := stretch_wellFormed (r := { r with entries := r.entries ++ [e] }) hs hterm hl ht hg
      hp hnext
    cases henc : encodeAppendRequest { r with entries := r.entries ++ [e] } c.appendLimits with
    | error =>
      rw [hwf.encode_error hlim henc]
      exact ⟨r.entries, rfl, he⟩
    | ok =>
      simp only
      split
      · exact ⟨r.entries ++ [e], rfl, hnext⟩
      exact ih _ (r := { r with entries := r.entries ++ [e] }) hl ht hg hp hnext
        (by simp only [length_append, length_singleton]; omega) (by omega) hlo hhi

lemma lastVerified_eq (hc : Contiguous r.prevLogIndex r.entries) :
    lastVerified r = r.prevLogIndex + r.entries.length := by
  unfold lastVerified
  by_cases hne : r.entries = []
  · simp [hne]
  rw [getLast?_eq_some_getLast hne]
  exact hc.last_index hne

/-! ## A leader in the middle of an event -/

/-- The leader's batch is in order, and no peer's record passes the entries that were durable
    when the event started. -/
structure Leads (snapshot : Option Snapshot) (before : Nat → Option Entry) (v : View) (c : Core) : Prop where
  output : Output snapshot before v c.view
  start : v.Sound
  roles : c.Roles snapshot
  leader : c.role = .leader
  term : c.hardState.term = v.hardState.term
  vote : c.hardState.votedFor = v.hardState.votedFor
  grown : c.log.entries = v.log.entries ++ c.pendingReady.entries
  behind : ∀ id pr, id ∈ c.peers → c.progress id = some pr →
    pr.matchIndex ≤ v.log.lastIndex ∧ pr.nextIndex ≤ v.log.lastIndex + 1

lemma Leads.congr {snapshot : Option Snapshot} {before : Nat → Option Entry} {v : View} {c : Core}
    (h : Leads snapshot before v c) (hview : c'.view = c.view) (hvol : c'.volatile = c.volatile)
    : Leads snapshot before v c' := by
  have hhard : c'.hardState = c.hardState := congrArg View.hardState hview
  have hroles := h.roles.congr hvol
  simp only [volatile, Volatile.mk.injEq] at hvol
  obtain ⟨hid, hvtrs, -, -, -, -, hrole, -, hprog, -, -⟩ := hvol
  refine ⟨hview ▸ h.output, h.start, hroles, hrole.trans h.leader, hhard ▸ h.term, hhard ▸ h.vote, ?_, ?_⟩
  · rw [show c'.log = c.log from congrArg View.log hview,
      show c'.pendingReady = c.pendingReady from congrArg View.ready hview]
    exact h.grown
  rw [show c'.peers = c.peers by rw [peers, peers, hid, hvtrs], hprog]
  exact h.behind

/-- Only messages and the leader's records changed, and no acknowledged position did. -/
structure Sends (c c' : Core) : Prop where
  frame : c' = { c with
    progress := c'.progress
    outgoingSnapshots := c'.outgoingSnapshots
    pendingReady := { c.pendingReady with messages := c'.pendingReady.messages }
    hasPending := c'.hasPending }
  matched : ∀ id, (c'.progressOf id).matchIndex = (c.progressOf id).matchIndex
  messages : ∀ m ∈ c'.pendingReady.messages, m ∈ c.pendingReady.messages ∨ m.rpc.fromLeader = true

lemma Sends.refl (c : Core) : Sends c c := ⟨rfl, fun _ => rfl, fun _ h => .inl h⟩

lemma Sends.trans {c c'' : Core} (h : Sends c c') (h' : Sends c' c'') : Sends c c'' := by
  refine ⟨?_, fun id => (h'.matched id).trans (h.matched id), fun m hm => ?_⟩
  · rw [h'.frame, h.frame]
  rcases h'.messages m hm with hm | hm
  · exact h.messages m hm
  · exact .inr hm

/-- The hard state of a leader's batch changes with the commit index only. -/
lemma Leads.hardState_isSome {snapshot : Option Snapshot} {before : Nat → Option Entry} {v : View}
    {c : Core} (h : Leads snapshot before v c) : c.pendingReady.hardState.isSome =
      decide (v.log.commitIndex < c.log.commitIndex) := by
  have hhard : c.pendingReady.hardState = if c.hardState = v.hardState then none
      else some c.hardState := h.output.hard
  have hle : v.log.commitIndex ≤ c.log.commitIndex := h.output.commit_le
  have hc : c.log.commitIndex = c.hardState.commitIndex := h.output.sound.commit
  have hv := h.start.commit
  rw [hhard]
  split
  · next heq =>
    have : ¬ v.log.commitIndex < c.log.commitIndex := by
      rw [hc, hv, heq]
      exact lt_irrefl _
    simp [this]
  next hne =>
  have : v.log.commitIndex < c.log.commitIndex := by
    rcases hle.eq_or_lt with heq | hlt
    · exfalso
      apply hne
      have h1 := h.term
      have h2 := h.vote
      rw [hc, hv] at heq
      cases hx : c.hardState
      cases hy : v.hardState
      simp_all
    · exact hlt
  simp [this]

/-- Writing one peer's record keeps the invariant. -/
lemma Roles.putProgress {snapshot : Option Snapshot} {c : Core} (h : c.Roles snapshot)
    (hr : c.role = .leader) {pr : Progress} (hfit : pr.Fits c.log.lastIndex)
    (hneed : (c.outgoingSnapshots id).isSome = true → pr.snapshotNeeded = true) :
    ({ c with progress := put c.progress id pr } : Core).Roles snapshot where
  limits := h.limits
  votes := h.votes
  leading := h.leading
  progress := by
    intro k pr' hk
    simp only [put] at hk
    split at hk
    · rw [Option.some.injEq] at hk
      exact ⟨hr, hk ▸ hfit⟩
    · exact h.progress k pr' hk
  outgoing := by
    intro k t ht
    obtain ⟨a1, a2, a3, a4, a5, a6, a7, pr', a8, a9⟩ := h.outgoing k t ht
    refine ⟨a1, a2, a3, a4, a5, a6, a7, ?_⟩
    simp only [put]
    split
    · next hk =>
      subst hk
      exact ⟨pr, rfl, hneed (by rw [ht]; rfl)⟩
    · exact ⟨pr', a8, a9⟩
  incoming := by
    intro i hi
    exact (h.incoming i hi).congr

lemma progressOf_put (c : Core) (id k : Nat) (pr : Progress) :
    ({ c with progress := put c.progress id pr } : Core).progressOf k =
      if k = id then pr else c.progressOf k := by
  unfold progressOf put
  by_cases h : k = id <;> simp [h]

section Sending

variable {snapshot : Option Snapshot} {before : Nat → Option Entry} {v : View} {c : Core}

section

variable (h : Leads snapshot before v c)

include h

lemma Leads.last_le : v.log.lastIndex ≤ c.log.lastIndex := by
  have h1 := h.start.log.last
  have h2 : c.log.lastIndex = c.log.snapshotIndex + c.log.entries.length := h.output.sound.log.last
  have h3 : c.log.snapshotIndex = v.log.snapshotIndex := h.output.base_index
  rw [h.grown, length_append] at h2
  omega

/-- The unstable entries of a leader are those past the durable ones. -/
lemma Leads.any_index {i : Nat} (hi : i ≤ c.log.lastIndex) :
    c.pendingReady.entries.any (·.index = i) = decide (v.log.lastIndex < i) := by
  have h1 := h.start.log.last
  have hlog : c.log.Valid := h.output.sound.log
  have h2 := hlog.last
  have h3 : c.log.snapshotIndex = v.log.snapshotIndex := h.output.base_index
  have hc := hlog.indexed
  rw [h.grown, contiguous_append] at hc
  rw [h.grown, length_append] at h2
  rw [Bool.eq_iff_iff, hc.2.any_index, decide_eq_true_eq]
  omega

/-- Replacing a peer's record by one with the same acknowledged position. -/
lemma Leads.putProgress (id : Nat) (pr : Progress) (hfit : pr.Fits c.log.lastIndex)
    (hneed : (c.outgoingSnapshots id).isSome = true → pr.snapshotNeeded = true)
    (hbeh : id ∈ c.peers → pr.matchIndex ≤ v.log.lastIndex ∧ pr.nextIndex ≤ v.log.lastIndex + 1) :
    Leads snapshot before v { c with progress := put c.progress id pr } where
  output := h.output
  start := h.start
  roles := h.roles.putProgress h.leader hfit hneed
  leader := h.leader
  term := h.term
  vote := h.vote
  grown := h.grown
  behind := by
    intro k pr' hk hpr
    simp only [put] at hpr
    split at hpr
    · next heq =>
      rw [Option.some.injEq] at hpr
      exact hpr ▸ hbeh (heq ▸ hk)
    · exact h.behind k pr' hk hpr

lemma Leads.message (hid : id ∈ c.peers) {rpc : RPC} {requires : DurabilityPrerequisite}
    (hs : Says snapshot v c.view ⟨id, rpc, requires⟩) :
    Leads snapshot before v (c.queueMessage id rpc requires) where
  output := by
    refine h.output.message (m := ⟨id, rpc, requires⟩) ?_ hs
    have h1 : c.localID = v.localID := h.output.localID
    have h2 : c.voters = v.voters := h.output.voters
    rw [← h1, ← h2]
    exact hid
  start := h.start
  roles := h.roles.congr rfl
  leader := h.leader
  term := h.term
  vote := h.vote
  grown := h.grown
  behind := h.behind

end

/-- A voter other than the local one is a peer. -/
lemma mem_peers {id : Nat} (hv : id ∈ c.voters.voters) (hne : id ≠ c.localID) : id ∈ c.peers :=
  c.voters.mem_peers.mpr ⟨hv, hne⟩

section

variable (h : Leads snapshot before v c)

include h

/-- One append request, or the note that the peer needs a snapshot. -/
lemma issueAppend_spec {peer : Nat} (hvtr : peer ∈ c.voters.voters) : Ensures (issueAppend peer) c
      (fun _ c' => Leads snapshot before v c' ∧ Sends c c' ∧ ∀ id, id ≠ peer → c'.progress id = c.progress id)
      (fun e c' => c' = c ∧ e = .replicationGenerationOverflow ∧ (c.progressOf peer).generation = maxUint64) := by
  have hlog : c.log.Valid := h.output.sound.log
  have hsnd : c.view.Sound := h.output.sound
  have hlast := hlog.last
  obtain ⟨hterm, hmax⟩ := h.roles.leading h.leader
  have hle := h.last_le
  have hkeep : Leads snapshot before v c ∧ Sends c c ∧
      ∀ id, id ≠ peer → c.progress id = c.progress id := ⟨h, .refl c, fun _ _ => rfl⟩
  unfold issueAppend
  simp only [ensures_bind, ensures_get]
  cases hp : c.progress peer with
  | none => exact hkeep
  | some pr =>
    have hof : c.progressOf peer = pr := by simp [progressOf, hp]
    have hfit := (h.roles.progress peer pr hp).2
    simp only
    rw [ensures_ite]
    refine ⟨fun _ => hkeep, fun hno => ?_⟩
    have hpeer : peer ∈ c.peers := mem_peers hvtr fun hself => hno (.inl hself)
    obtain ⟨hmch, hnext⟩ := h.behind peer pr hpeer hp
    have hno : pr.snapshotNeeded = false := by
      by_contra hneed
      exact hno (.inr (by simpa using hneed))
    have hnone : (c.outgoingSnapshots peer).isSome = false := by
      by_contra hsome
      obtain ⟨t, ht⟩ := Option.isSome_iff_exists.mp (Bool.not_eq_false _ ▸ hsome)
      obtain ⟨pr', hpr', hneed⟩ := (h.roles.outgoing peer t ht).needed
      rw [hp, Option.some.injEq] at hpr'
      rw [hpr', hneed] at hno
      cases hno
    rw [ensures_ite]
    refine ⟨fun hgen => ⟨rfl, rfl, hof ▸ hgen⟩, fun hgen => ?_⟩
    rw [checkedNextIndex_eq_some.mpr ⟨(by omega : pr.matchIndex ≠ maxUint64), rfl⟩,
      checkedNextIndex_eq_some.mpr ⟨(by omega : c.log.lastIndex ≠ maxUint64), rfl⟩]
    simp only
    generalize hn : min (max pr.nextIndex (pr.matchIndex + 1)) (c.log.lastIndex + 1) = next
    have hnv : next ≤ v.log.lastIndex + 1 := by omega
    have hnl : next ≤ c.log.lastIndex + 1 := by omega
    rw [ensures_ite]
    refine ⟨fun hbase => ?_, fun hbase => ?_⟩
    · -- The entry to send is compacted: the peer needs a snapshot first.
      rw [ensures_set]
      refine ⟨h.putProgress _ _ ⟨hfit.matched, hnl, by simp, by simp⟩ (by simp [hnone])
        fun _ => ⟨hmch, hnv⟩, ⟨rfl, fun id => ?_, fun _ hm => .inl hm⟩, fun id hid => ?_⟩
      · rw [progressOf_put]
        split
        · next heq => rw [heq, hof]
        · rfl
      · simp [put, hid]
    obtain ⟨prevTerm, hpt⟩ := hlog.exists_term (i := next - 1) (by omega) (by omega)
    obtain ⟨entries, hgather, hents⟩ := gatherEntries_spec hsnd h.roles.limits hterm
      (c.log.lastIndex + 1 - next) next
      (r := ⟨c.localID, c.hardState.term, pr.generation + 1, next - 1, prevTerm,
        c.log.commitIndex, []⟩) rfl rfl (by simp) hpt (by simp) (by simp; omega) (by omega)
    replace hents : entries =
      (c.log.entries.drop (next - 1 - c.log.snapshotIndex)).take entries.length := hents
    rw [ensures_bind, ensures_lift_ok hpt, ensures_bind, ensures_lift_ok hgather, ensures_set]
    simp only
    generalize hr : (⟨c.localID, c.hardState.term, pr.generation + 1, next - 1, prevTerm,
      c.log.commitIndex, entries⟩ : AppendEntriesRequest) = r
    have hre : r.entries = entries := by rw [← hr]
    have hrp : r.prevLogIndex = next - 1 := by rw [← hr]
    have hlen := congrArg length hents
    rw [length_take, length_drop] at hlen
    have hverif : lastVerified r = next - 1 + entries.length := by
      rw [lastVerified_eq, hrp, hre]
      have hwf := stretch_wellFormed (r := r) hsnd hterm (by rw [← hr]) (by rw [← hr])
        (by rw [← hr]; simp) (by rw [← hr]; exact hpt) (by rw [← hr]; exact hents)
      exact hwf.contiguous
    have hsaid : SaysAppend v c.view r ⟨c.pendingReady.hardState.isSome,
        if entries ≠ [] ∧ c.pendingReady.entries.any (·.index = lastVerified r) = true then
          lastVerified r else 0⟩ := by
      refine ⟨by rw [← hr]; rfl, by rw [← hr]; rfl, h.term, by rw [← hr]; rfl,
        by rw [hrp]; omega, by rw [← hr]; exact hpt, by rw [← hr]; exact hents, ⟨_, h.grown⟩, ?_⟩
      rw [h.hardState_isSome, h.any_index (by omega), hverif, hre, hrp]
      simp only [decide_eq_true_eq]
      rfl
    have hlead := h.putProgress peer
      ({ pr with
        nextIndex := next, generation := pr.generation + 1,
        activeGeneration := pr.generation + 1, activeMatchIndex := lastVerified r })
      ⟨hfit.matched, hnl, fun _ => by simp only; omega, by simp [hno]⟩ (by simp [hnone])
      fun _ => ⟨hmch, hnv⟩
    refine ⟨hlead.message hpeer hsaid, ⟨rfl, fun id => ?_, fun m hm => ?_⟩, fun id hid => ?_⟩
    · change (({ c with progress := put c.progress peer _ } : Core).progressOf id).matchIndex = _
      rw [progressOf_put]
      split
      · next heq => rw [heq, hof]
      · rfl
    · rcases mem_append.mp hm with hm | hm
      · exact .inl hm
      rw [mem_singleton.mp hm]
      exact .inr rfl
    · simp [queueMessage, put, hid]

/-- One piece of the snapshot. -/
lemma issueSnapshotChunk_spec (peer : Nat) : Ensures (issueSnapshotChunk peer) c
      (fun _ c' => Leads snapshot before v c' ∧ Sends c c' ∧ c'.progress = c.progress)
      (fun _ _ => False) := by
  unfold issueSnapshotChunk
  simp only [ensures_bind, ensures_get]
  cases ht : c.outgoingSnapshots peer with
  | none => exact ⟨h, .refl c, rfl⟩
  | some t =>
    have hout := h.roles.outgoing peer t ht
    have hoff := hout.offset
    simp only
    rw [ensures_ite]
    refine ⟨fun _ => ⟨h, .refl c, rfl⟩, fun _ => ?_⟩
    rw [if_neg (by omega), ensures_set]
    generalize hsum : wrapAdd t.nextOffset t.chunkLimit = sum
    generalize hstop : (if sum < t.nextOffset ∨ sum > t.state.length then t.state.length else sum) = stop
    have hlo : t.nextOffset ≤ stop := by
      rw [← hstop]
      split <;> omega
    have hhi : stop ≤ t.state.length := by
      rw [← hstop]
      split <;> omega
    have hlead : Leads snapshot before v { c with
        outgoingSnapshots := put c.outgoingSnapshots peer { t with activeEnd := stop } } := by
      refine ⟨h.output, h.start, ?_, h.leader, h.term, h.vote, h.grown, h.behind⟩
      refine ⟨h.roles.limits, h.roles.votes, h.roles.leading, h.roles.progress, ?_, ?_⟩
      · intro k t' hk
        simp only [put] at hk
        split at hk
        · next heq =>
          rw [Option.some.injEq] at hk
          subst heq hk
          exact ⟨hout.leader, hout.peer, hout.term, hout.source, hout.state, hout.index, hout.offset, hout.needed⟩
        · exact (h.roles.outgoing k t' hk).congr
      intro i hi
      exact (h.roles.incoming i hi).congr
    refine ⟨hlead.message hout.peer ?_, ⟨rfl, fun _ => rfl, fun m hm => ?_⟩, rfl⟩
    · have hlen : ((t.state.drop t.nextOffset).take (stop - t.nextOffset)).length = stop - t.nextOffset := by
        rw [length_take, length_drop]
        omega
      refine ⟨rfl, hout.term.trans h.term, h.term, rfl, t.snapshot, hout.source, ?_⟩
      refine ⟨rfl, rfl, rfl, by simp only [hout.state], ?_, ?_⟩
      · simp only [hlen]
        rw [← hout.state]
        omega
      simp only [hlen]
      rw [← hout.state]
    rcases mem_append.mp hm with hm | hm
    · exact .inl hm
    rw [mem_singleton.mp hm]
    exact .inr rfl

lemma replicateTo_spec {peer : Nat} (hpeer : peer ∈ c.peers) : Ensures (replicateTo peer) c
      (fun _ c' => Leads snapshot before v c' ∧ Sends c c' ∧ ∀ id, id ≠ peer → c'.progress id = c.progress id)
      (fun e c' => c' = c ∧ e = .replicationGenerationOverflow ∧ (c.progressOf peer).generation = maxUint64) := by
  unfold replicateTo
  simp only [ensures_bind, ensures_get]
  rw [ensures_ite]
  refine ⟨fun _ => ?_, fun _ => issueAppend_spec h (c.voters.mem_peers.mp hpeer).1⟩
  exact (issueSnapshotChunk_spec h peer).mono
    (fun _ _ hc => ⟨hc.1, hc.2.1, fun id _ => by rw [hc.2.2]⟩) fun _ _ hf => hf.elim

end

lemma Sends.peers {c : Core} (h : Sends c c') : c'.peers = c.peers := by
  rw [h.frame]
  rfl

/-- Replication to all peers. -/
lemma each_replicateTo_spec (h : Leads snapshot before v c) : Ensures (each c.peers replicateTo) c
      (fun _ c' => Leads snapshot before v c' ∧ Sends c c')
      (fun e _ => e = .replicationGenerationOverflow) := by
  refine ensures_each (I := fun _ c' => Leads snapshot before v c' ∧ Sends c c') ⟨h, .refl c⟩ ?_
  rintro done id rest c' hxs ⟨hl, hs⟩
  have hid : id ∈ c'.peers := by
    rw [hs.peers, hxs]
    simp
  exact (replicateTo_spec hl hid).mono (fun _ _ hc => ⟨hc.1, hs.trans hc.2.1⟩) fun _ _ he => he.2.1

lemma peer_of_split {done rest : List Nat} (h : c.peers = done ++ id :: rest) : id ∈ c.peers ∧ id ∉ done := by
  have hnodup : c.peers.Nodup := c.voters.nodup_peers c.localID
  rw [h, nodup_append] at hnodup
  exact ⟨by simp [h], fun hd => hnodup.2.2 id hd id (by simp) rfl⟩

/-- Appends to all peers, when none of them has used up its request generations. -/
lemma each_issueAppend_spec (h : Leads snapshot before v c)
    (hgen : ∀ id ∈ c.peers, (c.progressOf id).generation ≠ maxUint64) : Ensures (each c.peers issueAppend) c
      (fun _ c' => Leads snapshot before v c' ∧ Sends c c') (fun _ _ => False) := by
  refine (ensures_each (I := fun done c' => Leads snapshot before v c' ∧ Sends c c' ∧
    ∀ id, id ∉ done → c'.progress id = c.progress id) ⟨h, .refl c, fun _ _ => rfl⟩ ?_).mono
    (fun _ _ hc => ⟨hc.1, hc.2.1⟩) fun _ _ hf => hf
  rintro done id rest c' hxs ⟨hl, hs, hsame⟩
  obtain ⟨hmem, hnew⟩ := peer_of_split hxs
  refine (issueAppend_spec hl (c'.voters.mem_peers.mp (hs.peers ▸ hmem)).1).mono (fun _ c'' hc => ?_)
    fun e c'' he => ?_
  · refine ⟨hc.1, hs.trans hc.2.1, fun k hk => ?_⟩
    rw [mem_append, mem_singleton, not_or] at hk
    rw [hc.2.2 k hk.2, hsame k hk.1]
  have heq : c'.progressOf id = c.progressOf id := by simp [progressOf, hsame id hnew]
  rw [heq] at he
  exact hgen id hmem he.2.2

/-- The first requests of a leadership: every peer gets a new record and is then replicated to. -/
lemma each_startReplication_spec (h : Leads snapshot before v c)
    (hnone : ∀ id ∈ c.peers, c.progress id = none) (next : Nat) (hnext : next ≤ v.log.lastIndex + 1) :
    Ensures (each c.peers fun id => do
        modify fun c => { c with progress := put c.progress id { Progress.zero with nextIndex := next } }
        replicateTo id) c
      (fun _ c' => Leads snapshot before v c' ∧ Sends c c') (fun _ _ => False) := by
  refine (ensures_each (I := fun done c' => Leads snapshot before v c' ∧ Sends c c' ∧
    ∀ id, id ∉ done → c'.progress id = c.progress id) ⟨h, .refl c, fun _ _ => rfl⟩ ?_).mono
    (fun _ _ hc => ⟨hc.1, hc.2.1⟩) fun _ _ hf => hf
  rintro done id rest c' hxs ⟨hl, hs, hsame⟩
  obtain ⟨hmem, hnew⟩ := peer_of_split hxs
  have hid : c'.progress id = none := (hsame id hnew).trans (hnone id hmem)
  have hzero : (c'.progressOf id).matchIndex = 0 := by simp [progressOf, hid, Progress.zero]
  have hlast := hl.last_le
  have hput := hl.putProgress id { Progress.zero with nextIndex := next }
    ⟨Nat.zero_le _, by simp only; omega, by simp [Progress.zero], by simp [Progress.zero]⟩
    (fun hsome => by
      obtain ⟨t, ht⟩ := Option.isSome_iff_exists.mp hsome
      obtain ⟨pr, hpr, -⟩ := (hl.roles.outgoing id t ht).needed
      rw [hid] at hpr
      cases hpr)
    fun _ => ⟨Nat.zero_le _, hnext⟩
  have hsends : Sends c' { c' with
      progress := put c'.progress id { Progress.zero with nextIndex := next } } := by
    refine ⟨rfl, fun k => ?_, fun _ hm => .inl hm⟩
    rw [progressOf_put]
    split
    · next hk => rw [hk, hzero]; rfl
    · rfl
  rw [ensures_bind, ensures_modify]
  have hpeer : id ∈ ({ c' with
      progress := put c'.progress id { Progress.zero with nextIndex := next } } : Core).peers := by
    rw [hsends.peers, hs.peers]
    exact hmem
  refine (replicateTo_spec hput hpeer).mono (fun _ c'' hc => ?_) fun e c'' he => ?_
  · refine ⟨hc.1, (hs.trans hsends).trans hc.2.1, fun k hk => ?_⟩
    rw [mem_append, mem_singleton, not_or] at hk
    rw [hc.2.2 k hk.2, ← hsame k hk.1]
    simp [put, hk.2]
  have := he.2.2
  rw [progressOf_put, if_pos rfl] at this
  exact absurd this (by simp [Progress.zero, maxUint64])

/-! ## Advancing the commit index -/

/-- The leader found a majority for index `k` of its own term. -/
structure Advances (k : Nat) (c c' : Core) : Prop where
  after : c.log.commitIndex < k
  within : k ≤ c.log.lastIndex
  own : c.log.term k = .ok c.hardState.term
  quorum : c.voters.majority ≤ c.replicas k
  commits : CommitsTo k c c'

lemma advanceCommitFrom_spec (h : Leads snapshot before v c) (hmsg : c.pendingReady.messages = [])
    (hsame : c.log.commitIndex = v.log.commitIndex) (candidate : Nat) (hc : candidate ≤ c.log.lastIndex) :
    Ensures (advanceCommitFrom c.log.commitIndex candidate) c
      (fun _ c' => Leads snapshot before v c' ∧ (c' = c ∨ ∃ k, Advances k c c')) (fun _ _ => False) := by
  have hlog : c.log.Valid := h.output.sound.log
  have hbase := hlog.snapshotIndex_le_commit
  induction candidate with
  | zero =>
    rw [advanceCommitFrom, ensures_pure]
    exact ⟨h, .inl rfl⟩
  | succ k ih =>
    rw [advanceCommitFrom, ensures_ite]
    refine ⟨fun _ => ⟨h, .inl rfl⟩, fun hgt => ?_⟩
    obtain ⟨t, ht⟩ := hlog.exists_term (i := k + 1) (by omega) hc
    simp only [ensures_bind, ensures_get]
    rw [ensures_lift_ok ht, ensures_ite]
    refine ⟨fun _ => ih (by omega), fun hq => ?_⟩
    push Not at hq
    have hadv := Log.advanceCommit_eq_ok.mpr
      ⟨(by omega : c.log.commitIndex ≤ k + 1), hc, rfl⟩
    simp only [ensures_bind]
    rw [ensures_lift_ok hadv, ensures_set]
    refine (queueCommittedEntries_output h.output hmsg hsame (by omega) hc).mono
      (fun _ c' hcom => ?_) fun _ _ hf => hf
    obtain ⟨hout, hcom⟩ := hcom
    have hfrm := hcom.frame
    refine ⟨⟨hout, h.start, h.roles.congr ?_, ?_, ?_, ?_, ?_, ?_⟩,
      .inr ⟨k + 1, ⟨by omega, hc, by rw [ht, hq.1], hq.2, hcom⟩⟩⟩
    · rw [hfrm]
      rfl
    · rw [hfrm]
      exact h.leader
    · rw [hfrm]
      exact h.term
    · rw [hfrm]
      exact h.vote
    · rw [hcom.entries, hfrm]
      exact h.grown
    rw [hfrm]
    exact h.behind

lemma advanceLeaderCommit_spec (h : Leads snapshot before v c)
    (hmsg : c.pendingReady.messages = []) (hsame : c.log.commitIndex = v.log.commitIndex) :
    Ensures advanceLeaderCommit c (fun _ c' => Leads snapshot before v c' ∧ (c' = c ∨ ∃ k, Advances k c c'))
      (fun _ _ => False) := by
  unfold advanceLeaderCommit
  simp only [ensures_bind, ensures_get]
  exact advanceCommitFrom_spec h hmsg hsame c.log.lastIndex le_rfl

end Sending

/-! ## Events of a leader -/

/-- The batch of a leader that put one entry of its own behind its log. -/
lemma Settled.snoc_output {snapshot : Option Snapshot} {c : Core} (h : c.Settled snapshot)
    {e : Entry} (hidx : e.index = c.log.lastIndex + 1) (hv : e.Valid)
    (hmax : c.log.lastIndex < maxUint64) (hterm : e.term = c.hardState.term)
    {proposals : Nat → Option Entry} (hzero : proposals 0 = none) :
    Output snapshot proposals c.view { c.view with
      log := c.log.snoc e
      ready := { c.pendingReady with entries := c.pendingReady.entries ++ [e] }
      hasPending := true
      proposals } := by
  have hs : c.view.Sound := h.idle.sound
  have hlog : c.log.Valid := hs.log
  have hlast := hlog.last
  have hcmt := hlog.commit_le
  have hrdy := h.ready
  have hidle : ({ c.view with proposals } : View).Idle :=
    ⟨⟨hs.voter, hs.log, hs.commit, hs.terms, hs.vote, hzero⟩, h.idle.empty, h.idle.settled⟩
  have hval : (c.log.snoc e).Valid := hlog.snoc hidx hv hmax (by rw [hterm]; exact hs.terms)
  have hstart : Output snapshot proposals { c.view with proposals } { c.view with proposals } := .start hidle
  have hout := hstart.record (c.log.snoc e) [e] true (by simp [view, hrdy, Ready.empty])
    (.cut c.log.entries.length _ (by simp) (by simp only [view]; omega) le_rfl
      (by simp [view, hrdy, Ready.empty, Log.snoc]))
    hval rfl rfl rfl rfl rfl (by simp [view, hterm]) (by simp)
  exact { hout with
    messages := by simp [view, hrdy, Ready.empty] }

/-- From a leader's state at the end of an event to the account of the event. -/
lemma Leads.handled {snapshot : Option Snapshot} {before : Nat → Option Entry} {c : Core}
    {rpc : Option RPC} (h : Leads snapshot before c.view c') (htermnl : c'.terminalErr = none)
    (hdone : c'.snapshotActionDone = false) (hmove : Move rpc c c')
    (hvotes : c.role = .candidate → ∀ v ∈ c'.votes, v ∈ c.votes ∨ CountsVote rpc c v)
    (hmtd : ∀ id, (c'.progressOf id).matchIndex ≤ (c.progressOf id).matchIndex ∨
      (c'.progressOf id).matchIndex ≤ c.log.snapshotIndex ∨
      CountsMatch rpc c id (c'.progressOf id).matchIndex ∨ id = c.localID)
    (hmess : ∀ m ∈ c'.pendingReady.messages, m.rpc.fromLeader = true)
    (hactions : c'.pendingReady.snapshotActions = []) : Handled snapshot before rpc c c' where
  output := h.output
  roles := h.roles
  terminal := htermnl
  done := hdone
  move := hmove
  votes := fun hc _ => hvotes hc
  matched := hmtd
  leads := fun _ _ _ => h.leader
  acks := by
    intro m hm r hr
    have := hmess m hm
    rw [hr] at this
    exact absurd this (by simp [RPC.fromLeader])
  actions := by simp [hactions]
  staged := by
    intro i hi
    have := (h.roles.incoming i hi).role
    rw [h.leader] at this
    simp at this

end Core

end Crane.Raft
