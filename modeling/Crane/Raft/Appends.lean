import Crane.Raft.Elections

/-!
# Append requests and responses

The follower's side compares its log before and after the request and queues what changed; the
leader's side moves a peer's record and, with it, the commit index. What changed in the log is
always one stretch from some uncommitted position to the end of the request (`Appended.changed`),
so a success response that rests on unwritten entries names the last of them.
-/

namespace Crane.Raft

open Program List Log

variable {l l' : Log} {prev prevTerm : Nat} {entries : List Entry} {request : AppendEntriesRequest}
variable {before : Nat → Option Entry} {rpc : Option RPC}

/-! ## What an append changes -/

lemma changedLogEntries_append (shared before after : List Entry) :
    Core.changedLogEntries (shared ++ before) (shared ++ after) = Core.changedLogEntries before after := by
  induction shared with
  | nil => rfl
  | cons _ _ ih => rw [cons_append, cons_append, Core.changedLogEntries, if_pos rfl, ih]

lemma changedLogEntries_self (entries : List Entry) : Core.changedLogEntries entries entries = [] := by
  have h := changedLogEntries_append entries [] []
  rw [append_nil] at h
  exact h

lemma changedLogEntries_of_ne {before after : List Entry} (h : before.head? ≠ after.head?) :
    Core.changedLogEntries before after = after := by
  cases after with
  | nil => cases before <;> rfl
  | cons =>
    cases before with
    | nil => rfl
    | cons => rw [Core.changedLogEntries, if_neg (by simpa using h)]

/-- Splicing keeps the suffix, or replaces it from a position at which it ends or disagrees. -/
lemma Log.splice_cases (mine entries : List Entry) : splice mine entries = mine ∨
    ∃ j, j ≤ mine.length ∧ j < entries.length ∧
      splice mine entries = mine.take j ++ entries.drop j ∧ mine[j]? ≠ entries[j]? := by
  induction mine generalizing entries with
  | nil =>
    cases entries with
    | nil => exact .inl rfl
    | cons => exact .inr ⟨0, by simp⟩
  | cons _ _ ih =>
    cases entries with
    | nil => exact .inl rfl
    | cons _ entries =>
      rw [splice]
      split
      · rcases ih entries with h | ⟨j, h1, h2, h3, h4⟩
        · exact .inl (by rw [h])
        · exact .inr ⟨j + 1, by simpa using h1, by simpa using h2, by simp [h3], by simpa using h4⟩
      next hne =>
      refine .inr ⟨0, by simp, by simp, by simp, fun heq => hne ?_⟩
      simp only [getElem?_cons_zero, Option.some.injEq] at heq
      rw [heq]

/-- What the log of a voter gained by an append request, in the order it is written. -/
lemma Log.Appended.changed (hl : l.Valid) (h : Log.Appended l prev prevTerm entries l') :
    LogChange l l' (Core.changedLogEntries l.entries l'.entries) ∧
      (Core.changedLogEntries l.entries l'.entries ≠ [] → l'.lastIndex = prev + entries.length ∧
        (Core.changedLogEntries l.entries l'.entries).getLast?.map (·.index) = some (prev + entries.length)) := by
  obtain ⟨hlo, hhi⟩ := hl.term_range h.prev_term
  have hlast := hl.last
  have hcmt := hl.commit_le
  obtain ⟨p, hp⟩ : ∃ p, prev - l.snapshotIndex = p := ⟨_, rfl⟩
  have heq := h.entries_eq
  rw [hp] at heq
  have hchgd := changedLogEntries_append (l.entries.take p) (l.entries.drop p)
    (splice (l.entries.drop p) entries)
  rw [take_append_drop, ← heq] at hchgd
  rw [hchgd]
  rcases splice_cases (l.entries.drop p) entries with hkeep | ⟨j, hj, hlt, hsplice, hne⟩
  · -- Every entry was there already.
    rw [hkeep, take_append_drop] at heq
    rw [hkeep, changedLogEntries_self]
    exact ⟨.same heq, fun hnil => absurd rfl hnil⟩
  rw [length_drop] at hj
  have htail : Core.changedLogEntries (l.entries.drop p) (splice (l.entries.drop p) entries) =
      entries.drop j := by
    have := changedLogEntries_append ((l.entries.drop p).take j) ((l.entries.drop p).drop j)
      (entries.drop j)
    rw [take_append_drop, ← hsplice] at this
    rw [this]
    exact changedLogEntries_of_ne (by simpa [head?_drop] using hne)
  have hnil : entries.drop j ≠ [] := by simpa using hlt
  have hwhole : l'.entries = l.entries.take (p + j) ++ entries.drop j := by
    rw [heq, hsplice, take_add, append_assoc]
  have hlen : (l.entries.take (p + j)).length = p + j := by
    rw [length_take]
    omega
  rw [htail]
  refine ⟨.cut (p + j) _ hnil ?_ (by omega) hwhole, fun _ => ⟨?_, ?_⟩⟩
  · -- A committed position was kept, so the first change is past the commit index.
    by_contra hcut
    push Not at hcut
    have hget := congrArg (·[p + j]?) h.kept
    simp only [getElem?_take, if_pos hcut] at hget
    rw [hwhole, getElem?_append_right (by omega), hlen, Nat.sub_self, getElem?_drop, Nat.add_zero] at hget
    rw [getElem?_drop] at hne
    exact hne hget.symm
  · have hlast' := congrArg lastIndex h.shape
    simp only at hlast'
    rw [hlast', hwhole, length_append, hlen, length_drop]
    omega
  have hidx := (h.contiguous.drop j).last_index hnil
  rw [getLast?_eq_some_getLast hnil, Option.map_some, hidx, length_drop]
  congr 1
  omega

/-- The log reaches the end of the request. -/
lemma Log.Appended.last_ge (hl : l.Valid) (h : Log.Appended l prev prevTerm entries l') :
    prev + entries.length ≤ l'.lastIndex := by
  obtain ⟨hlo, hhi⟩ := hl.term_range h.prev_term
  have hlast := hl.last
  have hlast' := congrArg lastIndex h.shape
  simp only at hlast'
  have hlen := congrArg length h.entries_eq
  rw [length_append, length_take] at hlen
  rcases splice_length (l.entries.drop (prev - l.snapshotIndex)) entries
    with hs | hs <;> omega

lemma Log.Appended.lastTerm_le {term : Nat} (hl : l.Valid) (h : Log.Appended l prev prevTerm entries l')
    (hold : l.lastTerm ≤ term) (hnew : ∀ e ∈ entries, e.term ≤ term) : l'.lastTerm ≤ term := by
  have hmine : ∀ e ∈ l.entries, e.term ≤ term := fun e he =>
    (hl.term_le_lastTerm (hl.term_entry (hl.entry_of_mem he))).trans hold
  have hbase : l'.snapshotTerm ≤ term := by
    rw [h.shape]
    obtain ⟨t, ht⟩ := hl.exists_term le_rfl hl.base_le
    exact ((hl.take_le ht (by simp)).trans (hl.term_le_lastTerm ht)).trans hold
  have hall : ∀ e ∈ l'.entries, e.term ≤ term := by
    intro e he
    rw [h.entries_eq, mem_append] at he
    rcases he with he | he
    · exact hmine e (mem_of_mem_take he)
    rcases mem_splice he with he | he
    · exact hmine e (mem_of_mem_drop he)
    · exact hnew e he
  unfold lastTerm
  cases hg : l'.entries.getLast? with
  | none => exact hbase
  | some e => exact hall e (mem_of_getLast? hg)

namespace Core

variable {snapshot : Option Snapshot} {c : Core}

/-! ## The follower's side -/

/-- Queueing the changed entries, also when there are none. -/
lemma queueEntries_if (c : Core) (entries : List Entry) :
    (if entries = [] then c else c.queueEntries entries) = { c with
      pendingReady := { c.pendingReady with entries := c.pendingReady.entries ++ entries }
      hasPending := c.hasPending || !entries.isEmpty } := by
  split
  · next h => simp [h]
  · next h => simp [queueEntries, h]

lemma followCommit_spec (hv : c.log.Valid) (hlast : lastVerified request ≤ c.log.lastIndex) :
    Ensures (followCommit request) c (fun advanced c' => (advanced = false ∧ c' = c ∧
          min request.leaderCommit (lastVerified request) ≤ c.log.commitIndex) ∨
        (advanced = true ∧ c.log.commitIndex < min request.leaderCommit (lastVerified request) ∧
          ∃ committed failed, Commits (c.committedAt (min request.leaderCommit (lastVerified request)))
            ((c.log.entries.drop (c.log.commitIndex - c.log.snapshotIndex)).take
              (min request.leaderCommit (lastVerified request) - c.log.commitIndex)) committed failed c'))
      (fun _ _ => False) := by
  unfold followCommit
  simp only [ensures_bind, ensures_get]
  generalize hk : min request.leaderCommit (lastVerified request) = k
  have hkl : k ≤ c.log.lastIndex := by omega
  rw [ensures_ite]
  refine ⟨fun hgt => ?_, fun hle => ?_⟩
  · rw [ensures_bind, ensures_lift_ok (advanceCommit_eq_ok.mpr ⟨hgt.le, hkl, rfl⟩),
      ensures_bind, ensures_set, ensures_bind]
    refine (queueCommittedEntries_spec (c.committedAt k) (hv.setCommit hgt.le hkl)
      hv.snapshotIndex_le_commit hgt hkl).mono (fun _ c' hcom => ?_) fun _ _ hf => hf
    exact .inr ⟨rfl, hgt, hcom⟩
  · exact .inl ⟨rfl, rfl, not_lt.mp hle⟩

/-- `c'` is the follower `c` with the log `l`, committed up to `k`, and the changed entries
    queued. -/
structure Takes (l : Log) (k : Nat) (changed : List Entry) (c c' : Core) : Prop where
  frame : c' = { c with
    log := { l with commitIndex := k }
    hardState := { c.hardState with commitIndex := k }
    pendingReady := c'.pendingReady
    pendingProposals := c'.pendingProposals
    pendingProposalOrder := c'.pendingProposalOrder
    proposalAtIndex := c'.proposalAtIndex
    hasPending := c'.hasPending }
  entries : c'.pendingReady.entries = c.pendingReady.entries ++ changed
  messages : c'.pendingReady.messages = c.pendingReady.messages
  actions : c'.pendingReady.snapshotActions = c.pendingReady.snapshotActions

/-- The log is replaced, the commit index follows, and then the changed entries are queued: the
    batch is the one in which the entries come first. -/
lemma followCommit_takes {c0 : Core} {term : Nat} (hd : Demotes snapshot term c c0) (hl : l.Valid)
    (hshp : l = { c.log with entries := l.entries, lastIndex := l.lastIndex })
    (hchg : LogChange c.log l (changedLogEntries c.log.entries l.entries))
    (hterm : l.lastTerm ≤ c0.hardState.term) (hlast : lastVerified request ≤ l.lastIndex) :
    Ensures (followCommit request) { c0 with log := l }
      (fun advanced c2 => ∃ k, k = max c.log.commitIndex (min request.leaderCommit (lastVerified request)) ∧
        advanced = decide (c.log.commitIndex < k) ∧
        Takes l k (changedLogEntries c.log.entries l.entries) c0
          (if changedLogEntries c.log.entries l.entries = [] then c2
            else c2.queueEntries (changedLogEntries c.log.entries l.entries)) ∧
        Output snapshot c.pendingProposals c.view
          (if changedLogEntries c.log.entries l.entries = [] then c2
            else c2.queueEntries (changedLogEntries c.log.entries l.entries)).view)
      (fun _ _ => False) := by
  have hcmt : l.commitIndex = c.log.commitIndex := by rw [hshp]
  have hhard : c0.hardState.commitIndex = c.log.commitIndex := by
    have h1 : c0.log.commitIndex = c0.hardState.commitIndex := hd.output.sound.commit
    rw [← h1, hd.log]
  generalize changedLogEntries c.log.entries l.entries = changed at hchg ⊢
  have hrec := hd.output.record l changed
    (c0.hasPending || !changed.isEmpty) hd.messages
    (by
      change LogChange c.log l (c0.pendingReady.entries ++ changed)
      rw [hd.entries]
      exact hchg)
    hl (by rw [hshp]; exact (congrArg snapshotIndex hd.log).symm)
    (by rw [hshp]; exact (congrArg snapshotTerm hd.log).symm)
    (by rw [hshp]; exact (congrArg appliedIndex hd.log).symm)
    (by rw [hshp]; exact (congrArg commitIndex hd.log).symm)
    (congrArg commitIndex hd.log) hterm
    (fun hfalse => by simpa [view] using hfalse)
  refine (followCommit_spec (c := { c0 with log := l }) hl hlast).mono (fun advanced c2 hc2 => ?_)
    fun _ _ hf => hf
  simp only [queueEntries_if]
  rcases hc2 with ⟨rfl, rfl, hle⟩ | ⟨rfl, hlt, committed, failed, hcom⟩
  · simp only [hcmt] at hle
    refine ⟨c.log.commitIndex, by omega, by simp, ⟨?_, rfl, rfl, rfl⟩, hrec⟩
    simp only
    congr 1
    · rw [← hhard]
    · rw [← hcmt]
  simp only [hcmt] at hlt
  have hpend : c2.hasPending = true := by
    rw [hcom.pending]
    rfl
  have hfrm := hcom.frame
  have hout := hrec.commit (k := min request.leaderCommit (lastVerified request))
    hd.messages (by simp only [hcmt]; exact hlt) (by simp only; omega)
    (by simp only [hcmt]; rfl) hcom.resolves rfl hcom.reported
  refine ⟨min request.leaderCommit (lastVerified request), by omega, by simpa using hlt, ⟨?_, ?_, ?_, ?_⟩, ?_⟩
  · rw [hfrm]
    rfl
  · rw [hfrm]
    rfl
  · rw [hfrm]
    rfl
  · rw [hfrm]
    rfl
  rw [hpend, Bool.true_or]
  rw [hfrm] at hout ⊢
  exact hout

lemma handleAppendRequest_spec (h : c.Settled snapshot)
    (hwf : request.prevLogIndex ≤ maxUint64 → request.WellFormed) (sample : Nat) :
    Ensures (handleAppendRequest request sample) c (fun _ c' => request.leaderID ∈ c.peers →
        Handled snapshot c.pendingProposals (some (.appendEntriesRequest request)) c c')
      (fun _ c' => c' = c) := by
  have hs : c.view.Sound := h.idle.sound
  have hlog : c.log.Valid := hs.log
  unfold handleAppendRequest
  simp only [ensures_bind, ensures_get]
  rw [ensures_ite]
  refine ⟨fun _ => ?_, fun hle => ?_⟩
  · rw [ensures_set]
    exact fun hid => (h.still _ rfl rfl rfl rfl).reply hid ⟨rfl, rfl, by simp [view]; rfl⟩ rfl (by simp)
  have hle : c.hardState.term ≤ request.term := by omega
  have hd := handleLeaderContact_demotes h request.leaderID sample hle
  generalize hc0 : c.handleLeaderContact request.leaderID request.term sample = c0 at hd
  have hterm := hd.term_eq hle
  rw [ensures_bind, ensures_lift_ok hlog.newLog_self]
  cases ha : c.log.append request.prevLogIndex request.prevLogTerm request.entries with
  | error err =>
    obtain ⟨e, hint⟩ := err
    simp only
    rw [ensures_ite]
    refine ⟨fun _ => rfl, fun _ => ?_⟩
    rw [ensures_modify, hc0]
    refine fun hid => (hd.handled h _).reply hid ⟨rfl, rfl, ?_⟩ rfl (by simp)
    simp [view, hterm]
  | ok l =>
    have happ := hlog.append_ok ha
    obtain ⟨hlo, hhi⟩ := hlog.term_range happ.prev_term
    have hwf := hwf (hhi.trans hlog.bound)
    have hverif := lastVerified_eq hwf.contiguous
    have hl : l.Valid := happ.isValid hlog hwf.sorted
    have hge := happ.last_ge hlog
    have hlast' : l.lastTerm ≤ request.term := happ.lastTerm_le hlog (hs.terms.trans hle) hwf.term_le
    obtain ⟨hchg, hend⟩ := happ.changed hlog
    have hshp : l = { c.log with entries := l.entries, lastIndex := l.lastIndex } := by
      conv_lhs => rw [happ.shape]
      rw [hl.last, happ.shape]
    simp only [ensures_bind, ensures_modify, hc0]
    refine (followCommit_takes hd hl hshp hchg (by rw [hterm]; exact hlast')
      (by rw [hverif]; exact hge)).mono (fun advanced c2 hc2 => ?_) fun _ _ hf => hf.elim
    obtain ⟨k, hk, hadv, htakes, hout⟩ := hc2
    have hents : c2.log.entries = l.entries := by
      have hfrm := congrArg (·.log.entries) htakes.frame
      simpa only [queueEntries_if] using hfrm
    simp only [hents]
    generalize changedLogEntries c.log.entries l.entries = changed at htakes hout hend ⊢
    generalize (if changed = [] then c2 else c2.queueEntries changed) = c3 at htakes hout ⊢
    have hrdy : c3.pendingReady.entries = changed := by rw [htakes.entries, hd.entries, nil_append]
    have hmess : c3.pendingReady.messages = [] := htakes.messages.trans hd.messages
    have hactions := htakes.actions
    have hfrm := htakes.frame
    have hterm3 : c3.hardState.term = request.term := by rw [hfrm]; exact hterm
    have hcmt3 : c3.log.commitIndex = k := by rw [hfrm]
    have hlast3 : c3.log.lastIndex = l.lastIndex := by rw [hfrm]
    have hbase3 : c3.log.snapshotIndex = c.log.snapshotIndex := by rw [hfrm, hshp]
    have hfollows : Follows request c c3 := by
      refine ⟨hle, ⟨l, happ, ?_⟩, hterm3, ?_, ?_⟩
      · rw [hfrm, hk]
      · rw [hfrm]
        simp only [hd.hard]
        split <;> rfl
      rw [hfrm]
      exact hd.role
    have hold := hd.handled h (some (.appendEntriesRequest request))
    have hhndl : Handled snapshot c.pendingProposals (some (.appendEntriesRequest request)) c
        c3 := by
      refine ⟨hout, ?_, ?_, ?_, .follow request rfl hfollows, ?_, ?_, by simp [hmess],
        by simp [hmess], fun a ha => .inl (by simpa using hold.actions a (hactions ▸ ha)), ?_⟩
      · refine .quiet ?_ ?_ ?_ ?_ ?_ fun i hi => ?_
        · rw [hfrm]
          exact hold.roles.limits
        · rw [hfrm]
          exact hold.roles.votes
        · simp [hfollows.role]
        · rw [hfrm]
          exact hd.progress
        · rw [hfrm]
          exact hd.outgoing
        rw [hfrm] at hi ⊢
        exact (hold.roles.incoming i hi).congr
      · rw [hfrm]
        exact hold.terminal
      · rw [hfrm]
        exact hold.done
      · simp [hfollows.role]
      · intro id
        left
        rw [hfrm]
        simp [progressOf, hd.progress, Progress.zero]
      rw [hactions, hfrm]
      exact hold.staged
    refine fun hid => hhndl.reply hid ⟨rfl, rfl, ?_⟩ rfl fun response hr hsucc => ?_
    · refine ⟨hterm3.symm, ?_, ?_, ?_, ?_⟩
      · change c3.log.snapshotIndex ≤ lastVerified request
        omega
      · change lastVerified request ≤ c3.log.lastIndex
        omega
      · intro hne
        replace hne : c3.pendingReady.entries ≠ [] := hne
        change _ = c3.log.lastIndex
        rw [hrdy] at hne
        rw [hlast3, hverif, (hend hne).1]
      simp only [view, hterm3, hcmt3, hrdy, DurabilityPrerequisite.mk.injEq, hadv]
      refine ⟨by simp, ?_⟩
      split
      · next hnil => simp [hnil]
      · next hne => rw [(hend hne).2, hverif]; rfl
    simp only [RPC.appendEntriesResponse.injEq] at hr
    exact ⟨request, rfl, hfollows, by rw [← hr]⟩

/-! ## The leader's side -/

/-- A leader in front of an event. -/
lemma Settled.leads (h : c.Settled snapshot) (hr : c.role = .leader) :
    Leads snapshot c.pendingProposals c.view c := by
  have hrdy := h.ready
  refine ⟨h.start, h.idle.sound, h.roles, hr, rfl, rfl, by simp [hrdy, Ready.empty, view],
    fun id pr _ hp => ?_⟩
  have hfit := (h.roles.progress id pr hp).2
  exact ⟨hfit.matched, hfit.next⟩

/-- Only a leader's records, clocks and counters differ. -/
structure Tunes (c c1 : Core) : Prop where
  view : c1.view = c.view
  role : c1.role = c.role
  votes : c1.votes = c.votes
  terminal : c1.terminalErr = c.terminalErr
  done : c1.snapshotActionDone = c.snapshotActionDone

/-- From a leader's state at the end of an event that moved its peers' positions, then maybe the
    commit index, and then sent messages. -/
lemma Leads.moved {c1 c2 c' : Core} (hc : c.Settled snapshot) (hr : c.role = .leader) (ht : Tunes c c1)
    (hmtd : ∀ id, (c1.progressOf id).matchIndex ≤ (c.progressOf id).matchIndex ∨
      (c1.progressOf id).matchIndex ≤ c.log.snapshotIndex ∨
      CountsMatch rpc c id (c1.progressOf id).matchIndex ∨ id = c.localID)
    (hadv : c2 = c1 ∨ ∃ k, Advances k c1 c2) (h : Leads snapshot before c.view c') (hs : Sends c2 c') :
    Handled snapshot before rpc c c' := by
  have hrdy : c1.pendingReady = .empty := (congrArg View.ready ht.view).trans hc.ready
  have hhard : c1.hardState = c.hardState := congrArg View.hardState ht.view
  have hlog : c1.log = c.log := congrArg View.log ht.view
  have hvtrs : c1.voters = c.voters := congrArg View.voters ht.view
  -- The commit index moves without touching anything but the batch and the durable part.
  have hcmt : (∀ id, c2.progressOf id = c1.progressOf id) ∧
      c2.pendingReady.messages = [] ∧ c2.pendingReady.snapshotActions = [] ∧
      c2.terminalErr = c1.terminalErr ∧ c2.snapshotActionDone = c1.snapshotActionDone ∧
      c2.votes = c1.votes ∧ c2.voters = c1.voters := by
    rcases hadv with rfl | ⟨k, hk⟩
    · exact ⟨fun _ => rfl, by rw [hrdy]; rfl, by rw [hrdy]; rfl, rfl, rfl, rfl, rfl⟩
    refine ⟨fun id => ?_, ?_, ?_, ?_, ?_, ?_, ?_⟩
    · rw [hk.commits.frame]
      rfl
    · rw [hk.commits.messages, hrdy]
      rfl
    · rw [hk.commits.actions, hrdy]
      rfl
    all_goals rw [hk.commits.frame]
  obtain ⟨hprog, hmsg, hact, htermnl, hdone, hvotes, hvtrs2⟩ := hcmt
  have hsf := hs.frame
  have hm : ∀ id, (c'.progressOf id).matchIndex = (c1.progressOf id).matchIndex := by
    intro id
    rw [hs.matched id, hprog id]
  refine h.handled ?_ ?_ ?_ (by simp [hr]) (fun id => by rw [hm id]; exact hmtd id)
    (fun m hmem => ?_) ?_
  · rw [hsf]
    exact (htermnl.trans ht.terminal).trans hc.terminal
  · rw [hsf]
    exact (hdone.trans ht.done).trans hc.done
  · rcases hadv with rfl | ⟨k, hk⟩
    · refine .stay ?_ ?_ (.inl ?_) <;> rw [hsf]
      · exact hhard
      · exact hlog
      · exact ht.role
    have hrep : c'.replicas k = c1.replicas k := by
      unfold replicas
      rw [show c'.voters = c1.voters by rw [hsf]; exact hvtrs2]
      simp only [hm]
    refine .commit k hr h.leader ?_ ?_ ?_ (hlog ▸ hk.after) (hlog ▸ hk.within) ?_ ?_
    · rw [hsf, hk.commits.frame, ← hhard]
    · rw [hsf, hk.commits.frame, ← hhard]
    · rw [hsf, hk.commits.frame, ← hlog]
    · rw [← hlog, ← hhard]
      exact hk.own
    rw [hrep, ← hvtrs]
    exact hk.quorum
  · rcases hs.messages m hmem with hmem | hmem
    · rw [hmsg] at hmem
      cases hmem
    · exact hmem
  rw [hsf]
  exact hact

lemma Leads.quorumResponses {v : View} (h : Leads snapshot before v c) (responses : Finset Nat) :
    Leads snapshot before v { c with quorumResponses := responses } :=
  h.congr rfl rfl

/-- A peer that has an append outstanding receives no snapshot. -/
lemma Roles.outgoing_of_active (h : c.Roles snapshot) {id : Nat} {pr : Progress}
    (hp : c.progress id = some pr) (ha : pr.activeGeneration ≠ 0) : c.outgoingSnapshots id = none := by
  cases ht : c.outgoingSnapshots id with
  | none => rfl
  | some t =>
    obtain ⟨pr', hp', hneed⟩ := (h.outgoing id t ht).needed
    rw [hp, Option.some.injEq] at hp'
    exact absurd ((h.progress id pr hp).2.idle (hp' ▸ hneed)) ha

section Response

variable {response : AppendEntriesResponse} {pr : Progress}

lemma handleAppendSuccess_spec (h : c.Settled snapshot) (hr : c.role = .leader)
    (hid : response.responderID ∈ c.voters.voters) (hp : c.progress response.responderID = some pr)
    (hact : pr.activeGeneration ≠ 0) (hmch : response.matchIndex = pr.activeMatchIndex)
    (hcnts : CountsMatch (some (.appendEntriesResponse response)) c response.responderID
      response.matchIndex) : Ensures (handleAppendSuccess response pr) c
      (fun _ c' => Handled snapshot c.pendingProposals (some (.appendEntriesResponse response)) c c')
      (fun _ c' => c' = c) := by
  have hlead := h.leads hr
  have hfit := (h.roles.progress _ pr hp).2
  have hle := hfit.active hact
  have hmtd := hfit.matched
  have hnext := hfit.next
  have hrdy := h.ready
  have hof : c.progressOf response.responderID = pr := by simp [progressOf, hp]
  unfold handleAppendSuccess
  simp only [ensures_bind, ensures_get]
  cases hn : checkedNextIndex (max response.matchIndex pr.matchIndex) with
  | none => exact rfl
  | some =>
  obtain ⟨-, rfl⟩ := checkedNextIndex_eq_some.mp hn
  simp only
  rw [ensures_ite]
  refine ⟨fun _ => rfl, fun hgen => ?_⟩
  simp only [ensures_bind, ensures_set, ensures_get]
  have hput := (hlead.putProgress response.responderID { pr with
      activeGeneration := 0
      activeMatchIndex := 0
      matchIndex := max response.matchIndex pr.matchIndex
      nextIndex := max pr.nextIndex (max response.matchIndex pr.matchIndex + 1)
      snapshotNeeded := false }
    ⟨by simp only; omega, by simp only; omega, by simp, by simp⟩
    (by simp [h.roles.outgoing_of_active hp hact])
    (fun _ => ⟨by simp only [view]; omega, by simp only [view]; omega⟩)).quorumResponses
    (insert response.responderID c.quorumResponses)
  generalize hc1 : ({ c with
    progress := put c.progress response.responderID { pr with
      activeGeneration := 0
      activeMatchIndex := 0
      matchIndex := max response.matchIndex pr.matchIndex
      nextIndex := max pr.nextIndex (max response.matchIndex pr.matchIndex + 1)
      snapshotNeeded := false }
    quorumResponses := insert response.responderID c.quorumResponses } : Core) = c1 at hput ⊢
  have htunes : Tunes c c1 := by
    rw [← hc1]
    exact ⟨rfl, rfl, rfl, rfl, rfl⟩
  have hmvd : ∀ id, (c1.progressOf id).matchIndex ≤ (c.progressOf id).matchIndex ∨
      (c1.progressOf id).matchIndex ≤ c.log.snapshotIndex ∨
      CountsMatch (some (.appendEntriesResponse response)) c id (c1.progressOf id).matchIndex ∨
      id = c.localID := by
    intro id
    by_cases heq : id = response.responderID
    · subst heq
      rw [hof, ← hc1]
      simp only [progressOf, put, if_true, Option.getD_some]
      rcases le_total response.matchIndex pr.matchIndex with hx | hx
      · exact .inl (by omega)
      rw [max_eq_left hx]
      exact .inr (.inr (.inl hcnts))
    left
    rw [← hc1]
    simp [progressOf, put, heq]
  have hgen1 : (c1.progressOf response.responderID).generation = pr.generation := by
    rw [← hc1]
    simp [progressOf, put]
  have hmsg1 : c1.pendingReady.messages = [] := by
    rw [← hc1, hrdy]
    rfl
  refine (advanceLeaderCommit_spec hput hmsg1 (by rw [← hc1]; rfl)).mono (fun _ c2 hc2 => ?_)
    fun _ _ hf => hf.elim
  obtain ⟨hlead2, hadv⟩ := hc2
  rw [ensures_ite]
  refine ⟨fun hmore => ?_, fun _ => hlead2.moved h hr htunes hmvd hadv (.refl c2)⟩
  have hpeers : c2.voters = c.voters ∧ c2.log.lastIndex = c.log.lastIndex ∧ c2.progress = c1.progress := by
    rcases hadv with rfl | ⟨k, hk⟩
    · rw [← hc1]
      exact ⟨rfl, rfl, rfl⟩
    rw [hk.commits.frame, ← hc1]
    exact ⟨rfl, rfl, rfl⟩
  refine (issueAppend_spec hlead2 (hpeers.1 ▸ hid)).mono
    (fun _ c' hc' => hc'.1.moved h hr htunes hmvd hadv hc'.2.1) fun _ _ hf => ?_
  -- The request generation was checked before anything changed.
  have hmax := hf.2.2
  rw [progressOf, hpeers.2.2, ← progressOf, hgen1] at hmax
  rw [hpeers.2.1] at hmore
  exact absurd ⟨hmore, hmax⟩ hgen

/-- The next index after a rejection stays within the log. -/
lemma repairNextIndex_le {next : Nat} (hlast : pr.matchIndex ≤ c.log.lastIndex)
    (h : c.repairNextIndex response pr.matchIndex = .ok next) : next ≤ c.log.lastIndex + 1 := by
  unfold repairNextIndex at h
  simp only at h
  split at h
  · cases h
  cases h1 : checkedNextIndex c.log.lastIndex with
  | none => rw [h1] at h; cases h
  | some =>
    cases h2 : checkedNextIndex pr.matchIndex with
    | none => rw [h1, h2] at h; cases h
    | some =>
      rw [h1, h2] at h
      obtain ⟨-, rfl⟩ := checkedNextIndex_eq_some.mp h1
      obtain ⟨-, rfl⟩ := checkedNextIndex_eq_some.mp h2
      simp only [Except.ok.injEq] at h
      omega

lemma handleAppendRejection_spec (h : c.Settled snapshot) (hr : c.role = .leader)
    (hid : response.responderID ∈ c.voters.voters) (hp : c.progress response.responderID = some pr)
    (hact : pr.activeGeneration ≠ 0) : Ensures (handleAppendRejection response pr) c
      (fun _ c' => Handled snapshot c.pendingProposals rpc c c') (fun _ c' => c' = c) := by
  have hlead := h.leads hr
  have hfit := (h.roles.progress _ pr hp).2
  have hof : c.progressOf response.responderID = pr := by simp [progressOf, hp]
  unfold handleAppendRejection
  simp only [ensures_bind, ensures_get, ensures_lift]
  refine ⟨fun next hnext => ?_, fun _ _ => trivial⟩
  have hle := repairNextIndex_le hfit.matched hnext
  rw [ensures_ite]
  refine ⟨fun _ => rfl, fun hgen => ?_⟩
  simp only [ensures_bind, ensures_set]
  have hput := (hlead.putProgress response.responderID { pr with
      activeGeneration := 0
      activeMatchIndex := 0
      nextIndex := next
      snapshotNeeded := decide (next ≤ c.log.snapshotIndex) }
    ⟨hfit.matched, hle, by simp, by simp⟩
    (by simp [h.roles.outgoing_of_active hp hact])
    (fun _ => ⟨hfit.matched, hle⟩)).quorumResponses
    (insert response.responderID c.quorumResponses)
  generalize hc1 : ({ c with
    progress := put c.progress response.responderID { pr with
      activeGeneration := 0
      activeMatchIndex := 0
      nextIndex := next
      snapshotNeeded := decide (next ≤ c.log.snapshotIndex) }
    quorumResponses := insert response.responderID c.quorumResponses } : Core) = c1 at hput ⊢
  have htunes : Tunes c c1 := by
    rw [← hc1]
    exact ⟨rfl, rfl, rfl, rfl, rfl⟩
  have hmvd : ∀ id, (c1.progressOf id).matchIndex ≤ (c.progressOf id).matchIndex := by
    intro id
    rw [← hc1]
    by_cases heq : id = response.responderID
    · subst heq
      rw [hof]
      simp [progressOf, put]
    · simp [progressOf, put, heq]
  have hgen1 : (c1.progressOf response.responderID).generation = pr.generation := by
    rw [← hc1]
    simp [progressOf, put]
  rw [ensures_ite]
  refine ⟨fun _ => hput.moved h hr htunes (fun id => .inl (hmvd id)) (.inl rfl) (.refl c1),
    fun hneed => ?_⟩
  refine (issueAppend_spec hput (by rw [← hc1]; exact hid)).mono
    (fun _ c' hc' => hc'.1.moved h hr htunes (fun id => .inl (hmvd id)) (.inl rfl) hc'.2.1)
    fun _ _ hf => ?_
  exact absurd ⟨by simpa using hneed, hgen1 ▸ hf.2.2⟩ hgen

end Response

lemma handleAppendResponse_spec (h : c.Settled snapshot) {response : AppendEntriesResponse}
    (hgen : response.generation ≠ 0) (hid : response.responderID ∈ c.voters.voters) :
    Ensures (handleAppendResponse response) c
      (fun _ c' => Handled snapshot c.pendingProposals (some (.appendEntriesResponse response)) c c')
      (fun _ c' => c' = c) := by
  have hstill : Handled snapshot c.pendingProposals (some (.appendEntriesResponse response)) c c :=
    h.still _ rfl rfl rfl rfl
  unfold handleAppendResponse
  simp only [ensures_bind, ensures_get]
  rw [ensures_ite]
  refine ⟨fun _ => hstill, fun hmine => ?_⟩
  push Not at hmine
  obtain ⟨hr, hldr, hterm⟩ := hmine
  cases hp : c.progress response.responderID with
  | none => exact hstill
  | some =>
    simp only
    rw [ensures_ite]
    refine ⟨fun _ => hstill, fun hact => ?_⟩
    rw [not_not] at hact
    rw [ensures_ite]
    refine ⟨fun _ => hstill, fun hmch => ?_⟩
    push Not at hmch
    rw [ensures_ite]
    refine ⟨fun hlt => (adoptHigherTerm_demotes h hlt).handled h _, fun _ => ?_⟩
    rw [ensures_ite]
    refine ⟨fun hs => ?_, fun _ => handleAppendRejection_spec h hr hid hp (hact ▸ hgen)⟩
    exact handleAppendSuccess_spec h hr hid hp (hact ▸ hgen) (hmch hs)
      ⟨response, rfl, rfl, hldr, hterm, hs, rfl⟩

end Core

end Crane.Raft
