import Crane.Raft.DurableState
import Crane.Raft.Simulation

/-!
# What a store holds

`Stored` links a voter's store to its record in the history, whether the voter is up or not:
the durable state is that record, cut off at a snapshot of committed entries. `Steady` links a
core between two events to both. The lemmas here follow the three writes a node makes — a batch,
a compaction, an installed snapshot — and the one read, recovery.
-/

namespace Crane.Raft

open Consensus List Setting

variable {σ : Type} [Hash] {cfg : Config σ} {s s' : History} {n : Nat} {store : MemoryStore}
  {c c' : Core}

structure Stored (cfg : Config σ) (s : History) (n : Nat) (store : MemoryStore) : Prop where
  identity : store.identity = (cfg.options n).identity
  voters : store.voters = cfg.voters
  limit : store.snapshotLimit = (cfg.options n).maxSnapshotBytes
  valid : store.state.Valid (cfg.options n).identity cfg.voters maxRaftSnapshotBytes
  represents : Represents cfg.voters.setting (s.node n) store.state.hardState
    store.state.snapshotBase.lastIncludedIndex store.state.snapshotBase.lastIncludedTerm
    store.state.entries
  encoded : ∀ sn, store.state.snapshot = some sn →
    sn.Sealed (cfg.options n).identity (cfg.options n).maxSnapshotBytes ∧ sn.metadata = store.state.snapshotBase
  stands : ∀ sn, store.state.snapshot = some sn → Stands cfg s (s.node n).term sn.metadata sn.state

/-- A core between two events, whose durable part is `d`. -/
structure Steady (cfg : Config σ) (s : History) (n : Nat) (d : RecoveredState) (c : Core) : Prop where
  localID : c.localID = n
  voters : c.voters = cfg.voters
  settled : c.Settled d.snapshot
  durable : Durable d c.view
  applied : c.log.appliedIndex = c.log.commitIndex
  linked : Linked cfg s n c
  offered : ∀ i, c.incomingSnapshot = some i →
    i.request.totalLength ≤ (cfg.options i.request.leaderID).maxSnapshotBytes

omit [Hash] in
lemma Steady.voter {d : RecoveredState} (h : Steady cfg s n d c) : n ∈ cfg.voters.voters := by
  have hv : c.localID ∈ c.voters.voters := h.settled.idle.sound.voter
  rwa [h.localID, h.voters] at hv

lemma Stored.backed (h : Stored cfg s n store) : Backed cfg s n store.state.snapshot :=
  fun sn hsn => ⟨(h.encoded sn hsn).1.decoded, h.stands sn hsn⟩

lemma Stored.embodies (h : Stored cfg s n store) (hd : Durable store.state c.view) :
    c.Embodies cfg.voters.setting (s.node n) := by
  have hr := h.represents
  rw [hd.hardState, hd.base_index, hd.base_term, hd.entries] at hr
  exact hr

/-- The stage is not part of what is durable. -/
lemma Stored.stage (h : Stored cfg s n store) (stage : Option MemorySnapshotStage) :
    Stored cfg s n { store with stage } :=
  ⟨h.identity, h.voters, h.limit, h.valid, h.represents, h.encoded, h.stands⟩

/-! ## Others acting -/

omit [Hash] in
lemma Linked.grow (h : Linked cfg s n c) (hg : Grows s s') (hnode : s'.node n = s.node n)
    (hrole : s'.role n = s.role n) : Linked cfg s' n c where
  leader hr := by
    rw [hnode, hrole]
    exact ⟨(h.leader hr).1, (h.leader hr).2.trans (hg.acked _ _)⟩
  candidate hr := by
    rw [hrole]
    refine ⟨(h.candidate hr).1, fun v hv => ?_⟩
    obtain ⟨V, hV⟩ := (h.candidate hr).2 v hv
    exact ⟨V, hg.voted _ _ _ hV⟩
  matched hr id := (h.matched hr id).imp (fun hm => hm.trans (hg.acked _ _)) fun hm => hm

lemma Stored.grow (h : Stored cfg s n store) (hI : Inv cfg.voters.setting s) (hg : Grows s s')
    (hnode : s'.node n = s.node n) : Stored cfg s' n store :=
  ⟨h.identity, h.voters, h.limit, h.valid, by rw [hnode]; exact h.represents, h.encoded,
    fun sn hsn => by rw [hnode]; exact (h.stands sn hsn).grow hI hg le_rfl⟩

omit [Hash] in
lemma Steady.grow {d : RecoveredState} (h : Steady cfg s n d c) (hg : Grows s s')
    (hnode : s'.node n = s.node n) (hrole : s'.role n = s.role n) : Steady cfg s' n d c :=
  ⟨h.localID, h.voters, h.settled, h.durable, h.applied, h.linked.grow hg hnode hrole, h.offered⟩

/-! ## Writing a batch -/

/-- Writing a batch that leads to a core which embodies the voter's new record. -/
lemma Stored.persist (h : Stored cfg s n store) (hI : Inv cfg.voters.setting s)
    (hg : Grows s s') {before : Nat → Option Entry} (hd : Durable store.state c.view)
    (ho : Output store.state.snapshot before c.view c'.view) (hvtrs : c'.voters = cfg.voters)
    (he : c'.Embodies cfg.voters.setting (s'.node n)) (token : Nat) :
    Stored cfg s' n { store with
      state := store.state.withBatch
        (persistenceBatchForReady { c'.pendingReady with token }) } := by
  obtain ⟨hhard, hbase, hterm, hents⟩ := ho.durable hd token
  have hval := ho.withBatch_valid hd (hvtrs ▸ h.valid) token
  rw [show c'.view.voters = cfg.voters from hvtrs] at hval
  refine ⟨h.identity, h.voters, h.limit, hval, ?_, h.encoded, fun sn hsn => ?_⟩
  · unfold Core.Embodies at he
    rw [← show _ = c'.hardState from hhard, ← show _ = c'.log.snapshotIndex from hbase,
      ← show _ = c'.log.snapshotTerm from hterm, ← show _ = c'.log.entries from hents] at he
    exact he
  have hle : (s.node n).term ≤ (s'.node n).term := by
    rw [← (h.embodies hd).term, ← he.term]
    exact ho.term_le
  exact (h.stands sn hsn).grow hI hg hle

/-! ## Compaction -/

lemma Snapshot.Sealed.limit_le {sn : Snapshot} {identity : StorageIdentity} {limit : Nat}
    (h : sn.Sealed identity limit) : limit ≤ maxRaftSnapshotBytes :=
  (validateSnapshotInputs_eq_ok.mp (decodeSnapshotEnvelope_eq_ok.mp h).2.1).2.2.1.2

/-- A durable state that was validated with the voter's own limit is valid with any. -/
lemma RecoveredState.Valid.relax {d : RecoveredState} {identity : StorageIdentity}
    {voters : VoterSet} {limit : Nat} (h : d.Valid identity voters limit) {sn : Snapshot}
    (hsn : d.snapshot = some sn) (hs : sn.Sealed identity limit)
    (hbase : sn.metadata = d.snapshotBase) : d.Valid identity voters maxRaftSnapshotBytes := by
  refine { h with snapshot := fun sn' hsn' => ?_ }
  obtain rfl : sn' = sn := Option.some.inj (hsn'.symm.trans hsn)
  rw [← hbase]
  exact (hs.mono hs.limit_le le_rfl).validateStored

omit [Hash] in
/-- A position past the base that the durable log reaches has the term the core knows. -/
lemma Durable.term_eq {d : RecoveredState} (hd : Durable d c.view) (hs : c.view.Sound)
    {i t : Nat} (hlo : d.snapshotBase.lastIncludedIndex ≤ i)
    (hhi : i ≤ d.snapshotBase.lastIncludedIndex + d.entries.length)
    (ht : recoveredTermAt d i = .ok t) : c.log.term i = .ok t := by
  have hlast : c.log.lastIndex = c.log.snapshotIndex + c.log.entries.length := hs.log.last
  have hbase : d.snapshotBase.lastIncludedIndex = c.log.snapshotIndex := hd.base_index
  have hents : d.entries = c.log.entries := hd.entries
  rw [hbase] at hlo hhi
  rw [hents] at hhi
  obtain ⟨u, hu⟩ := hs.log.exists_term (show c.view.log.snapshotIndex ≤ i from hlo)
    (show i ≤ c.log.lastIndex by omega)
  have := hd.termAt hs.log hu
  rw [ht, Except.ok.injEq] at this
  rw [this]
  exact hu

section Compaction

variable {sn : Snapshot} {p : RecoveredState}

omit [Hash] in
/-- A new base that the log reaches, with the term the log has there. -/
lemma Represents.rebase {voters : VoterSet} {r : Replica Nat Entry}
    {hard : HardState} {base baseTerm : Nat} {entries : List Entry}
    (h : Represents voters.setting r hard base baseTerm entries) {i t : Nat} (hlo : base ≤ i)
    (hhi : i ≤ r.log.length) (ht : t = voters.setting.termAt r.log i) :
    Represents voters.setting r hard i t (entries.drop (i - base)) := by
  refine ⟨h.term, h.vote, h.vote_ne, h.commit, hhi, ht, ?_, h.indexed⟩
  rw [h.entries, drop_drop, Nat.add_sub_cancel' hlo]

lemma Stored.compact (h : Stored cfg s n store) (hc : Steady cfg s n store.state c)
    (hseal : sn.Sealed (cfg.options n).identity (cfg.options n).maxSnapshotBytes)
    (hstd : Stands cfg s (s.node n).term sn.metadata sn.state)
    (hnew : c.log.snapshotIndex < sn.metadata.lastIncludedIndex)
    (hp : compactRecoveredState store.state sn (cfg.options n).identity cfg.voters
      (cfg.options n).maxSnapshotBytes = .ok p) : Stored cfg s n { store with state := p } := by
  have hs := hc.settled.idle.sound
  have hbase : store.state.snapshotBase.lastIncludedIndex = c.log.snapshotIndex := hc.durable.base_index
  obtain ⟨hterm, hlen, rfl, hval⟩ := compactRecoveredState_ok (by rw [hbase]; exact hnew) hseal hp
  have hterm' := hc.durable.term_eq hs (by omega) (by omega) hterm
  obtain ⟨hlo, hhi, ht⟩ := ((h.embodies hc.durable).term_iff hs.log).mp hterm'
  have hle : store.state.snapshotBase.lastIncludedIndex ≤ sn.metadata.lastIncludedIndex := by omega
  refine ⟨h.identity, h.voters, h.limit, ?_, h.represents.rebase hle hhi ht, ?_, ?_⟩
  · exact (validateRecoveredState_ok hstd.1 hval).relax rfl hseal rfl
  · rintro sn' hsn'
    obtain rfl := Option.some.inj hsn'
    exact ⟨hseal, rfl⟩
  rintro sn' hsn'
  obtain rfl := Option.some.inj hsn'
  exact hstd

/-- The core's own compaction brings it back in line with the store. -/
lemma Steady.compact (hc : Steady cfg s n store.state c)
    (hseal : sn.Sealed (cfg.options n).identity (cfg.options n).maxSnapshotBytes)
    (hnew : c.log.snapshotIndex < sn.metadata.lastIncludedIndex)
    (hp : compactRecoveredState store.state sn (cfg.options n).identity cfg.voters
      (cfg.options n).maxSnapshotBytes = .ok p) (hset : c'.Settled (some sn)) (hcomp : Core.Compacts c c')
    (hlog : c.log.compact sn.metadata.lastIncludedIndex sn.metadata.lastIncludedTerm =
      .ok c'.log) : Steady cfg s n p c' := by
  have hs : c.log.Valid := hc.settled.idle.sound.log
  have hbase : store.state.snapshotBase.lastIncludedIndex = c.log.snapshotIndex := hc.durable.base_index
  have hents : store.state.entries = c.log.entries := hc.durable.entries
  obtain ⟨-, -, rfl, -⟩ := compactRecoveredState_ok (by rw [hbase]; exact hnew) hseal hp
  rcases hs.compact_eq_ok hlog with ⟨heq, -⟩ | ⟨-, -, -, hlog'⟩
  · omega
  have hf := hcomp.frame
  have hprog := hcomp.matched
  have hhard : c'.hardState = c.hardState := by rw [hf]
  have hrole : c'.role = c.role := by rw [hf]
  refine ⟨by rw [hf]; exact hc.localID, by rw [hf]; exact hc.voters, hset, ?_, ?_, ?_, ?_⟩
  · refine ⟨?_, ?_, ?_, ?_⟩
    · show store.state.hardState = c'.hardState
      rw [hhard]
      exact hc.durable.hardState
    · show _ = c'.log.snapshotIndex
      rw [hlog']
    · show _ = c'.log.snapshotTerm
      rw [hlog']
    show _ = c'.log.entries
    rw [hlog', hbase, hents]
  · rw [hlog']
    exact hc.applied
  · refine ⟨hrole ▸ hc.linked.leader, ?_, ?_⟩
    · rw [hrole, hhard, show c'.votes = c.votes by rw [hf]]
      exact hc.linked.candidate
    rw [hrole, hhard, hlog']
    intro hr id
    rw [hprog id]
    exact hc.linked.matched hr id
  rw [show c'.incomingSnapshot = c.incomingSnapshot by rw [hf]]
  exact hc.offered

end Compaction

/-! ## Installing a snapshot -/

section Install

variable {request : InstallSnapshotRequest} {p : RecoveredState}

/-- The log after an installation, seen on the whole log: where the voter has the snapshot's last
    entry it keeps everything, otherwise it has exactly what the snapshot stands for. -/
lemma takeOver_installed (hI : Inv cfg.voters.setting s) (h : Stored cfg s n store)
    (hd : Durable store.state c.view) (hs : c.view.Sound) {L q : List Entry} {idx term : Nat}
    (hL : Sound cfg.voters.setting s L) (hq : L.take idx = q) (hlen : q.length = idx)
    (hterm : cfg.voters.setting.lastTerm q = term) {retained : List Entry} (hbase : c.log.snapshotIndex ≤ idx)
    (hr : (recoveredTermAt store.state idx = .ok term ∧
        idx ≤ store.state.snapshotBase.lastIncludedIndex + store.state.entries.length ∧
        retained = store.state.entries.drop (idx - store.state.snapshotBase.lastIncludedIndex)) ∨
      (retained = [] ∧ (store.state.snapshotBase.lastIncludedIndex + store.state.entries.length < idx ∨
          ∃ t, recoveredTermAt store.state idx = .ok t ∧ t ≠ term))) :
    takeOver (s.node n).log L idx = q ++ retained ∧
      (retained = (s.node n).log.drop idx ∧ q = (s.node n).log.take idx ∨ retained = []) := by
  have he := h.embodies hd
  have hb : store.state.snapshotBase.lastIncludedIndex = c.log.snapshotIndex := hd.base_index
  have hents : store.state.entries = c.log.entries := hd.entries
  have hlast : c.log.lastIndex = (s.node n).log.length := he.last hs.log
  have hlast' : c.log.lastIndex = c.log.snapshotIndex + c.log.entries.length := hs.log.last
  have hpre : q <+: L := hq ▸ take_prefix _ _
  have hidx : idx ≤ L.length := hlen ▸ hpre.length_le
  have htermL : cfg.voters.setting.termAt L idx = term := by
    rw [← hterm, lastTerm, hlen]
    exact (termAt_shorten hpre hlen.ge).symm
  unfold takeOver
  rw [hq]
  rcases hr with ⟨ht, hle, rfl⟩ | ⟨rfl, hne⟩
  · have hterm' := hd.term_eq hs (by omega) hle ht
    obtain ⟨-, hhi, ht'⟩ := (he.term_iff hs.log).mp hterm'
    have htake : (s.node n).log.take idx = q := by
      rw [← hq]
      exact (hI.log_sound n).take_eq hL hhi hidx (ht'.symm.trans htermL.symm)
    have hdrop : store.state.entries.drop (idx - store.state.snapshotBase.lastIncludedIndex) =
        (s.node n).log.drop idx := by
      rw [h.represents.entries, drop_drop, Nat.add_sub_cancel' (by omega)]
    rw [if_pos (htake ▸ take_prefix _ _), hdrop]
    refine ⟨?_, .inl ⟨rfl, htake.symm⟩⟩
    rw [← htake, take_append_drop]
  rw [if_neg, append_nil]
  · exact ⟨rfl, .inr rfl⟩
  intro hp
  have hle : idx ≤ (s.node n).log.length := hlen ▸ hp.length_le
  rcases hne with hlt | ⟨t, ht, hne⟩
  · rw [hb, hents] at hlt
    omega
  have hterm' := hd.term_eq hs (by omega) (by rw [hb, hents]; omega) ht
  obtain ⟨-, -, ht'⟩ := (he.term_iff hs.log).mp hterm'
  apply hne
  rw [ht', ← hterm, lastTerm, hlen]
  exact (termAt_shorten hp hlen.ge).symm

/-- An installed snapshot is the leader's log, taken over and committed up to it. -/
lemma Stored.install (hI : Inv cfg.voters.setting s) (h : Stored cfg s n store)
    (hd : Durable store.state c.view) (hs : c.view.Sound)
    (hj : Justified cfg s (.installSnapshotRequest request))
    (hterm : request.term = c.hardState.term) (hp : Installed store request p) :
    ∃ s', Acts cfg.voters.setting n s s' ∧ Stored cfg s' n { store with state := p, stage := none } ∧
      (s'.node n).term = (s.node n).term ∧ ∃ sn, p.snapshot = some sn := by
  obtain ⟨⟨L, hL⟩, bytes, hstd, hsum, -⟩ := hj
  obtain ⟨sn, hnew, hsum', -, hinst⟩ := hp.snapshot
  obtain ⟨hmeta, -, hseal⟩ := newSnapshot_ok hnew
  rw [← hmeta] at hstd
  obtain ⟨hmax, q, hidxd, hq, hlen, hlastT, hcapt⟩ := hstd
  -- What was put together from the chunks has the digest of what was captured.
  have hstd : Stands cfg s request.term sn.metadata sn.state := by
    refine ⟨hmax, q, hidxd, hq, hlen, hlastT, fun hash => ?_⟩
    obtain rfl : sn.state = bytes := hash (hsum'.trans hsum)
    exact hcapt hash
  rw [h.identity, h.limit] at hseal
  rw [h.identity, h.voters] at hinst
  obtain ⟨hcmt, hval, retained, rfl, hret⟩ := installRecoveredSnapshot_ok h.valid.bound hinst
  have he := h.embodies hd
  have hcore : store.state.hardState = c.hardState := hd.hardState
  have hpre : q <+: L := hI.committed_prefix hq le_rfl hL
  have htake : L.take sn.metadata.lastIncludedIndex = q := by
    rw [← hlen]
    exact (prefix_iff_eq_take.mp hpre).symm
  have hbase : c.log.snapshotIndex ≤ sn.metadata.lastIncludedIndex := by
    have h1 : c.log.snapshotIndex ≤ c.log.commitIndex := hs.log.snapshotIndex_le_commit
    have h2 : c.log.commitIndex = c.hardState.commitIndex := hs.commit
    rw [hcore] at hcmt
    omega
  obtain ⟨hover, hrest⟩ := takeOver_installed hI h hd hs (hI.lead_sound _ _ _ hL) htake hlen
    hlastT hbase hret
  have ht : (s.node n).term ≤ request.term := by rw [hterm, he.term]
  obtain ⟨s', hacts, -, hnode⟩ := Acts.follow (n := n) (m := sn.metadata.lastIncludedIndex)
    (k := sn.metadata.lastIncludedIndex) hI ht hL (hlen ▸ hpre.length_le)
    (by rw [htake]; exact hq)
  have hmaxC : max (s.node n).commit (min sn.metadata.lastIncludedIndex
      sn.metadata.lastIncludedIndex) = sn.metadata.lastIncludedIndex := by
    rw [← h.represents.commit]
    omega
  rw [hover, hmaxC, if_neg (by rw [hterm, he.term]; exact lt_irrefl _)] at hnode
  refine ⟨s', hacts, ⟨h.identity, h.voters, h.limit, ?_, ?_, ?_, ?_⟩, ?_, sn, rfl⟩
  · exact validateRecoveredState_ok hmax hval
  · rw [hnode]
    refine ⟨?_, h.represents.vote, h.represents.vote_ne, rfl, ?_, ?_, ?_, ?_⟩
    · show store.state.hardState.term = request.term
      rw [hterm, hcore]
    · rw [length_append, hlen]
      exact Nat.le_add_right _ _
    · rw [← hlastT, lastTerm, hlen]
      exact termAt_shorten (prefix_append _ _) hlen.ge
    · show retained = _
      rw [← hlen, drop_left]
    refine contiguous_append.mpr ⟨hidxd, ?_⟩
    rcases hrest with ⟨rfl, -⟩ | rfl
    · rw [hlen]
      exact h.represents.indexed.drop _
    · exact .nil _
  · rintro sn' hsn'
    obtain rfl := Option.some.inj hsn'
    exact ⟨hseal, rfl⟩
  · rintro sn' hsn'
    obtain rfl := Option.some.inj hsn'
    exact hstd.grow hI (hacts.grows hI) (by rw [hnode])
  rw [hnode, ← he.term]
  exact hterm

end Install

/-! ## Rebuilding the log -/

/-- The log of a core that is built from a durable state. -/
def RecoveredState.log (d : RecoveredState) (applied : Nat) : Log where
  snapshotIndex := d.snapshotBase.lastIncludedIndex
  snapshotTerm := d.snapshotBase.lastIncludedTerm
  commitIndex := d.hardState.commitIndex
  appliedIndex := applied
  lastIndex := d.snapshotBase.lastIncludedIndex + d.entries.length
  entries := d.entries

section Log

variable {d : RecoveredState} {identity : StorageIdentity} {voters : VoterSet} {limit : Nat}
  {applied : Nat}

section

variable (h : d.Valid identity voters limit)

include h

lemma RecoveredState.Valid.log_valid (hlo : d.snapshotBase.lastIncludedIndex ≤ applied)
    (hhi : applied ≤ d.hardState.commitIndex) : (d.log applied).Valid :=
  ⟨rfl, h.contiguous, h.valid, h.base, hlo, hhi, h.commit_le, h.bound, h.sorted⟩

lemma RecoveredState.Valid.lastTerm_le : (d.log applied).lastTerm ≤ d.hardState.term := by
  unfold Log.lastTerm
  cases hlast : (d.log applied).entries.getLast? with
  | none => exact h.base_term
  | some e => exact h.term_le e (mem_of_getLast? hlast)

lemma RecoveredState.Valid.newLog_ok {l : Log}
    (hl : newLog d.snapshotBase.lastIncludedIndex d.snapshotBase.lastIncludedTerm d.hardState.commitIndex
      applied d.entries = .ok l) : l = d.log applied := by
  have hb : d.snapshotBase.lastIncludedIndex ≤ maxUint64 := by
    have := h.bound
    omega
  exact ((Log.newLog_eq_ok hb).mp hl).2.2.2.2.2.2.2

end

/-- A core with the log, the term and the vote of a durable state is in line with it. -/
lemma Stored.sound (h : Stored cfg s n store) (hid : c.localID = n) (hv : c.voters = cfg.voters)
    (hn : n ∈ cfg.voters.voters) (hhard : c.hardState = store.state.hardState)
    (hlog : c.log = store.state.log store.state.hardState.commitIndex)
    (hp : c.pendingProposals 0 = none) : c.view.Sound ∧ Durable store.state c.view := by
  have hval := h.valid
  have hle : store.state.snapshotBase.lastIncludedIndex ≤ store.state.hardState.commitIndex :=
    hval.applied_ge.trans hval.applied_le
  refine ⟨⟨?_, ?_, ?_, ?_, ?_, hp⟩, ?_, ?_, ?_, ?_⟩
  · show c.localID ∈ c.voters.voters
    rw [hid, hv]
    exact hn
  · show c.log.Valid
    rw [hlog]
    exact hval.log_valid hle le_rfl
  · show c.log.commitIndex = c.hardState.commitIndex
    rw [hlog, hhard]
    rfl
  · show c.log.lastTerm ≤ c.hardState.term
    rw [hlog, hhard]
    exact hval.lastTerm_le
  · show c.hardState.votedFor = 0 ∨ (c.hardState.term ≠ 0 ∧ c.hardState.votedFor ∈ c.voters.voters)
    rw [hhard, hv]
    exact hval.vote
  · exact hhard.symm
  · show _ = c.log.snapshotIndex
    rw [hlog]
    rfl
  · show _ = c.log.snapshotTerm
    rw [hlog]
    rfl
  show _ = c.log.entries
  rw [hlog]
  rfl

end Log

/-! ## Rebuilding the application -/

section Application

/-- Entries of a voter's committed prefix may be applied. -/
lemma Stored.witnessed (hI : Inv cfg.voters.setting s) (h : Stored cfg s n store) {e : Entry}
    (he : e ∈ (s.node n).log.take (s.node n).commit) {id : Nat} : Witnessed cfg s (.applied id e) := by
  obtain ⟨hpos, hget⟩ := (h.represents.indexed.take _).getElem?_mem he
  exact ⟨_, _, h.represents.indexed.take _, hI.committed n, hpos, hget⟩

omit [Hash] in
/-- Replaying a suffix continues from the state before it. -/
lemma replayRecovered_spec {H : Prop} (sm : StateMachine σ) (localID commit : Nat)
    {p : List Entry} {app : σ} (hr : H → Reached sm app p) {entries : List Entry} (hc : Contiguous p.length entries)
    (hv : ∀ e ∈ entries, e.Valid) : (∀ event ∈ (Node.replayRecovered sm localID commit app entries).1,
      ∃ e ∈ entries.take (commit - p.length), event = .applied localID e) ∧
    ∀ app', (Node.replayRecovered sm localID commit app entries).2 = some app' → H →
      Reached sm app' (p ++ entries.take (commit - p.length)) := by
  induction entries generalizing p app with
  | nil =>
    refine ⟨by simp [Node.replayRecovered], fun app' happ hH => ?_⟩
    obtain rfl := Option.some.inj happ
    simpa using hr hH
  | cons e rest ih =>
    obtain ⟨hidx, hrest⟩ := contiguous_cons.mp hc
    unfold Node.replayRecovered
    split
    · next hgt =>
      rw [show commit - p.length = 0 by omega]
      refine ⟨by simp, fun app' happ hH => ?_⟩
      obtain rfl := Option.some.inj happ
      simpa using hr hH
    next hle =>
    have htake : (e :: rest).take (commit - p.length) = e :: rest.take (commit - (p ++ [e]).length) := by
      rw [show commit - p.length = (commit - (p ++ [e]).length) + 1 by
        rw [length_append, length_singleton]
        omega]
      rfl
    have hc' : Contiguous (p ++ [e]).length rest := by simpa using hrest
    have hv' : ∀ e ∈ rest, e.Valid := fun x hx => hv x (mem_cons_of_mem _ hx)
    rw [htake]
    have happend : p ++ e :: rest.take (commit - (p ++ [e]).length) =
        p ++ [e] ++ rest.take (commit - (p ++ [e]).length) := by simp
    rw [happend]
    split
    · next hnoop =>
      obtain ⟨h1, h2⟩ := ih (fun hH => .skip (hr hH) (by simp [hnoop])) hc' hv'
      refine ⟨fun event hev => ?_, h2⟩
      obtain ⟨x, hx, heq⟩ := h1 event hev
      exact ⟨x, mem_cons_of_mem _ hx, heq⟩
    next hnoop =>
    split
    · exact ⟨fun event hev => ⟨e, by simp, by simpa using hev⟩, by simp⟩
    next app' result hapl =>
    have hkind : e.kind = .command := ((hv e (by simp)).kind).resolve_right fun h => hnoop h.1
    obtain ⟨h1, h2⟩ := ih (fun hH => .apply (hr hH) hkind hapl) hc' hv'
    refine ⟨fun event hev => ?_, h2⟩
    rcases mem_cons.mp hev with rfl | hev
    · exact ⟨e, by simp, rfl⟩
    obtain ⟨x, hx, heq⟩ := h1 event hev
    exact ⟨x, mem_cons_of_mem _ hx, heq⟩

/-- Restoring the stored snapshot gives a state after the entries up to the base. -/
lemma Stored.restored (hI : Inv cfg.voters.setting s) (h : Stored cfg s n store) {sn : Snapshot}
    (hsn : store.state.snapshot = some sn) {app : σ}
    (happ : cfg.sm.restore sn.metadata.stateMachineSchemaVersion sn.state = some app)
    (hash : CollisionFree) : Reached cfg.sm app
      ((s.node n).log.take store.state.snapshotBase.lastIncludedIndex) := by
  obtain ⟨-, q, -, hq, hlen, -, hcapt⟩ := h.stands sn hsn
  obtain ⟨app₀, hrcd, hcapture⟩ := hcapt hash
  rw [(h.encoded sn hsn).2] at hlen
  have hcmt : store.state.snapshotBase.lastIncludedIndex ≤ (s.node n).commit := by
    rw [← h.represents.commit]
    exact h.valid.applied_ge.trans h.valid.applied_le
  have hcomm : Committed cfg.voters.setting s (s.node n).term
      ((s.node n).log.take store.state.snapshotBase.lastIncludedIndex) :=
    (hI.committed n).shorten (List.take_prefix_take_left hcmt)
  have heq : (s.node n).log.take store.state.snapshotBase.lastIncludedIndex = q := by
    refine hI.committed_unique hcomm hq ?_
    rw [length_take, hlen]
    exact Nat.min_eq_left h.represents.base_le
  rw [heq]
  rw [← (h.encoded sn hsn).2] at hlen
  rw [← hlen] at hcapture
  exact .restore hrcd hcapture happ

/-- Restoring the snapshot and replaying the entries after it rebuilds the application. -/
lemma Stored.rebuilt (hI : Inv cfg.voters.setting s) (h : Stored cfg s n store)
    (hfst : store.state.snapshot = none → store.state.snapshotBase.lastIncludedIndex = 0) (localID : Nat) :
    (∀ event ∈ (Node.restoreApplication cfg.sm localID store.state.snapshot).1, Witnessed cfg s event) ∧
    ∀ app, (Node.restoreApplication cfg.sm localID store.state.snapshot).2 = some app →
      (∀ event ∈ (Node.replayRecovered cfg.sm localID store.state.hardState.commitIndex app
        store.state.entries).1, Witnessed cfg s event) ∧
      ∀ app', (Node.replayRecovered cfg.sm localID store.state.hardState.commitIndex app
        store.state.entries).2 = some app' → CollisionFree →
        Reached cfg.sm app' ((s.node n).log.take (s.node n).commit) := by
  have hr := h.represents
  have hle : store.state.snapshotBase.lastIncludedIndex ≤ (s.node n).commit := by
    rw [← hr.commit]
    exact h.valid.applied_ge.trans h.valid.applied_le
  have hlen : ((s.node n).log.take store.state.snapshotBase.lastIncludedIndex).length =
      store.state.snapshotBase.lastIncludedIndex := by
    rw [length_take]
    exact Nat.min_eq_left hr.base_le
  have hsplit : (s.node n).log.take store.state.snapshotBase.lastIncludedIndex ++ store.state.entries.take
        ((s.node n).commit - store.state.snapshotBase.lastIncludedIndex) =
      (s.node n).log.take (s.node n).commit := by
    rw [hr.entries, ← take_add, Nat.add_sub_cancel' hle]
  have hrcd : ∀ app, (Node.restoreApplication cfg.sm localID store.state.snapshot).2 =
      some app → CollisionFree → Reached cfg.sm app
        ((s.node n).log.take store.state.snapshotBase.lastIncludedIndex) := by
    intro app happ hash
    cases hsn : store.state.snapshot with
    | none =>
      rw [hsn] at happ
      rw [hfst hsn]
      exact .fresh happ
    | some =>
      rw [hsn] at happ
      exact h.restored hI hsn happ hash
  refine ⟨fun event hev => ?_, fun app happ => ?_⟩
  · cases hsn : store.state.snapshot with
    | none => simp [hsn, Node.restoreApplication] at hev
    | some sn =>
      obtain rfl : event = .restored localID sn.metadata sn.state := by
        simpa [hsn, Node.restoreApplication] using hev
      exact ⟨_, h.stands sn hsn⟩
  obtain ⟨h1, h2⟩ := replayRecovered_spec cfg.sm localID store.state.hardState.commitIndex
    (hrcd app happ) (by rw [hlen]; exact h.valid.contiguous) h.valid.valid
  rw [hlen, hr.commit] at h1 h2
  rw [hr.commit]
  refine ⟨fun event hev => ?_, fun app' happ' hash => ?_⟩
  · obtain ⟨e, he, rfl⟩ := h1 event hev
    exact h.witnessed hI (hsplit ▸ mem_append_right _ he)
  rw [← hsplit]
  exact h2 app' happ' hash

end Application

end Crane.Raft
