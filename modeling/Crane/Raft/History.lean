import Crane.Consensus.Acting
import Crane.Raft.Cluster
import Crane.Raft.LogFacts

/-!
# The history behind a cluster

A cluster keeps compacted logs, chunks of snapshots and messages that may be years old. What they
are evidence for is stated over the protocol's own history, in which every log is whole:

* `Represents` — what a voter has stored is the end of its whole log, together with the term at
  the position before it;
* `Reached` — an application state is the result of a list of entries, whatever snapshots it was
  restored from on the way; `Stands` — the bytes of a snapshot were captured from such a state;
* `Justified` — a message says something that is true of the history, and stays true when the
  history grows;
* `Witnessed` — an observable event is about a committed entry or a snapshot of committed entries.
-/

namespace Crane.Raft

open Consensus

abbrev History := State Nat Entry

/-- Any majority of the voters decides. -/
def VoterSet.setting (voters : VoterSet) : Setting Nat Entry where
  termOf := Entry.term
  Quorum Q := (∀ q ∈ Q, q ∈ voters.voters) ∧ voters.majority ≤ Q.card
  meet := by
    rintro Q R ⟨hQ, hcQ⟩ ⟨hR, hcR⟩
    have hlen : voters.voters.toFinset.card = voters.voters.length := List.toFinset_card_of_nodup voters.nodup
    have hsubQ : Q ⊆ voters.voters.toFinset := fun q hq => List.mem_toFinset.mpr (hQ q hq)
    have hsubR : R ⊆ voters.voters.toFinset := fun q hq => List.mem_toFinset.mpr (hR q hq)
    obtain ⟨n, hn⟩ := Finset.inter_nonempty_of_card_lt_card_add_card hsubQ hsubR (by
      unfold VoterSet.majority at hcQ hcR
      omega)
    exact ⟨n, Finset.mem_inter.mp hn⟩

/-! ## Stored logs -/

/-- What is stored — a hard state, a base and the entries after it — is the voter `r`. -/
structure Represents (P : Setting Nat Entry) (r : Replica Nat Entry) (hard : HardState)
    (base baseTerm : Nat) (entries : List Entry) : Prop where
  term : hard.term = r.term
  vote : hard.votedFor = r.vote.getD 0
  vote_ne : r.vote ≠ some 0
  commit : hard.commitIndex = r.commit
  base_le : base ≤ r.log.length
  base_term : baseTerm = P.termAt r.log base
  entries : entries = r.log.drop base
  indexed : Contiguous 0 r.log

section Stored

variable {voters : VoterSet} {r : Replica Nat Entry} {hard : HardState} {l : Log}

section

variable (h : Represents voters.setting r hard l.snapshotIndex l.snapshotTerm l.entries)

include h

/-- The log of a voter shows the end of its whole log. -/
lemma Represents.last (hl : l.Valid) : l.lastIndex = r.log.length := by
  have := h.base_le
  rw [hl.last, h.entries, List.length_drop]
  omega

lemma Represents.entry_iff (hl : l.Valid) {i : Nat} {e : Entry} :
    l.entry i = .ok e ↔ l.snapshotIndex < i ∧ r.log[i - 1]? = some e := by
  rw [hl.entry_eq_ok, h.entries, List.getElem?_drop]
  constructor
  · rintro ⟨hlt, hget⟩
    rw [show l.snapshotIndex + (i - l.snapshotIndex - 1) = i - 1 by omega] at hget
    exact ⟨hlt, hget⟩
  rintro ⟨hlt, hget⟩
  rw [show l.snapshotIndex + (i - l.snapshotIndex - 1) = i - 1 by omega]
  exact ⟨hlt, hget⟩

lemma Represents.term_iff (hl : l.Valid) {i t : Nat} : l.term i = .ok t ↔
      l.snapshotIndex ≤ i ∧ i ≤ r.log.length ∧ t = voters.setting.termAt r.log i := by
  have hlast := h.last hl
  have hterm : ∀ {i t}, l.term i = .ok t → t = voters.setting.termAt r.log i := by
    intro i t ht
    rcases hl.term_eq_ok.mp ht with ⟨rfl, rfl⟩ | ⟨hlt, e, he, rfl⟩
    · exact h.base_term
    have hget := ((h.entry_iff hl).mp (hl.entry_eq_ok.mpr ⟨hlt, he⟩)).2
    obtain ⟨j, rfl⟩ : ∃ j, i = j + 1 := ⟨i - 1, by omega⟩
    exact (Setting.termAt_succ (P := voters.setting) hget).symm
  constructor
  · intro ht
    obtain ⟨hlo, hhi⟩ := hl.term_range ht
    exact ⟨hlo, hlast ▸ hhi, hterm ht⟩
  rintro ⟨hlo, hhi, rfl⟩
  obtain ⟨t, ht⟩ := hl.exists_term hlo (hlast ▸ hhi)
  rw [ht, hterm ht]

lemma Represents.lastTerm (hl : l.Valid) : l.lastTerm = voters.setting.lastTerm r.log := by
  have ht := ((h.term_iff hl).mp hl.term_last).2.2
  rw [h.last hl] at ht
  exact ht

end

end Stored

/-! ## Application states -/

section Application

variable {σ : Type}

/-- The states an application can be in after the entries `p`: it applied them in order, skipping
    the no-ops, and may have been captured and restored in between. -/
inductive Reached (sm : StateMachine σ) : σ → List Entry → Prop where
  | fresh {app : σ} (restored : sm.restore 0 [] = some app) : Reached sm app []
  | skip {app : σ} {p : List Entry} {e : Entry} (before : Reached sm app p)
      (kind : e.kind ≠ .command) : Reached sm app (p ++ [e])
  | apply {app app' : σ} {p : List Entry} {e : Entry} {result : Bytes} (before : Reached sm app p)
      (kind : e.kind = .command)
      (applied : sm.apply app e.index e.term e.command = some (app', result)) :
      Reached sm app' (p ++ [e])
  | restore {app app' : σ} {p : List Entry} {term schema : Nat} {bytes : Bytes}
      (before : Reached sm app p) (captured : sm.capture app p.length term = some (schema, bytes))
      (restored : sm.restore schema bytes = some app') : Reached sm app' p

variable [Hash]

/-- Snapshots are told apart by their digests. What a voter installs is what was captured only if
    that is so; where its log is cut off does not depend on it. -/
def CollisionFree : Prop := Function.Injective Hash.sum256

/-- The metadata name a committed prefix, and the bytes were captured from an application that had
    applied exactly that prefix. -/
def Stands (cfg : Config σ) (s : History) (t : Nat) (metadata : SnapshotMetadata) (bytes : Bytes) :
    Prop :=
  metadata.lastIncludedIndex ≤ maxUint64 ∧
  ∃ p, Contiguous 0 p ∧ Committed cfg.voters.setting s t p ∧ p.length = metadata.lastIncludedIndex ∧
    cfg.voters.setting.lastTerm p = metadata.lastIncludedTerm ∧
    (CollisionFree → ∃ app, Reached cfg.sm app p ∧
      cfg.sm.capture app metadata.lastIncludedIndex metadata.lastIncludedTerm =
        some (metadata.stateMachineSchemaVersion, bytes))

lemma Stands.grow {cfg : Config σ} {s s' : History} (hI : Inv cfg.voters.setting s)
    (hg : Grows s s') {t t' : Nat} (ht : t ≤ t') {metadata : SnapshotMetadata} {bytes : Bytes}
    (h : Stands cfg s t metadata bytes) : Stands cfg s' t' metadata bytes := by
  obtain ⟨hmax, p, hidxd, hp, hrest⟩ := h
  exact ⟨hmax, p, hidxd, hp.grow hI hg ht, hrest⟩

/-! ## Messages and events -/

/-- What a message says is true. -/
def Justified (cfg : Config σ) (s : History) : RPC → Prop
  | .requestVoteRequest r => r.candidateID ≠ 0 ∧ ∃ B, s.ballot r.candidateID r.term = some B ∧
      r.lastLogIndex = B.length ∧ r.lastLogTerm = cfg.voters.setting.lastTerm B
  | .requestVoteResponse r => r.granted = true → r.candidateID ≠ 0 →
      ∃ V, s.voted r.responderID r.requestTerm = some (r.candidateID, V)
  | .appendEntriesRequest r => ∃ L, s.lead r.term = some (r.leaderID, L) ∧
      r.prevLogIndex + r.entries.length ≤ L.length ∧
      cfg.voters.setting.termAt L r.prevLogIndex = r.prevLogTerm ∧
      r.entries = (L.drop r.prevLogIndex).take r.entries.length ∧
      r.leaderCommit ≤ L.length ∧ Committed cfg.voters.setting s r.term (L.take r.leaderCommit)
  | .appendEntriesResponse r => r.success = true → r.matchIndex ≤ s.acked r.responderID r.requestTerm
  | .installSnapshotRequest r => (∃ L, s.lead r.term = some (r.leaderID, L)) ∧
      ∃ bytes, Stands cfg s r.term (snapshotTransferMetadataFor r).metadata bytes ∧
        r.checksum = Hash.sum256 bytes ∧ r.totalLength ≤ (cfg.options r.leaderID).maxSnapshotBytes
  | _ => True

lemma Justified.grow {cfg : Config σ} {s s' : History} (hI : Inv cfg.voters.setting s)
    (hg : Grows s s') {rpc : RPC} (h : Justified cfg s rpc) : Justified cfg s' rpc := by
  cases rpc with
  | requestVoteRequest =>
    obtain ⟨hne, B, hB, hrest⟩ := h
    exact ⟨hne, B, hg.ballot _ _ _ hB, hrest⟩
  | requestVoteResponse =>
    intro hgrant hne
    obtain ⟨V, hV⟩ := h hgrant hne
    exact ⟨V, hg.voted _ _ _ hV⟩
  | appendEntriesRequest =>
    obtain ⟨L, hL, hlen, hterm, hents, hcmt, hcomm⟩ := h
    obtain ⟨L', hL', hpre⟩ := hg.lead _ _ _ hL
    have hle := hpre.length_le
    refine ⟨L', hL', hlen.trans hle, ?_, ?_, hcmt.trans hle, ?_⟩
    · rw [← hterm]
      exact (Setting.termAt_shorten hpre (by omega)).symm
    · obtain ⟨K, rfl⟩ := hpre
      rw [List.drop_append_of_le_length (by omega), List.take_append_of_le_length]
      · exact hents
      rw [List.length_drop]
      omega
    obtain ⟨K, rfl⟩ := hpre
    rw [List.take_append_of_le_length hcmt]
    exact hcomm.grow hI hg le_rfl
  | appendEntriesResponse => exact fun hs => (h hs).trans (hg.acked _ _)
  | installSnapshotRequest =>
    obtain ⟨⟨L, hL⟩, bytes, hstd, hrest⟩ := h
    obtain ⟨L', hL', -⟩ := hg.lead _ _ _ hL
    exact ⟨⟨L', hL'⟩, bytes, hstd.grow hI hg le_rfl, hrest⟩
  | handshake | handshakeAck | preVoteRequest | preVoteResponse | installSnapshotResponse | errorResponse =>
    trivial

/-- What an observable event is about. -/
def Witnessed (cfg : Config σ) (s : History) : Event → Prop
  | .applied _ e => ∃ t p, Contiguous 0 p ∧ Committed cfg.voters.setting s t p ∧ 0 < e.index ∧
      p[e.index - 1]? = some e
  | .restored _ metadata bytes => ∃ t, Stands cfg s t metadata bytes
  | _ => True

lemma Witnessed.grow {cfg : Config σ} {s s' : History} (hI : Inv cfg.voters.setting s)
    (hg : Grows s s') {event : Event} (h : Witnessed cfg s event) : Witnessed cfg s' event := by
  cases event with
  | applied =>
    obtain ⟨t, p, hidxd, hp, hrest⟩ := h
    exact ⟨t, p, hidxd, hp.grow hI hg le_rfl, hrest⟩
  | restored =>
    obtain ⟨t, ht⟩ := h
    exact ⟨t, ht.grow hI hg le_rfl⟩
  | completed | failed => trivial

end Application

end Crane.Raft
