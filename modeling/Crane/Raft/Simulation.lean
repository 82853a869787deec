import Crane.Raft.Events
import Crane.Raft.History

/-!
# Every event is a protocol action

`Handled` says what an event did to one core. Here the same event is a run of the protocol in
which only that voter acts: if the core embodied the voter's record before the event, it embodies
the voter's new record after it, and every message of the batch is justified by the new history.
The action is taken when the batch is written, not when the event is handled — by then other
voters may have moved on, which is why the premises are only about the voter's own record and
about facts of the history that stay true.
-/

namespace Crane.Raft

open Consensus List State Setting

/-- The durable part of the core is the voter `r`. -/
def Core.Embodies (P : Setting Nat Entry) (c : Core) (r : Replica Nat Entry) : Prop :=
  Represents P r c.hardState c.log.snapshotIndex c.log.snapshotTerm c.log.entries

variable {σ : Type}

/-- What the history knows about the role a core is in. -/
structure Linked (cfg : Config σ) (s : History) (n : Nat) (c : Core) : Prop where
  leader : c.role = .leader → s.role n = .leader ∧ (s.node n).log.length ≤ s.acked n (s.node n).term
  candidate : c.role = .candidate → s.role n = .candidate ∧
    ∀ v ∈ c.votes, ∃ V, s.voted v c.hardState.term = some (n, V)
  matched : c.role = .leader → ∀ id, (c.progressOf id).matchIndex ≤ s.acked id c.hardState.term ∨
      (c.progressOf id).matchIndex ≤ c.log.commitIndex

/-- The action `s → s'` of voter `n` is what took its core from `c` to `c'`. -/
structure Simulates (cfg : Config σ) (rpc : Option RPC) (n : Nat) (c c' : Core) (s s' : History) : Prop where
  acts : Acts cfg.voters.setting n s s'
  embodies : c'.Embodies cfg.voters.setting (s'.node n)
  leader : c'.role = .leader → s'.role n = .leader ∧
    (s'.node n).log.length ≤ s'.acked n (s'.node n).term ∧ c'.hardState.term = c.hardState.term
  candidate : c'.role = .candidate → s'.role n = .candidate ∧
    ((c.role = .candidate ∧ c'.hardState.term = c.hardState.term) ∨
      ∀ v ∈ c'.votes, ∃ V, s'.voted v c'.hardState.term = some (n, V))
  acks : ∀ request, rpc = some (.appendEntriesRequest request) → Follows request c c' →
    Core.lastVerified request ≤ s'.acked n request.term
  ballot : c.hardState.term < c'.hardState.term → c'.hardState.votedFor = n →
    s'.ballot n c'.hardState.term = some (s'.node n).log

section Moves

variable {cfg : Config σ} {s : History} {n : Nat} {c c' : Core} {rpc : Option RPC}
  {r r' : Replica Nat Entry} {P : Setting Nat Entry}

/-- The log stays, term and vote change. -/
lemma Core.Embodies.reterm (h : c.Embodies P r) (hs : c.view.Sound) (hs' : c'.view.Sound)
    (hlog : c'.log = c.log) (hl : r'.log = r.log) (hk : r'.commit = r.commit)
    (hterm : c'.hardState.term = r'.term) (hvote : c'.hardState.votedFor = r'.vote.getD 0)
    (hne : r'.vote ≠ some 0) : c'.Embodies P r' := by
  have hcmt : c'.hardState.commitIndex = c.hardState.commitIndex := by
    have h1 : c.log.commitIndex = c.hardState.commitIndex := hs.commit
    have h2 : c'.log.commitIndex = c'.hardState.commitIndex := hs'.commit
    rw [← h1, ← h2, hlog]
  refine ⟨hterm, hvote, hne, ?_, ?_, ?_, ?_, ?_⟩
  · rw [hcmt, hk]
    exact h.commit
  · rw [hlog, hl]
    exact h.base_le
  · rw [hlog, hl]
    exact h.base_term
  · rw [hlog, hl]
    exact h.entries
  rw [hl]
  exact h.indexed

/-- The log grows by the leader's own entry. -/
lemma Core.Embodies.snoc {voters : VoterSet} {entry : Entry}
    (h : c.Embodies voters.setting r) (hs : c.view.Sound) (hs' : c'.view.Sound)
    (hard : c'.hardState = c.hardState) (hlog : c'.log = c.log.snoc entry) :
    c'.Embodies voters.setting { r with log := r.log ++ [entry] } := by
  have hlast : c.log.lastIndex = r.log.length := h.last hs.log
  have hbase : c.log.snapshotIndex ≤ r.log.length := h.base_le
  have hidx : entry.index = r.log.length + 1 := by
    have hc : Contiguous c.log.snapshotIndex (c.log.entries ++ [entry]) := by
      have hv : c'.log.Valid := hs'.log
      rw [hlog] at hv
      exact hv.indexed
    have hlen := hs.log.last
    have := (contiguous_cons.mp (contiguous_append.mp hc).2).1
    simp only [Core.view] at hlen
    omega
  refine ⟨by rw [hard]; exact h.term, by rw [hard]; exact h.vote, h.vote_ne,
    by rw [hard]; exact h.commit, ?_, ?_, ?_, ?_⟩
  · rw [hlog, length_append]
    exact hbase.trans (Nat.le_add_right _ _)
  · rw [hlog]
    exact h.base_term.trans (termAt_shorten (prefix_append _ _) hbase)
  · rw [hlog]
    show c.log.entries ++ [entry] = (r.log ++ [entry]).drop c.log.snapshotIndex
    rw [drop_append_of_le_length hbase, ← h.entries]
  refine contiguous_append.mpr ⟨h.indexed, contiguous_cons.mpr ⟨?_, .nil _⟩⟩
  rw [hidx, Nat.zero_add]

section Plain

variable (hI : Inv cfg.voters.setting s) (hc : c.view.Sound) (hc' : c'.view.Sound)
  (he : c.Embodies cfg.voters.setting (s.node n)) (hl : Linked cfg s n c)
  (hno : ∀ request, rpc = some (.appendEntriesRequest request) → ¬ Follows request c c')

include he hl hno in
lemma simulate_stay (hard : c'.hardState = c.hardState) (log : c'.log = c.log)
    (role : c'.role = c.role ∨ c'.role = .follower ∨ c'.role = .preCandidate) :
    Simulates cfg rpc n c c' s s := by
  have hrole : ∀ {x}, c'.role = x → x ≠ .follower → x ≠ .preCandidate → c.role = x := by
    intro x hx h1 h2
    rcases role with h | h | h
    · rw [← h, hx]
    · exact absurd (hx.symm.trans h) h1
    · exact absurd (hx.symm.trans h) h2
  refine ⟨.refl s, ?_, fun hr => ?_, fun hr => ?_, fun q hq hf => absurd hf (hno q hq), ?_⟩
  · unfold Core.Embodies
    rw [hard, log]
    exact he
  · have := hl.leader (hrole hr (by simp) (by simp))
    exact ⟨this.1, this.2, by rw [hard]⟩
  · have hr := hrole hr (by simp) (by simp)
    exact ⟨(hl.candidate hr).1, .inl ⟨hr, by rw [hard]⟩⟩
  rw [hard]
  exact fun hlt => absurd hlt (lt_irrefl _)

include hc hc' he hno in
lemma simulate_raise (hvtr : n ≠ 0) (later : c.hardState.term < c'.hardState.term)
    (vote : c'.hardState.votedFor = 0) (log : c'.log = c.log) (role : c'.role = .follower) :
    Simulates cfg rpc n c c' s (s.raise n c'.hardState.term) := by
  have hnode : (s.raise n c'.hardState.term).node n =
      { s.node n with term := c'.hardState.term, vote := none } := by
    simp [raise, setNode, setRole]
  refine ⟨.raise (by rw [← he.term]; exact later), ?_, by simp [role], by simp [role],
    fun q hq hf => absurd hf (hno q hq), fun _ hv => ?_⟩
  · rw [hnode]
    exact he.reterm hc hc' log rfl rfl rfl vote (by simp)
  rw [vote] at hv
  exact absurd hv.symm hvtr

include hc he in
/-- The test a voter makes is the one of the protocol. -/
lemma upToDate_of_candidateLogIsUpToDate {B : List Entry} {index term : Nat}
    (hidx : index = B.length) (hterm : term = cfg.voters.setting.lastTerm B)
    (h : c.candidateLogIsUpToDate index term = true) : cfg.voters.setting.UpToDate B (s.node n).log := by
  have hlast : c.log.lastIndex = (s.node n).log.length := he.last hc.log
  have hlastT : c.log.lastTerm = cfg.voters.setting.lastTerm (s.node n).log := he.lastTerm hc.log
  unfold Core.candidateLogIsUpToDate at h
  rw [hlast, hlastT, hidx, hterm] at h
  split at h
  · exact .inl (of_decide_eq_true h)
  · next heq => exact .inr ⟨not_not.mp heq, of_decide_eq_true h⟩

include hI hc hc' he hl hno in
lemma simulate_vote [Hash] (request : RequestVoteRequest)
    (justified : Justified cfg s (.requestVoteRequest request))
    (term : c'.hardState.term = request.term) (later : c.hardState.term ≤ request.term)
    (free : c.hardState.term = request.term → c.hardState.votedFor = 0)
    (vote : c'.hardState.votedFor = request.candidateID)
    (fresh : c.candidateLogIsUpToDate request.lastLogIndex request.lastLogTerm = true) (log : c'.log = c.log)
    (role : c'.role = if c.hardState.term < request.term then .follower else c.role) :
    ∃ s', Simulates cfg rpc n c c' s s' := by
  obtain ⟨hvtr, B, hB, hidx, hterm⟩ := justified
  have hfrs := upToDate_of_candidateLogIsUpToDate hc he hidx hterm fresh
  rw [he.term] at later free role
  obtain ⟨s1, hacts, hnode, hrole1, hballot, hlead, hacked⟩ := Acts.upTo (P := cfg.voters.setting) later
  have hfree : (s1.node n).vote = none := by
    rw [hnode]
    show (if _ then _ else _) = none
    split
    · rfl
    have h0 := free (by omega)
    rw [he.vote] at h0
    cases hv : (s.node n).vote with
    | none => rfl
    | some =>
      rw [hv] at h0
      exact absurd (congrArg some h0) (hv ▸ he.vote_ne)
  have hvote := Acts.vote (P := cfg.voters.setting) (n := n) (c := request.candidateID) (L := B)
    hfree (by rw [hnode, hballot]; exact hB) (by rw [hnode]; exact hfrs)
  have hnode' : (s1.vote n request.candidateID).node n =
      { s.node n with term := request.term, vote := some request.candidateID } := by
    rw [vote_node, if_pos rfl, hnode]
  -- A role other than follower is only kept when the term is.
  have hkept : ∀ {x}, c'.role = x → x ≠ .follower → c.role = x ∧
      (s.node n).term = request.term ∧ (s1.vote n request.candidateID).role n = s.role n := by
    intro x hx hne
    rw [role] at hx
    split at hx
    · exact absurd hx.symm hne
    next hlt =>
    refine ⟨hx, by omega, ?_⟩
    rw [show (s1.vote n request.candidateID).role n = s1.role n from rfl, hrole1, if_neg hlt]
  refine ⟨s1.vote n request.candidateID, hacts.trans hvote, ?_, fun hr => ?_, fun hr => ?_,
    fun q hq hf => absurd hf (hno q hq), fun hlt hv => ?_⟩
  · rw [hnode']
    exact he.reterm hc hc' log rfl rfl term vote (by simpa using hvtr)
  · obtain ⟨hr, ht, hsame⟩ := hkept hr (by simp)
    have := hl.leader hr
    refine ⟨hsame.trans this.1, ?_, by rw [term, ← ht, he.term]⟩
    rw [hnode', show (s1.vote n request.candidateID).acked = s1.acked from rfl, hacked, ← ht]
    exact this.2
  · obtain ⟨hr, ht, hsame⟩ := hkept hr (by simp)
    exact ⟨hsame.trans (hl.candidate hr).1, .inl ⟨hr, by rw [term, ← ht, he.term]⟩⟩
  -- A voter has not stood in a term it has not reached.
  rw [vote] at hv
  rw [term, he.term] at hlt
  rw [hv, hI.ballot_none hlt] at hB
  cases hB

include hc hc' he hno in
lemma simulate_stand (hvtr : n ≠ 0) (term : c'.hardState.term = c.hardState.term + 1)
    (vote : c'.hardState.votedFor = n) (log : c'.log = c.log) (role : c'.role = .candidate)
    (votes : c'.votes = {n}) : Simulates cfg rpc n c c' s (s.stand n) := by
  have ht : c'.hardState.term = (s.node n).term + 1 := by rw [term, he.term]
  have hnode : (s.stand n).node n =
      { s.node n with term := (s.node n).term + 1, vote := some n } := by
    rw [stand_node, if_pos rfl]
  refine ⟨.stand, ?_, by simp [role], fun _ => ⟨?_, .inr fun v hv => ?_⟩,
    fun q hq hf => absurd hf (hno q hq), fun _ _ => ?_⟩
  · rw [hnode]
    exact he.reterm hc hc' log rfl rfl ht vote (by simpa using hvtr)
  · rw [stand_role, if_pos rfl]
  · rw [votes, Finset.mem_singleton] at hv
    exact ⟨(s.node n).log, by rw [hv, ht]; exact write_same _ _ _ _⟩
  rw [ht, hnode]
  exact write_same _ _ _ _

include hc hc' he hno in
/-- A leader's own entry, in a state in which it already leads. -/
lemma simulate_append {s0 : History} (entry : Entry) (acts : Acts cfg.voters.setting n s0 s)
    (leads : s.role n = .leader) (hard : c'.hardState = c.hardState) (role : c'.role = .leader)
    (own : entry.term = c.hardState.term) (log : c'.log = c.log.snoc entry) :
    Simulates cfg rpc n c c' s0 (s.append n entry) := by
  have hnode : (s.append n entry).node n =
      { s.node n with log := (s.node n).log ++ [entry] } := by
    rw [append_node, if_pos rfl]
  refine ⟨acts.trans (.append leads (by rw [← he.term]; exact own)), ?_,
    fun _ => ⟨leads, ?_, by rw [hard]⟩, by simp [role], fun q hq hf => absurd hf (hno q hq), ?_⟩
  · rw [hnode]
    exact he.snoc hc hc' hard log
  · rw [hnode]
    exact (write_same _ _ _ _).ge
  rw [hard]
  exact fun hlt => absurd hlt (lt_irrefl _)

include hc hc' he hl hno in
lemma simulate_elect (entry : Entry) (hard : c'.hardState = c.hardState)
    (candidate : c.role = .candidate) (role : c'.role = .leader) (quorum : cfg.voters.setting.Quorum c'.votes)
    (votes : ∀ v ∈ c'.votes, v ∈ c.votes ∨ ∃ V, s.voted v c.hardState.term = some (n, V))
    (own : entry.term = c.hardState.term) (log : c'.log = c.log.snoc entry) :
    ∃ s', Simulates cfg rpc n c c' s s' := by
  obtain ⟨hrole, hvotes⟩ := hl.candidate candidate
  have hwon : Won cfg.voters.setting s n (s.node n).term := by
    refine ⟨c'.votes, quorum, fun q hq => ?_⟩
    rw [← he.term]
    exact (votes q hq).elim (hvotes q) id
  have hleads : (s.elect n).role n = .leader := by simp [elect, setRole]
  exact ⟨_, simulate_append (s := s.elect n) hc hc' he hno entry (.elect hrole hwon) hleads hard
    role own log⟩

include hI hc hc' he hl hno in
lemma simulate_commit (k : Nat) (leader : c.role = .leader) (term : c'.hardState.term = c.hardState.term)
    (vote : c'.hardState.votedFor = c.hardState.votedFor)
    (log : c'.log = { c.log with commitIndex := k }) (after : c.log.commitIndex < k)
    (within : k ≤ c.log.lastIndex) (own : c.log.term k = .ok c.hardState.term)
    (role : c'.role = .leader) {Q : Finset Nat} (quorum : cfg.voters.setting.Quorum Q)
    (acked : ∀ q ∈ Q, k ≤ s.acked q c.hardState.term) :
    Simulates cfg rpc n c c' s (s.commit n k) := by
  obtain ⟨hrole, hown⟩ := hl.leader leader
  have hlead := hI.leader n hrole
  have hlen : k ≤ (s.node n).log.length := by
    have hlast : c.log.lastIndex = (s.node n).log.length := he.last hc.log
    omega
  have hterm : cfg.voters.setting.termAt (s.node n).log k = (s.node n).term := by
    rw [← he.term]
    exact ((he.term_iff hc.log).mp own).2.2.symm
  have hdecided : Committed cfg.voters.setting s (s.node n).term ((s.node n).log.take k) := by
    refine .inr ⟨(s.node n).term, k, n, (s.node n).log, le_rfl, ?_, hlead, prefix_rfl⟩
    exact ⟨n, _, Q, hlead, hterm, quorum, fun q hq => he.term ▸ acked q hq⟩
  have hforward : (s.node n).commit ≤ k := by
    have h1 : c.log.commitIndex = c.hardState.commitIndex := hc.commit
    have h2 := he.commit
    omega
  have hnode : (s.commit n k).node n = { s.node n with commit := k } := by simp [commit, setNode]
  refine ⟨.commit hlen hforward hdecided, ?_, fun _ => ⟨hrole, ?_, term⟩, by simp [role],
    fun q hq hf => absurd hf (hno q hq), fun hlt => absurd hlt (by rw [term]; exact lt_irrefl _)⟩
  · have hcmt : c'.log.commitIndex = c'.hardState.commitIndex := hc'.commit
    rw [hnode]
    refine ⟨by rw [term]; exact he.term, by rw [vote]; exact he.vote, he.vote_ne, ?_, ?_, ?_, ?_, he.indexed⟩
    · rw [← hcmt, log]
    · rw [log]
      exact he.base_le
    · rw [log]
      exact he.base_term
    rw [log]
    exact he.entries
  rw [hnode]
  exact hown

end Plain

/-! ### Following a leader -/

/-- Where equal terms mean equal entries, splicing keeps the log or takes over the entries. -/
lemma splice_eq (mine theirs : List Entry)
    (h : ∀ i a b, mine[i]? = some a → theirs[i]? = some b → a.term = b.term →
      mine.take (i + 1) = theirs.take (i + 1)) :
    Log.splice mine theirs = if theirs <+: mine then mine else theirs := by
  induction mine generalizing theirs with
  | nil =>
    rw [Log.splice_nil_left]
    split
    · next hp => exact prefix_nil.mp hp
    · rfl
  | cons a mine ih =>
    cases theirs with
    | nil => simp
    | cons b theirs =>
      by_cases hab : a.term = b.term
      · obtain rfl : a = b := by simpa using h 0 a b rfl rfl hab
        have hrest := ih theirs fun i x y hx hy hxy => by
          simpa using h (i + 1) x y hx hy hxy
        simp only [Log.splice, if_true, hrest, prefix_cons_inj]
        split <;> rfl
      have hne : ¬ b :: theirs <+: a :: mine := fun hp =>
        hab (congrArg Entry.term (cons_prefix_cons.mp hp).1.symm)
      simp only [Log.splice, if_neg hab, if_neg hne]

/-- Splicing a stretch of the leader's log is taking the log over up to the end of the stretch. -/
lemma takeOver_eq_splice {P : Setting Nat Entry} (hterm : ∀ e, P.termOf e = e.term)
    {mine L entries : List Entry} (hmine : Sound P s mine) (hL : Sound P s L)
    {prev : Nat} (hprev : prev ≤ mine.length) (hlen : prev + entries.length ≤ L.length)
    (hterms : P.termAt L prev = P.termAt mine prev) (hents : entries = (L.drop prev).take entries.length) :
    takeOver mine L (prev + entries.length) = mine.take prev ++ Log.splice (mine.drop prev) entries := by
  have hpre : mine.take prev = L.take prev := hmine.take_eq hL hprev (by omega) hterms.symm
  have htake : L.take (prev + entries.length) = mine.take prev ++ entries := by rw [take_add, ← hpre, ← hents]
  have hsplice := splice_eq (mine.drop prev) entries fun i a b ha hb hab => by
    have hi : i < entries.length := (List.getElem?_eq_some_iff.mp hb).1
    rw [getElem?_drop] at ha
    have hbL : L[prev + i]? = some b := by
      rw [hents, getElem?_take_of_lt hi, getElem?_drop] at hb
      exact hb
    have hi' : prev + i < mine.length := (List.getElem?_eq_some_iff.mp ha).1
    have heq : mine.take (prev + (i + 1)) = L.take (prev + (i + 1)) := by
      refine hmine.take_eq hL (by omega) (by omega) ?_
      rw [← Nat.add_assoc, termAt_succ ha, termAt_succ hbL, hterm, hterm, hab]
    have hm : mine.take (prev + (i + 1)) = L.take prev ++ (mine.drop prev).take (i + 1) := by
      rw [take_add, hpre]
    have ht : L.take (prev + (i + 1)) = L.take prev ++ (L.drop prev).take (i + 1) := take_add
    have hdrop : (mine.drop prev).take (i + 1) = (L.drop prev).take (i + 1) :=
      append_cancel_left ((hm.symm.trans heq).trans ht)
    rw [hdrop, hents, take_take, Nat.min_eq_left (by omega)]
  have hiff : mine.take prev ++ entries <+: mine ↔ entries <+: mine.drop prev := by
    have : mine.take prev ++ entries <+: mine.take prev ++ mine.drop prev ↔
      entries <+: mine.drop prev := prefix_append_right_inj _
    rwa [take_append_drop] at this
  unfold takeOver
  rw [htake, hsplice]
  by_cases hp : entries <+: mine.drop prev
  · rw [if_pos (hiff.mpr hp), if_pos hp, take_append_drop]
  · rw [if_neg (fun h => hp (hiff.mp h)), if_neg hp]

/-- The core's log after an append, seen on the whole log. -/
lemma Core.Embodies.appended {voters : VoterSet} {l : Log} {prev prevTerm : Nat}
    {entries L : List Entry} (h : c.Embodies voters.setting r) (hs : c.view.Sound)
    (ha : Log.Appended c.log prev prevTerm entries l)
    (hL : L = r.log.take prev ++ Log.splice (r.log.drop prev) entries) :
    l.snapshotIndex = c.log.snapshotIndex ∧ l.snapshotTerm = c.log.snapshotTerm ∧
      c.log.snapshotIndex ≤ L.length ∧ c.log.snapshotTerm = voters.setting.termAt L
        c.log.snapshotIndex ∧ l.entries = L.drop c.log.snapshotIndex ∧ Contiguous 0 L := by
  obtain ⟨hlo, hhi⟩ := hs.log.term_range ha.prev_term
  have hlast : c.log.lastIndex = r.log.length := h.last hs.log
  change c.log.snapshotIndex ≤ prev at hlo
  change prev ≤ c.log.lastIndex at hhi
  have hlen : (r.log.take prev).length = prev := by
    rw [length_take]
    omega
  have hpre : r.log.take prev <+: L := hL ▸ prefix_append _ _
  refine ⟨by rw [ha.shape], by rw [ha.shape], ?_, ?_, ?_, ?_⟩
  · exact hlo.trans (hlen ▸ hpre.length_le)
  · rw [← termAt_shorten hpre (by omega), h.base_term]
    exact (termAt_shorten (List.take_prefix _ _) (by omega)).symm
  · rw [ha.entries_eq, hL, drop_append_of_le_length (by omega), drop_take, h.entries,
      drop_drop, Nat.add_sub_cancel' hlo]
  rw [hL, contiguous_append, hlen, Nat.zero_add]
  have hdrop := h.indexed.drop prev
  rw [Nat.zero_add] at hdrop
  exact ⟨h.indexed.take prev, Log.splice_contiguous hdrop ha.contiguous⟩

lemma simulate_follow [Hash] (hI : Inv cfg.voters.setting s) (hc : c.view.Sound)
    (hc' : c'.view.Sound) (he : c.Embodies cfg.voters.setting (s.node n)) (hvtr : n ≠ 0)
    (request : AppendEntriesRequest) (received : rpc = some (.appendEntriesRequest request))
    (justified : Justified cfg s (.appendEntriesRequest request)) (follows : Follows request c c') :
    ∃ s', Simulates cfg rpc n c c' s s' := by
  obtain ⟨L, hL, hlen, hprevT, hents, hcomm, hcommitted⟩ := justified
  obtain ⟨later, ⟨l, ha, hlog⟩, hterm, hvote, hrole⟩ := follows
  rw [he.term] at later
  -- The request's entries end where the leader's log is taken over.
  have hverif := Core.lastVerified_eq ha.contiguous
  have hprev := (he.term_iff hc.log).mp ha.prev_term
  obtain ⟨s', hacts, hacked, hnode⟩ := Acts.follow hI later hL hlen hcommitted
  rw [takeOver_eq_splice (fun _ => rfl) (hI.log_sound n) (hI.lead_sound _ _ _ hL)
    hprev.2.1 hlen (hprevT.trans hprev.2.2) hents] at hnode
  obtain ⟨hbase, hbaseT, hble, hbterm, hle, hidxd⟩ := he.appended hc ha rfl
  refine ⟨s', hacts, ?_, by simp [hrole], by simp [hrole], fun q hq _ => ?_, fun hlt hv => ?_⟩
  · have hcmt : c'.log.commitIndex = c'.hardState.commitIndex := hc'.commit
    have hcommit0 : c.log.commitIndex = c.hardState.commitIndex := hc.commit
    unfold Core.Embodies
    rw [hnode, hlog, hbase, hbaseT]
    refine ⟨hterm, ?_, ?_, ?_, hble, hbterm, hle, hidxd⟩
    · rw [hvote, he.term, he.vote]
      show _ = (if _ then none else (s.node n).vote).getD 0
      split <;> rfl
    · show (if _ then none else (s.node n).vote) ≠ some 0
      split
      · simp
      · exact he.vote_ne
    · rw [← hcmt, hlog, hcommit0, he.commit, hverif]
  · obtain rfl : q = request := by simpa [received] using hq.symm
    rw [hverif]
    exact hacked
  rw [hvote, if_pos (by rw [← hterm]; exact hlt)] at hv
  exact absurd hv.symm hvtr

end Moves

/-! ## Events -/

section Events

variable [Hash]

/-- The snapshot a voter has stored is one of committed entries. -/
def Backed (cfg : Config σ) (s : History) (n : Nat) (snapshot : Option Snapshot) : Prop :=
  ∀ sn, snapshot = some sn → sn.Decoded (cfg.options n).maxSnapshotBytes ∧
    Stands cfg s (s.node n).term sn.metadata sn.state

variable {cfg : Config σ} {s : History} {n : Nat} {c c' : Core} {rpc : Option RPC}
  {snapshot : Option Snapshot} {before : Nat → Option Entry}

omit [Hash] in
/-- The voters that have acknowledged position `k` to a leader are a quorum. -/
lemma quorum_of_replicas (hvtrs : c'.voters = cfg.voters)
    {k t : Nat} (hmtd : ∀ id, k ≤ (c'.progressOf id).matchIndex → k ≤ s.acked id t)
    (hk : cfg.voters.majority ≤ c'.replicas k) :
    ∃ Q, cfg.voters.setting.Quorum Q ∧ ∀ q ∈ Q, k ≤ s.acked q t := by
  refine ⟨(cfg.voters.voters.filter fun id => (c'.progressOf id).matchIndex ≥ k).toFinset,
    ⟨fun q hq => ?_, ?_⟩, fun q hq => ?_⟩
  · exact mem_of_mem_filter (mem_toFinset.mp hq)
  · rw [toFinset_card_of_nodup (cfg.voters.nodup.filter _), ← countP_eq_length_filter]
    unfold Core.replicas at hk
    rw [hvtrs] at hk
    exact hk
  have := of_mem_filter (mem_toFinset.mp hq)
  exact hmtd q (of_decide_eq_true this)

/-- A leader's append request carries a stretch of the log it leads with. -/
lemma SaysAppend.justified {r : AppendEntriesRequest} {requires : DurabilityPrerequisite}
    {v : View} (h : SaysAppend v c.view r requires) (hI : Inv cfg.voters.setting s)
    (hid : c.localID = n) (hc : c.view.Sound) (he : c.Embodies cfg.voters.setting (s.node n))
    (hrole : s.role n = .leader) : Justified cfg s (.appendEntriesRequest r) := by
  have hlast : c.log.lastIndex = (s.node n).log.length := he.last hc.log
  have hlen : c.log.lastIndex = c.log.snapshotIndex + c.log.entries.length := hc.log.last
  obtain ⟨hlo, hhi, hprev⟩ := (he.term_iff hc.log).mp h.prev
  have hents : r.entries = ((s.node n).log.drop r.prevLogIndex).take r.entries.length := by
    have := h.entries
    change r.entries = (c.log.entries.drop (r.prevLogIndex - c.log.snapshotIndex)).take _ at this
    rwa [he.entries, drop_drop, Nat.add_sub_cancel' hlo] at this
  have hcmt : r.leaderCommit = (s.node n).commit := by
    rw [h.commit, ← he.commit]
    exact hc.commit
  have hterm : r.term = (s.node n).term := h.term.trans he.term
  refine ⟨(s.node n).log, ?_, ?_, hprev.symm, hents, hcmt ▸ hI.commit_le n, ?_⟩
  · rw [hterm, h.leader]
    show s.lead (s.node n).term = some (c.localID, _)
    rw [hid]
    exact hI.leader n hrole
  · have := congrArg length hents
    rw [length_take, length_drop] at this
    omega
  rw [hterm, hcmt]
  exact hI.committed n

/-- A leader's snapshot request carries a piece of the snapshot it has stored. -/
lemma CutFrom.justified {sn : Snapshot} {r : InstallSnapshotRequest} (h : CutFrom sn r)
    (hI : Inv cfg.voters.setting s) (hrole : s.role n = .leader)
    (hsn : sn.Decoded (cfg.options n).maxSnapshotBytes) (hldr : r.leaderID = n)
    (hterm : r.term = (s.node n).term) (hstd : Stands cfg s (s.node n).term sn.metadata sn.state) :
    Justified cfg s (.installSnapshotRequest r) := by
  refine ⟨⟨(s.node n).log, ?_⟩, sn.state, ?_, ?_, ?_⟩
  · rw [hterm, hldr]
    exact hI.leader n hrole
  · rw [h.metadata, hterm]
    exact hstd
  · rw [h.checksum]
    exact hsn.checksum
  rw [h.total, hldr]
  exact hsn.length

section Simulate

variable (hI : Inv cfg.voters.setting s) (hid : c.localID = n) (hvtrs : c.voters = cfg.voters)
  (hc : c.Settled snapshot) (he : c.Embodies cfg.voters.setting (s.node n))
  (hl : Linked cfg s n c) (h : Handled snapshot before rpc c c')
  (hj : ∀ r, rpc = some r → Justified cfg s r)

include hid hc in
omit [Hash] in
lemma Core.Settled.voter_ne : n ≠ 0 := hid ▸ c.voters.nonzero _ hc.idle.sound.voter

include hid hc hj in
/-- A vote that is counted was given. -/
lemma CountsVote.voted {v : Nat} (hv : CountsVote rpc c v) : ∃ V, s.voted v c.hardState.term = some (n, V) := by
  obtain ⟨r, hr, hrespr, hcand, hterm, -, hgrant⟩ := hv
  have hj := hj _ hr hgrant (by rw [hcand, hid]; exact hc.voter_ne hid)
  rwa [hrespr, hcand, hterm, hid] at hj

include hc hl h hj in
/-- What a leader knows of a voter before an event, or learns in it, was acknowledged or is
    committed. -/
lemma Handled.acked (hrole : c.role = .leader) (id : Nat) (hne : id ≠ c.localID) :
    (c'.progressOf id).matchIndex ≤ s.acked id c.hardState.term ∨
      (c'.progressOf id).matchIndex ≤ c.log.commitIndex := by
  rcases h.matched id with hm | hm | ⟨r, hr, hrespr, -, hterm, hsucc, hidx⟩ | hm
  · exact (hl.matched hrole id).imp hm.trans hm.trans
  · have hbase : c.log.snapshotIndex ≤ c.log.commitIndex := hc.idle.sound.log.snapshotIndex_le_commit
    exact .inr (hm.trans hbase)
  · have := hj _ hr hsucc
    rw [hrespr, hterm, hidx] at this
    exact .inl this
  · exact absurd hm hne

include hI hid hvtrs hc he hl h hj in
/-- Every event is an action of the voter. -/
lemma Handled.simulates : ∃ s', Simulates cfg rpc n c c' s s' := by
  have hs := hc.idle.sound
  have hs' := h.output.sound
  have hvtr := hc.voter_ne hid
  by_cases hf : ∃ request, rpc = some (.appendEntriesRequest request) ∧ Follows request c c'
  · obtain ⟨request, hr, hf⟩ := hf
    exact simulate_follow hI hs hs' he hvtr request hr (hj _ hr) hf
  have hno : ∀ request, rpc = some (.appendEntriesRequest request) → ¬ Follows request c c' :=
    fun request hr hf' => hf ⟨request, hr, hf'⟩
  cases h.move with
  | stay hard log role => exact ⟨s, simulate_stay he hl hno hard log role⟩
  | raise later vote log role => exact ⟨_, simulate_raise hs hs' he hno hvtr later vote log role⟩
  | vote request received term later free vote fresh log role =>
    exact simulate_vote hI hs hs' he hl hno request (hj _ received) term later free vote fresh log
      role
  | stand term vote log role votes =>
    rw [hid] at vote votes
    exact ⟨_, simulate_stand hs hs' he hno hvtr term vote log role votes⟩
  | elect entry hard candidate role quorum own log =>
    refine simulate_elect hs hs' he hl hno entry hard candidate role ⟨?_, hvtrs ▸ quorum⟩ ?_ own
      log
    · have hv : c'.voters = cfg.voters := h.output.voters.trans hvtrs
      exact fun v hv' => hv ▸ h.roles.votes v hv'
    exact fun v hv => (h.votes candidate (.inr role) v hv).imp id
      (CountsVote.voted hid hc hj)
  | follow request received follows => exact absurd follows (hno request received)
  | commit k leader role term vote log after within own quorum =>
    have hholds : ∀ id, k ≤ (c'.progressOf id).matchIndex → k ≤ s.acked id c.hardState.term := by
      intro id hk
      by_cases hne : id = c.localID
      · have hown := (hl.leader leader).2
        have hlast : c.log.lastIndex = (s.node n).log.length := he.last hs.log
        rw [hne, hid, he.term]
        omega
      rcases h.acked hc hl hj leader id hne with hm | hm
      · exact hk.trans hm
      · omega
    obtain ⟨Q, hQ, hacked⟩ := quorum_of_replicas (h.output.voters.trans hvtrs) hholds (hvtrs ▸ quorum)
    exact ⟨_, simulate_commit hI hs hs' he hl hno k leader term vote log after within own role hQ
      hacked⟩
  | propose entry hard leader role own log =>
    exact ⟨_, simulate_append hs hs' he hno entry (.refl s) (hl.leader leader).1 hard role own log⟩

variable {s' : History} (hsim : Simulates cfg rpc n c c' s s')

include hI hid hc hl h hj hsim in
/-- After the event, too, the history knows about the core's role. -/
lemma Simulates.linked : Linked cfg s' n c' where
  leader hr := ⟨(hsim.leader hr).1, (hsim.leader hr).2.1⟩
  candidate hr := by
    obtain ⟨hrole, ⟨hr0, hterm⟩ | hvotes⟩ := hsim.candidate hr
    · refine ⟨hrole, fun v hv => ?_⟩
      have hgiven : ∃ V, s.voted v c.hardState.term = some (n, V) :=
        (h.votes hr0 (.inl hr) v hv).elim ((hl.candidate hr0).2 v) (CountsVote.voted hid hc hj)
      obtain ⟨V, hV⟩ := hgiven
      exact ⟨V, hterm ▸ (hsim.acts.grows hI).voted _ _ _ hV⟩
    · exact ⟨hrole, hvotes⟩
  matched hr id := by
    obtain ⟨-, hown, hterm⟩ := hsim.leader hr
    have hcmt : c.log.commitIndex ≤ c'.log.commitIndex := h.output.commit_le
    by_cases hne : id = c.localID
    · have hlast : c'.log.lastIndex = (s'.node n).log.length := hsim.embodies.last h.output.sound.log
      have hm := h.roles.matched id
      refine .inl ?_
      rw [hsim.embodies.term]
      subst hne
      rw [hid] at hm ⊢
      omega
    by_cases hr0 : c.role = .leader
    · rw [hterm]
      exact (h.acked hc hl hj hr0 id hne).imp
        (fun hm => hm.trans ((hsim.acts.grows hI).acked _ _)) fun hm => hm.trans hcmt
    -- A voter that does not lead has no records, so what it has now it has just learnt.
    have hzero : (c.progressOf id).matchIndex = 0 := by
      rw [Core.progressOf, hc.roles.progress_none hr0]
      rfl
    rcases h.matched id with hm | hm | ⟨r, hrpc, hrespr, -, hreq, hsucc, hidx⟩ | hm
    · exact .inr (by omega)
    · have : c.log.snapshotIndex ≤ c.log.commitIndex := hc.idle.sound.log.snapshotIndex_le_commit
      exact .inr (by omega)
    · have := hj _ hrpc hsucc
      rw [hrespr, hreq, hidx] at this
      exact .inl (hterm ▸ this.trans ((hsim.acts.grows hI).acked _ _))
    · exact absurd hm hne

include hI hid hc he h hsim in
/-- Every message of the batch is true once the batch is written. -/
lemma Simulates.justified (hb : Backed cfg s n snapshot) {m : PeerMessage}
    (hm : m ∈ c'.pendingReady.messages) : Justified cfg s' m.rpc := by
  have hsaid : Says snapshot c.view c'.view m := h.output.messages m hm
  have hI' := hsim.acts.inv hI
  have hloc : c'.localID = n := h.output.localID.trans hid
  have hval : c'.log.Valid := h.output.sound.log
  have he' := hsim.embodies
  have hlast : c'.log.lastIndex = (s'.node n).log.length := he'.last hval
  unfold Says at hsaid
  cases hr : m.rpc with
  | handshake | handshakeAck | preVoteRequest | preVoteResponse | installSnapshotResponse | errorResponse =>
    trivial
  | requestVoteRequest r =>
    rw [hr] at hsaid
    obtain ⟨hcand, hterm, hvote, hidx, hlastT, hlt, -⟩ := hsaid
    change r.candidateID = c'.localID at hcand
    rw [hloc] at hcand
    refine ⟨hcand ▸ hc.voter_ne hid, (s'.node n).log, ?_, hidx.trans hlast, hlastT.trans (he'.lastTerm hval)⟩
    rw [hcand, hterm]
    exact hsim.ballot hlt (hvote.trans hloc)
  | requestVoteResponse r =>
    rw [hr] at hsaid
    obtain ⟨hrespr, -, hgrant, -⟩ := hsaid
    intro hg hne
    obtain ⟨hterm, hvote⟩ := hgrant hg
    change c'.hardState.votedFor = r.candidateID at hvote
    rw [he'.vote] at hvote
    have hsome : (s'.node n).vote = some r.candidateID := by
      cases hv : (s'.node n).vote with
      | none =>
        rw [hv] at hvote
        exact absurd hvote.symm hne
      | some =>
        rw [hv] at hvote
        rw [← hvote]
        rfl
    obtain ⟨V, hV⟩ := hI'.vote_voted n _ hsome
    refine ⟨V, ?_⟩
    rw [hrespr, hterm, ← hV]
    show s'.voted c'.localID c'.hardState.term = _
    rw [hloc, he'.term]
  | appendEntriesRequest =>
    rw [hr] at hsaid
    have hrole := h.leads m hm (by rw [hr]; rfl)
    exact hsaid.justified hI' hloc h.output.sound he' (hsim.leader hrole).1
  | appendEntriesResponse r =>
    rw [hr] at hsaid
    obtain ⟨hrespr, -, hsucc⟩ := hsaid
    intro hs
    rw [if_pos hs] at hsucc
    obtain ⟨request, hrpc, hf, hmch⟩ := h.acks m hm r hr hs
    have hacked := hsim.acks request hrpc hf
    rw [← hmch, ← hf.term] at hacked
    rw [hrespr, hsucc.1]
    show _ ≤ s'.acked c'.localID c'.hardState.term
    rw [hloc]
    exact hacked
  | installSnapshotRequest =>
    rw [hr] at hsaid
    have hrole := h.leads m hm (by rw [hr]; rfl)
    obtain ⟨hldr, hterm, hsame, -, sn, hsn, hcut⟩ := hsaid
    obtain ⟨hdec, hstd⟩ := hb sn hsn
    have hterm' : (s'.node n).term = (s.node n).term := by
      rw [← he.term, ← he'.term]
      exact hsame
    refine hcut.justified hI' (hsim.leader hrole).1 hdec (hldr.trans hloc) ?_
      (hstd.grow hI (hsim.acts.grows hI) hterm'.ge)
    rw [hterm', ← he.term]
    exact hterm

end Simulate

end Events

end Crane.Raft
