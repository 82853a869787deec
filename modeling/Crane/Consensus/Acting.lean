import Crane.Consensus.Preservation

/-!
# One node acting

What a single node does at once — moving to a term and voting in it, taking over entries and
committing some of them — is several steps. `Acts P n s s'` says that a run leads from `s` to
`s'` and that only node `n` moved in it: whatever is known about another node's record and role
is still true, and whatever is known about the history has only grown.
-/

namespace Crane.Consensus

open List

variable {ν ε : Type} [DecidableEq ν] [DecidableEq ε] {P : Setting ν ε} {s s' s'' : State ν ε}
  {n : ν}

/-- A run in which only `n` moved. -/
structure Acts (P : Setting ν ε) (n : ν) (s s' : State ν ε) : Prop where
  run : Run P s s'
  node : ∀ m, m ≠ n → s'.node m = s.node m
  role : ∀ m, m ≠ n → s'.role m = s.role m

lemma Acts.refl (s : State ν ε) : Acts P n s s := ⟨.refl s, fun _ _ => rfl, fun _ _ => rfl⟩

lemma Acts.trans (h : Acts P n s s') (h' : Acts P n s' s'') : Acts P n s s'' :=
  ⟨h.run.trans h'.run, fun m hm => (h'.node m hm).trans (h.node m hm),
    fun m hm => (h'.role m hm).trans (h.role m hm)⟩

lemma Acts.inv (h : Acts P n s s') (hI : Inv P s) : Inv P s' := h.run.keeps_inv hI

lemma Acts.grows (h : Acts P n s s') (hI : Inv P s) : Grows s s' := h.run.grows hI

lemma Acts.raise {t : Nat} (h : (s.node n).term < t) : Acts P n s (s.raise n t) :=
  ⟨.single (.raise s n t h), fun m hm => by simp [State.raise, State.setNode, State.setRole, hm],
    fun m hm => by simp [State.raise, State.setNode, State.setRole, hm]⟩

lemma Acts.stand : Acts P n s (s.stand n) :=
  ⟨.single (.stand s n), fun m hm => by simp [State.stand, State.setNode, State.setRole, hm],
    fun m hm => by simp [State.stand, State.setNode, State.setRole, hm]⟩

lemma Acts.vote {c : ν} {L : List ε} (free : (s.node n).vote = none)
    (standing : s.ballot c (s.node n).term = some L) (fresh : P.UpToDate L (s.node n).log) :
    Acts P n s (s.vote n c) :=
  ⟨.single (.vote s n c L free standing fresh), fun m hm => by simp [State.vote, State.setNode, hm],
    fun m _ => rfl⟩

lemma Acts.elect (candidate : s.role n = .candidate) (won : Won P s n (s.node n).term) : Acts P n s (s.elect n) :=
  ⟨.single (.elect s n candidate won), fun m _ => rfl,
    fun m hm => by simp [State.elect, State.setRole, hm]⟩

lemma Acts.append {e : ε} (leader : s.role n = .leader) (own : P.termOf e = (s.node n).term) :
    Acts P n s (s.append n e) :=
  ⟨.single (.append s n e leader own), fun m hm => by simp [State.append, State.setNode, hm],
    fun m _ => rfl⟩

lemma Acts.accept {l : ν} {L : List ε} {m : Nat}
    (leader : s.lead (s.node n).term = some (l, L)) (short : m ≤ L.length) : Acts P n s (s.accept n L m) :=
  ⟨.single (.accept s n l L m leader short),
    fun k hk => by simp [State.accept, State.setNode, State.setRole, hk],
    fun k hk => by simp [State.accept, State.setNode, State.setRole, hk]⟩

lemma Acts.commit {k : Nat} (held : k ≤ (s.node n).log.length) (forward : (s.node n).commit ≤ k)
    (decided : Committed P s (s.node n).term ((s.node n).log.take k)) : Acts P n s (s.commit n k) :=
  ⟨.single (.commit s n k held forward decided),
    fun m hm => by simp [State.commit, State.setNode, hm], fun m _ => rfl⟩

/-- Moving to a term that is not earlier, which is no step when it is the current one. -/
lemma Acts.upTo {t : Nat} (h : (s.node n).term ≤ t) : ∃ s1, Acts P n s s1 ∧ s1.node n = { s.node n with
      term := t, vote := if (s.node n).term < t then none else (s.node n).vote } ∧
    s1.role n = (if (s.node n).term < t then .follower else s.role n) ∧
    s1.ballot = s.ballot ∧ s1.lead = s.lead ∧ s1.acked = s.acked := by
  by_cases hlt : (s.node n).term < t
  · refine ⟨s.raise n t, .raise hlt, ?_, ?_, rfl, rfl, rfl⟩
    · simp [State.raise, State.setNode, State.setRole, hlt]
    · simp [State.raise, State.setNode, State.setRole, hlt]
  obtain rfl : t = (s.node n).term := by omega
  exact ⟨s, .refl s, by simp, by simp, rfl, rfl, rfl⟩

/-- Following the leader of a term: moving to its term, taking over the first `m` entries of its
    log and committing what the leader vouches for of them. -/
lemma Acts.follow (hI : Inv P s) {t m k : Nat} {l : ν} {L : List ε} (ht : (s.node n).term ≤ t)
    (hL : s.lead t = some (l, L)) (hm : m ≤ L.length) (hk : Committed P s t (L.take k)) :
    ∃ s', Acts P n s s' ∧ m ≤ s'.acked n t ∧ s'.node n =
      ⟨t, if (s.node n).term < t then none else (s.node n).vote, takeOver (s.node n).log L m,
        max (s.node n).commit (min k m)⟩ := by
  obtain ⟨s1, hacts, hnode, -, -, hlead, -⟩ := Acts.upTo (P := P) ht
  have hacpt : Acts P n s1 (s1.accept n L m) := .accept (by rw [hlead, hnode]; exact hL) hm
  have hnode2 := accept_node s1 n n L m
  rw [if_pos rfl, hnode] at hnode2
  have hacked : m ≤ (s1.accept n L m).acked n t := by
    have : (s1.accept n L m).acked n t = max m (s1.acked n (s1.node n).term) := by
      rw [show t = (s1.node n).term by rw [hnode]]
      exact write_same _ _ _ _
    rw [this]
    exact le_max_left _ _
  generalize s1.accept n L m = s2 at hacpt hnode2 hacked
  have hacts2 := hacts.trans hacpt
  have hI2 := hacts2.inv hI
  have hpre : L.take m <+: (s2.node n).log := by
    rw [hnode2]
    exact take_prefix_takeOver _ _ _
  have hmle : m ≤ (s2.node n).log.length := by
    have := hpre.length_le
    rwa [length_take, Nat.min_eq_left hm] at this
  -- The commit index stays, or moves to a position of the leader's log that was taken over.
  have hdecided : max (s.node n).commit (min k m) ≤ (s2.node n).log.length ∧ Committed P s2 (s2.node n).term
        ((s2.node n).log.take (max (s.node n).commit (min k m))) := by
    have hcmt : (s2.node n).commit = (s.node n).commit := by rw [hnode2]
    rcases le_total (min k m) (s.node n).commit with hle | hle
    · rw [max_eq_left hle, ← hcmt]
      exact ⟨hI2.commit_le n, hI2.committed n⟩
    rw [max_eq_right hle]
    refine ⟨(min_le_right _ _).trans hmle, ?_⟩
    have htake : (s2.node n).log.take (min k m) <+: L.take k := by
      have : (s2.node n).log.take (min k m) = (L.take m).take (min k m) := by
        rw [prefix_iff_eq_take.mp hpre, length_take, Nat.min_eq_left hm, take_take,
          Nat.min_eq_left (min_le_right _ _)]
      rw [this, take_take, Nat.min_eq_left (min_le_right _ _)]
      exact take_prefix_take_left (min_le_left _ _)
    rw [show (s2.node n).term = t by rw [hnode2]]
    exact (hk.grow hI (hacts2.grows hI) le_rfl).shorten htake
  have hforward : (s2.node n).commit ≤ max (s.node n).commit (min k m) := by
    rw [hnode2]
    exact le_max_left _ _
  refine ⟨s2.commit n (max (s.node n).commit (min k m)),
    hacts2.trans (.commit hdecided.1 hforward hdecided.2), hacked, ?_⟩
  simp [State.commit, State.setNode, hnode2]

/-- A node that acts keeps what it had committed. -/
lemma Acts.committed_kept (h : Acts P n s s') (hI : Inv P s) {t : Nat} {p : List ε}
    (hp : Committed P s t p) (hlen : p.length ≤ (s'.node n).commit) : (s'.node n).log.take p.length = p := by
  have hI' := h.inv hI
  have hle := hI'.commit_le n
  refine hI'.committed_unique ((hI'.committed n).shorten ?_) (hp.grow hI (h.grows hI) le_rfl) ?_
  · exact take_prefix_take_left hlen
  rw [length_take]
  omega

end Crane.Consensus
