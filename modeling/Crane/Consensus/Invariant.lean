import Mathlib.Data.List.Infix
import Crane.Consensus.Protocol

/-!
# What every run of the protocol keeps

The invariant is stated over whole logs and over the recorded history, never over messages.
Its two load-bearing clauses are

* `Sound` — a prefix of any log that ends in an entry of term `t` is a prefix of the log of the
  leader of `t`. Two logs that agree on a term at a position therefore agree up to it, because
  both prefixes are cut from the same leader's log;
* `acked_kept` — a node that acknowledged a prefix to a leader either still has it, or a later
  leader that the node has heard of *stood for election without it*. The second alternative
  mentions neither commits nor quorums, which is what lets the clause be carried through every
  step before anything is known about commits. `Safety.lean` then rules it out for prefixes
  that a quorum acknowledged.
-/

namespace Crane.Consensus

variable {ν ε : Type}
variable {s s' : State ν ε} {P : Setting ν ε}

/-- Terms never fall along the log, and every prefix is a prefix of the log of the leader of
    its last term. -/
structure Sound (P : Setting ν ε) (s : State ν ε) (L : List ε) : Prop where
  sorted : L.Pairwise fun a b => P.termOf a ≤ P.termOf b
  anchored : ∀ p e, p ++ [e] <+: L → ∃ n K, s.lead (P.termOf e) = some (n, K) ∧ p ++ [e] <+: K

/-- Some leader of a term strictly between `u` and `b` stood for election without `p`. -/
def Overruled (s : State ν ε) (u : Nat) (p : List ε) (b : Nat) : Prop :=
  ∃ v n L B, u < v ∧ v < b ∧ s.lead v = some (n, L) ∧ s.ballot n v = some B ∧ ¬ p <+: B

/-- Every prefix that `q` acknowledged in a term below `t` is in `V`, unless overruled by a
    leader of an earlier term than `t`. -/
def Keeps (s : State ν ε) (q : ν) (t : Nat) (V : List ε) : Prop :=
  ∀ u m K k, u < t → s.lead u = some (m, K) → k ≤ s.acked q u → K.take k <+: V ∨ Overruled s u (K.take k) t

/-- The invariant of every run. -/
structure Inv (P : Setting ν ε) (s : State ν ε) : Prop where
  log_sound : ∀ n, Sound P s (s.node n).log
  log_term : ∀ n, ∀ e ∈ (s.node n).log, P.termOf e ≤ (s.node n).term
  ballot_sound : ∀ n t B, s.ballot n t = some B → Sound P s B
  ballot_term : ∀ n t B, s.ballot n t = some B → 1 ≤ t ∧ ∀ e ∈ B, P.termOf e < t
  ballot_voted : ∀ n t B, s.ballot n t = some B → s.voted n t = some (n, B)
  voted_term : ∀ q t c V, s.voted q t = some (c, V) →
    t ≤ (s.node q).term ∧ (t = (s.node q).term → (s.node q).vote = some c)
  voted_sound : ∀ q t c V, s.voted q t = some (c, V) → Sound P s V
  voted_ballot : ∀ q t c V, s.voted q t = some (c, V) → ∃ B, s.ballot c t = some B ∧ P.UpToDate B V
  voted_keeps : ∀ q t c V, s.voted q t = some (c, V) → s.lead t = none → Keeps s q t V
  vote_voted : ∀ q c, (s.node q).vote = some c → ∃ V, s.voted q (s.node q).term = some (c, V)
  candidate : ∀ n, s.role n = .candidate →
    s.ballot n (s.node n).term = some (s.node n).log ∧ ∀ L, s.lead (s.node n).term ≠ some (n, L)
  leader : ∀ n, s.role n = .leader → s.lead (s.node n).term = some (n, (s.node n).log)
  lead_sound : ∀ t n L, s.lead t = some (n, L) → Sound P s L
  lead_ballot : ∀ t n L, s.lead t = some (n, L) →
    ∃ B, s.ballot n t = some B ∧ B <+: L ∧ ∀ e ∈ L, e ∈ B ∨ P.termOf e = t
  lead_won : ∀ t n L, s.lead t = some (n, L) →
    ∃ Q, P.Quorum Q ∧ ∀ q ∈ Q, ∃ V, s.voted q t = some (n, V) ∧ Keeps s q t V
  acked_le : ∀ q t, s.acked q t ≠ 0 → t ≤ (s.node q).term ∧ ∃ n L, s.lead t = some (n, L) ∧ s.acked q t ≤ L.length
  acked_kept : ∀ q, Keeps s q ((s.node q).term + 1) (s.node q).log
  commit_le : ∀ n, (s.node n).commit ≤ (s.node n).log.length
  committed : ∀ n, Committed P s (s.node n).term ((s.node n).log.take (s.node n).commit)

/-! ## History only grows -/

/-- The history of `s'` extends that of `s`. -/
structure Grows (s s' : State ν ε) : Prop where
  lead : ∀ t n L, s.lead t = some (n, L) → ∃ L', s'.lead t = some (n, L') ∧ L <+: L'
  ballot : ∀ n t B, s.ballot n t = some B → s'.ballot n t = some B
  voted : ∀ q t v, s.voted q t = some v → s'.voted q t = some v
  acked : ∀ q t, s.acked q t ≤ s'.acked q t

lemma Grows.refl (s : State ν ε) : Grows s s :=
  ⟨fun _ _ L h => ⟨L, h, List.prefix_rfl⟩, fun _ _ _ h => h, fun _ _ _ h => h, fun _ _ => le_rfl⟩

lemma Grows.trans {t u : State ν ε} (h1 : Grows s t) (h2 : Grows t u) : Grows s u where
  lead v n L h := by
    obtain ⟨L1, hL1, hp1⟩ := h1.lead v n L h
    obtain ⟨L2, hL2, hp2⟩ := h2.lead v n L1 hL1
    exact ⟨L2, hL2, hp1.trans hp2⟩
  ballot n v B h := h2.ballot n v B (h1.ballot n v B h)
  voted q v w h := h2.voted q v w (h1.voted q v w h)
  acked q v := (h1.acked q v).trans (h2.acked q v)

lemma Sound.grow {L : List ε} (hg : Grows s s') (h : Sound P s L) : Sound P s' L where
  sorted := h.sorted
  anchored p e hp := by
    obtain ⟨n, K, hK, hpre⟩ := h.anchored p e hp
    obtain ⟨K', hK', hKK⟩ := hg.lead _ n K hK
    exact ⟨n, K', hK', hpre.trans hKK⟩

lemma Sound.shorten {L M : List ε} (h : Sound P s L) (hp : M <+: L) : Sound P s M where
  sorted := h.sorted.sublist hp.sublist
  anchored p e hpe := h.anchored p e (hpe.trans hp)

lemma Sound.nil : Sound P s [] where
  sorted := List.Pairwise.nil
  anchored p e hp := by simpa using List.eq_nil_of_prefix_nil hp

lemma Overruled.grow {u b b' : Nat} {p : List ε} (hg : Grows s s') (hb : b ≤ b') (h : Overruled s u p b) :
    Overruled s' u p b' := by
  obtain ⟨v, n, L, B, huv, hvb, hL, hB, hp⟩ := h
  obtain ⟨L', hL', -⟩ := hg.lead v n L hL
  exact ⟨v, n, L', B, huv, hvb.trans_le hb, hL', hg.ballot n v B hB, hp⟩

lemma Won.grow {n : ν} {t : Nat} (hg : Grows s s') (h : Won P s n t) : Won P s' n t := by
  obtain ⟨Q, hQ, hv⟩ := h
  refine ⟨Q, hQ, fun q hq => ?_⟩
  obtain ⟨L, hL⟩ := hv q hq
  exact ⟨L, hg.voted q t _ hL⟩

end Crane.Consensus
