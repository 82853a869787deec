import Crane.Consensus.Invariant

/-!
# What the invariant gives

Three facts about a state that satisfies `Inv`, none of which takes a step: a term has at most
one winner, logs that agree on a term at a position agree up to it, and a decided prefix is in
the log of every later leader. The last one is a strong induction on the later leader's term:
its voters include a node that acknowledged the prefix, that node still had the prefix when it
voted (every leader in between has it, so nobody overruled it), and a log that is at least as
up to date as one with the prefix has the prefix too.
-/

namespace Crane.Consensus

open List Option Setting

variable {ν ε : Type} {P : Setting ν ε} {s : State ν ε}
variable {L p M q K : List ε} {k t v i j : Nat} {e : ε} {n m : ν}

/-! ## Terms along a log -/

lemma Setting.lastTerm_snoc (L : List ε) (e : ε) : P.lastTerm (L ++ [e]) = P.termOf e := by
  simp [lastTerm, termAt]

lemma Setting.lastTerm_nil : P.lastTerm ([] : List ε) = 0 := rfl

lemma Setting.termAt_shorten (h : p <+: L) (hi : i ≤ p.length) : P.termAt p i = P.termAt L i := by
  cases i with
  | zero => rfl
  | succ =>
    obtain ⟨q, rfl⟩ := h
    simp only [termAt]
    rw [getElem?_append_left (by omega)]

lemma Setting.termAt_succ (h : L[i]? = some e) : P.termAt L (i + 1) = P.termOf e := by simp [termAt, h]

/-- A position with a nonzero term ends a prefix in an entry of that term. -/
lemma Setting.take_of_termAt (h : P.termAt L k = t) (ht : 1 ≤ t) :
    ∃ p e, L.take k = p ++ [e] ∧ P.termOf e = t := by
  cases k with
  | zero => simp only [termAt] at h; omega
  | succ j =>
    cases hj : L[j]? with
    | none => simp only [termAt, hj, Option.elim] at h; omega
    | some e =>
      refine ⟨L.take j, e, ?_, by simpa [termAt, hj] using h⟩
      rw [take_add_one, hj, toList_some]

lemma Setting.le_length_of_termAt (h : P.termAt L k = t) (ht : 1 ≤ t) : k ≤ L.length := by
  cases k with
  | zero => exact Nat.zero_le _
  | succ j =>
    by_contra hlt
    have hj : L[j]? = none := getElem?_eq_none (by omega)
    simp only [termAt, hj, Option.elim] at h
    omega

/-- In a sorted log no entry has a later term than the last one. -/
lemma Sound.term_le_last {x : ε} (h : Sound P s (p ++ [x])) (he : e ∈ p ++ [x]) : P.termOf e ≤ P.termOf x := by
  rcases mem_append.mp he with hp | hx
  · exact (pairwise_append.mp h.sorted).2.2 e hp x (by simp)
  · rw [mem_singleton.mp hx]

lemma Sound.term_le_lastTerm (h : Sound P s L) (he : e ∈ L) : P.termOf e ≤ P.lastTerm L := by
  obtain rfl | ⟨p, x, rfl⟩ := L.eq_nil_or_concat
  · cases he
  rw [concat_eq_append] at h he ⊢
  rw [lastTerm_snoc]
  exact h.term_le_last he

/-- Of two sound logs up to entries of the same term the longer contains the shorter: it is that of the
    term's leader. -/
lemma Sound.take_prefix_take (hL : Sound P s L) (hM : Sound P s M) (hi : 0 < i) (hiL : i ≤ L.length)
    (hij : i ≤ j) (hjM : j ≤ M.length) (h : P.termAt L i = P.termAt M j) : L.take i <+: M.take j := by
  obtain ⟨i, rfl⟩ := Nat.exists_eq_add_of_le' hi
  obtain ⟨j, rfl⟩ := Nat.exists_eq_add_of_le' (hi.trans_le hij)
  rw [termAt_succ (getElem?_eq_getElem hiL), termAt_succ (getElem?_eq_getElem hjM)] at h
  obtain ⟨n, K, hK, hpK⟩ := hL.anchored (L.take i) L[i] (by rw [take_append_getElem]; exact List.take_prefix ..)
  obtain ⟨n', K', hK', hqK⟩ := hM.anchored (M.take j) M[j] (by rw [take_append_getElem]; exact List.take_prefix ..)
  rw [h, hK', some.injEq, Prod.mk.injEq] at hK
  obtain ⟨-, rfl⟩ := hK
  rw [take_append_getElem] at hpK hqK
  refine prefix_of_prefix_length_le hpK hqK ?_
  rw [length_take_of_le hiL, length_take_of_le hjM]
  exact hij

/-- Of two sound logs with the same nonzero last term the longer contains the shorter. -/
lemma Sound.prefix_of_lastTerm (hL : Sound P s L) (hM : Sound P s M) (hne : L ≠ [])
    (hlast : P.lastTerm L = P.lastTerm M) (hlen : L.length ≤ M.length) : L <+: M := by
  have hpre := hL.take_prefix_take hM (length_pos_of_ne_nil hne) le_rfl hlen le_rfl hlast
  rwa [take_length, take_length] at hpre

/-- **Log matching.** Sound logs that agree on the term at a position agree up to it. -/
lemma Sound.take_eq (hL : Sound P s L) (hM : Sound P s M) (hi : i ≤ L.length) (hi' : i ≤ M.length)
    (h : P.termAt L i = P.termAt M i) : L.take i = M.take i := by
  rcases i.eq_zero_or_pos with rfl | hpos
  · simp
  refine (hL.take_prefix_take hM hpos hi le_rfl hi' h).eq_of_length ?_
  rw [length_take_of_le hi, length_take_of_le hi']

lemma Sound.termAt_mono (h : Sound P s L) (hij : i ≤ j) (hj : j ≤ L.length) :
    P.termAt L i ≤ P.termAt L j := by
  cases i with
  | zero => exact Nat.zero_le _
  | succ i =>
    obtain ⟨j, rfl⟩ := Nat.exists_eq_add_of_le' (Nat.one_le_of_lt hij)
    have hi : i < L.length := by omega
    rw [termAt_succ (getElem?_eq_getElem hi), termAt_succ (getElem?_eq_getElem hj)]
    rcases (Nat.le_of_succ_le_succ hij).eq_or_lt with rfl | hlt
    · exact le_rfl
    · exact pairwise_iff_getElem.mp h.sorted i j hi hj hlt

/-- No log has a term before the position at which another log begins it. -/
lemma Sound.start_le (hL : Sound P s L) (hM : Sound P s M) (hi : 0 < i) (hiL : i ≤ L.length)
    (hjM : j ≤ M.length) (h : P.termAt L i = P.termAt M j)
    (hstart : P.termAt M (j - 1) ≠ P.termAt M j) : j ≤ i := by
  by_contra hlt
  rw [not_le] at hlt
  have hpre := (hL.take_prefix_take hM hi hiL hlt.le hjM h).trans (List.take_prefix j M)
  have hat : P.termAt M i = P.termAt L i := by
    have hlen := (length_take_of_le hiL).ge
    rw [← termAt_shorten hpre hlen, termAt_shorten (List.take_prefix i L) hlen]
  have hlow := hM.termAt_mono (Nat.le_sub_one_of_lt hlt) (by omega)
  have hhigh := hM.termAt_mono (Nat.sub_le j 1) hjM
  omega

/-! ## One winner a term -/

/-- **Election safety.** Two quorums of votes in one term are for one node. -/
lemma Won.unique (hn : Won P s n t) (hm : Won P s m t) : n = m := by
  obtain ⟨Q, hQ, hvQ⟩ := hn
  obtain ⟨R, hR, hvR⟩ := hm
  obtain ⟨q, hqQ, hqR⟩ := P.meet Q R hQ hR
  obtain ⟨V, hV⟩ := hvQ q hqQ
  obtain ⟨W, hW⟩ := hvR q hqR
  rw [hV, some.injEq, Prod.mk.injEq] at hW
  exact hW.1

section

variable (hI : Inv P s)

include hI

section

variable (h : s.lead t = some (n, L))

include h

lemma Inv.lead_isWon : Won P s n t := by
  obtain ⟨Q, hQ, hv⟩ := hI.lead_won t n L h
  refine ⟨Q, hQ, fun q hq => ?_⟩
  obtain ⟨V, hV, -⟩ := hv q hq
  exact ⟨V, hV⟩

/-- Terms are led from one on. -/
lemma Inv.lead_pos : 1 ≤ t := by
  obtain ⟨B, hB, -⟩ := hI.lead_ballot t n L h
  exact (hI.ballot_term n t B hB).1

/-- A leader's log holds no entry of a later term. -/
lemma Inv.lead_term (he : e ∈ L) : P.termOf e ≤ t := by
  obtain ⟨B, hB, -, hall⟩ := hI.lead_ballot t n L h
  rcases hall e he with heB | heq
  · exact Nat.le_of_lt ((hI.ballot_term n t B hB).2 e heB)
  · exact heq.le

end

/-- An entry of a sound log was created in a term from one on. -/
lemma Inv.term_pos (hL : Sound P s L) (he : e ∈ L) : 1 ≤ P.termOf e := by
  obtain ⟨p, q, rfl⟩ := append_of_mem he
  obtain ⟨n, K, hK, -⟩ := hL.anchored p e ⟨q, by simp⟩
  exact hI.lead_pos hK

/-- A candidate that wins is the first leader of its term. -/
lemma Inv.lead_eq_none (hc : s.role n = .candidate) (hw : Won P s n (s.node n).term) :
    s.lead (s.node n).term = none := by
  cases hl : s.lead (s.node n).term with
  | none => rfl
  | some w =>
    obtain ⟨m, L⟩ := w
    have hmn : m = n := (hI.lead_isWon hl).unique hw
    subst hmn
    exact absurd hl ((hI.candidate m hc).2 L)

/-! ## Decided prefixes reach every later leader -/

/-- A sound log at least as up to date as one that holds a decided prefix holds it too, once
    the leaders of the terms up to its last one do. -/
lemma Inv.upToDate_holds {V B : List ε} (hL : s.lead t = some (n, L)) (hk : P.termAt L k = t)
    (hV : Sound P s V) (hpV : L.take k <+: V) (hB : Sound P s B) (hup : P.UpToDate B V)
    (hltr : ∀ w m K, t < w → w ≤ P.lastTerm B → s.lead w = some (m, K) → L.take k <+: K) :
    L.take k <+: B := by
  obtain ⟨p, e, hpe, het⟩ := P.take_of_termAt hk (hI.lead_pos hL)
  have heV : e ∈ V := hpV.subset (by rw [hpe]; simp)
  have hVne : V ≠ [] := ne_nil_of_mem heV
  have htV : t ≤ P.lastTerm V := het ▸ hV.term_le_lastTerm heV
  rcases hup with hlt | ⟨heq, hlen⟩
  · -- The last entry of `B` belongs to a later leader, which has the prefix.
    obtain rfl | ⟨b, y, rfl⟩ := B.eq_nil_or_concat
    · simp [lastTerm_nil] at hlt
    rw [concat_eq_append] at *
    obtain ⟨m, K, hK, hbK⟩ := hB.anchored b y prefix_rfl
    rw [lastTerm_snoc] at hlt hltr
    have hpK : L.take k <+: K := hltr _ m K (by omega) le_rfl hK
    by_cases hlen : (L.take k).length ≤ (b ++ [y]).length
    · exact prefix_of_prefix_length_le hpK hbK hlen
    have hbL : b ++ [y] <+: L.take k := prefix_of_prefix_length_le hbK hpK (by omega)
    have hyL : y ∈ L := mem_of_mem_take (hbL.subset (by simp))
    have := hI.lead_term hL hyL
    omega
  · exact hpV.trans (hV.prefix_of_lastTerm hB hVne heq.symm hlen)

/-- **Leader completeness.** Whoever leads a later term stood for election with every prefix
    that was decided before. -/
lemma Inv.leader_complete (hd : Decided P s t k) (hL : s.lead t = some (n, L)) (htv : t < v)
    (hK : s.lead v = some (m, K)) : ∃ B, s.ballot m v = some B ∧ L.take k <+: B := by
  induction v using Nat.strongRecOn generalizing m K with
  | ind v ih =>
    obtain ⟨n', L', Q, hL', hk, hQ, hacks⟩ := hd
    rw [hL, some.injEq, Prod.mk.injEq] at hL'
    obtain ⟨rfl, rfl⟩ := hL'
    obtain ⟨R, hR, hvotes⟩ := hI.lead_won v m K hK
    obtain ⟨q, hqQ, hqR⟩ := P.meet Q R hQ hR
    obtain ⟨V, hV, hkeep⟩ := hvotes q hqR
    obtain ⟨B, hB, hup⟩ := hI.voted_ballot q v m V hV
    have hpV : L.take k <+: V := by
      rcases hkeep t n L k htv hL (hacks q hqQ) with hp | ⟨w, c, K', C, htw, hwv, hKw, hC, hno⟩
      · exact hp
      obtain ⟨C', hC', hp⟩ := ih w hwv htw hKw
      rw [hC, some.injEq] at hC'
      exact absurd (hC' ▸ hp) hno
    refine ⟨B, hB, hI.upToDate_holds hL hk (hI.voted_sound q v m V hV) hpV
      (hI.ballot_sound m v B hB) hup ?_⟩
    intro w c K' htw hwB hKw
    have hwv : w < v := by
      obtain rfl | ⟨b, y, rfl⟩ := B.eq_nil_or_concat
      · rw [lastTerm_nil] at hwB; omega
      rw [concat_eq_append, lastTerm_snoc] at hwB
      have := (hI.ballot_term m v _ hB).2 y (by simp)
      omega
    obtain ⟨C, hC, hp⟩ := ih w hwv htw hKw
    obtain ⟨C', hC', hpre, -⟩ := hI.lead_ballot w c K' hKw
    rw [hC, some.injEq] at hC'
    exact hp.trans (hC' ▸ hpre)

/-- A decided prefix is in the log of the leader of its own and of every later term. -/
lemma Inv.decided_prefix (hd : Decided P s t k) (hL : s.lead t = some (n, L)) (htv : t ≤ v)
    (hK : s.lead v = some (m, K)) : L.take k <+: K := by
  rcases htv.eq_or_lt with rfl | hlt
  · rw [hL, some.injEq, Prod.mk.injEq] at hK
    exact hK.2 ▸ take_prefix k L
  obtain ⟨B, hB, hp⟩ := hI.leader_complete hd hL hlt hK
  obtain ⟨B', hB', hpre, -⟩ := hI.lead_ballot v m K hK
  rw [hB, some.injEq] at hB'
  exact hp.trans (hB' ▸ hpre)

/-- A committed prefix is in the log of the leader of every term from its own on. -/
lemma Inv.committed_prefix (hp : Committed P s t p) (htv : t ≤ v) (hK : s.lead v = some (m, K))
    : p <+: K := by
  rcases hp with rfl | ⟨u, k, n, L, hut, hd, hL, hpre⟩
  · exact nil_prefix
  · exact hpre.trans (hI.decided_prefix hd hL (hut.trans htv) hK)

/-- **State machine safety.** Of two committed prefixes one contains the other. -/
lemma Inv.committed_comparable {u : Nat} (hp : Committed P s t p) (hq : Committed P s u q)
    : p <+: q ∨ q <+: p := by
  rcases hp with rfl | ⟨t', k, n, L, -, hd, hL, hpre⟩
  · exact .inl nil_prefix
  rcases hq with rfl | ⟨u', j, m, K, -, hd', hK, hpre'⟩
  · exact .inr nil_prefix
  rcases le_total t' u' with hle | hle
  · exact prefix_or_prefix_of_prefix (hpre.trans (hI.decided_prefix hd hL hle hK))
      (hpre'.trans (List.take_prefix j K))
  exact prefix_or_prefix_of_prefix (hpre.trans (List.take_prefix k L))
    (hpre'.trans (hI.decided_prefix hd' hK hle hL))

end

lemma Committed.shorten (h : Committed P s t q) (hp : p <+: q) : Committed P s t p := by
  rcases h with rfl | ⟨u, k, m, L, hu, hd, hL, hq⟩
  · exact .inl (prefix_nil.mp hp)
  · exact .inr ⟨u, k, m, L, hu, hd, hL, hp.trans hq⟩

/-- Committed prefixes of the same length are equal. -/
lemma Inv.committed_unique (hI : Inv P s) {u : Nat} (hp : Committed P s t p) (hq : Committed P s u q)
    (hlen : p.length = q.length) : p = q := by
  rcases hI.committed_comparable hp hq with h | h
  · exact h.eq_of_length hlen
  · exact (h.eq_of_length hlen.symm).symm

/-- Finitely many facts, each about some committed prefix, are facts about one of them, if they
    survive making the prefix longer. -/
lemma Inv.committed_common (hI : Inv P s) {α : Type} {Fine : List ε → Prop}
    {Good : List ε → α → Prop} (hnil : Fine []) (mono : ∀ p q x, p <+: q → Good p x → Good q x)
    (xs : List α) (h : ∀ x ∈ xs, ∃ t p, Committed P s t p ∧ Fine p ∧ Good p x) :
    ∃ t p, Committed P s t p ∧ Fine p ∧ ∀ x ∈ xs, Good p x := by
  induction xs with
  | nil => exact ⟨0, [], .inl rfl, hnil, by simp⟩
  | cons x _ ih =>
    obtain ⟨t, p, hp, hfine, hgood⟩ := ih fun y hy => h y (mem_cons_of_mem _ hy)
    obtain ⟨u, q, hq, hfine', hgood'⟩ := h x mem_cons_self
    rcases hI.committed_comparable hp hq with hpq | hqp
    · exact ⟨u, q, hq, hfine', forall_mem_cons.mpr ⟨hgood', fun y hy => mono _ _ _ hpq (hgood y hy)⟩⟩
    · exact ⟨t, p, hp, hfine, forall_mem_cons.mpr ⟨mono _ _ _ hqp hgood', hgood⟩⟩

end Crane.Consensus
