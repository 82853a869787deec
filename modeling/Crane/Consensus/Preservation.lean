import Crane.Consensus.Safety

/-!
# Every step keeps the invariant

One lemma a step. Steps that only touch one node's own record leave the history alone, so most
clauses are carried over by `Grows`; the clauses that carry the argument are

* `elect` — the new leader's voters kept what they had acknowledged (`voted_keeps`), and that
  fact moves into `lead_won`, where it stays true although late votes may still come in;
* `accept` — a node that loses an acknowledged prefix by taking over a leader's log is excused
  by that very leader (`Overruled`), and it never loses a committed one (`committed_prefix`).
-/

namespace Crane.Consensus

open List Option State Function

variable {ν ε : Type} {P : Setting ν ε} {s s' : State ν ε}
variable {t k u : Nat} {q n m c : ν} {V L : List ε}

section

variable (hI : Inv P s)

include hI

lemma Decided.grow (hg : Grows s s') (h : Decided P s t k) : Decided P s' t k := by
  obtain ⟨n, L, Q, hL, hk, hQ, hacks⟩ := h
  obtain ⟨L', hL', hpre⟩ := hg.lead t n L hL
  refine ⟨n, L', Q, hL', ?_, hQ, fun q hq => (hacks q hq).trans (hg.acked q t)⟩
  obtain ⟨rest, rfl⟩ := hpre
  have hlen : k ≤ L.length := P.le_length_of_termAt hk (hI.lead_pos hL)
  cases k with
  | zero => exact hk
  | succ =>
    simp only [Setting.termAt] at hk ⊢
    rwa [getElem?_append_left (by omega)]

lemma Committed.grow (hg : Grows s s') {t' : Nat} {p : List ε} (ht : t ≤ t') (h : Committed P s t p)
    : Committed P s' t' p := by
  rcases h with rfl | ⟨u, k, n, L, hut, hd, hL, hpre⟩
  · exact .inl rfl
  obtain ⟨L', hL', hLL⟩ := hg.lead u n L hL
  refine .inr ⟨u, k, n, L', hut.trans ht, hd.grow hI hg, hL', hpre.trans ?_⟩
  obtain ⟨rest, rfl⟩ := hLL
  have hlen : k ≤ L.length := by
    obtain ⟨n', M, -, hM, hk, -⟩ := hd
    rw [hL, some.injEq, Prod.mk.injEq] at hM
    obtain ⟨-, rfl⟩ := hM
    exact P.le_length_of_termAt hk (hI.lead_pos hL)
  rw [take_append_of_le_length hlen]

/-- What was kept before a step is kept after it, as long as the acknowledgements spoken of
    have not moved. -/
lemma Keeps.grow (hg : Grows s s') {t' : Nat} {V' : List ε} (ht : t ≤ t') (hV : V <+: V')
    (hfix : ∀ u, u < t → s'.acked q u = s.acked q u) (hlow : ∀ u, t ≤ u → u < t' → s'.acked q u = 0)
    (h : Keeps s q t V) : Keeps s' q t' V' := by
  intro u m K k hu hK hk
  by_cases hk0 : k = 0
  · subst hk0; exact .inl (by simp)
  have hut : u < t := by
    by_contra hge
    have := hlow u (by omega) hu
    omega
  rw [hfix u hut] at hk
  obtain ⟨-, n, L, hL, hlen⟩ := hI.acked_le q u (by omega)
  obtain ⟨L', hL', hpre⟩ := hg.lead u n L hL
  rw [hK, some.injEq, Prod.mk.injEq] at hL'
  obtain ⟨rfl, rfl⟩ := hL'
  have hcut : K.take k = L.take k := by
    obtain ⟨rest, rfl⟩ := hpre
    exact take_append_of_le_length (by omega)
  rw [hcut]
  rcases h u m L k hut hL hk with hp | ho
  · exact .inl (hp.trans hV)
  · exact .inr (ho.grow hg ht)

/-- An acknowledgement above a node's term has not been given yet. -/
lemma Inv.acked_zero (h : (s.node q).term < u) : s.acked q u = 0 := by
  by_contra hne
  have := (hI.acked_le q u hne).1
  omega

/-- Nobody has voted in a term it has not reached. -/
lemma Inv.voted_none (h : (s.node q).term < t) : s.voted q t = none := by
  cases hv : s.voted q t with
  | none => rfl
  | some w => have := (hI.voted_term q t w.1 w.2 hv).1; omega

lemma Inv.ballot_none (h : (s.node n).term < t) : s.ballot n t = none := by
  cases hb : s.ballot n t with
  | none => rfl
  | some B => simpa [hI.voted_none h] using hI.ballot_voted n t B hb

/-- While a term has no leader, what a node kept before reaching the term it still has. -/
lemma Inv.kept_of_no_leader (hno : s.lead (s.node n).term = none) :
    Keeps s n (s.node n).term (s.node n).log := by
  intro u m K k hu hK hk
  rcases hI.acked_kept n u m K k (by omega) hK hk with hp | ⟨v, c, L, B, huv, hv, hL, hB, hp⟩
  · exact .inl hp
  have hne : v ≠ (s.node n).term := by
    rintro rfl
    exact nomatch hno.symm.trans hL
  exact .inr ⟨v, c, L, B, huv, by omega, hL, hB, hp⟩

end

lemma inv_initial : Inv P (State.initial : State ν ε) where
  log_sound _ := Sound.nil
  log_term _ e he := by simp [initial] at he
  ballot_sound _ _ _ := nofun
  ballot_term _ _ _ := nofun
  ballot_voted _ _ _ := nofun
  voted_term _ _ _ _ := nofun
  voted_sound _ _ _ _ := nofun
  voted_ballot _ _ _ _ := nofun
  voted_keeps _ _ _ _ := nofun
  vote_voted _ _ := nofun
  candidate _ := nofun
  leader _ := nofun
  lead_sound _ _ _ := nofun
  lead_ballot _ _ _ := nofun
  lead_won _ _ _ := nofun
  acked_le _ _ := nofun
  acked_kept _ _ _ _ _ _ := nofun
  commit_le _ := by simp [initial]
  committed _ := .inl (by simp [initial])

/-- A step that leaves the leaders, the acknowledgements and the logs alone: only what it does
    to ballots, votes and roles is left to check. -/
lemma Inv.revote (hI : Inv P s) (hg : Grows s s') (hl : s'.lead = s.lead)
    (ha : s'.acked = s.acked) (hlog : ∀ n, (s'.node n).log = (s.node n).log)
    (hterm : ∀ n, (s.node n).term ≤ (s'.node n).term)
    (hballot : ∀ n t B, s'.ballot n t = some B → s.ballot n t = some B ∨
      (Sound P s B ∧ 1 ≤ t ∧ (∀ e ∈ B, P.termOf e < t) ∧ s'.voted n t = some (n, B)))
    (hvoted : ∀ q t c V, s'.voted q t = some (c, V) → s.voted q t = some (c, V) ∨
      (Sound P s V ∧ (∃ B, s'.ballot c t = some B ∧ P.UpToDate B V) ∧ (s.lead t = none → Keeps s q t V)))
    (hvterm : ∀ q t c V, s'.voted q t = some (c, V) →
      t ≤ (s'.node q).term ∧ (t = (s'.node q).term → (s'.node q).vote = some c))
    (hvote : ∀ q c, (s'.node q).vote = some c → ∃ V, s'.voted q (s'.node q).term = some (c, V))
    (hcand : ∀ n, s'.role n = .candidate → s'.ballot n (s'.node n).term = some (s.node n).log ∧
        ∀ L, s.lead (s'.node n).term ≠ some (n, L))
    (hldr : ∀ n, s'.role n = .leader → s.lead (s'.node n).term = some (n, (s.node n).log))
    (hcmt : ∀ n, (s'.node n).commit ≤ (s.node n).log.length ∧
      Committed P s (s'.node n).term ((s.node n).log.take (s'.node n).commit)) : Inv P s' := by
  have hkeep : ∀ {q t V}, Keeps s q t V → Keeps s' q t V := fun {q t V} h =>
    h.grow hI hg le_rfl prefix_rfl (fun u _ => by rw [ha]) (fun u h1 h2 => by omega)
  exact {
    log_sound := fun n => by rw [hlog]; exact (hI.log_sound n).grow hg
    log_term := fun n e he => by
      rw [hlog] at he; exact (hI.log_term n e he).trans (hterm n)
    ballot_sound := fun n t B h => by
      rcases hballot n t B h with h | ⟨hB, -⟩
      · exact (hI.ballot_sound n t B h).grow hg
      · exact hB.grow hg
    ballot_term := fun n t B h => by
      rcases hballot n t B h with h | ⟨-, hpos, hlt, -⟩
      · exact hI.ballot_term n t B h
      · exact ⟨hpos, hlt⟩
    ballot_voted := fun n t B h => by
      rcases hballot n t B h with h | ⟨-, -, -, hv⟩
      · exact hg.voted _ _ _ (hI.ballot_voted n t B h)
      · exact hv
    voted_term := hvterm
    voted_sound := fun q t c V h => by
      rcases hvoted q t c V h with h | ⟨hV, -⟩
      · exact (hI.voted_sound q t c V h).grow hg
      · exact hV.grow hg
    voted_ballot := fun q t c V h => by
      rcases hvoted q t c V h with h | ⟨-, hB, -⟩
      · obtain ⟨B, hB, hup⟩ := hI.voted_ballot q t c V h
        exact ⟨B, hg.ballot _ _ _ hB, hup⟩
      · exact hB
    voted_keeps := fun q t c V h hno => by
      rw [hl] at hno
      rcases hvoted q t c V h with h | ⟨-, -, hk⟩
      · exact hkeep (hI.voted_keeps q t c V h hno)
      · exact hkeep (hk hno)
    vote_voted := hvote
    candidate := fun n h => by rw [hl, hlog]; exact hcand n h
    leader := fun n h => by rw [hl, hlog]; exact hldr n h
    lead_sound := fun t n L h => by rw [hl] at h; exact (hI.lead_sound t n L h).grow hg
    lead_ballot := fun t n L h => by
      rw [hl] at h
      obtain ⟨B, hB, hrest⟩ := hI.lead_ballot t n L h
      exact ⟨B, hg.ballot _ _ _ hB, hrest⟩
    lead_won := fun t n L h => by
      rw [hl] at h
      obtain ⟨Q, hQ, hvs⟩ := hI.lead_won t n L h
      refine ⟨Q, hQ, fun q hq => ?_⟩
      obtain ⟨V, hV, hk⟩ := hvs q hq
      exact ⟨V, hg.voted _ _ _ hV, hkeep hk⟩
    acked_le := fun q t h => by
      rw [ha] at h ⊢
      rw [hl]
      obtain ⟨hle, hex⟩ := hI.acked_le q t h
      exact ⟨hle.trans (hterm q), hex⟩
    acked_kept := fun q => by
      rw [hlog]
      refine (hI.acked_kept q).grow hI hg (by have := hterm q; omega) prefix_rfl
        (fun u _ => by rw [ha]) (fun u h1 _ => ?_)
      rw [ha]; exact hI.acked_zero (by omega)
    commit_le := fun n => by rw [hlog]; exact (hcmt n).1
    committed := fun n => by rw [hlog]; exact (hcmt n).2.grow hI hg le_rfl }

/-- A step that leaves the whole history alone, moves no term back and gives no vote. -/
lemma Inv.reframe (hI : Inv P s) (hb : s'.ballot = s.ballot) (hv : s'.voted = s.voted)
    (hl : s'.lead = s.lead) (ha : s'.acked = s.acked) (hlog : ∀ n, (s'.node n).log = (s.node n).log)
    (hvote : ∀ n, ((s'.node n).term = (s.node n).term ∧ (s'.node n).vote = (s.node n).vote) ∨
      ((s.node n).term < (s'.node n).term ∧ (s'.node n).vote = none))
    (hrole : ∀ n, s'.role n = .follower ∨ (s'.role n = s.role n ∧ (s'.node n).term = (s.node n).term))
    (hcmt : ∀ n, (s'.node n).commit ≤ (s.node n).log.length ∧
      Committed P s (s'.node n).term ((s.node n).log.take (s'.node n).commit)) : Inv P s' := by
  have hterm : ∀ n, (s.node n).term ≤ (s'.node n).term := fun n => by
    rcases hvote n with ⟨h, -⟩ | ⟨h, -⟩ <;> omega
  have hg : Grows s s' := by
    refine ⟨fun t n L h => ⟨L, by rw [hl]; exact h, prefix_rfl⟩, ?_, ?_, ?_⟩
    · intro n t B h; rw [hb]; exact h
    · intro q t v h; rw [hv]; exact h
    · intro q t; rw [ha]
  refine hI.revote hg hl ha hlog hterm (fun n t B h => .inl (hb ▸ h))
    (fun q t c V h => .inl (hv ▸ h)) ?_ ?_ ?_ ?_ hcmt
  · intro q t c V h
    rw [hv] at h
    obtain ⟨hle, heq⟩ := hI.voted_term q t c V h
    refine ⟨hle.trans (hterm q), fun ht => ?_⟩
    rcases hvote q with ⟨h1, h2⟩ | ⟨h1, -⟩
    · rw [h2]; exact heq (ht.trans h1)
    · omega
  · intro q c h
    rcases hvote q with ⟨h1, h2⟩ | ⟨-, h2⟩
    · rw [h2] at h; rw [hv, h1]; exact hI.vote_voted q c h
    · rw [h2] at h; cases h
  · intro n h
    rcases hrole n with hf | ⟨hr, ht⟩
    · rw [hf] at h; cases h
    · rw [hb, ht]; exact hI.candidate n (hr ▸ h)
  intro n h
  rcases hrole n with hf | ⟨hr, ht⟩
  · rw [hf] at h; cases h
  · rw [ht]; exact hI.leader n (hr ▸ h)

/-- A step that leaves ballots, votes and terms alone: only what it does to leaders,
    acknowledgements and logs is left to check. -/
lemma Inv.relead (hI : Inv P s) (hg : Grows s s') (hb : s'.ballot = s.ballot)
    (hv : s'.voted = s.voted) (hterm : ∀ n, (s'.node n).term = (s.node n).term)
    (hvote : ∀ n, (s'.node n).vote = (s.node n).vote)
    (hfix : ∀ q u, u < (s.node q).term → s'.acked q u = s.acked q u)
    (hlog : ∀ n, Sound P s' (s'.node n).log ∧ ∀ e ∈ (s'.node n).log, P.termOf e ≤ (s.node n).term)
    (hcand : ∀ n, s'.role n = .candidate → s.ballot n (s.node n).term = some (s'.node n).log ∧
      ∀ L, s'.lead (s.node n).term ≠ some (n, L))
    (hldr : ∀ n, s'.role n = .leader → s'.lead (s.node n).term = some (n, (s'.node n).log))
    (hlead : ∀ t n L, s'.lead t = some (n, L) → Sound P s' L ∧
      (∃ B, s.ballot n t = some B ∧ B <+: L ∧ ∀ e ∈ L, e ∈ B ∨ P.termOf e = t) ∧
      ∃ Q, P.Quorum Q ∧ ∀ q ∈ Q, ∃ V, s.voted q t = some (n, V) ∧ Keeps s q t V)
    (hacked : ∀ q t, s'.acked q t ≠ 0 →
      t ≤ (s.node q).term ∧ ∃ n L, s'.lead t = some (n, L) ∧ s'.acked q t ≤ L.length)
    (hkept : ∀ q, Keeps s' q ((s.node q).term + 1) (s'.node q).log)
    (hcmt : ∀ n, (s'.node n).commit ≤ (s'.node n).log.length ∧
      Committed P s' (s.node n).term ((s'.node n).log.take (s'.node n).commit)) : Inv P s' := by
  have hkeep : ∀ {q t V}, t ≤ (s.node q).term → Keeps s q t V → Keeps s' q t V :=
    fun {q t V} ht h => h.grow hI hg le_rfl prefix_rfl
      (fun u hu => hfix q u (hu.trans_le ht)) (fun u h1 h2 => by omega)
  exact {
    log_sound := fun n => (hlog n).1
    log_term := fun n e he => by rw [hterm]; exact (hlog n).2 e he
    ballot_sound := fun n t B h => by rw [hb] at h; exact (hI.ballot_sound n t B h).grow hg
    ballot_term := fun n t B h => by rw [hb] at h; exact hI.ballot_term n t B h
    ballot_voted := fun n t B h => by rw [hb] at h; rw [hv]; exact hI.ballot_voted n t B h
    voted_term := fun q t c V h => by
      rw [hv] at h; rw [hterm, hvote]; exact hI.voted_term q t c V h
    voted_sound := fun q t c V h => by
      rw [hv] at h; exact (hI.voted_sound q t c V h).grow hg
    voted_ballot := fun q t c V h => by
      rw [hv] at h; rw [hb]; exact hI.voted_ballot q t c V h
    voted_keeps := fun q t c V h hno => by
      rw [hv] at h
      refine hkeep (hI.voted_term q t c V h).1 (hI.voted_keeps q t c V h ?_)
      cases hs : s.lead t with
      | none => rfl
      | some w =>
        obtain ⟨L', hL', -⟩ := hg.lead t w.1 w.2 hs
        exact nomatch hno.symm.trans hL'
    vote_voted := fun q c h => by
      rw [hvote] at h; rw [hv, hterm]; exact hI.vote_voted q c h
    candidate := fun n h => by rw [hb, hterm]; exact hcand n h
    leader := fun n h => by rw [hterm]; exact hldr n h
    lead_sound := fun t n L h => (hlead t n L h).1
    lead_ballot := fun t n L h => by rw [hb]; exact (hlead t n L h).2.1
    lead_won := fun t n L h => by
      obtain ⟨Q, hQ, hvs⟩ := (hlead t n L h).2.2
      refine ⟨Q, hQ, fun q hq => ?_⟩
      obtain ⟨V, hV, hk⟩ := hvs q hq
      exact ⟨V, by rw [hv]; exact hV, hkeep (hI.voted_term q t n V hV).1 hk⟩
    acked_le := fun q t h => by rw [hterm]; exact hacked q t h
    acked_kept := fun q => by rw [hterm]; exact hkept q
    commit_le := fun n => (hcmt n).1
    committed := fun n => by rw [hterm]; exact (hcmt n).2 }

lemma lead_update {f : Nat → Option (ν × List ε)} {K : List ε}
    (h : Function.update f t (some (n, L)) u = some (m, K)) :
    (u = t ∧ m = n ∧ K = L) ∨ (u ≠ t ∧ f u = some (m, K)) := by
  rw [update_apply] at h
  split at h
  · next hu =>
    simp only [some.injEq, Prod.mk.injEq] at h
    exact .inl ⟨hu, h.1.symm, h.2.symm⟩
  · next hu => exact .inr ⟨hu, h⟩

section Steps

variable [DecidableEq ν]

lemma setRole_role (s : State ν ε) (n m : ν) (r : Standing) :
    (s.setRole n r).role m = if m = n then r else s.role m := by
  simp [setRole, update_apply]

lemma Inv.raise (hI : Inv P s) (h : (s.node n).term < t) : Inv P (s.raise n t) := by
  refine hI.reframe rfl rfl rfl rfl ?_ ?_ ?_ ?_ <;> intro m <;> by_cases hm : m = n
  all_goals
    simp only [State.raise, setRole, setNode, update_apply, hm, if_true,
      if_false, h, true_and, true_or, or_true]
  · exact ⟨hI.commit_le n, (hI.committed n).grow hI (.refl s) h.le⟩
  · exact ⟨hI.commit_le m, hI.committed m⟩

lemma Inv.stepDown (hI : Inv P s) (n : ν) : Inv P (s.setRole n .follower) := by
  refine hI.reframe rfl rfl rfl rfl (fun _ => rfl) (fun _ => .inl ⟨rfl, rfl⟩)
    (fun m => ?_) (fun m => ⟨hI.commit_le m, hI.committed m⟩)
  rw [setRole_role]
  by_cases hm : m = n
  · exact .inl (by simp [hm])
  · exact .inr ⟨by simp [hm], rfl⟩

lemma Inv.commit (hI : Inv P s) (hk : k ≤ (s.node n).log.length)
    (hc : Committed P s (s.node n).term ((s.node n).log.take k)) : Inv P (s.commit n k) := by
  refine hI.reframe rfl rfl rfl rfl ?_ ?_ (fun m => .inr ⟨rfl, ?_⟩) ?_ <;> try intro m
  all_goals
    by_cases hm : m = n
    · subst hm; simp [commit, setNode, hk, hc]
    · simp [State.commit, setNode, hm, hI.commit_le m, hI.committed m]

/-! ## Standing and voting -/

lemma Inv.stand_grows (hI : Inv P s) (n : ν) : Grows s (s.stand n) := by
  refine ⟨fun t m L h => ⟨L, h, prefix_rfl⟩, ?_, ?_, fun _ _ => le_rfl⟩
  · intro m t B h
    have hne : ¬ (m = n ∧ t = (s.node n).term + 1) := by
      rintro ⟨rfl, rfl⟩
      rw [hI.ballot_none (Nat.lt_succ_self _)] at h
      cases h
    exact (write_ne s.ballot _ hne).trans h
  intro q t v h
  have hne : ¬ (q = n ∧ t = (s.node n).term + 1) := by
    rintro ⟨rfl, rfl⟩
    rw [hI.voted_none (Nat.lt_succ_self _)] at h
    cases h
  exact (write_ne s.voted _ hne).trans h

lemma stand_node (s : State ν ε) (n m : ν) : (s.stand n).node m =
    if m = n then { s.node n with term := (s.node n).term + 1, vote := some n } else s.node m := by
  simp [stand, setNode, setRole, update_apply]

lemma stand_role (s : State ν ε) (n m : ν) : (s.stand n).role m = if m = n then .candidate else s.role m := by
  simp [stand, setNode, setRole, update_apply]

lemma stand_ballot {B : List ε} (h : (s.stand n).ballot m t = some B) :
    s.ballot m t = some B ∨ (m = n ∧ t = (s.node n).term + 1 ∧ B = (s.node n).log) := by
  change write s.ballot n _ _ m t = _ at h
  rw [write_apply] at h
  split at h
  · next hc => exact .inr ⟨hc.1, hc.2, by simpa using h.symm⟩
  · exact .inl h

lemma stand_voted (h : (s.stand n).voted m t = some (c, V)) : s.voted m t = some (c, V) ∨
      (m = n ∧ t = (s.node n).term + 1 ∧ c = n ∧ V = (s.node n).log) := by
  change write s.voted n _ _ m t = _ at h
  rw [write_apply] at h
  split at h
  · next hc =>
    simp only [some.injEq, Prod.mk.injEq] at h
    exact .inr ⟨hc.1, hc.2, h.1.symm, h.2.symm⟩
  · exact .inl h

lemma Inv.stand (hI : Inv P s) (n : ν) : Inv P (s.stand n) := by
  have hg := hI.stand_grows n
  have hterm : ∀ m, (s.node m).term ≤ ((s.stand n).node m).term := by
    intro m; rw [stand_node]; split <;> simp_all
  have hnew : (s.stand n).voted n ((s.node n).term + 1) = some (n, (s.node n).log) := by simp [State.stand]
  have hstood : (s.stand n).ballot n ((s.node n).term + 1) = some (s.node n).log := by simp [State.stand]
  refine hI.revote hg rfl rfl ?_ hterm ?_ ?_ ?_ ?_ ?_ ?_ ?_
  · intro m; rw [stand_node]; split <;> simp_all
  · intro m t B h
    rcases stand_ballot h with h | ⟨rfl, rfl, rfl⟩
    · exact .inl h
    exact .inr ⟨hI.log_sound m, by omega,
      fun e he => Nat.lt_succ_of_le (hI.log_term m e he), hnew⟩
  · intro q t c V h
    rcases stand_voted h with h | ⟨rfl, rfl, rfl, rfl⟩
    · exact .inl h
    · exact .inr ⟨hI.log_sound _, ⟨_, hstood, .inr ⟨rfl, le_rfl⟩⟩, fun _ => hI.acked_kept _⟩
  · intro q t c V h
    rcases stand_voted h with h | ⟨rfl, rfl, rfl, rfl⟩
    · obtain ⟨hle, heq⟩ := hI.voted_term q t c V h
      refine ⟨hle.trans (hterm q), fun ht => ?_⟩
      rw [stand_node] at ht ⊢
      split at ht
      · next hq => subst hq; simp only at ht; omega
      · next hq => rw [if_neg hq]; exact heq ht
    · rw [stand_node, if_pos rfl]; exact ⟨le_rfl, fun _ => rfl⟩
  · intro q c h
    rw [stand_node] at h ⊢
    split at h
    · next hq =>
      subst hq
      simp only [some.injEq] at h
      subst h
      simp only [if_true]
      exact ⟨_, hnew⟩
    next hq =>
    rw [if_neg hq]
    obtain ⟨V, hV⟩ := hI.vote_voted q c h
    exact ⟨V, hg.voted _ _ _ hV⟩
  · intro m h
    rw [stand_role] at h
    rw [stand_node]
    split at h
    · next hm =>
      subst hm
      rw [if_pos rfl]
      refine ⟨hstood, fun L hL => ?_⟩
      -- Leading the new term would mean having stood in it before.
      obtain ⟨B, hB, -⟩ := hI.lead_ballot _ m L hL
      rw [hI.ballot_none (Nat.lt_succ_self _)] at hB
      cases hB
    next hm =>
    rw [if_neg hm]
    exact ⟨hg.ballot _ _ _ (hI.candidate m h).1, (hI.candidate m h).2⟩
  · intro m h
    rw [stand_role] at h
    rw [stand_node]
    split at h
    · cases h
    · next hm => rw [if_neg hm]; exact hI.leader m h
  intro m
  have hc : ((s.stand n).node m).commit = (s.node m).commit := by rw [stand_node]; split <;> simp_all
  rw [hc]
  exact ⟨hI.commit_le m, (hI.committed m).grow hI (.refl s) (hterm m)⟩

lemma vote_node (s : State ν ε) (n c m : ν) : (s.vote n c).node m =
    if m = n then { s.node n with vote := some c } else s.node m := by
  simp [vote, setNode, update_apply]

lemma vote_voted_cases {d : ν} (h : (s.vote n c).voted m t = some (d, V)) : s.voted m t = some (d, V) ∨
      (m = n ∧ t = (s.node n).term ∧ d = c ∧ V = (s.node n).log) := by
  change write s.voted n _ _ m t = _ at h
  rw [write_apply] at h
  split at h
  · next hc =>
    simp only [some.injEq, Prod.mk.injEq] at h
    exact .inr ⟨hc.1, hc.2, h.1.symm, h.2.symm⟩
  · exact .inl h

lemma Inv.vote_grows (hI : Inv P s) (c : ν) (hfree : (s.node n).vote = none) : Grows s (s.vote n c) := by
  refine ⟨fun t m L h => ⟨L, h, prefix_rfl⟩, fun _ _ _ h => h, ?_, fun _ _ => le_rfl⟩
  intro q t v h
  have hne : ¬ (q = n ∧ t = (s.node n).term) := by
    rintro ⟨rfl, rfl⟩
    have := (hI.voted_term q _ v.1 v.2 h).2 rfl
    rw [hfree] at this
    cases this
  exact (write_ne s.voted _ hne).trans h

lemma Inv.vote (hI : Inv P s) (hfree : (s.node n).vote = none)
    (hstood : s.ballot c (s.node n).term = some L) (hup : P.UpToDate L (s.node n).log) :
    Inv P (s.vote n c) := by
  have hg := hI.vote_grows c hfree
  have hnew : (s.vote n c).voted n (s.node n).term = some (c, (s.node n).log) := by simp [State.vote]
  have hterm : ∀ m, ((s.vote n c).node m).term = (s.node m).term := by
    intro m; rw [vote_node]; split <;> simp_all
  have hlog : ∀ m, ((s.vote n c).node m).log = (s.node m).log := by intro m; rw [vote_node]; split <;> simp_all
  have hcmt : ∀ m, ((s.vote n c).node m).commit = (s.node m).commit := by
    intro m; rw [vote_node]; split <;> simp_all
  refine hI.revote hg rfl rfl hlog (fun m => (hterm m).ge) (fun m t B h => .inl h) ?_ ?_ ?_
    (fun m h => by rw [hterm]; exact hI.candidate m h)
    (fun m h => by rw [hterm]; exact hI.leader m h)
    (fun m => by rw [hterm, hcmt]; exact ⟨hI.commit_le m, hI.committed m⟩)
  · intro q t d V h
    rcases vote_voted_cases h with h | ⟨rfl, rfl, rfl, rfl⟩
    · exact .inl h
    · exact .inr ⟨hI.log_sound q, ⟨L, hstood, hup⟩, hI.kept_of_no_leader⟩
  · intro q t d V h
    rcases vote_voted_cases h with h | ⟨rfl, rfl, rfl, rfl⟩
    · rw [hterm]
      refine ⟨(hI.voted_term q t d V h).1, fun ht => ?_⟩
      have hd := (hI.voted_term q t d V h).2 ht
      rw [vote_node]
      split
      · next hq => subst hq; rw [hfree] at hd; cases hd
      · exact hd
    · rw [vote_node, if_pos rfl]; exact ⟨le_rfl, fun _ => rfl⟩
  intro q d h
  rw [hterm]
  rw [vote_node] at h
  split at h
  · next hq =>
    subst hq
    simp only [some.injEq] at h
    subst h
    exact ⟨_, hnew⟩
  obtain ⟨V, hV⟩ := hI.vote_voted q d h
  exact ⟨V, hg.voted _ _ _ hV⟩

/-! ## Leading -/

/-- Node `n` writes `L` down, as its own log and as that of the leader of its term. -/
structure Leading (s s' : State ν ε) (n : ν) (L : List ε) : Prop where
  node : ∀ m, s'.node m = if m = n then { s.node n with log := L } else s.node m
  role : ∀ m, s'.role m = if m = n then .leader else s.role m
  lead : s'.lead = Function.update s.lead (s.node n).term (some (n, L))
  acked : s'.acked = write s.acked n (s.node n).term L.length
  ballot : s'.ballot = s.ballot
  voted : s'.voted = s.voted
  longer : (s.node n).log <+: L
  first : ∀ m K, s.lead (s.node n).term = some (m, K) → m = n ∧ K <+: L

lemma append_node (s : State ν ε) (n m : ν) (e : ε) : (s.append n e).node m =
    if m = n then { s.node n with log := (s.node n).log ++ [e] } else s.node m := by
  simp [append, setNode, update_apply]

lemma Leading.elect (hno : s.lead (s.node n).term = none) : Leading s (s.elect n) n (s.node n).log where
  node m := by
    split
    · next hm => subst hm; rfl
    · rfl
  role m := by simp [State.elect, setRole, update_apply]
  lead := rfl
  acked := rfl
  ballot := rfl
  voted := rfl
  longer := prefix_rfl
  first _ _ h := nomatch hno.symm.trans h

section

variable (hI : Inv P s)

include hI

lemma Leading.append (e : ε) (hl : s.role n = .leader) : Leading s (s.append n e) n ((s.node n).log ++ [e]) where
  node m := append_node s n m e
  role m := by
    split
    · next hm => subst hm; exact hl
    · rfl
  lead := rfl
  acked := rfl
  ballot := rfl
  voted := rfl
  longer := prefix_append _ _
  first m K h := by
    rw [hI.leader n hl, some.injEq, Prod.mk.injEq] at h
    exact ⟨h.1.symm, h.2 ▸ prefix_append _ _⟩

lemma Leading.grows (h : Leading s s' n L) : Grows s s' := by
  refine ⟨fun t m K hK => ?_, fun _ _ _ hb => by rwa [h.ballot], fun _ _ _ hv => by rwa [h.voted], ?_⟩
  · rw [h.lead]
    by_cases ht : t = (s.node n).term
    · subst ht
      obtain ⟨rfl, hpre⟩ := h.first m K hK
      exact ⟨L, update_self _ _ _, hpre⟩
    · exact ⟨K, (update_of_ne ht _ _).trans hK, prefix_rfl⟩
  intro q t
  rw [h.acked, write_apply]
  split
  · next hc =>
    obtain ⟨rfl, rfl⟩ := hc
    by_cases h0 : s.acked q (s.node q).term = 0
    · omega
    obtain ⟨-, m, K, hK, hlen⟩ := hI.acked_le q _ h0
    exact hlen.trans (h.first m K hK).2.length_le
  · exact le_rfl

/-- What a leader writes down keeps the invariant, if it is sound and the leader was elected with a part of
    it. -/
lemma Inv.leading (h : Leading s s' n L) (hsnd : Sound P s' L) (hterm : ∀ e ∈ L, P.termOf e ≤ (s.node n).term)
    (hballot : ∃ B, s.ballot n (s.node n).term = some B ∧ B <+: L ∧
      ∀ e ∈ L, e ∈ B ∨ P.termOf e = (s.node n).term)
    (hwon : ∃ Q, P.Quorum Q ∧ ∀ q ∈ Q, ∃ V, s.voted q (s.node n).term = some (n, V) ∧
      Keeps s q (s.node n).term V) : Inv P s' := by
  have hg := h.grows hI
  have hnew : s'.lead (s.node n).term = some (n, L) := by rw [h.lead]; exact update_self _ _ _
  have hlead : ∀ {t m K}, s'.lead t = some (m, K) → (t = (s.node n).term ∧ m = n ∧ K = L) ∨
      (t ≠ (s.node n).term ∧ s.lead t = some (m, K)) := fun hK => lead_update (h.lead ▸ hK)
  have hacked : ∀ q u, ¬ (q = n ∧ u = (s.node n).term) → s'.acked q u = s.acked q u :=
    fun q u hne => by rw [h.acked]; exact write_ne s.acked _ hne
  have hoth : ∀ m, m ≠ n → s'.node m = s.node m := fun m hm => by rw [h.node, if_neg hm]
  have hmine : s'.node n = { s.node n with log := L } := by rw [h.node, if_pos rfl]
  refine hI.relead hg h.ballot h.voted ?_ ?_
    (fun q u hu => hacked q u (by rintro ⟨rfl, rfl⟩; omega)) ?_ ?_ ?_ ?_ ?_ ?_ ?_
  · intro m; rw [h.node]; split <;> simp_all
  · intro m; rw [h.node]; split <;> simp_all
  · intro m
    by_cases hm : m = n
    · subst hm; rw [hmine]; exact ⟨hsnd, hterm⟩
    · rw [hoth m hm]; exact ⟨(hI.log_sound m).grow hg, hI.log_term m⟩
  · intro m hr
    rw [h.role] at hr
    split at hr
    · cases hr
    next hm =>
    rw [hoth m hm]
    refine ⟨(hI.candidate m hr).1, fun K hK => ?_⟩
    rcases hlead hK with ⟨-, rfl, -⟩ | ⟨-, hK⟩
    · exact hm rfl
    · exact (hI.candidate m hr).2 K hK
  · intro m hr
    rw [h.role] at hr
    split at hr
    · next hm => subst hm; rw [hmine]; exact hnew
    next hm =>
    rw [hoth m hm, h.lead]
    refine (update_of_ne (fun heq => ?_) _ _).trans (hI.leader m hr)
    exact hm (h.first m _ (heq ▸ hI.leader m hr)).1
  · intro t m K hK
    rcases hlead hK with ⟨rfl, rfl, rfl⟩ | ⟨-, hK⟩
    · exact ⟨hsnd, hballot, hwon⟩
    · exact ⟨(hI.lead_sound t m K hK).grow hg, hI.lead_ballot t m K hK, hI.lead_won t m K hK⟩
  · intro q t hne
    by_cases hq : q = n ∧ t = (s.node n).term
    · obtain ⟨rfl, rfl⟩ := hq
      exact ⟨le_rfl, _, _, hnew, by rw [h.acked, write_same]⟩
    rw [hacked q t hq] at hne ⊢
    obtain ⟨hle, m, K, hK, hlen⟩ := hI.acked_le q t hne
    obtain ⟨K', hK', hpre⟩ := hg.lead t m K hK
    exact ⟨hle, m, K', hK', hlen.trans hpre.length_le⟩
  · intro q
    by_cases hq : q = n
    · subst hq
      rw [hmine]
      intro u m K k hu hK hk
      rcases hlead hK with ⟨rfl, -, rfl⟩ | ⟨hne, hK⟩
      · exact .inl (List.take_prefix _ _)
      rw [hacked q u (fun h => hne h.2)] at hk
      rcases hI.acked_kept q u m K k hu hK hk with hp | ho
      · exact .inl (hp.trans h.longer)
      · exact .inr (ho.grow hg le_rfl)
    rw [hoth q hq]
    exact (hI.acked_kept q).grow hI hg le_rfl prefix_rfl
      (fun u _ => hacked q u (fun h => hq h.1)) (fun u h1 h2 => by omega)
  intro m
  by_cases hm : m = n
  · subst hm
    have hle := hI.commit_le m
    have htake : L.take (s.node m).commit = (s.node m).log.take (s.node m).commit := by
      obtain ⟨r, hr⟩ := h.longer
      rw [← hr, take_append_of_le_length hle]
    rw [hmine]
    simp only [htake]
    exact ⟨hle.trans h.longer.length_le, (hI.committed m).grow hI hg le_rfl⟩
  rw [hoth m hm]
  exact ⟨hI.commit_le m, (hI.committed m).grow hI hg le_rfl⟩

lemma Inv.elect (hc : s.role n = .candidate) (hw : Won P s n (s.node n).term) : Inv P (s.elect n) := by
  have hno := hI.lead_eq_none hc hw
  have hl : Leading s (s.elect n) n (s.node n).log := .elect hno
  refine hI.leading hl ((hI.log_sound n).grow (hl.grows hI)) (hI.log_term n)
    ⟨_, (hI.candidate n hc).1, prefix_rfl, fun e he => .inl he⟩ ?_
  obtain ⟨Q, hQ, hvs⟩ := hw
  refine ⟨Q, hQ, fun q hq => ?_⟩
  obtain ⟨V, hV⟩ := hvs q hq
  exact ⟨V, hV, hI.voted_keeps q _ n V hV hno⟩

section

variable {e : ε} (hl : s.role n = .leader) (hown : P.termOf e = (s.node n).term)

include hl hown

/-- A leader's log stays sound when the leader adds an entry of its own term. -/
lemma Inv.append_sound : Sound P (s.append n e) ((s.node n).log ++ [e]) where
  sorted := by
    refine pairwise_append.mpr ⟨(hI.log_sound n).sorted, pairwise_singleton _ _, ?_⟩
    intro a ha b hb
    rw [mem_singleton.mp hb, hown]
    exact hI.log_term n a ha
  anchored p x hp := by
    rcases prefix_concat_iff.mp hp with heq | hp
    · obtain ⟨rfl, hx⟩ := append_inj' heq rfl
      obtain rfl : x = e := by simpa using hx
      exact ⟨n, _, by rw [hown]; exact update_self _ _ _, prefix_rfl⟩
    · exact ((hI.log_sound n).grow ((Leading.append hI e hl).grows hI)).anchored p x hp

lemma Inv.append : Inv P (s.append n e) := by
  have hcur := hI.leader n hl
  refine hI.leading (.append hI e hl) (hI.append_sound hl hown) ?_ ?_ (hI.lead_won _ n _ hcur)
  · intro x hx
    rcases mem_append.mp hx with hx | hx
    · exact hI.log_term n x hx
    · rw [mem_singleton.mp hx, hown]
  obtain ⟨B, hB, hpre, hall⟩ := hI.lead_ballot _ n _ hcur
  refine ⟨B, hB, hpre.trans (prefix_append _ _), fun x hx => ?_⟩
  rcases mem_append.mp hx with hx | hx
  · exact hall x hx
  · exact .inr (by rw [mem_singleton.mp hx, hown])

end

end

/-! ## Following -/

variable [DecidableEq ε]

/-- What `takeOver` leaves is the old log, which then has the leader's entries, or exactly the
    leader's entries, which the old log then lacked. -/
lemma takeOver_cases (mine theirs : List ε) (m : Nat) : (theirs.take m <+: mine ∧ takeOver mine theirs m = mine) ∨
      (¬ theirs.take m <+: mine ∧ takeOver mine theirs m = theirs.take m) := by
  by_cases h : theirs.take m <+: mine
  · exact .inl ⟨h, if_pos h⟩
  · exact .inr ⟨h, if_neg h⟩

/-- Prefixes of the old log that the leader has too survive. -/
lemma prefix_takeOver {mine theirs p : List ε} (m : Nat) (hmine : p <+: mine)
    (htheirs : p <+: theirs) : p <+: takeOver mine theirs m := by
  rcases takeOver_cases mine theirs m with ⟨-, heq⟩ | ⟨hno, heq⟩
  · rw [heq]; exact hmine
  rw [heq]
  rcases prefix_or_prefix_of_prefix htheirs (List.take_prefix m theirs) with hp | hp
  · exact hp
  · exact absurd (hp.trans hmine) hno

lemma take_prefix_takeOver (mine theirs : List ε) (m : Nat) : theirs.take m <+: takeOver mine theirs m := by
  rcases takeOver_cases mine theirs m with ⟨h, heq⟩ | ⟨-, heq⟩
  · rw [heq]; exact h
  · rw [heq]

lemma accept_node (s : State ν ε) (n m : ν) (L : List ε) (k : Nat) : (s.accept n L k).node m =
      if m = n then { s.node n with log := takeOver (s.node n).log L k } else s.node m := by
  simp [accept, setNode, setRole, update_apply]

lemma accept_grows (s : State ν ε) (n : ν) (L : List ε) (k : Nat) : Grows s (s.accept n L k) := by
  refine ⟨fun t m K h => ⟨K, h, prefix_rfl⟩, fun _ _ _ h => h, fun _ _ _ h => h, ?_⟩
  intro q t
  change _ ≤ write s.acked n _ _ q t
  rw [write_apply]
  split
  · next hc => obtain ⟨rfl, rfl⟩ := hc; exact le_max_right _ _
  · exact le_rfl

omit [DecidableEq ν] in
/-- What a node acknowledged before, it keeps over taking over a leader's log, unless that
    leader stood for election without it. -/
lemma Inv.accept_kept (hI : Inv P s) {l : ν} {m : Nat} (hL : s.lead (s.node n).term = some (l, L))
    {K : List ε} (hu : u < (s.node n).term) (hK : s.lead u = some (c, K)) (hk : k ≤ s.acked n u) :
    K.take k <+: takeOver (s.node n).log L m ∨ Overruled s u (K.take k) ((s.node n).term + 1) := by
  rcases hI.acked_kept n u c K k (by omega) hK hk with hp | ho
  · obtain ⟨B, hB, hBL, -⟩ := hI.lead_ballot _ l L hL
    by_cases hpB : K.take k <+: B
    · exact .inl (prefix_takeOver m hp (hpB.trans hBL))
    · exact .inr ⟨_, l, L, B, hu, Nat.lt_succ_self _, hL, hB, hpB⟩
  · exact .inr ho

lemma Inv.accept (hI : Inv P s) {l : ν} {m : Nat} (hL : s.lead (s.node n).term = some (l, L))
    (hm : m ≤ L.length) : Inv P (s.accept n L m) := by
  have hg := accept_grows s n L m
  have hmine : ((s.accept n L m).node n).log = takeOver (s.node n).log L m := by rw [accept_node, if_pos rfl]
  have hoth : ∀ c, c ≠ n → (s.accept n L m).node c = s.node c := fun c hc => by
    rw [accept_node, if_neg hc]
  have hrole : ∀ c, (s.accept n L m).role c = if c = n then .follower else s.role c := by
    intro c; simp [State.accept, setRole, setNode, update_apply]
  have hacked : ∀ q u, ¬ (q = n ∧ u = (s.node n).term) →
      (s.accept n L m).acked q u = s.acked q u := fun q u hne => write_ne s.acked _ hne
  have hown : (s.accept n L m).acked n (s.node n).term = max m (s.acked n (s.node n).term) := by
    simp [State.accept]
  refine hI.relead hg rfl rfl ?_ ?_ (fun q u hu => hacked q u (by rintro ⟨rfl, rfl⟩; omega)) ?_ ?_
    ?_ (fun t c K h => ⟨(hI.lead_sound t c K h).grow hg, hI.lead_ballot t c K h, hI.lead_won t c K h⟩) ?_ ?_ ?_
  · intro c; rw [accept_node]; split <;> simp_all
  · intro c; rw [accept_node]; split <;> simp_all
  · intro c
    by_cases hc : c = n
    · subst hc
      rw [hmine]
      rcases takeOver_cases (s.node c).log L m with ⟨-, heq⟩ | ⟨-, heq⟩
      · rw [heq]; exact ⟨(hI.log_sound c).grow hg, hI.log_term c⟩
      rw [heq]
      exact ⟨((hI.lead_sound _ l L hL).shorten (List.take_prefix m L)).grow hg,
        fun e he => hI.lead_term hL (mem_of_mem_take he)⟩
    · rw [hoth c hc]; exact ⟨(hI.log_sound c).grow hg, hI.log_term c⟩
  · intro c h
    rw [hrole] at h
    split at h
    · cases h
    · next hc => rw [hoth c hc]; exact hI.candidate c h
  · intro c h
    rw [hrole] at h
    split at h
    · cases h
    · next hc => rw [hoth c hc]; exact hI.leader c h
  · intro q t h
    by_cases hq : q = n ∧ t = (s.node n).term
    · obtain ⟨rfl, rfl⟩ := hq
      refine ⟨le_rfl, l, L, hL, ?_⟩
      rw [hown]
      refine max_le hm ?_
      by_contra hlt
      obtain ⟨-, l', L', hL', hlen⟩ := hI.acked_le q (s.node q).term (by omega)
      rw [hL, some.injEq, Prod.mk.injEq] at hL'
      obtain ⟨-, rfl⟩ := hL'
      exact hlt hlen
    rw [hacked q t hq] at h ⊢
    exact hI.acked_le q t h
  · intro q
    by_cases hq : q = n
    · subst hq
      rw [hmine]
      intro u c K k hu hK hk
      rcases Nat.lt_succ_iff_lt_or_eq.mp hu with hu | rfl
      · rw [hacked q u (by rintro ⟨-, rfl⟩; omega)] at hk
        rcases hI.accept_kept (m := m) hL hu hK hk with hp | ho
        · exact .inl hp
        · exact .inr (ho.grow hg le_rfl)
      rw [hown] at hk
      have hKL := hL.symm.trans hK
      simp only [some.injEq, Prod.mk.injEq] at hKL
      obtain ⟨rfl, rfl⟩ := hKL
      refine .inl ?_
      rcases le_max_iff.mp hk with hkm | hka
      · exact (List.take_prefix_take_left hkm).trans (take_prefix_takeOver _ L m)
      rcases hI.acked_kept q _ l L k hu hL hka with hp | ⟨v, -, -, -, h1, h2, -⟩
      · exact prefix_takeOver m hp (List.take_prefix k L)
      · omega
    rw [hoth q hq]
    exact (hI.acked_kept q).grow hI hg le_rfl prefix_rfl
      (fun u _ => hacked q u (fun h => hq h.1)) (fun u h1 h2 => by omega)
  intro c
  by_cases hc : c = n
  · subst hc
    have hcc : ((s.accept c L m).node c).commit = (s.node c).commit := by rw [accept_node, if_pos rfl]
    have hle := hI.commit_le c
    -- The committed prefix is in the leader's log, so taking that over does not lose it.
    have hp : (s.node c).log.take (s.node c).commit <+: takeOver (s.node c).log L m :=
      prefix_takeOver m (List.take_prefix _ _)
        (hI.committed_prefix (hI.committed c) le_rfl hL)
    have hlen : ((s.node c).log.take (s.node c).commit).length = (s.node c).commit := by
      rw [length_take]; omega
    have hcut := prefix_iff_eq_take.mp hp
    rw [hlen] at hcut
    rw [hmine, hcc, ← hcut]
    exact ⟨hlen ▸ hp.length_le, (hI.committed c).grow hI hg le_rfl⟩
  rw [hoth c hc]
  exact ⟨hI.commit_le c, (hI.committed c).grow hI hg le_rfl⟩

/-! ## Steps and runs -/

lemma Step.keeps_inv (hI : Inv P s) (h : Step P s s') : Inv P s' := by
  cases h with
  | raise _ _ later => exact hI.raise later
  | stand n => exact hI.stand n
  | vote _ _ _ free standing fresh => exact hI.vote free standing fresh
  | elect _ candidate won => exact hI.elect candidate won
  | append _ _ leader own => exact hI.append leader own
  | accept _ _ _ _ leader short => exact hI.accept leader short
  | commit _ _ held _ decided => exact hI.commit held decided
  | stepDown n => exact hI.stepDown n

lemma Step.grows (hI : Inv P s) (h : Step P s s') : Grows s s' := by
  cases h with
  | raise _ t | stepDown => exact ⟨fun t m L h => ⟨L, h, prefix_rfl⟩, fun _ _ _ h => h,
      fun _ _ _ h => h, fun _ _ => le_rfl⟩
  | stand n => exact hI.stand_grows n
  | vote _ c _ free => exact hI.vote_grows c free
  | elect _ candidate won => exact (Leading.elect (hI.lead_eq_none candidate won)).grows hI
  | append _ e leader => exact (Leading.append hI e leader).grows hI
  | accept n _ L m => exact accept_grows s n L m
  | commit => exact ⟨fun t m L h => ⟨L, h, prefix_rfl⟩,
      fun _ _ _ h => h, fun _ _ _ h => h, fun _ _ => le_rfl⟩

lemma Run.keeps_inv (hI : Inv P s) (h : Run P s s') : Inv P s' := h.preserves (fun hI hs => hs.keeps_inv hI) hI

lemma Run.grows (hI : Inv P s) (h : Run P s s') : Grows s s' := by
  induction h with
  | refl => exact .refl s
  | tail hr hs ih => exact ih.trans (hs.grows (hr.keeps_inv hI))

end Steps

end Crane.Consensus
