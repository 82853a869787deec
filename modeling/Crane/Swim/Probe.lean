import Crane.Swim.Engine
import Mathlib.Data.List.Sort

/-!
# The rotation of probes

`swim/probe.go`: the peer to probe next is taken from a shuffled list of the peers that were alive when
the list was made. The list is stale. Whoever is not alive any more is passed over, and when nobody is left
on it a new one is made in the same call.

What is left of the list, and how many lists there have been, decide everything. `Selects` is the loop in
these terms, and each fact about rotations is a fact about one of its iterations. How long a peer may have to
wait is bounded by what is left, and by one more list if it is not on this one (`wait`).
-/

namespace Crane.Swim

open List

/-- The records in the order of the nodes, in which the table keeps them. -/
def Table.snapshot (t : Table) : List Member := t.members.entries.map Prod.snd

def probeable (selfID : NodeID) (m : Member) : Bool := m.nodeID ≠ selfID && m.status = .alive

def eligible (members : List Member) (selfID : NodeID) : List NodeID :=
  (members.filter (probeable selfID)).map (·.nodeID)

structure ProbeSelector where
  order : List NodeID
  index : Nat
  /-- How many lists have been made. The source has no use for it. -/
  rotation : Nat

/-- What one call finds: the membership of the moment, and what the source of randomness would make of a
list. -/
structure Call where
  table : Table
  valid : table.Valid
  shuffle : List NodeID → List NodeID
  perm : ∀ order, (shuffle order).Perm order

namespace ProbeSelector

def new : ProbeSelector := ⟨[], 0, 0⟩

/-- The loop of a call, for so many iterations; `none` when they are not enough. -/
def next (members : List Member) (selfID : NodeID) (shuffle : List NodeID → List NodeID) :
    Nat → ProbeSelector → Option (Option Member × ProbeSelector)
  | 0, _ => none
  | fuel + 1, s =>
    let s := if s.order.length ≤ s.index then
        ⟨shuffle ((eligible members selfID).insertionSort (· ≤ ·)), 0, s.rotation + 1⟩
      else s
    match s.order[s.index]? with
    -- the list that was made is empty, and there was nothing to shuffle
    | none => some (none, s)
    | some nodeID =>
      let s := { s with index := s.index + 1 }
      -- the last record of a node is the one that the source's map holds
      match (members.reverse.find? (·.nodeID = nodeID)).filter (probeable selfID) with
      | some member => some (some member, s)
      | none => next members selfID shuffle fuel s

/-- The peers of the list that have not had their turn. -/
def left (s : ProbeSelector) : List NodeID := s.order.drop s.index

end ProbeSelector

namespace Call

def eligible (call : Call) (selfID : NodeID) : List NodeID := Swim.eligible call.table.snapshot selfID

/-- One pass over who is left, and one iteration for a new list, are enough. -/
def next (call : Call) (selfID : NodeID) (s : ProbeSelector) : Option (Option Member × ProbeSelector) :=
  ProbeSelector.next call.table.snapshot selfID call.shuffle (s.left.length + 1) s

end Call

/-- Calls one after the other, and the peers that they pick, each with the number of its list. -/
inductive Run (selfID : NodeID) : ProbeSelector → List Call → List (Nat × NodeID) → ProbeSelector → Prop
  | nil {s : ProbeSelector} : Run selfID s [] [] s
  | cons {s s' last : ProbeSelector} {call : Call} {picked : Option Member} {calls : List Call}
      {turns : List (Nat × NodeID)} (hnext : call.next selfID s = some (picked, s'))
      (hrun : Run selfID s' calls turns last) :
      Run selfID s (call :: calls) ((picked.map fun m => (s'.rotation, m.nodeID)).toList ++ turns) last

/-- The iterations of a call, by the number of the list and who is left on it. -/
inductive Selects (call : Call) (selfID : NodeID) : Nat → List NodeID → Option Member → Nat → List NodeID → Prop
  | pick {m : Member} (hm : m ∈ call.table.snapshot) (hok : probeable selfID m = true) :
      Selects call selfID r (m.nodeID :: left) (some m) r left
  | skip (hnot : other ∉ call.eligible selfID) (h : Selects call selfID r left picked r' left') :
      Selects call selfID r (other :: left) picked r' left'
  | refill (hperm : left.Perm (call.eligible selfID)) (h : Selects call selfID (r + 1) left picked r' left') :
      Selects call selfID r [] picked r' left'
  | nobody (hnone : call.eligible selfID = []) : Selects call selfID r [] none r []

variable {selfID peer : NodeID} {s s' last : ProbeSelector} {call : Call} {picked : Option Member}
variable {calls : List Call} {turns : List (Nat × NodeID)} {n r r' : Nat} {left left' : List NodeID}

namespace Call

lemma snapshot_keys (call : Call) : call.table.snapshot.map (·.nodeID) = call.table.members.keys := by
  rw [Table.snapshot, Data.Table.keys, map_map]
  refine map_congr_left fun e he => ?_
  exact call.valid.members_key (Data.Table.find?_eq_some.mpr he)

lemma nodup_snapshot (call : Call) : (call.table.snapshot.map (·.nodeID)).Nodup := by
  rw [snapshot_keys, Data.Table.keys, List.Nodup, pairwise_map]
  refine call.table.members.sorted.imp ?_
  intro a b hlt heq
  rw [heq] at hlt
  exact lt_irrefl _ hlt

lemma nodup_eligible (call : Call) (selfID : NodeID) : (call.eligible selfID).Nodup :=
  call.nodup_snapshot.sublist (filter_sublist.map _)

lemma mem_eligible : peer ∈ call.eligible selfID ↔
    ∃ m ∈ call.table.snapshot, m.nodeID = peer ∧ probeable selfID m = true := by
  simp only [Call.eligible, Swim.eligible, mem_map, mem_filter]
  exact ⟨fun ⟨m, ⟨hm, hok⟩, hid⟩ => ⟨m, hm, hid, hok⟩, fun ⟨m, hm, hid, hok⟩ => ⟨m, ⟨hm, hok⟩, hid⟩⟩

/-- The record that is looked up is the one of the snapshot. -/
lemma find_eq_some {m : Member} : (call.table.snapshot.reverse.find? (·.nodeID = peer)).filter
      (probeable selfID) = some m ↔ m ∈ call.table.snapshot ∧ m.nodeID = peer ∧ probeable selfID m = true := by
  rw [Option.filter_eq_some_iff]
  constructor
  · rintro ⟨hfind, hok⟩
    exact ⟨mem_reverse.mp (mem_of_find?_eq_some hfind), by simpa using find?_some hfind, hok⟩
  rintro ⟨hm, hid, hok⟩
  refine ⟨?_, hok⟩
  cases hfind : call.table.snapshot.reverse.find? (·.nodeID = peer) with
  | none => exact absurd hid (by simpa using find?_eq_none.mp hfind m (mem_reverse.mpr hm))
  | some other =>
    have hoth : other.nodeID = peer := by simpa using find?_some hfind
    rw [inj_on_of_nodup_map call.nodup_snapshot (mem_reverse.mp (mem_of_find?_eq_some hfind)) hm
      (hoth.trans hid.symm)]

end Call

/-! ## One call -/

lemma next_spec {fuel : Nat} (h : s.left.length < fuel) : ∃ picked s',
    ProbeSelector.next call.table.snapshot selfID call.shuffle fuel s = some (picked, s') ∧
      Selects call selfID s.rotation s.left picked s'.rotation s'.left := by
  -- an iteration takes one peer off the list, until there is none
  induction fuel generalizing s with
  | zero => exact absurd h (Nat.not_lt_zero _)
  | succ fuel ih =>
    unfold ProbeSelector.next
    by_cases hend : s.order.length ≤ s.index
    · rw [show s.left = [] from drop_eq_nil_of_le hend]
      have hperm : (call.shuffle ((Swim.eligible call.table.snapshot selfID).insertionSort (· ≤ ·))).Perm
          (call.eligible selfID) := (call.perm _).trans (perm_insertionSort _ _)
      simp only [hend, if_true]
      generalize call.shuffle _ = order at hperm ⊢
      cases order with
      | nil => exact ⟨none, _, rfl, .refill hperm (.nobody hperm.symm.eq_nil)⟩
      | cons =>
        obtain ⟨m, hm, rfl, hok⟩ := Call.mem_eligible.mp (hperm.subset mem_cons_self)
        simp only [getElem?_cons_zero, Call.find_eq_some.mpr ⟨hm, rfl, hok⟩]
        exact ⟨some m, _, rfl, .refill hperm (.pick hm hok)⟩
    rw [not_le] at hend
    rw [show s.left = s.order[s.index] :: s.order.drop (s.index + 1) from drop_eq_getElem_cons hend] at h ⊢
    simp only [not_le.mpr hend, if_false, getElem?_eq_getElem hend]
    cases hfind : (call.table.snapshot.reverse.find? (·.nodeID = s.order[s.index])).filter (probeable selfID) with
    | some m =>
      obtain ⟨hm, hid, hok⟩ := Call.find_eq_some.mp hfind
      rw [← hid]
      exact ⟨some m, _, rfl, .pick hm hok⟩
    | none =>
      obtain ⟨picked, s', hnext, hsel⟩ := @ih ⟨s.order, s.index + 1, s.rotation⟩ (Nat.lt_of_succ_lt_succ h)
      refine ⟨picked, s', hnext, .skip ?_ hsel⟩
      intro hmem
      obtain ⟨m, hm⟩ := Call.mem_eligible.mp hmem
      rw [Call.find_eq_some.mpr hm] at hfind
      cases hfind

lemma Call.selects (h : call.next selfID s = some (picked, s')) :
    Selects call selfID s.rotation s.left picked s'.rotation s'.left := by
  obtain ⟨_, _, hnext, hsel⟩ := @next_spec selfID s call _ (Nat.lt_succ_self _)
  cases h.symm.trans hnext
  exact hsel

/-- Whoever is picked is alive, and nobody is only if nobody is. -/
lemma Selects.alive (h : Selects call selfID r left picked r' left') :
    (∀ m ∈ picked, m ∈ call.table.snapshot ∧ m.nodeID ≠ selfID ∧ m.status = .alive) ∧
      (picked = none → call.eligible selfID = []) := by
  induction h with
  | pick hm hok =>
    refine ⟨?_, nofun⟩
    rintro m ⟨⟩
    exact ⟨hm, by simpa [probeable] using hok⟩
  | skip _ _ ih | refill _ _ ih => exact ih
  | nobody hnone => exact ⟨nofun, fun _ => hnone⟩

/-! ## Rotations -/

/-- The turns that may still come: of who is left, and any on a later list. -/
def Ahead (r : Nat) (left : List NodeID) (turn : Nat × NodeID) : Prop := r < turn.1 ∨ turn.1 = r ∧ turn.2 ∈ left

lemma Ahead.cons {turn : Nat × NodeID} (id : NodeID) (h : Ahead r left turn) : Ahead r (id :: left) turn :=
  h.imp_right fun h => ⟨h.1, mem_cons_of_mem _ h.2⟩

/-- The turn that is taken was ahead, and is not any more. -/
lemma Selects.ahead (h : Selects call selfID r left picked r' left') (hnodup : left.Nodup) : left'.Nodup ∧
    (∀ turn, Ahead r' left' turn → Ahead r left turn) ∧
      ∀ m ∈ picked, Ahead r left (r', m.nodeID) ∧ ¬ Ahead r' left' (r', m.nodeID) := by
  induction h with
  | pick =>
    obtain ⟨hnot, hnodup⟩ := nodup_cons.mp hnodup
    refine ⟨hnodup, fun _ h => h.cons _, ?_⟩
    rintro m ⟨⟩
    refine ⟨.inr ⟨rfl, mem_cons_self⟩, ?_⟩
    rintro (hlt | ⟨-, hmem⟩)
    · exact lt_irrefl _ hlt
    · exact hnot hmem
  | skip _ _ ih =>
    obtain ⟨hnodup, hmono, htaken⟩ := ih hnodup.of_cons
    exact ⟨hnodup, fun turn h => (hmono turn h).cons _, fun m hm => ⟨(htaken m hm).1.cons _, (htaken m hm).2⟩⟩
  | @refill r left _ _ _ hperm _ ih =>
    have hlater : ∀ turn, Ahead (r + 1) left turn → Ahead r [] turn := by
      rintro turn (hlt | ⟨heq, -⟩)
      · exact .inl (Nat.lt_of_succ_lt hlt)
      · exact .inl (heq ▸ Nat.lt_succ_self _)
    obtain ⟨hnodup, hmono, htaken⟩ := ih (hperm.nodup_iff.mpr (call.nodup_eligible selfID))
    exact ⟨hnodup, fun turn h => hlater turn (hmono turn h),
      fun m hm => ⟨hlater _ (htaken m hm).1, (htaken m hm).2⟩⟩
  | nobody => exact ⟨nodup_nil, fun _ h => h, nofun⟩

lemma Run.turns_ahead (h : Run selfID s calls turns last) (hs : s.left.Nodup) :
    turns.Nodup ∧ ∀ turn ∈ turns, Ahead s.rotation s.left turn := by
  induction h with
  | nil => exact ⟨nodup_nil, nofun⟩
  | @cons _ _ _ _ picked _ _ hnext _ ih =>
    obtain ⟨hnodup, hmono, htaken⟩ := (Call.selects hnext).ahead hs
    obtain ⟨hturns, hahead⟩ := ih hnodup
    have hlater := fun turn hmem => hmono turn (hahead turn hmem)
    cases picked with
    | none => exact ⟨hturns, hlater⟩
    | some m =>
      obtain ⟨hbefore, hafter⟩ := htaken m rfl
      exact ⟨nodup_cons.mpr ⟨fun hmem => hafter (hahead _ hmem), hturns⟩, forall_mem_cons.mpr ⟨hbefore, hlater⟩⟩

/-! ## Waiting -/

/-- How many calls a peer may have to wait, when no more than `n` are alive at a time. -/
def wait (n : Nat) (peer : NodeID) : List NodeID → Nat
  | [] => n
  | id :: left => if id = peer then 1 else wait n peer left + 1

lemma wait_cons {id : NodeID} (hne : id ≠ peer) : wait n peer (id :: left) = wait n peer left + 1 := if_neg hne

lemma wait_pos (hn : 0 < n) : 0 < wait n peer left := by
  cases left with
  | nil => exact hn
  | cons =>
    rw [wait]
    split <;> exact Nat.succ_pos _

lemma wait_le_add : wait n peer left ≤ left.length + n := by
  induction left with
  | nil => exact Nat.le_add_left _ _
  | cons =>
    rw [wait, length_cons]
    split <;> omega

lemma wait_le_length (h : peer ∈ left) : wait n peer left ≤ left.length := by
  induction left with
  | nil => cases h
  | cons id left ih =>
    by_cases hid : id = peer
    · rw [wait, if_pos hid]
      exact Nat.succ_pos _
    · rw [wait_cons hid]
      exact Nat.succ_le_succ (ih (mem_of_ne_of_mem (Ne.symm hid) h))

section Crowd

variable (hn : ∀ call ∈ calls, (call.eligible selfID).length ≤ n)

lemma Selects.length_le (h : Selects call selfID r left picked r' left')
    (hn : (call.eligible selfID).length ≤ n) (hleft : left.length ≤ n) : left'.length ≤ n := by
  induction h with
  | pick => exact Nat.le_of_succ_le hleft
  | skip _ _ ih => exact ih (Nat.le_of_succ_le hleft)
  | refill hperm _ ih => exact ih (hperm.length_eq ▸ hn)
  | nobody => exact hleft

lemma Selects.wait_lt (h : Selects call selfID r left picked r' left')
    (hn : (call.eligible selfID).length ≤ n) (halive : peer ∈ call.eligible selfID) :
    (∃ m ∈ picked, m.nodeID = peer) ∨ wait n peer left' < wait n peer left := by
  induction h with
  | @pick _ _ m =>
    by_cases hm : m.nodeID = peer
    · exact .inl ⟨m, rfl, hm⟩
    · exact .inr (wait_cons hm ▸ Nat.lt_succ_self _)
  | skip hid _ ih =>
    rw [wait_cons (ne_of_mem_of_not_mem halive hid).symm]
    exact ih.imp_right Nat.lt_succ_of_lt
  | refill hperm _ ih =>
    refine ih.imp_right fun hlt => hlt.trans_le ?_
    exact (wait_le_length (hperm.mem_iff.mpr halive)).trans (hperm.length_eq ▸ hn)
  | nobody hnone =>
    rw [hnone] at halive
    cases halive

include hn

lemma Run.length_le (h : Run selfID s calls turns last) (hs : s.left.length ≤ n) : last.left.length ≤ n := by
  induction h with
  | nil => exact hs
  | cons hnext _ ih =>
    obtain ⟨hcall, hcalls⟩ := forall_mem_cons.mp hn
    exact ih hcalls ((Call.selects hnext).length_le hcall hs)

lemma Run.wait_le (h : Run selfID s calls turns last) (halive : ∀ call ∈ calls, peer ∈ call.eligible selfID) :
    (∃ turn ∈ turns, turn.2 = peer) ∨ wait n peer last.left + calls.length ≤ wait n peer s.left := by
  induction h with
  | nil => exact .inr le_rfl
  | cons hnext _ ih =>
    obtain ⟨hlen, hlens⟩ := forall_mem_cons.mp hn
    obtain ⟨hcall, hcalls⟩ := forall_mem_cons.mp halive
    rcases (Call.selects hnext).wait_lt hlen hcall with ⟨m, rfl, hm⟩ | hlt
    · exact .inl ⟨_, mem_cons_self, hm⟩
    rcases ih hlens hcalls with ⟨turn, hmem, hturn⟩ | hle
    · exact .inl ⟨turn, mem_append_right _ hmem, hturn⟩
    · exact .inr (by rw [length_cons]; omega)

end Crowd

/-- A call returns, with somebody alive if there is any. Nobody has two turns on one list. Where at most `n`
peers are alive at a time, whoever stays alive is picked in any `2 * n` calls. -/
theorem probes_rotate (selfID : NodeID) :
    (∀ (call : Call) (s : ProbeSelector) (fuel : Nat), s.left.length < fuel → ∃ picked s',
      ProbeSelector.next call.table.snapshot selfID call.shuffle fuel s = some (picked, s') ∧
        (∀ m ∈ picked, m ∈ call.table.snapshot ∧ m.nodeID ≠ selfID ∧ m.status = .alive) ∧
          (picked = none → call.eligible selfID = [])) ∧
    ∀ past turns s, Run selfID .new past turns s → turns.Nodup ∧
      ∀ n window turns' s', Run selfID s window turns' s' → 0 < n → window.length = 2 * n →
        (∀ call ∈ past ++ window, (call.eligible selfID).length ≤ n) →
        ∀ peer, (∀ call ∈ window, peer ∈ call.eligible selfID) → ∃ turn ∈ turns', turn.2 = peer := by
  constructor
  · intro call s fuel hfuel
    obtain ⟨picked, s', hnext, hsel⟩ := @next_spec selfID s call fuel hfuel
    exact ⟨picked, s', hnext, hsel.alive⟩
  intro past turns s hpast
  refine ⟨(hpast.turns_ahead nodup_nil).1, ?_⟩
  intro n window turns' s' hwindow hpos hlen hn peer halive
  obtain ⟨hbefore, hafter⟩ := forall_mem_append.mp hn
  rcases hwindow.wait_le hafter halive with hturn | hle
  · exact hturn
  -- it would have waited for two lists, and would still have to wait
  have hfirst := @wait_le_add peer n s.left
  have hlast := @wait_pos peer n s'.left hpos
  have hleft := hpast.length_le hbefore (Nat.zero_le n)
  omega

/-- A call once an engine was told so much, with a shuffle that turns the list around. -/
def sampleCall (inputs : List Engine.Input) : Call where
  table := ((Engine.new Engine.sampleConfig).run inputs).table
  valid := (Engine.run_learnt inputs .new).1
  shuffle := reverse
  perm := reverse_perm

/-- Nodes 2, 3 and 4 are alive. -/
def three : List Engine.Input := [2, 3, 4].map fun id => Engine.sampleUpdate id 1 .alive

/-- Node 3 dies and node 5 joins. -/
def changed : List Engine.Input := three ++ [Engine.sampleUpdate 3 1 .dead, Engine.sampleUpdate 5 1 .alive]

/-- The first list is out of date after one turn: node 3 is passed over, and node 5 has its turn on the list
that is made next. -/
theorem probes_rotate_changed : ∃ s s' turns, Run 1 .new [sampleCall three] [(1, 4)] s ∧
    Run 1 s (replicate 6 (sampleCall changed)) turns s' ∧
    turns = [(1, 2), (2, 5), (2, 4), (2, 2), (3, 5), (3, 4)] ∧ ∃ turn ∈ turns, turn.2 = 5 := by
  let alive (id : NodeID) : Option Member := some ⟨id, "localhost", 7000, 1, .alive⟩
  have hpast : Run 1 .new [sampleCall three] [(1, 4)] ⟨[4, 3, 2], 1, 1⟩ :=
    @Run.cons 1 .new ⟨[4, 3, 2], 1, 1⟩ _ _ (alive 4) _ _ rfl .nil
  have hrun : Run 1 ⟨[4, 3, 2], 1, 1⟩ (replicate 6 (sampleCall changed))
      [(1, 2), (2, 5), (2, 4), (2, 2), (3, 5), (3, 4)] ⟨[5, 4, 2], 2, 3⟩ := by
    refine @Run.cons 1 _ ⟨[4, 3, 2], 3, 1⟩ _ _ (alive 2) _ _ rfl ?_
    refine @Run.cons 1 _ ⟨[5, 4, 2], 1, 2⟩ _ _ (alive 5) _ _ rfl ?_
    refine @Run.cons 1 _ ⟨[5, 4, 2], 2, 2⟩ _ _ (alive 4) _ _ rfl ?_
    refine @Run.cons 1 _ ⟨[5, 4, 2], 3, 2⟩ _ _ (alive 2) _ _ rfl ?_
    refine @Run.cons 1 _ ⟨[5, 4, 2], 1, 3⟩ _ _ (alive 5) _ _ rfl ?_
    exact @Run.cons 1 _ ⟨[5, 4, 2], 2, 3⟩ _ _ (alive 4) _ _ rfl .nil
  refine ⟨_, _, _, hpast, hrun, rfl, ((probes_rotate 1).2 _ _ _ hpast).2 3 _ _ _ hrun (by decide) rfl ?_ 5 ?_⟩
  · decide
  · decide

end Crane.Swim
