import Mathlib.Data.Fintype.Card
import Mathlib.Data.Fintype.EquivFin
import Mathlib.Data.List.Nodup
import Mathlib.Logic.Relation
import Crane.Model.Sources

/-!
# The graph of a topology

What the graph checks of `ValidateTopology` decide. `topologicalOrder` takes away the stages without an
incoming edge one after the other; it reaches all of them exactly when there is no cycle, and what it
returns is then an order in which every edge goes forward. `allReachable` and `allCanReach` count what
a breadth-first search finds from the source, and backwards from the sink.

Edges may be parallel, so a degree counts edges and not neighbours. The loops are modelled with fuel; a
stage enters either queue at most once, so the fuel they are given is never used up.
-/

namespace Crane.Model

open Wire Data List Relation Table Function

variable {edges es : List EdgeSpec} {ids queue done seen : List U16} {a b id v start : U16}

/-- Some edge goes from the one stage to the other. -/
def Feeds (edges : List EdgeSpec) (a b : U16) : Prop :=
  ∃ edge ∈ edges, edge.sourceStageID = a ∧ edge.destinationStageID = b

/-- The edges stay among the stages. -/
def Among (edges : List EdgeSpec) (ids : List U16) : Prop :=
  ∀ edge ∈ edges, edge.sourceStageID ∈ ids ∧ edge.destinationStageID ∈ ids ∧
    edge.sourceStageID ≠ edge.destinationStageID

lemma mem_destinations : b ∈ (outgoing edges a).map (·.destinationStageID) ↔ Feeds edges a b := by
  simp [outgoing, Feeds, and_assoc]

lemma mem_sources : a ∈ (incoming edges b).map (·.sourceStageID) ↔ Feeds edges a b := by
  simp [incoming, Feeds, and_comm, and_left_comm]

lemma length_eq_iff_covers (hseen : seen.Nodup) (hids : ids.Nodup) (hsub : seen ⊆ ids) :
    seen.length = ids.length ↔ ∀ x ∈ ids, x ∈ seen := by
  constructor
  · intro hlen x hx
    exact ((subperm_of_subset hseen hsub).perm_of_length_le hlen.ge).mem_iff.mpr hx
  intro hall
  exact ((perm_ext_iff_of_nodup hseen hids).mpr fun x => ⟨(hsub ·), hall x⟩).length_eq

/-! ## Searching -/

lemma fresh_spec (found : List U16) : ∀ acc, (seen ++ acc).Nodup →
    let fresh := found.foldl (fun acc n => if n ∈ seen ++ acc then acc else acc ++ [n]) acc
    (seen ++ fresh).Nodup ∧ ∀ x, x ∈ seen ++ fresh ↔ x ∈ seen ++ acc ∨ x ∈ found := by
  induction found with
  | nil =>
    intro acc hacc
    exact ⟨hacc, by simp⟩
  | cons n rest ih =>
    intro acc hacc
    rw [foldl_cons]
    split
    · rename_i hn
      obtain ⟨hnodup, hmem⟩ := ih acc hacc
      refine ⟨hnodup, fun x => (hmem x).trans ?_⟩
      rw [mem_cons]
      constructor
      · exact fun h => h.imp_right .inr
      rintro (h | rfl | h)
      exacts [.inl h, .inl hn, .inr h]
    rename_i hn
    have hnext : (seen ++ (acc ++ [n])).Nodup := by
      rw [← append_assoc, nodup_append]
      refine ⟨hacc, nodup_singleton n, ?_⟩
      rintro x hx y hy rfl
      exact hn (mem_singleton.mp hy ▸ hx)
    obtain ⟨hnodup, hmem⟩ := ih _ hnext
    refine ⟨hnodup, fun x => (hmem x).trans ?_⟩
    simp [or_assoc]

section Search

variable {next : U16 → List U16}

/-- A search that has taken `done` from its queue and still has `queue` in it. -/
structure Searching (next : U16 → List U16) (ids : List U16) (start : U16) (done queue : List U16) : Prop where
  nodup : (done ++ queue).Nodup
  among : ∀ x ∈ done ++ queue, x ∈ ids
  reached : ∀ x ∈ done ++ queue, ReflTransGen (fun a b => b ∈ next a) start x
  started : start ∈ done ++ queue
  closed : ∀ x ∈ done, ∀ y ∈ next x, y ∈ done ++ queue

lemma Searching.step (hnext : ∀ x ∈ ids, ∀ y ∈ next x, y ∈ ids) (h : Searching next ids start done (id :: queue)) :
    ∃ fresh, (next id).foldl (fun acc n => if n ∈ (done ++ id :: queue) ++ acc then acc else acc ++ [n]) [] = fresh ∧
      Searching next ids start (done ++ [id]) (queue ++ fresh) := by
  refine ⟨_, rfl, ?_⟩
  obtain ⟨hnodup, hmem⟩ := @fresh_spec (done ++ id :: queue) (next id) [] (by simpa using h.nodup)
  generalize (next id).foldl _ [] = fresh at hnodup hmem
  have hid : id ∈ done ++ id :: queue := mem_append_right _ mem_cons_self
  have heq : done ++ [id] ++ (queue ++ fresh) = done ++ id :: queue ++ fresh := by simp
  simp only [append_nil] at hmem
  refine ⟨heq ▸ hnodup, ?_, ?_, ?_, ?_⟩
  · rw [heq]
    intro x hx
    cases (hmem x).mp hx with
    | inl hold => exact h.among x hold
    | inr hnew => exact hnext id (h.among id hid) x hnew
  · rw [heq]
    intro x hx
    cases (hmem x).mp hx with
    | inl hold => exact h.reached x hold
    | inr hnew => exact (h.reached id hid).tail hnew
  · rw [heq]
    exact mem_append_left _ h.started
  rw [heq]
  intro x hx y hy
  cases mem_append.mp hx with
  | inl hold => exact (hmem y).mpr (.inl (h.closed x hold y hy))
  | inr hlast => exact (hmem y).mpr (.inr (mem_singleton.mp hlast ▸ hy))

/-- With fuel for every stage a search ends by itself, and has then found what can be reached. -/
lemma Searching.loop (hnext : ∀ x ∈ ids, ∀ y ∈ next x, y ∈ ids) (extra fuel : Nat) :
    ∀ queue done, Searching next ids start done queue → ids.length < fuel + done.length →
      reachLoop next (fuel + extra) queue (done ++ queue) = reachLoop next fuel queue (done ++ queue) ∧
      (reachLoop next fuel queue (done ++ queue)).Nodup ∧
      (∀ x ∈ reachLoop next fuel queue (done ++ queue), x ∈ ids) ∧
      ∀ x, x ∈ reachLoop next fuel queue (done ++ queue) ↔ ReflTransGen (fun a b => b ∈ next a) start x := by
  induction fuel with
  | zero =>
    intro queue done h hfuel
    have hlen := (subperm_of_subset h.nodup h.among).length_le
    rw [length_append] at hlen
    omega
  | succ fuel ih =>
    intro queue done h hfuel
    cases queue with
    | nil =>
      rw [Nat.succ_add]
      refine ⟨rfl, h.nodup, h.among, fun x => ⟨h.reached x, fun hx => ?_⟩⟩
      simp only [reachLoop, append_nil]
      have hstart := h.started
      have hcls := h.closed
      simp only [append_nil] at hstart hcls
      induction hx with
      | refl => exact hstart
      | tail _ hstep hprev => exact hcls _ hprev _ hstep
    | cons id queue =>
      obtain ⟨fresh, hfrs, hstep⟩ := h.step hnext
      have heq : done ++ id :: queue ++ fresh = done ++ [id] ++ (queue ++ fresh) := by simp
      rw [Nat.succ_add]
      simp only [reachLoop, hfrs, heq]
      refine ih _ _ hstep ?_
      rw [length_append, length_singleton]
      omega

lemma searching_start (hstart : start ∈ ids) : Searching next ids start [] [start] where
  nodup := nodup_singleton start
  among := by simpa using hstart
  reached := by
    intro x hx
    rw [nil_append, mem_singleton] at hx
    exact hx ▸ .refl
  started := mem_singleton_self start
  closed := nofun

lemma reachLoop_iff (hids : ids.Nodup) (hnext : ∀ x ∈ ids, ∀ y ∈ next x, y ∈ ids) (hstart : start ∈ ids) :
    (reachLoop next (ids.length + 1) [start] [start]).length = ids.length ↔
      ∀ x ∈ ids, ReflTransGen (fun a b => b ∈ next a) start x := by
  obtain ⟨-, hnodup, hsub, hmem⟩ :=
    Searching.loop hnext 0 (ids.length + 1) _ _ (searching_start hstart) (by simp)
  refine (length_eq_iff_covers hnodup hids hsub).trans ?_
  simp only [hmem]

end Search

variable (hids : ids.Nodup) (hamong : Among edges ids)

lemma Among.next (hamong : Among edges ids) :
    (∀ x ∈ ids, ∀ y ∈ (outgoing edges x).map (·.destinationStageID), y ∈ ids) ∧
      ∀ x ∈ ids, ∀ y ∈ (incoming edges x).map (·.sourceStageID), y ∈ ids := by
  constructor
  · intro x _ y hy
    obtain ⟨edge, hedge, -, rfl⟩ := mem_destinations.mp hy
    exact (hamong edge hedge).2.1
  intro x _ y hy
  obtain ⟨edge, hedge, rfl, -⟩ := mem_sources.mp hy
  exact (hamong edge hedge).1

section Ends

include hids hamong

lemma allReachable_iff (hstart : start ∈ ids) :
    allReachable start edges ids.length = true ↔ ∀ x ∈ ids, ReflTransGen (Feeds edges) start x := by
  simp only [allReachable, decide_eq_true_eq]
  rw [reachLoop_iff hids hamong.next.1 hstart]
  simp only [mem_destinations]

lemma allCanReach_iff (hsink : a ∈ ids) :
    allCanReach a edges ids.length = true ↔ ∀ x ∈ ids, ReflTransGen (Feeds edges) x a := by
  simp only [allCanReach, decide_eq_true_eq]
  rw [reachLoop_iff hids hamong.next.2 hsink]
  simp only [mem_sources]
  exact forall₂_congr fun x _ => reflTransGen_swap

end Ends

/-! ## Ordering -/

/-- The edges out of stages that have not been taken. -/
def remaining (edges : List EdgeSpec) (done : List U16) : List EdgeSpec := edges.filter (!done.contains ·.sourceStageID)

/-- An order under way: the stages taken so far, those that can be taken next, and how many of the edges
    that are left come into each stage. -/
structure Sorting (left : List EdgeSpec) (ids done queue : List U16) (degree : U16 → Int) : Prop where
  nodup : (done ++ queue).Nodup
  among : ∀ x ∈ done ++ queue, x ∈ ids
  counts : ∀ v, degree v = (incoming left v).length
  zero : ∀ v ∈ ids, v ∈ done ++ queue ↔ degree v = 0

section Order

variable {left : List EdgeSpec} {degree : U16 → Int}

lemma Sorting.releaseEdges (hes : ∀ edge ∈ es, edge.destinationStageID ∈ ids) :
    ∀ degree queue, Sorting (es ++ left) ids done queue degree →
      Sorting left ids done (releaseEdges degree queue es).2 (releaseEdges degree queue es).1 := by
  induction es with
  | nil => exact fun _ _ h => h
  | cons edge rest ih =>
    intro degree queue h
    refine ih (fun e he => hes e (mem_cons_of_mem _ he)) _ _ ?_
    have hd := hes edge mem_cons_self
    have hcnt : ∀ v, degree v =
        (if edge.destinationStageID = v then 1 else 0) + ((incoming (rest ++ left) v).length : Int) := by
      intro v
      rw [h.counts]
      by_cases hv : edge.destinationStageID = v <;> simp [incoming, hv]
      omega
    generalize edge.destinationStageID = d at hd hcnt
    have hself := hcnt d
    rw [if_pos rfl] at hself
    have hout : d ∉ done ++ queue := fun hin => by
      have hzero := (h.zero d hd).mp hin
      omega
    have hdegree : ∀ v, update degree d (degree d - 1) v = (incoming (rest ++ left) v).length := by
      intro v
      by_cases hv : v = d
      · rw [hv, update_self]
        omega
      · rw [update_of_ne hv, hcnt, if_neg (Ne.symm hv), zero_add]
    have hold : ∀ v ∈ ids, v ≠ d → (v ∈ done ++ queue ↔ update degree d (degree d - 1) v = 0) := by
      intro v hv hne
      rw [update_of_ne hne, h.zero v hv]
    split
    · rename_i hlast
      refine ⟨?_, ?_, hdegree, fun v hv => ?_⟩
      · rw [← append_assoc, nodup_append_comm, singleton_append, nodup_cons]
        exact ⟨hout, h.nodup⟩
      · rw [← append_assoc]
        intro x hx
        cases mem_append.mp hx with
        | inl hx => exact h.among x hx
        | inr hx => exact mem_singleton.mp hx ▸ hd
      rw [← append_assoc, mem_append, mem_singleton]
      by_cases hne : v = d
      · simp [hne, hlast]
      · simp only [hne, or_false, hold v hv hne]
    rename_i hmore
    refine ⟨h.nodup, h.among, hdegree, fun v hv => ?_⟩
    by_cases hne : v = d
    · simp only [hne, hout, update_self, hmore]
    · exact hold v hv hne

lemma mem_remaining {edge : EdgeSpec} : edge ∈ remaining edges done ↔
    edge ∈ edges ∧ edge.sourceStageID ∉ done := by
  simp [remaining]

lemma Sorting.source_done (h : Sorting (remaining edges done) ids done queue degree) (hv : v ∈ done ++ queue)
    (hfeeds : Feeds edges a v) : a ∈ done := by
  by_contra ha
  obtain ⟨edge, hedge, rfl, rfl⟩ := hfeeds
  have hzero := (h.zero _ (h.among _ hv)).mp hv
  rw [h.counts, Int.natCast_eq_zero, length_eq_zero_iff, incoming, filter_eq_nil_iff] at hzero
  exact hzero edge (mem_remaining.mpr ⟨hedge, ha⟩) (decide_eq_true rfl)

lemma incoming_remaining (hid : id ∉ done) : (incoming (remaining edges done) v).length =
    (incoming (outgoing edges id ++ remaining edges (done ++ [id])) v).length := by
  induction edges with
  | nil => rfl
  | cons edge rest ih =>
    simp only [incoming, outgoing, remaining, filter_append, length_append, filter_filter, filter_cons] at ih ⊢
    by_cases hdst : edge.destinationStageID = v <;> by_cases hsrc : edge.sourceStageID = id <;>
      by_cases hdone : edge.sourceStageID ∈ done <;> simp_all <;> omega

/-- The order so far, in which no edge goes back. -/
structure Ordered (edges : List EdgeSpec) (ids done queue : List U16) (degree : U16 → Int) : Prop
    extends Sorting (remaining edges done) ids done queue degree where
  forward : done.Pairwise fun a b => ¬ Feeds edges b a

include hamong in
lemma Ordered.step (h : Ordered edges ids done (id :: queue) degree) :
    Ordered edges ids (done ++ [id]) (releaseEdges degree queue (outgoing edges id)).2
      (releaseEdges degree queue (outgoing edges id)).1 := by
  have hnew : id ∉ done := fun hold => disjoint_of_nodup_append h.nodup hold mem_cons_self
  have heq : done ++ [id] ++ queue = done ++ id :: queue := by simp
  have htaken : Sorting (outgoing edges id ++ remaining edges (done ++ [id])) ids (done ++ [id]) queue degree := by
    refine ⟨heq ▸ h.nodup, heq ▸ h.among, fun v => ?_, heq ▸ h.zero⟩
    rw [h.counts, incoming_remaining hnew]
  refine ⟨htaken.releaseEdges (fun edge hedge => (hamong edge (mem_of_mem_filter hedge)).2.1), ?_⟩
  rw [pairwise_append]
  refine ⟨h.forward, pairwise_singleton _ _, ?_⟩
  rintro x hx y hy hfeeds
  rw [mem_singleton.mp hy] at hfeeds
  exact hnew (h.source_done (mem_append_left _ hx) hfeeds)

include hamong in
lemma Ordered.loop (extra fuel : Nat) : ∀ queue done degree, Ordered edges ids done queue degree →
    ids.length < fuel + done.length →
    orderLoop edges (fuel + extra) queue degree done = orderLoop edges fuel queue degree done ∧
    ∃ degree', Ordered edges ids (orderLoop edges fuel queue degree done) [] degree' := by
  induction fuel with
  | zero =>
    intro queue done degree h hfuel
    have hlen := (subperm_of_subset h.nodup h.among).length_le
    rw [length_append] at hlen
    omega
  | succ fuel ih =>
    intro queue done degree h hfuel
    rw [Nat.succ_add]
    cases queue with
    | nil => exact ⟨rfl, degree, h⟩
    | cons id queue =>
      refine ih _ _ _ (h.step hamong) ?_
      rw [length_append, length_singleton]
      omega

include hids in
lemma ordered_start : Ordered edges ids [] (ids.filter fun id => ((incoming edges id).length : Int) = 0)
    fun id => (incoming edges id).length where
  nodup := hids.filter _
  among := by simp +contextual
  counts := by simp [remaining]
  zero := by simp +contextual
  forward := .nil

include hamong in
/-- Once every stage is taken, every edge goes forward. -/
lemma Ordered.idxOf_lt (h : Ordered edges ids done [] degree) (hall : ∀ x ∈ ids, x ∈ done) {edge : EdgeSpec}
    (hedge : edge ∈ edges) : done.idxOf edge.sourceStageID < done.idxOf edge.destinationStageID := by
  obtain ⟨hsrc, hdst, hne⟩ := hamong edge hedge
  have hi := idxOf_lt_length_of_mem (hall _ hsrc)
  have hj := idxOf_lt_length_of_mem (hall _ hdst)
  rcases lt_trichotomy (done.idxOf edge.sourceStageID) (done.idxOf edge.destinationStageID) with hlt | heq | hgt
  · exact hlt
  · exact absurd ((idxOf_inj (hall _ hsrc)).mp heq) hne
  have hback := pairwise_iff_getElem.mp h.forward _ _ hj hi hgt
  rw [getElem_idxOf, getElem_idxOf] at hback
  exact absurd ⟨edge, hedge, rfl, rfl⟩ hback

include hamong in
lemma Ordered.covers_iff (h : Ordered edges ids done [] degree) :
    (∀ x ∈ ids, x ∈ done) ↔ ∀ x, ¬ TransGen (Feeds edges) x x := by
  constructor
  · intro hall x hcycle
    have hforward : ∀ a b, TransGen (Feeds edges) a b → done.idxOf a < done.idxOf b := by
      intro a b hab
      induction hab with
      | single hstep =>
        obtain ⟨edge, hedge, rfl, rfl⟩ := hstep
        exact h.idxOf_lt hamong hall hedge
      | tail _ hstep ih =>
        obtain ⟨edge, hedge, rfl, rfl⟩ := hstep
        exact ih.trans (h.idxOf_lt hamong hall hedge)
    exact lt_irrefl _ (hforward x x hcycle)
  -- what was never taken has an edge from a stage that was never taken
  intro hacyclic
  have : Finite U16 := Finite.of_injective BitVec.toFin fun _ _ => BitVec.eq_of_toFin_eq
  have : Std.Irrefl (TransGen (Feeds edges)) := ⟨hacyclic⟩
  have hwf := Finite.wellFounded_of_trans_of_irrefl (TransGen (Feeds edges))
  intro x
  induction x using hwf.induction with
  | h x ih =>
    intro hx
    by_contra hout
    have hpos : incoming (remaining edges done) x ≠ [] := by
      intro hnil
      have hzero := (h.zero x hx).mpr (by rw [h.counts, hnil]; rfl)
      exact hout (by simpa using hzero)
    obtain ⟨edge, hedge⟩ := exists_mem_of_ne_nil _ hpos
    simp only [incoming, mem_filter, mem_remaining, decide_eq_true_eq] at hedge
    obtain ⟨⟨hedge, hsrc⟩, rfl⟩ := hedge
    exact hsrc (ih _ (.single ⟨edge, hedge, rfl, rfl⟩) (hamong edge hedge).1)

end Order

/-! ## What the passes over stages and edges leave -/

section Passes

variable {stage other : StageSpec} {stages rows : List StageSpec} {scan scan' : StageScan}

/-- What a scan has noted of a stage. -/
structure Row (scan : StageScan) (stage : StageSpec) : Prop where
  below : stage.stageID ≤ scan.last
  found : scan.byStage.find? stage.stageID = some stage
  eofs : stage.role = .source → ∃ eofs, rangeEOFs stage.operator stage.parallelism.toNat = some eofs ∧
    scan.eofs.find? stage.stageID = some eofs

/-- The source and the sink of a scan are stages it has seen. -/
structure Tabled (stages : List StageSpec) (scan : StageScan) : Prop where
  rows : ∀ stage ∈ stages, Row scan stage
  source : scan.sourceID ≠ 0 → ∃ stage ∈ stages, stage.stageID = scan.sourceID
  sink : scan.sinkID ≠ 0 → ∃ stage ∈ stages, stage.stageID = scan.sinkID

lemma Tabled.step (ht : Tabled rows scan) (h : scan.step stage = some scan') : Tabled (rows ++ [stage]) scan' := by
  obtain ⟨eofs, ⟨hlast, hmvd, -⟩, hbyStage, heofs, hrange, hsrc, hsink⟩ := StageScan.step_inv h
  have hends : ∀ id id' : U16, id' = id ∨ id' = stage.stageID → (id ≠ 0 → ∃ s ∈ rows, s.stageID = id) →
      id' ≠ 0 → ∃ s ∈ rows ++ [stage], s.stageID = id' := by
    rintro id id' (rfl | rfl) hold hne
    · obtain ⟨s, hs, hid⟩ := hold hne
      exact ⟨s, mem_append_left _ hs, hid⟩
    · exact ⟨stage, mem_append_right _ mem_cons_self, rfl⟩
  refine ⟨?_, hends _ _ hsrc ht.source, hends _ _ hsink ht.sink⟩
  intro s hs
  cases mem_append.mp hs with
  | inl hold =>
    obtain ⟨hbelow, hfnd, hsrc⟩ := ht.rows s hold
    have hlt : s.stageID < stage.stageID := by bv_omega
    have hne : stage.stageID ≠ s.stageID := (BitVec.ne_of_lt hlt).symm
    refine ⟨hmvd ▸ BitVec.le_of_lt hlt, ?_, fun hr => ?_⟩
    · rw [hbyStage, find?_insert_ne _ _ hne, hfnd]
    obtain ⟨eofs, hrange, hfind⟩ := hsrc hr
    refine ⟨eofs, hrange, ?_⟩
    rw [heofs]
    split
    · rw [find?_insert_ne _ _ hne, hfind]
    · exact hfind
  | inr hlast =>
    rw [mem_singleton.mp hlast]
    refine ⟨hmvd ▸ BitVec.le_refl _, ?_, fun hr => ⟨eofs, hrange hr, ?_⟩⟩
    · rw [hbyStage, find?_insert_self]
    · rw [heofs, if_pos hr, find?_insert_self]

section

variable (h : stages.foldlM StageScan.step StageScan.start = some scan)

include h

lemma tabled_of_scan : Tabled stages scan :=
  have hstart : Tabled [] StageScan.start :=
    ⟨fun _ hnil => absurd hnil not_mem_nil, fun hne => absurd rfl hne, fun hne => absurd rfl hne⟩
  foldlM_invariant (fun ht => ht.step) hstart h

lemma nodup_stageIDs : (stages.map (·.stageID)).Nodup := by
  rw [List.Nodup, pairwise_map]
  exact (stagesBounded_of_scan h (Nat.zero_le _)).2.2.ordered.imp fun hlt => BitVec.ne_of_lt hlt

lemma among_of_validateEdges {last : U16} (hedges : validateEdges scan last edges = true)
    : Among edges (stages.map (·.stageID)) := by
  have hmem : ∀ id, scan.byStage.contains id = true → id ∈ stages.map (·.stageID) := by
    intro id hid
    obtain ⟨stage, hfnd⟩ := Option.isSome_iff_exists.mp hid
    obtain ⟨hstg, rfl⟩ := (scanned_of_scan h).byStage id stage hfnd
    exact mem_map_of_mem hstg
  induction edges generalizing last with
  | nil => exact nofun
  | cons edge rest ih =>
    simp only [validateEdges, validateEdge, Bool.and_eq_true, decide_eq_true_eq] at hedges
    obtain ⟨⟨⟨⟨⟨-, hsrc⟩, hdst⟩, hne⟩, -⟩, hrest⟩ := hedges
    rintro e (_ | ⟨_, he⟩)
    · exact ⟨hmem _ hsrc, hmem _ hdst, hne⟩
    · exact ih hrest e he

end

end Passes

/-! ## The graph checks -/

/-- The checks of `ValidateTopology` between the edges and the expansion. -/
def checkGraph (scan : StageScan) (spec : TopologySpec) : Option (List U16) := do
  guard (incoming spec.edges scan.sourceID = [] ∧ outgoing spec.edges scan.sinkID = [])
  guard (∀ stage ∈ spec.stages, (stage.stageID ≠ scan.sourceID → incoming spec.edges stage.stageID ≠ []) ∧
    (stage.stageID ≠ scan.sinkID → outgoing spec.edges stage.stageID ≠ []))
  let order ← topologicalOrder spec.stages spec.edges
  guard (allReachable scan.sourceID spec.edges spec.stages.length ∧
    allCanReach scan.sinkID spec.edges spec.stages.length)
  some order

/-- The stages and edges pass the checks on each of them, and there are a source and a sink. -/
structure Itemwise (spec : TopologySpec) (scan : StageScan) : Prop where
  stages : spec.stages.foldlM StageScan.step StageScan.start = some scan
  ends : scan.sourceID ≠ 0 ∧ scan.sinkID ≠ 0
  edges : validateEdges scan 0 spec.edges = true

/-- What an accepted topology has passed. -/
lemma validateTopology_inv [Contract] {spec : TopologySpec} {topology : ValidatedTopology}
    (h : validateTopology spec = some topology) : ∃ scan order, Itemwise spec scan ∧
      checkGraph scan spec = some order ∧ topology.byStage = scan.byStage ∧ topology.eofs = scan.eofs ∧
      topology.digest = sum256 topology.canonical := by
  simp only [validateTopology, bind_eq_some, exists_guard, Option.some.injEq] at h
  obtain ⟨-, -, -, -, -, -, scan, hscan, hends, hedges, hfree, hjoined, order, horder, hreach, downstream,
    -, custody, -, -, rfl⟩ := h
  refine ⟨scan, order, ⟨hscan, hends, hedges⟩, ?_, rfl, rfl, rfl⟩
  simp only [checkGraph, bind_eq_some, exists_guard]
  exact ⟨hfree, hjoined, order, horder, hreach, rfl⟩

section Checks

variable {spec : TopologySpec} {scan : StageScan}

lemma Itemwise.stageIDs (h : Itemwise spec scan) : (spec.stages.map (·.stageID)).Nodup ∧
    Among spec.edges (spec.stages.map (·.stageID)) ∧ scan.sourceID ∈ spec.stages.map (·.stageID) ∧
    scan.sinkID ∈ spec.stages.map (·.stageID) := by
  have htabled := tabled_of_scan h.stages
  exact ⟨nodup_stageIDs h.stages, among_of_validateEdges h.stages h.edges,
    mem_map.mpr (htabled.source h.ends.1), mem_map.mpr (htabled.sink h.ends.2)⟩

/-- A loop that ends by itself: with more fuel it does the same. -/
def Settles (loop : Nat → List U16) (fuel : Nat) : Prop := ∀ extra, loop (fuel + extra) = loop fuel

/-- The loops of the graph checks end by themselves. -/
structure LoopsEnd (spec : TopologySpec) (scan : StageScan) : Prop where
  order : Settles (fun fuel => orderLoop spec.edges fuel
      ((spec.stages.map (·.stageID)).filter fun id => ((incoming spec.edges id).length : Int) = 0)
      (fun id => (incoming spec.edges id).length) []) (spec.stages.length + 1)
  reach : Settles (fun fuel => reachLoop (fun id => (outgoing spec.edges id).map (·.destinationStageID)) fuel
      [scan.sourceID] [scan.sourceID]) (spec.stages.length + 1)
  canReach : Settles (fun fuel => reachLoop (fun id => (incoming spec.edges id).map (·.sourceStageID)) fuel
      [scan.sinkID] [scan.sinkID]) (spec.stages.length + 1)

lemma Itemwise.loopsEnd (h : Itemwise spec scan) : LoopsEnd spec scan := by
  obtain ⟨hids, hamong, hsrc, hsink⟩ := h.stageIDs
  constructor <;> intro extra
  · exact (Ordered.loop hamong extra _ _ _ _ (ordered_start hids) (by simp)).1
  · exact (Searching.loop hamong.next.1 extra _ _ _ (searching_start hsrc) (by simp)).1
  · exact (Searching.loop hamong.next.2 extra _ _ _ (searching_start hsink) (by simp)).1

lemma Itemwise.order_cases (h : Itemwise spec scan) : ∃ order degree,
    Ordered spec.edges (spec.stages.map (·.stageID)) order [] degree ∧
    ∀ result, topologicalOrder spec.stages spec.edges = some result ↔
      order = result ∧ ∀ x ∈ spec.stages.map (·.stageID), x ∈ order := by
  obtain ⟨hids, hamong, -⟩ := h.stageIDs
  obtain ⟨-, degree, hdone⟩ := Ordered.loop hamong 0 (spec.stages.length + 1) _ _ _ (ordered_start hids) (by simp)
  refine ⟨_, degree, hdone, fun result => ?_⟩
  have hnodup := hdone.nodup
  have hsub := hdone.among
  rw [append_nil] at hnodup hsub
  rw [← length_eq_iff_covers hnodup hids hsub, length_map]
  simp only [topologicalOrder, Option.ite_none_right_eq_some, Option.some.injEq]
  exact and_comm

/-- Every stage lies on a path from the source to the sink, into which and out of which nothing goes. -/
structure SourceToSink (spec : TopologySpec) (scan : StageScan) : Prop where
  acyclic : ∀ x, ¬ TransGen (Feeds spec.edges) x x
  source : incoming spec.edges scan.sourceID = []
  sink : outgoing spec.edges scan.sinkID = []
  path : ∀ stage ∈ spec.stages, ReflTransGen (Feeds spec.edges) scan.sourceID stage.stageID ∧
    ReflTransGen (Feeds spec.edges) stage.stageID scan.sinkID

lemma SourceToSink.joined (h : SourceToSink spec scan) {stage : StageSpec} (hstg : stage ∈ spec.stages) :
    (stage.stageID ≠ scan.sourceID → incoming spec.edges stage.stageID ≠ []) ∧
      (stage.stageID ≠ scan.sinkID → outgoing spec.edges stage.stageID ≠ []) := by
  obtain ⟨hfrom, hto⟩ := h.path stage hstg
  constructor
  · intro hne hnil
    obtain heq | ⟨_, -, edge, hedge, -, hdst⟩ := hfrom.cases_tail
    · exact hne heq
    · exact filter_eq_nil_iff.mp hnil edge hedge (decide_eq_true hdst)
  intro hne hnil
  obtain heq | ⟨_, ⟨edge, hedge, hsrc, -⟩, -⟩ := hto.cases_head
  · exact hne heq
  · exact filter_eq_nil_iff.mp hnil edge hedge (decide_eq_true hsrc)

/-- The graph checks accept exactly the graphs without a cycle in which every stage lies between the source
    and the sink. The order they compute has every stage once and every edge forward, and the loops end
    whatever the edges are. -/
theorem graph_checks_exact (h : Itemwise spec scan) :
    ((∃ order, checkGraph scan spec = some order) ↔ SourceToSink spec scan) ∧
    (∀ order, topologicalOrder spec.stages spec.edges = some order → order.Perm (spec.stages.map (·.stageID)) ∧
      ∀ edge ∈ spec.edges, order.idxOf edge.sourceStageID < order.idxOf edge.destinationStageID) ∧
    LoopsEnd spec scan := by
  obtain ⟨hids, hamong, hsource, hsink⟩ := h.stageIDs
  obtain ⟨order, degree, hdone, horder⟩ := h.order_cases
  have hreach := allReachable_iff hids hamong hsource
  have hcan := allCanReach_iff hids hamong hsink
  rw [length_map] at hreach hcan
  refine ⟨⟨?_, fun hgraph => ?_⟩, ?_, h.loopsEnd⟩
  · rintro ⟨result, hres⟩
    simp only [checkGraph, bind_eq_some, exists_guard] at hres
    obtain ⟨⟨hsrc, hsnk⟩, -, taken, htaken, ⟨hfrom, hto⟩, -⟩ := hres
    refine ⟨(hdone.covers_iff hamong).mp ((horder taken).mp htaken).2, hsrc, hsnk, fun stage hstg => ?_⟩
    exact ⟨hreach.mp hfrom _ (mem_map_of_mem hstg), hcan.mp hto _ (mem_map_of_mem hstg)⟩
  · refine ⟨order, ?_⟩
    simp only [checkGraph, bind_eq_some, exists_guard]
    refine ⟨⟨hgraph.source, hgraph.sink⟩, fun _ => hgraph.joined, order,
      (horder order).mpr ⟨rfl, (hdone.covers_iff hamong).mpr hgraph.acyclic⟩, ⟨?_, ?_⟩, rfl⟩
    · rw [hreach, forall_mem_map]
      exact fun stage hstg => (hgraph.path stage hstg).1
    rw [hcan, forall_mem_map]
    exact fun stage hstg => (hgraph.path stage hstg).2
  intro result hres
  obtain ⟨rfl, hall⟩ := (horder result).mp hres
  have hnodup := hdone.nodup
  have hsub := hdone.among
  rw [append_nil] at hnodup hsub
  exact ⟨(perm_ext_iff_of_nodup hnodup hids).mpr fun x => ⟨hsub x, hall x⟩,
    fun edge hedge => hdone.idxOf_lt hamong hall hedge⟩

end Checks

namespace Sample

set_option maxRecDepth 20000

/-- A contract in which everything has the same hash. -/
@[reducible] def contract : Contract := ⟨fun _ => 1, 1, 2⟩

attribute [local instance] contract

def numbers : StageSpec := ⟨1, ascii "numbers", .source, 2,
  ⟨ascii "range", 1, [⟨ascii "end_exclusive", ascii "2"⟩, ⟨ascii "start", ascii "-1"⟩]⟩⟩

/-- Three numbers, dealt over two partitions, that go to a filter along two edges and on to a sink. -/
def filtered : TopologySpec :=
  ⟨1, ascii "filtered", [numbers, ⟨2, ascii "filter", .transform, 1, ⟨ascii "even", 1, []⟩⟩,
    ⟨3, ascii "results", .sink, 1, ⟨ascii "collect", 1, []⟩⟩],
    [⟨1, 1, 2, .shuffle, []⟩, ⟨2, 1, 2, .shuffle, []⟩, ⟨3, 2, 3, .shuffle, []⟩], registryFingerprint⟩

lemma filtered_valid : ∃ topology, validateTopology filtered = some topology :=
  Option.isSome_iff_exists.mp (by decide)

theorem graph_checks_exact_filtered : ∃ scan, Itemwise filtered scan ∧ SourceToSink filtered scan := by
  obtain ⟨topology, h⟩ := filtered_valid
  obtain ⟨scan, order, hitems, hchkd, -⟩ := validateTopology_inv h
  exact ⟨scan, hitems, (graph_checks_exact hitems).1.mp ⟨order, hchkd⟩⟩

end Sample

end Crane.Model
