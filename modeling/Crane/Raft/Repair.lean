import Crane.Raft.Safety
import Mathlib.Data.Nat.Find

/-!
# Finding where a follower's log agrees

A leader that does not know how far a follower agrees with it probes: it sends what comes after
`NextIndex - 1`, the follower refuses with a hint (`Log.append`), and the leader moves `NextIndex`
(`Core.repairNextIndex`). The hint can move it up as well as down: a term found in the leader's own log
sends it to the last entry of that term, and a follower that compacted past the probe names its snapshot.

Both logs may be compacted anywhere. What they would be without it is a `history`, the term at each
index. Two logs agree up to some point and nowhere behind it. A probe behind that point moves down, never
past the point unless to a snapshot; one before it is accepted, or moves up once, to the follower's
snapshot or beyond (`repair_converges`).

For that, a term that is in both histories has to begin at the same place. It does in every run, where
one leader wrote all entries of a term (`Reachable.sameStarts`), but it does not follow from log matching:
without it a probe can go back and forth (`repair_cycles`).
-/

namespace Crane.Raft

open List Nat Consensus

variable {u i prevTerm next : Nat} {entries : List Entry} {history count : Nat → Nat}

namespace Log

variable {l : Log}

/-! ## The last and the first index of a term -/

lemma Valid.lastIndexOfTerm_some (h : l.Valid) {j : Nat} (hj : l.lastIndexOfTerm u = some j) :
    l.term j = .ok u ∧ ∀ i, l.term i = .ok u → i ≤ j := by
  unfold lastIndexOfTerm at hj
  cases hfind : l.entries.reverse.find? (fun entry => entry.term = u) with
  | none =>
    rw [hfind] at hj
    simp only [Option.ite_none_right_eq_some, Option.some.injEq] at hj
    obtain ⟨⟨-, hbase⟩, rfl⟩ := hj
    refine ⟨h.term_eq_ok.mpr (.inl ⟨rfl, hbase.symm⟩), fun i hi => ?_⟩
    rcases h.term_eq_ok.mp hi with ⟨rfl, -⟩ | ⟨-, e, he, hterm⟩
    · exact le_refl _
    have hmem := mem_reverse.mpr (mem_of_getElem? he)
    exact absurd hterm (by simpa using find?_eq_none.mp hfind e hmem)
  | some entry =>
    rw [hfind] at hj
    cases hj
    obtain ⟨hterm, later, earlier, hsplit, hoth⟩ := find?_eq_some_iff_append.mp hfind
    have hterm : entry.term = u := by simpa using hterm
    have hents : l.entries = earlier.reverse ++ entry :: later.reverse := by
      rw [← reverse_reverse l.entries, hsplit]
      simp
    have hmem : entry ∈ l.entries := by
      rw [hents]
      simp
    have hidxd := h.indexed
    rw [hents, contiguous_append, contiguous_cons] at hidxd
    refine ⟨hterm ▸ h.term_entry (h.entry_of_mem hmem), fun i hi => ?_⟩
    rcases h.term_eq_ok.mp hi with ⟨rfl, -⟩ | ⟨hlt, e, he, hu⟩
    · exact (h.indexed.getElem?_index hmem).1.le
    have hidx : e.index = i := by
      have := h.indexed _ e he
      omega
    have hcases : e ∈ earlier.reverse ++ entry :: later.reverse := hents ▸ mem_of_getElem? he
    rcases mem_append.mp hcases with hearlier | hrest
    · have := (hidxd.1.getElem?_index hearlier).2.1
      omega
    rcases mem_cons.mp hrest with rfl | hltr
    · exact hidx.ge
    · exact absurd hu (by simpa using hoth e (mem_reverse.mp hltr))

lemma Valid.lastIndexOfTerm_none (h : l.Valid) (hnone : l.lastIndexOfTerm u = none) (hpos : 0 < i) :
    l.term i ≠ .ok u := by
  unfold lastIndexOfTerm at hnone
  cases hfind : l.entries.reverse.find? (fun entry => entry.term = u) with
  | some =>
    rw [hfind] at hnone
    cases hnone
  | none =>
    rw [hfind] at hnone
    intro hi
    rcases h.term_eq_ok.mp hi with ⟨rfl, hbase⟩ | ⟨-, e, he, hterm⟩
    · simp only [ite_eq_right_iff, reduceCtorEq, imp_false, not_and] at hnone
      exact hnone (by omega) hbase.symm
    have hmem := mem_reverse.mpr (mem_of_getElem? he)
    exact absurd hterm (by simpa using find?_eq_none.mp hfind e hmem)

lemma rewind_spec (entries : List Entry) (u offset : Nat) : rewind entries u offset ≤ offset ∧
    ∀ i, rewind entries u offset ≤ i → i < offset → ∃ e, entries[i]? = some e ∧ e.term = u := by
  induction offset with
  | zero => exact ⟨le_refl _, fun i _ hi => absurd hi (not_lt_zero i)⟩
  | succ offset ih =>
    have hstay : offset + 1 ≤ offset + 1 ∧ ∀ i, offset + 1 ≤ i → i < offset + 1 →
        ∃ e, entries[i]? = some e ∧ e.term = u := ⟨le_refl _, fun i h1 h2 => by omega⟩
    unfold rewind
    cases hget : entries[offset]? with
    | none => exact hstay
    | some e =>
      by_cases hterm : e.term = u
      · simp only [if_pos hterm]
        refine ⟨ih.1.trans (le_succ _), fun i h1 h2 => ?_⟩
        rcases (Nat.lt_succ_iff.mp h2).eq_or_lt with rfl | hlt
        · exact ⟨e, hget, hterm⟩
        · exact ih.2 i h1 hlt
      simp only [if_neg hterm]
      exact hstay

/-- The hint of a mismatch is an index of the follower's term, not behind the probe. -/
lemma Valid.firstIndexOfTerm_spec (h : l.Valid) {p : Nat} (hp : l.term p = .ok u) :
    ∃ f, l.firstIndexOfTerm p u = .ok f ∧ f ≤ p ∧ l.term f = .ok u := by
  unfold firstIndexOfTerm
  by_cases hbase : p = l.snapshotIndex
  · exact ⟨_, if_pos hbase, hbase.ge, hbase ▸ hp⟩
  rw [if_neg hbase]
  obtain ⟨hlo, hhi⟩ := h.term_range hp
  have hlast := h.last
  obtain ⟨hlt, hoff⟩ := h.retainedOffset_eq (lt_of_le_of_ne hlo (Ne.symm hbase)) hhi
  obtain ⟨hle, hrun⟩ := rewind_spec l.entries u (p - l.snapshotIndex - 1)
  rw [hoff]
  simp only
  generalize rewind l.entries u (p - l.snapshotIndex - 1) = offset at hle hrun
  split
  · rename_i hzero
    exact ⟨_, rfl, hlo, h.term_eq_ok.mpr (.inl ⟨rfl, hzero.2.symm⟩)⟩
  -- the entry found is the probed one, or one that was rewound over
  have hfnd : ∃ e, l.entries[offset]? = some e ∧ e.term = u := by
    rcases hle.eq_or_lt with rfl | hless
    · rcases h.term_eq_ok.mp hp with ⟨heq, -⟩ | ⟨-, hfnd⟩
      · exact absurd heq hbase
      · exact hfnd
    · exact hrun offset (le_refl _) hless
  obtain ⟨e, hget, hterm⟩ := hfnd
  have hidx := h.indexed offset e hget
  rw [hget]
  refine ⟨_, rfl, by omega, h.term_eq_ok.mpr (.inr ⟨by omega, e, ?_, hterm⟩)⟩
  rw [hidx, show l.snapshotIndex + offset + 1 - l.snapshotIndex - 1 = offset by omega, hget]

/-! ## An append that is accepted -/

lemma Valid.repair_succeeds (h : l.Valid) {prev : Nat} (hc : Contiguous prev entries)
    (hlo : l.snapshotIndex ≤ prev)
    (hcomm : ∀ e ∈ entries, e.index ≤ l.commitIndex → l.term e.index = .ok e.term) :
    ∃ l', l.repair entries = .ok l' := by
  induction entries generalizing prev with
  | nil => exact ⟨l, rfl⟩
  | cons e rest ih =>
    obtain ⟨hidx, hrest⟩ := contiguous_cons.mp hc
    unfold repair
    split
    · exact ⟨_, rfl⟩
    rename_i hwithin
    obtain ⟨hlt, hoff⟩ := h.retainedOffset_eq (i := e.index) (by omega) (by omega)
    rw [hoff]
    simp only
    split
    · exact ih hrest (by omega) fun e he => hcomm e (mem_cons_of_mem _ he)
    rename_i hdiffers
    rw [if_neg]
    · exact ⟨_, rfl⟩
    intro hle
    rcases h.term_eq_ok.mp (hcomm e mem_cons_self hle) with ⟨heq, -⟩ | ⟨-, e', hget, hterm⟩
    · omega
    rw [getElem?_eq_getElem hlt, Option.some.injEq] at hget
    exact hdiffers ((congrArg Entry.term hget).trans hterm)

lemma Valid.append_succeeds (h : l.Valid) {prev : Nat} (hprev : l.term prev = .ok prevTerm)
    (hc : Contiguous prev entries) (hval : ∀ e ∈ entries, e.Valid) (hmax : prev + entries.length ≤ maxUint64)
    (hcomm : ∀ e ∈ entries, e.index ≤ l.commitIndex → l.term e.index = .ok e.term) :
    ∃ l', l.append prev prevTerm entries = .ok l' := by
  unfold append
  rw [hprev]
  simp only [ne_eq, not_true_eq_false, if_false]
  split
  · exact ⟨l, rfl⟩
  rw [(checkSuffix_eq_ok (by omega)).mpr ⟨hc, hval, rfl, hmax⟩]
  obtain ⟨l', hl'⟩ := h.repair_succeeds hc (h.term_range hprev).1 hcomm
  rw [hl']
  exact ⟨l', rfl⟩

end Log

/-! ## Histories -/

/-- The log is what compaction left of a history, the term at each index. -/
structure Log.Keeps (l : Log) (history : Nat → Nat) : Prop where
  valid : l.Valid
  term : ∀ {i}, l.snapshotIndex ≤ i → i ≤ l.lastIndex → l.term i = .ok (history i)
  mono : ∀ {i j}, i ≤ j → j ≤ l.lastIndex → history i ≤ history j
  origin : history 0 = 0

/-- Log matching, with what the follower committed in the leader's history. -/
structure Matching (leader follower : Log) (led followed : Nat → Nat) : Prop where
  led_kept : leader.Keeps led
  followed_kept : follower.Keeps followed
  below : ∀ {i}, i ≤ leader.lastIndex → i ≤ follower.lastIndex → led i = followed i → ∀ j ≤ i, led j = followed j
  committed : ∀ i ≤ follower.commitIndex, i ≤ leader.lastIndex ∧ led i = followed i

/-- A term that is in both histories begins at the same index. -/
def SameStarts (leader follower : Log) (led followed : Nat → Nat) : Prop :=
  ∀ i j, 0 < i → i ≤ leader.lastIndex → 0 < j → j ≤ follower.lastIndex → led i = followed j →
    led (i - 1) ≠ led i → followed (j - 1) ≠ followed j → i = j

section Runs

variable {σ : Type} [Hash] {cfg : Config σ} {cluster : Cluster σ} {l l' : Log} {L : List Entry}

omit [Hash] in
lemma Shows.last_le (h : Shows cfg.voters.setting l L) : l.lastIndex ≤ L.length := by
  obtain ⟨t, ht⟩ := h.valid.exists_term h.valid.base_le le_rfl
  exact (h.term_iff.mp ht).2.1

omit [Hash] in
lemma Shows.keeps {s : History} (h : Shows cfg.voters.setting l L) (hL : Sound cfg.voters.setting s L) :
    l.Keeps (cfg.voters.setting.termAt L) where
  valid := h.valid
  term hlo hhi := h.term_iff.mpr ⟨hlo, hhi.trans h.last_le, rfl⟩
  mono hij hj := hL.termAt_mono hij (hj.trans h.last_le)
  origin := rfl

/-- In a run, the histories behind any two logs have a term from the same index on. -/
lemma Reachable.sameStarts (h : Reachable cfg cluster) {a b : Nat} (ha : a ∈ cfg.voters.voters)
    (hb : b ∈ cfg.voters.voters) (hl : (cluster.hosts a).HasLog l) (hl' : (cluster.hosts b).HasLog l') :
    ∃ led followed, l.Keeps led ∧ l'.Keeps followed ∧ SameStarts l l' led followed := by
  obtain ⟨s, hs⟩ := h.consistent
  obtain ⟨s', L, L', -, hL, hshows, hL', hshows'⟩ := hs.shows ha hb hl hl'
  refine ⟨_, _, hshows.keeps hL, hshows'.keeps hL', ?_⟩
  intro i j hi hlast hj hlast' hterm hstart hstart'
  have hiL := hlast.trans hshows.last_le
  have hjL := hlast'.trans hshows'.last_le
  exact le_antisymm (hL'.start_le hL hj hjL hiL hterm.symm hstart)
    (hL.start_le hL' hi hiL hjL hterm hstart')

end Runs

/-- The logs agree through `point` and nowhere behind it. -/
structure Parts (leader follower : Log) (led followed : Nat → Nat) (point : Nat) : Prop where
  in_leader : point ≤ leader.lastIndex
  in_follower : point ≤ follower.lastIndex
  agree : ∀ i ≤ point, led i = followed i
  differ : ∀ i, point < i → i ≤ leader.lastIndex → i ≤ follower.lastIndex → led i ≠ followed i

lemma Parts.agreed_le {leader follower : Log} {led followed : Nat → Nat} {point : Nat}
    (h : Parts leader follower led followed point) (h1 : i ≤ leader.lastIndex)
    (h2 : i ≤ follower.lastIndex) (heq : led i = followed i) : i ≤ point := by
  by_contra hlt
  exact h.differ i (not_le.mp hlt) h1 h2 heq

/-- Where the run of one term around an index begins. -/
lemma exists_start (horigin : history 0 = 0) (hi : history i ≠ 0) :
    ∃ a, 0 < a ∧ a ≤ i ∧ history a = history i ∧ history (a - 1) ≠ history a := by
  induction i with
  | zero => exact absurd horigin hi
  | succ i ih =>
    by_cases hsame : history i = history (i + 1)
    · obtain ⟨a, hpos, hle, heq, hstart⟩ := ih (hsame ▸ hi)
      exact ⟨a, hpos, by omega, heq.trans hsame, hstart⟩
    · exact ⟨i + 1, succ_pos i, le_refl _, rfl, hsame⟩

namespace Matching

variable {leader follower : Log} {led followed : Nat → Nat}

lemma exists_parts (h : Matching leader follower led followed) :
    ∃ point, Parts leader follower led followed point := by
  let least := min leader.lastIndex follower.lastIndex
  have hzero : led 0 = followed 0 := h.led_kept.origin.trans h.followed_kept.origin.symm
  have hle : findGreatest (fun i => led i = followed i) least ≤ least := findGreatest_le _
  have hat : led (findGreatest (fun i => led i = followed i) least) =
      followed (findGreatest (fun i => led i = followed i) least) :=
    findGreatest_spec (P := fun i => led i = followed i) (zero_le least) hzero
  refine ⟨_, hle.trans (min_le_left _ _), hle.trans (min_le_right _ _),
    h.below (hle.trans (min_le_left _ _)) (hle.trans (min_le_right _ _)) hat, fun i hlt h1 h2 => ?_⟩
  exact findGreatest_is_greatest (P := fun i => led i = followed i) hlt (le_min h1 h2)

variable {point : Nat} (h : Matching leader follower led followed)
  (hp : Parts leader follower led followed point)

include h hp

lemma snapshotIndex_le : follower.snapshotIndex ≤ point := by
  have hcmt := h.followed_kept.valid.snapshotIndex_le_commit
  obtain ⟨hlast, heq⟩ := h.committed _ hcmt
  exact hp.agreed_le hlast h.followed_kept.valid.base_le heq

/-- Behind the point, the leader's last entry of the follower's term is before the probe. -/
lemma lastIndex_lt (hstarts : SameStarts leader follower led followed) {p j : Nat} (hlt : point < p)
    (hldr : p ≤ leader.lastIndex) (hfoll : p ≤ follower.lastIndex) (hj : j ≤ leader.lastIndex)
    (hterm : led j = followed p) (hpos : followed p ≠ 0) : j < p := by
  by_contra hge
  have hge := not_lt.mp hge
  obtain ⟨a, ha, hale, haterm, hastart⟩ := exists_start h.followed_kept.origin hpos
  obtain ⟨b, hb, hble, hbterm, hbstart⟩ := exists_start h.led_kept.origin (hterm ▸ hpos)
  have heq : b = a := hstarts b a hb (hble.trans hj) ha (hale.trans hfoll)
    (hbterm.trans (hterm.trans haterm.symm)) hbstart hastart
  have hlow := h.led_kept.mono (i := b) (j := p) (heq ▸ hale) hldr
  have hhigh := h.led_kept.mono hge hj
  exact hp.differ p hlt hldr hfoll (by omega)

end Matching

/-! ## One probe -/

inductive ProbeAnswer where
  | accepted
  | snapshotNeeded
  | rejected (nextIndex : Nat)
  | failed (error : RaftError)
  deriving DecidableEq

/-- Of the response to a probe, the fields that its handling reads. -/
def rejection (hint : ConflictHint) : AppendEntriesResponse := ⟨0, 0, 0, 0, 0, false, 0, hint.term, hint.index⟩

namespace Core

/-- What `issueAppend` sends from `nextIndex` on, as many entries as fit, the follower's answer to it, and
where the leader goes from there. -/
def probe (c : Core) (follower : Log) (matchIndex count nextIndex : Nat) : ProbeAnswer :=
  if nextIndex ≤ c.log.snapshotIndex then .snapshotNeeded
  else
    match c.log.term (nextIndex - 1) with
    | .error e => .failed e
    | .ok prevTerm =>
      match follower.append (nextIndex - 1) prevTerm
          ((c.log.entries.drop (nextIndex - 1 - c.log.snapshotIndex)).take count) with
      | .ok _ => .accepted
      | .error (e, hint) =>
        if e ≠ .logUnavailable ∧ e ≠ .logCompacted ∧ e ≠ .logMismatch then .failed e
        else
          match c.repairNextIndex (rejection hint) matchIndex with
          | .error e => .failed e
          | .ok nextIndex => .rejected nextIndex

/-- Probe after probe: the values that `NextIndex` takes, and the answer to the last of them. -/
def repairLoop (c : Core) (follower : Log) (matchIndex : Nat) (count : Nat → Nat) :
    Nat → Nat → List Nat × ProbeAnswer
  | 0, nextIndex => ([], .rejected nextIndex)
  | fuel + 1, nextIndex =>
    match c.probe follower matchIndex (count nextIndex) nextIndex with
    | .rejected next =>
      let (visited, answer) := repairLoop c follower matchIndex count fuel next
      (nextIndex :: visited, answer)
    | answer => ([nextIndex], answer)

variable {c : Core} {follower : Log} {led followed : Nat → Nat} {matchIndex point : Nat}

/-- The hint, kept between what is known to match and the end of the log. -/
lemma repairNextIndex_eq (hmax : c.log.lastIndex < maxUint64) (hmch : matchIndex ≤ c.log.lastIndex)
    (hlog : c.log.Valid) (hint : ConflictHint) : ∃ target, c.repairNextIndex (rejection hint) matchIndex =
        .ok (max (min target (c.log.lastIndex + 1)) (matchIndex + 1)) ∧
      (target = hint.index ∧ (hint.term = 0 ∨ c.log.lastIndexOfTerm hint.term = none) ∨
        ∃ j, target = j + 1 ∧ hint.term ≠ 0 ∧ c.log.lastIndexOfTerm hint.term = some j) := by
  have hlast : checkedNextIndex c.log.lastIndex = some (c.log.lastIndex + 1) := if_neg (by omega)
  have hnext : checkedNextIndex matchIndex = some (matchIndex + 1) := if_neg (by omega)
  unfold repairNextIndex
  rw [hlast, hnext]
  simp only [rejection]
  by_cases hzero : hint.term = 0
  · refine ⟨hint.index, ?_, .inl ⟨rfl, .inl hzero⟩⟩
    simp [hzero]
  cases hfnd : c.log.lastIndexOfTerm hint.term with
  | none =>
    refine ⟨hint.index, ?_, .inl ⟨rfl, .inr rfl⟩⟩
    simp [hzero]
  | some j =>
    have hj := (hlog.term_range (hlog.lastIndexOfTerm_some hfnd).1).2
    have hchkd : checkedNextIndex j = some (j + 1) := if_neg (by omega)
    refine ⟨j + 1, ?_, .inr ⟨j, rfl, hzero, rfl⟩⟩
    simp [hzero, hchkd]

/-- A probe is answered as the request that a leader sends (`issueAppend_spec`). -/
lemma probe_accepted_iff {v r requires} (hlog : c.log.Valid) (hsaid : SaysAppend v c.view r requires) :
    c.probe follower matchIndex r.entries.length (r.prevLogIndex + 1) = .accepted ↔
      ∃ l, follower.append r.prevLogIndex r.prevLogTerm r.entries = .ok l := by
  have hprev := hsaid.prev
  have hsent := hsaid.entries.symm
  dsimp only [view] at hprev hsent
  have hbase := (hlog.term_range hprev).1
  unfold probe
  rw [if_neg (by omega), Nat.add_sub_cancel, hprev]
  simp only
  rw [hsent]
  cases follower.append r.prevLogIndex r.prevLogTerm r.entries with
  | ok => simp
  | error =>
    simp only [reduceCtorEq, exists_false, iff_false]
    split
    · simp
    split <;> simp

/-- Before the point a probe is accepted, unless the follower has compacted past it. -/
lemma probe_accepted (h : Matching c.log follower led followed)
    (hp : Parts c.log follower led followed point) {count : Nat} (hsnap : c.log.snapshotIndex < next)
    (hkept : follower.snapshotIndex < next) (hnext : next ≤ point + 1) :
    c.probe follower matchIndex count next = .accepted := by
  have hlog := h.led_kept.valid
  have hlast := hlog.last
  have hpoint := hp.in_leader
  have hrcd := hp.in_follower
  have hbd := hlog.bound
  have hprev : c.log.term (next - 1) = .ok (led (next - 1)) := h.led_kept.term (by omega) (by omega)
  have hheld : follower.term (next - 1) = .ok (led (next - 1)) := by
    rw [hp.agree _ (by omega)]
    exact h.followed_kept.term (by omega) (by omega)
  let entries := (c.log.entries.drop (next - 1 - c.log.snapshotIndex)).take count
  have hcont : Contiguous (next - 1) entries := by
    have hdrop := hlog.indexed.drop (next - 1 - c.log.snapshotIndex)
    rw [show c.log.snapshotIndex + (next - 1 - c.log.snapshotIndex) = next - 1 by omega] at hdrop
    exact hdrop.take count
  have hmem : ∀ e ∈ entries, e ∈ c.log.entries := fun e he => mem_of_mem_drop (mem_of_mem_take he)
  have hlen : entries.length ≤ c.log.entries.length - (next - 1 - c.log.snapshotIndex) :=
    (length_take_le' _ _).trans (length_drop ..).le
  -- what the follower committed is the leader's, so no entry conflicts with it
  have hcomm : ∀ e ∈ entries, e.index ≤ follower.commitIndex → follower.term e.index = .ok e.term := by
    intro e he hle
    have hterm := hlog.term_entry (hlog.entry_of_mem (hmem e he))
    have hrange := hlog.term_range hterm
    have haft := (hcont.getElem?_index he).1
    rw [h.led_kept.term hrange.1 hrange.2, Except.ok.injEq, (h.committed _ hle).2] at hterm
    rw [← hterm]
    exact h.followed_kept.term (by omega) (hle.trans h.followed_kept.valid.commit_le)
  obtain ⟨l', happend⟩ := h.followed_kept.valid.append_succeeds hheld hcont
    (fun e he => hlog.valid e (hmem e he)) (by omega) hcomm
  unfold probe
  rw [if_neg (by omega), hprev]
  simp only
  rw [happend]

/-- A probe that the follower refuses with this hint. -/
lemma probe_rejected {count : Nat} {e : RaftError} {hint : ConflictHint}
    (hsnap : c.log.snapshotIndex < next) (hprev : c.log.term (next - 1) = .ok prevTerm)
    (hrefused : ∀ entries, follower.append (next - 1) prevTerm entries = .error (e, hint))
    (hkind : e = .logUnavailable ∨ e = .logCompacted ∨ e = .logMismatch) {next' : Nat}
    (hmvd : c.repairNextIndex (rejection hint) matchIndex = .ok next') :
    c.probe follower matchIndex count next = .rejected next' := by
  have hknw : ¬ (e ≠ .logUnavailable ∧ e ≠ .logCompacted ∧ e ≠ .logMismatch) := by
    rcases hkind with rfl | rfl | rfl <;> simp
  unfold probe
  rw [if_neg (by omega), hprev]
  simp only
  rw [hrefused]
  simp only
  rw [if_neg hknw, hmvd]

/-- Before the follower's snapshot a probe moves up, past it. -/
lemma probe_compacted (h : Matching c.log follower led followed) (hmax : c.log.lastIndex < maxUint64)
    (hmch : matchIndex ≤ c.log.lastIndex) (count : Nat) (hsnap : c.log.snapshotIndex < next)
    (hnext : next ≤ follower.snapshotIndex) :
    ∃ next', c.probe follower matchIndex count next = .rejected next' ∧
      follower.snapshotIndex < next' ∧ next' ≤ c.log.lastIndex + 1 := by
  have hlog := h.led_kept.valid
  obtain ⟨hwithin, hshared⟩ := h.committed _ h.followed_kept.valid.snapshotIndex_le_commit
  have hbase : follower.term follower.snapshotIndex = .ok follower.snapshotTerm :=
    h.followed_kept.valid.term_eq_ok.mpr (.inl ⟨rfl, rfl⟩)
  have hheld : c.log.term follower.snapshotIndex = .ok follower.snapshotTerm := by
    have hterm := h.followed_kept.term (le_refl _) h.followed_kept.valid.base_le
    rw [h.led_kept.term (by omega) hwithin, hshared, ← hterm, hbase]
  have hrefused : ∀ entries, follower.append (next - 1) (led (next - 1)) entries =
      .error (.logCompacted, ⟨follower.snapshotTerm, follower.snapshotIndex⟩) := by
    intro entries
    unfold Log.append Log.term
    rw [if_pos (by omega)]
  obtain ⟨target, hmvd, htarg⟩ := repairNextIndex_eq hmax hmch hlog
    ⟨follower.snapshotTerm, follower.snapshotIndex⟩
  refine ⟨_, probe_rejected hsnap (h.led_kept.term (by omega) (by omega)) hrefused
    (.inr (.inl rfl)) hmvd, ?_, by omega⟩
  rcases htarg with ⟨-, hzero | hnone⟩ | ⟨j, rfl, -, hfnd⟩
  · have := (hlog.term_zero_iff hheld).mpr hzero
    omega
  · exact absurd hheld (hlog.lastIndexOfTerm_none hnone (by omega))
  have := (hlog.lastIndexOfTerm_some hfnd).2 _ hheld
  omega

/-- Behind the point a probe moves down: not past the point, or so far that a snapshot is needed. -/
lemma probe_behind (h : Matching c.log follower led followed)
    (hstarts : SameStarts c.log follower led followed) (hp : Parts c.log follower led followed point)
    (hmax : c.log.lastIndex < maxUint64) (hmch : matchIndex ≤ point) (count : Nat)
    (hsnap : c.log.snapshotIndex < next) (hnext : point + 1 < next) (hlast : next ≤ c.log.lastIndex + 1) :
    ∃ next', c.probe follower matchIndex count next = .rejected next' ∧ next' < next ∧
      (point < next' ∨ next' ≤ c.log.snapshotIndex) := by
  have hlog := h.led_kept.valid
  have hrcd := hp.in_follower
  have hpoint := hp.in_leader
  have hbase := h.snapshotIndex_le hp
  have hprev : c.log.term (next - 1) = .ok (led (next - 1)) := h.led_kept.term (by omega) (by omega)
  have hmtd : matchIndex ≤ c.log.lastIndex := hmch.trans hpoint
  by_cases hshort : follower.lastIndex < next - 1
  · have hrefused : ∀ entries, follower.append (next - 1) (led (next - 1)) entries =
        .error (.logUnavailable, ⟨0, follower.lastIndex + 1⟩) := by
      intro entries
      have hterm : follower.term (next - 1) = .error .logUnavailable := by
        unfold Log.term Log.retainedOffset
        rw [if_neg (by omega), if_neg (by omega), if_neg (by omega), if_pos hshort]
      have hchkd : checkedNextIndex follower.lastIndex = some (follower.lastIndex + 1) := if_neg (by omega)
      unfold Log.append
      rw [hterm]
      simp only [hchkd]
    obtain ⟨target, hmvd, htarg⟩ := repairNextIndex_eq hmax hmtd hlog ⟨0, follower.lastIndex + 1⟩
    refine ⟨_, probe_rejected hsnap hprev hrefused (.inl rfl) hmvd, ?_⟩
    rcases htarg with ⟨htarg, -⟩ | ⟨j, -, hzero, -⟩
    · have htarg : target = follower.lastIndex + 1 := htarg
      omega
    · exact absurd rfl hzero
  have hheld : follower.term (next - 1) = .ok (followed (next - 1)) :=
    h.followed_kept.term (by omega) (by omega)
  have hdiffer := hp.differ (next - 1) (by omega) (by omega) (by omega)
  have hpos : followed (next - 1) ≠ 0 := by
    intro hzero
    have := (h.followed_kept.valid.term_zero_iff hheld).mpr hzero
    omega
  obtain ⟨f, hfst, hfle, hfterm⟩ := h.followed_kept.valid.firstIndexOfTerm_spec hheld
  have hfrange := h.followed_kept.valid.term_range hfterm
  have hfpos : f ≠ 0 := fun hzero => hpos ((h.followed_kept.valid.term_zero_iff hfterm).mp hzero)
  rw [h.followed_kept.term hfrange.1 hfrange.2, Except.ok.injEq] at hfterm
  have hrefused : ∀ entries, follower.append (next - 1) (led (next - 1)) entries =
      .error (.logMismatch, ⟨followed (next - 1), f⟩) := by
    intro entries
    unfold Log.append
    rw [hheld]
    simp only
    rw [if_pos (Ne.symm hdiffer), hfst]
  obtain ⟨target, hmvd, htarg⟩ := repairNextIndex_eq hmax hmtd hlog ⟨followed (next - 1), f⟩
  refine ⟨_, probe_rejected hsnap hprev hrefused (.inr (.inr rfl)) hmvd, ?_⟩
  -- the leader's term at the point is the follower's, and not above the probed one
  have hagree := hp.agree point (le_refl _)
  have hbelow := h.followed_kept.mono (i := point) (j := next - 1) (by omega) (by omega)
  rcases htarg with ⟨htarg, hzero | hnone⟩ | ⟨j, rfl, -, hfnd⟩
  · exact absurd hzero hpos
  · have htarg : target = f := htarg
    refine ⟨by omega, ?_⟩
    by_cases hf : f ≤ point
    · -- the leader has compacted the term away
      have hsame := h.followed_kept.mono hf hrcd
      have hgone : point < c.log.snapshotIndex := by
        by_contra hkept
        have hterm := h.led_kept.term (not_lt.mp hkept) hpoint
        rw [hagree, show followed point = followed (next - 1) by omega] at hterm
        exact hlog.lastIndexOfTerm_none hnone (by omega) hterm
      right
      omega
    left
    omega
  obtain ⟨hjterm, hjlast⟩ := hlog.lastIndexOfTerm_some hfnd
  have hjrange := hlog.term_range hjterm
  rw [h.led_kept.term hjrange.1 hjrange.2, Except.ok.injEq] at hjterm
  have hjterm : led j = followed (next - 1) := hjterm
  have hjlt : j < next - 1 :=
    h.lastIndex_lt hp hstarts (by omega) (by omega) (by omega) hjrange.2 hjterm hpos
  have hjge : point ≤ j := by
    by_contra hless
    have hmono := h.led_kept.mono (i := j) (j := point) (by omega) hpoint
    have hterm := h.led_kept.term (i := point) (by omega) hpoint
    rw [hagree, show followed point = followed (next - 1) by omega] at hterm
    have := hjlast point hterm
    omega
  omega

/-! ## The loop -/

/-- How a loop ends that never comes back to a value of `NextIndex`. -/
structure Converges (c : Core) (follower : Log) (matchIndex : Nat) (count : Nat → Nat) (next : Nat)
    (visited : List Nat) : Prop where
  ends : ∃ fuel answer, c.repairLoop follower matchIndex count fuel next = (visited, answer) ∧
    (answer = .accepted ∨ answer = .snapshotNeeded)
  nodup : visited.Nodup

lemma Converges.last {answer : ProbeAnswer} (h : c.probe follower matchIndex (count next) next = answer)
    (hgood : answer = .accepted ∨ answer = .snapshotNeeded) :
    Converges c follower matchIndex count next [next] where
  ends := by
    refine ⟨1, answer, ?_, hgood⟩
    unfold repairLoop
    rcases hgood with rfl | rfl <;> rw [h]
  nodup := nodup_singleton _

lemma Converges.cons {next' : Nat} {visited : List Nat}
    (h : c.probe follower matchIndex (count next) next = .rejected next')
    (hrest : Converges c follower matchIndex count next' visited) (hnew : next ∉ visited) :
    Converges c follower matchIndex count next (next :: visited) where
  ends := by
    obtain ⟨fuel, answer, hloop, hgood⟩ := hrest.ends
    refine ⟨fuel + 1, answer, ?_, hgood⟩
    unfold repairLoop
    rw [h]
    simp only [hloop]
  nodup := nodup_cons.mpr ⟨hnew, hrest.nodup⟩

/-- From behind the follower's snapshot the loop only moves down. -/
lemma converges_down (h : Matching c.log follower led followed)
    (hstarts : SameStarts c.log follower led followed) (hp : Parts c.log follower led followed point)
    (hmax : c.log.lastIndex < maxUint64) (hmch : matchIndex ≤ point) (count : Nat → Nat) (next : Nat)
    (hlast : next ≤ c.log.lastIndex + 1) (hplc : follower.snapshotIndex < next ∨ next ≤ c.log.snapshotIndex) :
    ∃ visited, Converges c follower matchIndex count next visited ∧ ∀ v ∈ visited,
      v ≤ next ∧ (follower.snapshotIndex < v ∨ v ≤ c.log.snapshotIndex) := by
  induction next using Nat.strong_induction_on with
  | _ next ih =>
    have hone : ∀ v ∈ [next], v ≤ next ∧ (follower.snapshotIndex < v ∨ v ≤ c.log.snapshotIndex) := by
      intro v hv
      rw [mem_singleton.mp hv]
      exact ⟨le_refl _, hplc⟩
    by_cases hneeded : next ≤ c.log.snapshotIndex
    · exact ⟨[next], .last (by unfold probe; rw [if_pos hneeded]) (.inr rfl), hone⟩
    have hsnap := not_le.mp hneeded
    have hkept : follower.snapshotIndex < next := hplc.resolve_right hneeded
    by_cases hnear : next ≤ point + 1
    · exact ⟨[next], .last (probe_accepted h hp hsnap hkept hnear) (.inl rfl), hone⟩
    obtain ⟨next', hrejec, hless, hnext'⟩ :=
      probe_behind h hstarts hp hmax hmch (count next) hsnap (not_le.mp hnear) hlast
    have hbase := h.snapshotIndex_le hp
    obtain ⟨visited, hconv, hvisited⟩ := ih next' hless (by omega) (by omega)
    refine ⟨next :: visited, .cons hrejec hconv ?_, ?_⟩
    · intro hmem
      have := (hvisited next hmem).1
      omega
    intro v hv
    rcases mem_cons.mp hv with rfl | hv
    · exact ⟨le_refl _, hplc⟩
    have hv := hvisited v hv
    exact ⟨by omega, hv.2⟩

/-- The search for where the logs agree ends, and `NextIndex` takes no value twice. -/
theorem repair_converges (h : Matching c.log follower led followed)
    (hstarts : SameStarts c.log follower led followed) (hmax : c.log.lastIndex < maxUint64)
    (hmatch : matchIndex ≤ c.log.lastIndex ∧ matchIndex ≤ follower.lastIndex ∧
      led matchIndex = followed matchIndex)
    (count : Nat → Nat) {next : Nat} (hlast : next ≤ c.log.lastIndex + 1) :
    ∃ fuel visited answer, c.repairLoop follower matchIndex count fuel next = (visited, answer) ∧
      (answer = .accepted ∨ answer = .snapshotNeeded) ∧ visited.Nodup := by
  obtain ⟨point, hp⟩ := h.exists_parts
  have hmtd : matchIndex ≤ point := hp.agreed_le hmatch.1 hmatch.2.1 hmatch.2.2
  have hall : ∃ visited, Converges c follower matchIndex count next visited := by
    by_cases hplc : follower.snapshotIndex < next ∨ next ≤ c.log.snapshotIndex
    · obtain ⟨visited, hconv, -⟩ := converges_down h hstarts hp hmax hmtd count next hlast hplc
      exact ⟨visited, hconv⟩
    obtain ⟨hkept, hsnap⟩ := not_or.mp hplc
    obtain ⟨next', hrejec, hup, hlast'⟩ := probe_compacted h hmax hmatch.1 (count next)
      (not_le.mp hsnap) (not_lt.mp hkept)
    obtain ⟨visited, hconv, hvisited⟩ := converges_down h hstarts hp hmax hmtd count next' hlast' (.inl hup)
    exact ⟨_, .cons hrejec hconv fun hmem => hplc (hvisited next hmem).2⟩
  obtain ⟨visited, hconv⟩ := hall
  obtain ⟨fuel, answer, hloop, hgood⟩ := hconv.ends
  exact ⟨fuel, visited, answer, hloop, hgood, hconv.nodup⟩

/-! ### Two logs

A leader whose log has the terms 1, 1, 2. -/

/-- The log that keeps a history from `base` to `last`. -/
def logOf (history : Nat → Nat) (base last : Nat) : Log :=
  ⟨base, history base, base, base, last,
    (List.range (last - base)).map fun i => ⟨base + i + 1, history (base + i + 1), .command, []⟩⟩

lemma keeps_of_checked {l : Log} (hsuffix : checkSuffix l.snapshotIndex l.entries = .ok l.lastIndex)
    (hbase : l.snapshotIndex = 0 ↔ l.snapshotTerm = 0)
    (hordered : l.snapshotIndex ≤ l.appliedIndex ∧ l.appliedIndex ≤ l.commitIndex ∧
      l.commitIndex ≤ l.lastIndex ∧ l.lastIndex ≤ maxUint64)
    (hsort : (l.snapshotTerm :: l.entries.map (·.term)).Pairwise (· ≤ ·))
    (hterm : ∀ i ≤ l.lastIndex, l.snapshotIndex ≤ i → l.term i = .ok (history i))
    (hmono : ∀ j ≤ l.lastIndex, ∀ i ≤ j, history i ≤ history j) (horigin : history 0 = 0) :
    l.Keeps history := by
  obtain ⟨happd, hcmt, hlast, hmax⟩ := hordered
  obtain ⟨hidxd, hval, hlen, -⟩ := (checkSuffix_eq_ok (by omega)).mp hsuffix
  exact ⟨⟨hlen, hidxd, hval, hbase, happd, hcmt, hlast, hmax, hsort⟩,
    fun hlo hhi => hterm _ hhi hlo, fun hij hj => hmono _ hj _ hij, horigin⟩

def leaderHistory (i : Nat) : Nat := [0, 1, 1].getD i 2

def sampleLeader : Core :=
  initialCore ⟨1, .three [], ⟨2, 1, 0⟩, logOf leaderHistory 0 3, 0,
    6, 12, 2, 0, 0⟩ (logOf leaderHistory 0 3) 2 6

/-- A follower that has compacted its only two entries, which the leader has, too. -/
theorem repair_converges_compacted : ∃ fuel visited answer,
    sampleLeader.repairLoop (logOf leaderHistory 2 2) 0 (fun _ => 1) fuel 2 = (visited, answer) ∧
      (answer = .accepted ∨ answer = .snapshotNeeded) ∧ visited.Nodup := by
  have hmatch : Matching sampleLeader.log (logOf leaderHistory 2 2) leaderHistory leaderHistory :=
    ⟨keeps_of_checked rfl (by decide) (by decide) (by decide) (by decide) (by decide) rfl,
      keeps_of_checked rfl (by decide) (by decide) (by decide) (by decide) (by decide) rfl, fun _ _ _ _ _ => rfl,
      fun i hi => ⟨le_trans hi (by decide), rfl⟩⟩
  have hstarts : ∀ i ≤ 3, ∀ j ≤ 2, 0 < i ∧ 0 < j ∧ leaderHistory i = leaderHistory j ∧
      leaderHistory (i - 1) ≠ leaderHistory i ∧ leaderHistory (j - 1) ≠ leaderHistory j → i = j := by
    decide
  exact repair_converges hmatch
    (fun i j hi hi' hj hj' heq h1 h2 => hstarts i hi' j hj' ⟨hi, hj, heq, h1, h2⟩) (by decide) (by decide) _
    (by decide)

def otherHistory (i : Nat) : Nat := [0, 1].getD i 2

/-- The follower has the terms 1, 2: one that the leader has as well, but from another index on. The
leader goes to the end of its own entries of that term, finds the follower's log too short, and is sent
back. -/
theorem repair_cycles : Matching sampleLeader.log (logOf otherHistory 0 2) leaderHistory otherHistory ∧
    ∀ fuel, ∃ next, (sampleLeader.repairLoop (logOf otherHistory 0 2) 0 (fun _ => 1) fuel 4).2 =
      .rejected next := by
  have hmatch : ∀ i ≤ 3, i ≤ 2 → leaderHistory i = otherHistory i →
      ∀ j ≤ i, leaderHistory j = otherHistory j := by decide
  refine ⟨⟨keeps_of_checked rfl (by decide) (by decide) (by decide) (by decide) (by decide) rfl,
    keeps_of_checked rfl (by decide) (by decide) (by decide) (by decide) (by decide) rfl,
    fun {i} h1 h2 => hmatch i h1 h2, by decide⟩, fun fuel => ?_⟩
  have hdown : sampleLeader.probe (logOf otherHistory 0 2) 0 1 4 = .rejected 3 := by decide
  have hup : sampleLeader.probe (logOf otherHistory 0 2) 0 1 3 = .rejected 4 := by decide
  have hboth : ∀ fuel next, next = 3 ∨ next = 4 → ∃ last,
      (sampleLeader.repairLoop (logOf otherHistory 0 2) 0 (fun _ => 1) fuel next).2 = .rejected last := by
    intro fuel
    induction fuel with
    | zero => exact fun next _ => ⟨next, rfl⟩
    | succ _ ih =>
      intro next hnext
      unfold repairLoop
      rcases hnext with rfl | rfl
      · rw [hup]
        exact ih 4 (.inr rfl)
      rw [hdown]
      exact ih 3 (.inl rfl)
  exact hboth fuel 4 (.inr rfl)

end Core

end Crane.Raft
