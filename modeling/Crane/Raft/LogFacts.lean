import Mathlib.Data.List.Infix
import Mathlib.Data.List.TakeDrop
import Crane.Program.Ensures
import Crane.Raft.Log

/-!
# What the log keeps

`Log.Valid` is what a log always satisfies: the retained entries are valid and follow the base
without a gap, terms never fall, base, applied, commit and last index are in that order. Each
method gets one lemma that says what it returns on a valid log; callers never look at its body
again. `append` replaces the retained suffix by `splice`, which compares terms only — that this
is the same as comparing entries is a fact about clusters, not about one log.
-/

namespace Crane.Raft

open Program List Except

variable {start i t prev prevTerm : Nat} {e : Entry} {entries mine : List Entry} {l' : Log}

/-! ## Contiguous entries -/

/-- The entries are those of the indices `start + 1`, `start + 2`, and so on. -/
def Contiguous (start : Nat) (entries : List Entry) : Prop :=
  ∀ i e, entries[i]? = some e → e.index = start + i + 1

lemma Contiguous.nil (start : Nat) : Contiguous start [] := by
  intro i e h
  simp at h

lemma contiguous_append {xs ys : List Entry} :
    Contiguous start (xs ++ ys) ↔ Contiguous start xs ∧ Contiguous (start + xs.length) ys := by
  constructor
  · intro h
    refine ⟨fun i e he => h i e ?_, fun i e he => ?_⟩
    · obtain ⟨hlt, -⟩ := List.getElem?_eq_some_iff.mp he
      rw [getElem?_append_left hlt]
      exact he
    have := h (xs.length + i) e (by rw [getElem?_append_right (by omega)]; simpa using he)
    omega
  rintro ⟨hx, hy⟩ i e he
  by_cases hi : i < xs.length
  · rw [getElem?_append_left hi] at he
    exact hx i e he
  rw [getElem?_append_right (by omega)] at he
  have := hy (i - xs.length) e he
  omega

lemma contiguous_cons {rest : List Entry} :
    Contiguous start (e :: rest) ↔ e.index = start + 1 ∧ Contiguous (start + 1) rest := by
  rw [← singleton_append, contiguous_append]
  refine and_congr_left fun _ => ⟨fun h => by simpa using h 0 e rfl, fun h i x hx => ?_⟩
  cases i with
  | zero =>
    simp only [getElem?_cons_zero, Option.some.injEq] at hx
    rw [← hx, h]
  | succ => simp at hx

section

variable (h : Contiguous start entries)

include h

lemma Contiguous.take (k : Nat) : Contiguous start (entries.take k) := by
  rw [← take_append_drop k entries, contiguous_append] at h
  exact h.1

lemma Contiguous.drop (k : Nat) : Contiguous (start + k) (entries.drop k) := by
  intro i e he
  rw [getElem?_drop] at he
  have := h (k + i) e he
  omega

lemma Contiguous.getElem?_index (he : e ∈ entries) :
    start < e.index ∧ e.index ≤ start + entries.length ∧ entries[e.index - start - 1]? = some e := by
  obtain ⟨i, hi, heq⟩ := getElem_of_mem he
  have hopt : entries[i]? = some e := by rw [getElem?_eq_getElem hi, heq]
  have hidx := h i e hopt
  refine ⟨by omega, by omega, ?_⟩
  rw [hidx]
  have : start + i + 1 - start - 1 = i := by omega
  rw [this]
  exact hopt

end

/-- A position of a contiguous list holds the entry with that index. -/
lemma Contiguous.getElem?_mem (h : Contiguous 0 entries) (he : e ∈ entries) :
    0 < e.index ∧ entries[e.index - 1]? = some e := by
  obtain ⟨hlt, -, hget⟩ := h.getElem?_index he
  exact ⟨hlt, by simpa using hget⟩

lemma Contiguous.last_index (h : Contiguous start entries) (hne : entries ≠ []) :
    (entries.getLast hne).index = start + entries.length := by
  have hpos : 0 < entries.length := length_pos_iff.mpr hne
  have := h (entries.length - 1) (entries.getLast hne) (by
    rw [getLast_eq_getElem, getElem?_eq_getElem (by omega)])
  omega

/-- An index occurs among contiguous entries exactly when it is in their range. -/
lemma Contiguous.any_index {index : Nat} (h : Contiguous start entries) :
    entries.any (·.index = index) = true ↔ start < index ∧ index ≤ start + entries.length := by
  rw [any_eq_true]
  constructor
  · rintro ⟨e, he, heq⟩
    have hidx : e.index = index := by simpa using heq
    obtain ⟨h1, h2, -⟩ := h.getElem?_index he
    omega
  rintro ⟨h1, h2⟩
  have hlt : index - start - 1 < entries.length := by omega
  refine ⟨entries[index - start - 1], getElem_mem hlt, ?_⟩
  have := h (index - start - 1) _ (getElem?_eq_getElem hlt)
  simp only [decide_eq_true_eq]
  omega

lemma checkSuffix_eq_ok {next last : Nat} (hb : next ≤ maxUint64) : checkSuffix next entries = .ok last ↔
      Contiguous next entries ∧ (∀ e ∈ entries, e.Valid) ∧ last = next + entries.length ∧ last ≤ maxUint64 := by
  induction entries generalizing next with
  | nil =>
    simp only [checkSuffix, ok.injEq, not_mem_nil, length_nil, Nat.add_zero]
    constructor
    · rintro rfl
      exact ⟨.nil _, fun _ h => h.elim, rfl, hb⟩
    rintro ⟨-, -, h, -⟩
    exact h.symm
  | cons e _ ih =>
    rw [checkSuffix]
    cases hn : checkedNextIndex next with
    | none =>
      rw [checkedNextIndex_eq_none] at hn
      simp only [reduceCtorEq, false_iff]
      rintro ⟨-, -, h, h'⟩
      simp only [length_cons] at h
      omega
    | some =>
      obtain ⟨hne, rfl⟩ := checkedNextIndex_eq_some.mp hn
      simp only
      have hb' : next + 1 ≤ maxUint64 := by omega
      split
      · next hgap =>
        simp only [reduceCtorEq, false_iff, contiguous_cons]
        rintro ⟨⟨h, -⟩, -⟩
        exact hgap h
      next hidx =>
      have hidx : e.index = next + 1 := by simpa using hidx
      cases hv : validateLogEntry e with
      | error =>
        simp only [reduceCtorEq, false_iff]
        rintro ⟨-, h, -⟩
        rw [validateLogEntry_eq_ok.mpr (h e (by simp))] at hv
        cases hv
      | ok =>
        have hve := validateLogEntry_eq_ok.mp hv
        simp only [ih hb', contiguous_cons, hidx, true_and, mem_cons, forall_eq_or_imp, hve, length_cons]
        constructor
        · rintro ⟨h1, h2, h3, h4⟩
          exact ⟨h1, h2, by omega, h4⟩
        rintro ⟨h1, h2, h3, h4⟩
        exact ⟨h1, h2, by omega, h4⟩

/-! ## Valid logs -/

/-- What every log of a running voter satisfies. -/
structure Log.Valid (l : Log) : Prop where
  last : l.lastIndex = l.snapshotIndex + l.entries.length
  indexed : Contiguous l.snapshotIndex l.entries
  valid : ∀ e ∈ l.entries, e.Valid
  base : l.snapshotIndex = 0 ↔ l.snapshotTerm = 0
  applied_ge : l.snapshotIndex ≤ l.appliedIndex
  commit_ge : l.appliedIndex ≤ l.commitIndex
  commit_le : l.commitIndex ≤ l.lastIndex
  bound : l.lastIndex ≤ maxUint64
  sorted : (l.snapshotTerm :: l.entries.map (·.term)).Pairwise (· ≤ ·)

namespace Log

variable {l : Log}

lemma Valid.base_le (h : l.Valid) : l.snapshotIndex ≤ l.lastIndex := by
  have := h.last
  omega

lemma Valid.snapshotIndex_le_commit (h : l.Valid) : l.snapshotIndex ≤ l.commitIndex :=
  h.applied_ge.trans h.commit_ge

lemma Valid.retainedOffset_eq (h : l.Valid) (h1 : l.snapshotIndex < i) (h2 : i ≤ l.lastIndex) :
    ∃ hlt : i - l.snapshotIndex - 1 < l.entries.length,
      l.retainedOffset i = .ok ⟨i - l.snapshotIndex - 1, hlt⟩ := by
  have hlast := h.last
  have hlt : i - l.snapshotIndex - 1 < l.entries.length := by omega
  refine ⟨hlt, ?_⟩
  unfold retainedOffset
  rw [if_neg (by omega), if_neg (by omega), dif_pos hlt]

lemma Valid.retainedOffset_above (h : l.Valid) (habv : l.lastIndex < i) :
    l.retainedOffset i = .error .logUnavailable ∧ l.entries[i - l.snapshotIndex - 1]? = none := by
  have hlast := h.last
  refine ⟨?_, getElem?_eq_none (by omega)⟩
  unfold retainedOffset
  rw [if_neg (by omega), if_pos (by omega)]

lemma Valid.entry_eq_ok (h : l.Valid) :
    l.entry i = .ok e ↔ l.snapshotIndex < i ∧ l.entries[i - l.snapshotIndex - 1]? = some e := by
  unfold entry
  by_cases h1 : i ≤ l.snapshotIndex
  · rw [if_pos h1]
    simp only [reduceCtorEq, false_iff]
    omega
  rw [if_neg h1]
  by_cases h2 : i ≤ l.lastIndex
  · obtain ⟨hlt, ho⟩ := h.retainedOffset_eq (by omega) h2
    rw [ho]
    simp only [ok.injEq, get_eq_getElem]
    rw [getElem?_eq_getElem hlt, Option.some.injEq]
    exact ⟨fun he => ⟨by omega, he⟩, fun he => he.2⟩
  obtain ⟨ho, hnone⟩ := h.retainedOffset_above (not_le.mp h2)
  rw [ho, hnone]
  simp

lemma Valid.term_eq_ok (h : l.Valid) : l.term i = .ok t ↔ (i = l.snapshotIndex ∧ t = l.snapshotTerm) ∨
      (l.snapshotIndex < i ∧ ∃ e, l.entries[i - l.snapshotIndex - 1]? = some e ∧ e.term = t) := by
  unfold term
  by_cases h1 : i < l.snapshotIndex
  · rw [if_pos h1]
    simp only [reduceCtorEq, false_iff]
    omega
  rw [if_neg h1]
  by_cases h2 : i = l.snapshotIndex
  · rw [if_pos h2, ok.injEq]
    constructor
    · rintro rfl
      exact .inl ⟨h2, rfl⟩
    rintro (⟨-, rfl⟩ | ⟨hlt, -⟩)
    · rfl
    · omega
  rw [if_neg h2]
  by_cases h3 : i ≤ l.lastIndex
  · obtain ⟨hlt, ho⟩ := h.retainedOffset_eq (by omega) h3
    rw [ho]
    simp only [ok.injEq, get_eq_getElem]
    rw [getElem?_eq_getElem hlt]
    constructor
    · intro ht
      exact .inr ⟨by omega, _, rfl, ht⟩
    rintro (⟨hi, -⟩ | ⟨-, e, he, ht⟩)
    · exact absurd hi h2
    rw [Option.some.injEq] at he
    rw [he]
    exact ht
  obtain ⟨ho, hnone⟩ := h.retainedOffset_above (not_le.mp h3)
  rw [ho, hnone]
  simp [h2]

/-- Positions from the base to the last index have a term. -/
lemma Valid.exists_term (h : l.Valid) (h1 : l.snapshotIndex ≤ i) (h2 : i ≤ l.lastIndex) :
    ∃ t, l.term i = .ok t := by
  have hlast := h.last
  rcases h1.eq_or_lt with rfl | hlt
  · exact ⟨_, h.term_eq_ok.mpr (.inl ⟨rfl, rfl⟩)⟩
  have hlen : i - l.snapshotIndex - 1 < l.entries.length := by omega
  exact ⟨_, h.term_eq_ok.mpr (.inr ⟨hlt, _, getElem?_eq_getElem hlen, rfl⟩)⟩

lemma Valid.exists_entry (h : l.Valid) (h1 : l.snapshotIndex < i) (h2 : i ≤ l.lastIndex) :
    ∃ e, l.entry i = .ok e := by
  have hlast := h.last
  have hlen : i - l.snapshotIndex - 1 < l.entries.length := by omega
  exact ⟨_, h.entry_eq_ok.mpr ⟨h1, getElem?_eq_getElem hlen⟩⟩

/-- The position of a term is between the base and the last index. -/
lemma Valid.term_range (h : l.Valid) (ht : l.term i = .ok t) : l.snapshotIndex ≤ i ∧ i ≤ l.lastIndex := by
  have hlast := h.last
  rcases h.term_eq_ok.mp ht with ⟨rfl, -⟩ | ⟨hlt, e, he, -⟩
  · omega
  obtain ⟨hlen, -⟩ := List.getElem?_eq_some_iff.mp he
  omega

lemma Valid.term_error (h : l.Valid) {err : RaftError} (he : l.term i = .error err) :
    (i < l.snapshotIndex ∧ err = .logCompacted) ∨ (l.lastIndex < i ∧ err = .logUnavailable) := by
  by_cases h1 : i < l.snapshotIndex
  · unfold term at he
    rw [if_pos h1] at he
    simp only [error.injEq] at he
    exact .inl ⟨h1, he.symm⟩
  by_cases h2 : i ≤ l.lastIndex
  · obtain ⟨t, ht⟩ := h.exists_term (by omega) h2
    rw [ht] at he
    cases he
  have hlast := h.last
  have ho : l.retainedOffset i = .error .logUnavailable := by
    unfold retainedOffset
    rw [if_neg (by omega), if_pos (by omega)]
  unfold term at he
  rw [if_neg h1, if_neg (by omega), ho] at he
  simp only [error.injEq] at he
  exact .inr ⟨by omega, he.symm⟩

/-- The last term is the term at the last index. -/
lemma Valid.term_last (h : l.Valid) : l.term l.lastIndex = .ok l.lastTerm := by
  rw [h.term_eq_ok]
  have hlast := h.last
  unfold lastTerm
  cases hl : l.entries.getLast? with
  | none =>
    rw [getLast?_eq_none_iff] at hl
    refine .inl ⟨?_, rfl⟩
    rw [hlast, hl]
    simp
  | some e =>
    have hne : l.entries ≠ [] := by rintro h0; simp [h0] at hl
    have hpos : 0 < l.entries.length := length_pos_iff.mpr hne
    refine .inr ⟨by omega, e, ?_, rfl⟩
    rw [getLast?_eq_getElem?] at hl
    rw [← hl]
    congr 1
    omega

/-- The base term and the terms of the entries after it. -/
def terms (l : Log) : List Nat := l.snapshotTerm :: l.entries.map (·.term)

lemma Valid.getElem?_terms (h : l.Valid) (ht : l.term i = .ok t) :
    l.snapshotIndex ≤ i ∧ l.terms[i - l.snapshotIndex]? = some t := by
  rcases h.term_eq_ok.mp ht with ⟨rfl, rfl⟩ | ⟨hlt, e, he, rfl⟩
  · simp [terms]
  refine ⟨hlt.le, ?_⟩
  obtain ⟨j, hj⟩ : ∃ j, i - l.snapshotIndex = j + 1 := ⟨i - l.snapshotIndex - 1, by omega⟩
  rw [hj, Nat.add_sub_cancel] at he
  rw [hj]
  simp [terms, he]

/-- Terms never fall along the log, the base included. -/
lemma Valid.term_mono (h : l.Valid) {j u : Nat} (hi : l.term i = .ok t) (hj : l.term j = .ok u)
    (hij : i ≤ j) : t ≤ u := by
  obtain ⟨hi0, hi⟩ := h.getElem?_terms hi
  obtain ⟨hj0, hj⟩ := h.getElem?_terms hj
  obtain ⟨hil, rfl⟩ := List.getElem?_eq_some_iff.mp hi
  obtain ⟨hjl, rfl⟩ := List.getElem?_eq_some_iff.mp hj
  rcases hij.eq_or_lt with rfl | hlt
  · exact le_rfl
  · exact pairwise_iff_getElem.mp h.sorted _ _ hil hjl (by omega)

lemma Valid.term_le_lastTerm (h : l.Valid) (ht : l.term i = .ok t) : t ≤ l.lastTerm :=
  h.term_mono ht h.term_last (h.term_range ht).2

lemma Valid.term_entry (h : l.Valid) (he : l.entry i = .ok e) : l.term i = .ok e.term := by
  obtain ⟨hlt, hget⟩ := h.entry_eq_ok.mp he
  exact h.term_eq_ok.mpr (.inr ⟨hlt, e, hget, rfl⟩)

lemma Valid.entry_of_mem (h : l.Valid) (he : e ∈ l.entries) : l.entry e.index = .ok e := by
  obtain ⟨h1, -, h3⟩ := h.indexed.getElem?_index he
  exact h.entry_eq_ok.mpr ⟨h1, h3⟩

/-- Only the empty log's base has term zero. -/
lemma Valid.term_zero_iff (h : l.Valid) (ht : l.term i = .ok t) : i = 0 ↔ t = 0 := by
  rcases h.term_eq_ok.mp ht with ⟨rfl, rfl⟩ | ⟨hlt, e, he, rfl⟩
  · exact h.base
  have := (h.valid e (mem_of_getElem? he)).term_pos
  omega

/-! ## Construction and repair -/

lemma newLog_eq_ok {base baseTerm commit applied : Nat} {l : Log} (hb : base ≤ maxUint64) :
    newLog base baseTerm commit applied entries = .ok l ↔
      (base = 0 ↔ baseTerm = 0) ∧ base ≤ applied ∧ applied ≤ commit ∧ Contiguous base entries ∧
        (∀ e ∈ entries, e.Valid) ∧ commit ≤ base + entries.length ∧ base + entries.length ≤ maxUint64 ∧
        l = ⟨base, baseTerm, commit, applied, base + entries.length, entries⟩ := by
  rw [newLog, ite_error_eq_ok, ite_error_eq_ok, ne_eq, not_not, eq_iff_iff, not_or, not_lt, not_lt, and_assoc]
  refine and_congr_right fun _ => and_congr_right fun _ => and_congr_right fun _ => ?_
  cases hs : checkSuffix base entries with
  | error =>
    simp only [reduceCtorEq, false_iff]
    rintro ⟨hc, hv, -, hmax, -⟩
    rw [(checkSuffix_eq_ok hb).mpr ⟨hc, hv, rfl, hmax⟩] at hs
    cases hs
  | ok =>
    obtain ⟨hc, hv, rfl, hmax⟩ := (checkSuffix_eq_ok hb).mp hs
    simp only
    rw [ite_error_eq_ok, not_lt, ok.injEq, @eq_comm _ l]
    exact ⟨fun h => ⟨hc, hv, h.1, hmax, h.2⟩, fun h => ⟨h.2.2.1, h.2.2.2.2⟩⟩

/-- Building a log from the parts of a valid one gives it back. -/
lemma Valid.newLog_self (h : l.Valid) : newLog l.snapshotIndex l.snapshotTerm l.commitIndex
    l.appliedIndex l.entries = .ok l := by
  have hlast := h.last
  have hbase := h.base_le
  have hbd := h.bound
  have hcmt := h.commit_le
  rw [newLog_eq_ok (by omega)]
  refine ⟨h.base, h.applied_ge, h.commit_ge, h.indexed, h.valid, by omega, by omega, ?_⟩
  rw [← hlast]

/-- Put `entries` over a retained suffix: terms that agree are kept, the rest replaced from the
    first that does not. -/
def splice : List Entry → List Entry → List Entry
  | mine, [] => mine
  | [], entries => entries
  | m :: mine, e :: entries => if m.term = e.term then m :: splice mine entries else e :: entries

@[simp] lemma splice_nil_right (mine : List Entry) : splice mine [] = mine := by cases mine <;> rfl

@[simp] lemma splice_nil_left (entries : List Entry) : splice [] entries = entries := by cases entries <;> rfl

/-- The repair loop splices the entries over the suffix after the position before them, and
    keeps everything up to the commit index. -/
lemma Valid.repair_ok (h : l.Valid) (hc : Contiguous prev entries) (hlo : l.snapshotIndex ≤ prev)
    (hhi : prev ≤ l.lastIndex) (hr : l.repair entries = .ok l') :
    l'.entries = l.entries.take (prev - l.snapshotIndex) ++
        splice (l.entries.drop (prev - l.snapshotIndex)) entries ∧
      l' = { l with entries := l'.entries, lastIndex := l.snapshotIndex + l'.entries.length } ∧
      l'.entries.take (l.commitIndex - l.snapshotIndex) = l.entries.take (l.commitIndex - l.snapshotIndex) := by
  have hlast := h.last
  have hcmt := h.commit_le
  induction entries generalizing prev with
  | nil =>
    simp only [repair, ok.injEq] at hr
    subst hr
    refine ⟨by simp, ?_, rfl⟩
    rw [← hlast]
  | cons e _ ih =>
    obtain ⟨hidx, hrest⟩ := contiguous_cons.mp hc
    have hlastIdx := hc.last_index (by simp)
    rw [repair] at hr
    by_cases hend : e.index > l.lastIndex
    · rw [if_pos hend, ok.injEq] at hr
      have hprev : prev - l.snapshotIndex = l.entries.length := by omega
      subst hr
      rw [hprev]
      refine ⟨by simp, ?_, ?_⟩
      · simp only [hlastIdx, length_append, length_cons, Log.mk.injEq, true_and, and_true]
        omega
      · rw [take_append_of_le_length (by omega)]
    rw [if_neg hend] at hr
    obtain ⟨hlt, ho⟩ := h.retainedOffset_eq (i := e.index) (by omega) (by omega)
    have hoff : e.index - l.snapshotIndex - 1 = prev - l.snapshotIndex := by omega
    rw [ho] at hr
    simp only [get_eq_getElem, hoff] at hr hlt
    rw [drop_eq_getElem_cons hlt]
    by_cases hterm : (l.entries[prev - l.snapshotIndex]).term = e.term
    · rw [if_pos hterm] at hr
      obtain ⟨h1, h2, h3⟩ := ih hrest (by omega) (by omega) hr
      refine ⟨?_, h2, h3⟩
      have hsucc : prev + 1 - l.snapshotIndex = prev - l.snapshotIndex + 1 := by omega
      rw [h1, hsucc, take_succ_eq_append_getElem hlt, splice, if_pos hterm, append_assoc, singleton_append]
    rw [if_neg hterm] at hr
    by_cases hcom : e.index ≤ l.commitIndex
    · rw [if_pos hcom] at hr
      cases hr
    rw [if_neg hcom, ok.injEq] at hr
    subst hr
    rw [splice, if_neg hterm]
    refine ⟨rfl, ?_, ?_⟩
    · simp only [hlastIdx, length_append, length_take, length_cons, Log.mk.injEq, true_and, and_true]
      omega
    · rw [take_append_of_le_length (by rw [length_take]; omega), take_take, Nat.min_eq_left (by omega)]

/-- What a successful `append` has checked and done. -/
structure Appended (l : Log) (prev prevTerm : Nat) (entries : List Entry) (l' : Log) : Prop where
  prev_term : l.term prev = .ok prevTerm
  contiguous : Contiguous prev entries
  valid : ∀ e ∈ entries, e.Valid
  bound : prev + entries.length ≤ maxUint64
  entries_eq : l'.entries = l.entries.take (prev - l.snapshotIndex) ++
    splice (l.entries.drop (prev - l.snapshotIndex)) entries
  shape : l' = { l with
    entries := l'.entries, lastIndex := l.snapshotIndex + l'.entries.length }
  kept : l'.entries.take (l.commitIndex - l.snapshotIndex) = l.entries.take (l.commitIndex - l.snapshotIndex)

lemma Valid.append_ok (h : l.Valid) (ha : l.append prev prevTerm entries = .ok l') :
    Appended l prev prevTerm entries l' := by
  unfold append at ha
  cases ht : l.term prev with
  | error =>
    rcases h.term_error ht with ⟨-, rfl⟩ | ⟨-, rfl⟩
    · rw [ht] at ha
      cases ha
    rw [ht] at ha
    simp only at ha
    split at ha <;> cases ha
  | ok localTerm =>
    rw [ht] at ha
    simp only at ha
    obtain ⟨hlo, hhi⟩ := h.term_range ht
    have hbd := h.bound
    split at ha
    · split at ha <;> cases ha
    next heq =>
    have heq : localTerm = prevTerm := not_not.mp heq
    subst heq
    split at ha
    · next hnil =>
      rw [ok.injEq] at ha
      subst ha hnil
      refine ⟨ht, .nil _, by simp, by simpa using hhi.trans hbd, by simp, ?_, rfl⟩
      rw [← h.last]
    cases hs : checkSuffix prev entries with
    | error => rw [hs] at ha; cases ha
    | ok =>
      obtain ⟨hc, hv, rfl, hmax⟩ := (checkSuffix_eq_ok (hhi.trans hbd)).mp hs
      rw [hs] at ha
      simp only at ha
      cases hr : l.repair entries with
      | error => rw [hr] at ha; cases ha
      | ok =>
        rw [hr] at ha
        simp only [ok.injEq] at ha
        subst ha
        obtain ⟨h1, h2, h3⟩ := h.repair_ok hc hlo hhi hr
        exact ⟨ht, hc, hv, hmax, h1, h2, h3⟩

/-- The log after one entry was put behind it. -/
def snoc (l : Log) (e : Entry) : Log := { l with entries := l.entries ++ [e], lastIndex := l.lastIndex + 1 }

@[simp] lemma lastTerm_snoc (l : Log) (e : Entry) : (l.snoc e).lastTerm = e.term := by simp [lastTerm, snoc]

/-- An entry that continues the log where it ends is simply put behind it. -/
lemma Valid.append_end (h : l.Valid) (hidx : e.index = l.lastIndex + 1) (hv : e.Valid)
    (hmax : l.lastIndex < maxUint64) : l.append l.lastIndex l.lastTerm [e] = .ok (l.snoc e) := by
  unfold append snoc
  have hc : Contiguous l.lastIndex [e] := contiguous_cons.mpr ⟨hidx, .nil _⟩
  have hs : checkSuffix l.lastIndex [e] = .ok (l.lastIndex + 1) :=
    (checkSuffix_eq_ok h.bound).mpr ⟨hc, by simpa using hv, by simp, by omega⟩
  rw [h.term_last]
  simp only [ne_eq, not_true_eq_false, if_false, cons_ne_self, hs]
  rw [repair, if_pos (by omega)]
  simp [hidx]

lemma pairwise_le_cons_cons {a b : Nat} {xs : List Nat} :
    (a :: b :: xs).Pairwise (· ≤ ·) ↔ a ≤ b ∧ (b :: xs).Pairwise (· ≤ ·) := by
  rw [pairwise_cons]
  refine ⟨fun h => ⟨h.1 b (by simp), h.2⟩, fun h => ⟨fun x hx => ?_, h.2⟩⟩
  rcases mem_cons.mp hx with rfl | hx
  · exact h.1
  · exact h.1.trans (rel_of_pairwise_cons h.2 hx)

lemma splice_sorted (hm : (t :: mine.map (·.term)).Pairwise (· ≤ ·))
    (he : (t :: entries.map (·.term)).Pairwise (· ≤ ·)) :
    (t :: (splice mine entries).map (·.term)).Pairwise (· ≤ ·) := by
  induction mine generalizing t entries with
  | nil => simpa using he
  | cons _ _ ih =>
    cases entries with
    | nil => simpa using hm
    | cons =>
      rw [splice]
      split
      · next hterm =>
        rw [map_cons, pairwise_le_cons_cons] at hm he ⊢
        exact ⟨hm.1, ih hm.2 (hterm ▸ he.2)⟩
      · exact he

lemma mem_splice {x : Entry} (hx : x ∈ splice mine entries) : x ∈ mine ∨ x ∈ entries := by
  induction mine generalizing entries with
  | nil => exact .inr (by simpa using hx)
  | cons _ _ ih =>
    cases entries with
    | nil => exact .inl (by simpa using hx)
    | cons =>
      rw [splice] at hx
      split at hx
      · rcases mem_cons.mp hx with rfl | hx
        · exact .inl (by simp)
        rcases ih hx with h | h
        · exact .inl (by simp [h])
        · exact .inr (by simp [h])
      · exact .inr hx

lemma splice_contiguous (hm : Contiguous start mine) (he : Contiguous start entries) :
    Contiguous start (splice mine entries) := by
  induction mine generalizing start entries with
  | nil => simpa using he
  | cons _ _ ih =>
    cases entries with
    | nil => simpa using hm
    | cons =>
      rw [splice]
      split
      · rw [contiguous_cons] at hm he ⊢
        exact ⟨hm.1, ih hm.2 he.2⟩
      · exact he

lemma splice_length (mine entries : List Entry) : (splice mine entries).length = entries.length ∨
      (splice mine entries).length = max mine.length entries.length := by
  induction mine generalizing entries with
  | nil => simp
  | cons _ _ ih =>
    cases entries with
    | nil => simp
    | cons _ entries =>
      rw [splice]
      split
      · rcases ih entries with h | h
        · left; simp [h]
        · right; simp [h]
      · exact .inl rfl

/-- The suffix after a position, with the position's term in front. -/
lemma Valid.sorted_drop (h : l.Valid) (ht : l.term i = .ok t) :
    (t :: (l.entries.drop (i - l.snapshotIndex)).map (·.term)).Pairwise (· ≤ ·) := by
  obtain ⟨-, hget⟩ := h.getElem?_terms ht
  obtain ⟨hlt, heq⟩ := List.getElem?_eq_some_iff.mp hget
  have hdrop : l.terms.drop (i - l.snapshotIndex) = t :: (l.entries.drop (i - l.snapshotIndex)).map (·.term) := by
    rw [drop_eq_getElem_cons hlt, heq, terms, drop_succ_cons, map_drop]
  rw [← hdrop]
  exact h.sorted.sublist (drop_sublist _ _)

/-- Everything up to a position has at most its term. -/
lemma Valid.take_le (h : l.Valid) (ht : l.term i = .ok t) {u : Nat}
    (hu : u ∈ l.snapshotTerm :: (l.entries.take (i - l.snapshotIndex)).map (·.term)) : u ≤ t := by
  obtain ⟨-, hget⟩ := h.getElem?_terms ht
  obtain ⟨hlt, heq⟩ := List.getElem?_eq_some_iff.mp hget
  have htake : l.snapshotTerm :: (l.entries.take (i - l.snapshotIndex)).map (·.term) =
      l.terms.take (i - l.snapshotIndex + 1) := by
    rw [terms, take_succ_cons, map_take]
  rw [htake] at hu
  obtain ⟨j, hj, rfl⟩ := mem_take_iff_getElem.mp hu
  rw [← heq]
  rcases (show j ≤ i - l.snapshotIndex by omega).eq_or_lt with rfl | hlt'
  · exact le_rfl
  · exact pairwise_iff_getElem.mp h.sorted _ _ _ hlt hlt'

lemma Appended.isValid {l : Log} (h : l.Valid) (ha : Appended l prev prevTerm entries l')
    (hs : (prevTerm :: entries.map (·.term)).Pairwise (· ≤ ·)) : l'.Valid := by
  obtain ⟨hlo, hhi⟩ := h.term_range ha.prev_term
  have hlast := h.last
  have hcmt := h.commit_le
  have hmax := h.bound
  have hmax' := ha.bound
  have hlen : (l.entries.take (prev - l.snapshotIndex)).length = prev - l.snapshotIndex := by
    rw [length_take]
    omega
  have hspl := splice_length (l.entries.drop (prev - l.snapshotIndex)) entries
  have hlen' : l'.entries.length = prev - l.snapshotIndex +
      (splice (l.entries.drop (prev - l.snapshotIndex)) entries).length := by
    rw [ha.entries_eq, length_append, hlen]
  rw [length_drop] at hspl
  have hkept := congrArg length ha.kept
  rw [length_take, length_take] at hkept
  have hidxd : Contiguous l.snapshotIndex l'.entries := by
    rw [ha.entries_eq, contiguous_append]
    refine ⟨h.indexed.take _, ?_⟩
    have hstart : l.snapshotIndex + (l.entries.take (prev - l.snapshotIndex)).length = prev := by omega
    have hdrop := h.indexed.drop (prev - l.snapshotIndex)
    rw [show l.snapshotIndex + (prev - l.snapshotIndex) = prev by omega] at hdrop
    rw [hstart]
    exact splice_contiguous hdrop ha.contiguous
  have hval : ∀ e ∈ l'.entries, e.Valid := by
    intro e he
    rw [ha.entries_eq, mem_append] at he
    rcases he with he | he
    · exact h.valid e (mem_of_mem_take he)
    rcases mem_splice he with he | he
    · exact h.valid e (mem_of_mem_drop he)
    · exact ha.valid e he
  have hsort : (l.snapshotTerm :: l'.entries.map (·.term)).Pairwise (· ≤ ·) := by
    rw [ha.entries_eq, map_append, ← cons_append, pairwise_append]
    have hright := splice_sorted (h.sorted_drop ha.prev_term) hs
    refine ⟨h.sorted.sublist ?_, (pairwise_cons.mp hright).2, fun a ha' b hb => ?_⟩
    · exact List.Sublist.cons_cons _ ((take_sublist _ _).map _)
    · exact (h.take_le ha.prev_term ha').trans ((pairwise_cons.mp hright).1 b hb)
  rw [ha.shape]
  exact ⟨rfl, hidxd, hval, h.base, h.applied_ge, h.commit_ge, by simp only; omega,
    by simp only; omega, hsort⟩

lemma Valid.snoc (h : l.Valid) (hidx : e.index = l.lastIndex + 1) (hv : e.Valid)
    (hmax : l.lastIndex < maxUint64) (hterm : l.lastTerm ≤ e.term) : (l.snoc e).Valid :=
  (h.append_ok (h.append_end hidx hv hmax)).isValid h (by simpa using hterm)

lemma advanceCommit_eq_ok : l.advanceCommit i = .ok l' ↔
    l.commitIndex ≤ i ∧ i ≤ l.lastIndex ∧ l' = { l with commitIndex := i } := by
  rw [advanceCommit, ite_error_eq_ok, ite_error_eq_ok, not_lt, not_lt, ok.injEq, @eq_comm _ l']

lemma advanceApplied_eq_ok : l.advanceApplied i = .ok l' ↔
    l.appliedIndex ≤ i ∧ i ≤ l.commitIndex ∧ l' = { l with appliedIndex := i } := by
  rw [advanceApplied, ite_error_eq_ok, ite_error_eq_ok, not_lt, not_lt, ok.injEq, @eq_comm _ l']

lemma Valid.setCommit (h : l.Valid) (h1 : l.commitIndex ≤ i) (h2 : i ≤ l.lastIndex) :
    ({ l with commitIndex := i } : Log).Valid :=
  { h with commit_ge := h.commit_ge.trans h1, commit_le := h2 }

/-- Compacting either changes nothing or moves the base to an applied position of the log. -/
lemma Valid.compact_eq_ok (h : l.Valid) (hc : l.compact i t = .ok l') :
    (i = l.snapshotIndex ∧ t = l.snapshotTerm ∧ l' = l) ∨
      (l.snapshotIndex < i ∧ i ≤ l.appliedIndex ∧ l.term i = .ok t ∧ l' = { l with
          entries := l.entries.drop (i - l.snapshotIndex), snapshotIndex := i, snapshotTerm := t })
    := by
  rw [compact, ite_error_eq_ok] at hc
  obtain ⟨h1, hc⟩ := hc
  split at hc
  · next h2 =>
    rw [ite_error_eq_ok, not_not, ok.injEq] at hc
    exact .inl ⟨h2, hc.1, hc.2.symm⟩
  next h2 =>
  rw [ite_error_eq_ok, ite_error_eq_ok, not_lt, not_lt] at hc
  obtain ⟨hlast, happ, hc⟩ := hc
  obtain ⟨hlt, ho⟩ := h.retainedOffset_eq (i := i) (by omega) hlast
  split at hc
  · cases hc
  next u hu =>
  rw [ite_error_eq_ok, not_not, ho] at hc
  obtain ⟨rfl, hc⟩ := hc
  cases hc
  rw [show i - l.snapshotIndex - 1 + 1 = i - l.snapshotIndex by omega]
  exact .inr ⟨by omega, happ, hu, rfl⟩

lemma Valid.compacted (h : l.Valid) (h1 : l.snapshotIndex < i) (h2 : i ≤ l.appliedIndex)
    (ht : l.term i = .ok t) :
    ({ l with entries := l.entries.drop (i - l.snapshotIndex), snapshotIndex := i,
              snapshotTerm := t } : Log).Valid := by
  have hlast := h.last
  have hcmt := h.commit_le
  have hge := h.commit_ge
  have hidxd := h.indexed.drop (i - l.snapshotIndex)
  rw [show l.snapshotIndex + (i - l.snapshotIndex) = i by omega] at hidxd
  refine ⟨?_, hidxd, fun e he => h.valid e (mem_of_mem_drop he), h.term_zero_iff ht, h2,
    hge, hcmt, h.bound, h.sorted_drop ht⟩
  simp only [length_drop]
  omega

lemma Valid.lastTerm_compacted (h : l.Valid) (h1 : l.snapshotIndex < i) (h2 : i ≤ l.appliedIndex)
    (ht : l.term i = .ok t) :
    ({ l with entries := l.entries.drop (i - l.snapshotIndex), snapshotIndex := i,
              snapshotTerm := t } : Log).lastTerm = l.lastTerm := by
  have hlast := h.last
  have hcmt := h.commit_le
  have hge := h.commit_ge
  by_cases hle : l.entries.length ≤ i - l.snapshotIndex
  · -- Everything is compacted: the base is the last position.
    obtain rfl : i = l.lastIndex := by omega
    have hterm := h.term_last
    rw [ht, ok.injEq] at hterm
    rw [← hterm]
    simp [lastTerm, getLast?_drop, hle]
  have hne : l.entries ≠ [] := by
    rintro hnil
    simp [hnil] at hle
  simp [lastTerm, getLast?_drop, hle, getLast?_eq_some_getLast hne]

end Log

end Crane.Raft
