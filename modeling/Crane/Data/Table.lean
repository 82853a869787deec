import Mathlib.Data.Finset.Card
import Mathlib.Data.List.Nodup
import Crane.Wire.Codec

/-!
# Finite maps kept in key order

A program's map has no order, but its canonical encoding has one. A `Table` is a finite map held
as the list of its entries in strictly increasing key order, so that there is one table for each
map (`Table.ext`), writing it out is writing its entries, and sums over its entries change by one
entry's worth when one entry changes (`sum_insert`, `sum_erase`).

Keys are ordered by a rank, an injection into the naturals. A fixed-width encoding gives one.
-/

namespace Crane.Data

open Wire List Nat Option

class Ranked (K : Type) where
  rank : K → Nat
  rank_injective : Function.Injective rank

export Ranked (rank)

instance {n : Nat} : Ranked (BitVec n) := ⟨BitVec.toNat, fun _ _ h => BitVec.eq_of_toNat_eq h⟩

/-- Keys compared by the bytes they are written as. -/
@[reducible] def Ranked.ofCodec {K : Type} (c : Codec K) {width : Nat} (hdom : ∀ k, c.dom k)
    (hwidth : ∀ k, (c.put k).length = width) : Ranked K where
  rank k := value (c.put k)
  rank_injective a b h := c.put_inj (hdom a) (hdom b) (value_inj ((hwidth a).trans (hwidth b).symm) h)

variable {K V W : Type} [Ranked K]
variable {entries : List (K × V)} {f : K → V → Option W} {entries' : List (K × W)}

lemma rank_ne {a b : K} (h : a ≠ b) : rank a ≠ rank b := fun heq => h (Ranked.rank_injective heq)

structure Table (K V : Type) [Ranked K] where
  entries : List (K × V)
  sorted : entries.Pairwise fun a b => rank a.1 < rank b.1

namespace Table

instance [DecidableEq K] [DecidableEq V] : DecidableEq (Table K V) := fun t u =>
  decidable_of_iff (t.entries = u.entries) (by
    cases t
    cases u
    simp)

def empty : Table K V := ⟨[], .nil⟩

instance : Inhabited (Table K V) := ⟨empty⟩

/-- The value of the entry of that rank. -/
def lookup (k : K) : List (K × V) → Option V
  | [] => none
  | (k', v) :: rest => if rank k' = rank k then some v else lookup k rest

def find? (t : Table K V) (k : K) : Option V := lookup k t.entries

def contains (t : Table K V) (k : K) : Bool := (t.find? k).isSome

def size (t : Table K V) : Nat := t.entries.length

def keys (t : Table K V) : List K := t.entries.map Prod.fst

/-- One pass over the entries: the new one goes before the first greater key, in the place of an
equal one. -/
def insertEntry (k : K) (v : V) : List (K × V) → List (K × V)
  | [] => [(k, v)]
  | (k', v') :: rest =>
    if rank k < rank k' then (k, v) :: (k', v') :: rest
    else if rank k' < rank k then (k', v') :: insertEntry k v rest
    else (k, v) :: rest

lemma mem_insertEntry {k : K} {v : V} {e : K × V} (h : e ∈ insertEntry k v entries) :
    e = (k, v) ∨ e ∈ entries := by
  induction entries with
  | nil => simpa [insertEntry] using h
  | cons head _ ih =>
    obtain ⟨k', v'⟩ := head
    rw [insertEntry] at h
    split at h
    · simpa using h
    split at h
    · cases mem_cons.mp h with
      | inl h => exact .inr (h ▸ mem_cons_self)
      | inr h =>
        cases ih h with
        | inl h => exact .inl h
        | inr h => exact .inr (mem_cons_of_mem _ h)
    cases mem_cons.mp h with
    | inl h => exact .inl h
    | inr h => exact .inr (mem_cons_of_mem _ h)

lemma sorted_insertEntry (k : K) (v : V) (h : entries.Pairwise fun a b => rank a.1 < rank b.1) :
    (insertEntry k v entries).Pairwise fun a b => rank a.1 < rank b.1 := by
  induction entries with
  | nil => simp [insertEntry]
  | cons head rest ih =>
    obtain ⟨k', v'⟩ := head
    obtain ⟨hhead, hrest⟩ := pairwise_cons.mp h
    rw [insertEntry]
    split
    · rename_i hlt
      exact pairwise_cons.mpr ⟨forall_mem_cons.mpr ⟨hlt, fun e h => lt_trans hlt (hhead e h)⟩, h⟩
    split
    · rename_i hgt
      refine pairwise_cons.mpr ⟨?_, ih hrest⟩
      intro e he
      cases mem_insertEntry he with
      | inl h => exact h ▸ hgt
      | inr h => exact hhead e h
    -- neither below nor above: the ranks are equal
    rename_i hlt hgt
    refine pairwise_cons.mpr ⟨?_, hrest⟩
    intro e he
    have := hhead e he
    simp only at this ⊢
    omega

def insert (t : Table K V) (k : K) (v : V) : Table K V :=
  ⟨insertEntry k v t.entries, sorted_insertEntry k v t.sorted⟩

def erase (t : Table K V) (k : K) : Table K V :=
  ⟨t.entries.filter fun e => rank e.1 ≠ rank k, t.sorted.filter _⟩

/-- The same keys with new values. -/
def map (t : Table K V) (f : K → V → W) : Table K W :=
  ⟨t.entries.map fun e => (e.1, f e.1 e.2), List.pairwise_map.mpr t.sorted⟩

/-- The entries one after the other, if each gives a value. -/
def traverseEntries (f : K → V → Option W) : List (K × V) → Option (List (K × W))
  | [] => some []
  | (k, v) :: rest => do
    let w ← f k v
    let entries ← traverseEntries f rest
    some ((k, w) :: entries)

omit [Ranked K] in
lemma traverseEntries_eq_some (h : traverseEntries f entries = some entries') :
    List.Forall₂ (fun e e' => e'.1 = e.1 ∧ f e.1 e.2 = some e'.2) entries entries' := by
  induction entries generalizing entries' with
  | nil =>
    cases h
    exact .nil
  | cons head rest ih =>
    simp only [traverseEntries, bind_eq_some, some.injEq] at h
    obtain ⟨w, hw, tail, htail, rfl⟩ := h
    exact .cons ⟨rfl, hw⟩ (ih htail)

omit [Ranked K] in
lemma keys_traverseEntries (h : traverseEntries f entries = some entries') :
    entries'.map Prod.fst = entries.map Prod.fst := by
  have hall := traverseEntries_eq_some h
  clear h
  induction hall with
  | nil => rfl
  | cons hhead _ ih => rw [map_cons, map_cons, hhead.1, ih]

/-- `map` with a function that may fail. -/
def traverse (t : Table K V) (f : K → V → Option W) : Option (Table K W) :=
  match h : traverseEntries f t.entries with
  | none => none
  | some entries => some ⟨entries, by
      have hsorted : (t.entries.map Prod.fst).Pairwise fun a b => rank a < rank b :=
        List.pairwise_map.mpr t.sorted
      rwa [← keys_traverseEntries h, List.pairwise_map] at hsorted⟩

lemma traverse_eq_some {t : Table K V} {u : Table K W} :
    t.traverse f = some u ↔ traverseEntries f t.entries = some u.entries := by
  unfold traverse
  split
  · rename_i h
    simp [h]
  rename_i entries h
  cases u
  simp [h]

/-! ## Lookups -/

lemma lookup_eq_none {k : K} (h : ∀ e ∈ entries, rank k ≠ rank e.1) : lookup k entries = none := by
  induction entries with
  | nil => rfl
  | cons head _ ih =>
    have hhead := h head mem_cons_self
    rw [lookup, if_neg (Ne.symm hhead)]
    exact ih fun e he => h e (mem_cons_of_mem _ he)

lemma lookup_eq_some {k : K} {v : V} (hsort : entries.Pairwise fun a b => rank a.1 < rank b.1) :
    lookup k entries = some v ↔ (k, v) ∈ entries := by
  induction entries with
  | nil => simp [lookup]
  | cons head rest ih =>
    obtain ⟨k', v'⟩ := head
    obtain ⟨hhead, hrest⟩ := pairwise_cons.mp hsort
    rw [lookup, mem_cons, Prod.mk.injEq]
    split
    · rename_i heq
      have hk : k' = k := Ranked.rank_injective heq
      subst hk
      constructor
      · intro h
        exact .inl ⟨rfl, (some.inj h).symm⟩
      intro h
      cases h with
      | inl h => rw [h.2]
      | inr h => exact absurd (hhead _ h) (lt_irrefl _)
    rename_i hne
    rw [ih hrest]
    constructor
    · exact .inr
    intro h
    cases h with
    | inl h => exact absurd (congrArg rank h.1.symm) hne
    | inr h => exact h

lemma find?_eq_some {t : Table K V} {k : K} {v : V} : t.find? k = some v ↔ (k, v) ∈ t.entries :=
  lookup_eq_some t.sorted

@[simp] lemma find?_empty (k : K) : (empty : Table K V).find? k = none := rfl

@[simp] lemma entries_empty : (empty : Table K V).entries = [] := rfl

lemma lookup_insertEntry (k k' : K) (v : V) (hsort : entries.Pairwise fun a b => rank a.1 < rank b.1) :
    lookup k' (insertEntry k v entries) = if rank k = rank k' then some v else lookup k' entries := by
  induction entries with
  | nil => rfl
  | cons head rest ih =>
    obtain ⟨k0, v0⟩ := head
    obtain ⟨hhead, hrest⟩ := pairwise_cons.mp hsort
    rw [insertEntry]
    split
    · rfl
    split
    · rename_i hgt
      rw [lookup, ih hrest]
      split
      · rename_i heq
        rw [if_neg (by omega), lookup, if_pos heq]
      rename_i hne
      rw [lookup, if_neg hne]
    rename_i hlt hgt
    have heq : rank k = rank k0 := by omega
    rw [lookup, lookup]
    split
    · rfl
    rename_i hne
    rw [if_neg (by rwa [← heq])]

lemma find?_insert (t : Table K V) (k k' : K) (v : V) :
    (t.insert k v).find? k' = if rank k = rank k' then some v else t.find? k' :=
  lookup_insertEntry k k' v t.sorted

@[simp] lemma find?_insert_self (t : Table K V) (k : K) (v : V) : (t.insert k v).find? k = some v := by
  rw [find?_insert, if_pos rfl]

lemma find?_insert_ne (t : Table K V) {k k' : K} (v : V) (h : k ≠ k') : (t.insert k v).find? k' = t.find? k' := by
  rw [find?_insert, if_neg (rank_ne h)]

lemma find?_erase (t : Table K V) (k k' : K) :
    (t.erase k).find? k' = if rank k = rank k' then none else t.find? k' := by
  apply ext
  intro v
  have hmem : (t.erase k).find? k' = some v ↔ (k', v) ∈ t.entries ∧ rank k' ≠ rank k := by
    rw [find?_eq_some]
    simp [erase, mem_filter]
  rw [hmem]
  split
  · rename_i heq
    simp [heq]
  rename_i hne
  rw [find?_eq_some]
  exact ⟨fun h => h.1, fun h => ⟨h, Ne.symm hne⟩⟩

lemma lookup_map (f : K → V → W) (k : K) (entries : List (K × V)) :
    lookup k (entries.map fun e => (e.1, f e.1 e.2)) = (lookup k entries).map (f k) := by
  induction entries with
  | nil => rfl
  | cons head rest ih =>
    rw [map_cons, lookup, lookup]
    split
    · rename_i heq
      rw [Ranked.rank_injective heq, map_some]
    · exact ih

@[simp] lemma find?_map (t : Table K V) (f : K → V → W) (k : K) : (t.map f).find? k = (t.find? k).map (f k) :=
  lookup_map f k t.entries

lemma lookup_traverseEntries (h : traverseEntries f entries = some entries') (k : K) :
    (lookup k entries').map some = (lookup k entries).map (f k) := by
  have hall := traverseEntries_eq_some h
  clear h
  induction hall with
  | nil => rfl
  | cons hhead _ ih =>
    obtain ⟨hk, hw⟩ := hhead
    rw [lookup, lookup, hk]
    split
    · rename_i heq
      rw [← Ranked.rank_injective heq, map_some, map_some, hw]
    · exact ih

/-- Every entry of the old table is sent to one of the new, and there is no other. -/
lemma find?_traverse {t : Table K V} {u : Table K W} (h : t.traverse f = some u) (k : K) :
    (u.find? k).map some = (t.find? k).map (f k) :=
  lookup_traverseEntries (traverse_eq_some.mp h) k

/-- If no entry fails, nothing does. -/
lemma traverse_isSome {t : Table K V} (h : ∀ k v, t.find? k = some v → (f k v).isSome = true) :
    (t.traverse f).isSome = true := by
  have hents : ∀ e ∈ t.entries, (f e.1 e.2).isSome = true := fun e he => h e.1 e.2 (find?_eq_some.mpr he)
  have hall : ∀ entries : List (K × V), (∀ e ∈ entries, (f e.1 e.2).isSome = true) →
      ∃ entries', traverseEntries f entries = some entries' := by
    intro entries
    induction entries with
    | nil => exact fun _ => ⟨[], rfl⟩
    | cons head _ ih =>
      intro hents
      obtain ⟨w, hw⟩ := isSome_iff_exists.mp (hents head mem_cons_self)
      obtain ⟨tail, htail⟩ := ih fun e he => hents e (mem_cons_of_mem _ he)
      exact ⟨(head.1, w) :: tail, by simp [traverseEntries, hw, htail]⟩
  obtain ⟨entries', hsome⟩ := hall t.entries hents
  unfold traverse
  split
  · rename_i hnone
    rw [hsome] at hnone
    cases hnone
  · rfl

/-! ## Sums over the entries -/

def sum (t : Table K V) (f : K → V → Nat) : Nat := (t.entries.map fun e => f e.1 e.2).sum

@[simp] lemma sum_empty (f : K → V → Nat) : (empty : Table K V).sum f = 0 := rfl

lemma sum_insertEntry (k : K) (v : V) (f : K → V → Nat)
    (hsort : entries.Pairwise fun a b => rank a.1 < rank b.1) :
    ((insertEntry k v entries).map fun e => f e.1 e.2).sum + (lookup k entries).elim 0 (f k) =
      (entries.map fun e => f e.1 e.2).sum + f k v := by
  induction entries with
  | nil => simp [insertEntry, lookup]
  | cons head rest ih =>
    obtain ⟨k0, v0⟩ := head
    obtain ⟨hhead, hrest⟩ := pairwise_cons.mp hsort
    rw [insertEntry]
    split
    · rename_i hlt
      -- the key is below every entry, so there was none to replace
      have hnone : lookup k ((k0, v0) :: rest) = none := by
        apply lookup_eq_none
        exact forall_mem_cons.mpr ⟨Nat.ne_of_lt hlt, fun e h => Nat.ne_of_lt (Nat.lt_trans hlt (hhead e h))⟩
      rw [hnone]
      simp only [map_cons, sum_cons, elim_none]
      omega
    split
    · rename_i hgt
      have hne : ¬ rank k0 = rank k := Nat.ne_of_lt hgt
      have := ih hrest
      simp only [lookup, if_neg hne, map_cons, sum_cons]
      omega
    rename_i hlt hgt
    have heq : rank k0 = rank k := by omega
    have hk : k0 = k := Ranked.rank_injective heq
    subst hk
    simp only [lookup, if_true, map_cons, sum_cons, elim_some]
    omega

lemma sum_insert (t : Table K V) (k : K) (v : V) (f : K → V → Nat) :
    (t.insert k v).sum f + (t.find? k).elim 0 (f k) = t.sum f + f k v :=
  sum_insertEntry k v f t.sorted

lemma sum_insert_new {t : Table K V} {k : K} (v : V) (f : K → V → Nat) (h : t.find? k = none) :
    (t.insert k v).sum f = t.sum f + f k v := by
  have := sum_insert t k v f
  rwa [h] at this

lemma sum_filter_ne (k : K) (f : K → V → Nat) (hsort : entries.Pairwise fun a b => rank a.1 < rank b.1) :
    (((entries.filter fun e => rank e.1 ≠ rank k).map fun e => f e.1 e.2).sum) + (lookup k entries).elim 0 (f k) =
      (entries.map fun e => f e.1 e.2).sum := by
  induction entries with
  | nil => rfl
  | cons head rest ih =>
    obtain ⟨k0, v0⟩ := head
    obtain ⟨hhead, hrest⟩ := pairwise_cons.mp hsort
    by_cases heq : rank k0 = rank k
    · have hk : k0 = k := Ranked.rank_injective heq
      subst hk
      have hrestK : rest.filter (fun e => rank e.1 ≠ rank k0) = rest := by
        apply filter_eq_self.mpr
        intro e he
        have := hhead e he
        simp only at this
        exact decide_eq_true (ne_of_gt this)
      rw [filter_cons_of_neg (by simp), hrestK]
      simp [lookup, add_comm]
    have := ih hrest
    rw [filter_cons_of_pos (by simpa using heq)]
    simp only [map_cons, sum_cons, lookup, if_neg heq]
    omega

lemma sum_erase (t : Table K V) (k : K) (f : K → V → Nat) :
    (t.erase k).sum f + (t.find? k).elim 0 (f k) = t.sum f :=
  sum_filter_ne k f t.sorted

lemma sum_map (t : Table K V) (g : K → V → W) (f : K → W → Nat) :
    (t.map g).sum f = t.sum fun k v => f k (g k v) := by
  simp only [sum, map, List.map_map]
  rfl

/-- If each entry announces how much its value grows, the totals grow by the sum of it. -/
lemma sum_traverse {t : Table K V} {u : Table K W} (h : t.traverse f = some u) (size : K → V → Nat)
    (size' : K → W → Nat) (growth : K → W → Int)
    (hgrw : ∀ k v w, f k v = some w → (size' k w : Int) = size k v + growth k w) :
    ((u.sum size' : Nat) : Int) = t.sum size + (u.entries.map fun e => growth e.1 e.2).sum := by
  have hall := traverseEntries_eq_some (traverse_eq_some.mp h)
  unfold sum
  generalize t.entries = entries at hall ⊢
  generalize u.entries = entries' at hall ⊢
  induction hall with
  | nil => rfl
  | cons hhead _ ih =>
    obtain ⟨hkey, hvalue⟩ := hhead
    simp only [map_cons, sum_cons, cast_add, ih, hkey, hgrw _ _ _ hvalue]
    omega

lemma sum_const (t : Table K V) (n : Nat) : (t.sum fun _ _ => n) = t.size * n := by simp [sum, size]

lemma size_eq_sum (t : Table K V) : t.size = t.sum fun _ _ => 1 := by rw [sum_const, mul_one]

/-- A table whose values are bounded, key by key, by those of another sums up to no more. -/
lemma sum_le_sum {t : Table K V} {u : Table K W} {f : K → V → Nat} {g : K → W → Nat}
    (h : ∀ k w, u.find? k = some w → g k w ≤ (t.find? k).elim 0 (f k)) : u.sum g ≤ t.sum f := by
  have hents : ∀ (entries : List (K × W)) (t : Table K V), entries.Pairwise (fun a b => rank a.1 < rank b.1) →
      (∀ e ∈ entries, g e.1 e.2 ≤ (t.find? e.1).elim 0 (f e.1)) →
      (entries.map fun e => g e.1 e.2).sum ≤ t.sum f := by
    intro entries
    induction entries with
    | nil => exact fun t _ _ => Nat.zero_le _
    | cons head _ ih =>
      intro t hsort hle
      obtain ⟨hhead, hrest⟩ := pairwise_cons.mp hsort
      have hsum := sum_erase t head.1 f
      -- the entry of the first key is taken out of the other table
      have hless := ih (t.erase head.1) hrest (by
        intro e he
        rw [find?_erase, if_neg (Nat.ne_of_lt (hhead e he))]
        exact hle e (mem_cons_of_mem _ he))
      have hfst := hle head mem_cons_self
      rw [map_cons, sum_cons]
      omega
  refine hents u.entries t u.sorted ?_
  intro e he
  exact h e.1 e.2 (find?_eq_some.mpr he)

lemma le_sum_of_find? {t : Table K V} {k : K} {v : V} (f : K → V → Nat)
    (h : t.find? k = some v) : f k v ≤ t.sum f := by
  have := sum_erase t k f
  rw [h] at this
  simp only [elim_some] at this
  omega

lemma size_insert_new {t : Table K V} {k : K} (v : V) (h : t.find? k = none) :
    (t.insert k v).size = t.size + 1 := by
  rw [size_eq_sum, sum_insert_new v _ h, ← size_eq_sum]

lemma size_insert_old {t : Table K V} {k : K} {v : V} (v' : V) (h : t.find? k = some v) :
    (t.insert k v').size = t.size := by
  have := sum_insert t k v' fun _ _ => 1
  rw [h] at this
  simp only [elim_some] at this
  rw [size_eq_sum, size_eq_sum]
  omega

/-- What an insertion into a table of entries of one size adds. -/
lemma size_insert_growth (table : Table K V) (key : K) (value : V) (bytes : Nat) :
    ((table.insert key value).size * bytes : Int) =
      table.size * bytes + if table.contains key then (0 : Int) else bytes := by
  unfold contains
  cases hfind : table.find? key with
  | none =>
    rw [size_insert_new value hfind]
    simp only [isSome_none, Bool.false_eq_true, if_false]
    push_cast
    ring
  | some =>
    rw [size_insert_old value hfind]
    simp

lemma size_erase_growth (table : Table K V) (key : K) (bytes : Nat) :
    ((table.erase key).size * bytes : Int) =
      table.size * bytes - if table.contains key then (bytes : Int) else 0 := by
  have hsum := sum_erase table key fun _ _ => 1
  rw [← size_eq_sum, ← size_eq_sum] at hsum
  unfold contains
  cases hfind : table.find? key with
  | none =>
    rw [hfind, elim_none, Nat.add_zero] at hsum
    rw [hsum]
    simp
  | some =>
    rw [hfind, elim_some] at hsum
    rw [← hsum]
    simp only [isSome_some, if_true]
    push_cast
    ring

end Table

/-! ## Tables on the wire -/

/-- Each key above the one before it, as a decoder checks while it reads. -/
def increasing : List (K × V) → Bool
  | [] => true
  | [_] => true
  | a :: b :: rest => decide (rank a.1 < rank b.1) && increasing (b :: rest)

lemma increasing_iff : increasing entries = true ↔ entries.Pairwise fun a b => rank a.1 < rank b.1 := by
  induction entries with
  | nil => simp [increasing]
  | cons _ rest ih =>
    cases rest with
    | nil => simp [increasing]
    | cons b =>
      rw [increasing, Bool.and_eq_true, decide_eq_true_eq, ih]
      constructor
      · rintro ⟨hab, hrest⟩
        exact pairwise_cons.mpr ⟨forall_mem_cons.mpr ⟨hab,
          fun e h => lt_trans hab (rel_of_pairwise_cons hrest h)⟩, hrest⟩
      intro h
      obtain ⟨hall, hrest⟩ := pairwise_cons.mp h
      exact ⟨hall b mem_cons_self, hrest⟩

/-- The entries of a table, which the decoder only takes in order. -/
def tableCodec (c : Codec (List (K × V))) : Codec (Table K V) where
  put t := c.put t.entries
  get bytes := do
    let (entries, rest) ← c.get bytes
    if h : increasing entries = true then some (⟨entries, increasing_iff.mp h⟩, rest) else none
  dom t := c.dom t.entries
  get_iff bytes t rest := by
    simp only [bind_eq_some, Prod.exists]
    constructor
    · rintro ⟨entries, rest', hget, h⟩
      split at h
      · simp only [some.injEq, Prod.mk.injEq] at h
        obtain ⟨rfl, rfl⟩ := h
        exact (c.get_iff _ _ _).mp hget
      · cases h
    rintro ⟨ht, rfl⟩
    refine ⟨t.entries, rest, c.get_put ht rest, ?_⟩
    rw [dif_pos (increasing_iff.mpr t.sorted)]

@[simp] lemma length_put_tableCodec (c : Codec (List (K × V))) (t : Table K V) :
    ((tableCodec c).put t).length = (c.put t.entries).length := rfl

end Crane.Data
