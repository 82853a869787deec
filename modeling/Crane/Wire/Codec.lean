import Mathlib.Algebra.BigOperators.Group.List.Basic
import Mathlib.Data.List.Induction
import Mathlib.Tactic.Ring

/-!
# Byte codecs that carry their own round trip

A binary format is written twice in a program, once by the encoder and once by the decoder, and
every property of it comes from the two agreeing. A `Codec` holds both together with the one law
that says so: reading `bytes` gives `a` and leaves `rest` exactly when `a` is in the codec's
domain and `bytes` is the encoding of `a` followed by `rest`. From left to right that is "what is
accepted is canonical", from right to left "what is written can be read back".

The domain is what a decoder checks beyond the layout: a count below a limit, a known selector.
The combinators build the codec of a record from those of its fields and prove the law once, so
that a format of many messages needs no proof of its own.
-/

namespace Crane

/-! ## Computations that may fail -/

lemma bind_eq_some {x : Option α} {f : α → Option β} : (x >>= f) = some b ↔ ∃ a, x = some a ∧ f a = some b :=
  Option.bind_eq_some_iff

lemma exists_guard {p : Prop} [Decidable p] {q : Unit → Prop} : (∃ u, guard p = some u ∧ q u) ↔ p ∧ q () := by
  simp [Unique.exists_iff]

namespace Wire

open List Nat Option

abbrev Bytes := List UInt8

/-! ## Big-endian numbers -/

/-- The `width` low bytes of a number, most significant first. -/
def bigEndian : Nat → Nat → Bytes
  | 0, _ => []
  | width + 1, n => bigEndian width (n / 256) ++ [UInt8.ofNat n]

/-- The number a byte string spells, most significant byte first. -/
def value (bytes : Bytes) : Nat := bytes.foldl (fun n byte => n * 256 + byte.toNat) 0

@[simp] lemma bigEndian_length (width n : Nat) : (bigEndian width n).length = width := by
  induction width generalizing n with
  | zero => rfl
  | succ _ ih => simp [bigEndian, ih]

@[simp] lemma value_nil : value [] = 0 := rfl

@[simp] lemma value_snoc (bytes : Bytes) (byte : UInt8) :
    value (bytes ++ [byte]) = value bytes * 256 + byte.toNat := by
  simp [value]

lemma value_lt (bytes : Bytes) : value bytes < 256 ^ bytes.length := by
  induction bytes using reverseRecOn with
  | nil => simp
  | append_singleton bytes byte ih =>
    have hbyte : byte.toNat < 256 := byte.toNat_lt
    have hpow : 256 ^ (bytes ++ [byte]).length = 256 ^ bytes.length * 256 := by
      rw [length_append, length_singleton, pow_succ]
    rw [hpow, value_snoc]
    calc value bytes * 256 + byte.toNat
        < value bytes * 256 + 256 := by omega
      _ = (value bytes + 1) * 256 := by ring
      _ ≤ 256 ^ bytes.length * 256 := mul_le_mul_right _ ih

lemma value_bigEndian (width n : Nat) : value (bigEndian width n) = n % 256 ^ width := by
  induction width generalizing n with
  | zero => simp [bigEndian, mod_one]
  | succ width ih =>
    have hsplit : n % 256 ^ (width + 1) = n % 256 + 256 * (n / 256 % 256 ^ width) := by
      rw [pow_succ, mul_comm (256 ^ width), mod_mul]
    rw [bigEndian, value_snoc, ih, UInt8.toNat_ofNat', hsplit]
    omega

lemma bigEndian_value (bytes : Bytes) : bigEndian bytes.length (value bytes) = bytes := by
  induction bytes using reverseRecOn with
  | nil => rfl
  | append_singleton bytes byte ih =>
    have hbyte : byte.toNat < 256 := byte.toNat_lt
    have hquot : (value bytes * 256 + byte.toNat) / 256 = value bytes := by omega
    have hlow : UInt8.ofNat (value bytes * 256 + byte.toNat) = byte := by
      apply UInt8.toNat_inj.mp
      rw [UInt8.toNat_ofNat']
      omega
    rw [length_append, length_singleton, bigEndian, value_snoc, hquot, ih, hlow]

lemma take_bigEndian (width rest n : Nat) :
    (bigEndian (width + rest) n).take width = bigEndian width (n / 256 ^ rest) := by
  induction rest generalizing n with
  | zero => simp
  | succ rest ih =>
    rw [← Nat.add_assoc, bigEndian, take_append_of_le_length (by simp), ih, Nat.div_div_eq_div_mul, pow_succ']

lemma drop_bigEndian (width rest n : Nat) : (bigEndian (width + rest) n).drop width = bigEndian rest n := by
  induction rest generalizing n with
  | zero => simp [bigEndian]
  | succ rest ih =>
    rw [← Nat.add_assoc, bigEndian, drop_append_of_le_length (by simp), ih, bigEndian]

/-- Strings of one length are ordered as the numbers they spell, and none is spelled twice. -/
lemma value_inj {a b : Bytes} (hlen : a.length = b.length) (h : value a = value b) : a = b := by
  rw [← bigEndian_value a, ← bigEndian_value b, hlen, h]

/-! ## Codecs -/

structure Codec (α : Type) where
  put : α → Bytes
  get : Bytes → Option (α × Bytes)
  dom : α → Prop
  get_iff : ∀ bytes a rest, get bytes = some (a, rest) ↔ dom a ∧ bytes = put a ++ rest

namespace Codec

variable {α β γ : Type}

/-- Everything written in the domain is read back, whatever follows it. -/
lemma get_put (c : Codec α) {a : α} (ha : c.dom a) (rest : Bytes) : c.get (c.put a ++ rest) = some (a, rest) :=
  (c.get_iff _ _ _).mpr ⟨ha, rfl⟩

/-- No value in the domain is a proper start of another: two encodings that begin one byte string
are of the same value. -/
lemma put_inj_append (c : Codec α) {a b : α} {rest rest' : Bytes} (ha : c.dom a) (hb : c.dom b)
    (h : c.put a ++ rest = c.put b ++ rest') : a = b ∧ rest = rest' := by
  have hread := c.get_put ha rest
  rw [h, c.get_put hb rest'] at hread
  simp only [some.injEq, Prod.mk.injEq] at hread
  exact ⟨hread.1.symm, hread.2.symm⟩

lemma put_inj (c : Codec α) {a b : α} (ha : c.dom a) (hb : c.dom b) (h : c.put a = c.put b) : a = b := by
  have happend : c.put a ++ [] = c.put b ++ [] := by rw [h]
  exact (c.put_inj_append ha hb happend).1

/-- Reading a whole byte string: nothing may be left over. -/
def decode (c : Codec α) (bytes : Bytes) : Option α :=
  match c.get bytes with
  | some (a, []) => some a
  | _ => none

lemma decode_eq_some {c : Codec α} {bytes : Bytes} {a : α} :
    c.decode bytes = some a ↔ c.dom a ∧ bytes = c.put a := by
  have hget := c.get_iff bytes a []
  rw [append_nil] at hget
  rw [← hget, decode]
  constructor
  · intro h
    split at h
    · rename_i a' hread
      rw [hread]
      simpa using h
    · cases h
  intro h
  rw [h]

lemma decode_put {c : Codec α} {a : α} (ha : c.dom a) : c.decode (c.put a) = some a :=
  decode_eq_some.mpr ⟨ha, rfl⟩

/-- A record that is built from what is read. -/
lemma map_decode_put (c : Codec α) {a : α} (f : α → β) (ha : c.dom a) :
    (c.decode (c.put a)).map f = some (f a) := by
  rw [decode_put ha]
  rfl

/-! ### Fields -/

/-- A fixed number of bytes, as one number. Arrays of bytes are words too: comparing them byte by
byte is comparing the numbers. -/
def word (width : Nat) : Codec (BitVec (8 * width)) where
  put w := bigEndian width w.toNat
  get bytes :=
    if width ≤ bytes.length then
      some (BitVec.ofNat _ (value (bytes.take width)), bytes.drop width)
    else none
  dom _ := True
  get_iff bytes w rest := by
    have hpow : 256 ^ width = 2 ^ (8 * width) := by rw [pow_mul]; norm_num
    constructor
    · intro h
      split at h
      · rename_i hlength
        have htake : (bytes.take width).length = width := by simp [hlength]
        simp only [some.injEq, Prod.mk.injEq] at h
        obtain ⟨rfl, rfl⟩ := h
        refine ⟨trivial, ?_⟩
        have hsmall : value (bytes.take width) < 2 ^ (8 * width) := by
          have := value_lt (bytes.take width)
          rwa [htake, hpow] at this
        have hword : bigEndian width (value (bytes.take width)) = bytes.take width := by
          have := bigEndian_value (bytes.take width)
          rwa [htake] at this
        rw [BitVec.toNat_ofNat, Nat.mod_eq_of_lt hsmall, hword, List.take_append_drop]
      · cases h
    rintro ⟨-, rfl⟩
    have hlong : width ≤ (bigEndian width w.toNat ++ rest).length := by simp
    have htake : (bigEndian width w.toNat ++ rest).take width = bigEndian width w.toNat := by simp
    have hdrop : (bigEndian width w.toNat ++ rest).drop width = rest := by simp
    have hround : BitVec.ofNat (8 * width) (value (bigEndian width w.toNat)) = w := by
      apply BitVec.eq_of_toNat_eq
      rw [value_bigEndian, hpow, BitVec.toNat_ofNat, Nat.mod_mod, Nat.mod_eq_of_lt w.isLt]
    rw [if_pos hlong, htake, hdrop, hround]

/-- Bytes that are always the same. -/
def literal (bytes : Bytes) : Codec Unit where
  put _ := bytes
  get input := if bytes.length ≤ input.length ∧ input.take bytes.length = bytes then
      some ((), input.drop bytes.length) else none
  dom _ := True
  get_iff input a rest := by
    constructor
    · intro h
      split at h
      · rename_i hstart
        simp only [some.injEq, Prod.mk.injEq, true_and] at h
        refine ⟨trivial, ?_⟩
        rw [← h]
        conv_rhs => rw [← hstart.2]
        simp [List.take_append_drop, hstart.1]
      · cases h
    rintro ⟨-, rfl⟩
    simp

/-- One field after another. -/
def seq (c : Codec α) (d : Codec β) : Codec (α × β) where
  put p := c.put p.1 ++ d.put p.2
  get bytes := do
    let (a, rest) ← c.get bytes
    let (b, rest) ← d.get rest
    some ((a, b), rest)
  dom p := c.dom p.1 ∧ d.dom p.2
  get_iff bytes p rest := by
    obtain ⟨a, b⟩ := p
    simp only [bind_eq_some, Prod.exists, some.injEq, Prod.mk.injEq]
    constructor
    · rintro ⟨a', middle, hc, b', rest', hd, ⟨rfl, rfl⟩, rfl⟩
      obtain ⟨ha, rfl⟩ := (c.get_iff _ _ _).mp hc
      obtain ⟨hb, rfl⟩ := (d.get_iff _ _ _).mp hd
      exact ⟨⟨ha, hb⟩, by simp⟩
    rintro ⟨⟨ha, hb⟩, rfl⟩
    refine ⟨a, d.put b ++ rest, ?_, b, rest, d.get_put hb rest, ⟨rfl, rfl⟩, rfl⟩
    rw [List.append_assoc]
    exact c.get_put ha _

/-- A field whose layout depends on an earlier one. Before it is read the decoder may look at how
many bytes are left, as one does that will not allocate for a count the input cannot hold;
`room` says that such a look never refuses what the encoder wrote. -/
def depend (c : Codec α) (room : α → Nat → Bool) (d : α → Codec β)
    (hroom : ∀ a b n, c.dom a → (d a).dom b → room a (((d a).put b).length + n) = true) :
    Codec (α × β) where
  put p := c.put p.1 ++ (d p.1).put p.2
  get bytes := do
    let (a, rest) ← c.get bytes
    guard (room a rest.length)
    let (b, rest) ← (d a).get rest
    some ((a, b), rest)
  dom p := c.dom p.1 ∧ (d p.1).dom p.2
  get_iff bytes p rest := by
    obtain ⟨a, b⟩ := p
    simp only [bind_eq_some, Prod.exists, some.injEq, Prod.mk.injEq, exists_guard]
    constructor
    · rintro ⟨a', middle, hc, -, b', rest', hd, ⟨rfl, rfl⟩, rfl⟩
      obtain ⟨ha, rfl⟩ := (c.get_iff _ _ _).mp hc
      obtain ⟨hb, rfl⟩ := ((d a').get_iff _ _ _).mp hd
      exact ⟨⟨ha, hb⟩, by simp⟩
    rintro ⟨⟨ha, hb⟩, rfl⟩
    refine ⟨a, (d a).put b ++ rest, ?_, ?_, b, rest, (d a).get_put hb rest, ⟨rfl, rfl⟩, rfl⟩
    · rw [List.append_assoc]
      exact c.get_put ha _
    rw [List.length_append]
    exact hroom a b rest.length ha hb

/-- The same bytes for another type: a record instead of the tuple of its fields. -/
def via (c : Codec α) (enter : β → α) (back : α → β)
    (hback : ∀ b, back (enter b) = b := by intros; rfl)
    (henter : ∀ a, c.dom a → enter (back a) = a := by intros; rfl) : Codec β where
  put b := c.put (enter b)
  get bytes := (c.get bytes).map fun p => (back p.1, p.2)
  dom b := c.dom (enter b)
  get_iff bytes b rest := by
    simp only [map_eq_some_iff, Prod.exists, Prod.mk.injEq]
    constructor
    · rintro ⟨a, rest', hget, rfl, rfl⟩
      obtain ⟨ha, rfl⟩ := (c.get_iff _ _ _).mp hget
      rw [henter a ha]
      exact ⟨ha, rfl⟩
    rintro ⟨hb, rfl⟩
    exact ⟨enter b, rest, c.get_put hb rest, hback b, rfl⟩

/-- A field the decoder checks once it is read. -/
def check (c : Codec α) (p : α → Bool) : Codec α where
  put := c.put
  get bytes := do
    let (a, rest) ← c.get bytes
    guard (p a)
    some (a, rest)
  dom a := c.dom a ∧ p a = true
  get_iff bytes a rest := by
    simp only [bind_eq_some, Prod.exists, some.injEq, Prod.mk.injEq, exists_guard]
    constructor
    · rintro ⟨a', rest', hget, hp, rfl, rfl⟩
      obtain ⟨ha, rfl⟩ := (c.get_iff _ _ _).mp hget
      exact ⟨⟨ha, hp⟩, rfl⟩
    rintro ⟨⟨ha, hp⟩, rfl⟩
    exact ⟨a, rest, c.get_put ha rest, hp, rfl, rfl⟩

/-- An enumeration with its numbers. -/
def enum (width : Nat) (code : α → BitVec (8 * width)) (known : BitVec (8 * width) → Option α)
    (hknown : ∀ w a, known w = some a ↔ code a = w) : Codec α where
  put a := (word width).put (code a)
  get bytes := do
    let (w, rest) ← (word width).get bytes
    let a ← known w
    some (a, rest)
  dom _ := True
  get_iff bytes a rest := by
    simp only [bind_eq_some, Prod.exists, some.injEq, Prod.mk.injEq]
    constructor
    · rintro ⟨w, rest', hget, a', hw, rfl, rfl⟩
      obtain ⟨-, rfl⟩ := ((word width).get_iff _ _ _).mp hget
      rw [(hknown w a').mp hw]
      exact ⟨trivial, rfl⟩
    rintro ⟨-, rfl⟩
    exact ⟨code a, rest, (word width).get_put trivial rest, a, (hknown _ _).mpr rfl, rfl, rfl⟩

/-! ### Sequences -/

/-- A known number of values, one after another. -/
def getMany (c : Codec α) : Nat → Bytes → Option (List α × Bytes)
  | 0, bytes => some ([], bytes)
  | n + 1, bytes => do
    let (a, rest) ← c.get bytes
    let (list, rest) ← getMany c n rest
    some (a :: list, rest)

lemma getMany_eq_some (c : Codec α) (n : Nat) (bytes : Bytes) (list : List α) (rest : Bytes) :
    c.getMany n bytes = some (list, rest) ↔
      (list.length = n ∧ ∀ a ∈ list, c.dom a) ∧ bytes = list.flatMap c.put ++ rest := by
  induction n generalizing bytes list with
  | zero =>
    cases list with
    | nil | cons => simp [getMany]
  | succ _ ih =>
    simp only [getMany, bind_eq_some, Prod.exists, some.injEq, Prod.mk.injEq]
    constructor
    · rintro ⟨a, middle, hget, tail, rest', htail, rfl, rfl⟩
      obtain ⟨ha, rfl⟩ := (c.get_iff _ _ _).mp hget
      obtain ⟨⟨hlen, hdom⟩, rfl⟩ := (ih _ _).mp htail
      exact ⟨⟨by simp [hlen], forall_mem_cons.mpr ⟨ha, hdom⟩⟩, by simp⟩
    rintro ⟨⟨hlen, hdom⟩, rfl⟩
    cases list with
    | nil => simp at hlen
    | cons a tail =>
      refine ⟨a, tail.flatMap c.put ++ rest, ?_, tail, rest, (ih _ _).mpr ⟨⟨?_, ?_⟩, rfl⟩, rfl, rfl⟩
      · rw [flatMap_cons, append_assoc]
        exact c.get_put (hdom a mem_cons_self) _
      · simpa using hlen
      intro b hb
      exact hdom b (mem_cons_of_mem a hb)

def many (c : Codec α) (n : Nat) : Codec (List α) where
  put list := list.flatMap c.put
  get := c.getMany n
  dom list := list.length = n ∧ ∀ a ∈ list, c.dom a
  get_iff := c.getMany_eq_some n

lemma length_flatMap_put_le {c : Codec α} {least : Nat} (hleast : ∀ a, least ≤ (c.put a).length)
    (list : List α) : list.length * least ≤ (list.flatMap c.put).length := by
  induction list with
  | nil => simp
  | cons a =>
    have ha := hleast a
    rw [flatMap_cons, length_append, length_cons, add_mul]
    omega

/-- A list behind its count. `ok` is the decoder's bound on the count; the count must also fit the
bytes that are left when every value takes at least `least`. -/
def counted (width : Nat) (ok : Nat → Bool) (least : Nat) (c : Codec α) (hpos : 0 < least)
    (hleast : ∀ a, least ≤ (c.put a).length) : Codec (List α) :=
  ((word width).depend
      (fun count room => ok count.toNat && decide (count.toNat ≤ room / least))
      (fun count => (c.many count.toNat).check fun list => ok list.length)
      (by
        intro count list n _ hlist
        obtain ⟨⟨hlength, -⟩, hok⟩ := hlist
        have hbytes := length_flatMap_put_le hleast list
        rw [Bool.and_eq_true, decide_eq_true_eq, ← hlength]
        refine ⟨hok, (Nat.le_div_iff_mul_le hpos).mpr ?_⟩
        exact Nat.le_trans hbytes (Nat.le_add_right _ n))).via
    (fun list => (BitVec.ofNat (8 * width) list.length, list)) Prod.snd
    (fun _ => rfl)
    (by
      intro p hp
      obtain ⟨-, ⟨hlength, -⟩, -⟩ := hp
      obtain ⟨count, list⟩ := p
      have hcount : list.length = count.toNat := hlength
      rw [hcount, BitVec.ofNat_toNat, BitVec.setWidth_eq])

lemma counted_dom {width limit least : Nat} {ok : Nat → Bool} {c : Codec α} {hpos : 0 < least}
    {hleast : ∀ a, least ≤ (c.put a).length} {list : List α} (hok : ok list.length = true)
    (hle : list.length ≤ limit) (hdom : ∀ a ∈ list, c.dom a)
    (hfits : limit < 2 ^ (8 * width) := by decide) : (counted width ok least c hpos hleast).dom list :=
  ⟨trivial, ⟨(mod_eq_of_lt (lt_of_le_of_lt hle hfits)).symm, hdom⟩, hok⟩

/-- A byte string behind its length. -/
def blob (width limit : Nat) : Codec Bytes where
  put bytes := bigEndian width bytes.length ++ bytes
  get input := do
    let (length, rest) ← (word width).get input
    guard (length.toNat ≤ limit ∧ length.toNat ≤ rest.length)
    some (rest.take length.toNat, rest.drop length.toNat)
  dom bytes := bytes.length < 2 ^ (8 * width) ∧ bytes.length ≤ limit
  get_iff input bytes rest := by
    simp only [bind_eq_some, Prod.exists, some.injEq, Prod.mk.injEq, exists_guard]
    constructor
    · rintro ⟨length, tail, hget, hroom, rfl, rfl⟩
      obtain ⟨-, rfl⟩ := ((word width).get_iff _ _ _).mp hget
      have htake : (tail.take length.toNat).length = length.toNat := by simp [hroom.2]
      refine ⟨⟨by rw [htake]; exact length.isLt, by rw [htake]; exact hroom.1⟩, ?_⟩
      rw [htake, List.append_assoc, List.take_append_drop]
      rfl
    rintro ⟨⟨hfits, hlimit⟩, rfl⟩
    have hlength : (BitVec.ofNat (8 * width) bytes.length).toNat = bytes.length := by
      rw [BitVec.toNat_ofNat, Nat.mod_eq_of_lt hfits]
    refine ⟨BitVec.ofNat (8 * width) bytes.length, bytes ++ rest, ?_, ?_, ?_, ?_⟩
    · have hput : (word width).put (BitVec.ofNat (8 * width) bytes.length) = bigEndian width bytes.length := by
        show bigEndian width (BitVec.ofNat (8 * width) bytes.length).toNat = _
        rw [hlength]
      rw [List.append_assoc, ← hput]
      exact (word width).get_put trivial _
    · rw [hlength]
      exact ⟨hlimit, by simp⟩
    · rw [hlength]; simp
    · rw [hlength]; simp

lemma blob_dom {width limit : Nat} {bytes : Bytes} (hle : bytes.length ≤ limit)
    (hfits : limit < 2 ^ (8 * width) := by decide) : (blob width limit).dom bytes :=
  ⟨lt_of_le_of_lt hle hfits, hle⟩

/-- A value behind a selector byte that says whether it is there. -/
def optional (c : Codec α) : Codec (Option α) where
  put
    | none => [0]
    | some a => 1 :: c.put a
  get
    | 0 :: rest => some (none, rest)
    | 1 :: rest => (c.get rest).map fun p => (some p.1, p.2)
    | _ => none
  dom
    | none => True
    | some a => c.dom a
  get_iff bytes a rest := by
    constructor
    · intro h
      split at h
      · simp only [some.injEq, Prod.mk.injEq] at h
        obtain ⟨rfl, rfl⟩ := h
        exact ⟨trivial, rfl⟩
      · simp only [map_eq_some_iff, Prod.exists, Prod.mk.injEq] at h
        obtain ⟨b, rest', hget, rfl, rfl⟩ := h
        obtain ⟨hb, rfl⟩ := (c.get_iff _ _ _).mp hget
        exact ⟨hb, rfl⟩
      · cases h
    rintro ⟨ha, rfl⟩
    cases a with
    | none => rfl
    | some =>
      simp only [List.cons_append]
      rw [c.get_put ha rest]
      rfl

/-- One of two layouts, behind a selector byte. -/
def tagged (left right : UInt8) (hne : left ≠ right) (c : Codec α) (d : Codec β) : Codec (α ⊕ β) where
  put
    | .inl a => left :: c.put a
    | .inr b => right :: d.put b
  get
    | [] => none
    | selector :: rest =>
      if selector = left then (c.get rest).map fun p => (.inl p.1, p.2)
      else if selector = right then (d.get rest).map fun p => (.inr p.1, p.2)
      else none
  dom
    | .inl a => c.dom a
    | .inr b => d.dom b
  get_iff bytes a rest := by
    constructor
    · intro h
      split at h
      · cases h
      split at h
      · rename_i hselector
        simp only [map_eq_some_iff, Prod.exists, Prod.mk.injEq] at h
        obtain ⟨b, rest', hget, rfl, rfl⟩ := h
        obtain ⟨hb, rfl⟩ := (c.get_iff _ _ _).mp hget
        exact ⟨hb, by rw [hselector]; rfl⟩
      split at h
      · rename_i hselector
        simp only [map_eq_some_iff, Prod.exists, Prod.mk.injEq] at h
        obtain ⟨b, rest', hget, rfl, rfl⟩ := h
        obtain ⟨hb, rfl⟩ := (d.get_iff _ _ _).mp hget
        exact ⟨hb, by rw [hselector]; rfl⟩
      · cases h
    rintro ⟨ha, rfl⟩
    cases a with
    | inl =>
      simp only [List.cons_append, if_true]
      rw [c.get_put ha rest]
      rfl
    | inr =>
      simp only [List.cons_append, if_neg hne.symm, if_true]
      rw [d.get_put ha rest]
      rfl

/-! ### Lengths of encodings -/

@[simp] lemma length_put_word (width : Nat) (w : BitVec (8 * width)) :
    ((word width).put w).length = width := bigEndian_length _ _

@[simp] lemma length_put_literal (bytes : Bytes) (u : Unit) : ((literal bytes).put u).length = bytes.length := rfl

@[simp] lemma length_put_seq (c : Codec α) (d : Codec β) (p : α × β) :
    ((c.seq d).put p).length = (c.put p.1).length + (d.put p.2).length :=
  length_append

@[simp] lemma length_put_depend (c : Codec α) (room : α → Nat → Bool) (d : α → Codec β)
    (hroom : ∀ a b n, c.dom a → (d a).dom b → room a (((d a).put b).length + n) = true) (p : α × β) :
    ((c.depend room d hroom).put p).length = (c.put p.1).length + ((d p.1).put p.2).length :=
  length_append

@[simp] lemma length_put_via (c : Codec α) (enter : β → α) (back : α → β)
    (hback : ∀ b, back (enter b) = b) (henter : ∀ a, c.dom a → enter (back a) = a) (b : β) :
    ((c.via enter back hback henter).put b).length = (c.put (enter b)).length := rfl

@[simp] lemma length_put_check (c : Codec α) (p : α → Bool) (a : α) :
    ((c.check p).put a).length = (c.put a).length := rfl

@[simp] lemma length_put_enum (width : Nat) (code : α → BitVec (8 * width))
    (known : BitVec (8 * width) → Option α) (hknw : ∀ w a, known w = some a ↔ code a = w) (a : α) :
    ((enum width code known hknw).put a).length = width := bigEndian_length _ _

@[simp] lemma length_put_many (c : Codec α) (n : Nat) (list : List α) :
    ((c.many n).put list).length = (list.map fun a => (c.put a).length).sum :=
  length_flatMap

@[simp] lemma length_put_counted (width : Nat) (ok : Nat → Bool) (least : Nat) (c : Codec α)
    (hpos : 0 < least) (hleast : ∀ a, least ≤ (c.put a).length) (list : List α) :
    ((counted width ok least c hpos hleast).put list).length =
      width + (list.map fun a => (c.put a).length).sum := by
  simp [counted]

@[simp] lemma length_put_blob (width limit : Nat) (bytes : Bytes) :
    ((blob width limit).put bytes).length = width + bytes.length := by
  simp [blob]

@[simp] lemma length_put_optional_none (c : Codec α) : ((optional c).put none).length = 1 := rfl

@[simp] lemma length_put_optional_some (c : Codec α) (a : α) :
    ((optional c).put (some a)).length = 1 + (c.put a).length := by
  simp [optional, add_comm]

/-! ### Fields of a fixed width -/

section Fixed

variable {c : Codec α} {d : Codec β} {width width' : Nat}

/-- A field of a fixed width, for which any bytes will do. -/
def Fixed (c : Codec α) (width : Nat) : Prop :=
  ∀ bytes : Bytes, bytes.length = width → ∃ a, c.dom a ∧ c.put a = bytes

lemma fixed_word (width : Nat) : (word width).Fixed width := by
  intro bytes hlen
  obtain ⟨w, rest, hget⟩ : ∃ w rest, (word width).get bytes = some (w, rest) := by
    simp [word, hlen]
  obtain ⟨hdom, rfl⟩ := ((word width).get_iff _ _ _).mp hget
  have hrest : rest = [] := by simpa using hlen
  exact ⟨w, hdom, by rw [hrest, append_nil]⟩

lemma Fixed.seq (hc : c.Fixed width) (hd : d.Fixed width') : (c.seq d).Fixed (width + width') := by
  intro bytes hlen
  obtain ⟨a, ha, hput⟩ := hc (bytes.take width) (by simp [hlen])
  obtain ⟨b, hb, hput'⟩ := hd (bytes.drop width) (by simp [hlen])
  refine ⟨(a, b), ⟨ha, hb⟩, ?_⟩
  change c.put a ++ d.put b = bytes
  rw [hput, hput', take_append_drop]

lemma Fixed.via {enter : β → α} {back : α → β} {hback : ∀ b, back (enter b) = b}
    {henter : ∀ a, c.dom a → enter (back a) = a} (hc : c.Fixed width) :
    (c.via enter back hback henter).Fixed width := by
  intro bytes hlen
  obtain ⟨a, ha, hput⟩ := hc bytes hlen
  refine ⟨back a, ?_, ?_⟩
  · change c.dom (enter (back a))
    rwa [henter a ha]
  · change c.put (enter (back a)) = bytes
    rwa [henter a ha]

lemma Fixed.many (hc : c.Fixed width) (n : Nat) : (c.many n).Fixed (n * width) := by
  induction n with
  | zero =>
    intro bytes hlen
    rw [Nat.zero_mul, length_eq_zero_iff] at hlen
    exact ⟨[], ⟨rfl, by simp⟩, by rw [hlen]; rfl⟩
  | succ n ih =>
    intro bytes hlen
    rw [Nat.succ_mul] at hlen
    obtain ⟨a, ha, hput⟩ := hc (bytes.take width) (by simp [hlen])
    obtain ⟨list, ⟨hlist, hdom⟩, hput'⟩ := ih (bytes.drop width) (by simp [hlen])
    refine ⟨a :: list, ⟨by simp [hlist], forall_mem_cons.mpr ⟨ha, hdom⟩⟩, ?_⟩
    change c.put a ++ list.flatMap c.put = bytes
    rw [hput, show list.flatMap c.put = _ from hput', take_append_drop]

/-- What a counted list of fixed fields is read from: its count, and as many bytes as that takes. -/
lemma Fixed.counted (hc : c.Fixed width') (width : Nat) (ok : Nat → Bool) (hpos : 0 < width')
    (hleast : ∀ a, width' ≤ (c.put a).length) (bytes : Bytes) (hok : ok (value (bytes.take width)) = true)
    (hlen : bytes.length = width + value (bytes.take width) * width') :
    ∃ list, (Codec.counted width ok width' c hpos hleast).dom list ∧
      (Codec.counted width ok width' c hpos hleast).put list = bytes := by
  obtain ⟨list, ⟨hlist, hdom⟩, hput⟩ := hc.many (value (bytes.take width)) (bytes.drop width) (by simp [hlen])
  have htake : (bytes.take width).length = width := by simp [hlen]
  have hsmall := value_lt (bytes.take width)
  rw [htake, show 256 ^ width = 2 ^ (8 * width) by rw [pow_mul]; norm_num, ← hlist] at hsmall
  have hcount : (BitVec.ofNat (8 * width) list.length).toNat = list.length :=
    (BitVec.toNat_ofNat _ _).trans (Nat.mod_eq_of_lt hsmall)
  rw [← hlist] at hok
  refine ⟨list, ⟨trivial, ⟨hcount.symm, hdom⟩, hok⟩, ?_⟩
  change bigEndian width (BitVec.ofNat (8 * width) list.length).toNat ++ list.flatMap c.put = bytes
  have hword := bigEndian_value (bytes.take width)
  rw [htake] at hword
  rw [hcount, hlist, hword, show list.flatMap c.put = _ from hput, take_append_drop]

lemma counted_put {ok : Nat → Bool} {least : Nat} {hpos : 0 < least} {hleast : ∀ a, least ≤ (c.put a).length}
    {list : List α} (h : (Codec.counted width ok least c hpos hleast).dom list) :
    (Codec.counted width ok least c hpos hleast).put list = bigEndian width list.length ++ list.flatMap c.put ∧
      ok list.length = true ∧ list.length < 256 ^ width := by
  obtain ⟨-, ⟨hcount, -⟩, hok⟩ := h
  change list.length = (BitVec.ofNat (8 * width) list.length).toNat at hcount
  have hsmall := (BitVec.ofNat (8 * width) list.length).isLt
  rw [← hcount, pow_mul] at hsmall
  refine ⟨?_, hok, hsmall⟩
  change bigEndian width (BitVec.ofNat (8 * width) list.length).toNat ++ list.flatMap c.put = _
  rw [← hcount]

end Fixed

/-! ### The widths in use -/

def u16 : Codec (BitVec 16) := word 2

def u64 : Codec (BitVec 64) := word 8

def array16 : Codec (BitVec 128) := word 16

def array32 : Codec (BitVec 256) := word 32

@[simp] lemma length_put_u16 (w : BitVec 16) : (u16.put w).length = 2 := length_put_word 2 w

@[simp] lemma length_put_u64 (w : BitVec 64) : (u64.put w).length = 8 := length_put_word 8 w

@[simp] lemma length_put_array16 (w : BitVec 128) : (array16.put w).length = 16 := length_put_word 16 w

@[simp] lemma length_put_array32 (w : BitVec 256) : (array32.put w).length = 32 := length_put_word 32 w

end Codec

/-- The bytes of a text in ASCII. -/
def ascii (text : String) : Bytes := text.toList.map fun c => UInt8.ofNat c.toNat

end Wire

end Crane
