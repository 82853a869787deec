import Mathlib.Data.Finset.Card
import Mathlib.Logic.Function.Basic

/-!
# A leader-based replication protocol, with its history

The protocol of a replicated log in which terms are numbered, at most one node leads a term,
and a leader's log is copied to the others. Nothing here knows how logs are stored, which
messages carry them or how they are compacted: a node has a term, a vote, a *whole* log and a
commit index, and all four are what it would still have after a crash. Only its role is
volatile.

Beside the nodes the state keeps the history that the safety argument speaks about:

* `ballot n t` — the log with which `n` stood for election in term `t`;
* `voted n t` — whom `n` voted for in term `t`, and the log `n` held at that moment;
* `lead t` — who won term `t`, and that leader's log, which only ever grows;
* `acked n t` — how far `n` has acknowledged the log of the leader of term `t`.

Entries are of an arbitrary type with a term each, nodes of an arbitrary type with a family of
quorums any two of which meet. `Step` lists everything that can happen; losing, repeating and
reordering messages needs no step of its own, because a step may use any fact of the history
however old it is.
-/

namespace Crane.Consensus

/-- Terms of entries and a family of pairwise meeting quorums. -/
structure Setting (ν ε : Type) where
  /-- The term in which an entry was created. -/
  termOf : ε → Nat
  /-- The sets of nodes that can decide. -/
  Quorum : Finset ν → Prop
  /-- Two deciding sets share a node. -/
  meet : ∀ Q R, Quorum Q → Quorum R → ∃ n, n ∈ Q ∧ n ∈ R

variable {ν ε : Type}

/-- What a node keeps across a crash. -/
structure Replica (ν ε : Type) where
  term : Nat
  vote : Option ν
  log : List ε
  commit : Nat

/-- A node's volatile role. -/
inductive Standing where
  | follower
  | candidate
  | leader
  deriving DecidableEq

/-- The nodes and the history of the run so far. -/
structure State (ν ε : Type) where
  node : ν → Replica ν ε
  role : ν → Standing
  ballot : ν → Nat → Option (List ε)
  voted : ν → Nat → Option (ν × List ε)
  lead : Nat → Option (ν × List ε)
  acked : ν → Nat → Nat

/-- Nobody has done anything yet. -/
def State.initial : State ν ε where
  node _ := ⟨0, none, [], 0⟩
  role _ := .follower
  ballot _ _ := none
  voted _ _ := none
  lead _ := none
  acked _ _ := 0

/-- The term at a one-based position; position zero, before every entry, has term zero. -/
def Setting.termAt (P : Setting ν ε) (L : List ε) : Nat → Nat
  | 0 => 0
  | i + 1 => (L[i]?).elim 0 P.termOf

/-- The term of the last entry, zero for the empty log. -/
def Setting.lastTerm (P : Setting ν ε) (L : List ε) : Nat := P.termAt L L.length

/-- The comparison a voter makes: a later last term wins, then the longer log. -/
def Setting.UpToDate (P : Setting ν ε) (mine theirs : List ε) : Prop :=
  P.lastTerm theirs < P.lastTerm mine ∨ (P.lastTerm mine = P.lastTerm theirs ∧ theirs.length ≤ mine.length)

/-- `n` has the votes of a quorum in term `t`. -/
def Won (P : Setting ν ε) (s : State ν ε) (n : ν) (t : Nat) : Prop :=
  ∃ Q, P.Quorum Q ∧ ∀ q ∈ Q, ∃ L, s.voted q t = some (n, L)

/-- Position `k` of the log of the leader of term `t` was created in `t` and is acknowledged
    by a quorum. -/
def Decided (P : Setting ν ε) (s : State ν ε) (t k : Nat) : Prop :=
  ∃ n L Q, s.lead t = some (n, L) ∧ P.termAt L k = t ∧ P.Quorum Q ∧ ∀ q ∈ Q, k ≤ s.acked q t

/-- `p` is part of a decided prefix, decided in a term not above `t`. -/
def Committed (P : Setting ν ε) (s : State ν ε) (t : Nat) (p : List ε) : Prop :=
  p = [] ∨ ∃ u k n L, u ≤ t ∧ Decided P s u k ∧ s.lead u = some (n, L) ∧ p <+: L.take k

section Steps

variable [DecidableEq ν] [DecidableEq ε]

/-- Write one cell of a table indexed by node and term. -/
def write {α : Type} (f : ν → Nat → α) (n : ν) (t : Nat) (v : α) : ν → Nat → α :=
  fun m u => if m = n ∧ u = t then v else f m u

@[simp] lemma write_same {α : Type} (f : ν → Nat → α) (n : ν) (t : Nat) (v : α) :
    write f n t v n t = v := by simp [write]

lemma write_apply {α : Type} (f : ν → Nat → α) (n m : ν) (t u : Nat) (v : α) :
    write f n t v m u = if m = n ∧ u = t then v else f m u := rfl

lemma write_ne {α : Type} (f : ν → Nat → α) {n m : ν} {t u : Nat} (v : α)
    (h : ¬ (m = n ∧ u = t)) : write f n t v m u = f m u := by simp [write, h]

/-- Put a record in place of node `n`'s. -/
def State.setNode (s : State ν ε) (n : ν) (r : Replica ν ε) : State ν ε :=
  { s with node := Function.update s.node n r }

/-- Give node `n` another role. -/
def State.setRole (s : State ν ε) (n : ν) (r : Standing) : State ν ε :=
  { s with role := Function.update s.role n r }

/-- The log after taking over the first `m` entries of a leader's log: unchanged when they are
    already there, otherwise exactly these entries. -/
def takeOver (mine theirs : List ε) (m : Nat) : List ε := if theirs.take m <+: mine then mine else theirs.take m

/-- Move to a later term in which no vote has been given. -/
def State.raise (s : State ν ε) (n : ν) (t : Nat) : State ν ε :=
  (s.setNode n { s.node n with term := t, vote := none }).setRole n .follower

/-- Stand for election in the next term, voting for oneself. -/
def State.stand (s : State ν ε) (n : ν) : State ν ε :=
  let t := (s.node n).term + 1
  let L := (s.node n).log
  { (s.setNode n { s.node n with term := t, vote := some n }).setRole n .candidate with
    ballot := write s.ballot n t (some L)
    voted := write s.voted n t (some (n, L)) }

/-- Give one's vote of the current term to `c`. -/
def State.vote (s : State ν ε) (n c : ν) : State ν ε :=
  { s.setNode n { s.node n with vote := some c } with
    voted := write s.voted n (s.node n).term (some (c, (s.node n).log)) }

/-- Take up the leadership of the current term. -/
def State.elect (s : State ν ε) (n : ν) : State ν ε :=
  { s.setRole n .leader with
    lead := Function.update s.lead (s.node n).term (some (n, (s.node n).log))
    acked := write s.acked n (s.node n).term (s.node n).log.length }

/-- Append an entry as the leader of the current term. -/
def State.append (s : State ν ε) (n : ν) (e : ε) : State ν ε :=
  let L := (s.node n).log ++ [e]
  { s.setNode n { s.node n with log := L } with
    lead := Function.update s.lead (s.node n).term (some (n, L))
    acked := write s.acked n (s.node n).term L.length }

/-- Take over, and acknowledge, the first `m` entries of the current leader's log `L`. -/
def State.accept (s : State ν ε) (n : ν) (L : List ε) (m : Nat) : State ν ε :=
  { (s.setNode n { s.node n with log := takeOver (s.node n).log L m }).setRole n .follower with
    acked := write s.acked n (s.node n).term (max m (s.acked n (s.node n).term)) }

/-- Raise one's commit index. -/
def State.commit (s : State ν ε) (n : ν) (k : Nat) : State ν ε := s.setNode n { s.node n with commit := k }

/-- Everything that can happen in one step. -/
inductive Step (P : Setting ν ε) : State ν ε → State ν ε → Prop where
  | raise (s : State ν ε) (n : ν) (t : Nat) (later : (s.node n).term < t) : Step P s (s.raise n t)
  | stand (s : State ν ε) (n : ν) : Step P s (s.stand n)
  | vote (s : State ν ε) (n c : ν) (L : List ε) (free : (s.node n).vote = none)
      (standing : s.ballot c (s.node n).term = some L)
      (fresh : P.UpToDate L (s.node n).log) : Step P s (s.vote n c)
  | elect (s : State ν ε) (n : ν) (candidate : s.role n = .candidate)
      (won : Won P s n (s.node n).term) : Step P s (s.elect n)
  | append (s : State ν ε) (n : ν) (e : ε) (leader : s.role n = .leader)
      (own : P.termOf e = (s.node n).term) : Step P s (s.append n e)
  | accept (s : State ν ε) (n l : ν) (L : List ε) (m : Nat)
      (leader : s.lead (s.node n).term = some (l, L)) (short : m ≤ L.length) :
      Step P s (s.accept n L m)
  | commit (s : State ν ε) (n : ν) (k : Nat) (held : k ≤ (s.node n).log.length)
      (forward : (s.node n).commit ≤ k)
      (decided : Committed P s (s.node n).term ((s.node n).log.take k)) : Step P s (s.commit n k)
  | stepDown (s : State ν ε) (n : ν) : Step P s (s.setRole n .follower)

/-- Any number of steps. -/
inductive Run (P : Setting ν ε) : State ν ε → State ν ε → Prop where
  | refl (s : State ν ε) : Run P s s
  | tail {s t u : State ν ε} : Run P s t → Step P t u → Run P s u

lemma Run.single {P : Setting ν ε} {s t : State ν ε} (h : Step P s t) : Run P s t := .tail (.refl s) h

lemma Run.trans {P : Setting ν ε} {s t u : State ν ε} (h1 : Run P s t) (h2 : Run P t u) : Run P s u := by
  induction h2 with
  | refl => exact h1
  | tail _ hs ih => exact .tail ih hs

/-- An invariant of every step is an invariant of every run. -/
lemma Run.preserves {P : Setting ν ε} {I : State ν ε → Prop}
    (hstep : ∀ {s t}, I s → Step P s t → I t) {s t : State ν ε} (h : Run P s t) (hs : I s) : I t := by
  induction h with
  | refl => exact hs
  | tail _ hst ih => exact hstep ih hst

end Steps

end Crane.Consensus
