import Mathlib.Data.Finset.Card
import Mathlib.Data.Finset.Insert
import Mathlib.Data.UInt

/-!
# The values of a Raft voter

Log entries, durable hard state, snapshot positions, the fixed voter set, leader progress and
the error classes, as `types.go`, `voters.go`, `progress.go` and `errors.go` have them.

Indices, terms and node identities are natural numbers. Where the source guards an addition
against `uint64` overflow the guard is here too (`checkedNextIndex`); where it adds without a
guard the sum is reduced (`wrapAdd`). Byte strings are lists. Fixed-size byte arrays
(identifiers, digests) are byte strings as well, and the array of zeroes that the source uses
for "unset" is `zeroBytes` of its length.

An error is its class, the sentinel `errors.Is` would find; the text wrapped around it is left
out. Endpoints of voters are left out: nothing below the transport reads them.
-/

namespace Crane.Raft

abbrev Bytes := List UInt8

def maxUint64 : Nat := 2 ^ 64 - 1

/-- `uint64` addition. -/
def wrapAdd (a b : Nat) : Nat := (a + b) % 2 ^ 64

def zeroBytes (length : Nat) : Bytes := List.replicate length 0

/-- The error classes of the package, one for each sentinel. -/
inductive RaftError where
  | notVoter
  | invalidStorageIdentity
  | invalidStorageState
  | storageCorrupt
  | invalidEntry
  | rpcTooLarge
  | invalidRPC
  | voterFingerprint
  | logCompacted
  | logUnavailable
  | logGap
  | logMismatch
  | committedConflict
  | logRegression
  | logOverflow
  | logInvariant
  | invalidCoreState
  | readyOutstanding
  | advanceToken
  | readyTokenExhausted
  | deadlineOverflow
  | tickRegression
  | termOverflow
  | replicationGenerationOverflow
  | notLeader
  | leadershipNotAuthorized
  | proposalFailed
  | proposalIdentityOverflow
  | snapshotUnavailable
  | invalidSnapshot
  | snapshotRejected
  | transferIDExhausted
  | transportInvariant
  | application
  deriving DecidableEq

/-! ## Log entries and durable values -/

inductive Role where
  | follower
  | preCandidate
  | candidate
  | leader
  deriving DecidableEq

/-- The kind byte of an entry; `unknown` is any value but the two the source names. -/
inductive EntryKind where
  | command
  | noOp
  | unknown (code : UInt8)
  deriving DecidableEq

def EntryKind.code : EntryKind → UInt8
  | .command => 1
  | .noOp => 2
  | .unknown code => code

structure Entry where
  index : Nat
  term : Nat
  kind : EntryKind
  command : Bytes
  deriving DecidableEq

def validateLogEntry (entry : Entry) : Except RaftError Unit :=
  if entry.index = 0 ∨ entry.term = 0 then .error .invalidEntry
  else if entry.kind ≠ .command ∧ entry.kind ≠ .noOp then .error .invalidEntry
  else if entry.kind = .noOp ∧ entry.command.length ≠ 0 then .error .invalidEntry
  else .ok ()

def newEntry (index term : Nat) (kind : EntryKind) (command : Bytes) : Except RaftError Entry :=
  let entry : Entry := ⟨index, term, kind, command⟩
  match validateLogEntry entry with
  | .ok () => .ok entry
  | .error e => .error e

structure HardState where
  term : Nat
  votedFor : Nat
  commitIndex : Nat
  deriving DecidableEq, Inhabited

structure SnapshotMetadata where
  lastIncludedIndex : Nat
  lastIncludedTerm : Nat
  stateMachineSchemaVersion : Nat
  deriving DecidableEq, Inhabited

def checkedNextIndex (index : Nat) : Option Nat := if index = maxUint64 then none else some (index + 1)

/-! ## The fixed voter set -/

/-- A canonical voter configuration: three or five identities in ascending order, none of them
    zero. -/
structure VoterSet where
  voters : List Nat
  fingerprint : Bytes
  size : voters.length = 3 ∨ voters.length = 5
  ascending : voters.Pairwise (· < ·)
  nonzero : ∀ id ∈ voters, id ≠ 0

/-- The voters 1, 2 and 3. -/
def VoterSet.three (fingerprint : Bytes) : VoterSet := ⟨[1, 2, 3], fingerprint, by decide, by decide, by decide⟩

def VoterSet.contains (s : VoterSet) (id : Nat) : Bool := s.voters.contains id

def VoterSet.majority (s : VoterSet) : Nat := s.voters.length / 2 + 1

def VoterSet.validateLocalID (s : VoterSet) (id : Nat) : Except RaftError Unit :=
  if id = 0 ∨ ¬ s.contains id then .error .notVoter else .ok ()

/-- The voters other than `id`, in the order in which every loop over peers visits them. -/
def VoterSet.peers (s : VoterSet) (id : Nat) : List Nat := s.voters.filter (· ≠ id)

structure StorageIdentity where
  formatVersion : Nat
  clusterID : Bytes
  localVoterID : Nat
  voterFingerprint : Bytes
  deriving DecidableEq

/-! ## Leader progress -/

structure Progress where
  matchIndex : Nat
  nextIndex : Nat
  generation : Nat
  activeGeneration : Nat
  snapshotNeeded : Bool
  activeTransferID : Bytes
  activeSnapshotID : Bytes
  snapshotNextOffset : Nat
  activeMatchIndex : Nat
  deriving DecidableEq

def zeroTransferID : Bytes := zeroBytes 16

def zeroSnapshotID : Bytes := zeroBytes 16

def zeroChecksum : Bytes := zeroBytes 32

/-- The zero value, which is also what reading an absent key of the progress map gives. -/
def Progress.zero : Progress where
  matchIndex := 0
  nextIndex := 0
  generation := 0
  activeGeneration := 0
  snapshotNeeded := false
  activeTransferID := zeroTransferID
  activeSnapshotID := zeroSnapshotID
  snapshotNextOffset := 0
  activeMatchIndex := 0

/-! ## Facts about voters -/

lemma VoterSet.contains_iff (s : VoterSet) (id : Nat) : s.contains id = true ↔ id ∈ s.voters := by
  simp [VoterSet.contains]

lemma VoterSet.nodup (s : VoterSet) : s.voters.Nodup := s.ascending.imp fun h => Nat.ne_of_lt h

lemma VoterSet.mem_peers (s : VoterSet) {id peer : Nat} : peer ∈ s.peers id ↔ peer ∈ s.voters ∧ peer ≠ id := by
  simp [VoterSet.peers]

lemma VoterSet.nodup_peers (s : VoterSet) (id : Nat) : (s.peers id).Nodup := s.nodup.filter _

lemma checkedNextIndex_eq_some {index next : Nat} :
    checkedNextIndex index = some next ↔ index ≠ maxUint64 ∧ next = index + 1 := by
  unfold checkedNextIndex
  split <;> simp_all [eq_comm]

lemma checkedNextIndex_eq_none {index : Nat} : checkedNextIndex index = none ↔ index = maxUint64 := by
  unfold checkedNextIndex
  split <;> simp_all

/-- What a valid log entry is. -/
structure Entry.Valid (entry : Entry) : Prop where
  index_pos : 0 < entry.index
  term_pos : 0 < entry.term
  kind : entry.kind = .command ∨ (entry.kind = .noOp ∧ entry.command = [])

lemma validateLogEntry_eq_ok {entry : Entry} : validateLogEntry entry = .ok () ↔ entry.Valid := by
  unfold validateLogEntry
  constructor
  · intro h
    split at h
    · cases h
    split at h
    · cases h
    split at h
    · cases h
    rename_i h1 h2 h3
    refine ⟨by omega, by omega, ?_⟩
    by_cases hc : entry.kind = .command
    · exact .inl hc
    have hn : entry.kind = .noOp := by
      by_contra hn
      exact h2 ⟨hc, hn⟩
    refine .inr ⟨hn, ?_⟩
    by_contra hne
    exact h3 ⟨hn, fun h0 => hne (List.eq_nil_of_length_eq_zero h0)⟩
  rintro ⟨hi, ht, hk⟩
  rw [if_neg (by omega)]
  rcases hk with hk | ⟨hk, hcmd⟩
  · simp [hk]
  · simp [hk, hcmd]

lemma newEntry_eq_ok {index term : Nat} {kind : EntryKind} {command : Bytes} {entry : Entry}
    (h : newEntry index term kind command = .ok entry) :
    entry = ⟨index, term, kind, command⟩ ∧ entry.Valid := by
  unfold newEntry at h
  simp only at h
  split at h
  · next hv =>
    cases h
    exact ⟨rfl, validateLogEntry_eq_ok.mp hv⟩
  · cases h

end Crane.Raft
