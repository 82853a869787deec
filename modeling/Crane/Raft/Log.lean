import Crane.Raft.Types

/-!
# The compacted log

`Log` is the log of one voter: a snapshot base, and the retained entries after it. The methods
are those of `log.go`. A method that fails leaves the log as it was, so a fallible method
returns `Except`; `append` fails with the hint the peer is sent back.
-/

namespace Crane.Raft

structure ConflictHint where
  term : Nat
  index : Nat
  deriving DecidableEq, Inhabited

structure Log where
  snapshotIndex : Nat
  snapshotTerm : Nat
  commitIndex : Nat
  appliedIndex : Nat
  lastIndex : Nat
  entries : List Entry
  deriving DecidableEq

/-- Check that `entries` continue after index `next` without a gap, and return the index of the
    last of them. -/
def checkSuffix (next : Nat) : List Entry → Except RaftError Nat
  | [] => .ok next
  | entry :: rest =>
    match checkedNextIndex next with
    | none => .error .logOverflow
    | some expected =>
      if entry.index ≠ expected then .error .logGap
      else
        match validateLogEntry entry with
        | .error e => .error e
        | .ok () => checkSuffix expected rest

def newLog (snapshotIndex snapshotTerm commitIndex appliedIndex : Nat) (entries : List Entry) :
    Except RaftError Log :=
  if (snapshotIndex = 0) ≠ (snapshotTerm = 0) then .error .logInvariant
  else if appliedIndex < snapshotIndex ∨ commitIndex < appliedIndex then .error .logInvariant
  else
    match checkSuffix snapshotIndex entries with
    | .error e => .error e
    | .ok last =>
      if commitIndex > last then .error .logInvariant
      else .ok ⟨snapshotIndex, snapshotTerm, commitIndex, appliedIndex, last, entries⟩

namespace Log

def lastTerm (l : Log) : Nat :=
  match l.entries.getLast? with
  | none => l.snapshotTerm
  | some entry => entry.term

/-- The position of a retained index in `entries`. -/
def retainedOffset (l : Log) (index : Nat) : Except RaftError (Fin l.entries.length) :=
  if index ≤ l.snapshotIndex then .error .logCompacted
  else if index > l.lastIndex then .error .logUnavailable
  else if h : index - l.snapshotIndex - 1 < l.entries.length then .ok ⟨_, h⟩
  else .error .logInvariant

def term (l : Log) (index : Nat) : Except RaftError Nat :=
  if index < l.snapshotIndex then .error .logCompacted
  else if index = l.snapshotIndex then .ok l.snapshotTerm
  else
    match l.retainedOffset index with
    | .error e => .error e
    | .ok offset => .ok (l.entries.get offset).term

def entry (l : Log) (index : Nat) : Except RaftError Entry :=
  if index ≤ l.snapshotIndex then .error .logCompacted
  else
    match l.retainedOffset index with
    | .error e => .error e
    | .ok offset => .ok (l.entries.get offset)

def lastIndexOfTerm (l : Log) (term : Nat) : Option Nat :=
  match l.entries.reverse.find? (fun entry => entry.term = term) with
  | some entry => some entry.index
  | none => if l.snapshotIndex ≠ 0 ∧ l.snapshotTerm = term then some l.snapshotIndex else none

/-- Move an offset down over the entries of `term` before it. -/
def rewind (entries : List Entry) (term : Nat) : Nat → Nat
  | 0 => 0
  | offset + 1 =>
    match entries[offset]? with
    | some entry => if entry.term = term then rewind entries term offset else offset + 1
    | none => offset + 1

def firstIndexOfTerm (l : Log) (index term : Nat) : Except RaftError Nat :=
  if index = l.snapshotIndex then .ok l.snapshotIndex
  else
    match l.retainedOffset index with
    | .error e => .error e
    | .ok start =>
      let offset := rewind l.entries term start
      if offset = 0 ∧ l.snapshotTerm = term then .ok l.snapshotIndex
      else
        match l.entries[offset]? with
        | some entry => .ok entry.index
        | none => .error .logInvariant

/-- The repair loop: skip entries whose term is already there, append past the end, replace from
    the first conflict on. -/
def repair (l : Log) : List Entry → Except RaftError Log
  | [] => .ok l
  | entry :: rest =>
    if entry.index > l.lastIndex then
      .ok { l with
        entries := l.entries ++ entry :: rest
        lastIndex := ((entry :: rest).getLast (by simp)).index }
    else
      match l.retainedOffset entry.index with
      | .error e => .error e
      | .ok offset =>
        if (l.entries.get offset).term = entry.term then repair l rest
        else if entry.index ≤ l.commitIndex then .error .committedConflict
        else
          .ok { l with
            entries := l.entries.take offset ++ entry :: rest
            lastIndex := ((entry :: rest).getLast (by simp)).index }

def append (l : Log) (prevIndex prevTerm : Nat) (entries : List Entry) : Except (RaftError × ConflictHint) Log :=
  match l.term prevIndex with
  | .error .logUnavailable =>
    match checkedNextIndex l.lastIndex with
    | none => .error (.logOverflow, default)
    | some next => .error (.logUnavailable, ⟨0, next⟩)
  | .error .logCompacted => .error (.logCompacted, ⟨l.snapshotTerm, l.snapshotIndex⟩)
  | .error e => .error (e, default)
  | .ok localTerm =>
    if localTerm ≠ prevTerm then
      match l.firstIndexOfTerm prevIndex localTerm with
      | .error e => .error (e, default)
      | .ok first => .error (.logMismatch, ⟨localTerm, first⟩)
    else if entries = [] then .ok l
    else
      match checkSuffix prevIndex entries with
      | .error e => .error (e, default)
      | .ok _ =>
        match l.repair entries with
        | .error e => .error (e, default)
        | .ok l' => .ok l'

def advanceCommit (l : Log) (index : Nat) : Except RaftError Log :=
  if index < l.commitIndex then .error .logRegression
  else if index > l.lastIndex then .error .logUnavailable
  else .ok { l with commitIndex := index }

def advanceApplied (l : Log) (index : Nat) : Except RaftError Log :=
  if index < l.appliedIndex then .error .logRegression
  else if index > l.commitIndex then .error .logInvariant
  else .ok { l with appliedIndex := index }

def compact (l : Log) (index term : Nat) : Except RaftError Log :=
  if index < l.snapshotIndex then .error .logCompacted
  else if index = l.snapshotIndex then
    if term ≠ l.snapshotTerm then .error .logMismatch else .ok l
  else if index > l.lastIndex then .error .logUnavailable
  else if index > l.appliedIndex then .error .logInvariant
  else
    match l.term index with
    | .error e => .error e
    | .ok localTerm =>
      if localTerm ≠ term then .error .logMismatch
      else
        match l.retainedOffset index with
        | .error e => .error e
        | .ok offset =>
          .ok { l with
            entries := l.entries.drop (offset + 1)
            snapshotIndex := index
            snapshotTerm := term }

end Log

end Crane.Raft
