import Crane.Raft.Safety

/-!
# Calls that are refused

A node goes on after an error of its core that `fatalCoreError` does not name, with the core as the
error left it. For a settled core that is the core as it was, whatever it is given and by whom: what can
be refused is refused before anything is written, and the one error that comes in the middle of a handler
is fatal. The owner gives its core inputs while it waits and while it drains with no batch pending, and the
core is settled there (`refused_call_changes_nothing`).
-/

namespace Crane.Raft

open Program Consensus

/-- The calls of a core's owner that can be refused. -/
inductive Call where
  | tick (now sample : Nat)
  | step (senderID : Nat) (rpc : RPC) (sample : Nat)
  | propose (kind : EntryKind) (command : Bytes)
  | compact (metadata : SnapshotMetadata)
  | transfer (peerID : Nat) (snapshot : Snapshot) (transferID : Bytes) (chunkLimit : Nat)

def Call.run : Call → CoreM Unit
  | .tick now sample => Core.tick now sample
  | .step senderID rpc sample => Core.step senderID rpc sample
  | .propose kind command => do let _ ← Core.proposeTracked kind command
  | .compact metadata => Core.compactSnapshot metadata
  | .transfer peerID snapshot transferID chunkLimit =>
    Core.startSnapshotTransfer peerID snapshot transferID chunkLimit

/-- The error a call is refused with. -/
def Call.refusal (call : Call) (c : Core) : Option RaftError :=
  match call.run c with
  | .ok _ _ => none
  | .error e _ => some e

namespace Core

variable {snapshot : Option Snapshot} {c : Core}

/-- A call is taken whole or not at all, unless the node stops on its error. -/
def Whole (c : Core) : Prop :=
  ∀ (call : Call) (e : RaftError) (c' : Core), call.run c = .error e c' → fatalCoreError e = false → c' = c

lemma Settled.whole (h : c.Settled snapshot) : c.Whole := by
  intro call e c' hrun hgoes
  have hspec : Ensures call.run c (fun _ _ => True) fun e c' => fatalCoreError e = true ∨ c' = c := by
    cases call with
    | tick now sample =>
      exact (tick_spec h now sample).mono (fun _ _ _ => trivial) fun _ _ he => he.imp_left (congrArg fatalCoreError)
    | step senderID rpc sample =>
      exact (step_spec h senderID rpc sample).mono (fun _ _ _ => trivial)
        fun _ _ he => he.imp_left (congrArg fatalCoreError)
    | propose kind command =>
      unfold Call.run
      rw [ensures_bind]
      exact (proposeTracked_spec h kind command).mono (fun _ _ _ => trivial) fun _ _ he => .inr he
    | compact metadata =>
      exact (compactSnapshot_spec h metadata none).mono (fun _ _ _ => trivial) fun _ _ he => .inr he
    | transfer peerID sent transferID chunkLimit =>
      exact (startSnapshotTransfer_spec h peerID sent transferID chunkLimit).mono
        (fun _ _ _ => trivial) fun _ _ he => he.imp_left (congrArg fatalCoreError)
  refine (hspec.of_error hrun).resolve_left ?_
  rw [hgoes]
  exact Bool.false_ne_true

end Core

section Runs

variable {σ : Type} [Hash] {cfg : Config σ}

/-- A settled core takes a call whole or not at all, and so does every core of a reachable cluster where
    its owner makes one: while it waits, and while it drains with nothing pending. -/
theorem refused_call_changes_nothing : (∀ snapshot (c : Core), c.Settled snapshot → c.Whole) ∧
    ∀ cluster, Reachable cfg cluster → ∀ n ∈ cfg.voters.voters, ∀ process,
      (cluster.hosts n).process = some process →
      process.phase = .waiting ∨ process.phase = .draining ∧ process.node.core.hasPending = false →
      process.node.core.Whole := by
  refine ⟨fun _ _ hc => hc.whole, ?_⟩
  intro cluster hreach n hn process hproc hplc
  obtain ⟨s, hs⟩ := hreach.consistent
  have hhost := hs.hosts n hn
  have hok := hhost.process process hproc
  unfold ProcessOk at hok
  rcases hplc with hphase | ⟨hphase, hidle⟩
  · rw [hphase] at hok
    exact hok.steady.settled.whole
  rw [hphase] at hok
  obtain ⟨_, _, _, hwaiting⟩ := hok.waiting hs.inv hhost.stored hidle
  exact hwaiting.steady.settled.whole

end Runs

open Sample in
/-- A leader that has committed a command refuses an entry it cannot make, after every check on the
leader itself. -/
theorem refused_call_changes_nothing_leader : ∃ process, (replicated.hosts 1).process = some process ∧
    process.node.core.role = .leader ∧ (process.node.core.progress 2).map (·.matchIndex) = some 2 ∧
    ∃ c', Call.run (.propose .noOp [9]) process.node.core = .error .invalidEntry c' ∧
      c' = process.node.core := by
  have hrun : ((replicated.hosts 1).process.any fun process => decide (process.phase = .waiting ∧
      process.node.core.role = .leader ∧ (process.node.core.progress 2).map (·.matchIndex) = some 2 ∧
      Call.refusal (.propose .noOp [9]) process.node.core = some .invalidEntry)) = true := by
    decide +kernel
  rw [Option.any_eq_true] at hrun
  obtain ⟨process, hproc, hall⟩ := hrun
  obtain ⟨hphase, hleads, hmatch, hrefused⟩ := of_decide_eq_true hall
  have hwhole := refused_call_changes_nothing.2 replicated replicated_reachable 1 (by decide) process hproc
    (.inl hphase)
  cases hcall : Call.run (.propose .noOp [9]) process.node.core with
  | ok =>
    rw [Call.refusal, hcall] at hrefused
    cases hrefused
  | error e c' =>
    rw [Call.refusal, hcall] at hrefused
    cases hrefused
    exact ⟨process, hproc, hleads, hmatch, c', hcall, hwhole _ _ c' hcall rfl⟩

end Crane.Raft
