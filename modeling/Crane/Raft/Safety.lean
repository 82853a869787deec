import Crane.Raft.Steps

/-!
# What every run of a cluster keeps

`Consistent` is the invariant of a cluster: there is a history that satisfies the protocol's
invariant, every voter is in line with it, and everything that was ever sent or shown is true of
it. Every reachable cluster has such a history, and along a run histories only grow.

The three safety properties are read off it. Election safety is the uniqueness of a majority's
choice; log matching is `Sound.take_eq` seen through compacted logs; state machine safety is that of
two committed prefixes one contains the other, so that there is *one* sequence of committed
entries behind everything any voter ever applied or restored.
-/

namespace Crane.Raft

open Consensus List

variable {store : MemoryStore} {metadata : SnapshotMetadata}

section Elections

variable {σ : Type} [Hash] {cfg : Config σ} {s : History} {cluster : Cluster σ} {n : Nat}

structure Consistent (cfg : Config σ) (s : History) (cluster : Cluster σ) : Prop where
  inv : Inv cfg.voters.setting s
  hosts : ∀ n ∈ cfg.voters.voters, HostOk cfg s n (cluster.hosts n)
  sent : ∀ envelope ∈ cluster.sent, Sent cfg s envelope
  history : ∀ event ∈ cluster.history, Witnessed cfg s event

/-! ## Runs -/

omit [Hash] in
/-- What the construction of a node has checked of its identity. -/
lemma newNode_ok {options options' : NodeOptions} {limit : Nat} (h : newNode options limit = .ok options') :
    options.voters.validateLocalID options.localID = .ok () ∧ options.identity.clusterID ≠ zeroBytes 16 ∧
      options.identity.localVoterID = options.localID ∧
      options.identity.voterFingerprint = options.voters.fingerprint := by
  unfold newNode at h
  simp only at h
  split at h
  · cases h
  next hid =>
  split at h
  · cases h
  next hident =>
  push Not at hident
  exact ⟨not_not.mp hid, hident.2.1, hident.2.2.1, hident.2.2.2⟩

/-- A new store represents a voter that has done nothing. -/
lemma Stored.empty (hn : n ∈ cfg.voters.voters) : Stored cfg State.initial n (emptyStore (cfg.options n)) := by
  have hvtrs := cfg.sameVoters n hn
  obtain ⟨hid, hcluster, hloc, hfing⟩ := newNode_ok (cfg.accepted n hn)
  rw [hvtrs] at hid hfing
  refine ⟨rfl, hvtrs, rfl, ?_, ?_, by simp [emptyStore, emptyState],
    by simp [emptyStore, emptyState]⟩
  · refine ⟨cfg.formatVersion n hn, rfl, hcluster, hfing, by rw [hloc]; exact hid, ?_, ?_,
      ?_, ?_, ?_, ?_, ?_, ?_, ?_, ?_, ?_, ?_⟩
    all_goals simp [emptyStore, emptyState, Contiguous.nil]
  refine ⟨rfl, rfl, ?_, rfl, ?_, rfl, ?_, .nil 0⟩
  all_goals simp [State.initial, emptyStore, emptyState]

lemma Consistent.initial : Consistent cfg State.initial (Cluster.initial cfg) where
  inv := inv_initial
  hosts n hn := ⟨.empty hn, fun _ hp => absurd hp (by simp [Cluster.initial])⟩
  sent := by simp [Cluster.initial]
  history := by simp [Cluster.initial]

/-- One step of a cluster is an action of one voter. -/
lemma Consistent.step (h : Consistent cfg s cluster) {id : Nat} (hid : id ∈ cfg.voters.voters)
    {input : Input} (hin : input.Possible cluster) :
    ∃ s', Grows s s' ∧ Consistent cfg s' (cluster.step cfg id input) := by
  have hsent : ∀ envelope sample, input = .deliver envelope sample → Sent cfg s envelope := by
    rintro envelope sample rfl
    exact h.sent envelope hin
  obtain ⟨s', hacts, hhost, hsent', hevs⟩ := (h.hosts id hid).step h.inv hid input hsent
  have hg := hacts.grows h.inv
  refine ⟨s', hg, hacts.inv h.inv, fun n hn => ?_, fun envelope henv => ?_, fun event hev => ?_⟩
  · by_cases hne : n = id
    · subst hne
      simpa [Cluster.step] using hhost
    have := (h.hosts n hn).grow h.inv hg (hacts.node n hne) (hacts.role n hne)
    simpa [Cluster.step, hne] using this
  · rcases mem_append.mp henv with henv | henv
    · exact (h.sent envelope henv).grow h.inv hg
    · exact hsent' envelope henv
  rcases mem_append.mp hev with hev | hev
  · exact (h.history event hev).grow h.inv hg
  · exact hevs event hev

lemma Consistent.later (h : Consistent cfg s cluster) {cluster' : Cluster σ}
    (hl : Later cfg cluster cluster') : ∃ s', Grows s s' ∧ Consistent cfg s' cluster' := by
  induction hl with
  | refl => exact ⟨s, .refl s, h⟩
  | step _ hid hin ih =>
    obtain ⟨s1, hg1, h1⟩ := ih
    obtain ⟨s2, hg2, h2⟩ := h1.step hid hin
    exact ⟨s2, hg1.trans hg2, h2⟩

/-- Every reachable cluster has a history behind it. -/
lemma Reachable.consistent (h : Reachable cfg cluster) : ∃ s, Consistent cfg s cluster := by
  induction h with
  | initial => exact ⟨_, .initial⟩
  | step _ hid hin ih =>
    obtain ⟨s, hs⟩ := ih
    obtain ⟨s', -, hs'⟩ := hs.step hid hin
    exact ⟨s', hs'⟩

/-! ## Election safety -/

/-- The term, the vote and the commit index in a voter's store. -/
def Cluster.hardState (cluster : Cluster σ) (id : Nat) : HardState := (cluster.hosts id).store.state.hardState

/-- The voter leads the term. -/
def Cluster.Leads (cluster : Cluster σ) (id term : Nat) : Prop :=
  ∃ process, (cluster.hosts id).process = some process ∧ process.node.core.role = .leader ∧
    process.node.core.hardState.term = term

omit [Hash] in
lemma Linked.won {c : Core} (hI : Inv cfg.voters.setting s) (h : Linked cfg s n c)
    (he : c.Embodies cfg.voters.setting (s.node n)) (hr : c.role = .leader) :
    Won cfg.voters.setting s n c.hardState.term := by
  rw [he.term]
  exact hI.lead_isWon (hI.leader n (h.leader hr).1)

/-- A core that leads after an event has led before it, or has just counted a majority. -/
lemma Handled.won {c c' : Core} {rpc : Option RPC} {snapshot : Option Snapshot}
    {before : Nat → Option Entry} (h : Handled snapshot before rpc c c')
    (hI : Inv cfg.voters.setting s) (hid : c.localID = n) (hvtrs : c.voters = cfg.voters)
    (hc : c.Settled snapshot) (he : c.Embodies cfg.voters.setting (s.node n))
    (hl : Linked cfg s n c) (hj : ∀ r, rpc = some r → Justified cfg s r)
    (hr : c'.role = .leader) : Won cfg.voters.setting s n c'.hardState.term := by
  have hkept : c'.hardState.term = c.hardState.term → c.role = .leader →
      Won cfg.voters.setting s n c'.hardState.term := fun ht hr0 => ht ▸ hl.won hI he hr0
  cases h.move with
  | stay hard _ role =>
    rcases role with role | role | role
    · exact hkept (by rw [hard]) (role ▸ hr)
    · exact nomatch hr.symm.trans role
    · exact nomatch hr.symm.trans role
  | raise _ _ _ role | stand _ _ _ role => exact nomatch hr.symm.trans role
  | vote _ _ _ _ _ _ _ _ role =>
    rw [role] at hr
    split at hr
    · cases hr
    · next hlt => exact hkept (by omega) hr
  | elect _ hard candidate role quorum =>
    rw [hard]
    refine ⟨c'.votes, ⟨fun v hv => ?_, hvtrs ▸ quorum⟩, fun v hv => ?_⟩
    · have hsame : c'.voters = cfg.voters := h.output.voters.trans hvtrs
      exact hsame ▸ h.roles.votes v hv
    exact (h.votes candidate (.inr role) v hv).elim ((hl.candidate candidate).2 v)
      (CountsVote.voted hid hc hj)
  | follow _ _ follows => exact nomatch hr.symm.trans follows.role
  | commit _ leader _ term => exact hkept term leader
  | propose _ hard leader => exact hkept (by rw [hard]) leader

lemma HostOk.won (hI : Inv cfg.voters.setting s) {host : Host σ} (h : HostOk cfg s n host)
    {process : Process σ} (hp : host.process = some process) (hr : process.node.core.role = .leader) :
    Won cfg.voters.setting s n process.node.core.hardState.term := by
  have hproc := h.process process hp
  have htaken : ∀ {ready}, Taken cfg s n host.store process.node ready →
      Won cfg.voters.setting s n process.node.core.hardState.term := fun ht =>
    Linked.won (c := process.node.core.released) hI ht.steady.linked
      (h.stored.embodies ht.steady.durable) hr
  unfold ProcessOk at hproc
  split at hproc
  · exact hproc.steady.linked.won hI (h.stored.embodies hproc.steady.durable) hr
  · obtain ⟨c, rpc, hc, hh, hj⟩ := hproc.handled
    exact hh.won hI hc.localID hc.voters hc.settled (h.stored.embodies hc.durable) hc.linked hj hr
  · exact htaken hproc.1
  · exact htaken hproc.1
  · exact htaken hproc.1

lemma Consistent.won (h : Consistent cfg s cluster) {id term : Nat}
    (hid : id ∈ cfg.voters.voters) (hl : cluster.Leads id term) : Won cfg.voters.setting s id term := by
  obtain ⟨process, hp, hr, rfl⟩ := hl
  exact (h.hosts id hid).won h.inv hp hr

/-- **Election safety.** At most one voter ever leads a term, however far apart in a run the two
    moments are at which a voter is seen leading it. -/
theorem election_safety {early late : Cluster σ} (he : Reachable cfg early)
    (hl : Later cfg early late) {a b term : Nat} (ha : a ∈ cfg.voters.voters)
    (hb : b ∈ cfg.voters.voters) (hleads : early.Leads a term) (hleads' : late.Leads b term) :
    a = b := by
  obtain ⟨s, hs⟩ := he.consistent
  obtain ⟨s', hg, hs'⟩ := hs.later hl
  exact Won.unique ((hs.won ha hleads).grow hg) (hs'.won hb hleads')

end Elections

/-! ### A run

Three voters whose application is the list of the indices it was given; the digest is the identity,
which no two byte strings share. -/

namespace Sample

scoped instance : Hash := ⟨fun bytes => bytes⟩

def voters : VoterSet := .three (List.replicate 32 7)

def options (id : Nat) : NodeOptions where
  localID := id
  voters := voters
  identity := ⟨1, List.replicate 16 1, id, List.replicate 32 7⟩
  electionTimeoutMin := 6
  electionTimeoutMax := 12
  heartbeatInterval := 2
  maxAppendEntries := 0
  maxAppendBytes := 0
  snapshotEntryThreshold := 1
  snapshotByteThreshold := 100000
  maxSnapshotBytes := 1000
  maxSnapshotChunkBytes := 4

def indices : StateMachine (List Nat) where
  apply seen index _ _ := some (seen ++ [index], [])
  capture seen _ _ := some (1, seen.map UInt8.ofNat)
  restore _ bytes := some (bytes.map UInt8.toNat)

def config : Config (List Nat) where
  voters := voters
  options := options
  sm := indices
  formatVersion := by intros; rfl
  localID := by intros; rfl
  sameVoters := by intros; rfl
  appendEntries := by intros; exact Nat.two_pow_pos 16
  accepted := by
    intro id hid
    have h : id = 1 ∨ id = 2 ∨ id = 3 := by simpa [voters, VoterSet.three] using hid
    rcases h with rfl | rfl | rfl <;> rfl

/-- Enough inputs for a voter to work off what it has to do. -/
def pass (id : Nat) : List Cue :=
  let inputs : List Input := [.drain (List.replicate 16 1) 0, .act, .send, .send, .send, .apply,
    .finish, .drain (List.replicate 16 1) 0]
  inputs.map (.voter id)

/-- Voter 1 is elected by voter 2. -/
def elected : Cluster (List Nat) :=
  (Cluster.initial config).play config
    ([.voter 1 (.recover 0), .voter 2 (.recover 0), .voter 3 (.recover 0), .voter 1 (.tick 6 0)] ++
      pass 1 ++ [.arrive 0 0] ++ pass 2 ++ [.arrive 2 0] ++ pass 1 ++ [.arrive 3 0] ++ pass 2 ++
      [.arrive 5 0] ++ pass 1)

/-- It replicates its first entry and a command, and both of them apply the command. -/
def replicated : Cluster (List Nat) :=
  elected.play config
    ([.arrive 6 0] ++ pass 2 ++ [.arrive 8 0] ++ pass 1 ++ [.voter 1 (.propose .command [9])] ++
      pass 1 ++ [.arrive 9 0] ++ pass 2 ++ [.arrive 11 0] ++ pass 1 ++ [.voter 1 (.tick 8 0)] ++
      pass 1 ++ [.arrive 12 0] ++ pass 2)

/-- It captures a snapshot, stops and restores it. -/
def restored : Cluster (List Nat) :=
  replicated.play config
    [.voter 1 .captured, .voter 1 (.drain [] 0), .voter 1 .stop, .voter 1 (.recover 0)]

instance (cluster : Cluster (List Nat)) (id term : Nat) : Decidable (cluster.Leads id term) :=
  decidable_of_iff ((cluster.hosts id).process.any fun process =>
      process.node.core.role = .leader ∧ process.node.core.hardState.term = term) (by
    unfold Cluster.Leads
    cases (cluster.hosts id).process <;> simp)

lemma elected_reachable : Reachable config elected := (Later.play config _ _).reachable .initial

lemma replicated_reachable : Reachable config replicated := (Later.play config _ _).reachable elected_reachable

lemma restored_reachable : Reachable config restored := (Later.play config _ _).reachable replicated_reachable

/-- It leads to the end, and the voter that elected it keeps its vote and commits the command. -/
lemma leads_on : elected.Leads 1 1 ∧ replicated.Leads 1 1 ∧
    elected.hardState 2 = ⟨1, 1, 0⟩ ∧ replicated.hardState 2 = ⟨1, 1, 2⟩ ∧
    ⟨2, 1, .command, [9]⟩ ∈ (replicated.hosts 2).store.state.entries := by
  decide +kernel

lemma elected_leads : elected.Leads 1 1 := leads_on.1

end Sample

open Sample in
theorem election_safety_elected : elected.Leads 1 1 ∧ Later config elected replicated ∧
    ∀ b ∈ voters.voters, replicated.Leads b 1 → 1 = b :=
  ⟨elected_leads, Later.play config _ _, fun _ hb hleads =>
    election_safety elected_reachable (Later.play config _ _) (by decide) hb elected_leads hleads⟩

section Matching

variable {σ : Type} [Hash] {cfg : Config σ} {s : History} {cluster : Cluster σ} {n : Nat}

/-! ## Log matching -/

/-- A log of the voter: the one its store holds, or the one its running core works with. -/
def Host.HasLog (host : Host σ) (l : Log) : Prop :=
  l = host.store.state.log host.store.state.hardState.commitIndex ∨
    ∃ process, host.process = some process ∧ l = process.node.core.log

/-- What can be read from `l` is what can be read from the whole log `L`. -/
structure Shows (P : Setting Nat Entry) (l : Log) (L : List Entry) : Prop where
  valid : l.Valid
  term_iff : ∀ {i t}, l.term i = .ok t ↔ l.snapshotIndex ≤ i ∧ i ≤ L.length ∧ t = P.termAt L i
  entry_iff : ∀ {i e}, l.entry i = .ok e ↔ l.snapshotIndex < i ∧ L[i - 1]? = some e

omit [Hash] in
lemma Represents.shows {voters : VoterSet} {r : Replica Nat Entry} {hard : HardState} {l : Log}
    (h : Represents voters.setting r hard l.snapshotIndex l.snapshotTerm l.entries)
    (hl : l.Valid) : Shows voters.setting l r.log :=
  ⟨hl, h.term_iff hl, h.entry_iff hl⟩

lemma Stored.shows (h : Stored cfg s n store) :
    Shows cfg.voters.setting (store.state.log store.state.hardState.commitIndex) (s.node n).log := by
  have hle : store.state.snapshotBase.lastIncludedIndex ≤ store.state.hardState.commitIndex :=
    h.valid.applied_ge.trans h.valid.applied_le
  exact Represents.shows h.represents (h.valid.log_valid hle le_rfl)

lemma Taken.running {node : Node σ} {ready : Ready} (h : Taken cfg s n store node ready)
    (hst : Stored cfg s n store) : Shows cfg.voters.setting node.core.log (s.node n).log ∧
      node.core.hardState.term = (s.node n).term ∧ (node.core.role = .leader → s.role n = .leader) := by
  have hval : node.core.released.log.Valid := h.steady.settled.idle.sound.log
  have hlen := h.length
  have he : Represents cfg.voters.setting (s.node n) node.core.hardState
      node.core.log.snapshotIndex node.core.log.snapshotTerm node.core.log.entries :=
    Stored.embodies (c := node.core.released) hst h.steady.durable
  exact ⟨he.shows { hval with applied_ge := h.base, commit_ge := by omega }, he.term,
    fun hr => (h.steady.linked.leader hr).1⟩

/-- A running core is in line with the history, possibly with that after the voter's next action: a core
    that has handled an event is ahead of the store. -/
lemma HostOk.running (hI : Inv cfg.voters.setting s) {host : Host σ} (h : HostOk cfg s n host)
    {process : Process σ} (hp : host.process = some process) : ∃ s', Acts cfg.voters.setting n s s' ∧
      Shows cfg.voters.setting process.node.core.log (s'.node n).log ∧
      process.node.core.hardState.term = (s'.node n).term ∧
      (process.node.core.role = .leader → s'.role n = .leader) := by
  have hproc := h.process process hp
  unfold ProcessOk at hproc
  split at hproc
  · have he := h.stored.embodies hproc.steady.durable
    exact ⟨s, .refl s, Represents.shows he hproc.steady.settled.idle.sound.log, he.term,
      fun hr => (hproc.steady.linked.leader hr).1⟩
  · obtain ⟨c, rpc, hc, hh, hj⟩ := hproc.handled
    obtain ⟨s', hsim⟩ := hh.simulates hI hc.localID hc.voters hc.settled
      (h.stored.embodies hc.durable) hc.linked hj
    exact ⟨s', hsim.acts, Represents.shows hsim.embodies hh.output.sound.log, hsim.embodies.term,
      fun hr => (hsim.leader hr).1⟩
  · exact ⟨s, .refl s, hproc.1.running h.stored⟩
  · exact ⟨s, .refl s, hproc.1.running h.stored⟩
  · exact ⟨s, .refl s, hproc.1.running h.stored⟩

/-- Behind every log of a voter there is a whole log of the history after its next action. -/
lemma HostOk.shows (hI : Inv cfg.voters.setting s) {host : Host σ} (h : HostOk cfg s n host) :
    ∃ s', Acts cfg.voters.setting n s s' ∧ ∀ l, host.HasLog l →
      ∃ L, Sound cfg.voters.setting s' L ∧ Shows cfg.voters.setting l L := by
  cases hp : host.process with
  | none =>
    refine ⟨s, .refl s, fun l hl => ⟨_, hI.log_sound n, ?_⟩⟩
    rcases hl with rfl | ⟨process, hp', -⟩
    · exact h.stored.shows
    · cases hp.symm.trans hp'
  | some process =>
    obtain ⟨s', hacts, hshows, -⟩ := h.running hI hp
    refine ⟨s', hacts, fun l hl => ?_⟩
    rcases hl with rfl | ⟨process', hp', rfl⟩
    · exact ⟨_, (hI.log_sound n).grow (hacts.grows hI), h.stored.shows⟩
    obtain rfl : process = process' := Option.some.inj (hp.symm.trans hp')
    exact ⟨_, (hacts.inv hI).log_sound n, hshows⟩

/-- Any two logs of a cluster are logs of one history. -/
lemma Consistent.shows (h : Consistent cfg s cluster) {a b : Nat} (ha : a ∈ cfg.voters.voters)
    (hb : b ∈ cfg.voters.voters) {l l' : Log} (hl : (cluster.hosts a).HasLog l)
    (hl' : (cluster.hosts b).HasLog l') : ∃ s' L L', Inv cfg.voters.setting s' ∧
      Sound cfg.voters.setting s' L ∧ Shows cfg.voters.setting l L ∧
      Sound cfg.voters.setting s' L' ∧ Shows cfg.voters.setting l' L' := by
  obtain ⟨s1, hacts, hlogs⟩ := (h.hosts a ha).shows h.inv
  have hI1 := hacts.inv h.inv
  obtain ⟨L, hL, hshows⟩ := hlogs l hl
  by_cases hab : b = a
  · subst hab
    obtain ⟨L', hL', hshows'⟩ := hlogs l' hl'
    exact ⟨s1, L, L', hI1, hL, hshows, hL', hshows'⟩
  have hbok := (h.hosts b hb).grow h.inv (hacts.grows h.inv) (hacts.node b hab)
    (hacts.role b hab)
  obtain ⟨s2, hacts2, hlogs2⟩ := hbok.shows hI1
  obtain ⟨L', hL', hshows'⟩ := hlogs2 l' hl'
  exact ⟨s2, L, L', hacts2.inv hI1, hL.grow (hacts2.grows hI1), hshows, hL', hshows'⟩

/-- **Log matching.** Where two logs have the same term at a position, retained or the base, they
    agree on every entry up to it that both retain; and terms never fall along a log. -/
theorem log_matching (h : Reachable cfg cluster) {a b : Nat} (ha : a ∈ cfg.voters.voters)
    (hb : b ∈ cfg.voters.voters) {l l' : Log} (hl : (cluster.hosts a).HasLog l)
    (hl' : (cluster.hosts b).HasLog l') :
    (∀ i t, l.term i = .ok t → l'.term i = .ok t → ∀ j, j ≤ i → ∀ e e', l.entry j = .ok e →
      l'.entry j = .ok e' → e = e') ∧
    ∀ i j t u, i ≤ j → l.term i = .ok t → l.term j = .ok u → t ≤ u := by
  obtain ⟨s, hs⟩ := h.consistent
  obtain ⟨s', L, L', -, hL, hshows, hL', hshows'⟩ := hs.shows ha hb hl hl'
  refine ⟨fun i t ht ht' j hj e e' he he' => ?_, fun i j t u hij ht hu => ?_⟩
  · obtain ⟨-, hi, hterm⟩ := hshows.term_iff.mp ht
    obtain ⟨-, hi', hterm'⟩ := hshows'.term_iff.mp ht'
    obtain ⟨hlo, hget⟩ := hshows.entry_iff.mp he
    obtain ⟨-, hget'⟩ := hshows'.entry_iff.mp he'
    have htake := hL.take_eq hL' hi hi' (hterm.symm.trans hterm')
    have hlt : j - 1 < i := by omega
    rw [← getElem?_take_of_lt hlt] at hget hget'
    rw [htake, hget'] at hget
    exact (Option.some.inj hget).symm
  · exact hshows.valid.term_mono ht hu hij

end Matching

namespace Sample

/-- The log in a voter's store after the run. -/
def storedLog (id : Nat) : Log :=
  (replicated.hosts id).store.state.log (replicated.hosts id).store.state.hardState.commitIndex

end Sample

open Sample in
/-- The logs two voters store after the run reach up to the command and agree up to it. -/
theorem log_matching_replicated : (storedLog 1).term 2 = .ok 1 ∧ (storedLog 2).term 2 = .ok 1 ∧
      ∀ j ≤ 2, ∀ e e', (storedLog 1).entry j = .ok e → (storedLog 2).entry j = .ok e' → e = e' := by
  obtain ⟨h1, h2⟩ : (storedLog 1).term 2 = .ok 1 ∧ (storedLog 2).term 2 = .ok 1 := by decide +kernel
  exact ⟨h1, h2, (log_matching replicated_reachable (a := 1) (b := 2) (by decide) (by decide)
    (.inl rfl) (.inl rfl)).1 2 1 h1 h2⟩

section Application

variable {σ : Type} [Hash] {cfg : Config σ} {s : History} {cluster : Cluster σ} {n : Nat}

/-! ## State machine safety -/

/-- The entry stands at its index in `committed`. -/
def At (committed : List Entry) (e : Entry) : Prop := 0 < e.index ∧ committed[e.index - 1]? = some e

/-- The snapshot stands for exactly the entries of `committed` up to its last included index: it
    names the term of the last of them, and its bytes were captured from an application after just
    these entries. -/
def Covers (cfg : Config σ) (committed : List Entry) (metadata : SnapshotMetadata)
    (bytes : Bytes) : Prop :=
  metadata.lastIncludedIndex ≤ committed.length ∧
    cfg.voters.setting.termAt committed metadata.lastIncludedIndex = metadata.lastIncludedTerm ∧
    ∃ app, Reached cfg.sm app (committed.take metadata.lastIncludedIndex) ∧
      cfg.sm.capture app metadata.lastIncludedIndex metadata.lastIncludedTerm =
        some (metadata.stateMachineSchemaVersion, bytes)

/-- What was shown is about `committed`. -/
def Event.About (cfg : Config σ) (committed : List Entry) : Event → Prop
  | .applied _ e => At committed e
  | .restored _ metadata bytes => Covers cfg committed metadata bytes
  | _ => True

/-- What a durable state calls committed is `committed`. -/
structure RecoveredState.Within (cfg : Config σ) (d : RecoveredState) (committed : List Entry) : Prop where
  commit : d.hardState.commitIndex ≤ committed.length
  entries : ∀ e ∈ d.entries, e.index ≤ d.hardState.commitIndex → At committed e
  snapshot : ∀ sn, d.snapshot = some sn → Covers cfg committed sn.metadata sn.state

section Extend

variable {p q : List Entry} (hpq : p <+: q)

include hpq

section

omit [Hash]

lemma At.extend {e : Entry} (h : At p e) : At q e := by
  obtain ⟨hpos, hget⟩ := h
  obtain ⟨r, rfl⟩ := hpq
  have hlt := (List.getElem?_eq_some_iff.mp hget).1
  exact ⟨hpos, by rw [List.getElem?_append_left hlt]; exact hget⟩

lemma Covers.extend {bytes : Bytes} (h : Covers cfg p metadata bytes) : Covers cfg q metadata bytes := by
  obtain ⟨hle, hterm, hcapt⟩ := h
  have htake : p.take metadata.lastIncludedIndex = q.take metadata.lastIncludedIndex := by
    obtain ⟨r, rfl⟩ := hpq
    exact (take_append_of_le_length hle).symm
  refine ⟨hle.trans hpq.length_le, ?_, htake ▸ hcapt⟩
  rw [← hterm]
  exact (Setting.termAt_shorten hpq hle).symm

lemma Event.About.extend {event : Event} (h : event.About cfg p) : event.About cfg q := by
  cases event with
  | applied => exact At.extend hpq h
  | restored => exact Covers.extend hpq h
  | completed | failed => trivial

lemma RecoveredState.Within.extend {d : RecoveredState} (h : d.Within cfg p) : d.Within cfg q :=
  ⟨h.commit.trans hpq.length_le, fun e he hle => (h.entries e he hle).extend hpq,
    fun sn hsn => (h.snapshot sn hsn).extend hpq⟩

end

end Extend

/-- A snapshot that stands for something covers what it stands for. -/
lemma Stands.covers (hash : CollisionFree) {t : Nat} {bytes : Bytes} (h : Stands cfg s t metadata bytes) :
    ∃ p, Contiguous 0 p ∧ Committed cfg.voters.setting s t p ∧ p.length = metadata.lastIncludedIndex ∧
      Covers cfg p metadata bytes := by
  obtain ⟨-, p, hidxd, hp, hlen, hterm, hcapt⟩ := h
  refine ⟨p, hidxd, hp, hlen, hlen.ge, ?_, ?_⟩
  · rw [← hterm, ← hlen]
    rfl
  rw [← hlen, take_length, hlen]
  exact hcapt hash

/-- An entry that a store calls committed stands at its index in the history. -/
lemma Stored.at_index (h : Stored cfg s n store) {e : Entry} (he : e ∈ store.state.entries)
    (hle : e.index ≤ store.state.hardState.commitIndex) : At ((s.node n).log.take (s.node n).commit) e := by
  have hr := h.represents
  have hmem : e ∈ (s.node n).log := by
    rw [hr.entries] at he
    exact mem_of_mem_drop he
  obtain ⟨hpos, hget⟩ := hr.indexed.getElem?_mem hmem
  refine ⟨hpos, ?_⟩
  rw [getElem?_take_of_lt (by rw [← hr.commit]; omega)]
  exact hget

lemma Stored.within (hash : CollisionFree) (hI : Inv cfg.voters.setting s) (h : Stored cfg s n store) :
    store.state.Within cfg ((s.node n).log.take (s.node n).commit) := by
  have hr := h.represents
  have hlen : ((s.node n).log.take (s.node n).commit).length = (s.node n).commit := by
    rw [length_take]
    exact Nat.min_eq_left (hI.commit_le n)
  refine ⟨by rw [hlen, hr.commit], fun e he hle => ?_, fun sn hsn => ?_⟩
  · exact h.at_index he hle
  -- The prefix the snapshot stands for is no longer than what the voter has committed.
  obtain ⟨p, -, hp, hplen, hcovers⟩ := (h.stands sn hsn).covers hash
  have hle : p.length ≤ (s.node n).commit := by
    rw [hplen, (h.encoded sn hsn).2, ← hr.commit]
    exact h.valid.applied_ge.trans h.valid.applied_le
  refine hcovers.extend ?_
  rcases hI.committed_comparable hp (hI.committed n) with hpre | hpre
  · exact hpre
  · rw [hpre.eq_of_length_le (hle.trans hlen.ge)]

lemma Witnessed.about (hash : CollisionFree) {event : Event} (h : Witnessed cfg s event) :
    ∃ t p, Committed cfg.voters.setting s t p ∧ Contiguous 0 p ∧ event.About cfg p := by
  cases event with
  | applied =>
    obtain ⟨t, p, hidxd, hp, hpos, hget⟩ := h
    exact ⟨t, p, hp, hidxd, hpos, hget⟩
  | restored =>
    obtain ⟨t, hstd⟩ := h
    obtain ⟨p, hidxd, hp, -, hcovers⟩ := hstd.covers hash
    exact ⟨t, p, hp, hidxd, hcovers⟩
  | completed | failed => exact ⟨0, [], .inl rfl, .nil 0, trivial⟩

/-- What was shown in an event, or is stored by a voter, is about `committed`. -/
def Cluster.Accounts (cfg : Config σ) (cluster : Cluster σ) (committed : List Entry) : Event ⊕ Nat → Prop
  | .inl event => event.About cfg committed
  | .inr id => (cluster.hosts id).store.state.Within cfg committed

/-- There is one sequence of committed entries behind everything that was ever shown and
    everything that is stored. -/
lemma Consistent.committed (hash : CollisionFree) (h : Consistent cfg s cluster) :
    ∃ committed, Contiguous 0 committed ∧ (∀ event ∈ cluster.history, event.About cfg committed) ∧
      ∀ id ∈ cfg.voters.voters, (cluster.hosts id).store.state.Within cfg committed := by
  have hmono : ∀ p q x, p <+: q → cluster.Accounts cfg p x → cluster.Accounts cfg q x := by
    intro p q x hpq hx
    cases x with
    | inl => exact Event.About.extend hpq hx
    | inr => exact RecoveredState.Within.extend hpq hx
  have hall : ∀ x ∈ cluster.history.map Sum.inl ++ cfg.voters.voters.map Sum.inr,
      ∃ t p, Committed cfg.voters.setting s t p ∧ Contiguous 0 p ∧ cluster.Accounts cfg p x := by
    intro x hx
    rcases mem_append.mp hx with hx | hx
    · obtain ⟨event, hev, rfl⟩ := mem_map.mp hx
      exact (h.history event hev).about hash
    obtain ⟨id, hid, rfl⟩ := mem_map.mp hx
    have hst := (h.hosts id hid).stored
    exact ⟨_, _, h.inv.committed id, hst.represents.indexed.take _, hst.within hash h.inv⟩
  obtain ⟨-, p, -, hidxd, hgood⟩ := h.inv.committed_common (Contiguous.nil 0) hmono _ hall
  exact ⟨p, hidxd,
    fun event hev => hgood (Sum.inl event) (mem_append_left _ (mem_map_of_mem hev)),
    fun id hid => hgood (Sum.inr id) (mem_append_right _ (mem_map_of_mem hid))⟩

/-- **State machine safety.** Entries applied at the same index, by whatever voters and however far
    apart, are the same; and there is one sequence of entries, indexed from one, that every applied
    entry is from, and of which every restored and every stored snapshot stands for exactly the
    entries up to its last included index. -/
theorem state_machine_safety (hash : CollisionFree) (h : Reachable cfg cluster) :
    (∀ a b e e', .applied a e ∈ cluster.history → .applied b e' ∈ cluster.history →
      e.index = e'.index → e.term = e'.term ∧ e.kind = e'.kind ∧ e.command = e'.command) ∧
    ∃ committed, Contiguous 0 committed ∧ (∀ event ∈ cluster.history, event.About cfg committed) ∧
      ∀ id ∈ cfg.voters.voters, (cluster.hosts id).store.state.Within cfg committed := by
  obtain ⟨s, hs⟩ := h.consistent
  obtain ⟨committed, hidxd, hevs, hstores⟩ := hs.committed hash
  refine ⟨fun a b e e' he he' hidx => ?_, committed, hidxd, hevs, hstores⟩
  have hat : At committed e := hevs _ he
  have hat' : At committed e' := hevs _ he'
  obtain rfl : e = e' := by
    have := hat.2
    rw [hidx, hat'.2] at this
    exact (Option.some.inj this).symm
  exact ⟨rfl, rfl, rfl⟩

/-! ## What lasts -/

section Lasting

variable {early late : Cluster σ} (he : Reachable cfg early) (hl : Later cfg early late) {a b : Nat}
  (ha : a ∈ cfg.voters.voters)

include he hl ha

/-- **Leader completeness.** What a voter's store calls committed is in the log of whoever leads a term
    from that of the store on, then or later, or under the snapshot of that log. -/
theorem leader_completeness (hb : b ∈ cfg.voters.voters) {e : Entry}
    (hstored : e ∈ (early.hosts a).store.state.entries)
    (hcommit : e.index ≤ (early.hardState a).commitIndex) {process : Process σ}
    (hp : (late.hosts b).process = some process) (hr : process.node.core.role = .leader)
    (hterm : (early.hardState a).term ≤ process.node.core.hardState.term) :
    e.index ≤ process.node.core.log.snapshotIndex ∨ process.node.core.log.entry e.index = .ok e := by
  obtain ⟨s, hs⟩ := he.consistent
  obtain ⟨s1, hg, hs1⟩ := hs.later hl
  obtain ⟨s2, hacts, hshows, hsame, hlead⟩ := (hs1.hosts b hb).running hs1.inv hp
  have hI := hacts.inv hs1.inv
  have hst := (hs.hosts a ha).stored
  have hpre : (s.node a).log.take (s.node a).commit <+: (s2.node b).log := by
    have hcom := ((hs.inv.committed a).grow hs.inv hg le_rfl).grow hs1.inv (hacts.grows hs1.inv) le_rfl
    rw [← hst.represents.term] at hcom
    exact hI.committed_prefix hcom (hterm.trans_eq hsame) (hI.leader b (hlead hr))
  obtain ⟨-, hget⟩ := (hst.at_index hstored hcommit).extend hpre
  rcases Nat.lt_or_ge process.node.core.log.snapshotIndex e.index with hlt | hle
  · exact .inr (hshows.entry_iff.mpr ⟨hlt, hget⟩)
  · exact .inl hle

/-- **Votes are for good.** A vote that is stored is not given to anyone else in its term, through stops
    and restarts. -/
theorem vote_kept (hvoted : (early.hardState a).votedFor ≠ 0)
    (hterm : (late.hardState a).term = (early.hardState a).term) :
    (late.hardState a).votedFor = (early.hardState a).votedFor := by
  obtain ⟨s, hs⟩ := he.consistent
  obtain ⟨s1, hg, hs1⟩ := hs.later hl
  have hr := (hs.hosts a ha).stored.represents
  have hr1 := (hs1.hosts a ha).stored.represents
  unfold Cluster.hardState at hvoted hterm ⊢
  rw [hr.vote] at hvoted ⊢
  cases hvote : (s.node a).vote with
  | none =>
    rw [hvote] at hvoted
    exact absurd rfl hvoted
  | some c =>
    obtain ⟨V, hV⟩ := hs.inv.vote_voted a c hvote
    have hsame := (hs1.inv.voted_term a _ c V (hg.voted a _ _ hV)).2
    rw [← hr.term, ← hr1.term] at hsame
    rw [hr1.vote, hsame hterm.symm]

end Lasting

end Application

open Sample in
/-- Both voters apply the command, and the snapshot one of them takes and restores is of it. -/
theorem state_machine_safety_restored : .applied 1 ⟨2, 1, .command, [9]⟩ ∈ restored.history ∧
    .applied 2 ⟨2, 1, .command, [9]⟩ ∈ restored.history ∧
    .restored 1 ⟨2, 1, 1⟩ [2] ∈ restored.history ∧
    ∃ committed, Contiguous 0 committed ∧ ∀ event ∈ restored.history, event.About config committed := by
  have hash : CollisionFree := fun _ _ h => h
  obtain ⟨committed, hidxd, hevs, -⟩ := (state_machine_safety hash restored_reachable).2
  obtain ⟨hfirst, hsecond, hrestored⟩ : .applied 1 ⟨2, 1, .command, [9]⟩ ∈ restored.history ∧
      .applied 2 ⟨2, 1, .command, [9]⟩ ∈ restored.history ∧
      .restored 1 ⟨2, 1, 1⟩ [2] ∈ restored.history := by
    decide +kernel
  exact ⟨hfirst, hsecond, hrestored, committed, hidxd, hevs⟩

open Sample in
theorem leader_completeness_replicated : ∃ process, (replicated.hosts 1).process = some process ∧
    (2 ≤ process.node.core.log.snapshotIndex ∨
      process.node.core.log.entry 2 = .ok ⟨2, 1, .command, [9]⟩) := by
  obtain ⟨-, ⟨process, hp, hr, hterm⟩, -, hhard, hstored⟩ := leads_on
  exact ⟨process, hp, leader_completeness replicated_reachable .refl (a := 2) (b := 1) (by decide)
    (by decide) hstored (by rw [hhard]) hp hr (by rw [hhard, hterm])⟩

open Sample in
theorem vote_kept_replicated : (elected.hardState 2).votedFor = 1 ∧ (replicated.hardState 2).votedFor = 1 := by
  obtain ⟨-, -, hfst, hhard, -⟩ := leads_on
  have hlater : Later config elected replicated := Later.play config _ _
  have hkept := vote_kept elected_reachable hlater (a := 2) (by decide) (by rw [hfst]; decide)
    (by rw [hfst, hhard])
  rw [hfst] at hkept
  exact ⟨by rw [hfst], hkept⟩

end Crane.Raft
