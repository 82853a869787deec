import Crane.Data.Table
import Mathlib.Data.List.MinMax
import Mathlib.Data.Prod.Lex
import Mathlib.Order.WithBot

/-!
# The membership table

`swim/table.go`: the visible records of the members and, apart from them, one terminal generation for
each node, its floor. A terminal record that has been told to everyone is forgotten; its floor stays and
refuses what is older.

What a node is known by is a pair (incarnation, status), ordered by incarnation first. Knowledge of it
is in two places, and the two merge functions write to both. Read through `Table.effective`, the greater
of the two, each of them is a maximum (`Raised`), and forgetting changes nothing.
-/

namespace Crane.Swim

open Data.Table

/-! ## Records -/

/-- In the order of severity. -/
inductive Status where
  | alive
  | suspect
  | dead
  | left
  deriving DecidableEq, Inhabited

def Status.severity : Status → Nat
  | .alive => 0
  | .suspect => 1
  | .dead => 2
  | .left => 3

def Status.terminal (s : Status) : Bool := s = .dead ∨ s = .left

abbrev NodeID := BitVec 16

structure Member where
  nodeID : NodeID
  host : String
  basePort : BitVec 16
  incarnation : BitVec 64
  status : Status
  deriving DecidableEq, Inhabited

structure Update where
  member : Member
  reporterID : NodeID
  deriving DecidableEq

inductive EventCause where
  | memberChanged
  | resyncRequired
  deriving DecidableEq, Inhabited

/-- `previous` is the zero record for the first one of a node. -/
structure MembershipEvent where
  previous : Member
  current : Member
  cause : EventCause
  reporterID : NodeID
  deriving DecidableEq, Inhabited

def compareMemberVersion (left right : Member) : Ordering :=
  if left.incarnation < right.incarnation then .lt
  else if right.incarnation < left.incarnation then .gt
  else if left.status.severity < right.status.severity then .lt
  else if right.status.severity < left.status.severity then .gt
  else .eq

/-! ## The table -/

structure Table where
  members : Data.Table NodeID Member
  floors : Data.Table NodeID Member
  deriving DecidableEq

namespace Table

def new : Table := ⟨.empty, .empty⟩

/-- The record `m`, with the endpoint that is known when it is of the known incarnation. -/
def canonical (known m : Member) : Member :=
  if m.incarnation = known.incarnation then { known with status := m.status } else m

/-- What an incoming record is measured against. -/
def reference (t : Table) (nodeID : NodeID) : Option Member :=
  match t.members.find? nodeID, t.floors.find? nodeID with
  | none, floor => floor
  | some previous, none => some previous
  | some previous, some floor => if compareMemberVersion floor previous = .gt then some floor else some previous

def retainIncarnationFloor (t : Table) (member : Member) : Table :=
  if member.status.terminal then
    match t.floors.find? member.nodeID with
    | none => { t with floors := t.floors.insert member.nodeID member }
    | some retained =>
      if compareMemberVersion member retained = .gt then
        let member := canonical retained member
        { t with floors := t.floors.insert member.nodeID member }
      else t
  else t

/-- The end of a merge that goes through. -/
def adopt (t : Table) (incoming : Member) (reporterID : NodeID) : Table × Bool × MembershipEvent :=
  let previous := (t.members.find? incoming.nodeID).getD default
  let written := { t with members := t.members.insert incoming.nodeID incoming }
  (written.retainIncarnationFloor incoming, true, ⟨previous, incoming, .memberChanged, reporterID⟩)

def merge (t : Table) (update : Update) : Table × Bool × MembershipEvent :=
  let incoming := update.member
  if incoming.nodeID = 0 ∨ update.reporterID = 0 then (t, false, default)
  else
    match t.reference incoming.nodeID with
    | none => t.adopt incoming update.reporterID
    | some reference =>
      if incoming.incarnation < reference.incarnation then (t, false, default)
      else if incoming.incarnation = reference.incarnation then
        if incoming.status.severity ≤ reference.status.severity then (t, false, default)
        else t.adopt { reference with status := incoming.status } update.reporterID
      else t.adopt incoming update.reporterID

/-- The second half of `mergeIncarnationFloor`: a floor that is news to the floors. -/
def surfaceFloor (t : Table) (floor : Member) (reporterID : NodeID) : Table × Bool × MembershipEvent :=
  let retained : Table := { t with floors := t.floors.insert floor.nodeID floor }
  match t.members.find? floor.nodeID with
  | none => (retained, true, default)
  | some current =>
    if compareMemberVersion floor current = .gt then t.merge ⟨canonical current floor, reporterID⟩
    else (retained, true, default)

def mergeIncarnationFloor (t : Table) (floor : Member) (reporterID : NodeID) : Table × Bool × MembershipEvent :=
  if floor.nodeID = 0 ∨ floor.incarnation = 0 ∨ reporterID = 0 ∨ floor.status.terminal = false then
    (t, false, default)
  else
    match t.floors.find? floor.nodeID with
    | none => t.surfaceFloor floor reporterID
    | some retained =>
      if compareMemberVersion floor retained = .gt then
        t.surfaceFloor (canonical retained floor) reporterID
      else (t, false, default)

def expireTerminal (t : Table) (member : Member) : Table × Bool :=
  if member.status.terminal = false then (t, false)
  else
    match t.members.find? member.nodeID with
    | none => (t, false)
    | some current =>
      if current ≠ member then (t, false)
      else
        let retained := t.retainIncarnationFloor current
        ({ retained with members := retained.members.erase member.nodeID }, true)

end Table

/-! ## Versions -/

abbrev Version := Lex (Nat × Nat)

def Member.version (m : Member) : Version := toLex (m.incarnation.toNat, m.status.severity)

lemma Member.version_lt {a b : Member} : a.version < b.version ↔ a.incarnation < b.incarnation ∨
      a.incarnation = b.incarnation ∧ a.status.severity < b.status.severity := by
  unfold Member.version
  rw [Prod.Lex.toLex_lt_toLex, BitVec.lt_def, ← BitVec.toNat_inj]

lemma compareMemberVersion_gt {a b : Member} : compareMemberVersion a b = .gt ↔ b.version < a.version := by
  rw [Member.version_lt]
  unfold compareMemberVersion
  grind

/-- A record with the endpoint of a known one of the same incarnation is of its own version. -/
lemma Member.version_restated {known m : Member} (h : m.incarnation = known.incarnation) :
    ({ known with status := m.status } : Member).version = m.version := by
  unfold Member.version
  rw [h]

lemma Table.version_canonical (known m : Member) : (Table.canonical known m).version = m.version := by
  unfold Table.canonical
  split
  · rename_i h
    exact Member.version_restated h
  · rfl

lemma Table.nodeID_canonical {known m : Member} (h : known.nodeID = m.nodeID) :
    (Table.canonical known m).nodeID = m.nodeID := by
  unfold Table.canonical
  split
  · exact h
  · rfl

lemma Status.severity_terminal (s : Status) : s.terminal = true ↔ 2 ≤ s.severity := by cases s <;> decide

/-- A record that is not terminal and yet not below a terminal one is of a later incarnation. -/
lemma Member.incarnation_lt {terminal m : Member} (hle : terminal.version ≤ m.version)
    (htermnl : terminal.status.terminal = true) (hm : m.status.terminal = false) :
    terminal.incarnation < m.incarnation := by
  have hdead := (Status.severity_terminal _).mp htermnl
  have hlow : ¬ 2 ≤ m.status.severity := by
    rw [← Status.severity_terminal, hm]
    exact Bool.false_ne_true
  rcases lt_or_eq_of_le hle with hlt | heq
  · rcases Member.version_lt.mp hlt with hearlier | ⟨-, hless⟩
    · exact hearlier
    · omega
  have hstatus : terminal.status.severity = m.status.severity := congrArg (fun v : Version => (ofLex v).2) heq
  omega

/-- The version of a record that may be absent. -/
def versionOf (m : Option Member) : WithBot Version := m.elim ⊥ fun m => (m.version : WithBot Version)

@[simp] lemma versionOf_none : versionOf none = ⊥ := rfl

@[simp] lemma versionOf_some (m : Member) : versionOf (some m) = m.version := rfl

namespace Table

def effective (t : Table) (n : NodeID) : WithBot Version :=
  max (versionOf (t.members.find? n)) (versionOf (t.floors.find? n))

/-! ## The invariant -/

structure Valid (t : Table) : Prop where
  members_key : ∀ {n m}, t.members.find? n = some m → m.nodeID = n
  floors_key : ∀ {n m}, t.floors.find? n = some m → m.nodeID = n
  floor_le : ∀ {n m}, t.members.find? n = some m → versionOf (t.floors.find? n) ≤ m.version

lemma Valid.new : new.Valid where
  members_key h := by cases h
  floors_key h := by cases h
  floor_le h := by cases h

/-- The version of a record, for the node it is about. -/
def weight (m : Member) (n : NodeID) : WithBot Version := if m.nodeID = n then m.version else ⊥

/-- After `m` has been applied, each node is known by the greater of what it was known by and `m`. -/
structure Raised (t t' : Table) (m : Member) : Prop where
  valid : t'.Valid
  effective : ∀ n, t'.effective n = max (t.effective n) (weight m n)

variable {t : Table}

section

variable (hval : t.Valid)

include hval

/-- The visible record is what counts, when there is one. -/
lemma Valid.reference_eq (n : NodeID) : t.reference n = (t.members.find? n).or (t.floors.find? n) := by
  unfold reference
  cases hmemb : t.members.find? n with
  | none => rfl
  | some previous =>
    cases hfloor : t.floors.find? n with
    | none => rfl
    | some floor =>
      have hle := hval.floor_le hmemb
      rw [hfloor, versionOf_some, WithBot.coe_le_coe] at hle
      show (if compareMemberVersion floor previous = .gt then some floor else some previous) = _
      rw [if_neg fun h => not_lt_of_ge hle (compareMemberVersion_gt.mp h)]
      rfl

lemma Valid.effective_eq (n : NodeID) : t.effective n = versionOf (t.reference n) := by
  rw [hval.reference_eq, effective]
  cases hmemb : t.members.find? n with
  | none => exact max_eq_right bot_le
  | some => exact max_eq_left (hval.floor_le hmemb)

lemma Valid.reference_key {n : NodeID} {m : Member} (h : t.reference n = some m) : m.nodeID = n := by
  rw [hval.reference_eq] at h
  cases hmemb : t.members.find? n with
  | none =>
    rw [hmemb] at h
    exact hval.floors_key h
  | some =>
    rw [hmemb] at h
    cases h
    exact hval.members_key hmemb

lemma Valid.raised_self {m : Member} (h : weight m m.nodeID ≤ t.effective m.nodeID) : Raised t t m where
  valid := hval
  effective n := by
    symm
    apply max_eq_left
    by_cases hn : m.nodeID = n
    · exact hn ▸ h
    rw [weight, if_neg hn]
    exact bot_le

end

lemma weight_self (m : Member) : weight m m.nodeID = m.version := if_pos rfl

lemma weight_congr {a b : Member} (hnode : a.nodeID = b.nodeID) (hver : a.version = b.version)
    (n : NodeID) : weight a n = weight b n := by
  unfold weight
  rw [hnode, hver]

lemma Raised.congr {t' : Table} {a b : Member} (h : Raised t t' a) (hnode : a.nodeID = b.nodeID)
    (hver : a.version = b.version) : Raised t t' b where
  valid := h.valid
  effective n := (h.effective n).trans (by rw [weight_congr hnode hver])

/-! ## Floors -/

/-- A floor written over a lower one. -/
lemma versionOf_insert {floors : Data.Table NodeID Member} {m : Member}
    (h : versionOf (floors.find? m.nodeID) ≤ m.version) (n : NodeID) :
    versionOf ((floors.insert m.nodeID m).find? n) = max (versionOf (floors.find? n)) (weight m n) := by
  by_cases hn : m.nodeID = n
  · subst hn
    rw [find?_insert_self, weight_self, max_eq_right h]
    rfl
  · rw [find?_insert_ne _ _ hn, weight, if_neg hn, max_eq_left bot_le]

lemma key_insert {records : Data.Table NodeID Member} {m : Member}
    (h : ∀ {n r}, records.find? n = some r → r.nodeID = n) {n : NodeID} {r : Member}
    (hr : (records.insert m.nodeID m).find? n = some r) : r.nodeID = n := by
  by_cases hn : m.nodeID = n
  · subst hn
    rw [find?_insert_self] at hr
    cases hr
    rfl
  rw [find?_insert_ne _ _ hn] at hr
  exact h hr

/-- What retaining a record as a floor does to the floors. -/
structure Retained (floors floors' : Data.Table NodeID Member) (m : Member) : Prop where
  key : ∀ {n r}, floors'.find? n = some r → r.nodeID = n
  version : ∀ n, versionOf (floors'.find? n) =
    max (versionOf (floors.find? n)) (if m.status.terminal then weight m n else ⊥)

lemma retainIncarnationFloor_members (t : Table) (m : Member) :
    (t.retainIncarnationFloor m).members = t.members := by
  unfold retainIncarnationFloor
  split
  · split
    · rfl
    · split <;> rfl
  · rfl

lemma retainIncarnationFloor_spec (hkey : ∀ {n r}, t.floors.find? n = some r → r.nodeID = n)
    (m : Member) : Retained t.floors (t.retainIncarnationFloor m).floors m := by
  unfold retainIncarnationFloor
  by_cases htermnl : m.status.terminal = true
  · rw [if_pos htermnl]
    cases hret : t.floors.find? m.nodeID with
    | none =>
      refine ⟨key_insert hkey, fun n => ?_⟩
      rw [if_pos htermnl]
      exact versionOf_insert (by rw [hret]; exact bot_le) n
    | some retained =>
      have hnode : retained.nodeID = m.nodeID := hkey hret
      by_cases hnwr : compareMemberVersion m retained = .gt
      · have hcanon := nodeID_canonical hnode
        have hlow : versionOf (t.floors.find? (canonical retained m).nodeID) ≤
            (canonical retained m).version := by
          rw [hcanon, hret, version_canonical]
          exact WithBot.coe_le_coe.mpr (compareMemberVersion_gt.mp hnwr).le
        simp only [if_pos hnwr]
        refine ⟨key_insert hkey, fun n => ?_⟩
        rw [if_pos htermnl, ← weight_congr hcanon (version_canonical retained m)]
        exact versionOf_insert hlow n
      simp only [if_neg hnwr]
      refine ⟨hkey, fun n => (max_eq_left ?_).symm⟩
      rw [if_pos htermnl, weight]
      split
      · rename_i hn
        rw [← hn, hret]
        exact WithBot.coe_le_coe.mpr (not_lt.mp fun h => hnwr (compareMemberVersion_gt.mpr h))
      · exact bot_le
  rw [if_neg htermnl]
  exact ⟨hkey, fun n => by rw [if_neg htermnl, max_eq_left bot_le]⟩

/-! ## Merging is a maximum -/

section

variable (hval : t.Valid)

include hval

lemma Valid.adopt_raised {incoming : Member} (reporterID : NodeID)
    (hnwr : t.effective incoming.nodeID < incoming.version) :
    Raised t (t.adopt incoming reporterID).1 incoming := by
  let written : Table := { t with members := t.members.insert incoming.nodeID incoming }
  show Raised t (written.retainIncarnationFloor incoming) incoming
  have hmembs := retainIncarnationFloor_members written incoming
  have hfloors := retainIncarnationFloor_spec (t := written) hval.floors_key incoming
  have hself : versionOf (t.floors.find? incoming.nodeID) ≤ incoming.version := (le_max_right _ _).trans hnwr.le
  have hbelow : versionOf ((written.retainIncarnationFloor incoming).floors.find? incoming.nodeID) ≤
      incoming.version := by
    rw [hfloors.version]
    apply max_le hself
    split
    · exact (weight_self incoming).le
    · exact bot_le
  refine ⟨⟨?_, hfloors.key, ?_⟩, ?_⟩
  · intro n m hm
    rw [hmembs] at hm
    exact key_insert hval.members_key hm
  · intro n m hm
    rw [hmembs] at hm
    by_cases hn : incoming.nodeID = n
    · subst hn
      rw [show written.members.find? _ = _ from find?_insert_self _ _ _] at hm
      cases hm
      exact hbelow
    rw [show written.members.find? n = _ from find?_insert_ne _ _ hn] at hm
    rw [hfloors.version]
    refine max_le (hval.floor_le hm) ?_
    split
    · rw [weight, if_neg hn]
      exact bot_le
    · exact bot_le
  intro n
  rw [effective, hmembs]
  by_cases hn : incoming.nodeID = n
  · subst hn
    rw [show written.members.find? _ = _ from find?_insert_self _ _ _, weight_self,
      max_eq_right hnwr.le]
    exact max_eq_left hbelow
  rw [show written.members.find? n = _ from find?_insert_ne _ _ hn, hfloors.version, weight,
    if_neg hn, ite_self, max_eq_left bot_le, max_eq_left bot_le]
  rfl

/-- The test of the source is the order of versions. -/
lemma Valid.merge_raised {update : Update} (hnode : update.member.nodeID ≠ 0)
    (hrptr : update.reporterID ≠ 0) : Raised t (t.merge update).1 update.member := by
  have hown := weight_self update.member
  have hknw := hval.effective_eq update.member.nodeID
  unfold merge
  rw [if_neg (not_or.mpr ⟨hnode, hrptr⟩)]
  cases hrefer : t.reference update.member.nodeID with
  | none =>
    apply hval.adopt_raised
    rw [hknw, hrefer]
    exact WithBot.bot_lt_coe _
  | some reference =>
    rw [hrefer, versionOf_some] at hknw
    have hstale : update.member.version ≤ reference.version → Raised t t update.member := by
      intro hle
      apply hval.raised_self
      rw [hown, hknw]
      exact WithBot.coe_le_coe.mpr hle
    simp only
    split
    · rename_i hearlier
      exact hstale (Member.version_lt.mpr (.inl hearlier)).le
    rename_i hearlier
    split
    · rename_i hsame
      split
      · rename_i hstatus
        refine hstale (not_lt.mp fun hlt => ?_)
        rcases Member.version_lt.mp hlt with hlt | ⟨-, hlt⟩
        · exact absurd (hsame ▸ hlt) (by simp)
        · omega
      rename_i hstatus
      have hver := Member.version_restated hsame
      have hkey := hval.reference_key hrefer
      refine (hval.adopt_raised _ ?_).congr hkey hver
      rw [hver]
      show t.effective reference.nodeID < _
      rw [hkey, hknw, WithBot.coe_lt_coe, Member.version_lt]
      exact .inr ⟨hsame.symm, not_le.mp hstatus⟩
    rename_i hoth
    apply hval.adopt_raised
    rw [hknw, WithBot.coe_lt_coe, Member.version_lt]
    left
    bv_omega

/-- A floor that no visible record is below. -/
lemma Valid.retain_raised {floor : Member} (hret : versionOf (t.floors.find? floor.nodeID) ≤ floor.version)
    (hvisible : ∀ m, t.members.find? floor.nodeID = some m → floor.version ≤ m.version) :
    Raised t { t with floors := t.floors.insert floor.nodeID floor } floor where
  valid := by
    refine ⟨hval.members_key, key_insert hval.floors_key, ?_⟩
    intro n m hm
    rw [versionOf_insert hret]
    refine max_le (hval.floor_le hm) ?_
    rw [weight]
    split
    · rename_i hn
      exact WithBot.coe_le_coe.mpr (hvisible m (hn ▸ hm))
    · exact bot_le
  effective n := by
    rw [effective, versionOf_insert hret, ← max_assoc]
    rfl

lemma Valid.surfaceFloor_raised {floor : Member} {reporterID : NodeID} (hnode : floor.nodeID ≠ 0)
    (hrptr : reporterID ≠ 0) (hret : versionOf (t.floors.find? floor.nodeID) ≤ floor.version) :
    Raised t (t.surfaceFloor floor reporterID).1 floor := by
  unfold surfaceFloor
  cases hmemb : t.members.find? floor.nodeID with
  | none =>
    apply hval.retain_raised hret
    intro m hm
    rw [hmemb] at hm
    cases hm
  | some current =>
    simp only
    split
    · have hkey := nodeID_canonical (hval.members_key hmemb)
      refine (hval.merge_raised ?_ hrptr).congr hkey (version_canonical current floor)
      exact fun h => hnode (hkey ▸ h)
    rename_i hnwr
    apply hval.retain_raised hret
    intro m hm
    rw [hmemb] at hm
    cases hm
    exact not_lt.mp fun h => hnwr (compareMemberVersion_gt.mpr h)

lemma Valid.mergeIncarnationFloor_raised {floor : Member} {reporterID : NodeID} (hnode : floor.nodeID ≠ 0)
    (hincarn : floor.incarnation ≠ 0) (hrptr : reporterID ≠ 0) (htermnl : floor.status.terminal = true) :
    Raised t (t.mergeIncarnationFloor floor reporterID).1 floor := by
  unfold mergeIncarnationFloor
  have hwell : ¬ (floor.nodeID = 0 ∨ floor.incarnation = 0 ∨ reporterID = 0 ∨ floor.status.terminal = false) := by
    rintro (h | h | h | h)
    · exact hnode h
    · exact hincarn h
    · exact hrptr h
    · exact Bool.noConfusion (htermnl.symm.trans h)
  rw [if_neg hwell]
  cases hret : t.floors.find? floor.nodeID with
  | none =>
    apply hval.surfaceFloor_raised hnode hrptr
    rw [hret]
    exact bot_le
  | some retained =>
    simp only
    split
    · rename_i hnwr
      have hkey := nodeID_canonical (hval.floors_key hret)
      have hver := version_canonical retained floor
      refine (hval.surfaceFloor_raised ?_ hrptr ?_).congr hkey hver
      · exact fun h => hnode (hkey ▸ h)
      rw [hkey, hver, hret]
      exact WithBot.coe_le_coe.mpr (compareMemberVersion_gt.mp hnwr).le
    rename_i hnwr
    apply hval.raised_self
    rw [weight_self]
    refine le_trans ?_ (le_max_right _ _)
    rw [hret]
    exact WithBot.coe_le_coe.mpr (not_lt.mp fun h => hnwr (compareMemberVersion_gt.mpr h))

/-- Forgetting a terminal record keeps what is known: its floor is there before it goes. -/
lemma Valid.expireTerminal_kept (member : Member) :
    (t.expireTerminal member).1.Valid ∧ ∀ n, (t.expireTerminal member).1.effective n = t.effective n := by
  unfold expireTerminal
  split
  · exact ⟨hval, fun _ => rfl⟩
  rename_i htermnl
  cases hmemb : t.members.find? member.nodeID with
  | none => exact ⟨hval, fun _ => rfl⟩
  | some current =>
    simp only
    split
    · exact ⟨hval, fun _ => rfl⟩
    rename_i hcur
    have hcur := not_not.mp hcur
    subst hcur
    have htermnl : current.status.terminal = true := by simpa using htermnl
    have hmembs := retainIncarnationFloor_members t current
    have hfloors := retainIncarnationFloor_spec hval.floors_key current
    have hbelow : versionOf (t.floors.find? current.nodeID) ≤ current.version := hval.floor_le hmemb
    have hver : ∀ n, versionOf ((t.retainIncarnationFloor current).floors.find? n) =
        max (versionOf (t.floors.find? n)) (weight current n) := by
      intro n
      rw [hfloors.version, if_pos htermnl]
    refine ⟨⟨?_, hfloors.key, ?_⟩, ?_⟩
    · intro n m hm
      rw [hmembs, find?_erase] at hm
      split at hm
      · cases hm
      · exact hval.members_key hm
    · intro n m hm
      rw [hmembs, find?_erase] at hm
      split at hm
      · cases hm
      rename_i hn
      have hoth : current.nodeID ≠ n := fun h => hn (congrArg Data.rank h)
      rw [hver, weight, if_neg hoth, max_eq_left bot_le]
      exact hval.floor_le hm
    intro n
    rw [effective, effective, hver, hmembs, find?_erase]
    by_cases hn : current.nodeID = n
    · subst hn
      rw [if_pos rfl, weight_self, max_eq_right hbelow, hmemb]
      exact (max_eq_right bot_le).trans (max_eq_left hbelow).symm
    · rw [if_neg (Data.rank_ne hn), weight, if_neg hn, max_eq_left bot_le]

end

end Table

end Crane.Swim
