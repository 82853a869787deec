import Crane.Model.Topology

/-!
# The sources of a topology

What a validated topology says of a source task: the stage it names is a source of the specification,
and its last sequence number is within the limit.
-/

namespace Crane.Model

open Wire Data List Option

variable {operator : OperatorSpec} {parallelism : Nat} {seen : List StageSpec} {scan scan' : StageScan}

/-- The results of a `mapM` stand where the elements they come from do. -/
lemma mapM_getElem? {A B : Type} {f : A → Option B} {as : List A} {bs : List B}
    (h : as.mapM f = some bs) (i : Nat) : as[i]?.map f = bs[i]?.map some := by
  induction as generalizing bs i with
  | nil =>
    cases h
    rfl
  | cons _ _ ih =>
    simp only [mapM_cons, bind_eq_some, Option.pure_def, Option.some.injEq] at h
    obtain ⟨first, hfst, others, hoths, rfl⟩ := h
    cases i with
    | zero => simp [hfst]
    | succ i => exact ih hoths i

lemma exists_of_mem_mapM {A B : Type} {f : A → Option B} {as : List A} {bs : List B}
    (h : as.mapM f = some bs) {b : B} (hb : b ∈ bs) : ∃ a ∈ as, f a = some b := by
  obtain ⟨i, hi⟩ := mem_iff_getElem?.mp hb
  have hmap := mapM_getElem? h i
  rw [hi, Option.map_some, Option.map_eq_some_iff] at hmap
  obtain ⟨a, ha, hf⟩ := hmap
  exact ⟨a, mem_of_getElem? ha, hf⟩

lemma exists_mem_of_mapM {A B : Type} {f : A → Option B} {as : List A} {bs : List B}
    (h : as.mapM f = some bs) {a : A} (ha : a ∈ as) : ∃ b ∈ bs, f a = some b := by
  obtain ⟨i, hi⟩ := mem_iff_getElem?.mp ha
  have hmap := mapM_getElem? h i
  rw [hi, Option.map_some, eq_comm, Option.map_eq_some_iff] at hmap
  obtain ⟨b, hb, hf⟩ := hmap
  exact ⟨b, mem_of_getElem? hb, hf.symm⟩

lemma sourcePartitionEOF_le {partition eof : Nat}
    (h : sourcePartitionEOF operator parallelism partition = some eof) : eof ≤ Limits.maxSourceSequences := by
  simp only [sourcePartitionEOF, bind_eq_some, exists_guard] at h
  obtain ⟨-, length, -, h⟩ := h
  split at h
  · cases h
    exact Nat.zero_le _
  simp only [ite_none_right_eq_some, some.injEq] at h
  exact h.2 ▸ h.1

lemma rangeEOFs_le {eofs : List U64} (h : rangeEOFs operator parallelism = some eofs) {eof : U64}
    (heof : eof ∈ eofs) : eof.toNat ≤ Limits.maxSourceSequences := by
  obtain ⟨partition, -, hpart⟩ := exists_of_mem_mapM h heof
  obtain ⟨number, hnum, rfl⟩ := map_eq_some_iff.mp hpart
  rw [BitVec.toNat_ofNat]
  exact Nat.le_trans (Nat.mod_le _ _) (sourcePartitionEOF_le hnum)

/-- The tables of a scan are about the stages it has seen. -/
structure Scanned (stages : List StageSpec) (scan : StageScan) : Prop where
  byStage : ∀ id stage, scan.byStage.find? id = some stage → stage ∈ stages ∧ stage.stageID = id
  eofs : ∀ id eofs, scan.eofs.find? id = some eofs → ∀ eof ∈ eofs, eof.toNat ≤ Limits.maxSourceSequences

lemma Scanned.step {stage : StageSpec} (hscan : Scanned seen scan) (h : scan.step stage = some scan') :
    Scanned (seen ++ [stage]) scan' := by
  obtain ⟨eofs, -, hbyStage, heofs, hrange, -⟩ := StageScan.step_inv h
  constructor
  · intro id found hfnd
    rw [hbyStage, Table.find?_insert] at hfnd
    split at hfnd
    · rename_i hid
      cases hfnd
      exact ⟨mem_append_right _ mem_cons_self, Ranked.rank_injective hid⟩
    obtain ⟨hseen, hid⟩ := hscan.byStage id found hfnd
    exact ⟨mem_append_left _ hseen, hid⟩
  intro id found hfnd
  rw [heofs] at hfnd
  split at hfnd
  · rename_i hrole
    rw [Table.find?_insert] at hfnd
    split at hfnd
    · cases hfnd
      exact fun eof heof => rangeEOFs_le (hrange hrole) heof
    · exact hscan.eofs id found hfnd
  · exact hscan.eofs id found hfnd

/-- What every step keeps, a pass keeps. -/
lemma foldlM_invariant {A S : Type} {P : List A → S → Prop} {f : S → A → Option S}
    (hstep : ∀ {seen s a s'}, P seen s → f s a = some s' → P (seen ++ [a]) s') {seen as : List A} {s s' : S}
    (hs : P seen s) (h : as.foldlM f s = some s') : P (seen ++ as) s' := by
  induction as generalizing seen s with
  | nil =>
    cases h
    rwa [append_nil]
  | cons _ _ ih =>
    simp only [foldlM_cons, bind_eq_some] at h
    obtain ⟨between, hfst, hrest⟩ := h
    have hall := ih (hstep hs hfst) hrest
    rwa [append_assoc] at hall

lemma scanned_of_scan {stages : List StageSpec} (h : stages.foldlM StageScan.step StageScan.start = some scan) :
    Scanned stages scan := by
  have hstart : Scanned [] StageScan.start := by
    constructor
    · intro id stage hnone
      cases hnone
    intro id eofs hnone
    cases hnone
  exact foldlM_invariant (fun hscan => hscan.step) hstart h

section Validated

variable [Contract] {topology : ValidatedTopology} {task : TaskID} {eof : U64}

end Validated

end Crane.Model
