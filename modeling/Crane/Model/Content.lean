import Crane.Model.Graph
import Crane.Model.Tuple

/-!
# What a topology fixes

The canonical bytes of a topology say all there is to it: they are read back as the same topology with the
same tables, nothing else is read as it, and another specification has other bytes
(`topology_bytes_identify`). Its source deals its input, a range of numbers or the lines of a corpus, over
its partitions: all tuples that the partitions have up to their last sequence numbers are the elements of
the input, each once (`sources_deal_once`).
-/

namespace Crane.Model

open Wire Data List Nat Option

section Topologies

variable [Contract] {spec : TopologySpec} {topology : ValidatedTopology}

/-- Two byte strings with one digest. -/
def Collide (bytes bytes' : Bytes) : Prop := bytes ≠ bytes' ∧ sum256 bytes = sum256 bytes'

/-- The canonical bytes of a topology are read back as it, only they are, and different topologies
have different digests unless their canonical bytes collide. -/
theorem topology_bytes_identify (h : validateTopology spec = some topology) :
    (decodeTopology topology.canonical = some topology ∧ topology.spec = spec ∧
      topology.canonical = marshalTopology spec) ∧
    (∀ encoded decoded, decodeTopology encoded = some decoded →
      validateTopology decoded.spec = some decoded ∧ encoded = marshalTopology decoded.spec) ∧
    ∀ other topology', validateTopology other = some topology' → other ≠ spec →
      topology'.canonical ≠ topology.canonical ∧
      (¬ Collide topology'.canonical topology.canonical → topology'.digest ≠ topology.digest) := by
  obtain ⟨hspec, hcanon, -⟩ := validateTopology_eq_some h
  refine ⟨⟨decodeTopology_canonical h, hspec, hcanon⟩, ?_, ?_⟩
  · intro encoded decoded hdec
    obtain ⟨hval, rfl⟩ := decodeTopology_eq_some hdec
    exact ⟨hval, (validateTopology_eq_some hval).2.1⟩
  intro other topology' hoth hne
  have hbytes : topology'.canonical ≠ topology.canonical := by
    intro heq
    have hread := decodeTopology_canonical hoth
    rw [heq, decodeTopology_canonical h, some.injEq] at hread
    rw [← (validateTopology_eq_some hoth).1, ← hread, hspec] at hne
    exact hne rfl
  refine ⟨hbytes, ?_⟩
  intro hfree hdigest
  obtain ⟨_, _, -, -, -, -, hsum⟩ := validateTopology_inv h
  obtain ⟨_, _, -, -, -, -, hsum'⟩ := validateTopology_inv hoth
  rw [hsum, hsum'] at hdigest
  exact hfree ⟨hbytes, hdigest⟩

/-! ## The elements of a source -/

/-- The tuples of a source in the order of its input. -/
def sourceElements (operator : OperatorSpec) : Option (List Tuple) :=
  if operator.name = ascii "lines" then (linesSettings operator).map (·.map lineTuple)
  else (rangeSettings operator).map fun bounds =>
    (List.range (bounds.2 - bounds.1).toNat).map fun (i : Nat) => intTupleValue (bounds.1 + i)

/-- What the partitions of a stage have up to their last sequence numbers, one partition after the other. -/
def emissions (topology : ValidatedTopology) (job : JobID) (stage : StageSpec) : List (Option (Option Tuple)) :=
  (List.range stage.parallelism.toNat).flatMap fun partition =>
    let task : TaskID := ⟨job, stage.stageID, BitVec.ofNat 16 partition⟩
    (List.range ((sourceEOF topology task).getD 0).toNat).map fun k =>
      sourceTuple topology task (BitVec.ofNat 64 (k + 1))

section Elements

variable {operator : OperatorSpec} {parallelism partition length : Nat} {elements : List Tuple}

section

omit [Contract]

lemma parseInt64_bounds {text : Bytes} {n : Int} (h : parseInt64 text = some n) : -2 ^ 63 ≤ n ∧ n < 2 ^ 63 := by
  unfold parseInt64 at h
  split at h <;> simp only [bind_eq_some, ite_none_right_eq_some,
    some.injEq] at h <;> obtain ⟨m, -, hm, rfl⟩ := h <;> omega

lemma rangeSettings_bounds {start finish : Int} (h : rangeSettings operator = some (start, finish)) :
    -2 ^ 63 ≤ start ∧ start ≤ finish ∧ finish < 2 ^ 63 ∧
      (finish - start).toNat ≤ Limits.maxSourceSequences * 256 := by
  simp only [rangeSettings, bind_eq_some, exists_guard, some.injEq, Prod.mk.injEq] at h
  obtain ⟨-, -, -, e, -, s, -, _, hfinish, _, hstart, hle, hlim, rfl, rfl⟩ := h
  exact ⟨(parseInt64_bounds hstart).1, hle, (parseInt64_bounds hfinish).2, hlim⟩

lemma sourceLength_eq (h : sourceElements operator = some elements) : sourceLength operator = some elements.length := by
  unfold sourceElements at h
  unfold sourceLength
  split at h
  · rename_i hname
    obtain ⟨chunks, hchunks, rfl⟩ := map_eq_some_iff.mp h
    rw [if_pos hname, hchunks, map_some, length_map]
  rename_i hname
  obtain ⟨bounds, hbds, rfl⟩ := map_eq_some_iff.mp h
  rw [if_neg hname, hbds, map_some, length_map, length_range]

/-- A partition has a sequence number for each of its ordinals. -/
lemma sourcePartitionEOF_spec {eof : Nat} (h : sourcePartitionEOF operator parallelism partition = some eof) :
    ∃ elements, sourceElements operator = some elements ∧
      ∀ k, k < eof ↔ k * parallelism + partition < elements.length := by
  simp only [sourcePartitionEOF, bind_eq_some, exists_guard] at h
  obtain ⟨⟨hpos, -⟩, length, hlen, h⟩ := h
  obtain ⟨elements, helts⟩ : ∃ elements, sourceElements operator = some elements := by
    unfold sourceLength at hlen
    unfold sourceElements
    split at hlen <;> obtain ⟨_, hsett, -⟩ := map_eq_some_iff.mp hlen <;> simp [*]
  rw [sourceLength_eq helts, some.injEq] at hlen
  refine ⟨elements, helts, fun k => ?_⟩
  split at h
  · rw [← some.inj h]
    omega
  simp only [ite_none_right_eq_some, some.injEq] at h
  rw [← h.2, Nat.lt_succ_iff, Nat.le_div_iff_mul_le (Nat.pos_of_ne_zero hpos)]
  omega

/-- The ordinals are dealt round robin. -/
lemma ordinals_perm (hpos : 0 < parallelism) (eof : Nat → Nat)
    (heof : ∀ p < parallelism, ∀ k, k < eof p ↔ k * parallelism + p < length) :
    ((List.range parallelism).flatMap fun p => (List.range (eof p)).map fun k => k * parallelism + p).Perm
      (List.range length) := by
  rw [perm_ext_iff_of_nodup _ nodup_range]
  · intro i
    simp only [mem_flatMap, List.mem_range, List.mem_map]
    constructor
    · rintro ⟨p, hp, k, hk, rfl⟩
      exact (heof p hp k).mp hk
    intro hi
    refine ⟨i % parallelism, mod_lt i hpos, i / parallelism, ?_, div_add_mod' i parallelism⟩
    rw [heof _ (mod_lt i hpos), div_add_mod']
    exact hi
  rw [nodup_flatMap]
  refine ⟨fun p _ => nodup_range.map fun k k' heq => ?_, ?_⟩
  · exact eq_of_mul_eq_mul_right hpos (add_right_cancel heq)
  refine nodup_range.imp_of_mem fun {p p'} hp hp' hne => ?_
  rw [List.mem_range] at hp hp'
  simp only [Function.onFun, List.Disjoint, List.mem_map]
  rintro _ ⟨k, -, rfl⟩ ⟨k', -, heq⟩
  have hmod := congrArg (· % parallelism) heq
  simp only [mul_add_mod_self_right, mod_eq_of_lt hp, mod_eq_of_lt hp'] at hmod
  exact hne hmod.symm

end

end Elements

section Sources

variable {stage : StageSpec} {job : JobID} {partition : U16} {elements : List Tuple}

/-- What the tables of a validated topology have of a partition of its source. -/
lemma source_partition (h : validateTopology spec = some topology) (hstg : stage ∈ spec.stages)
    (hrole : stage.role = .source) (hp : partition < stage.parallelism) :
    topology.byStage.find? stage.stageID = some stage ∧ ∃ eofs eof elements,
      topology.eofs.find? stage.stageID = some eofs ∧ eofs[partition.toNat]? = some (BitVec.ofNat 64 eof) ∧
      eof ≤ Limits.maxSourceSequences ∧ sourceElements stage.operator = some elements ∧
      ∀ k, k < eof ↔ k * stage.parallelism.toNat + partition.toNat < elements.length := by
  obtain ⟨scan, -, hitems, -, hbyStage, heofs, -⟩ := validateTopology_inv h
  have hrow := (tabled_of_scan hitems.stages).rows stage hstg
  obtain ⟨eofs, hrange, hfnd⟩ := hrow.eofs hrole
  have hplace := mapM_getElem? hrange partition.toNat
  rw [getElem?_range hp, map_some, eq_comm, map_eq_some_iff] at hplace
  obtain ⟨_, hget, hmap⟩ := hplace
  obtain ⟨eof, heof, rfl⟩ := map_eq_some_iff.mp hmap.symm
  obtain ⟨elements, helts, hdealt⟩ := sourcePartitionEOF_spec heof
  exact ⟨hbyStage ▸ hrow.found, eofs, eof, elements, heofs ▸ hfnd, hget, sourcePartitionEOF_le heof,
    helts, hdealt⟩

omit [Contract] in
/-- No ordinal and no value of a range goes out of bounds. -/
lemma addInt64Uint64_eq {start finish : Int} {operator : OperatorSpec}
    (h : rangeSettings operator = some (start, finish)) {ordinal : Nat} (hlt : ordinal < (finish - start).toNat) :
    addInt64Uint64 start ordinal = some (start + ordinal) := by
  obtain ⟨hlow, hle, hhigh, -⟩ := rangeSettings_bounds h
  rw [addInt64Uint64, if_neg]
  rw [Int.emod_eq_of_lt (by omega) (by omega)]
  omega

lemma sourceTuple_eq (h : validateTopology spec = some topology) (hstg : stage ∈ spec.stages)
    (hrole : stage.role = .source) (hjob : JobID.validate job = true) (hp : partition < stage.parallelism)
    (helts : sourceElements stage.operator = some elements) : ∃ eof,
      sourceEOF topology ⟨job, stage.stageID, partition⟩ = some eof ∧
      (∀ k, k < eof.toNat ↔ k * stage.parallelism.toNat + partition.toNat < elements.length) ∧
      (∀ sequence ≠ 0, eof < sequence → sourceTuple topology ⟨job, stage.stageID, partition⟩ sequence = some none) ∧
      ∀ k < eof.toNat, sourceTuple topology ⟨job, stage.stageID, partition⟩ (BitVec.ofNat 64 (k + 1)) =
        some elements[k * stage.parallelism.toNat + partition.toNat]? := by
  obtain ⟨hfnd, eofs, eof, _, heofs, heof, hlim, helts', hdealt⟩ := source_partition h hstg hrole hp
  rw [helts, some.injEq] at helts'
  subst helts'
  have hmax : Limits.maxSourceSequences < 2 ^ 64 := by decide
  have hnat : ∀ n ≤ eof, (BitVec.ofNat 64 n).toNat = n := fun n hn => by
    rw [BitVec.toNat_ofNat]
    exact mod_eq_of_lt (by omega)
  have htask : TaskID.validate ⟨job, stage.stageID, partition⟩ = true := by
    have hid := (validateTopology_eq_some h).2.2.2.named stage hstg
    rw [TaskID.validate, hjob, Bool.true_and]
    exact bne_iff_ne.mpr hid
  simp only [sourceEOF, sourceTuple, bind_eq_some, exists_guard]
  refine ⟨BitVec.ofNat 64 eof, ⟨htask, stage, hfnd, hrole, hp, eofs, heofs, heof⟩, ?_, ?_, ?_⟩
  · rwa [hnat eof le_rfl]
  · intro sequence hne hlt
    exact ⟨htask, hne, stage, hfnd, hrole, hp, eofs, heofs, _, heof, if_pos hlt⟩
  rw [hnat eof le_rfl]
  intro k hk
  have hseq := hnat (k + 1) hk
  have hne : BitVec.ofNat 64 (k + 1) ≠ 0 := fun hzero => by
    rw [hzero] at hseq
    cases hseq
  refine ⟨htask, hne, stage, hfnd, hrole, hp, eofs, heofs, _, heof, ?_⟩
  rw [if_neg (by rw [BitVec.lt_def, hnat eof le_rfl, hseq]; omega), hseq]
  have hordinal := (hdealt k).mp hk
  unfold sourceElements at helts
  split at helts
  · rename_i hlines
    obtain ⟨chunks, hchunks, rfl⟩ := map_eq_some_iff.mp helts
    simp [hlines, linesTuple, hchunks]
  rename_i hlines
  obtain ⟨⟨start, finish⟩, hrange, rfl⟩ := map_eq_some_iff.mp helts
  rw [length_map, length_range] at hordinal
  have hroom : k ≤ (2 ^ 64 - 1 - partition.toNat) / stage.parallelism.toNat := by
    rw [le_div_iff_mul_le (by bv_omega)]
    have hlen := (rangeSettings_bounds hrange).2.2.2
    have hcap : Limits.maxSourceSequences * 256 < 2 ^ 32 := by decide
    omega
  rw [if_neg hlines, bind_eq_some]
  refine ⟨(start, finish), hrange, ?_⟩
  simp only [bind_eq_some, exists_guard]
  refine ⟨hroom, _, addInt64Uint64_eq hrange hordinal, ?_⟩
  rw [getElem?_map, getElem?_range hordinal]
  rfl

/-- The partitions of a source have, up to their last sequence numbers, every element of its input once;
    behind them they have nothing. -/
theorem sources_deal_once (h : validateTopology spec = some topology) (hstg : stage ∈ spec.stages)
    (hrole : stage.role = .source) (hjob : JobID.validate job = true) :
    ∃ elements, sourceElements stage.operator = some elements ∧
      (emissions topology job stage).Perm (elements.map fun tuple => some (some tuple)) ∧
      ∀ partition < stage.parallelism, ∃ eof, sourceEOF topology ⟨job, stage.stageID, partition⟩ = some eof ∧
        ∀ sequence ≠ 0, sourceTuple topology ⟨job, stage.stageID, partition⟩ sequence = some none ↔ eof < sequence := by
  have hpos := ((validateTopology_eq_some h).2.2.2.parallel stage hstg).1
  have hwidth : 0 < stage.parallelism := by bv_omega
  obtain ⟨-, -, -, elements, -, -, -, helts, -⟩ := source_partition h hstg hrole hwidth
  refine ⟨elements, helts, ?_, ?_⟩
  · have hpart : ∀ p < stage.parallelism.toNat, (BitVec.ofNat 16 p : U16) < stage.parallelism ∧
        (BitVec.ofNat 16 p : U16).toNat = p := by
      intro p hp
      have hlt := stage.parallelism.isLt
      constructor <;> bv_omega
    have hlist : emissions topology job stage =
        ((List.range stage.parallelism.toNat).flatMap fun p => (List.range
          ((sourceEOF topology ⟨job, stage.stageID, BitVec.ofNat 16 p⟩).getD 0).toNat).map
            fun k => k * stage.parallelism.toNat + p).map fun i => some elements[i]? := by
      rw [emissions, map_flatMap]
      refine flatMap_congr fun p hp => ?_
      obtain ⟨hlt, hnat⟩ := hpart p (List.mem_range.mp hp)
      obtain ⟨eof, heof, -, -, hwithin⟩ := sourceTuple_eq h hstg hrole hjob hlt helts
      dsimp only
      rw [heof, getD_some, List.map_map]
      refine map_congr_left fun k hk => ?_
      rw [hwithin k (List.mem_range.mp hk), hnat]
      rfl
    have hall : (elements.map fun tuple => some (some tuple)) =
        (List.range elements.length).map fun i => some elements[i]? := by
      refine ext_getElem (by simp) fun i hi hi' => ?_
      simp
    rw [hlist, hall]
    refine (ordinals_perm (by bv_omega) _ fun p hp k => ?_).map _
    obtain ⟨hlt, hnat⟩ := hpart p hp
    obtain ⟨eof, heof, hdealt, -⟩ := sourceTuple_eq h hstg hrole hjob hlt helts
    rw [heof, getD_some, hdealt, hnat]
  intro partition hp
  obtain ⟨eof, heof, hlt, habv, hwithin⟩ := sourceTuple_eq h hstg hrole hjob hp helts
  refine ⟨eof, heof, fun sequence hne => ⟨fun hnone => ?_, habv sequence hne⟩⟩
  by_contra hle
  have hk : sequence.toNat - 1 < eof.toNat := by bv_omega
  have hseq : BitVec.ofNat 64 (sequence.toNat - 1 + 1) = sequence := by bv_omega
  have htup := hwithin _ hk
  rw [hseq, hnone, getElem?_eq_getElem ((hlt _).mp hk)] at htup
  cases htup

end Sources

end Topologies

namespace Sample

attribute [local instance] contract

theorem topology_bytes_identify_filtered : ∃ topology, validateTopology filtered = some topology ∧
    decodeTopology topology.canonical = some topology := by
  obtain ⟨topology, h⟩ := filtered_valid
  exact ⟨topology, h, (topology_bytes_identify h).1.1⟩

theorem sources_deal_once_numbers : ∃ topology, validateTopology filtered = some topology ∧
    (emissions topology 5 numbers).Perm ([-1, 0, 1].map fun n => some (some (intTupleValue n))) := by
  obtain ⟨topology, h⟩ := filtered_valid
  have hmem : numbers ∈ filtered.stages := mem_cons_self
  have hjob : JobID.validate 5 = true := rfl
  obtain ⟨elements, helts, hperm, -⟩ := sources_deal_once h hmem rfl hjob
  have hthree : sourceElements numbers.operator = some ([-1, 0, 1].map intTupleValue) := by decide
  cases some.inj (helts.symm.trans hthree)
  exact ⟨topology, h, by simpa using hperm⟩

end Sample

end Crane.Model
