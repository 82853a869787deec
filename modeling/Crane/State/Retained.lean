import Crane.State.Script

/-!
# Reading commands and targets back

A command that can be written is read back as it was, all fourteen kinds of it, so that no two commands
have the same bytes (`unmarshalCommand_marshalCommand`).

A history keeps the target of its last command without the kind. `validateWorkerSnapshotTarget` and
`validateJobControlSnapshotTarget` (`snapshot.go`) guess it: the targets of a worker differ in length,
and so do a transition and a failure report, but a placement and its replacement are told apart by trying
to read a placement first. What else they check of a target they check of the fields they have read.

A replacement begins like a placement. Where the digest of the markers stands a placement has its count
of tasks, and where the last task ends its count of replicas; a replacement whose digest begins with
a small number can be read as either, and is then taken for a placement (`retained_target_recovered_iff`).
-/

namespace Crane.State

open Wire Data Model Option Target Bool List
open Codec (array16 array32 counted_dom counted_put decode_eq_some fixed_word u16 u64 word)

/-! ## Domains -/

lemma assignmentTokenCodec_dom (token : AssignmentToken) : assignmentTokenCodec.dom token :=
  ⟨taskIDCodec_dom _, trivial, trivial, trivial, trivial, trivial⟩

lemma resultReplicaSetCodec_dom (set : ResultReplicaSet) : resultReplicaSetCodec.dom set :=
  ⟨taskIDCodec_dom _, trivial, trivial, trivial, trivial⟩

lemma workerRecordCodec_dom (record : WorkerRecord) : workerRecordCodec.dom record :=
  ⟨trivial, trivial, trivial, trivial, trivial, trivial, trivial⟩

lemma affectedCodec_dom {affected : List AffectedAssignment} (h : validateAffected affected = true) :
    affectedCodec.dom affected := by
  simp only [validateAffected, and_eq_true] at h
  exact counted_dom h.1.1 (of_decide_eq_true h.1.1) fun _ _ => ⟨trivial, trivial, trivial, trivial⟩

lemma assignmentSetCodec_dom {set : AssignmentSet} (h : validateAssignmentStructure set = true) :
    assignmentSetCodec.dom set := by
  simp only [validateAssignmentStructure, and_eq_true] at h
  obtain ⟨⟨⟨-, ⟨⟨-, hsome⟩, htasks⟩, hrepls⟩, -⟩, -⟩ := h
  have hcnt := and_eq_true_iff.mpr ⟨hsome, htasks⟩
  exact ⟨trivial, trivial, trivial,
    counted_dom hcnt (of_decide_eq_true htasks) fun _ _ => assignmentTokenCodec_dom _,
    counted_dom hrepls (of_decide_eq_true hrepls) fun _ _ => resultReplicaSetCodec_dom _⟩

section Commands

variable [Contract] {command other : Command} {target : Target} {encoded : Bytes}

/-- A target that passes the checks is read back. -/
lemma Target.decode_of_fields {expected : U64} (h : target.fieldsValid expected = true) :
    decode target.kind target.bytes = some target := by
  unfold decode kind bytes
  cases target with
  | submitJob | cancelJob => cases h
  | beginCoordinatorEpoch | drainWorker => exact drainTargetCodec.map_decode_put _ ⟨trivial, trivial⟩
  | registerWorker => exact workerRecordCodec.map_decode_put _ (workerRecordCodec_dom _)
  | deactivateWorker =>
    simp only [fieldsValid, and_eq_true] at h
    exact deactivateTargetCodec.map_decode_put _ ⟨trivial, trivial, affectedCodec_dom h.2⟩
  | replaceWorkerEpoch =>
    simp only [fieldsValid, and_eq_true] at h
    exact replaceEpochTargetCodec.map_decode_put _
      ⟨trivial, trivial, workerRecordCodec_dom _, affectedCodec_dom h.2⟩
  | recordSourceEOF source eof =>
    exact (taskIDCodec.seq u64).map_decode_put (a := (source, eof)) _ ⟨taskIDCodec_dom _, trivial⟩
  | installAssignments => exact assignmentSetCodec.map_decode_put _ (assignmentSetCodec_dom h)
  | replaceAssignments =>
    simp only [fieldsValid, and_eq_true] at h
    exact replaceAssignmentsTargetCodec.map_decode_put _
      ⟨trivial, trivial, trivial, trivial, assignmentSetCodec_dom h.2⟩
  | advanceCheckpoint =>
    exact completionReportCodec.map_decode_put _ ⟨trivial, trivial, trivial, taskIDCodec_dom _,
      assignmentTokenCodec_dom _, coordinatorEpochCodec_dom _, trivial, trivial, trivial, trivial,
      trivial, trivial⟩
  | sealManifest =>
    exact resultManifestCodec.map_decode_put _ ⟨trivial, taskIDCodec_dom _, trivial, trivial, trivial,
      trivial, trivial, resultReplicaSetCodec_dom _⟩
  | transitionJob => exact transitionTargetCodec.map_decode_put _ ⟨trivial, trivial, trivial⟩
  | failJob =>
    exact jobFailureReportCodec.map_decode_put _ ⟨trivial, trivial, trivial,
      assignmentTokenCodec_dom _, coordinatorEpochCodec_dom _, trivial, trivial, trivial⟩

lemma Target.decode_of_client {client : ClientEnvelope} (h : target.clientValid client = true) :
    decode target.kind target.bytes = some target := by
  unfold clientValid at h
  unfold decode kind bytes
  split at h
  · split at h
    · cases h
    rename_i topology validated hvald
    obtain ⟨hspec, hcanon, hsize, -⟩ := validateTopology_eq_some hvald
    have hread := decodeTopology_canonical hvald
    rw [hcanon] at hsize hread
    have hparts := hread
    simp only [decodeTopology, bind_eq_some, exists_guard] at hparts
    obtain ⟨hheader, -, hdecl, -⟩ := hparts
    simp only [decodeSubmitJob, bind_eq_some, exists_guard]
    exact ⟨hheader, by omega, by omega, validated, hread, by rw [hspec]⟩
  · rename_i job revision
    exact (array16.seq u64).map_decode_put (a := (job, revision)) _ ⟨trivial, trivial⟩
  · cases h

omit [Contract] in
lemma envelopeCodec_dom (envelope : Envelope) : envelopeCodec.dom envelope := by
  refine ⟨trivial, trivial, trivial, coordinatorEpochCodec_dom _, ?_⟩
  rcases envelope with ⟨_, _, _, _, _ | _⟩
  · exact ⟨⟨trivial, trivial⟩, trivial⟩
  · exact ⟨trivial, trivial, subjectKeyCodec_dom _, trivial⟩

lemma marshalCommand_eq_some (h : marshalCommand command = some encoded) :
    command.envelope.kind = command.target.kind ∧
      Target.decode command.target.kind command.target.bytes = some command.target ∧
      (command.target.kind ≠ .submitJob → command.target.kind ≠ .cancelJob →
        ∃ expected, command.target.fieldsValid expected = true) := by
  simp only [marshalCommand, ite_none_right_eq_some, Command.validate, and_eq_true, decide_eq_true_eq] at h
  obtain ⟨⟨⟨⟨-, hkind⟩, hident⟩, -⟩, -⟩ := h
  refine ⟨hkind, ?_⟩
  split at hident
  · refine ⟨decode_of_client hident, ?_⟩
    intro hsubmit hcancel
    cases htarg : command.target with
    | submitJob => rw [htarg] at hsubmit; exact absurd rfl hsubmit
    | cancelJob => rw [htarg] at hcancel; exact absurd rfl hcancel
    | _ => rw [htarg] at hident; cases hident
  simp only [and_eq_true] at hident
  exact ⟨decode_of_fields hident.1.2, fun _ _ => ⟨_, hident.1.2⟩⟩

lemma unmarshalCommand_marshalCommand (h : marshalCommand command = some encoded) :
    unmarshalCommand encoded = some command := by
  obtain ⟨hkind, hdec, -⟩ := marshalCommand_eq_some h
  have hbytes := h
  simp only [marshalCommand, ite_none_right_eq_some, some.injEq] at hbytes
  obtain ⟨⟨-, hsize⟩, rfl⟩ := hbytes
  simp only [unmarshalCommand, bind_eq_some, Prod.exists, exists_guard]
  exact ⟨hsize, command.envelope, command.target.bytes, envelopeCodec.get_put (envelopeCodec_dom _) _,
    command.target, hkind ▸ hdec, _, h, rfl, rfl⟩

end Commands

/-! ## Bytes that are a placement -/

lemma assignmentTokenCodec_fixed : assignmentTokenCodec.Fixed 86 :=
  (((fixed_word 16).seq ((fixed_word 2).seq (fixed_word 2))).via.seq
    ((fixed_word 2).seq ((fixed_word 16).seq ((fixed_word 8).seq
      ((fixed_word 32).seq (fixed_word 8)))))).via

lemma resultReplicaSetCodec_fixed : resultReplicaSetCodec.Fixed 56 :=
  (((fixed_word 16).seq ((fixed_word 2).seq (fixed_word 2))).via.seq
    ((fixed_word 2).seq ((fixed_word 2).seq
      ((fixed_word 16).seq (fixed_word 16))))).via

/-- The count of tasks that bytes have if they are read as a placement. -/
def placementTasks (bytes : Bytes) : Nat := value ((bytes.drop 56).take 2)

/-- The count of replicas, behind that many tasks. -/
def placementReplicas (bytes : Bytes) : Nat := value ((bytes.drop (58 + placementTasks bytes * 86)).take 2)

/-- The counts are within their bounds, and the bytes are as long as they ask for. -/
def Placed (bytes : Bytes) : Prop :=
  placementTasks bytes ≠ 0 ∧ placementTasks bytes ≤ Limits.maxTasksPerJob ∧
    placementReplicas bytes ≤ Limits.maxResultManifestsPerJob ∧
    bytes.length = 60 + placementTasks bytes * 86 + placementReplicas bytes * 56

/-- What bytes have that are a placement: its counts within their bounds, and the length that they ask for. -/
lemma placement_of_decode {bytes : Bytes} {set : AssignmentSet} (hread : assignmentSetCodec.decode bytes = some set) :
    Placed bytes := by
  obtain ⟨⟨-, -, -, htasks, hreplicas⟩, hput⟩ := decode_eq_some.mp hread
  obtain ⟨hputs, hok, hsmall⟩ := counted_put htasks
  obtain ⟨hputs', hok', hsmall'⟩ := counted_put hreplicas
  have hbytes : bytes = (array16.put set.jobID ++ u64.put set.revision ++
      array32.put set.digest) ++ (bigEndian 2 set.tasks.length ++
      (set.tasks.flatMap assignmentTokenCodec.put ++ (bigEndian 2 set.resultReplicas.length ++
        set.resultReplicas.flatMap resultReplicaSetCodec.put))) := by
    rw [hput]
    change array16.put _ ++ (u64.put _ ++ (array32.put _ ++ (_ ++ _))) = _
    rw [hputs, hputs']
    simp only [append_assoc]
  have hlen : (set.tasks.flatMap assignmentTokenCodec.put).length = set.tasks.length * 86 := by
    simp [length_flatMap]
  have hlen' : (set.resultReplicas.flatMap resultReplicaSetCodec.put).length =
      set.resultReplicas.length * 56 := by
    simp [length_flatMap]
  have hcount : placementTasks bytes = set.tasks.length := by
    rw [placementTasks, hbytes, drop_left' (by simp), take_left' (by simp), value_bigEndian,
      Nat.mod_eq_of_lt hsmall]
  have hcount' : placementReplicas bytes = set.resultReplicas.length := by
    rw [placementReplicas, hcount, hbytes, ← append_assoc (bigEndian 2 _), ← append_assoc,
      drop_left' (by simp [hlen]; omega), take_left' (by simp), value_bigEndian,
      Nat.mod_eq_of_lt hsmall']
  simp only [and_eq_true, decide_eq_true_eq] at hok hok'
  rw [Placed, hcount, hcount']
  refine ⟨hok.1, hok.2, hok', ?_⟩
  rw [hbytes]
  simp [hlen, hlen']
  omega

/-- Any such bytes are one: nothing in its fields can be wrong. -/
lemma decode_of_placement {bytes : Bytes} (h : Placed bytes) : ∃ set, assignmentSetCodec.decode bytes = some set := by
  obtain ⟨hsome, htasks, hreplicas, hlen⟩ := h
  obtain ⟨job, hjob, hput⟩ := fixed_word 16 (bytes.take 16) (by simp; omega)
  obtain ⟨revision, hrev, hput'⟩ := fixed_word 8 ((bytes.drop 16).take 8) (by simp; omega)
  obtain ⟨digest, hdig, hput''⟩ := fixed_word 32 ((bytes.drop 24).take 32) (by simp; omega)
  generalize hn : placementTasks bytes = n at *
  generalize hr : placementReplicas bytes = r at *
  have hcount : value (((bytes.drop 56).take (2 + n * 86)).take 2) = n := by
    rw [take_take, Nat.min_eq_left (Nat.le_add_right _ _)]
    exact hn
  have hcount' : value ((bytes.drop (58 + n * 86)).take 2) = r := by
    rw [← hr, placementReplicas, hn]
  obtain ⟨tasks, hdom, hputs⟩ := assignmentTokenCodec_fixed.counted 2
    (fun n => n ≠ 0 && n ≤ Limits.maxTasksPerJob) (by decide) (by simp) ((bytes.drop 56).take (2 + n * 86))
    (by rw [hcount]; simp [hsome, htasks]) (by rw [hcount]; simp; omega)
  obtain ⟨replicas, hdom', hputs'⟩ := resultReplicaSetCodec_fixed.counted 2
    (fun n => n ≤ Limits.maxResultManifestsPerJob) (by decide) (by simp) (bytes.drop (58 + n * 86))
    (by rw [hcount']; simp [hreplicas]) (by rw [hcount']; simp; omega)
  refine ⟨⟨job, revision, digest, tasks, replicas⟩,
    decode_eq_some.mpr ⟨⟨hjob, hrev, hdig, hdom, hdom'⟩, ?_⟩⟩
  change bytes = (word 16).put job ++ ((word 8).put revision ++
    ((word 32).put digest ++ (Codec.put _ tasks ++ Codec.put _ replicas)))
  -- the five pieces in their places
  have hrest : bytes.drop (58 + n * 86) = (bytes.drop 56).drop (2 + n * 86) := by
    rw [drop_drop, show 56 + (2 + n * 86) = 58 + n * 86 by omega]
  rw [hput, hput', hput'', hputs, hputs', hrest, take_append_drop,
    show bytes.drop 56 = (bytes.drop 24).drop 32 by rw [drop_drop], take_append_drop,
    show bytes.drop 24 = (bytes.drop 16).drop 8 by rw [drop_drop], take_append_drop,
    take_append_drop]

instance (bytes : Bytes) : Decidable (Placed bytes) := inferInstanceAs (Decidable (_ ∧ _))

section Replacement

variable {jobID : JobID} {revision : U64} {digest markers : Array32} {set : AssignmentSet}

/-- Where a placement has its count of tasks, a replacement has the start of the markers' digest. -/
lemma placementTasks_replacement :
    placementTasks (replaceAssignments jobID revision digest markers set).bytes = markers.toNat / 2 ^ 240 := by
  have hbytes : (replaceAssignments jobID revision digest markers set).bytes =
      (array16.put jobID ++ u64.put revision ++ array32.put digest) ++
        (bigEndian (2 + 30) markers.toNat ++ assignmentSetCodec.put set) := by
    change array16.put _ ++ (u64.put _ ++ (array32.put _ ++ (array32.put _ ++ _))) = _
    simp only [append_assoc]
    rfl
  have hlt := markers.isLt
  rw [placementTasks, hbytes, drop_left' (by simp), take_append_of_le_length (by simp),
    take_bigEndian, value_bigEndian]
  omega

/-- The bytes of a token end with the low bytes of its revision. -/
lemma token_bytes (token : AssignmentToken) : ∃ front : Bytes, front.length = 84 ∧
    assignmentTokenCodec.put token = front ++ bigEndian 2 token.assignmentRevision.toNat := by
  refine ⟨taskIDCodec.put token.task ++ u16.put token.workerID ++ array16.put token.workerEpoch ++
    u64.put token.attempt ++ array32.put token.specificationHash ++
    (bigEndian (6 + 2) token.assignmentRevision.toNat).take 6, by simp, ?_⟩
  rw [← drop_bigEndian 6 2, append_assoc, take_append_drop]
  change taskIDCodec.put _ ++ (u16.put _ ++ (array16.put _ ++ (u64.put _ ++
    (array32.put _ ++ u64.put _)))) = _
  simp only [append_assoc]
  rfl

lemma replacement_bytes (jobID : JobID) (revision : U64) (digest markers : Array32) (set : AssignmentSet) :
    ∃ head rest : Bytes, head.length = 144 ∧ (replaceAssignments jobID revision digest markers set).bytes =
      head ++ (bigEndian 2 (set.tasks.length % 2 ^ 16) ++
        (set.tasks.flatMap assignmentTokenCodec.put ++ rest)) := by
  refine ⟨array16.put jobID ++ u64.put revision ++ array32.put digest ++
    array32.put markers ++ array16.put set.jobID ++ u64.put set.revision ++
    array32.put set.digest, (word 2).put (BitVec.ofNat 16 set.resultReplicas.length) ++
    set.resultReplicas.flatMap resultReplicaSetCodec.put, by simp, ?_⟩
  simp only [append_assoc]
  rfl

/-- Where a placement of as many tasks has its count of replicas, a replacement has the revision of a
task. -/
lemma placementReplicas_replacement (hrev : ∀ token ∈ set.tasks, token.assignmentRevision = set.revision)
    (htwo : 2 ≤ markers.toNat / 2 ^ 240) (hle : markers.toNat / 2 ^ 240 ≤ set.tasks.length + 1) :
    placementReplicas (replaceAssignments jobID revision digest markers set).bytes =
      set.revision.toNat % 2 ^ 16 := by
  rw [placementReplicas, placementTasks_replacement]
  generalize markers.toNat / 2 ^ 240 = n at htwo hle ⊢
  have hlt : n - 2 < set.tasks.length := by omega
  obtain ⟨front, hfront, htoken⟩ := token_bytes set.tasks[n - 2]
  rw [hrev _ (getElem_mem hlt)] at htoken
  obtain ⟨head, rest, hhead, hbytes⟩ := replacement_bytes jobID revision digest markers set
  have htasks : set.tasks.flatMap assignmentTokenCodec.put =
      (set.tasks.take (n - 2)).flatMap assignmentTokenCodec.put ++ (front ++ (bigEndian 2 set.revision.toNat ++
        (set.tasks.drop (n - 2 + 1)).flatMap assignmentTokenCodec.put)) := by
    conv_lhs => rw [← take_append_drop (n - 2) set.tasks]
    rw [flatMap_append, drop_eq_getElem_cons hlt, flatMap_cons, htoken]
    simp only [append_assoc]
  have hlen : ((set.tasks.take (n - 2)).flatMap assignmentTokenCodec.put).length = (n - 2) * 86 := by
    simp [length_flatMap, Nat.min_eq_left hlt.le]
  rw [hbytes, htasks]
  simp only [append_assoc]
  rw [← append_assoc, ← append_assoc, ← append_assoc,
    drop_left' (by simp [hhead, hlen, hfront]; omega), take_left' (by simp), value_bigEndian]
  norm_num

/-- A replacement is as long as the placement it would be read as only for some counts of its own. -/
lemma placed_replacement_iff (hset : validateAssignmentStructure set = true)
    (hle : markers.toNat / 2 ^ 240 ≤ set.tasks.length + 1) :
    Placed (replaceAssignments jobID revision digest markers set).bytes ↔ 2 ≤ markers.toNat / 2 ^ 240 ∧
      ∃ k, set.tasks.length = markers.toNat / 2 ^ 240 + 12 + 28 * k ∧
        set.revision.toNat % 2 ^ 16 = set.resultReplicas.length + 20 + 43 * k ∧
        set.resultReplicas.length + 20 + 43 * k ≤ Limits.maxResultManifestsPerJob := by
  simp only [validateAssignmentStructure, and_eq_true, List.all_eq_true, decide_eq_true_eq] at hset
  obtain ⟨⟨⟨-, ⟨⟨-, hsome⟩, htasks⟩, hreplicas⟩, htokens, -⟩, -⟩ := hset
  have hlen : (replaceAssignments jobID revision digest markers set).bytes.length = _ :=
    replaceAssignmentsTargetCodec_length ..
  rw [Placed, placementTasks_replacement, hlen]
  by_cases htwo : 2 ≤ markers.toNat / 2 ^ 240
  · rw [placementReplicas_replacement (fun token htoken => (htokens token htoken).2) htwo hle]
    generalize markers.toNat / 2 ^ 240 = n at hle htwo
    generalize set.revision.toNat % 2 ^ 16 = low
    constructor
    · rintro ⟨-, -, hlow, heq⟩
      exact ⟨htwo, (set.tasks.length - n - 12) / 28, by omega, by omega, by omega⟩
    · rintro ⟨-, k, hk, hlow, hmax⟩
      exact ⟨by omega, by omega, by omega, by omega⟩
  -- a single task would be followed by the count of the tasks
  refine iff_of_false ?_ (fun h => htwo h.1)
  rintro ⟨hone, -, -, heq⟩
  have hsmall : set.tasks.length < 2 ^ 16 := lt_of_le_of_lt htasks (by decide)
  obtain ⟨head, rest, hhead, hbytes⟩ := replacement_bytes jobID revision digest markers set
  have hcount : placementReplicas (replaceAssignments jobID revision digest markers set).bytes =
      set.tasks.length := by
    rw [placementReplicas, placementTasks_replacement, show markers.toNat / 2 ^ 240 = 1 by omega, hbytes,
      List.drop_left' hhead, List.take_left' (by simp), value_bigEndian]
    omega
  rw [hcount] at heq
  omega

end Replacement

/-! ## Retained targets -/

section Retained

variable [Contract] {command : Command} {target : Target} {encoded : Bytes}

/-- What `validateWorkerSnapshotTarget` reads. -/
def decodeWorkerSnapshotTarget (target : Bytes) : Option Target :=
  if target.length = workerRecordEstimatedBytes - 2 then Target.decode .registerWorker target
  else if target.length = 18 then Target.decode .drainWorker target
  else if 20 ≤ target.length ∧ (target.length - 20) % 64 = 0 then Target.decode .deactivateWorker target
  else if 113 ≤ target.length ∧ (target.length - 113) % 64 = 0 then
    Target.decode .replaceWorkerEpoch target
  else none

/-- What `validateJobControlSnapshotTarget` reads. -/
def decodeJobControlSnapshotTarget (target : Bytes) : Option Target :=
  if target.length = 18 then Target.decode .transitionJob target
  else if target.length = jobFailureEstimatedBytes then Target.decode .failJob target
  else
    match Target.decode .installAssignments target with
    | some assignment => some assignment
    | none => Target.decode .replaceAssignments target

def decodeSnapshotTarget (subject : SubjectKind) (target : Bytes) : Option Target :=
  match subject with
  | .worker => decodeWorkerSnapshotTarget target
  | .jobControl => decodeJobControlSnapshotTarget target
  | _ => none

lemma decodeWorkerSnapshotTarget_bytes (hsubj : target.subject.kind = .worker)
    (hdec : Target.decode target.kind target.bytes = some target) :
    decodeWorkerSnapshotTarget target.bytes = some target := by
  simp only [decodeWorkerSnapshotTarget, workerRecordEstimatedBytes]
  cases target with
  | registerWorker worker =>
    have hlen : (registerWorker worker).bytes.length = 93 := workerRecordCodec_length worker
    rw [if_pos hlen]
    exact hdec
  | drainWorker workerID epoch =>
    have hlen : (drainWorker workerID epoch).bytes.length = 18 := drainTargetCodec_length _
    rw [if_neg (by omega), if_pos hlen]
    exact hdec
  | deactivateWorker workerID epoch affected =>
    have hlen : (deactivateWorker workerID epoch affected).bytes.length = _ := deactivateTargetCodec_length ..
    rw [if_neg (by omega), if_neg (by omega), if_pos (by omega)]
    exact hdec
  | replaceWorkerEpoch workerID epoch record affected =>
    have hlen : (replaceWorkerEpoch workerID epoch record affected).bytes.length = _ :=
      replaceEpochTargetCodec_length ..
    rw [if_neg (by omega), if_neg (by omega), if_neg (by omega), if_pos (by omega)]
    exact hdec
  | _ => cases hsubj

/-- A replacement whose bytes are those of a placement as well. -/
def Target.ReadsAsPlacement (target : Target) : Prop := target.kind = .replaceAssignments ∧ Placed target.bytes

lemma decodeJobControlSnapshotTarget_bytes (hsubj : target.subject.kind = .jobControl)
    (hdec : Target.decode target.kind target.bytes = some target) :
    decodeJobControlSnapshotTarget target.bytes = some target ↔ ¬ target.ReadsAsPlacement := by
  simp only [decodeJobControlSnapshotTarget, jobFailureEstimatedBytes]
  cases target with
  | transitionJob jobID origin next =>
    have hlen : (transitionJob jobID origin next).bytes.length = 18 := transitionTargetCodec_length _
    rw [if_pos hlen]
    exact iff_of_true hdec (fun h => nomatch h.1)
  | failJob report =>
    have hlen : (failJob report).bytes.length = 194 := jobFailureReportCodec_length report
    rw [if_neg (by omega), if_pos hlen]
    exact iff_of_true hdec (fun h => nomatch h.1)
  | installAssignments assignment =>
    have hlen : (installAssignments assignment).bytes.length = _ := assignmentSetCodec_length assignment
    rw [if_neg (by omega), if_neg (by omega),
      show decode .installAssignments _ = _ from hdec]
    exact iff_of_true rfl (fun h => nomatch h.1)
  | replaceAssignments jobID revision digest markers assignment =>
    have hlen : (replaceAssignments jobID revision digest markers assignment).bytes.length = _ :=
      replaceAssignmentsTargetCodec_length ..
    rw [if_neg (by omega), if_neg (by omega)]
    cases hread : decode .installAssignments
        (replaceAssignments jobID revision digest markers assignment).bytes with
    | none =>
      refine iff_of_true hdec ?_
      rintro ⟨-, hplaced⟩
      obtain ⟨set, hset⟩ := decode_of_placement hplaced
      rw [decode, hset] at hread
      cases hread
    | some read =>
      -- what is read is a placement
      rw [decode, map_eq_some_iff] at hread
      obtain ⟨set, hset, rfl⟩ := hread
      exact iff_of_false (fun h => nomatch h) (fun h => h ⟨rfl, placement_of_decode hset⟩)
  | _ => cases hsubj

/-- A command is read back from its bytes and from no others, and the target that its subject retains is
    read back unless it is a replacement whose bytes are those of a placement as well. Of a replacement
    that has at least as many tasks as the digest of its markers begins with, less one, they are exactly if
    two numbers agree: the tasks it has more, and the low half of its revision. -/
theorem retained_target_recovered_iff (h : marshalCommand command = some encoded) :
    unmarshalCommand encoded = some command ∧ (∀ other, marshalCommand other = some encoded → other = command) ∧
      (command.target.subject.kind = .worker ∨ command.target.subject.kind = .jobControl →
        (decodeSnapshotTarget command.target.subject.kind command.target.bytes = some command.target ↔
          ¬ command.target.ReadsAsPlacement)) ∧
      ∀ jobID revision digest markers set,
        command.target = .replaceAssignments jobID revision digest markers set →
        markers.toNat / 2 ^ 240 ≤ set.tasks.length + 1 →
        (command.target.ReadsAsPlacement ↔ 2 ≤ markers.toNat / 2 ^ 240 ∧
          ∃ k, set.tasks.length = markers.toNat / 2 ^ 240 + 12 + 28 * k ∧
            set.revision.toNat % 2 ^ 16 = set.resultReplicas.length + 20 + 43 * k ∧
            set.resultReplicas.length + 20 + 43 * k ≤ Limits.maxResultManifestsPerJob) := by
  have hread := unmarshalCommand_marshalCommand h
  obtain ⟨-, hdec, hfields⟩ := marshalCommand_eq_some h
  refine ⟨hread, fun other hoth => ?_, ?_, ?_⟩
  · exact some.inj ((unmarshalCommand_marshalCommand hoth).symm.trans hread)
  · rintro (hwkr | hjob)
    · rw [hwkr]
      refine iff_of_true (decodeWorkerSnapshotTarget_bytes hwkr hdec) ?_
      rintro ⟨hkind, -⟩
      cases htarg : command.target with
      | replaceAssignments =>
        rw [htarg] at hwkr
        cases hwkr
      | _ =>
        rw [htarg] at hkind
        cases hkind
    rw [hjob]
    exact decodeJobControlSnapshotTarget_bytes hjob hdec
  intro jobID revision digest markers set htarg hle
  obtain ⟨expected, hvalid⟩ := hfields
    (by rw [htarg]; exact fun h => nomatch h) (by rw [htarg]; exact fun h => nomatch h)
  rw [htarg, fieldsValid] at hvalid
  simp only [and_eq_true] at hvalid
  rw [htarg, ReadsAsPlacement, placed_replacement_iff hvalid.2 hle]
  exact and_iff_right rfl

end Retained

namespace Sample

attribute [local instance] sampleContract

/-- Fourteen tasks and a sink, with markers whose digest begins with the number two. -/
def replacement (revision : U64) : Command :=
  let token (task : TaskID) : AssignmentToken := ⟨task, 1, 1, 1, 1, revision⟩
  let tasks := (List.range 13).map (fun n => token ⟨5, 1, BitVec.ofNat 16 n⟩) ++ [token ⟨5, 2, 0⟩]
  { Machine.new with coordinatorEpoch := ⟨1, 1, 9, 5⟩ }.issue 9
    (.replaceAssignments 5 (revision - 1) 1 (2 <<< 240) ⟨5, revision, 1, tasks, [⟨⟨5, 2, 0⟩, 1, 2, 1, 2⟩]⟩)

lemma replacement_computed : (marshalCommand (replacement 22)).isSome = true ∧
    (marshalCommand (replacement 21)).isSome = true ∧
      (decodeSnapshotTarget .jobControl (replacement 21).target.bytes).map Target.kind =
        some .installAssignments := by
  decide +kernel

/-- Placed for the twenty-second time it is told from a placement, which would have twenty-two replicas
    and be longer. -/
theorem replacement_recovered : ∃ encoded, marshalCommand (replacement 22) = some encoded ∧
    unmarshalCommand encoded = some (replacement 22) ∧
    decodeSnapshotTarget .jobControl (replacement 22).target.bytes = some (replacement 22).target := by
  obtain ⟨encoded, henc⟩ := isSome_iff_exists.mp replacement_computed.1
  obtain ⟨hread, -, hret, hmisread⟩ := retained_target_recovered_iff henc
  refine ⟨encoded, henc, hread, (hret (.inr rfl)).mpr ?_⟩
  rw [hmisread _ _ _ _ _ rfl (by decide)]
  rintro ⟨-, k, htasks, hlow, -⟩
  change 14 = 2 + 12 + 28 * k at htasks
  change 22 = 1 + 20 + 43 * k at hlow
  omega

/-- For the twenty-first time it is taken for one: two tasks and twenty-one replicas fill the bytes. -/
theorem replacement_taken_for_placement : ∃ encoded, marshalCommand (replacement 21) = some encoded ∧
    (replacement 21).target.kind = .replaceAssignments ∧
    (decodeSnapshotTarget .jobControl (replacement 21).target.bytes).map Target.kind =
      some .installAssignments := by
  obtain ⟨encoded, henc⟩ := isSome_iff_exists.mp replacement_computed.2.1
  exact ⟨encoded, henc, rfl, replacement_computed.2.2⟩

end Sample

end Crane.State
