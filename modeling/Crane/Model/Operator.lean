import Crane.Model.Identity

/-!
# Limits, the operator registry and source bounds

The fixed bounds of `limits.go`, the built-in operators of `registry.go` with the checks on their
settings (`validateOperatorSpec` of `topology.go`), the corpora of `corpus.go`, and from them the
last sequence number of each source partition (`operator.go`).

Names and settings are byte strings, as Go's strings are. Of an operator's descriptor the input
bounds, the lower output bound and the implementation fingerprint are left out: they only enter
the registry's fingerprint.
-/

namespace Crane.Model

open Wire Data

/-! ## `LimitsV1` -/

namespace Limits

abbrev maxRegisteredWorkers : Nat := 1024
abbrev maxActiveJobs : Nat := 64
abbrev maxRetainedJobs : Nat := 256
abbrev maxResultManifestsPerJob : Nat := 256
abbrev maxResultRecordsBytesPerJob : Nat := 64 * 2 ^ 20
abbrev maxIdentifierBytes : Nat := 64
abbrev maxStages : Nat := 64
abbrev maxEdges : Nat := 256
abbrev maxTasksPerStage : Nat := 256
abbrev maxTasksPerJob : Nat := 1024
abbrev maxWorkerSlots : Nat := 256
abbrev maxSettingsPerStage : Nat := 32
abbrev maxSettingKeyBytes : Nat := 64
abbrev maxSettingValueBytes : Nat := 1024
abbrev maxTotalSettingsBytes : Nat := 64 * 2 ^ 10
abbrev maxSourceSequences : Nat := 1000000
abbrev maxDerivedDeliveries : Nat := 4096
abbrev maxTuplePayloadBytes : Nat := 512
abbrev maxSubmitJobBytes : Nat := 2 ^ 20
abbrev submitJobFixedBytes : Nat := 2 + 32 + 2 + (2 * 8 + 2 + 16) + 1 + (16 + 8) + 32

abbrev custodyInboxFixedBytes : Nat := 1 + 98 + 2 * 86 + 8 + 32 + 34 + 2 + 32
abbrev custodyOutboxFixedBytes : Nat := 1 + 98 + 86 + 8 + 32 + 34 + 2 + 32
abbrev resultCopyFixedBytes : Nat := 76 + 20 + 32 + 2 + 32 + 8 + 32 + 56 + 1 + 34

abbrev maxCustodyReservationBytes : Nat :=
  (custodyInboxFixedBytes + maxTuplePayloadBytes) +
    maxDerivedDeliveries * ((custodyOutboxFixedBytes + maxTuplePayloadBytes) +
      (custodyInboxFixedBytes + maxTuplePayloadBytes) +
      2 * (resultCopyFixedBytes + maxTuplePayloadBytes))

/-- One `AssignmentSetInstall` with the largest assignment and no topology. -/
abbrev assignmentSetInstallFixedBytes : Nat :=
  (87 + 2 * 2 + (16 + 8 + 32) + 2 + 2 + 32 + 8 + 1 + 34) + maxTasksPerJob * 86 + maxTasksPerStage * 56

/-- The smallest of what the topology itself, a submit command, a submit request and an
assignment install leave for the canonical bytes. -/
abbrev maxTopologyBytes : Nat :=
  min (min 118784 (2 ^ 20 - submitJobFixedBytes))
    (min (2 ^ 20 - (87 + 2 * 2 + (16 + 8) + 32)) (2 ^ 20 - assignmentSetInstallFixedBytes))

end Limits

/-- `checkedAddUint64`. -/
def checkedAdd (left right : Nat) : Option Nat := if left + right < 2 ^ 64 then some (left + right) else none

/-- `checkedMultiplyUint64`. -/
def checkedMultiply (left right : Nat) : Option Nat :=
  if left * right < 2 ^ 64 then some (left * right) else none

/-- `CompleteSubmitJobBytes`, without the size itself. -/
def completeSubmitJobBytes (topologyBytes : Nat) : Bool :=
  match checkedAdd topologyBytes Limits.submitJobFixedBytes with
  | some total => total ≤ Limits.maxSubmitJobBytes
  | none => false

/-! ## Operators and their settings -/

inductive StageRole where
  | source
  | transform
  | sink
  deriving DecidableEq

inductive SettingType where
  | int64
  | string
  deriving DecidableEq

structure Setting where
  key : Bytes
  value : Bytes
  deriving DecidableEq

structure OperatorSpec where
  name : Bytes
  version : U16
  settings : List Setting
  deriving DecidableEq

structure SettingDescriptor where
  name : Bytes
  type : SettingType

structure OperatorDescriptor where
  name : Bytes
  version : U16
  role : StageRole
  settings : List SettingDescriptor
  maxOutputs : Nat

/-- `RegistryV1`. -/
def registryV1 : List OperatorDescriptor :=
  [ ⟨ascii "collect", 1, .sink, [], 0⟩, ⟨ascii "even", 1, .transform, [], 1⟩,
    ⟨ascii "less_than", 1, .transform, [⟨ascii "threshold", .int64⟩], 1⟩,
    ⟨ascii "lines", 1, .source, [⟨ascii "corpus", .string⟩], 1⟩,
    ⟨ascii "min_length", 1, .transform, [⟨ascii "length", .int64⟩], 1⟩,
    ⟨ascii "multiply", 1, .transform, [⟨ascii "factor", .int64⟩], 1⟩,
    ⟨ascii "range", 1, .source, [⟨ascii "end_exclusive", .int64⟩, ⟨ascii "start", .int64⟩], 1⟩,
    ⟨ascii "split_words", 1, .transform, [], 16⟩ ]

/-- Not empty, not too long, and printable ASCII throughout. -/
def validateASCIIName (name : Bytes) (limit : Nat) : Bool :=
  name ≠ [] && name.length ≤ limit && name.all fun b => 0x20 ≤ b && b ≤ 0x7e

/-- The number a nonempty string of decimal digits spells. -/
def digitsValue (digits : Bytes) : Option Nat :=
  if digits ≠ [] ∧ digits.all (fun d => 48 ≤ d && d ≤ 57) then
    some (digits.foldl (fun n d => n * 10 + (d.toNat - 48)) 0)
  else none

/-- `strconv.ParseInt(value, 10, 64)`: a sign is optional, the range is that of `int64`. -/
def parseInt64 : Bytes → Option Int
  | 45 :: digits => do
    let n ← digitsValue digits
    if n ≤ 2 ^ 63 then some (-(n : Int)) else none
  | 43 :: digits => do
    let n ← digitsValue digits
    if n < 2 ^ 63 then some (n : Int) else none
  | digits => do
    let n ← digitsValue digits
    if n < 2 ^ 63 then some (n : Int) else none

/-- `strconv.FormatInt(value, 10)`. -/
def formatInt (value : Int) : Bytes :=
  let digits := (Nat.toDigits 10 value.natAbs).map fun c => UInt8.ofNat c.toNat
  if value < 0 then 45 :: digits else digits

/-- The settings in order: names, lengths, strictly increasing keys, and a bound on the total. -/
def validateSettings (last : Option Bytes) (total : Nat) : List Setting → Bool
  | [] => true
  | setting :: rest =>
    let total := total + setting.key.length + setting.value.length
    validateASCIIName setting.key Limits.maxSettingKeyBytes &&
      setting.value.length ≤ Limits.maxSettingValueBytes &&
      last.all (fun key => decide (key < setting.key)) &&
      total ≤ Limits.maxTotalSettingsBytes &&
      validateSettings (some setting.key) total rest

def isContinuation (byte : UInt8) : Bool := 0x80 ≤ byte && byte ≤ 0xBF

/-- `utf8.ValidString`. -/
def validUTF8 : Bytes → Bool
  | [] => true
  | b0 :: rest =>
    if b0 < 0x80 then validUTF8 rest
    else
      match rest with
      | [] => false
      | b1 :: rest =>
        if 0xC2 ≤ b0 && b0 ≤ 0xDF then isContinuation b1 && validUTF8 rest
        else
          match rest with
          | [] => false
          | b2 :: rest =>
            if 0xE0 ≤ b0 && b0 ≤ 0xEF then
              -- no overlong form and no surrogate
              isContinuation b1 && (b0 ≠ 0xE0 || 0xA0 ≤ b1) && (b0 ≠ 0xED || b1 ≤ 0x9F) &&
                isContinuation b2 && validUTF8 rest
            else
              match rest with
              | [] => false
              | b3 :: rest =>
                0xF0 ≤ b0 && b0 ≤ 0xF4 && isContinuation b1 && (b0 ≠ 0xF0 || 0x90 ≤ b1) &&
                  (b0 ≠ 0xF4 || b1 ≤ 0x8F) && isContinuation b2 && isContinuation b3 && validUTF8 rest

/-- One setting against its schema. -/
def settingMatches (descriptor : SettingDescriptor) (setting : Setting) : Bool :=
  descriptor.name = setting.key &&
    match descriptor.type with
    | .int64 =>
      match parseInt64 setting.value with
      | some n => formatInt n = setting.value
      | none => false
    | .string => setting.value ≠ [] && validUTF8 setting.value

def validateOperatorSpec (spec : OperatorSpec) : Option OperatorDescriptor := do
  guard (validateASCIIName spec.name Limits.maxIdentifierBytes)
  guard (spec.settings.length ≤ Limits.maxSettingsPerStage)
  guard (validateSettings none 0 spec.settings)
  let descriptor ← registryV1.find? fun d => d.name = spec.name && d.version = spec.version
  guard (descriptor.settings.length = spec.settings.length)
  guard ((descriptor.settings.zip spec.settings).all fun p => settingMatches p.1 p.2)
  some descriptor

/-! ## Corpora -/

/-- The texts of `builtinCorpora`. -/
def builtinCorpora : List (Bytes × Bytes) :=
  [ (ascii "gettysburg", ascii
      ("Four score and seven years ago our fathers brought forth on this continent, a new nation, conceived in Liberty, and dedicated to the proposition that all men are created equal. " ++
       "Now we are engaged in a great civil war, testing whether that nation, or any nation so conceived and so dedicated, can long endure. We are met on a great battle-field of that war. " ++
       "We have come to dedicate a portion of that field, as a final resting place for those who here gave their lives that that nation might live. It is altogether fitting and proper that we should do this. " ++
       "But, in a larger sense, we can not dedicate, we can not consecrate, we can not hallow this ground. The brave men, living and dead, who struggled here, have consecrated it, far above our poor power to add or detract. " ++
       "The world will little note, nor long remember what we say here, but it can never forget what they did here. It is for us the living, rather, to be dedicated here to the unfinished work which they who fought here have thus far so nobly advanced. " ++
       "It is rather for us to be here dedicated to the great task remaining before us, that from these honored dead we take increased devotion to that cause for which they gave the last full measure of devotion, " ++
       "that we here highly resolve that these dead shall not have died in vain, that this nation, under God, shall have a new birth of freedom, and that government of the people, by the people, for the people, shall not perish from the earth.")),
    (ascii "crane", ascii
      ("Crane moves every tuple exactly once from a source through transforms to a collect sink. Workers keep durable custody of each delivery in a checksummed write ahead log and answer duplicates from that log. " ++
       "A leader elected through Raft fences workers by epoch, reconciles assignments, and repairs result replicas after failures. Two current copies of every result must agree before a job seals. " ++
       "Membership comes from SWIM with incarnations and tombstones, and never by itself reassigns work. Bounded frames, bounded jobs, and bounded stores turn every overload into a typed retryable error.")) ]

def isSpace (b : UInt8) : Bool := b == 32 || (9 ≤ b && b ≤ 13)

/-- `strings.Fields` on ASCII text: the maximal runs of bytes that are not spaces. `word` is the
run being read, last byte first. -/
def fields (word : Bytes) : Bytes → List Bytes
  | [] => if word = [] then [] else [word.reverse]
  | b :: rest =>
    if isSpace b then if word = [] then fields [] rest else word.reverse :: fields [] rest
    else fields (b :: word) rest

def maxWordsPerLine : Nat := 16

/-- Groups of `maxWordsPerLine` words, the last one what is left. `line` is the group being
filled, last word first. -/
def wordLines (line : List Bytes) : List Bytes → List (List Bytes)
  | [] => if line = [] then [] else [line.reverse]
  | word :: rest =>
    if line.length + 1 = maxWordsPerLine then (word :: line).reverse :: wordLines [] rest
    else wordLines (word :: line) rest

def corpusChunks (text : Bytes) : List Bytes :=
  (wordLines [] (fields [] text)).map fun words => List.intercalate [32] words

def linesSettings (operator : OperatorSpec) : Option (List Bytes) := do
  let descriptor ← validateOperatorSpec operator
  guard (descriptor.role = .source ∧ operator.name = ascii "lines")
  let corpus ← operator.settings[0]?
  let (_, text) ← builtinCorpora.find? fun entry => entry.1 = corpus.value
  some (corpusChunks text)

/-! ## Source bounds -/

def rangeSettings (operator : OperatorSpec) : Option (Int × Int) := do
  let descriptor ← validateOperatorSpec operator
  guard (descriptor.role = .source ∧ operator.name = ascii "range")
  let endSetting ← operator.settings[0]?
  let startSetting ← operator.settings[1]?
  let finish ← parseInt64 endSetting.value
  let start ← parseInt64 startSetting.value
  guard (start ≤ finish)
  guard ((finish - start).toNat ≤ Limits.maxSourceSequences * 256)
  some (start, finish)

/-- How many tuples the source has in all. -/
def sourceLength (operator : OperatorSpec) : Option Nat :=
  if operator.name = ascii "lines" then (linesSettings operator).map List.length
  else (rangeSettings operator).map fun bounds => (bounds.2 - bounds.1).toNat

/-- The last sequence number of one partition: the ordinals are dealt round robin. -/
def sourcePartitionEOF (operator : OperatorSpec) (parallelism partition : Nat) : Option Nat := do
  guard (parallelism ≠ 0 ∧ partition < parallelism)
  let length ← sourceLength operator
  if length ≤ partition then some 0
  else
    let eof := (length - 1 - partition) / parallelism + 1
    if eof ≤ Limits.maxSourceSequences then some eof else none

/-- `rangeEOFs`. -/
def rangeEOFs (operator : OperatorSpec) (parallelism : Nat) : Option (List U64) :=
  (List.range parallelism).mapM fun partition =>
    (sourcePartitionEOF operator parallelism partition).map (BitVec.ofNat 64)

end Crane.Model
