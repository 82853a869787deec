import Crane.Model.Sources

/-!
# Tuples and the operators on them

`tuple.go`, and the rest of `operator.go` and `corpus.go`: what a tuple is, the tuple a source has at a
sequence number, and what an operator makes of a tuple that reaches it.

A value is of exactly one of the three types, so the checks on the payload of the other types have no
counterpart. An `int64` is an integer; the arithmetic wraps where Go's does. The words of a line are
runs of ASCII letters: every line comes from a corpus, and those are ASCII. As in the rest of the model,
a check that fails is `none`.
-/

namespace Crane.Model

open Wire Data

namespace Limits

abbrev maxTupleFields : Nat := 64
abbrev maxOperatorOutputs : Nat := 16

end Limits

/-! ## Tuples -/

inductive Value where
  | int64 (value : Int)
  | string (text : Bytes)
  | bytes (data : Bytes)
  deriving DecidableEq

structure Field where
  name : Bytes
  value : Value
  deriving DecidableEq

structure Tuple where
  fields : List Field
  deriving DecidableEq

def Value.validate : Value → Bool
  | .int64 _ => true
  | .string text => validUTF8 text && text.length ≤ Limits.maxTuplePayloadBytes
  | .bytes data => data.length ≤ Limits.maxTuplePayloadBytes

def validateFieldName (name : Bytes) : Bool :=
  name ≠ [] && validUTF8 name && name.length ≤ Limits.maxIdentifierBytes

def validateFields (previous : Option Bytes) : List Field → Bool
  | [] => true
  | field :: rest =>
    validateFieldName field.name && previous.all (fun name => decide (name < field.name)) &&
      field.value.validate && validateFields (some field.name) rest

def Value.size : Value → Nat
  | .int64 _ => 8
  | .string text => 2 + text.length
  | .bytes data => 2 + data.length

def canonicalTupleSize (tuple : Tuple) : Nat :=
  2 + (tuple.fields.map fun field => 2 + field.name.length + 1 + field.value.size).sum

def Tuple.validate (tuple : Tuple) : Bool :=
  tuple.fields.length ≤ Limits.maxTupleFields && validateFields none tuple.fields &&
    canonicalTupleSize tuple ≤ Limits.maxTuplePayloadBytes

def lengthPrefixed (bytes : Bytes) : Bytes := bigEndian 2 bytes.length ++ bytes

def canonicalFieldBytes (field : Field) : Option Bytes := do
  guard ((Tuple.mk [field]).validate)
  some (lengthPrefixed field.name ++
    match field.value with
    | .int64 value => [1] ++ bigEndian 8 (value % 2 ^ 64).toNat
    | .string text => [2] ++ lengthPrefixed text
    | .bytes data => [3] ++ lengthPrefixed data)

/-! ## Sources -/

def intTupleValue (value : Int) : Tuple := ⟨[⟨ascii "value", .int64 value⟩]⟩

def lineTuple (line : Bytes) : Tuple := ⟨[⟨ascii "line", .string line⟩]⟩

/-- `addInt64Uint64`. -/
def addInt64Uint64 (value : Int) (add : Nat) : Option Int :=
  if (add : Int) > (2 ^ 63 - 1 - value) % 2 ^ 64 then none else some (value + add)

def linesTuple (operator : OperatorSpec) (parallelism partition sequence : Nat) : Option (Option Tuple) := do
  let chunks ← linesSettings operator
  let ordinal := (sequence - 1) * parallelism + partition
  some (chunks[ordinal]?.map lineTuple)

/-- `SourceTuple`: the tuple of a source at a sequence number, or that the source has none there. -/
def sourceTuple (topology : ValidatedTopology) (task : TaskID) (sequence : U64) : Option (Option Tuple) := do
  guard task.validate
  guard (sequence ≠ 0)
  let stage ← topology.byStage.find? task.stageID
  guard (stage.role = .source)
  guard (task.partition < stage.parallelism)
  let eofs ← topology.eofs.find? stage.stageID
  let eof ← eofs[task.partition.toNat]?
  if eof < sequence then some none
  else if stage.operator.name = ascii "lines" then
    linesTuple stage.operator stage.parallelism.toNat task.partition.toNat sequence.toNat
  else do
    let (start, _) ← rangeSettings stage.operator
    let base := sequence.toNat - 1
    guard (base ≤ (2 ^ 64 - 1 - task.partition.toNat) / stage.parallelism.toNat)
    let ordinal := base * stage.parallelism.toNat + task.partition.toNat
    let value ← addInt64Uint64 start ordinal
    some (some (intTupleValue value))

/-! ## Operators -/

def exactIntValue (tuple : Tuple) : Option Int :=
  match tuple.fields with
  | [⟨name, .int64 value⟩] => if name = ascii "value" then some value else none
  | _ => none

/-- The text of the only field, which has this name. -/
def exactText (name : Bytes) (tuple : Tuple) : Option Bytes :=
  match tuple.fields with
  | [⟨given, .string text⟩] => if given = name then some text else none
  | _ => none

def wrapInt64 (value : Int) : Int := value.bmod (2 ^ 64)

def multiplyInt64 (left right : Int) : Option Int :=
  if left = 0 ∨ right = 0 then some 0
  else if (left = -2 ^ 63 ∧ right = -1) ∨ (right = -2 ^ 63 ∧ left = -1) then none
  else
    let product := wrapInt64 (left * right)
    if product.tdiv right = left then some product else none

def isLetter (byte : UInt8) : Bool := (65 ≤ byte && byte ≤ 90) || (97 ≤ byte && byte ≤ 122)

def toLower (byte : UInt8) : UInt8 := if 65 ≤ byte && byte ≤ 90 then byte + 32 else byte

def wordTuple (word : Bytes) : Tuple := ⟨[⟨ascii "word", .string word⟩]⟩

def splitWords (input : Tuple) : Option (List Tuple) := do
  let line ← exactText (ascii "line") input
  let words := (fields [] line).map fun raw => (raw.filter isLetter).map toLower
  let outputs := (words.filter (· ≠ [])).map wordTuple
  if outputs.length ≤ Limits.maxOperatorOutputs then some outputs else none

/-- The number of code points of a valid text. -/
def runeCount (text : Bytes) : Nat := (text.filter fun byte => isContinuation byte = false).length

def minLength (operator : OperatorSpec) (input : Tuple) : Option (List Tuple) := do
  let word ← exactText (ascii "word") input
  let setting ← operator.settings[0]?
  let length ← parseInt64 setting.value
  if (runeCount word : Int) < length then some [] else some [input]

def executeOperator (operator : OperatorSpec) (input : Tuple) : Option (List Tuple) := do
  let descriptor ← validateOperatorSpec operator
  guard (descriptor.role ≠ .source)
  guard input.validate
  if operator.name = ascii "collect" then some [input]
  else if operator.name = ascii "split_words" then splitWords input
  else if operator.name = ascii "min_length" then minLength operator input
  else do
    let value ← exactIntValue input
    if operator.name = ascii "multiply" then do
      let setting ← operator.settings[0]?
      let factor ← parseInt64 setting.value
      let product ← multiplyInt64 value factor
      some [intTupleValue product]
    else if operator.name = ascii "even" then
      if value.tmod 2 ≠ 0 then some [] else some [input]
    else if operator.name = ascii "less_than" then do
      let setting ← operator.settings[0]?
      let threshold ← parseInt64 setting.value
      if value ≥ threshold then some [] else some [input]
    else none

end Crane.Model
