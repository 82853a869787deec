import Crane.Raft.Types

/-!
# Peer messages and their validation

The payloads of `messages.go`, the limits and the validation of `codec.go`, and the canonical
encoder as far as the core uses it: whether a message fits its byte bound. An encoder writes
fixed fields one after the other and refuses the first that would pass the bound; `fields` lists
what it writes and `encodeFields` is that loop.
-/

namespace Crane.Raft

structure Handshake where
  senderID : Nat
  voterFingerprint : Bytes
  applicationFingerprint : Bytes
  deriving DecidableEq

structure HandshakeAck where
  responderID : Nat
  voterFingerprint : Bytes
  applicationFingerprint : Bytes
  deriving DecidableEq

structure PreVoteRequest where
  candidateID : Nat
  currentTerm : Nat
  prospectiveTerm : Nat
  lastLogIndex : Nat
  lastLogTerm : Nat
  deriving DecidableEq

structure PreVoteResponse where
  responderID : Nat
  candidateID : Nat
  term : Nat
  requestCurrentTerm : Nat
  prospectiveTerm : Nat
  granted : Bool
  deriving DecidableEq

structure RequestVoteRequest where
  candidateID : Nat
  term : Nat
  lastLogIndex : Nat
  lastLogTerm : Nat
  deriving DecidableEq

structure RequestVoteResponse where
  responderID : Nat
  candidateID : Nat
  term : Nat
  requestTerm : Nat
  granted : Bool
  deriving DecidableEq

structure AppendEntriesRequest where
  leaderID : Nat
  term : Nat
  generation : Nat
  prevLogIndex : Nat
  prevLogTerm : Nat
  leaderCommit : Nat
  entries : List Entry
  deriving DecidableEq

structure AppendEntriesResponse where
  responderID : Nat
  leaderID : Nat
  term : Nat
  requestTerm : Nat
  generation : Nat
  success : Bool
  matchIndex : Nat
  conflictTerm : Nat
  conflictIndex : Nat
  deriving DecidableEq

structure InstallSnapshotRequest where
  leaderID : Nat
  term : Nat
  transferID : Bytes
  snapshotID : Bytes
  lastIncludedIndex : Nat
  lastIncludedTerm : Nat
  stateMachineSchemaVersion : Nat
  totalLength : Nat
  checksum : Bytes
  offset : Nat
  chunk : Bytes
  done : Bool
  deriving DecidableEq

structure InstallSnapshotResponse where
  responderID : Nat
  leaderID : Nat
  term : Nat
  requestTerm : Nat
  transferID : Bytes
  snapshotID : Bytes
  nextOffset : Nat
  success : Bool
  done : Bool
  deriving DecidableEq

/-- A protocol error report; `code` is one of the six registered codes when valid. -/
structure ErrorResponse where
  code : Nat
  responderID : Nat
  term : Nat
  deriving DecidableEq

inductive RPC where
  | handshake (message : Handshake)
  | handshakeAck (message : HandshakeAck)
  | preVoteRequest (message : PreVoteRequest)
  | preVoteResponse (message : PreVoteResponse)
  | requestVoteRequest (message : RequestVoteRequest)
  | requestVoteResponse (message : RequestVoteResponse)
  | appendEntriesRequest (message : AppendEntriesRequest)
  | appendEntriesResponse (message : AppendEntriesResponse)
  | installSnapshotRequest (message : InstallSnapshotRequest)
  | installSnapshotResponse (message : InstallSnapshotResponse)
  | errorResponse (message : ErrorResponse)
  deriving DecidableEq

/-! ## Sender binding -/

/-- The identity a payload claims to act for, and the second identity it names (zero if none). -/
def RPC.actorID : RPC → Nat × Nat
  | .handshake m => (m.senderID, 0)
  | .handshakeAck m => (m.responderID, 0)
  | .preVoteRequest m => (m.candidateID, 0)
  | .preVoteResponse m => (m.responderID, m.candidateID)
  | .requestVoteRequest m => (m.candidateID, 0)
  | .requestVoteResponse m => (m.responderID, m.candidateID)
  | .appendEntriesRequest m => (m.leaderID, 0)
  | .appendEntriesResponse m => (m.responderID, m.leaderID)
  | .installSnapshotRequest m => (m.leaderID, 0)
  | .installSnapshotResponse m => (m.responderID, m.leaderID)
  | .errorResponse m => (m.responderID, 0)

/-- A handshake names the voter set it belongs to. -/
def RPC.fingerprintMatches (voters : VoterSet) : RPC → Bool
  | .handshake m => m.voterFingerprint = voters.fingerprint
  | .handshakeAck m => m.voterFingerprint = voters.fingerprint
  | _ => true

def validateRPCSender (rpc : RPC) (senderID : Nat) (voters : VoterSet) : Except RaftError Unit :=
  if ¬ voters.contains senderID then .error .notVoter
  else if ¬ rpc.fingerprintMatches voters then .error .voterFingerprint
  else if rpc.actorID.1 ≠ senderID then .error .invalidRPC
  else if rpc.actorID.2 ≠ 0 ∧ ¬ voters.contains rpc.actorID.2 then .error .notVoter
  else .ok ()

/-! ## Limits -/

/-- The largest payload that fits an eight MiB frame with its 55-byte header and 32-byte MAC. -/
def maxRPCPayloadBytes : Nat := 8 * 2 ^ 20 - 55 - 32

def maxRaftCommandBytes : Nat := 2 ^ 20

def maxRaftSnapshotChunkBytes : Nat := 256 * 2 ^ 10

def maxRaftSnapshotBytes : Nat := 2 ^ 30

structure CodecLimits where
  maxAppendEntries : Nat
  maxCommandBytes : Nat
  maxSnapshotChunkBytes : Nat
  maxSnapshotBytes : Nat
  maxEncodedBytes : Nat
  deriving DecidableEq

def defaultCodecLimits : CodecLimits where
  maxAppendEntries := 64
  maxCommandBytes := maxRaftCommandBytes
  maxSnapshotChunkBytes := maxRaftSnapshotChunkBytes
  maxSnapshotBytes := maxRaftSnapshotBytes
  maxEncodedBytes := maxRPCPayloadBytes

/-- A limit of zero stands for its default. -/
def CodecLimits.withDefaults (limits : CodecLimits) : CodecLimits where
  maxAppendEntries :=
    if limits.maxAppendEntries = 0 then defaultCodecLimits.maxAppendEntries
    else limits.maxAppendEntries
  maxCommandBytes :=
    if limits.maxCommandBytes = 0 then defaultCodecLimits.maxCommandBytes
    else limits.maxCommandBytes
  maxSnapshotChunkBytes :=
    if limits.maxSnapshotChunkBytes = 0 then defaultCodecLimits.maxSnapshotChunkBytes
    else limits.maxSnapshotChunkBytes
  maxSnapshotBytes :=
    if limits.maxSnapshotBytes = 0 then defaultCodecLimits.maxSnapshotBytes
    else limits.maxSnapshotBytes
  maxEncodedBytes :=
    if limits.maxEncodedBytes = 0 then defaultCodecLimits.maxEncodedBytes
    else limits.maxEncodedBytes

/-- The byte-string and local-integer domain checks of the source are implied by the absolute
    maxima and are not repeated. -/
def resolveCodecLimits (limits : CodecLimits) : Except RaftError CodecLimits :=
  let resolved := limits.withDefaults
  if resolved.maxCommandBytes > defaultCodecLimits.maxCommandBytes then .error .rpcTooLarge
  else if resolved.maxSnapshotChunkBytes > defaultCodecLimits.maxSnapshotChunkBytes then
    .error .rpcTooLarge
  else if resolved.maxSnapshotBytes > defaultCodecLimits.maxSnapshotBytes then .error .rpcTooLarge
  else if resolved.maxEncodedBytes > defaultCodecLimits.maxEncodedBytes then .error .rpcTooLarge
  else .ok resolved

/-! ## Validation -/

def validDistinctIDs (left right : Nat) : Bool := left ≠ 0 ∧ right ≠ 0 ∧ left ≠ right

def validLogPosition (index term : Nat) : Bool := (index = 0) = (term = 0)

def isNextTerm (current prospective : Nat) : Bool := current ≠ maxUint64 ∧ prospective = current + 1

/-- The loop over the entries of an append request: `expected` and `previousTerm` are the
    position before the first of them. -/
def validateAppendEntries (requestTerm : Nat) (limits : CodecLimits) (expected previousTerm : Nat) :
    List Entry → Except RaftError Unit
  | [] => .ok ()
  | entry :: rest =>
    if expected = maxUint64 then .error .invalidRPC
    else if entry.index ≠ expected + 1 ∨ entry.term = 0 ∨ entry.term < previousTerm ∨
        entry.term > requestTerm ∨ (entry.kind ≠ .command ∧ entry.kind ≠ .noOp) then
      .error .invalidRPC
    else if entry.command.length > limits.maxCommandBytes then .error .rpcTooLarge
    else if entry.kind = .noOp ∧ entry.command.length ≠ 0 then .error .invalidRPC
    else validateAppendEntries requestTerm limits (expected + 1) entry.term rest

def validateAppendRequest (message : AppendEntriesRequest) (limits : CodecLimits) : Except RaftError Unit :=
  if message.leaderID = 0 ∨ message.term = 0 ∨ message.generation = 0 ∨
      ¬ validLogPosition message.prevLogIndex message.prevLogTerm ∨
      message.prevLogTerm > message.term then .error .invalidRPC
  else if message.entries.length > limits.maxAppendEntries then .error .rpcTooLarge
  else validateAppendEntries message.term limits message.prevLogIndex message.prevLogTerm
    message.entries

def validateAppendResponse (message : AppendEntriesResponse) : Except RaftError Unit :=
  if ¬ validDistinctIDs message.responderID message.leaderID ∨ message.requestTerm = 0 ∨
      message.term < message.requestTerm ∨ message.generation = 0 then .error .invalidRPC
  else if message.success then
    if message.term > message.requestTerm then .error .invalidRPC
    else if message.conflictTerm ≠ 0 ∨ message.conflictIndex ≠ 0 then .error .invalidRPC
    else .ok ()
  else if message.matchIndex ≠ 0 ∨ message.conflictIndex = 0 then .error .invalidRPC
  else .ok ()

def validateSnapshotRequest (message : InstallSnapshotRequest) (limits : CodecLimits) : Except RaftError Unit :=
  if message.leaderID = 0 ∨ message.term = 0 ∨ message.transferID = zeroTransferID ∨
      message.snapshotID = zeroSnapshotID ∨ message.checksum = zeroChecksum then
    .error .invalidRPC
  else if message.lastIncludedIndex = 0 ∨ message.lastIncludedTerm = 0 ∨
      message.lastIncludedTerm > message.term ∨ message.stateMachineSchemaVersion = 0 then
    .error .invalidRPC
  else if message.totalLength > limits.maxSnapshotBytes then .error .rpcTooLarge
  else if message.chunk.length > limits.maxSnapshotChunkBytes then .error .rpcTooLarge
  else if message.offset > message.totalLength ∨
      message.chunk.length > message.totalLength - message.offset then .error .invalidRPC
  else if message.done ≠ decide (message.offset + message.chunk.length = message.totalLength) then
    .error .invalidRPC
  else if message.totalLength ≠ 0 ∧ message.chunk.length = 0 then .error .invalidRPC
  else .ok ()

def validateSnapshotResponse (message : InstallSnapshotResponse) (limits : CodecLimits) : Except RaftError Unit :=
  if ¬ validDistinctIDs message.responderID message.leaderID ∨ message.requestTerm = 0 ∨
      message.term < message.requestTerm ∨ message.transferID = zeroTransferID ∨
      message.snapshotID = zeroSnapshotID then .error .invalidRPC
  else if message.nextOffset > limits.maxSnapshotBytes then .error .rpcTooLarge
  else if message.done ∧ ¬ message.success then .error .invalidRPC
  else .ok ()

def validateRPC (rpc : RPC) (limits : CodecLimits) : Except RaftError Unit :=
  match rpc with
  | .handshake m =>
    if m.senderID = 0 ∨ m.voterFingerprint = zeroBytes 32 ∨
        m.applicationFingerprint = zeroBytes 32 then .error .invalidRPC
    else .ok ()
  | .handshakeAck m =>
    if m.responderID = 0 ∨ m.voterFingerprint = zeroBytes 32 ∨
        m.applicationFingerprint = zeroBytes 32 then .error .invalidRPC
    else .ok ()
  | .preVoteRequest m =>
    if m.candidateID = 0 ∨ ¬ isNextTerm m.currentTerm m.prospectiveTerm ∨
        ¬ validLogPosition m.lastLogIndex m.lastLogTerm ∨ m.lastLogTerm > m.currentTerm then
      .error .invalidRPC
    else .ok ()
  | .preVoteResponse m =>
    if ¬ validDistinctIDs m.responderID m.candidateID ∨ ¬ isNextTerm m.requestCurrentTerm m.prospectiveTerm ∨
        (m.term > m.prospectiveTerm ∧ m.granted) then .error .invalidRPC
    else .ok ()
  | .requestVoteRequest m =>
    if m.candidateID = 0 ∨ m.term = 0 ∨ ¬ validLogPosition m.lastLogIndex m.lastLogTerm ∨
        m.lastLogTerm > m.term then .error .invalidRPC
    else .ok ()
  | .requestVoteResponse m =>
    if ¬ validDistinctIDs m.responderID m.candidateID ∨ m.requestTerm = 0 ∨
        m.term < m.requestTerm ∨ (m.term > m.requestTerm ∧ m.granted) then .error .invalidRPC
    else .ok ()
  | .appendEntriesRequest m => validateAppendRequest m limits
  | .appendEntriesResponse m => validateAppendResponse m
  | .installSnapshotRequest m => validateSnapshotRequest m limits
  | .installSnapshotResponse m => validateSnapshotResponse m limits
  | .errorResponse m => if m.responderID = 0 ∨ m.code < 1 ∨ m.code > 6 then .error .invalidRPC else .ok ()

/-! ## Encoding an append request -/

/-- The big-endian bytes of an unsigned integer of `width` bytes. -/
def bigEndian : Nat → Nat → Bytes
  | 0, _ => []
  | width + 1, value => bigEndian width (value / 256) ++ [UInt8.ofNat (value % 256)]

/-- One write of the encoder, refused when it would pass the bound. -/
def addBytes (maximum : Nat) (payload value : Bytes) : Except RaftError Bytes :=
  if value.length > maximum - payload.length then .error .rpcTooLarge else .ok (payload ++ value)

def encodeFields (maximum : Nat) (payload : Bytes) : List Bytes → Except RaftError Bytes
  | [] => .ok payload
  | value :: rest =>
    match addBytes maximum payload value with
    | .error e => .error e
    | .ok payload' => encodeFields maximum payload' rest

/-- Index, term, kind, and the length-prefixed command. -/
def entryFields (entry : Entry) : List Bytes :=
  [bigEndian 8 entry.index, bigEndian 8 entry.term, [entry.kind.code],
    bigEndian 4 entry.command.length, entry.command]

/-- What the encoder writes for an append request, the schema version first. -/
def appendRequestFields (m : AppendEntriesRequest) : List Bytes :=
  [bigEndian 2 1, bigEndian 2 m.leaderID, bigEndian 8 m.term, bigEndian 8 m.generation,
    bigEndian 8 m.prevLogIndex, bigEndian 8 m.prevLogTerm, bigEndian 8 m.leaderCommit,
    bigEndian 2 m.entries.length] ++ m.entries.flatMap entryFields

/-- `EncodeRPC` of an append request, the only kind the core itself encodes. -/
def encodeAppendRequest (m : AppendEntriesRequest) (limits : CodecLimits) : Except RaftError Bytes :=
  match resolveCodecLimits limits with
  | .error e => .error e
  | .ok resolved =>
    match validateAppendRequest m resolved with
    | .error e => .error e
    | .ok () => encodeFields resolved.maxEncodedBytes [] (appendRequestFields m)

end Crane.Raft
