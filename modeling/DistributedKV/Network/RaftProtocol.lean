import DistributedKV.Foundation.Framing
import DistributedKV.Raft.Journal.StateCodec

/-!
# The wire protocol between nodes

The frames of `src/network/raft_protocol.cpp`, which carry the six RPC payloads between nodes. A
frame is a header of twelve bytes and a body that names its source. `frame_iff` says that the
decoder accepts exactly the frames that the encoder makes; the decoder also refuses answers for more
entries than a request can carry, which the encoder does not check.
-/

namespace DistributedKV

open ByteReader Framing List

/-- A payload and the node it comes from. -/
structure RaftMessage where
  source : NodeId
  payload : RpcPayload
  deriving DecidableEq, Repr

namespace RaftProtocol

/-- `kMaximumEntriesPerFrame`. -/
def maximumEntriesPerFrame : Nat := 256

/-- `kMaximumCommandSize`. -/
def maximumCommandSize : Nat := 1024 * 1024

/-- `kMaximumSnapshotChunkSize`. -/
def maximumSnapshotChunkSize : Nat := 1024 * 1024

/-- `kMaximumFrameSize`. -/
def maximumFrameSize : Nat := 2 * 1024 * 1024

/-- `kMagic`. -/
def magic : Nat := 0x444b5652

/-- `kVersion`. -/
def version : Nat := 1

/-- `kHeaderSize`. -/
def headerSize : Nat := 12

/-- The types of frame. -/
inductive WireType where
  | requestVote
  | requestVoteResponse
  | appendEntries
  | appendEntriesResponse
  | installSnapshot
  | installSnapshotResponse
  deriving DecidableEq, Repr

/-- The code of a type. -/
def WireType.code : WireType → Nat
  | .requestVote => 1
  | .requestVoteResponse => 2
  | .appendEntries => 3
  | .appendEntriesResponse => 4
  | .installSnapshot => 5
  | .installSnapshotResponse => 6

/-- The type with a code. -/
def WireType.ofCode (code : Nat) : Option WireType :=
  [.requestVote, .requestVoteResponse, .appendEntries, .appendEntriesResponse, .installSnapshot,
    .installSnapshotResponse].find? fun type => type.code == code

/-- The type of the frame of a payload. -/
def wireType : RpcPayload → WireType
  | .requestVote _ => .requestVote
  | .requestVoteResponse _ => .requestVoteResponse
  | .appendEntries _ => .appendEntries
  | .appendEntriesResponse _ => .appendEntriesResponse
  | .installSnapshot _ => .installSnapshot
  | .installSnapshotResponse _ => .installSnapshotResponse

/-! ## Writing -/

/-- Two bytes, most significant first. -/
def append16 (value : Nat) : Bytes := bigEndian 2 value

/-- A byte. -/
def append8 (value : Nat) : Bytes := bigEndian 1 value

/-- A flag. -/
def appendBoolean (value : Bool) : Bytes := append8 (if value then 1 else 0)

/-- The payload of a vote request. -/
def requestVoteBytes (rpc : RequestVoteRequest) : Bytes :=
  append64 rpc.term ++ append64 rpc.candidateId.toNat ++ append64 rpc.lastLogIndex ++
    append64 rpc.lastLogTerm

/-- The payload of the answer to a vote request. -/
def requestVoteResponseBytes (rpc : RequestVoteResponse) : Bytes :=
  append64 rpc.term ++ append64 rpc.electionTerm ++ appendBoolean rpc.voteGranted

/-- One entry of a replication request. -/
def entryBytes (entry : LogEntry) : Bytes :=
  append64 entry.index ++ append64 entry.term ++
    append8 (RaftJournal.typeCode entry.type).toNat ++ append32 entry.command.length ++
    entry.command

/-- The payload of a replication request. -/
def appendEntriesBytes (rpc : AppendEntriesRequest) : Bytes :=
  append64 rpc.term ++ append64 rpc.leaderId.toNat ++ append64 rpc.previousLogIndex ++
    append64 rpc.previousLogTerm ++ append64 rpc.leaderCommit ++ append64 rpc.readContext ++
    append32 rpc.entries.length ++ rpc.entries.flatMap entryBytes

/-- The payload of the answer to a replication request. -/
def appendEntriesResponseBytes (rpc : AppendEntriesResponse) : Bytes :=
  append64 rpc.term ++ appendBoolean rpc.success ++ append64 rpc.requestPreviousLogIndex ++
    append64 rpc.requestEntryCount ++ append64 rpc.matchIndex ++ append64 rpc.conflictIndex ++
    appendBoolean rpc.conflictTerm.isSome ++ append64 (rpc.conflictTerm.getD 0) ++
    append64 rpc.readContext

/-- The payload of a snapshot chunk. -/
def installSnapshotBytes (rpc : InstallSnapshotRequest) : Bytes :=
  append64 rpc.term ++ append64 rpc.leaderId.toNat ++ append64 rpc.lastIncludedIndex ++
    append64 rpc.lastIncludedTerm ++ append64 rpc.offset ++ appendBoolean rpc.done ++
    append32 rpc.data.length ++ rpc.data

/-- The payload of the answer to a snapshot chunk. -/
def installSnapshotResponseBytes (rpc : InstallSnapshotResponse) : Bytes :=
  append64 rpc.term ++ appendBoolean rpc.success

/-- The payload of a message. -/
def payloadBytes : RpcPayload → Bytes
  | .requestVote rpc => requestVoteBytes rpc
  | .requestVoteResponse rpc => requestVoteResponseBytes rpc
  | .appendEntries rpc => appendEntriesBytes rpc
  | .appendEntriesResponse rpc => appendEntriesResponseBytes rpc
  | .installSnapshot rpc => installSnapshotBytes rpc
  | .installSnapshotResponse rpc => installSnapshotResponseBytes rpc

/-- Encode a payload, or refuse its sizes. -/
def encodePayload (payload : RpcPayload) : Except String Bytes :=
  match payload with
  | .appendEntries rpc =>
    if maximumEntriesPerFrame < rpc.entries.length then
      .error "AppendEntries batch exceeds frame limit"
    else if rpc.entries.any fun entry =>
        maximumCommandSize < entry.command.length || 2 ^ 32 - 1 < entry.command.length then
      .error "Raft command exceeds frame limit"
    else .ok (payloadBytes payload)
  | .installSnapshot rpc =>
    if maximumSnapshotChunkSize < rpc.data.length ∨ 2 ^ 32 - 1 < rpc.data.length then
      .error "InstallSnapshot chunk exceeds frame limit"
    else .ok (payloadBytes payload)
  | _ => .ok (payloadBytes payload)

/-- What the header of a frame says. -/
structure Header where
  type : WireType
  payloadSize : Nat
  deriving DecidableEq, Repr

/-- The header of a frame. -/
def headerBytes (header : Header) : Bytes :=
  append32 magic ++ append8 version ++ append8 header.type.code ++ append16 0 ++
    append32 header.payloadSize

/-- Encode a frame, or refuse it. -/
def encode (source : NodeId) (payload : RpcPayload) : Except String Bytes :=
  if source = 0 then .error "Raft RPC source is zero"
  else do
    let encoded ← encodePayload payload
    let body := append64 source.toNat ++ encoded
    if maximumFrameSize < body.length ∨ 2 ^ 32 - 1 < body.length then
      .error "Raft RPC frame exceeds size limit"
    else
      .ok (headerBytes { type := wireType payload, payloadSize := body.length } ++ body)

/-! ## Reading -/

section Readers

variable {m : Type → Type} [Monad m] [Parser m]

/-- A value of a given width. The reader is asked for it, and what it cannot give is refused with
the message of the statement that asks. -/
def readValue (width : Nat) (message : String) : m Nat := do
  let size ← remaining
  if size < width then refuse message else takeWord width

/-- A byte. -/
def read8 (message : String) : m Nat := readValue 1 message

/-- Four bytes. -/
def read32Value (message : String) : m Nat := readValue 4 message

/-- Eight bytes. -/
def read64Value (message : String) : m Nat := readValue 8 message

/-- A node. -/
def readNodeId (message : String) : m NodeId := UInt64.ofNat <$> read64Value message

/-- A string of given length. -/
def readString (length : Nat) (message : String) : m Bytes := do
  let size ← remaining
  if size < length then refuse message else takeBytes length

/-- A flag. -/
def readBoolean (message : String) : m Bool := do
  let encoded ← read8 message
  if 1 < encoded then refuse message else pure (encoded == 1)

/-- A vote request. -/
def readRequestVote : m RequestVoteRequest := do
  let term ← read64Value "RequestVote payload is truncated"
  let candidateId ← readNodeId "RequestVote payload is truncated"
  let lastLogIndex ← read64Value "RequestVote payload is truncated"
  let lastLogTerm ← read64Value "RequestVote payload is truncated"
  pure { term, candidateId, lastLogIndex, lastLogTerm }

/-- The answer to a vote request. -/
def readRequestVoteResponse : m RequestVoteResponse := do
  let term ← read64Value "RequestVote response is invalid"
  let electionTerm ← read64Value "RequestVote response is invalid"
  let voteGranted ← readBoolean "RequestVote response is invalid"
  pure { term, electionTerm, voteGranted }

/-- One entry of a replication request. -/
def readEntry : m LogEntry := do
  let index ← read64Value "AppendEntries entry is invalid"
  let term ← read64Value "AppendEntries entry is invalid"
  let typeValue ← read8 "AppendEntries entry is invalid"
  let commandSize ← read32Value "AppendEntries entry is invalid"
  if maximumCommandSize < commandSize then refuse "AppendEntries entry is invalid"
  else do
    let type ← orRefuse "AppendEntries entry is invalid" (RaftJournal.typeOfCode typeValue)
    let command ← readString commandSize "AppendEntries entry is invalid"
    pure { index, term, type, command }

/-- A replication request. -/
def readAppendEntries : m AppendEntriesRequest := do
  let term ← read64Value "AppendEntries metadata is invalid"
  let leaderId ← readNodeId "AppendEntries metadata is invalid"
  let previousLogIndex ← read64Value "AppendEntries metadata is invalid"
  let previousLogTerm ← read64Value "AppendEntries metadata is invalid"
  let leaderCommit ← read64Value "AppendEntries metadata is invalid"
  let readContext ← read64Value "AppendEntries metadata is invalid"
  let count ← read32Value "AppendEntries metadata is invalid"
  if maximumEntriesPerFrame < count then refuse "AppendEntries metadata is invalid"
  else do
    let entries ← takeMany readEntry count
    pure { term, leaderId, previousLogIndex, previousLogTerm, entries, leaderCommit, readContext }

/-- The answer to a replication request. -/
def readAppendEntriesResponse : m AppendEntriesResponse := do
  let term ← read64Value "AppendEntries response is invalid"
  let success ← readBoolean "AppendEntries response is invalid"
  let requestPreviousLogIndex ← read64Value "AppendEntries response is invalid"
  let requestEntryCount ← read64Value "AppendEntries response is invalid"
  if maximumEntriesPerFrame < requestEntryCount then refuse "AppendEntries response is invalid"
  else do
    let matchIndex ← read64Value "AppendEntries response is invalid"
    let conflictIndex ← read64Value "AppendEntries response is invalid"
    let hasConflictTerm ← readBoolean "AppendEntries response is invalid"
    let conflictTerm ← read64Value "AppendEntries response is invalid"
    let readContext ← read64Value "AppendEntries response is invalid"
    if hasConflictTerm = false ∧ conflictTerm ≠ 0 then refuse "AppendEntries response is invalid"
    else
      pure
        { term, success, requestPreviousLogIndex, requestEntryCount, matchIndex, conflictIndex
          conflictTerm := if hasConflictTerm then some conflictTerm else none, readContext }

/-- A snapshot chunk. -/
def readInstallSnapshot : m InstallSnapshotRequest := do
  let term ← read64Value "InstallSnapshot payload is invalid"
  let leaderId ← readNodeId "InstallSnapshot payload is invalid"
  let lastIncludedIndex ← read64Value "InstallSnapshot payload is invalid"
  let lastIncludedTerm ← read64Value "InstallSnapshot payload is invalid"
  let offset ← read64Value "InstallSnapshot payload is invalid"
  let done ← readBoolean "InstallSnapshot payload is invalid"
  let dataSize ← read32Value "InstallSnapshot payload is invalid"
  if maximumSnapshotChunkSize < dataSize then refuse "InstallSnapshot payload is invalid"
  else do
    let data ← readString dataSize "InstallSnapshot payload is invalid"
    pure { term, leaderId, lastIncludedIndex, lastIncludedTerm, offset, done, data }

/-- The answer to a snapshot chunk. -/
def readInstallSnapshotResponse : m InstallSnapshotResponse := do
  let term ← read64Value "InstallSnapshot response is invalid"
  let success ← readBoolean "InstallSnapshot response is invalid"
  pure { term, success }

/-- The cases of `decodePayload`. -/
def readPayload : WireType → m RpcPayload
  | .requestVote => .requestVote <$> readRequestVote
  | .requestVoteResponse => .requestVoteResponse <$> readRequestVoteResponse
  | .appendEntries => .appendEntries <$> readAppendEntries
  | .appendEntriesResponse => .appendEntriesResponse <$> readAppendEntriesResponse
  | .installSnapshot => .installSnapshot <$> readInstallSnapshot
  | .installSnapshotResponse => .installSnapshotResponse <$> readInstallSnapshotResponse

/-- Decode a payload that takes the rest of a body. -/
def decodePayload (type : WireType) : m RpcPayload :=
  ended "Raft RPC payload has trailing bytes" (readPayload type)

/-- The checks of a header, in their order. -/
def readHeader : Reader Header := do
  let foundMagic ← takeWord 4
  let foundVersion ← takeWord 1
  let rawType ← takeWord 1
  let reserved ← takeWord 2
  let payloadSize ← takeWord 4
  if foundMagic ≠ magic ∨ foundVersion ≠ version ∨ reserved ≠ 0 then
    refuse "invalid Raft RPC frame header"
  else do
    let type ← orRefuse "unknown Raft RPC message type" (WireType.ofCode rawType)
    if payloadSize < 8 ∨ maximumFrameSize < payloadSize then
      refuse "invalid Raft RPC payload length"
    else pure { type, payloadSize }

/-- The source and the payload of a body. The text of a missing source is the one that the caller
passed, unless that is empty. -/
def readMessage (error : String) (header : Header) : m RaftMessage := do
  let source ← readNodeId (errorOr error "Raft RPC source is invalid")
  if source = 0 then refuse (errorOr error "Raft RPC source is invalid")
  else do
    let payload ← decodePayload header.type
    pure { source, payload }

/-- The frames of the protocol, for a caller with an error text. -/
def format (error : String) : FrameFormat Header RaftMessage where
  headerSize := headerSize
  header_pos := by decide
  readHeader := readHeader
  bodySize := Header.payloadSize
  readBody := readMessage error

/-- Decode and consume a frame. -/
def tryDecode (error : String) (buffer : Bytes) : DecodeStatus RaftMessage × Bytes :=
  (format error).tryDecode buffer

end Readers

/-! ## Payloads that travel -/

/-- The numbers of a log entry are 64-bit words. -/
def Representable.entry (entry : LogEntry) : Prop := entry.index < 2 ^ 64 ∧ entry.term < 2 ^ 64

/-- The numbers of a payload are 64-bit words, as the source's types make them. -/
def Representable : RpcPayload → Prop
  | .requestVote rpc =>
    rpc.term < 2 ^ 64 ∧ rpc.lastLogIndex < 2 ^ 64 ∧ rpc.lastLogTerm < 2 ^ 64
  | .requestVoteResponse rpc => rpc.term < 2 ^ 64 ∧ rpc.electionTerm < 2 ^ 64
  | .appendEntries rpc =>
    rpc.term < 2 ^ 64 ∧ rpc.previousLogIndex < 2 ^ 64 ∧ rpc.previousLogTerm < 2 ^ 64 ∧
      rpc.leaderCommit < 2 ^ 64 ∧ rpc.readContext < 2 ^ 64 ∧
      ∀ entry ∈ rpc.entries, Representable.entry entry
  | .appendEntriesResponse rpc =>
    rpc.term < 2 ^ 64 ∧ rpc.requestPreviousLogIndex < 2 ^ 64 ∧ rpc.requestEntryCount < 2 ^ 64 ∧
      rpc.matchIndex < 2 ^ 64 ∧ rpc.conflictIndex < 2 ^ 64 ∧
      rpc.conflictTerm.getD 0 < 2 ^ 64 ∧ rpc.readContext < 2 ^ 64
  | .installSnapshot rpc =>
    rpc.term < 2 ^ 64 ∧ rpc.lastIncludedIndex < 2 ^ 64 ∧ rpc.lastIncludedTerm < 2 ^ 64 ∧
      rpc.offset < 2 ^ 64
  | .installSnapshotResponse rpc => rpc.term < 2 ^ 64

/-- An answer is for no more entries than a request can carry. -/
def CountWithin : RpcPayload → Prop
  | .appendEntriesResponse rpc => rpc.requestEntryCount ≤ maximumEntriesPerFrame
  | _ => True

/-- The sizes of a payload that `encodePayload` accepts. -/
def WithinLimits : RpcPayload → Prop
  | .appendEntries rpc =>
    rpc.entries.length ≤ maximumEntriesPerFrame ∧
      ∀ entry ∈ rpc.entries, entry.command.length ≤ maximumCommandSize
  | .installSnapshot rpc => rpc.data.length ≤ maximumSnapshotChunkSize
  | _ => True

/-- A payload within the limits is encoded. -/
theorem encode_payload_eq_ok {payload : RpcPayload} {bytes : Bytes} :
    encodePayload payload = .ok bytes ↔ WithinLimits payload ∧ bytes = payloadBytes payload := by
  cases payload with
  | appendEntries rpc =>
    have hany : (rpc.entries.any fun entry => maximumCommandSize < entry.command.length ||
        2 ^ 32 - 1 < entry.command.length) = false ↔
        ∀ entry ∈ rpc.entries, entry.command.length ≤ maximumCommandSize := by
      rw [any_eq_false]
      refine forall₂_congr fun entry _ => ?_
      rw [Bool.or_eq_true, decide_eq_true_eq, decide_eq_true_eq, maximumCommandSize]
      omega
    rw [WithinLimits, ← hany, encodePayload]
    split_ifs with hcount hcommand
    · refine iff_of_false nofun ?_
      omega
    · refine iff_of_false nofun ?_
      rw [hcommand]
      simp
    · rw [Bool.not_eq_true] at hcommand
      rw [Except.ok.injEq, eq_comm, and_iff_right ⟨Nat.not_lt.mp hcount, hcommand⟩]
  | installSnapshot rpc =>
    rw [WithinLimits, encodePayload]
    split_ifs with hdata
    · refine iff_of_false nofun ?_
      rw [maximumSnapshotChunkSize] at hdata ⊢
      omega
    · rw [not_or, Nat.not_lt] at hdata
      rw [Except.ok.injEq, eq_comm, and_iff_right hdata.1]
  | _ =>
    show Except.ok _ = Except.ok bytes ↔ True ∧ _
    rw [Except.ok.injEq, eq_comm, and_iff_right trivial]

/-! ## What the readers accept -/

theorem reads_value (width : Nat) (message : String) :
    Reads (readValue width message) (· < 256 ^ width) (bigEndian width) :=
  (Reads.word width).room fun value _ => (length_big_endian width value).ge

theorem reads_read64_value (message : String) :
    Reads (read64Value message) (· < 2 ^ 64) append64 :=
  reads_value 8 message

theorem reads_read32_value (message : String) :
    Reads (read32Value message) (· < 2 ^ 32) append32 :=
  reads_value 4 message

theorem reads_node_id (message : String) :
    Reads (readNodeId message) (fun _ => True) fun node => append64 node.toNat := by
  have hback : ∀ value, value < 2 ^ 64 → (UInt64.ofNat value).toNat = value :=
    fun value hvalue => UInt64.toNat_ofNat_of_lt' hvalue
  have hmap := (reads_read64_value message).map hback fun node => UInt64.ofNat_toNat
  exact hmap.congr (fun node => iff_of_true node.toNat_lt trivial) fun _ => rfl

theorem reads_string (length : Nat) (message : String) :
    Reads (readString length message) (fun text => text.length = length) id :=
  (Reads.bytes length).room fun _ htext => htext.ge

/-- A flag. -/
theorem reads_boolean (message : String) :
    Reads (readBoolean message) (fun _ => True) appendBoolean := by
  apply Reads.congr
  · apply Fills.reads
    apply Fills.field (fun flag : Bool => if flag then 1 else 0) (reads_value 1 message)
    intro encoded _
    apply Fills.pass
    · rintro flag ⟨rfl, -⟩
      split_ifs <;> decide
    intro hencoded
    apply Fills.done
    · refine ⟨?_, trivial⟩
      obtain rfl | rfl : encoded = 0 ∨ encoded = 1 := by omega
      · rfl
      · rfl
    · rintro flag ⟨rfl, -⟩
      cases flag <;> rfl
  · intro flag
    cases flag <;> decide
  · intro flag
    exact append_nil _

/-- A vote request is read back. -/
theorem reads_request_vote :
    Reads readRequestVote (fun rpc => Representable (.requestVote rpc)) requestVoteBytes := by
  apply Reads.congr
  · apply Fills.reads
    apply Fills.field RequestVoteRequest.term (reads_read64_value _)
    intro term _
    apply Fills.sized RequestVoteRequest.candidateId (reads_node_id _) fun _ _ => trivial
    intro candidateId _
    apply Fills.field RequestVoteRequest.lastLogIndex (reads_read64_value _)
    intro lastLogIndex _
    apply Fills.field RequestVoteRequest.lastLogTerm (reads_read64_value _)
    intro lastLogTerm _
    apply Fills.done ⟨rfl, rfl, rfl, rfl, trivial⟩
    rintro rpc ⟨rfl, rfl, rfl, rfl, -⟩
    rfl
  · intro rpc
    rw [Representable, and_true]
  · intro rpc
    simp only [requestVoteBytes, append_assoc, append_nil]

/-- A vote response is read back. -/
theorem reads_request_vote_response :
    Reads readRequestVoteResponse (fun rpc => Representable (.requestVoteResponse rpc))
      requestVoteResponseBytes := by
  apply Reads.congr
  · apply Fills.reads
    apply Fills.field RequestVoteResponse.term (reads_read64_value _)
    intro term _
    apply Fills.field RequestVoteResponse.electionTerm (reads_read64_value _)
    intro electionTerm _
    apply Fills.sized RequestVoteResponse.voteGranted (reads_boolean _) fun _ _ => trivial
    intro voteGranted _
    apply Fills.done ⟨rfl, rfl, rfl, trivial⟩
    rintro rpc ⟨rfl, rfl, rfl, -⟩
    rfl
  · intro rpc
    rw [Representable, and_true]
  · intro rpc
    simp only [requestVoteResponseBytes, append_assoc, append_nil]

theorem type_of_code_eq_some {code : Nat} {type : EntryType} :
    RaftJournal.typeOfCode code = some type ↔ (RaftJournal.typeCode type).toNat = code := by
  rw [RaftJournal.typeOfCode]
  cases type <;> split_ifs <;> simp_all [RaftJournal.typeCode, eq_comm]

/-- One entry of a replication request. -/
theorem reads_entry :
    Reads readEntry
      (fun entry => Representable.entry entry ∧ entry.command.length ≤ maximumCommandSize)
      entryBytes := by
  apply Reads.congr
  · apply Fills.reads
    apply Fills.field LogEntry.index (reads_read64_value _)
    intro index _
    apply Fills.field LogEntry.term (reads_read64_value _)
    intro term _
    apply Fills.field (fun entry : LogEntry => (RaftJournal.typeCode entry.type).toNat)
      (reads_value 1 _)
    intro typeValue _
    apply Fills.field (fun entry : LogEntry => entry.command.length) (reads_read32_value _)
    intro commandSize _
    apply Fills.guard fun entry : LogEntry => entry.command.length ≤ maximumCommandSize
    · rintro entry ⟨rfl, -⟩
      exact Nat.not_lt.symm
    intro _
    apply Fills.lookup LogEntry.type
    · rintro entry ⟨-, hcode, -⟩
      exact type_of_code_eq_some.mpr hcode
    intro type htype
    apply Fills.sized LogEntry.command (reads_string _ _)
    · rintro entry ⟨hsize, -⟩
      exact hsize
    intro command hcommand
    apply Fills.done ⟨rfl, hcommand, type_of_code_eq_some.mp htype, rfl, rfl, trivial⟩
    rintro entry ⟨rfl, -, hcode, rfl, rfl, -⟩
    rw [type_of_code_eq_some.mpr hcode] at htype
    cases htype
    rfl
  · intro entry
    have hcode := (RaftJournal.typeCode entry.type).toNat_lt
    simp only [Representable.entry, maximumCommandSize, and_true]
    omega
  · intro entry
    simp only [entryBytes, append_assoc, append_nil, append8, id]

/-- A replication request. -/
theorem reads_append_entries :
    Reads readAppendEntries
      (fun rpc => Representable (.appendEntries rpc) ∧ WithinLimits (.appendEntries rpc))
      appendEntriesBytes := by
  apply Reads.congr
  · apply Fills.reads
    apply Fills.field AppendEntriesRequest.term (reads_read64_value _)
    intro term _
    apply Fills.sized AppendEntriesRequest.leaderId (reads_node_id _) fun _ _ => trivial
    intro leaderId _
    apply Fills.field AppendEntriesRequest.previousLogIndex (reads_read64_value _)
    intro previousLogIndex _
    apply Fills.field AppendEntriesRequest.previousLogTerm (reads_read64_value _)
    intro previousLogTerm _
    apply Fills.field AppendEntriesRequest.leaderCommit (reads_read64_value _)
    intro leaderCommit _
    apply Fills.field AppendEntriesRequest.readContext (reads_read64_value _)
    intro readContext _
    apply Fills.field (fun rpc : AppendEntriesRequest => rpc.entries.length) (reads_read32_value _)
    intro count _
    apply Fills.guard fun rpc : AppendEntriesRequest => rpc.entries.length ≤ maximumEntriesPerFrame
    · rintro rpc ⟨rfl, -⟩
      exact Nat.not_lt.symm
    intro _
    apply Fills.part AppendEntriesRequest.entries
      (fun rpc : AppendEntriesRequest => ∀ entry ∈ rpc.entries,
        Representable.entry entry ∧ entry.command.length ≤ maximumCommandSize)
      (reads_entry.many count)
    · rintro rpc ⟨hcount, -⟩
      exact (and_iff_right hcount).symm
    intro entries hentries
    apply Fills.done ⟨rfl, hentries.1, rfl, rfl, rfl, rfl, rfl, rfl, trivial⟩
    rintro rpc ⟨rfl, -, rfl, rfl, rfl, rfl, rfl, rfl, -⟩
    rfl
  · intro rpc
    simp only [Representable, WithinLimits, maximumEntriesPerFrame, forall_and]
    constructor
    · rintro ⟨hterm, hindex, hprevious, hcommit, hcontext, -, hlength, ⟨hentries, hsizes⟩, -⟩
      exact ⟨⟨hterm, hindex, hprevious, hcommit, hcontext, hentries⟩, hlength, hsizes⟩
    · rintro ⟨⟨hterm, hindex, hprevious, hcommit, hcontext, hentries⟩, hlength, hsizes⟩
      exact ⟨hterm, hindex, hprevious, hcommit, hcontext, by omega, hlength, ⟨hentries, hsizes⟩,
        trivial⟩
  · intro rpc
    simp only [appendEntriesBytes, append_assoc, append_nil]

/-- The answer to a replication request. -/
theorem reads_append_entries_response :
    Reads readAppendEntriesResponse
      (fun rpc => Representable (.appendEntriesResponse rpc) ∧
        CountWithin (.appendEntriesResponse rpc))
      appendEntriesResponseBytes := by
  apply Reads.congr
  · apply Fills.reads
    apply Fills.field AppendEntriesResponse.term (reads_read64_value _)
    intro term _
    apply Fills.sized AppendEntriesResponse.success (reads_boolean _) fun _ _ => trivial
    intro success _
    apply Fills.field AppendEntriesResponse.requestPreviousLogIndex (reads_read64_value _)
    intro requestPreviousLogIndex _
    apply Fills.field AppendEntriesResponse.requestEntryCount (reads_read64_value _)
    intro requestEntryCount _
    apply Fills.guard fun rpc : AppendEntriesResponse => rpc.requestEntryCount ≤ maximumEntriesPerFrame
    · rintro rpc ⟨rfl, -⟩
      exact Nat.not_lt.symm
    intro _
    apply Fills.field AppendEntriesResponse.matchIndex (reads_read64_value _)
    intro matchIndex _
    apply Fills.field AppendEntriesResponse.conflictIndex (reads_read64_value _)
    intro conflictIndex _
    apply Fills.sized (fun rpc : AppendEntriesResponse => rpc.conflictTerm.isSome)
      (reads_boolean _) fun _ _ => trivial
    intro hasConflictTerm _
    apply Fills.field (fun rpc : AppendEntriesResponse => rpc.conflictTerm.getD 0)
      (reads_read64_value _)
    intro conflictTerm _
    apply Fills.field AppendEntriesResponse.readContext (reads_read64_value _)
    intro readContext _
    -- Without a conflicting term a zero is written in its place.
    apply Fills.pass
    · rintro rpc ⟨-, rfl, rfl, -⟩ ⟨hnone, hzero⟩
      rw [Option.isSome_eq_false_iff, Option.isNone_iff_eq_none] at hnone
      rw [hnone] at hzero
      exact hzero rfl
    intro hconflict
    apply Fills.done
    · refine ⟨rfl, ?_, ?_, rfl, rfl, rfl, rfl, rfl, rfl, trivial⟩
      · cases hasConflictTerm <;> simp_all
      · cases hasConflictTerm <;> rfl
    · rintro rpc ⟨rfl, rfl, rfl, rfl, rfl, rfl, rfl, rfl, rfl, -⟩
      cases rpc with
      | mk _ _ _ _ _ _ conflictTerm _ => cases conflictTerm <;> rfl
  · intro rpc
    rw [Representable, CountWithin]
    tauto
  · intro rpc
    simp only [appendEntriesResponseBytes, append_assoc, append_nil]

/-- A snapshot chunk. -/
theorem reads_install_snapshot :
    Reads readInstallSnapshot
      (fun rpc => Representable (.installSnapshot rpc) ∧ WithinLimits (.installSnapshot rpc))
      installSnapshotBytes := by
  apply Reads.congr
  · apply Fills.reads
    apply Fills.field InstallSnapshotRequest.term (reads_read64_value _)
    intro term _
    apply Fills.sized InstallSnapshotRequest.leaderId (reads_node_id _) fun _ _ => trivial
    intro leaderId _
    apply Fills.field InstallSnapshotRequest.lastIncludedIndex (reads_read64_value _)
    intro lastIncludedIndex _
    apply Fills.field InstallSnapshotRequest.lastIncludedTerm (reads_read64_value _)
    intro lastIncludedTerm _
    apply Fills.field InstallSnapshotRequest.offset (reads_read64_value _)
    intro offset _
    apply Fills.sized InstallSnapshotRequest.done (reads_boolean _) fun _ _ => trivial
    intro done _
    apply Fills.field (fun rpc : InstallSnapshotRequest => rpc.data.length) (reads_read32_value _)
    intro dataSize _
    apply Fills.guard fun rpc : InstallSnapshotRequest => rpc.data.length ≤ maximumSnapshotChunkSize
    · rintro rpc ⟨rfl, -⟩
      exact Nat.not_lt.symm
    intro _
    apply Fills.sized InstallSnapshotRequest.data (reads_string _ _)
    · rintro rpc ⟨hsize, -⟩
      exact hsize
    intro data hdata
    apply Fills.done ⟨rfl, hdata, rfl, rfl, rfl, rfl, rfl, rfl, trivial⟩
    rintro rpc ⟨rfl, -, rfl, rfl, rfl, rfl, rfl, rfl, -⟩
    rfl
  · intro rpc
    simp only [Representable, WithinLimits, maximumSnapshotChunkSize, and_true]
    omega
  · intro rpc
    simp only [installSnapshotBytes, append_assoc, append_nil, id]

theorem reads_install_snapshot_response :
    Reads readInstallSnapshotResponse (fun rpc => Representable (.installSnapshotResponse rpc))
      installSnapshotResponseBytes := by
  apply Reads.congr
  · apply Fills.reads
    apply Fills.field InstallSnapshotResponse.term (reads_read64_value _)
    intro term _
    apply Fills.sized InstallSnapshotResponse.success (reads_boolean _) fun _ _ => trivial
    intro success _
    apply Fills.done ⟨rfl, rfl, trivial⟩
    rintro rpc ⟨rfl, rfl, -⟩
    rfl
  · intro rpc
    rw [Representable, and_true]
  · intro rpc
    simp only [installSnapshotResponseBytes, append_nil]

/-- What a payload of the wire satisfies. -/
def Readable (payload : RpcPayload) : Prop :=
  Representable payload ∧ CountWithin payload ∧ WithinLimits payload

/-- A payload of the right type, whichever it is. -/
theorem reads_payload (type : WireType) :
    Reads (readPayload type) (fun payload => wireType payload = type ∧ Readable payload)
      payloadBytes := by
  intro input payload rest
  have hcase : ∀ {rpc : Type} {reader : Reader rpc} {valid : rpc → Prop} {write : rpc → Bytes}
      {into : rpc → RpcPayload}, Reads reader valid write →
      ((into <$> reader) input = .ok (payload, rest) ↔
        ∃ value, into value = payload ∧ valid value ∧ input = write value ++ rest) := by
    intro rpc reader valid write into hreads
    rw [map_eq_ok]
    refine exists_congr fun value => ?_
    rw [hreads, and_comm]
  cases type with
  | requestVote =>
    rw [readPayload, hcase reads_request_vote]
    cases payload <;> simp [wireType, Readable, payloadBytes, CountWithin, WithinLimits]
  | requestVoteResponse =>
    rw [readPayload, hcase reads_request_vote_response]
    cases payload <;> simp [wireType, Readable, payloadBytes, CountWithin, WithinLimits]
  | appendEntries =>
    rw [readPayload, hcase reads_append_entries]
    cases payload <;> simp [wireType, Readable, payloadBytes, CountWithin]
  | appendEntriesResponse =>
    rw [readPayload, hcase reads_append_entries_response]
    cases payload <;> simp [wireType, Readable, payloadBytes, WithinLimits]
  | installSnapshot =>
    rw [readPayload, hcase reads_install_snapshot]
    cases payload <;> simp [wireType, Readable, payloadBytes, CountWithin]
  | installSnapshotResponse =>
    rw [readPayload, hcase reads_install_snapshot_response]
    cases payload <;> simp [wireType, Readable, payloadBytes, CountWithin, WithinLimits]

/-! ## Frames -/

theorem of_code_eq_some {code : Nat} {type : WireType} :
    WireType.ofCode code = some type ↔ type.code = code := by
  constructor
  · intro hfound
    have hcode := find?_some hfound
    exact beq_iff_eq.mp hcode
  · rintro rfl
    cases type <;> rfl

/-- A header. -/
theorem reads_header :
    Reads readHeader
      (fun header => 8 ≤ header.payloadSize ∧ header.payloadSize ≤ maximumFrameSize)
      headerBytes := by
  apply Reads.congr
  · apply Fills.reads
    apply Fills.sized (fun _ : Header => magic) (.word 4) fun _ _ => by decide
    intro foundMagic _
    apply Fills.sized (fun _ : Header => version) (.word 1) fun _ _ => by decide
    intro foundVersion _
    apply Fills.field (fun header : Header => header.type.code) (.word 1)
    intro rawType _
    apply Fills.sized (fun _ : Header => 0) (.word 2) fun _ _ => by decide
    intro reserved _
    apply Fills.field Header.payloadSize (.word 4)
    intro payloadSize _
    -- The fixed fields are written with the values that are expected.
    apply Fills.pass
    · rintro header ⟨-, rfl, -, rfl, rfl, -⟩
      simp
    intro hfixed
    apply Fills.lookup Header.type
    · rintro header ⟨-, -, hcode, -⟩
      exact of_code_eq_some.mpr hcode
    intro type htype
    apply Fills.guard fun header : Header =>
      8 ≤ header.payloadSize ∧ header.payloadSize ≤ maximumFrameSize
    · rintro header ⟨rfl, -⟩
      rw [not_or, Nat.not_lt, Nat.not_lt]
    intro _
    simp only [not_or, ne_eq, Decidable.not_not] at hfixed
    obtain ⟨rfl, rfl, rfl⟩ := hfixed
    apply Fills.done ⟨rfl, rfl, of_code_eq_some.mp htype, rfl, rfl, trivial⟩
    rintro header ⟨rfl, -, hcode, -⟩
    rw [of_code_eq_some.mpr hcode] at htype
    cases htype
    rfl
  · intro header
    have hcode : header.type.code < 256 ^ 1 := by cases header.type <;> decide
    simp only [maximumFrameSize, and_true]
    omega
  · intro header
    simp only [headerBytes, append32, append8, append16, append_assoc, append_nil]

/-- The source and the payload. -/
def messageBytes (message : RaftMessage) : Bytes :=
  append64 message.source.toNat ++ payloadBytes message.payload

/-- A message is found in a body that was written for it. -/
theorem parse_message {error : String} {header : Header} {body : Bytes} {message : RaftMessage} :
    parse (readMessage error header) body = .ok message ↔
      message.source ≠ 0 ∧ wireType message.payload = header.type ∧ Readable message.payload ∧
        body = messageBytes message := by
  rw [parse_eq_ok]
  constructor
  · rintro ⟨rest, hread⟩
    obtain ⟨source, between, hsource, hrest⟩ := bind_eq_ok.mp hread
    obtain ⟨-, rfl⟩ := (reads_node_id _ _ _ _).mp hsource
    split_ifs at hrest with hzero
    obtain ⟨payload, after, hpayload, hmessage⟩ := bind_eq_ok.mp hrest
    cases hmessage
    obtain ⟨hpayload, -⟩ := ended_eq_ok.mp hpayload
    obtain ⟨⟨htype, hreadable⟩, rfl⟩ := (reads_payload header.type).whole.mp hpayload
    exact ⟨hzero, htype, hreadable, rfl⟩
  · rintro ⟨hsource, htype, hreadable, rfl⟩
    refine ⟨[], bind_eq_ok.mpr ⟨_, _, (reads_node_id _ _ _ _).mpr ⟨trivial, rfl⟩, ?_⟩⟩
    rw [if_neg hsource]
    refine bind_eq_ok.mpr ⟨_, _, ended_eq_ok.mpr ⟨?_, rfl⟩, rfl⟩
    exact (reads_payload header.type).whole.mpr ⟨⟨htype, hreadable⟩, rfl⟩

theorem length_header_bytes (header : Header) : (headerBytes header).length = headerSize := by
  simp [headerBytes, append32, append8, append16, headerSize]

@[simp] theorem length_entries_bytes (entries : List LogEntry) :
    (entries.flatMap entryBytes).length = RaftJournal.entriesSize entries := by
  induction entries with
  | nil => rfl
  | cons entry rest ih =>
    rw [flatMap_cons, length_append, ih, RaftJournal.entries_size_cons]
    simp only [entryBytes, append64, append32, append8, length_append, length_big_endian]

theorem length_append_entries_message (source : NodeId) (rpc : AppendEntriesRequest) :
    (messageBytes { source, payload := .appendEntries rpc }).length =
      60 + RaftJournal.entriesSize rpc.entries := by
  simp only [messageBytes, payloadBytes, appendEntriesBytes, append64, append32,
    length_append, length_big_endian, length_entries_bytes]
  omega

/-- What `encode` makes of a payload within the limits. -/
theorem encode_eq_ok {source : NodeId} {payload : RpcPayload} {frame : Bytes} :
    encode source payload = .ok frame ↔
      source ≠ 0 ∧ WithinLimits payload ∧
        (messageBytes { source, payload }).length ≤ maximumFrameSize ∧
        frame = headerBytes
            { type := wireType payload, payloadSize := (messageBytes { source, payload }).length } ++
          messageBytes { source, payload } := by
  rw [encode]
  split_ifs with hsource
  · exact iff_of_false nofun fun hencoded => hencoded.1 hsource
  rw [and_iff_right hsource]
  cases hencode : encodePayload payload with
  | error error =>
    refine iff_of_false nofun ?_
    rintro ⟨hlimits, -⟩
    rw [encode_payload_eq_ok.mpr ⟨hlimits, rfl⟩] at hencode
    cases hencode
  | ok encoded =>
    obtain ⟨hlimits, rfl⟩ := encode_payload_eq_ok.mp hencode
    rw [and_iff_right hlimits]
    show (if maximumFrameSize < (messageBytes { source, payload }).length ∨
      2 ^ 32 - 1 < (messageBytes { source, payload }).length then _ else _) = _ ↔ _
    split_ifs with hsize
    · refine iff_of_false nofun ?_
      rw [maximumFrameSize] at hsize ⊢
      omega
    · rw [not_or, Nat.not_lt] at hsize
      rw [and_iff_right hsize.1, Except.ok.injEq, eq_comm]
      rfl

/-- The decoder accepts the frames of readable payloads. -/
theorem frame_iff {error : String} {message : RaftMessage} {frame : Bytes} :
    (format error).Frame message frame ↔
      Readable message.payload ∧ encode message.source message.payload = .ok frame := by
  rw [encode_eq_ok]
  constructor
  · rintro ⟨header, start, body, hstart, hheader, hsize, hmessage, rfl⟩
    have hlength : ∀ header : Header, (headerBytes header).length = start.length :=
      fun header => (length_header_bytes header).trans hstart.symm
    obtain ⟨⟨-, hlimit⟩, rfl⟩ := (reads_header.parse_of_length fun other _ => hlength other).mp hheader
    obtain ⟨hsource, htype, hreadable, rfl⟩ := parse_message.mp hmessage
    obtain ⟨type, payloadSize⟩ := header
    dsimp only [format] at hsize htype hlimit
    subst hsize htype
    exact ⟨hreadable, hsource, hreadable.2.2, hlimit, rfl⟩
  · rintro ⟨hreadable, hsource, -, hlimit, rfl⟩
    refine ⟨{ type := wireType message.payload, payloadSize := (messageBytes message).length }, _, _,
      length_header_bytes _, ?_, rfl, parse_message.mpr ⟨hsource, rfl, hreadable, rfl⟩, rfl⟩
    refine (reads_header.parse_of_length fun other _ => ?_).mpr ⟨⟨?_, hlimit⟩, rfl⟩
    · rw [length_header_bytes, length_header_bytes]
    · show 8 ≤ (append64 message.source.toNat ++ payloadBytes message.payload).length
      rw [length_append, append64, length_big_endian]
      exact Nat.le_add_right 8 _

/-- The wire protocol is a bijection whose framing does not depend on chunks. A frame, whatever
follows it, is decoded to its source and payload and taken off the buffer; what is decoded encodes
to the bytes that were taken off; frames yield their messages in order however the stream is cut; and
without a message the buffer stays as it is. -/
theorem raft_protocol_bijective :
    (∀ source payload frame, source ≠ 0 → Representable payload → CountWithin payload →
      encode source payload = .ok frame →
      ∀ error rest, tryDecode error (frame ++ rest) = (.complete { source, payload }, rest)) ∧
    (∀ error buffer message rest, tryDecode error buffer = (.complete message, rest) →
      ∃ frame, encode message.source message.payload = .ok frame ∧ buffer = frame ++ rest) ∧
    (∀ (messages : List RaftMessage) frames,
      List.Forall₂ (fun message frame => Representable message.payload ∧
        CountWithin message.payload ∧ encode message.source message.payload = .ok frame)
        messages frames →
      ∀ error chunks, chunks.flatten = frames.flatten →
        (format error).receiveAll chunks = { messages }) ∧
    (∀ error buffer status after, tryDecode error buffer = (status, after) →
      (∀ message, status ≠ .complete message) → after = buffer) := by
  refine ⟨?_, ?_, ?_, ?_⟩
  · intro source payload frame _ hrepresentable hcount hencode error rest
    refine FrameFormat.try_decode_frame (frame_iff.mpr ⟨⟨hrepresentable, hcount, ?_⟩, hencode⟩) rest
    exact (encode_eq_ok.mp hencode).2.1
  · intro error buffer message rest hdecode
    obtain ⟨frame, hframe, hbuffer⟩ := FrameFormat.try_decode_complete_iff.mp hdecode
    exact ⟨frame, (frame_iff.mp hframe).2, hbuffer⟩
  · intro messages frames hencoded error chunks hchunks
    refine FrameFormat.receive_all_frames (hencoded.imp ?_) hchunks
    rintro message frame ⟨hrepresentable, hcount, hencode⟩
    exact frame_iff.mpr ⟨⟨hrepresentable, hcount, (encode_eq_ok.mp hencode).2.1⟩, hencode⟩
  · intro error buffer status after hdecode hstatus
    exact FrameFormat.try_decode_unchanged hdecode hstatus

/-- A granted vote is decoded from its frame, whatever follows. -/
theorem raft_protocol_bijective_vote :
    ∃ frame, encode 1 (.requestVoteResponse { term := 3, electionTerm := 3, voteGranted := true }) =
        .ok frame ∧
      ∀ error rest, tryDecode error (frame ++ rest) =
        (.complete
          { source := 1
            payload := .requestVoteResponse { term := 3, electionTerm := 3, voteGranted := true } },
          rest) :=
  ⟨_, rfl, raft_protocol_bijective.1 1 _ _ (by decide)
    ⟨by decide, by decide⟩ trivial rfl⟩

end RaftProtocol

end DistributedKV
