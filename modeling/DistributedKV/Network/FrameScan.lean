import DistributedKV.Foundation.ByteScan
import DistributedKV.Network.Protocol
import DistributedKV.Network.RaftProtocol
import DistributedKV.Service.CommandScan

/-!
# Parsing what comes over the network, access by access

The parsers of client frames (`src/network/protocol.cpp`) and of frames between nodes
(`src/network/raft_protocol.cpp`) with the offsets, the subtractions of sizes and the accesses of
the source, and with the buffer and the message they are given. Each of them commits no fault on any
bytes and comes to the result of its reader. `parsers_total` collects what that says of the parsers
that a peer or a client can reach.
-/

namespace DistributedKV

open ByteReader (Parser refuse remaining takeBytes takeWord orRefuse)
open ByteScan Framing

/-! ## Client frames -/

namespace ProtocolScan

open Protocol (magic version maxKeySize maxValueSize maxHostSize maxBodySize protocolHeaderSize
  typeOfCode flagsValid readString readUint16 readUint64 readPort readKvFields readAddNodeFields
  readRemoveNodeFields readRequestFields readRequest readResponse)

/-- The parser has to arrive at the end. -/
def ended {α : Type} (message : String) (scan : Scan α) : Scan α := do
  let value ← scan
  let size ← size
  let offset ← position
  if offset ≠ size then refuse message else pure value

/-- `Protocol::decodeRequest` with its output parameter. -/
def decodeRequest (error : String) (frame : Frame) (request : Request) :
    Except Fault (Except String Unit × Request) :=
  assign (scanAll (ended "request contains trailing bytes" (readRequest error frame)) frame.body)
    request

/-- `Protocol::decodeResponse` with its output parameter. -/
def decodeResponse (error : String) (frame : Frame) (response : Response) :
    Except Fault (Except String Unit × Response) :=
  assign (scanAll (ended "response contains trailing bytes" (readResponse error frame)) frame.body)
    response

/-- The checks of a header, in their order. -/
def readHeader : Scan Protocol.Header := do
  let foundMagic ← bytesAt 0 4
  if foundMagic ≠ magic then refuse "invalid protocol magic"
  else do
    let foundVersion ← wordAt 4 1
    if foundVersion ≠ version then refuse "unsupported protocol version"
    else do
      let rawType ← wordAt 5 1
      let flags ← wordAt 6 2
      let type ← orRefuse "invalid message type or flags" (typeOfCode rawType)
      if ¬ flagsValid type (UInt16.ofNat flags) then refuse "invalid message type or flags"
      else do
        let bodySize ← wordAt 8 4
        if maxBodySize < bodySize then refuse "message body exceeds protocol limit"
        else do
          let requestId ← wordAt 12 8
          pure { type, flags := UInt16.ofNat flags, bodySize, requestId := UInt64.ofNat requestId }

/-- A complete frame is not looked into. -/
def readBody (header : Protocol.Header) : Scan Frame := do
  let size ← remaining
  let body ← takeBytes size
  pure { type := header.type, flags := header.flags, requestId := header.requestId, body }

/-- `Protocol::tryDecode` with the buffer and the frame it is given. -/
def tryDecode (buffer : Bytes) (frame : Frame) : Except Fault (DecodeStatus Unit × Frame × Bytes) :=
  takeOff (scanAll (scanFrame protocolHeaderSize readHeader Protocol.Header.bodySize readBody) buffer)
    frame buffer

/-! ### Following the readers -/

/-- A string is read only after both its length and its bytes are known to be there. -/
theorem follows_string (maximumSize : Nat) :
    Follows anyLeft (readString maximumSize) (readString maximumSize) := by
  refine .beyond_bind (.test Iff.rfl fun _ => .left_bind fun size _ => .test Iff.rfl fun hroom => ?_)
  refine .word_bind (fun left hleft => by omega) fun length => ?_
  exact .left_bind fun rest hrest => .test Iff.rfl fun hvalid =>
    .bytes fun left hleft => by omega

/-- Two bytes that are there are scanned as they are read. -/
theorem follows_uint16 {known : Nat → Prop} (hroom : ∀ left, known left → 2 ≤ left) :
    Follows known readUint16 readUint16 :=
  (Follows.word hroom).map _

/-- Eight bytes that are there, and what is left behind them. -/
theorem follows_uint64_bind {β : Type} {known : Nat → Prop} {next : UInt64 → Scan β}
    {following : UInt64 → ByteReader.Reader β} (hroom : ∀ left, known left → 8 ≤ left)
    (hnext : ∀ word, Follows (fun left => known (left + 8)) (next word) (following word)) :
    Follows known (readUint64 >>= next) (readUint64 >>= following) := by
  rw [readUint64, readUint64, bind_map_left, bind_map_left]
  exact .word_bind hroom fun word => hnext _

/-- A port is read only when two bytes are left. -/
theorem follows_port (error : String) :
    Follows anyLeft (readPort error) (readPort error) :=
  .left_bind fun rest _ => .test Iff.rfl fun hroom =>
    follows_uint16 fun left hleft => by omega

/-- Arriving at the end is having nothing left. -/
theorem follows_ended {α : Type} {scan : Scan α} {reader : ByteReader.Reader α} (message : String)
    (hfollows : Follows anyLeft scan reader) :
    Follows anyLeft (ended message scan) (ByteReader.ended message reader) :=
  hfollows.bind fun value => .here_bind fun size offset hoffset _ =>
    .test (by omega) fun _ => .pure value

/-- The fields of GET, SET and DELETE are scanned as they are read. -/
theorem follows_kv_fields (decoded : Request) :
    Follows anyLeft (readKvFields decoded) (readKvFields decoded) := by
  refine (follows_string maxKeySize).bind fun key => .ite (fun _ => ?_) fun _ => ?_
  · exact (follows_string maxValueSize).bind fun value => .pure _
  · exact .pure _

/-- The fields of an ADD_NODE are scanned as they are read. -/
theorem follows_add_node_fields (error : String) (decoded : Request) :
    Follows anyLeft (readAddNodeFields error decoded) (readAddNodeFields error decoded) := by
  refine .left_bind fun rest _ => .test Iff.rfl fun hroom => ?_
  refine follows_uint64_bind (fun left hleft => by omega) fun operationId => ?_
  refine follows_uint64_bind (fun left hleft => by omega) fun nodeId => ?_
  refine ((follows_string maxHostSize).mono fun _ _ => trivial).bind fun clientHost => ?_
  refine (follows_port error).bind fun clientPort => ?_
  refine (follows_string maxHostSize).bind fun peerHost => ?_
  refine (follows_port error).bind fun peerPort => ?_
  exact .test Iff.rfl fun _ => .pure _

/-- The fields of a REMOVE_NODE are scanned as they are read. -/
theorem follows_remove_node_fields (decoded : Request) :
    Follows anyLeft (readRemoveNodeFields decoded) (readRemoveNodeFields decoded) := by
  refine .left_bind fun rest _ => .test Iff.rfl fun hroom => ?_
  refine follows_uint64_bind (fun left hleft => by omega) fun operationId => ?_
  refine follows_uint64_bind (fun left hleft => by omega) fun nodeId => ?_
  exact .test Iff.rfl fun _ => .pure _

/-- The body of a request is scanned as it is read, whatever its type. -/
theorem follows_request (error : String) (frame : Frame) :
    Follows anyLeft (readRequest error frame) (readRequest error frame) := by
  refine .test Iff.rfl fun _ => ?_
  refine .left_bind fun rest _ => .test Iff.rfl fun hroom => ?_
  refine follows_uint64_bind (fun left hleft => by omega) fun clientId => ?_
  refine .test Iff.rfl fun _ => ?_
  have hfields : ∀ decoded, Follows anyLeft (readRequestFields error decoded)
      (readRequestFields error decoded) := fun decoded =>
    .ite (fun _ => follows_kv_fields decoded) fun _ =>
      .ite (fun _ => follows_add_node_fields error decoded) fun _ =>
        .ite (fun _ => follows_remove_node_fields decoded) fun _ => .pure decoded
  exact ((hfields _).mono fun _ _ => trivial).bind fun decoded =>
    .test Iff.rfl fun _ => .pure decoded

/-- A member of a response is scanned as it is read. -/
theorem follows_member (error : String) :
    Follows anyLeft (Protocol.readMember error) (Protocol.readMember error) := by
  refine .left_bind fun rest _ => .test Iff.rfl fun hroom => ?_
  refine follows_uint64_bind (fun left hleft => by omega) fun nodeId => ?_
  refine ((follows_string maxHostSize).mono fun _ _ => trivial).bind fun clientHost => ?_
  refine (follows_port error).bind fun clientPort => ?_
  refine (follows_string maxHostSize).bind fun peerHost => ?_
  refine (follows_port error).bind fun peerPort => ?_
  exact .test Iff.rfl fun _ => .pure _

/-- The body of a response is scanned as it is read, with all its members. -/
theorem follows_response (error : String) (frame : Frame) :
    Follows anyLeft (readResponse error frame) (readResponse error frame) := by
  refine .left_bind fun rest _ => .test Iff.rfl fun hsome => ?_
  refine .word_bind (fun left hleft => by omega) fun code => ?_
  refine .or_refuse_bind fun status _ => ?_
  refine ((follows_string maxValueSize).mono fun _ _ => trivial).bind fun payload => ?_
  refine (follows_string maxHostSize).bind fun leaderHost => ?_
  refine .left_bind fun rest _ => .test Iff.rfl fun hroom => ?_
  rw [readUint16, readUint16, bind_map_left, bind_map_left]
  refine .word_bind (fun left hleft => by omega) fun leaderPort => ?_
  refine .test Iff.rfl fun _ => ?_
  refine .word_bind (fun left hleft => by omega) fun memberCount => ?_
  refine .test Iff.rfl fun _ => ?_
  exact (((follows_member error).many memberCount).mono fun _ _ => trivial).bind fun members =>
    .pure _

/-- The header of a buffer is scanned at its places as it is read one word after the other. -/
theorem header_found : HeaderFound Protocol.format readHeader := by
  intro buffer hlong
  change protocolHeaderSize ≤ buffer.length at hlong
  let start := buffer.take protocolHeaderSize
  -- the reader takes the words one after the other, the scanner at their index
  have hbytes : (takeBytes 4 : ByteReader.Reader _) start =
      .ok ((buffer.drop 0).take 4, start.drop 4) := by
    have htake : ((buffer.take protocolHeaderSize).drop 0).take 4 = (buffer.drop 0).take 4 :=
      ByteReader.take_drop_take (by decide)
    have hfour : 0 + 4 ≤ start.length := by
      rw [List.length_take_of_le hlong]
      decide
    rw [← htake]
    exact ByteReader.take_bytes_drop hfour
  have hword : ∀ index width, index + width ≤ protocolHeaderSize →
      (takeWord width : ByteReader.Reader _) (start.drop index) =
        .ok (ByteReader.wordAt index width buffer, start.drop (index + width)) :=
    fun index width hrange => ByteReader.take_word_start hlong hrange
  have hscan : ∀ index width, index + width ≤ protocolHeaderSize →
      wordAt index width buffer 0 = .ok (ByteReader.wordAt index width buffer, 0) :=
    fun index width hrange => word_at_eq_ok 0 (hrange.trans hlong)
  show (∃ header, _ ∧ Prod.fst <$> Protocol.readHeader start = _) ∨
    ∃ message, _ ∧ Prod.fst <$> Protocol.readHeader start = _
  rw [Protocol.readHeader, ByteReader.bind_ok hbytes,
    ByteReader.bind_ok (hword 4 1 (by decide)), ByteReader.bind_ok (hword 5 1 (by decide)),
    readUint16, bind_map_left, ByteReader.bind_ok (hword 6 2 (by decide)),
    ByteReader.bind_ok (hword 8 4 (by decide)), readUint64, bind_map_left,
    ByteReader.bind_ok (hword 12 8 (by decide)), readHeader,
    bind_ok (bytes_at_eq_ok 0 (le_trans (by decide) hlong))]
  by_cases hmagic : (buffer.drop 0).take 4 ≠ magic
  · rw [if_pos hmagic, if_pos hmagic]
    exact .inr ⟨_, rfl, rfl⟩
  rw [if_neg hmagic, if_neg hmagic, bind_ok (hscan 4 1 (by decide))]
  by_cases hversion : ByteReader.wordAt 4 1 buffer ≠ version
  · rw [if_pos hversion, if_pos hversion]
    exact .inr ⟨_, rfl, rfl⟩
  rw [if_neg hversion, if_neg hversion, bind_ok (hscan 5 1 (by decide)),
    bind_ok (hscan 6 2 (by decide))]
  cases typeOfCode (ByteReader.wordAt 5 1 buffer) with
  | none => exact .inr ⟨_, rfl, rfl⟩
  | some type =>
    have hscanned : ∀ next : MessageType → Scan Protocol.Header,
        (orRefuse "invalid message type or flags" (some type) >>= next) buffer 0 =
          next type buffer 0 := fun next => rfl
    have hread : ∀ (next : MessageType → ByteReader.Reader Protocol.Header) rest,
        (orRefuse "invalid message type or flags" (some type) >>= next) rest =
          next type rest := fun next rest => rfl
    rw [hscanned, hread]
    by_cases hflags : ¬ flagsValid type (UInt16.ofNat (ByteReader.wordAt 6 2 buffer))
    · rw [if_pos hflags, if_pos hflags]
      exact .inr ⟨_, rfl, rfl⟩
    rw [if_neg hflags, if_neg hflags, bind_ok (hscan 8 4 (by decide))]
    by_cases hbody : maxBodySize < ByteReader.wordAt 8 4 buffer
    · rw [if_pos hbody, if_pos hbody]
      exact .inr ⟨_, rfl, rfl⟩
    rw [if_neg hbody, if_neg hbody, bind_ok (hscan 12 8 (by decide))]
    exact .inl ⟨_, rfl, rfl⟩

/-- The body of a frame is copied as it is. -/
theorem follows_body (header : Protocol.Header) :
    Follows anyLeft (readBody header) (Protocol.format.readBody header) :=
  .left_bind fun _ _ => .bytes_bind (fun _ hleft => hleft.ge) fun _ => .pure _

end ProtocolScan

/-! ## Frames between nodes -/

namespace RaftProtocolScan

open RaftProtocol (WireType Header maximumFrameSize magic version headerSize readValue read64Value
  readNodeId readString readBoolean readRequestVote readRequestVoteResponse readEntry
  readAppendEntries readAppendEntriesResponse readInstallSnapshot readInstallSnapshotResponse
  readPayload decodePayload readMessage)

/-- The checks of a header, in their order. -/
def readHeader : Scan Header := do
  let foundMagic ← wordAt 0 4
  let foundVersion ← wordAt 4 1
  let reserved ← wordAt 6 2
  if foundMagic ≠ magic ∨ foundVersion ≠ version ∨ reserved ≠ 0 then
    refuse "invalid Raft RPC frame header"
  else do
    let rawType ← wordAt 5 1
    let type ← orRefuse "unknown Raft RPC message type" (WireType.ofCode rawType)
    let payloadSize ← wordAt 8 4
    if payloadSize < 8 ∨ maximumFrameSize < payloadSize then
      refuse "invalid Raft RPC payload length"
    else pure { type, payloadSize }

/-- `RaftProtocol::tryDecode` with the buffer and the message it is given. -/
def tryDecode (error : String) (buffer : Bytes) (message : RaftMessage) :
    Except Fault (DecodeStatus Unit × RaftMessage × Bytes) :=
  takeOff
    (scanAll (scanFrame headerSize readHeader Header.payloadSize (readMessage error)) buffer)
    message buffer

/-! ### Following the readers -/

/-- A value is read only when its width is left. -/
theorem follows_value (width : Nat) (message : String) :
    Follows anyLeft (readValue width message) (readValue width message) :=
  .left_bind fun rest _ => .test Iff.rfl fun hroom =>
    .word fun left hleft => by omega

/-- Eight bytes are scanned as they are read. -/
theorem follows_read64 (message : String) :
    Follows anyLeft (read64Value message) (read64Value message) :=
  follows_value 8 message

/-- A node is scanned as it is read. -/
theorem follows_node_id (message : String) :
    Follows anyLeft (readNodeId message) (readNodeId message) :=
  (follows_read64 message).map _

/-- A string is read only when its length is left. -/
theorem follows_string (length : Nat) (message : String) :
    Follows anyLeft (readString length message) (readString length message) :=
  .left_bind fun rest _ => .test Iff.rfl fun hroom =>
    .bytes fun left hleft => by omega

/-- A flag is scanned as it is read. -/
theorem follows_boolean (message : String) :
    Follows anyLeft (readBoolean message) (readBoolean message) :=
  (follows_value 1 message).bind fun _ => .test Iff.rfl fun _ => .pure _

/-- A vote request is scanned as it is read. -/
theorem follows_request_vote : Follows anyLeft readRequestVote readRequestVote :=
  (follows_read64 _).bind fun _ => (follows_node_id _).bind fun _ =>
    (follows_read64 _).bind fun _ => (follows_read64 _).bind fun _ =>
      .pure _

/-- The answer to a vote request is scanned as it is read. -/
theorem follows_request_vote_response :
    Follows anyLeft readRequestVoteResponse readRequestVoteResponse :=
  (follows_read64 _).bind fun _ => (follows_read64 _).bind fun _ =>
    (follows_boolean _).bind fun _ => .pure _

/-- One entry of a replication request is scanned as it is read. -/
theorem follows_entry : Follows anyLeft readEntry readEntry := by
  refine (follows_read64 _).bind fun index => (follows_read64 _).bind fun term => ?_
  refine (follows_value 1 _).bind fun typeValue => (follows_value 4 _).bind fun commandSize => ?_
  refine .test Iff.rfl fun _ => .or_refuse_bind fun type _ => ?_
  exact (follows_string commandSize _).bind fun command => .pure _

/-- A replication request is scanned as it is read, with all its entries. -/
theorem follows_append_entries :
    Follows anyLeft readAppendEntries readAppendEntries := by
  refine (follows_read64 _).bind fun term => (follows_node_id _).bind fun leaderId => ?_
  refine (follows_read64 _).bind fun previousLogIndex => ?_
  refine (follows_read64 _).bind fun previousLogTerm => ?_
  refine (follows_read64 _).bind fun leaderCommit => (follows_read64 _).bind fun readContext => ?_
  refine (follows_value 4 _).bind fun count => .test Iff.rfl fun _ => ?_
  exact (follows_entry.many count).bind fun entries => .pure _

/-- The answer to a replication request is scanned as it is read. -/
theorem follows_append_entries_response :
    Follows anyLeft readAppendEntriesResponse readAppendEntriesResponse := by
  refine (follows_read64 _).bind fun term => (follows_boolean _).bind fun success => ?_
  refine (follows_read64 _).bind fun previousIndex => (follows_read64 _).bind fun entryCount => ?_
  refine .test Iff.rfl fun _ => ?_
  refine (follows_read64 _).bind fun matchIndex => (follows_read64 _).bind fun conflictIndex => ?_
  refine (follows_boolean _).bind fun hasConflictTerm => ?_
  refine (follows_read64 _).bind fun conflictTerm => (follows_read64 _).bind fun readContext => ?_
  exact .test Iff.rfl fun _ => .pure _

/-- A snapshot chunk is scanned as it is read. -/
theorem follows_install_snapshot :
    Follows anyLeft readInstallSnapshot readInstallSnapshot := by
  refine (follows_read64 _).bind fun term => (follows_node_id _).bind fun leaderId => ?_
  refine (follows_read64 _).bind fun index => (follows_read64 _).bind fun boundaryTerm => ?_
  refine (follows_read64 _).bind fun offset => (follows_boolean _).bind fun done => ?_
  refine (follows_value 4 _).bind fun dataSize => .test Iff.rfl fun _ => ?_
  exact (follows_string dataSize _).bind fun data => .pure _

/-- The answer to a snapshot chunk is scanned as it is read. -/
theorem follows_install_snapshot_response :
    Follows anyLeft readInstallSnapshotResponse readInstallSnapshotResponse :=
  (follows_read64 _).bind fun _ => (follows_boolean _).bind fun _ => .pure _

/-- The payload of every type of message is scanned as it is read. -/
theorem follows_payload (type : WireType) :
    Follows anyLeft (readPayload type) (readPayload type) := by
  cases type with
  | requestVote => exact follows_request_vote.map _
  | requestVoteResponse => exact follows_request_vote_response.map _
  | appendEntries => exact follows_append_entries.map _
  | appendEntriesResponse => exact follows_append_entries_response.map _
  | installSnapshot => exact follows_install_snapshot.map _
  | installSnapshotResponse => exact follows_install_snapshot_response.map _

/-- The source and the payload of a body are scanned as they are read. -/
theorem follows_message (error : String) (header : Header) :
    Follows anyLeft (readMessage error header) (readMessage error header) := by
  refine (follows_node_id _).bind fun source => .test Iff.rfl fun _ => ?_
  have hpayload : Follows anyLeft (decodePayload header.type)
      (decodePayload header.type) :=
    (follows_payload header.type).bind fun payload => .left_bind fun rest _ =>
      .test Iff.rfl fun _ => .pure payload
  exact hpayload.bind fun payload => .pure _

/-- The header of a buffer is scanned at its places as it is read one word after the other. -/
theorem header_found (error : String) : HeaderFound (RaftProtocol.format error) readHeader := by
  intro buffer hlong
  change headerSize ≤ buffer.length at hlong
  let start := buffer.take headerSize
  have hword : ∀ index width, index + width ≤ headerSize →
      (takeWord width : ByteReader.Reader _) (start.drop index) =
        .ok (ByteReader.wordAt index width buffer, start.drop (index + width)) :=
    fun index width hrange => ByteReader.take_word_start hlong hrange
  have hscan : ∀ index width, index + width ≤ headerSize →
      wordAt index width buffer 0 = .ok (ByteReader.wordAt index width buffer, 0) :=
    fun index width hrange => word_at_eq_ok 0 (hrange.trans hlong)
  have hfirst : (takeWord 4 : ByteReader.Reader _) start =
      .ok (ByteReader.wordAt 0 4 buffer, start.drop 4) := hword 0 4 (by decide)
  show (∃ header, _ ∧ Prod.fst <$> RaftProtocol.readHeader start = _) ∨
    ∃ message, _ ∧ Prod.fst <$> RaftProtocol.readHeader start = _
  rw [RaftProtocol.readHeader, ByteReader.bind_ok hfirst,
    ByteReader.bind_ok (hword 4 1 (by decide)), ByteReader.bind_ok (hword 5 1 (by decide)),
    ByteReader.bind_ok (hword 6 2 (by decide)), ByteReader.bind_ok (hword 8 4 (by decide)),
    readHeader, bind_ok (hscan 0 4 (by decide)), bind_ok (hscan 4 1 (by decide)),
    bind_ok (hscan 6 2 (by decide))]
  by_cases hinvalid : ByteReader.wordAt 0 4 buffer ≠ magic ∨
      ByteReader.wordAt 4 1 buffer ≠ version ∨ ByteReader.wordAt 6 2 buffer ≠ 0
  · rw [if_pos hinvalid, if_pos hinvalid]
    exact .inr ⟨_, rfl, rfl⟩
  rw [if_neg hinvalid, if_neg hinvalid, bind_ok (hscan 5 1 (by decide))]
  cases WireType.ofCode (ByteReader.wordAt 5 1 buffer) with
  | none => exact .inr ⟨_, rfl, rfl⟩
  | some type =>
    have hscanned : ∀ next : WireType → Scan Header,
        (orRefuse "unknown Raft RPC message type" (some type) >>= next) buffer 0 =
          next type buffer 0 := fun next => rfl
    have hread : ∀ (next : WireType → ByteReader.Reader Header) rest,
        (orRefuse "unknown Raft RPC message type" (some type) >>= next) rest =
          next type rest := fun next rest => rfl
    rw [hscanned, hread, bind_ok (hscan 8 4 (by decide))]
    split_ifs with hsize
    · exact .inr ⟨_, rfl, rfl⟩
    · exact .inl ⟨_, rfl, rfl⟩

end RaftProtocolScan

/-! ## All parsers -/

/-- On all bytes the parsers of frames, requests, responses, commands and configuration changes come
to an end without an access outside their input and without a difference below zero; one that fails
leaves its output and its buffer as they were. -/
theorem parsers_total :
    (∀ (buffer : Bytes) (frame : Frame), ∃ status decoded after,
      ProtocolScan.tryDecode buffer frame = .ok (status, decoded, after) ∧
        (status ≠ .complete () → decoded = frame ∧ after = buffer)) ∧
    (∀ (error : String) (frame : Frame) (request : Request), ∃ result decoded,
      ProtocolScan.decodeRequest error frame request = .ok (result, decoded) ∧
        (result ≠ .ok () → decoded = request)) ∧
    (∀ (error : String) (frame : Frame) (response : Response), ∃ result decoded,
      ProtocolScan.decodeResponse error frame response = .ok (result, decoded) ∧
        (result ≠ .ok () → decoded = response)) ∧
    (∀ (error : String) (buffer : Bytes) (message : RaftMessage), ∃ status decoded after,
      RaftProtocolScan.tryDecode error buffer message = .ok (status, decoded, after) ∧
        (status ≠ .complete () → decoded = message ∧ after = buffer)) ∧
    (∀ (encoded : Bytes) (command : KVCommand), ∃ result decoded,
      KVCommandScan.decode encoded command = .ok (result, decoded) ∧
        (result ≠ .ok () → decoded = command)) ∧
    ∀ (input : Bytes) (entry : ConfChangeEntry), ∃ result decoded,
      ConfChangeScan.decodeConfChangeEntry input entry = .ok (result, decoded) ∧
        (result ≠ .ok () → decoded = entry) := by
  refine ⟨fun buffer frame => ?_, fun error frame request => ?_, fun error frame response => ?_,
    fun error buffer message => ?_, fun encoded command => ?_, fun input entry => ?_⟩
  · exact (found_frame ProtocolScan.header_found ProtocolScan.follows_body buffer).take_off_total
      frame
  · exact assign_total ((ProtocolScan.follows_ended _
      (ProtocolScan.follows_request error frame)).no_fault frame.body) request
  · exact assign_total ((ProtocolScan.follows_ended _
      (ProtocolScan.follows_response error frame)).no_fault frame.body) response
  · exact (found_frame (RaftProtocolScan.header_found error)
      (RaftProtocolScan.follows_message error) buffer).take_off_total message
  · refine assign_total (fun fault => ?_) command
    rcases KVCommandScan.scan_command encoded with ⟨decoded, hscan, -⟩ | ⟨message, hscan, -⟩ <;>
      rw [hscan] <;> nofun
  · refine assign_total (fun fault => ?_) entry
    rcases ConfChangeScan.scan_conf_change_entry input with
      ⟨decoded, hscan, -⟩ | ⟨message, hscan, -⟩ <;>
      rw [hscan] <;> nofun

end DistributedKV
