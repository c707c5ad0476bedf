import DistributedKV.Network.RaftProtocol
import DistributedKV.Service.KVCommand

/-!
# Sending to peers

How `src/network/peer_transport.cpp` sends a message: it is encoded, and the frame is put into the
output buffer of the connection to the peer (`src/network/connection.cpp`) or, without one, into a
queue. What cannot be encoded is dropped, and a frame that does not fit into the buffer closes the
connection. A replication request is limited by its number of entries only, so that it is sent
exactly when the entries of its window fit into one buffer (`replication_request_sent_iff`).
-/

namespace DistributedKV

open List KVCommandCodec

/-! ## Connections -/

/-- `kMaximumBufferedBytes`. -/
def maximumBufferedBytes : Nat := 2 * 1024 * 1024

/-- The output buffer of a connection, with the number of bytes that are already sent. -/
structure Connection where
  output : Bytes := []
  outputOffset : Nat := 0
  bounded : output.length ≤ maximumBufferedBytes := by decide

namespace Connection

/-- Append a frame to the bytes that are not sent yet, unless there is no room for it. -/
def queueOutput (connection : Connection) (bytes : Bytes) : Except String Connection :=
  let output := connection.output.drop connection.outputOffset
  if hroom : maximumBufferedBytes - output.length < bytes.length then
    .error "connection output buffer limit exceeded"
  else
    .ok { output := output ++ bytes
          bounded := by
            have hbounded := connection.bounded
            have hlength : output.length ≤ connection.output.length := by
              rw [List.length_drop]
              omega
            rw [List.length_append]
            omega }

theorem queue_output_empty {bytes : Bytes} :
    (∃ queued, ({} : Connection).queueOutput bytes = .ok queued ∧ queued.output = bytes) ↔
      bytes.length ≤ maximumBufferedBytes := by
  have hempty : ({} : Connection).output.drop ({} : Connection).outputOffset = [] := rfl
  rw [queueOutput]
  simp only [hempty, length_nil, Nat.sub_zero]
  split_ifs with hroom
  · refine iff_of_false (by simp) (by omega)
  · exact iff_of_true ⟨_, rfl, rfl⟩ (by omega)

end Connection

/-! ## The transport -/

/-- `kMaximumPendingFramesPerPeer`. -/
def maximumPendingFramesPerPeer : Nat := 256

/-- The peers a node knows, its connections to them, and the frames for those without one. -/
structure PeerTransport where
  nodeId : NodeId
  endpoints : NodeId → Bool
  outboundConnections : NodeId → Option Connection := fun _ => none
  pendingFrames : NodeId → List Bytes := fun _ => []

namespace PeerTransport

/-- Queue a frame on the connection to a peer, which is closed when the frame does not fit. Without
a connection the frame waits, and the oldest one is given up when there are too many. -/
def queueFrame (transport : PeerTransport) (destination : NodeId) (frame : Bytes) :
    PeerTransport :=
  match transport.outboundConnections destination with
  | none =>
    let pending := transport.pendingFrames destination
    let pending := if maximumPendingFramesPerPeer ≤ pending.length then pending.drop 1 else pending
    { transport with
      pendingFrames := Function.update transport.pendingFrames destination (pending ++ [frame]) }
  | some connection =>
    match connection.queueOutput frame with
    | .error _ =>
      { transport with
        outboundConnections := Function.update transport.outboundConnections destination none }
    | .ok queued =>
      { transport with
        outboundConnections :=
          Function.update transport.outboundConnections destination (some queued) }

/-- One round of `drainOutbound` without injected faults. The first chunk of a snapshot replaces the
frames that wait; a message that cannot be encoded is dropped without a word. -/
def drainSend (transport : PeerTransport) (send : OutboundRpc) : PeerTransport :=
  if transport.endpoints send.destination = false then transport
  else
    let transport :=
      match send.payload with
      | .installSnapshot rpc =>
        if rpc.offset = 0 then
          { transport with
            pendingFrames := Function.update transport.pendingFrames send.destination [] }
        else transport
      | _ => transport
    match RaftProtocol.encode transport.nodeId send.payload with
    | .error _ => transport
    | .ok frame => transport.queueFrame send.destination frame

end PeerTransport

/-! ## Replication requests -/

/-- The entry is a no-op, or a command that a service has accepted, and it was persisted. -/
def Submitted (entry : LogEntry) : Prop :=
  entry.command.length ≤ RaftJournal.maximumCommandSize ∧
    ((entry.type = .noOp ∧ entry.command = []) ∨
      (entry.type = .command ∧ ∃ command, KVCommandCodec.encode command = .ok entry.command))

namespace RaftNode

/-- The entries that the next request to a peer carries. -/
def window (node : RaftNode) (peer : NodeId) : List LogEntry :=
  node.log.entriesFrom ((node.nextIndex peer).getD (node.log.lastIndex + 1))
    node.config.maximumEntriesPerAppend

section Window

variable {node : RaftNode} {peer : NodeId}

theorem mem_entries_of_mem_window {entry : LogEntry} (hentry : entry ∈ node.window peer) :
    entry ∈ node.log.entries := by
  rw [window, RaftLog.entriesFrom] at hentry
  split at hentry
  · cases hentry
  · split_ifs at hentry
    · cases hentry
    · exact mem_of_mem_drop (mem_of_mem_take hentry)

theorem length_window_le (node : RaftNode) (peer : NodeId) :
    (node.window peer).length ≤ node.config.maximumEntriesPerAppend := by
  rw [window, RaftLog.entriesFrom]
  split
  · exact Nat.zero_le _
  · split_ifs
    · exact Nat.zero_le _
    · exact length_take_le ..

end Window

end RaftNode

/-- What is sent to a peer with a connection is queued. -/
theorem PeerTransport.drain_send_append_entries {transport : PeerTransport} {send : OutboundRpc}
    {rpc : AppendEntriesRequest} {connection queued : Connection} {frame : Bytes}
    (hpayload : send.payload = .appendEntries rpc)
    (hendpoint : transport.endpoints send.destination = true)
    (hconnection : transport.outboundConnections send.destination = some connection)
    (hencode : RaftProtocol.encode transport.nodeId send.payload = .ok frame)
    (hqueue : connection.queueOutput frame = .ok queued) :
    (transport.drainSend send).outboundConnections send.destination = some queued := by
  rw [drainSend, if_neg (by rw [hendpoint]; simp), hpayload]
  rw [hpayload] at hencode
  dsimp only
  rw [hencode]
  dsimp only
  rw [queueFrame, hconnection]
  dsimp only
  rw [hqueue]
  exact Function.update_self ..

section Sizes

variable {node : RaftNode} {peer : NodeId}

theorem within_limits_of_submitted (hsubmitted : ∀ entry ∈ node.log.entries, Submitted entry)
    (hdefault : node.config.maximumEntriesPerAppend = ({} : NodeConfig).maximumEntriesPerAppend) :
    RaftProtocol.WithinLimits (node.makeAppendEntries peer).payload := by
  constructor
  · have hcount := node.length_window_le peer
    rw [hdefault] at hcount
    exact hcount.trans (by decide)
  · intro entry hentry
    exact (hsubmitted entry (RaftNode.mem_entries_of_mem_window hentry)).1

theorem length_replication_request (node : RaftNode) (peer source : NodeId) :
    (RaftProtocol.messageBytes
      { source, payload := (node.makeAppendEntries peer).payload }).length =
      60 + RaftJournal.entriesSize (node.window peer) :=
  RaftProtocol.length_append_entries_message ..

end Sizes

/-- A replication request for persisted entries is encoded, its frame fits into the empty buffer of
a connection and stands in that buffer after the transport has taken it, exactly when the entries
of its window fit into a buffer together with the 72 bytes in front of them. -/
theorem replication_request_sent_iff {node : RaftNode} {peer : NodeId} {transport : PeerTransport}
    (hsubmitted : ∀ entry ∈ node.log.entries, Submitted entry)
    (hdefault : node.config.maximumEntriesPerAppend = ({} : NodeConfig).maximumEntriesPerAppend)
    (hnode : transport.nodeId = node.config.nodeId) (hid : node.config.nodeId ≠ 0)
    (hendpoint : transport.endpoints peer = true)
    (hconnection : transport.outboundConnections peer = some {}) :
    (∃ frame queued, RaftProtocol.encode node.config.nodeId (node.makeAppendEntries peer).payload =
          .ok frame ∧
        ({} : Connection).queueOutput frame = .ok queued ∧ queued.output = frame ∧
        (transport.drainSend (node.makeAppendEntries peer)).outboundConnections peer =
          some queued) ↔
      72 + RaftJournal.entriesSize (node.window peer) ≤ maximumBufferedBytes := by
  constructor
  · intro hsent
    obtain ⟨frame, queued, hencode, hqueue, houtput, -⟩ := hsent
    have hlength := Connection.queue_output_empty.mp ⟨queued, hqueue, houtput⟩
    obtain ⟨-, -, -, rfl⟩ := RaftProtocol.encode_eq_ok.mp hencode
    rw [length_append, RaftProtocol.length_header_bytes, RaftProtocol.headerSize,
      length_replication_request] at hlength
    omega
  · intro hroom
    have hbody : 60 + RaftJournal.entriesSize (node.window peer) ≤
        RaftProtocol.maximumFrameSize := by
      rw [maximumBufferedBytes] at hroom
      rw [RaftProtocol.maximumFrameSize]
      omega
    have hencode : ∃ frame, RaftProtocol.encode node.config.nodeId
        (node.makeAppendEntries peer).payload = .ok frame ∧ frame.length ≤ maximumBufferedBytes := by
      refine ⟨_, RaftProtocol.encode_eq_ok.mpr
        ⟨hid, within_limits_of_submitted hsubmitted hdefault, ?_, rfl⟩, ?_⟩
      · rw [length_replication_request]
        exact hbody
      · rw [length_append, RaftProtocol.length_header_bytes, RaftProtocol.headerSize,
          length_replication_request]
        omega
    obtain ⟨frame, hencode, hlength⟩ := hencode
    obtain ⟨queued, hqueue, houtput⟩ := Connection.queue_output_empty.mpr hlength
    refine ⟨frame, queued, hencode, hqueue, houtput, ?_⟩
    rw [← hnode] at hencode
    exact PeerTransport.drain_send_append_entries rfl hendpoint hconnection hencode hqueue

/-! ### Two long commands -/

/-- A command that sets a key of one byte. -/
def setCommand (value : Bytes) : KVCommand where
  type := .set
  clientId := 1
  requestId := 1
  key := [107]
  value

/-- The command is encoded with a header of 32 bytes. -/
theorem encode_set_command {value : Bytes}
    (hvalue : value.length ≤ maximumCommandValueSize) :
    ∃ encoded, KVCommandCodec.encode (setCommand value) = .ok encoded ∧
      encoded.length = 33 + value.length := by
  refine ⟨header (setCommand value) ++ [107] ++ value, ?_, ?_⟩
  · have hids : ¬ ((setCommand value).clientId = 0 ∨ (setCommand value).requestId = 0) := by
      simp [setCommand]
    have hfields : ¬ (maximumCommandKeySize < (setCommand value).key.length ∨
        maximumCommandValueSize < (setCommand value).value.length ∨
        ((setCommand value).type = .delete ∧ (setCommand value).value ≠ [])) := by
      intro hlimits
      rcases hlimits with hkey | hlong | ⟨htype, -⟩
      · exact absurd hkey (by simp [setCommand, maximumCommandKeySize])
      · exact absurd hlong (Nat.not_lt.mpr hvalue)
      · cases htype
    rw [encode, if_neg hids, if_neg hfields]
    rfl
  · rw [length_append, length_append, length_header]
    rfl

/-- The leader of a cluster of two whose log holds a no-op and two commands; the other node has
acknowledged the no-op. -/
def crowdedLeader (command : Bytes) : RaftNode where
  config := { nodeId := 1, peers := [2] }
  role := .leader
  currentTerm := 1
  log := ((RaftLog.empty.append 1 .noOp []).append 1 .command command).append 1 .command command
  commitIndex := 1
  nextIndex := fun peer => if peer = 2 then some 2 else none
  matchIndex := fun peer => if peer = 2 then some 1 else none

theorem crowded_leader_submitted {command : KVCommand} {encoded : Bytes}
    (hencode : KVCommandCodec.encode command = .ok encoded)
    (hlength : encoded.length ≤ RaftJournal.maximumCommandSize) :
    ∀ entry ∈ (crowdedLeader encoded).log.entries, Submitted entry := by
  intro entry hentry
  simp only [crowdedLeader, RaftLog.entries, RaftLog.append, RaftLog.empty, nil_append,
    cons_append, mem_cons, not_mem_nil, or_false] at hentry
  rcases hentry with rfl | rfl | rfl | rfl
  · exact ⟨Nat.zero_le _, .inl ⟨rfl, rfl⟩⟩
  · exact ⟨Nat.zero_le _, .inl ⟨rfl, rfl⟩⟩
  · exact ⟨hlength, .inr ⟨rfl, command, hencode⟩⟩
  · exact ⟨hlength, .inr ⟨rfl, command, hencode⟩⟩

theorem crowded_leader_window (command : Bytes) :
    RaftJournal.entriesSize ((crowdedLeader command).window 2) =
      21 + command.length + (21 + command.length + 0) := rfl

/-- The transport of the leader, with a connection to the other node on which nothing waits. -/
def idleTransport : PeerTransport where
  nodeId := 1
  endpoints := fun _ => true
  outboundConnections := fun _ => some {}

/-- Two short commands are sent. -/
theorem replication_request_sent_short :
    ∃ encoded frame queued, KVCommandCodec.encode (setCommand [118]) = .ok encoded ∧
      RaftProtocol.encode 1 ((crowdedLeader encoded).makeAppendEntries 2).payload = .ok frame ∧
      ({} : Connection).queueOutput frame = .ok queued ∧ queued.output = frame := by
  have hvalue : [(118 : UInt8)].length ≤ maximumCommandValueSize := by decide
  obtain ⟨encoded, hencode, hlength⟩ := encode_set_command hvalue
  have hsubmitted := crowded_leader_submitted hencode (by rw [hlength]; decide)
  have hid : (crowdedLeader encoded).config.nodeId ≠ 0 := by
    show (1 : UInt64) ≠ 0
    decide
  have hendpoint : idleTransport.endpoints 2 = true := rfl
  have hroom : 72 + RaftJournal.entriesSize ((crowdedLeader encoded).window 2) ≤
      maximumBufferedBytes := by
    rw [crowded_leader_window, hlength]
    decide
  obtain ⟨frame, queued, hframe, hqueue, houtput, -⟩ :=
    (replication_request_sent_iff hsubmitted rfl rfl hid hendpoint rfl).mpr hroom
  exact ⟨encoded, frame, queued, hencode, hframe, hqueue, houtput⟩

/-- A value that makes the longest command that can be persisted. -/
def longestPersistedValue : Bytes := List.replicate 1048543 0

/-- Two commands that were accepted and persisted make a request that is not encoded. -/
theorem long_commands_not_sent :
    ∃ encoded error, KVCommandCodec.encode (setCommand longestPersistedValue) = .ok encoded ∧
      (∀ entry ∈ (crowdedLeader encoded).log.entries, Submitted entry) ∧
      RaftProtocol.encode 1 ((crowdedLeader encoded).makeAppendEntries 2).payload =
        .error error := by
  have hvalue : longestPersistedValue.length = 1048543 := length_replicate
  have hlimit : longestPersistedValue.length ≤ maximumCommandValueSize := by
    rw [hvalue]
    decide
  obtain ⟨encoded, hencode, hlength⟩ := encode_set_command hlimit
  have hsubmitted := crowded_leader_submitted hencode (by rw [hlength, hvalue]; decide)
  cases hframe : RaftProtocol.encode 1 ((crowdedLeader encoded).makeAppendEntries 2).payload with
  | error error => exact ⟨encoded, error, hencode, hsubmitted, hframe⟩
  | ok frame =>
    obtain ⟨-, -, hbody, -⟩ := RaftProtocol.encode_eq_ok.mp hframe
    rw [length_replication_request, crowded_leader_window, hlength, hvalue] at hbody
    exact absurd hbody (by decide)

end DistributedKV
