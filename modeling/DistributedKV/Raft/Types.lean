import Mathlib.Algebra.Order.Group.Nat
import Mathlib.Data.Finset.Card

/-!
# Raft data types

The identifiers, log entries and RPC payloads of `src/raft/types.h`. Node identifiers are
the source's 64-bit words, since they are only compared and encoded. Terms and log indexes
are natural numbers: the source guards the one place where a term could wrap
(`startElection`), and a log index cannot wrap before the vector that holds the entries
has exhausted memory. Byte strings are lists of octets.
-/

namespace DistributedKV

/-- The contents of a `std::string` used as a byte buffer. -/
abbrev Bytes := List UInt8

/-- `NodeId` of the source, a 64-bit word that is zero for no node. -/
abbrev NodeId := UInt64

/-- `std::numeric_limits<std::uint64_t>::max()`. -/
def uint64Max : Nat := 2 ^ 64 - 1

/-- The three roles of a node. -/
inductive Role where
  | follower
  | candidate
  | leader
  deriving DecidableEq, Repr

/-- The kinds of log entry; each carries the code the source gives it on the wire. -/
inductive EntryType where
  | noOp
  | command
  | confChange
  deriving DecidableEq, Repr

/-- One replicated log entry. Equality compares all four fields, as `operator==` does. -/
structure LogEntry where
  index : Nat := 0
  term : Nat := 0
  type : EntryType := .noOp
  command : Bytes := []
  deriving DecidableEq, Repr

/-- A candidate's request for a vote. -/
structure RequestVoteRequest where
  term : Nat
  candidateId : NodeId
  lastLogIndex : Nat
  lastLogTerm : Nat
  deriving DecidableEq, Repr

/-- The answer to a vote request. `electionTerm` echoes the request's term. -/
structure RequestVoteResponse where
  term : Nat
  electionTerm : Nat
  voteGranted : Bool
  deriving DecidableEq, Repr

/-- A leader's replication request; with no entries it is a heartbeat. -/
structure AppendEntriesRequest where
  term : Nat
  leaderId : NodeId
  previousLogIndex : Nat
  previousLogTerm : Nat
  entries : List LogEntry
  leaderCommit : Nat
  readContext : Nat := 0
  deriving DecidableEq, Repr

/-- A follower's answer to a replication request, with hints for a rejected one. -/
structure AppendEntriesResponse where
  term : Nat
  success : Bool
  requestPreviousLogIndex : Nat
  requestEntryCount : Nat
  matchIndex : Nat
  conflictIndex : Nat := 1
  conflictTerm : Option Nat := none
  readContext : Nat := 0
  deriving DecidableEq, Repr

/-- One chunk of a snapshot file. -/
structure InstallSnapshotRequest where
  term : Nat
  leaderId : NodeId
  lastIncludedIndex : Nat
  lastIncludedTerm : Nat
  offset : Nat
  done : Bool
  data : Bytes
  deriving DecidableEq, Repr

/-- The answer to a snapshot chunk. -/
structure InstallSnapshotResponse where
  term : Nat
  success : Bool
  deriving DecidableEq, Repr

/-- The six payloads that travel between nodes. -/
inductive RpcPayload where
  | requestVote (request : RequestVoteRequest)
  | requestVoteResponse (response : RequestVoteResponse)
  | appendEntries (request : AppendEntriesRequest)
  | appendEntriesResponse (response : AppendEntriesResponse)
  | installSnapshot (request : InstallSnapshotRequest)
  | installSnapshotResponse (response : InstallSnapshotResponse)
  deriving DecidableEq, Repr

/-- A payload together with the node it is addressed to. -/
structure OutboundRpc where
  destination : NodeId
  payload : RpcPayload
  deriving DecidableEq, Repr

/-- The outcome of a proposal: whether a leader took it, where, and what to send. -/
structure ProposeResult where
  accepted : Bool := false
  index : Nat := 0
  outbound : List OutboundRpc := []
  deriving DecidableEq, Repr

end DistributedKV
