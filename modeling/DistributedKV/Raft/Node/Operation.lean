import DistributedKV.Raft.Node.Membership
import DistributedKV.Raft.Node.Construct

/-!
# The public operations of a node

One data type for the calls that change a `RaftNode`, and their execution. The handlers of
requests carry the node the request came from, to which their answer is addressed.
-/

namespace DistributedKV

/-- A call of a public operation. -/
inductive Operation where
  | tick (elapsedMs : Nat)
  | handleRequestVote (source : NodeId) (request : RequestVoteRequest)
  | handleRequestVoteResponse (source : NodeId) (response : RequestVoteResponse)
  | handleAppendEntries (source : NodeId) (request : AppendEntriesRequest)
  | handleAppendEntriesResponse (source : NodeId) (response : AppendEntriesResponse)
  | propose (command : Bytes)
  | proposeConfChange (type : ConfChangeType) (member : ClusterMember) (operationId : UInt64)
  | addLearner (learner : NodeId)
  | compactLogPrefix (boundaryIndex boundaryTerm : Nat)
  | acknowledgeLeader (term : Nat) (leader : NodeId)
  | applySnapshotBoundary (boundaryIndex boundaryTerm : Nat)
  | replaceLogWithSnapshotBoundary (boundaryIndex boundaryTerm : Nat)
  | onInstallSnapshotSuccess (peer : NodeId) (lastIncludedIndex : Nat)
  | observeHigherTerm (term : Nat)
  deriving DecidableEq, Repr

namespace RaftNode

/-- Execute an operation; the result is what the node sends. -/
def perform : Operation → RaftM (List OutboundRpc)
  | .tick elapsedMs => tick elapsedMs
  | .handleRequestVote source request => do
      let response ← handleRequestVote request
      pure [{ destination := source, payload := .requestVoteResponse response }]
  | .handleRequestVoteResponse source response => handleRequestVoteResponse source response
  | .handleAppendEntries source request => do
      let response ← handleAppendEntries request
      pure [{ destination := source, payload := .appendEntriesResponse response }]
  | .handleAppendEntriesResponse source response => handleAppendEntriesResponse source response
  | .propose command => do
      let result ← propose command
      pure result.outbound
  | .proposeConfChange type member operationId => do
      let result ← proposeConfChange type member operationId
      pure result.outbound
  | .addLearner learner => do
      let _ ← addLearner learner
      pure []
  | .compactLogPrefix boundaryIndex boundaryTerm => do
      let _ ← compactLogPrefix boundaryIndex boundaryTerm
      pure []
  | .acknowledgeLeader term leader => do
      let _ ← acknowledgeLeader term leader
      pure []
  | .applySnapshotBoundary boundaryIndex boundaryTerm => do
      let _ ← applySnapshotBoundary boundaryIndex boundaryTerm
      pure []
  | .replaceLogWithSnapshotBoundary boundaryIndex boundaryTerm => do
      let _ ← replaceLogWithSnapshotBoundary boundaryIndex boundaryTerm
      pure []
  | .onInstallSnapshotSuccess peer lastIncludedIndex => do
      onInstallSnapshotSuccess peer lastIncludedIndex
      pure []
  | .observeHigherTerm term => do
      observeHigherTerm term
      pure []

/-- The states a node has saved, most recent first. -/
def saved (node : RaftNode) : List RaftPersistentState :=
  (node.persistence.map (·.saved)).getD []

/-- The node an operation leaves behind, also when it throws. -/
def after (node : RaftNode) (operation : Operation) : RaftNode :=
  match perform operation node with
  | .ok _ node => node
  | .error _ node => node

/-- Construct the node again from some of its saved states. -/
def restart (config : NodeConfig) (node : RaftNode) (saved : List RaftPersistentState) :
    Except String RaftNode :=
  construct config (node.persistence.map fun persistence => { persistence with saved })

end RaftNode

end DistributedKV
