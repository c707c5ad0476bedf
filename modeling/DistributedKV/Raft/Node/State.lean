import DistributedKV.Raft.Algorithms
import DistributedKV.Raft.ClusterConfig

/-!
# The Raft node

The state of the consensus node of `src/raft/raft_node.cpp` and the helpers that read or
update it without failing. Operations that can throw run in `RaftM`, which keeps the node as
it was when the exception left the operation.
-/

namespace DistributedKV

open ByteReader (ReadError)

/-- The durable image of a node. -/
structure RaftPersistentState where
  currentTerm : Nat := 0
  votedFor : Option NodeId := none
  entries : List LogEntry := []
  commitIndex : Nat := 0
  clusterConfig : Option ClusterConfiguration := none
  jointConfig : Option ClusterConfiguration := none
  activeMembershipOperation : Option MembershipOperation := none
  completedMembershipOperation : Option MembershipOperation := none
  deriving DecidableEq, Repr

/-- A persistence barrier: the answers it gives to a save, which may depend on what it has saved
before, and to a load, and the states it has saved, most recent first. -/
structure RaftPersistence where
  save : List RaftPersistentState → RaftPersistentState → Except String Unit
  loadAnswer : Except String Unit := .ok ()
  saved : List RaftPersistentState := []

/-- The latest saved state, or the term-zero state when there is none. -/
def RaftPersistence.latest (persistence : RaftPersistence) : RaftPersistentState :=
  persistence.saved.head?.getD {}

/-- Load the latest saved state. -/
def RaftPersistence.load (persistence : RaftPersistence) :
    Except String RaftPersistentState :=
  persistence.loadAnswer.map fun _ => persistence.latest

/-- The configuration a node is constructed with. -/
structure NodeConfig where
  nodeId : NodeId := 0
  peers : List NodeId := []
  bootstrapCluster : Option ClusterConfiguration := none
  electionTimeoutMinMs : Nat := 150
  electionTimeoutMaxMs : Nat := 300
  heartbeatIntervalMs : Nat := 50
  maximumEntriesPerAppend : Nat := 64
  randomSeed : UInt64 := 1
  learners : List NodeId := []
  learner : Bool := false
  deriving DecidableEq, Repr

/-- The state of a node. -/
structure RaftNode where
  config : NodeConfig
  persistence : Option RaftPersistence := none
  role : Role := .follower
  currentTerm : Nat := 0
  votedFor : Option NodeId := none
  leaderId : Option NodeId := none
  log : RaftLog := .empty
  commitIndex : Nat := 0
  electionElapsedMs : Nat := 0
  heartbeatElapsedMs : Nat := 0
  electionTimeoutMs : Nat := 0
  randomState : UInt64 := 1
  votesReceived : Finset NodeId := ∅
  nextIndex : NodeId → Option Nat := fun _ => none
  matchIndex : NodeId → Option Nat := fun _ => none
  clusterConfig : Option ClusterConfiguration := none
  jointConfig : Option ClusterConfiguration := none
  activeMembershipOperation : Option MembershipOperation := none
  completedMembershipOperation : Option MembershipOperation := none
  configurationAppliedIndex : Nat := 0
  pendingConfChangeIndex : Option Nat := none

/-- Operations that may throw an error text. The node at the point of the throw is kept. -/
abbrev RaftM := EStateM String RaftNode

/-- The peers of a configuration: its members without the node itself. -/
def applyPeersFromConfiguration (config : ClusterConfiguration) (self : NodeId) : List NodeId :=
  (configurationMemberIds config).filter (· != self)

/-- Addition that stops at the largest 64-bit word. -/
def saturatingAdd (value delta : Nat) : Nat :=
  if uint64Max - value < delta then uint64Max else value + delta

/-- The text of a decoding failure. -/
def decodeErrorText (error : ReadError) : String :=
  match error with
  | .outOfBounds => ""
  | .refused message => message

/-- The error text, or a fallback when it is empty. -/
def errorOr (error fallback : String) : String := if error = "" then fallback else error

namespace RaftNode

/-! ## Local helpers -/

/-- One step of the 64-bit shift-register generator. -/
def nextRandom (state : UInt64) : UInt64 :=
  let state := state ^^^ (state <<< 13)
  let state := state ^^^ (state >>> 7)
  let state := state ^^^ (state <<< 17)
  if state = 0 then 0x9e3779b97f4a7c15 else state

/-- Draw a new election timeout from the configured range. -/
def resetElectionTimer (node : RaftNode) : RaftNode :=
  let randomState := nextRandom node.randomState
  let span := node.config.electionTimeoutMaxMs - node.config.electionTimeoutMinMs
  { node with
    randomState
    electionTimeoutMs := node.config.electionTimeoutMinMs + randomState.toNat % (span + 1) }

/-- Self, a voting peer or a learner. -/
def isMember (node : RaftNode) (id : NodeId) : Bool :=
  id == node.config.nodeId || node.config.peers.contains id || node.config.learners.contains id

/-- A voting peer, or self unless this node is a learner. -/
def isVotingMember (node : RaftNode) (id : NodeId) : Bool :=
  if id = node.config.nodeId then !node.config.learner else node.config.peers.contains id

/-- The majority of the peers and self. -/
def quorumSize (node : RaftNode) : Nat :=
  LeaderElection.quorumSize (node.config.peers.length + 1)

/-- The number of members of a configuration with a property. -/
def countMembers (holds : NodeId → Bool) (config : ClusterConfiguration) : Nat :=
  (config.members.filter fun member => holds member.nodeId).length

/-- Enough votes for leadership: in joint consensus, a majority of both configurations. -/
def hasElectionQuorum (node : RaftNode) : Bool :=
  match node.clusterConfig, node.jointConfig with
  | some cluster, some joint =>
    LeaderElection.hasQuorum (countMembers (fun id => decide (id ∈ node.votesReceived)) cluster)
        cluster.members.length &&
      LeaderElection.hasQuorum (countMembers (fun id => decide (id ∈ node.votesReceived)) joint)
        joint.members.length
  | _, _ => decide (node.quorumSize ≤ node.votesReceived.card)

/-- Whether a member is known to hold the log up to an index. -/
def replicated (node : RaftNode) (index : Nat) (id : NodeId) : Bool :=
  if id = node.config.nodeId then decide (index ≤ node.log.lastIndex)
  else
    match node.matchIndex id with
    | some matched => decide (index ≤ matched)
    | none => false

/-- Enough replicas to commit an index: in joint consensus, a majority of both
configurations. -/
def hasReplicationQuorum (node : RaftNode) (index : Nat) : Bool :=
  match node.clusterConfig, node.jointConfig with
  | some cluster, some joint =>
    LeaderElection.hasQuorum (countMembers (node.replicated index) cluster)
        cluster.members.length &&
      LeaderElection.hasQuorum (countMembers (node.replicated index) joint)
        joint.members.length
  | _, _ =>
    LeaderElection.hasQuorum
      ((if node.replicated index node.config.nodeId then 1 else 0) +
        (node.config.peers.filter (node.replicated index)).length)
      (node.config.peers.length + 1)

/-- Step down, forgetting the vote when the term is new. -/
def becomeFollower (node : RaftNode) (term : Nat) (leader : Option NodeId) : RaftNode :=
  let node := if node.currentTerm < term then { node with currentTerm := term, votedFor := none }
    else node
  { node with
    role := .follower
    leaderId := leader
    votesReceived := ∅
    nextIndex := fun _ => none
    matchIndex := fun _ => none
    heartbeatElapsedMs := 0
    electionElapsedMs := 0 }.resetElectionTimer

/-- Follow the leader of a term that is not older than the node's. -/
def followLeader (node : RaftNode) (term : Nat) (leader : NodeId) : RaftNode :=
  if node.currentTerm < term ∨ node.role ≠ .follower then node.becomeFollower term (some leader)
  else { node with leaderId := some leader, electionElapsedMs := 0 }.resetElectionTimer

/-- The replication request for a peer, from its cursor on. -/
def makeAppendEntries (node : RaftNode) (peer : NodeId) : OutboundRpc :=
  let next := (node.nextIndex peer).getD (node.log.lastIndex + 1)
  let previous := next - 1
  { destination := peer
    payload := .appendEntries
      { term := node.currentTerm
        leaderId := node.config.nodeId
        previousLogIndex := previous
        previousLogTerm := (node.log.termAt previous).getD 0
        entries := node.log.entriesFrom next node.config.maximumEntriesPerAppend
        leaderCommit := node.commitIndex } }

/-- One replication request for every peer and every learner. -/
def replicateToAll (node : RaftNode) : List OutboundRpc :=
  (node.config.peers ++ node.config.learners).map node.makeAppendEntries

/-- Whether a learner holds everything that is committed. -/
def learnerCaughtUp (node : RaftNode) (learner : NodeId) : Bool :=
  node.config.learners.contains learner &&
    match node.matchIndex learner with
    | some matched => decide (node.commitIndex ≤ matched)
    | none => false

/-- The first member of one configuration that is missing from another. -/
def missingMember (from_ without : ClusterConfiguration) : Option ClusterMember :=
  from_.members.find? fun member => !(configurationMemberIds without).contains member.nodeId

/-- The entry that leaves joint consensus, rebuilt from the difference of the two
configurations when it is a single member. -/
def makeJointExitEntry (node : RaftNode) : Option ConfChangeEntry :=
  match node.clusterConfig, node.jointConfig with
  | some cluster, some joint =>
    let operationId := (node.activeMembershipOperation.map (·.operationId)).getD 0
    if joint.members.length = cluster.members.length + 1 then
      (missingMember joint cluster).map fun member =>
        { type := .addNode, joint := false, member, targetConfig := joint, operationId }
    else if cluster.members.length = joint.members.length + 1 then
      (missingMember cluster joint).map fun member =>
        { type := .removeNode, joint := false, member := { nodeId := member.nodeId }
          targetConfig := joint, operationId }
    else none
  | _, _ => none

/-- The configuration change an entry carries, when it is one and decodes. -/
def changeOf (entry : LogEntry) : Option ConfChangeEntry :=
  if entry.type = .confChange then (decodeConfChangeEntry entry.command).toOption else none

/-- The state handed to persistence. -/
def persistentState (node : RaftNode) : RaftPersistentState where
  currentTerm := node.currentTerm
  votedFor := node.votedFor
  entries := node.log.persistentEntries
  commitIndex := node.commitIndex
  clusterConfig := node.clusterConfig
  jointConfig := node.jointConfig
  activeMembershipOperation := node.activeMembershipOperation
  completedMembershipOperation := node.completedMembershipOperation

end RaftNode

end DistributedKV
