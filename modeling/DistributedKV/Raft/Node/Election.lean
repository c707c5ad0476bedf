import DistributedKV.Raft.Node.Configuration

/-!
# Logical time and elections

The timer, candidacy, the two sides of a vote and the takeover of leadership.
-/

namespace DistributedKV

namespace RaftNode

/-- The leader's cursors on election: one past the log for every peer and learner. -/
def initialCursors (node : RaftNode) (value : Nat) (id : NodeId) : Option Nat :=
  if id ∈ node.config.peers ++ node.config.learners then some value else none

/-- The leader a candidate turns into, with its cursors reset and a no-op appended. -/
def takeover (node : RaftNode) : RaftNode :=
  { node with
    role := .leader
    leaderId := some node.config.nodeId
    votesReceived := ∅
    heartbeatElapsedMs := 0
    nextIndex := node.initialCursors (node.log.lastIndex + 1)
    matchIndex := node.initialCursors 0
    log := node.log.append node.currentTerm .noOp [] }

/-- Take over leadership, find or append the exit of a joint configuration, save and
replicate. -/
def becomeLeader : RaftM (List OutboundRpc) := do
  modify takeover
  recoverJointExitEntry
  persistOrThrow
  advanceCommitIndex
  let node ← get
  pure node.replicateToAll

/-- The candidate a node turns into when its election timer fires. -/
def candidacy (node : RaftNode) : RaftNode :=
  { node with
    role := .candidate
    currentTerm := node.currentTerm + 1
    votedFor := some node.config.nodeId
    leaderId := none
    votesReceived := {node.config.nodeId}
    electionElapsedMs := 0 }.resetElectionTimer

/-- The vote requests of a candidate. -/
def voteRequests (node : RaftNode) : List OutboundRpc :=
  node.config.peers.map fun peer =>
    { destination := peer
      payload := .requestVote
        { term := node.currentTerm
          candidateId := node.config.nodeId
          lastLogIndex := node.log.lastIndex
          lastLogTerm := node.log.lastTerm } }

/-- Start an election in the next term; a lone voter wins at once. -/
def startElection : RaftM (List OutboundRpc) := do
  let node ← get
  if node.config.learner = true ∨ node.currentTerm = uint64Max then pure []
  else
    set node.candidacy
    persistOrThrow
    let node ← get
    if node.hasElectionQuorum then becomeLeader
    else pure node.voteRequests

/-- Advance logical time: heartbeats for a leader, an election for the others. -/
def tick (elapsedMs : Nat) : RaftM (List OutboundRpc) := do
  let node ← get
  if node.config.learner then pure []
  else if node.role = .leader then
    let elapsed := saturatingAdd node.heartbeatElapsedMs elapsedMs
    if node.config.heartbeatIntervalMs ≤ elapsed then
      let node := { node with heartbeatElapsedMs := 0 }
      set node
      pure node.replicateToAll
    else
      set { node with heartbeatElapsedMs := elapsed }
      pure []
  else
    let elapsed := saturatingAdd node.electionElapsedMs elapsedMs
    set { node with electionElapsedMs := elapsed }
    if node.electionTimeoutMs ≤ elapsed then startElection else pure []

/-- Whether the vote of the term is free for the candidate and its log is fresh enough. -/
def grantsVote (node : RaftNode) (request : RequestVoteRequest) : Bool :=
  (node.votedFor == none || node.votedFor == some request.candidateId) &&
    LeaderElection.isCandidateLogUpToDate request.lastLogIndex request.lastLogTerm node.log

/-- The node after it has voted for a candidate. -/
def withVote (node : RaftNode) (candidate : NodeId) : RaftNode :=
  { node with votedFor := some candidate, electionElapsedMs := 0 }.resetElectionTimer

/-- Grant or refuse a vote; a new term or a new vote is saved before the answer. -/
def handleRequestVote (request : RequestVoteRequest) : RaftM RequestVoteResponse := do
  let node ← get
  if node.config.learner = true ∨ node.isVotingMember request.candidateId = false ∨
      request.term < node.currentTerm then
    pure { term := node.currentTerm, electionTerm := request.term, voteGranted := false }
  else
    let termIncreased := decide (node.currentTerm < request.term)
    let node := if termIncreased then node.becomeFollower request.term none else node
    let granted := node.grantsVote request
    let changed := termIncreased || (granted && node.votedFor != some request.candidateId)
    set (if granted then node.withVote request.candidateId else node)
    persistIf changed
    let node ← get
    pure { term := node.currentTerm, electionTerm := request.term, voteGranted := granted }

/-- Count a vote; the vote that completes a quorum makes the node leader. -/
def handleRequestVoteResponse (source : NodeId) (response : RequestVoteResponse) :
    RaftM (List OutboundRpc) := do
  let node ← get
  if node.isVotingMember source = false ∨ source = node.config.nodeId then pure []
  else if node.currentTerm < response.term then
    set (node.becomeFollower response.term none)
    persistOrThrow
    pure []
  else if node.role ≠ .candidate ∨ response.term ≠ node.currentTerm ∨
      response.electionTerm ≠ node.currentTerm ∨ response.voteGranted = false then
    pure []
  else
    let node := { node with votesReceived := insert source node.votesReceived }
    set node
    if node.hasElectionQuorum then becomeLeader else pure []

end RaftNode

end DistributedKV
