import DistributedKV.Raft.Node.Replication
import Mathlib.Data.List.Sort

/-!
# Membership changes and snapshot boundaries

The proposal of a configuration change, learners, read barriers, and the operations the
service calls around snapshots.
-/

namespace DistributedKV

namespace RaftNode

/-- The target of a change, when the change is admissible on the stable configuration. -/
def changeTarget (node : RaftNode) (cluster : ClusterConfiguration) (type : ConfChangeType)
    (member : ClusterMember) : Option ClusterConfiguration :=
  let found := (configurationMemberIds cluster).contains member.nodeId
  if cluster.configId.toNat = uint64Max then none
  else
    match type with
    | .addNode =>
      if member.nodeId = 0 ∨ found = true ∨ node.learnerCaughtUp member.nodeId = false then none
      else
        some { configId := cluster.configId + 1
               members := (cluster.members ++ [member]).insertionSort
                 fun left right => left.nodeId ≤ right.nodeId }
    | .removeNode =>
      if found = false ∨ member.nodeId = node.config.nodeId ∨ cluster.members.length ≤ 1 then none
      else
        some { configId := cluster.configId + 1
               members := cluster.members.eraseP fun other => other.nodeId == member.nodeId }

/-- Whether an operation id lets a change start: zero is anonymous, any other must name a valid
operation while none is active. -/
def operationAdmitted (node : RaftNode) (operation : MembershipOperation) : Bool :=
  operation.operationId == 0 ||
    ((validateMembershipOperation operation).isOk && node.activeMembershipOperation.isNone)

/-- The leader with a proposed joint configuration in force. -/
def proposeJoint (node : RaftNode) (cluster : ClusterConfiguration) (change : ConfChangeEntry) :
    RaftNode :=
  { node.enterJoint change with
    config := { node.config with
      peers := (jointMemberIds cluster change.targetConfig).filter (· != node.config.nodeId)
      learners := node.config.learners.filter (· != change.member.nodeId) } }

/-- Propose a membership change on the leader. The source repeats the test for a joint
configuration further down; the branches behind those repetitions cannot be reached. The
joint configuration is in force before the entry is encoded. -/
def proposeConfChange (type : ConfChangeType) (member : ClusterMember) (operationId : UInt64) :
    RaftM ProposeResult := do
  let node ← get
  match node.clusterConfig with
  | none => pure {}
  | some cluster =>
    if node.role ≠ .leader ∨ node.pendingConfChangeIndex.isSome = true ∨
        node.jointConfig.isSome = true ∨
        node.operationAdmitted { operationId, type, member } = false then pure {}
    else
      match node.changeTarget cluster type member with
      | none => pure {}
      | some targetConfig =>
        match validateClusterConfiguration targetConfig node.config.nodeId with
        | .error _ => pure {}
        | .ok () =>
          let change : ConfChangeEntry :=
            { type, joint := true, member, targetConfig, operationId }
          let node := node.proposeJoint cluster change
          set node
          match encodeConfChangeEntry change with
          | .error _ => pure {}
          | .ok encoded =>
            let index := node.log.lastIndex + 1
            set { node with
              log := node.log.append node.currentTerm .confChange encoded
              pendingConfChangeIndex := some index }
            persistOrThrow
            advanceCommitIndex
            let leader ← get
            pure { accepted := true, index, outbound := leader.replicateToAll }

/-- Start replicating to a non-voting node. -/
def addLearner (learner : NodeId) : RaftM Bool := do
  let node ← get
  if node.role ≠ .leader ∨ learner = 0 ∨ learner = node.config.nodeId ∨
      node.isMember learner = true then pure false
  else
    set { node with
      config := { node.config with learners := node.config.learners ++ [learner] }
      nextIndex := Function.update node.nextIndex learner (some (max 1 node.log.firstIndex))
      matchIndex := Function.update node.matchIndex learner (some 0) }
    pure true

/-- Replication requests tagged with a read context. -/
def makeReadBarrier (node : RaftNode) (readContext : Nat) : List OutboundRpc :=
  if node.role ≠ .leader ∨ readContext = 0 then []
  else
    node.replicateToAll.map fun rpc =>
      match rpc.payload with
      | .appendEntries request =>
        { rpc with payload := .appendEntries { request with readContext } }
      | _ => rpc

/-! ## Snapshots -/

/-- Compact the log up to a boundary and save. -/
def compactLogPrefix (boundaryIndex boundaryTerm : Nat) : RaftM (Except String Unit) := do
  let node ← get
  match node.log.compactTo boundaryIndex boundaryTerm with
  | .error error => pure (.error error)
  | .ok log =>
    set { node with log }
    persistOrThrow
    pure (.ok ())

/-- Whether a peer's cursor is behind the boundary of the leader's log. -/
def peerNeedsSnapshot (node : RaftNode) (peer : NodeId) : Bool :=
  node.role == .leader &&
    match node.nextIndex peer, node.matchIndex peer with
    | some next, some matched =>
      decide (next ≤ node.log.firstIndex) ||
        (decide (0 < node.log.firstIndex) && decide (matched < node.log.firstIndex))
    | _, _ => false

/-- Accept the leader of a term; a new term is saved. -/
def acknowledgeLeader (term : Nat) (leader : NodeId) : RaftM Bool := do
  let node ← get
  if node.isMember leader = false ∨ term < node.currentTerm then pure false
  else
    set (node.followLeader term leader)
    persistIf (decide (node.currentTerm < term))
    pure true

/-- Compact the log to a snapshot boundary, moving the commit index up to it. -/
def applySnapshotBoundary (boundaryIndex boundaryTerm : Nat) : RaftM (Except String Unit) := do
  let node ← get
  match node.log.compactTo boundaryIndex boundaryTerm with
  | .error error => pure (.error error)
  | .ok log =>
    set { node with
      log
      commitIndex :=
        if node.commitIndex < boundaryIndex then min boundaryIndex log.lastIndex
        else node.commitIndex }
    persistOrThrow
    pure (.ok ())

/-- Replace the whole log by a snapshot boundary, moving the commit index up to it. -/
def replaceLogWithSnapshotBoundary (boundaryIndex boundaryTerm : Nat) :
    RaftM (Except String Unit) := do
  let node ← get
  match RaftLog.restore
      [{ index := boundaryIndex, term := boundaryTerm, type := .noOp, command := [] }] with
  | .error error => pure (.error error)
  | .ok log =>
    set { node with log, commitIndex := max node.commitIndex boundaryIndex }
    persistOrThrow
    pure (.ok ())

/-- Credit a peer with an installed snapshot. -/
def onInstallSnapshotSuccess (peer : NodeId) (lastIncludedIndex : Nat) : RaftM Unit := do
  let node ← get
  if node.role ≠ .leader ∨ node.log.lastIndex < lastIncludedIndex then pure ()
  else
    match node.nextIndex peer, node.matchIndex peer with
    | some next, some matched =>
      set { node with
        matchIndex := Function.update node.matchIndex peer (some (max matched lastIncludedIndex))
        nextIndex := Function.update node.nextIndex peer (some (max next (lastIncludedIndex + 1))) }
      advanceCommitIndex
    | _, _ => pure ()

/-- Step down for a newer term. -/
def observeHigherTerm (term : Nat) : RaftM Unit := do
  let node ← get
  if node.currentTerm < term then
    set (node.becomeFollower term none)
    persistOrThrow
  else pure ()

end RaftNode

end DistributedKV
