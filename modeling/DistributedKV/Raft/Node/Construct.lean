import DistributedKV.Raft.Node.State

/-!
# Construction and restart

The constructor of `src/raft/raft_node.cpp`: the checks on the configuration, the durable state
that is loaded when there is a persistence barrier, the configuration it starts from and the
pending change it recovers. A restart is a construction over the states saved so far.
-/

namespace DistributedKV

/-- The timing and batching parameters are usable and the node has an id. -/
def NodeConfig.parametersValid (config : NodeConfig) : Bool :=
  config.nodeId != 0 && config.electionTimeoutMinMs != 0 &&
    decide (config.electionTimeoutMinMs ≤ config.electionTimeoutMaxMs) &&
    config.heartbeatIntervalMs != 0 &&
    decide (config.heartbeatIntervalMs < config.electionTimeoutMinMs) &&
    config.maximumEntriesPerAppend != 0

/-- No id is zero and none occurs twice, also among the ids seen before. -/
def distinctIds (seen ids : List NodeId) : Bool :=
  decide ((seen ++ ids).Nodup) && !ids.contains 0

namespace RaftNode

/-- A node before anything is loaded. A zero seed is replaced by the node's id. -/
def fresh (config : NodeConfig) (persistence : Option RaftPersistence) : RaftNode :=
  { config
    persistence
    randomState := if config.randomSeed = 0 then config.nodeId else config.randomSeed }

/-- Take over term, vote, log and commit index of a loaded state that is not the initial one. -/
def restoreDurable (node : RaftNode) (state : RaftPersistentState) : Except String RaftNode :=
  if state = {} then .ok node
  else if state.currentTerm = 0 then .error "invalid Raft persistent state"
  else
    match state.entries.getLast? with
    | none => .error "invalid Raft persistent state"
    | some last =>
      if last.index < state.commitIndex then .error "invalid Raft persistent state"
      else
        match RaftLog.restore state.entries with
        | .error error => .error (errorOr error "invalid Raft persistent state")
        | .ok log =>
          if state.entries.any fun entry => decide (state.currentTerm < entry.term) then
            .error "persistent log contains a future-term entry"
          else
            .ok { node with
              currentTerm := state.currentTerm
              votedFor := state.votedFor
              log
              commitIndex := state.commitIndex }

/-- The peers of a loaded stable configuration, followed by the joint one's new members. -/
def loadedPeers (cluster : ClusterConfiguration) (joint : Option ClusterConfiguration)
    (self : NodeId) : List NodeId :=
  match joint with
  | none => applyPeersFromConfiguration cluster self
  | some joint =>
    (configurationMemberIds joint).foldl
      (fun peers id => if id ∉ peers ∧ id ≠ self then peers ++ [id] else peers)
      (applyPeersFromConfiguration cluster self)

/-- Start from a loaded stable configuration. -/
def restoreConfiguration (node : RaftNode) (cluster : ClusterConfiguration)
    (joint : Option ClusterConfiguration) : Except String RaftNode :=
  match validateClusterConfiguration cluster 0 with
  | .error error => .error (errorOr error "invalid persisted cluster configuration")
  | .ok () =>
    .ok { node with
      clusterConfig := some cluster
      jointConfig := joint
      config := { node.config with
        learner := !(configurationMemberIds cluster).contains node.config.nodeId
        peers := loadedPeers cluster joint node.config.nodeId }
      configurationAppliedIndex := node.commitIndex }

/-- Start from the bootstrap configuration, when there is one. -/
def bootstrapConfiguration (node : RaftNode) : Except String RaftNode :=
  match node.config.bootstrapCluster with
  | none => .ok node
  | some cluster =>
    match validateClusterConfiguration cluster
        (if node.config.learner then 0 else node.config.nodeId) with
    | .error error => .error (errorOr error "invalid bootstrap cluster configuration")
    | .ok () =>
      .ok { node with
        clusterConfig := some cluster
        config := { node.config with
          peers := applyPeersFromConfiguration cluster node.config.nodeId } }

/-- Start from the loaded configuration, or from the bootstrap one when none was saved. -/
def startConfiguration (node : RaftNode) (state : RaftPersistentState) : Except String RaftNode :=
  match state.clusterConfig with
  | some cluster => node.restoreConfiguration cluster state.jointConfig
  | none => node.bootstrapConfiguration

/-- The check of an optional membership operation. -/
def checkOperation : Option MembershipOperation → Except String Unit
  | none => .ok ()
  | some operation =>
    match validateMembershipOperation operation with
    | .ok () => .ok ()
    | .error error => .error (errorOr error "invalid persisted membership operation")

/-- Take over the membership operations of a loaded state. -/
def restoreOperations (node : RaftNode) (state : RaftPersistentState) : Except String RaftNode := do
  checkOperation state.activeMembershipOperation
  checkOperation state.completedMembershipOperation
  if state.activeMembershipOperation.isSome = true ∧ node.jointConfig.isNone = true then
    .error "active membership operation has no joint configuration"
  else
    .ok { node with
      activeMembershipOperation := state.activeMembershipOperation
      completedMembershipOperation := state.completedMembershipOperation }

/-- A loaded vote must name a member. -/
def checkVote (node : RaftNode) (state : RaftPersistentState) : Except String Unit :=
  match state.votedFor with
  | none => .ok ()
  | some candidate =>
    if node.isMember candidate then .ok ()
    else .error "persistent vote is outside cluster membership"

/-- The change an index holds, when it leads to a target. -/
def changeTowards (node : RaftNode) (target : ClusterConfiguration) (index : Nat) :
    Option (Nat × ConfChangeEntry) :=
  match node.log.entryAt index >>= changeOf with
  | none => none
  | some change => if change.targetConfig = target then some (index, change) else none

/-- Remember the first uncommitted change that leads to the joint configuration, and its
operation when none was loaded. -/
def recoverPending (node : RaftNode) : RaftNode :=
  match node.jointConfig with
  | none => node
  | some joint =>
    let first := node.commitIndex + 1
    match (List.range' first (node.log.lastIndex + 1 - first)).findSome?
        (node.changeTowards joint) with
    | none => node
    | some (index, change) =>
      { node with
        pendingConfChangeIndex := some index
        activeMembershipOperation :=
          if change.operationId ≠ 0 ∧ node.activeMembershipOperation.isNone = true then
            some { operationId := change.operationId, type := change.type
                   member := change.member }
          else node.activeMembershipOperation }

/-- Everything the constructor takes from a loaded state. -/
def restoreState (node : RaftNode) (state : RaftPersistentState) : Except String RaftNode := do
  let node ← node.restoreDurable state
  let node ← node.startConfiguration state
  let node ← node.restoreOperations state
  node.checkVote state
  pure node.recoverPending

/-- Construct a node, or refuse its configuration or its persistent state. -/
def construct (config : NodeConfig) (persistence : Option RaftPersistence) :
    Except String RaftNode :=
  if config.parametersValid = false then .error "invalid Raft node configuration"
  else if distinctIds [config.nodeId] config.peers = false then
    .error "Raft membership contains duplicate id"
  else if distinctIds (config.nodeId :: config.peers) config.learners = false then
    .error "Raft learner membership contains duplicate id"
  else
    let node := fresh config persistence
    match persistence with
    | none => node.bootstrapConfiguration.map resetElectionTimer
    | some barrier =>
      match barrier.load with
      | .error error => .error (errorOr error "Raft persistent-state load failed")
      | .ok state => (node.restoreState state).map resetElectionTimer

end RaftNode

end DistributedKV
