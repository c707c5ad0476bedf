import DistributedKV.Raft.Node.State

/-!
# Persistence barriers and configuration entries

Saving the durable image, putting joint and stable configurations into force, and the commit
rule of a leader, which applies the configurations it commits before it saves.
-/

namespace DistributedKV

namespace RaftNode

/-- Save the durable image, or throw. -/
def persistOrThrow : RaftM Unit := fun node =>
  match node.persistence with
  | none => .ok () node
  | some persistence =>
    match persistence.save persistence.saved node.persistentState with
    | .ok () =>
      .ok () { node with
        persistence := some { persistence with
          saved := node.persistentState :: persistence.saved } }
    | .error error => .error (errorOr error "Raft persistence barrier failed") node

/-- Save when something durable has changed. -/
def persistIf (changed : Bool) : RaftM Unit :=
  if changed then persistOrThrow else pure ()

/-- Append the entry that leaves joint consensus and remember where it is. -/
def appendJointExit (fallback : String) : RaftM Unit := do
  let node ← get
  match node.makeJointExitEntry with
  | none => throw "joint configuration has invalid delta"
  | some exit =>
    match encodeConfChangeEntry exit with
    | .error error => throw (errorOr error fallback)
    | .ok encoded =>
      set { node with
        log := node.log.append node.currentTerm .confChange encoded
        pendingConfChangeIndex := some (node.log.lastIndex + 1) }

/-- The voters of two configurations, the first one's before the second's new ones. -/
def jointMemberIds (cluster target : ClusterConfiguration) : List NodeId :=
  configurationMemberIds cluster ++
    (configurationMemberIds target).filter fun id => !(configurationMemberIds cluster).contains id

/-- The node with a joint configuration and its operation in force. -/
def enterJoint (node : RaftNode) (entry : ConfChangeEntry) : RaftNode :=
  { node with
    jointConfig := some entry.targetConfig
    activeMembershipOperation :=
      if entry.operationId ≠ 0 then
        some { operationId := entry.operationId, type := entry.type, member := entry.member }
      else node.activeMembershipOperation }

/-- The node with the peers of both configurations, a voter if the target has it. -/
def adoptJointPeers (node : RaftNode) (cluster target : ClusterConfiguration) : RaftNode :=
  { node with
    config := { node.config with
      peers := (jointMemberIds cluster target).filter (· != node.config.nodeId)
      learner :=
        if (configurationMemberIds target).contains node.config.nodeId then false
        else node.config.learner }
    pendingConfChangeIndex := none }

/-- The node with a new stable configuration and its operation completed. -/
def enterStable (node : RaftNode) (entry : ConfChangeEntry) : RaftNode :=
  { node with
    clusterConfig := some entry.targetConfig
    jointConfig := none
    config := { node.config with
      peers := applyPeersFromConfiguration entry.targetConfig node.config.nodeId
      learner := !(configurationMemberIds entry.targetConfig).contains node.config.nodeId }
    completedMembershipOperation :=
      if entry.operationId ≠ 0 then
        some { operationId := entry.operationId, type := entry.type, member := entry.member }
      else node.completedMembershipOperation
    activeMembershipOperation :=
      if entry.operationId ≠ 0 then none else node.activeMembershipOperation
    pendingConfChangeIndex := none }

/-- Put a configuration entry into force. A leader that applies a joint entry appends the exit
entry. The source dereferences the stable configuration of a joint change unchecked; without
one the behaviour is undefined, and the model faults. -/
def applyConfigurationEntry (entry : ConfChangeEntry) : RaftM Unit := do
  if entry.joint then
    modify (·.enterJoint entry)
    let node ← get
    match node.clusterConfig with
    | none => throw "undefined: no stable configuration"
    | some cluster =>
      let node := node.adoptJointPeers cluster entry.targetConfig
      set node
      if node.role = .leader then appendJointExit "failed to encode joint exit"
      else pure ()
  else modify (·.enterStable entry)

/-- Apply one committed entry to the configuration. -/
def applyCommittedEntry (entry : LogEntry) : RaftM Unit :=
  if entry.type = .confChange then
    match decodeConfChangeEntry entry.command with
    | .error error => throw (errorOr (decodeErrorText error) "invalid committed conf change")
    | .ok change => applyConfigurationEntry change
  else pure ()

/-- The loop of `applyCommittedConfiguration`, with the number of indexes left. -/
def applyCommittedLoop : Nat → RaftM Unit
  | 0 => pure ()
  | count + 1 => do
      let node ← get
      let index := node.configurationAppliedIndex + 1
      match node.log.entryAt index with
      | none => pure ()
      | some entry =>
        applyCommittedEntry entry
        modify fun node => { node with configurationAppliedIndex := index }
        applyCommittedLoop count

/-- Bring the configuration up to the commit index, entry by entry. -/
def applyCommittedConfiguration : RaftM Unit := do
  let node ← get
  applyCommittedLoop (node.commitIndex - node.configurationAppliedIndex)

/-- Whether an index holds an exit entry for a target. -/
def isExitFor (node : RaftNode) (target : ClusterConfiguration) (index : Nat) : Bool :=
  match node.log.entryAt index >>= changeOf with
  | none => false
  | some change => !change.joint && change.targetConfig == target

/-- On election, find the exit entry of the joint configuration or append one. -/
def recoverJointExitEntry : RaftM Unit := do
  let node ← get
  match node.jointConfig with
  | none => pure ()
  | some joint =>
    let first := node.configurationAppliedIndex + 1
    match (List.range' first (node.log.lastIndex + 1 - first)).find? (node.isExitFor joint) with
    | some index => set { node with pendingConfChangeIndex := some index }
    | none => appendJointExit "failed to recover joint exit"

/-- The largest index the leader may commit, scanning down from `commitIndex + count`. -/
def committableIndex (node : RaftNode) : Nat → Nat
  | 0 => node.commitIndex
  | count + 1 =>
    let candidate := node.commitIndex + (count + 1)
    if node.log.termAt candidate = some node.currentTerm ∧
        node.hasReplicationQuorum candidate = true then candidate
    else node.committableIndex count

theorem committable_index_spec (node : RaftNode) (count : Nat) :
    node.committableIndex count = node.commitIndex ∨
      (node.commitIndex < node.committableIndex count ∧
        node.log.termAt (node.committableIndex count) = some node.currentTerm ∧
        node.hasReplicationQuorum (node.committableIndex count) = true) := by
  induction count with
  | zero => exact .inl rfl
  | succ count ih =>
    rw [committableIndex]
    split_ifs with h
    · exact .inr ⟨by omega, h⟩
    · exact ih

/-- Commit what a quorum holds, apply committed configurations and save. -/
def advanceCommitIndex : RaftM Unit := do
  let node ← get
  if node.role ≠ .leader then pure ()
  else
    let commit := node.committableIndex (node.log.lastIndex - node.commitIndex)
    if commit ≠ node.commitIndex then
      set { node with commitIndex := commit }
      applyCommittedConfiguration
      persistOrThrow
    else pure ()

end RaftNode

end DistributedKV
