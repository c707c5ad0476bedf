import DistributedKV.Raft.Node.Election

/-!
# Log replication

The two sides of an append request and the proposal of a client command.
-/

namespace DistributedKV

namespace RaftNode

/-- The rejection of a request whose previous entry the log does not match, with the hints. -/
def appendConflict (log : RaftLog) (request : AppendEntriesRequest)
    (response : AppendEntriesResponse) : Option AppendEntriesResponse :=
  if log.lastIndex < request.previousLogIndex then
    some { response with conflictIndex := log.lastIndex + 1 }
  else
    match log.termAt request.previousLogIndex with
    | some previousTerm =>
      if previousTerm ≠ request.previousLogTerm then
        some { response with
          conflictTerm := some previousTerm
          conflictIndex := (log.firstIndexOfTerm previousTerm).getD (log.firstIndex + 1) }
      else none
    | none =>
      some { response with
        conflictTerm := none
        conflictIndex :=
          if request.previousLogIndex < log.firstIndex then log.firstIndex + 1
          else log.lastIndex + 1 }

/-- The command and the joint flag of an uncommitted pending change. -/
def pendingChange (node : RaftNode) : Option (Bytes × Bool) :=
  match node.pendingConfChangeIndex with
  | none => none
  | some index =>
    if node.commitIndex < index then
      match node.log.entryAt index with
      | none => none
      | some entry => (changeOf entry).map fun change => (entry.command, change.joint)
    else none

/-- The node after a pending change was overwritten in its log. Only a joint one is undone. -/
def dropPending (node : RaftNode) (joint : Bool) : RaftNode :=
  if joint then
    { node with
      jointConfig := none
      activeMembershipOperation := none
      config := { node.config with
        peers :=
          match node.clusterConfig with
          | some cluster => applyPeersFromConfiguration cluster node.config.nodeId
          | none => node.config.peers }
      pendingConfChangeIndex := none }
  else { node with pendingConfChangeIndex := none }

/-- Drop the pending change if the log no longer has its command at the pending index. -/
def rollbackPending (node : RaftNode) (pending : Option (Bytes × Bool)) : RaftNode × Bool :=
  match pending, node.pendingConfChangeIndex with
  | some (command, joint), some index =>
    if (node.log.entryAt index).map (·.command) = some command then (node, false)
    else (node.dropPending joint, true)
  | _, _ => (node, false)

/-- Put the uncommitted joint entries of a request into force; whether there was one. -/
def applyAppended : List LogEntry → RaftM Bool
  | [] => pure false
  | entry :: rest => do
      let node ← get
      match if node.commitIndex < entry.index then changeOf entry else none with
      | none => applyAppended rest
      | some change =>
        if change.joint then
          applyConfigurationEntry change
          modify fun node => { node with pendingConfChangeIndex := some entry.index }
          let _ ← applyAppended rest
          pure true
        else applyAppended rest

/-- Move the commit index to the leader's, up to the end of the log; whether it moved. -/
def followCommit (leaderCommit : Nat) : RaftM Bool := do
  let node ← get
  if node.commitIndex < leaderCommit then
    let commit := min leaderCommit node.log.lastIndex
    if commit ≠ node.commitIndex then
      set { node with commitIndex := commit }
      applyCommittedConfiguration
      pure true
    else pure false
  else pure false

/-- Answer with the current term, after a save when something durable changed. -/
def finishAppend (response : AppendEntriesResponse) (changed : Bool) :
    RaftM AppendEntriesResponse := do
  let node ← get
  persistIf changed
  pure { response with term := node.currentTerm }

/-- The last index a request covers. -/
def lastIndexSent (request : AppendEntriesRequest) : Nat :=
  match request.entries.getLast? with
  | some last => last.index
  | none => request.previousLogIndex

/-- The part of `handleAppendEntries` after the previous entry matched. -/
def appendMatched (request : AppendEntriesRequest) (response : AppendEntriesResponse)
    (termIncreased : Bool) : RaftM AppendEntriesResponse := do
  let node ← get
  match node.log.appendFrom request.previousLogIndex request.entries with
  | .error _ =>
    finishAppend { response with conflictIndex := node.log.lastIndex + 1 } termIncreased
  | .ok log =>
    let (node, rolledBack) := { node with log }.rollbackPending node.pendingChange
    set node
    let joined ← applyAppended request.entries
    let committed ← followCommit request.leaderCommit
    finishAppend
      { response with
        success := true
        matchIndex := lastIndexSent request
        conflictIndex := lastIndexSent request + 1
        conflictTerm := none }
      (termIncreased || !request.entries.isEmpty || rolledBack || joined || committed)

/-- Take over a leader's entries and commit index, or reject with a hint. -/
def handleAppendEntries (request : AppendEntriesRequest) : RaftM AppendEntriesResponse := do
  let node ← get
  let response : AppendEntriesResponse :=
    { term := node.currentTerm
      success := false
      requestPreviousLogIndex := request.previousLogIndex
      requestEntryCount := request.entries.length
      matchIndex := 0
      conflictIndex := node.log.lastIndex + 1
      conflictTerm := none
      readContext := request.readContext }
  if node.isVotingMember request.leaderId = false ∨ request.term < node.currentTerm then
    finishAppend response false
  else
    let termIncreased := decide (node.currentTerm < request.term)
    set (node.followLeader request.term request.leaderId)
    match appendConflict node.log request response with
    | some rejection => finishAppend rejection termIncreased
    | none => appendMatched request response termIncreased

/-- Whether a success response is consistent with its request and the leader's log. -/
def acknowledgementValid (log : RaftLog) (response : AppendEntriesResponse) : Bool :=
  !(response.matchIndex < response.requestPreviousLogIndex) &&
    !(log.lastIndex < response.matchIndex) &&
    !(uint64Max - response.requestPreviousLogIndex < response.requestEntryCount) &&
    response.matchIndex == response.requestPreviousLogIndex + response.requestEntryCount

/-- Move a peer's cursors after its answer; a success may commit, a rejection backs up. -/
def handleAppendEntriesResponse (source : NodeId) (response : AppendEntriesResponse) :
    RaftM (List OutboundRpc) := do
  let node ← get
  if node.isMember source = false ∨ source = node.config.nodeId then pure []
  else if node.currentTerm < response.term then
    set (node.becomeFollower response.term none)
    persistOrThrow
    pure []
  else if node.role ≠ .leader ∨ response.term ≠ node.currentTerm then pure []
  else
    match node.nextIndex source, node.matchIndex source with
    | some next, some matched =>
      if response.success then
        if acknowledgementValid node.log response then
          let newNext := max next (response.matchIndex + 1)
          set { node with
            matchIndex :=
              Function.update node.matchIndex source (some (max matched response.matchIndex))
            nextIndex := Function.update node.nextIndex source (some newNext) }
          advanceCommitIndex
          let node ← get
          if newNext ≤ node.log.lastIndex then pure [node.makeAppendEntries source]
          else pure []
        else pure []
      else if next = 0 ∨ response.requestPreviousLogIndex ≠ next - 1 ∨
          response.requestPreviousLogIndex < matched then pure []
      else
        let node := { node with
          nextIndex := Function.update node.nextIndex source
            (some (LogReplication.nextIndexAfterConflict node.log response.conflictIndex
              response.conflictTerm)) }
        set node
        pure [node.makeAppendEntries source]
    | _, _ => pure []

/-- Append a client command on the leader. -/
def propose (command : Bytes) : RaftM ProposeResult := do
  let node ← get
  if node.role ≠ .leader then pure {}
  else
    set { node with log := node.log.append node.currentTerm .command command }
    persistOrThrow
    advanceCommitIndex
    let leader ← get
    pure { accepted := true, index := node.log.lastIndex + 1, outbound := leader.replicateToAll }

end RaftNode

end DistributedKV
