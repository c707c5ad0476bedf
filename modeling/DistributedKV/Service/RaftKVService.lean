import DistributedKV.Raft.Node.Operation
import DistributedKV.Service.SnapshotStore

/-!
# The replicated key-value service

The composition of a Raft node with the state machine in `src/raft/raft_kv_service.cpp`. Calls run
in `ServiceM`, which keeps the service as it was when an exception of the node left the call. A
call with a writable error of the source returns the error beside its result; the empty text is
no error. The snapshot file beside the service is part of its state.
-/

namespace DistributedKV

/-- `kSnapshotChunkSize`. -/
def snapshotChunkSize : Nat := 64 * 1024

/-- How a submitted command was received. -/
inductive SubmitStatus where
  | notLeader
  | pending
  | applied
  | invalid
  deriving DecidableEq, Repr

/-- The outcome of a submission. -/
structure SubmitResult where
  status : SubmitStatus := .invalid
  logIndex : Nat := 0
  result : Option ApplyResult := none
  outbound : List OutboundRpc := []
  deriving DecidableEq, Repr

/-- The outcome of an attempt to publish a snapshot. -/
structure SnapshotPublishResult where
  performed : Bool := false
  boundaryIndex : Nat := 0
  boundaryTerm : Nat := 0
  deriving DecidableEq, Repr

/-- How far a leader has sent its snapshot to a peer. -/
structure LeaderSnapshotSend where
  lastIncludedIndex : Nat := 0
  lastIncludedTerm : Nat := 0
  offset : Nat := 0
  deriving DecidableEq, Repr

/-- A node with its state machine. `sendsSnapshots` is whether the service was given a snapshot
store to send from. -/
structure RaftKVService where
  raftNode : RaftNode
  stateMachine : StateMachine := {}
  pendingLocal : Finset Nat := ∅
  completedLocal : Nat → Option ApplyResult := fun _ => none
  lastSnapshotIndex : Nat := 0
  sendsSnapshots : Bool := false
  store : FileSnapshotStore := {}
  snapshotSends : NodeId → Option LeaderSnapshotSend := fun _ => none
  snapshotReceiver : Option SnapshotFileReceiver := none

/-- Calls of a service that may throw. -/
abbrev ServiceM := EStateM String RaftKVService

namespace RaftKVService

/-- Run an operation of the node inside the service. -/
def onNode {α : Type} (program : RaftM α) : ServiceM α := fun service =>
  match program service.raftNode with
  | .ok result node => .ok result { service with raftNode := node }
  | .error error node => .error error { service with raftNode := node }

/-! ## Applying committed entries -/

/-- Keep the result of an entry that was submitted here. -/
def complete (service : RaftKVService) (index : Nat) (result : Option ApplyResult) :
    RaftKVService :=
  match result with
  | none => service
  | some result =>
    if index ∈ service.pendingLocal then
      { service with
        pendingLocal := service.pendingLocal.erase index
        completedLocal := Function.update service.completedLocal index (some result) }
    else service

/-- Apply the next entry of the log. -/
def applyNext (service : RaftKVService) : Except String RaftKVService :=
  let next := service.stateMachine.lastApplied + 1
  match service.raftNode.log.entryAt next with
  | none => .error "committed Raft entry is absent from local log"
  | some entry =>
    match service.stateMachine.apply entry with
    | .error error => .error error
    | .ok (machine, result) =>
      .ok ({ service with stateMachine := machine }.complete next result)

/-- The loop of `applyCommitted`, with the number of entries left. -/
def applyLoop : Nat → RaftKVService → RaftKVService × Except String Unit
  | 0, service => (service, .ok ())
  | count + 1, service =>
    match service.applyNext with
    | .error error => (service, .error error)
    | .ok service => applyLoop count service

/-- Apply the entries up to the commit index, as far as they can be applied. -/
def caughtUp (service : RaftKVService) : RaftKVService × Except String Unit :=
  applyLoop (service.raftNode.commitIndex - service.stateMachine.lastApplied) service

/-- Bring the state machine up to the commit index. -/
def applyCommitted : ServiceM (Except String Unit) := fun service =>
  .ok service.caughtUp.2 service.caughtUp.1

/-! ## Sending snapshots -/

/-- Whether the published file is the snapshot of a boundary. -/
def publishedAt (service : RaftKVService) (index term : Nat) : Bool :=
  match service.store.load with
  | .ok (some metadata) =>
    metadata.lastIncludedIndex == index && metadata.lastIncludedTerm == term
  | _ => false

/-- The progress of a peer, started again when it is for another boundary. -/
def sendFor (service : RaftKVService) (peer : NodeId) (index term : Nat) : LeaderSnapshotSend :=
  let send := (service.snapshotSends peer).getD {}
  if send.lastIncludedIndex ≠ index ∨ send.lastIncludedTerm ≠ term then
    { lastIncludedIndex := index, lastIncludedTerm := term, offset := 0 }
  else send

/-- Record the progress of a peer. -/
def withSend (service : RaftKVService) (peer : NodeId) (send : LeaderSnapshotSend) :
    RaftKVService :=
  { service with snapshotSends := Function.update service.snapshotSends peer (some send) }

/-- The next chunk for a peer that is behind the boundary of the log, if the published file is
the snapshot of that boundary. -/
def makeInstallSnapshotRpc (peer : NodeId) : ServiceM (Option OutboundRpc × String) := do
  let service ← get
  if service.raftNode.peerNeedsSnapshot peer = false then pure (none, "")
  else
    let boundary := service.raftNode.log.firstIndex
    match service.raftNode.log.termAt boundary with
    | none => pure (none, "leader snapshot boundary term is absent")
    | some boundaryTerm =>
      if service.publishedAt boundary boundaryTerm = false then pure (none, "")
      else
        let send := service.sendFor peer boundary boundaryTerm
        match service.store.readBytes send.offset snapshotChunkSize with
        | .error error =>
          set (service.withSend peer send)
          pure (none, error)
        | .ok (chunk, eof) =>
          set (service.withSend peer { send with offset := send.offset + chunk.length })
          pure (some
            { destination := peer
              payload := .installSnapshot
                { term := service.raftNode.currentTerm
                  leaderId := service.raftNode.config.nodeId
                  lastIncludedIndex := boundary
                  lastIncludedTerm := boundaryTerm
                  offset := send.offset
                  done := eof
                  data := chunk } }, "")

/-- Start the transfer to a peer again when it is for the current boundary. -/
def rewindSend (service : RaftKVService) (peer : NodeId) : RaftKVService :=
  let send := (service.snapshotSends peer).getD {}
  let boundary := service.raftNode.log.firstIndex
  service.withSend peer
    (if send.lastIncludedIndex = boundary ∧
        service.raftNode.log.termAt boundary = some send.lastIncludedTerm then
      { send with offset := 0 }
    else send)

/-- Whether an outbound RPC is a replication request. -/
def isAppendEntries (rpc : OutboundRpc) : Bool :=
  match rpc.payload with
  | .appendEntries _ => true
  | _ => false

/-- The loop of `completeReplication`: replication requests to peers that are behind the boundary
become snapshot chunks. An error drops everything. -/
def completeReplication : List OutboundRpc → ServiceM (List OutboundRpc × String)
  | [] => pure ([], "")
  | rpc :: rest => do
      let service ← get
      if isAppendEntries rpc = true ∧
          service.raftNode.peerNeedsSnapshot rpc.destination = true then
        set (service.rewindSend rpc.destination)
        let (replacement, error) ← makeInstallSnapshotRpc rpc.destination
        if error ≠ "" then pure ([], error)
        else
          let (result, error) ← completeReplication rest
          if error ≠ "" then pure ([], error)
          else pure (replacement.getD rpc :: result, "")
      else
        let (result, error) ← completeReplication rest
        if error ≠ "" then pure ([], error)
        else pure (rpc :: result, "")

/-- Replace replication requests by snapshot chunks where the service sends snapshots. -/
def finalizeOutbound (outbound : List OutboundRpc) : ServiceM (List OutboundRpc × String) := do
  let service ← get
  if service.sendsSnapshots then completeReplication outbound else pure (outbound, "")

/-- Apply what is committed and finish what is sent; nothing is sent after an error. -/
def settle (outbound : List OutboundRpc) : ServiceM (List OutboundRpc × String) := do
  match ← applyCommitted with
  | .error error => pure ([], error)
  | .ok () => finalizeOutbound outbound

/-! ## The calls of the event loop -/

/-- Advance logical time. -/
def tick (elapsedMs : Nat) : ServiceM (List OutboundRpc × String) := do
  let outbound ← onNode (RaftNode.tick elapsedMs)
  settle outbound

/-- Answer a vote request. -/
def handleRequestVote (request : RequestVoteRequest) : ServiceM RequestVoteResponse :=
  onNode (RaftNode.handleRequestVote request)

/-- Count a vote. -/
def handleRequestVoteResponse (source : NodeId) (response : RequestVoteResponse) :
    ServiceM (List OutboundRpc × String) := do
  let outbound ← onNode (RaftNode.handleRequestVoteResponse source response)
  settle outbound

/-- Answer a replication request. An entry that cannot be applied turns the answer into a
failure. -/
def handleAppendEntries (request : AppendEntriesRequest) :
    ServiceM (AppendEntriesResponse × String) := do
  let response ← onNode (RaftNode.handleAppendEntries request)
  match ← applyCommitted with
  | .error error => pure ({ response with success := false }, error)
  | .ok () => pure (response, "")

/-- Take the answer to a replication request. -/
def handleAppendEntriesResponse (source : NodeId) (response : AppendEntriesResponse) :
    ServiceM (List OutboundRpc × String) := do
  let outbound ← onNode (RaftNode.handleAppendEntriesResponse source response)
  settle outbound

/-- Remove the result of a completed submission. -/
def takeResult (index : Nat) : ServiceM (Option ApplyResult) := do
  let service ← get
  set { service with completedLocal := Function.update service.completedLocal index none }
  pure (service.completedLocal index)

/-- The part of `submit` after the leader took the command at an index. -/
def submitAccepted (index : Nat) (outbound : List OutboundRpc) :
    ServiceM (SubmitResult × String) := do
  modify fun service => { service with pendingLocal := insert index service.pendingLocal }
  match ← applyCommitted with
  | .error error => pure ({ status := .invalid, logIndex := index }, error)
  | .ok () =>
    let result ← takeResult index
    let (outbound, error) ← finalizeOutbound outbound
    if error ≠ "" then pure ({ status := .invalid, logIndex := index }, error)
    else
      match result with
      | some result =>
        pure ({ status := .applied, logIndex := index, result := some result, outbound }, "")
      | none => pure ({ status := .pending, logIndex := index, outbound }, "")

/-- Encode a command and propose it. -/
def submit (command : KVCommand) : ServiceM (SubmitResult × String) :=
  match KVCommandCodec.encode command with
  | .error error => pure ({ status := .invalid }, error)
  | .ok encoded => do
      let proposal ← onNode (RaftNode.propose encoded)
      if proposal.accepted then submitAccepted proposal.index proposal.outbound
      else pure ({ status := .notLeader, outbound := proposal.outbound }, "")

/-- The applied value of a key. -/
def getApplied (service : RaftKVService) (key : Bytes) : Option Bytes :=
  service.stateMachine.store.get key

/-- Propose a membership change. -/
def proposeConfChange (type : ConfChangeType) (member : ClusterMember) (operationId : UInt64) :
    ServiceM ProposeResult :=
  onNode (RaftNode.proposeConfChange type member operationId)

/-- Start replicating to a non-voting node. -/
def addLearner (learner : NodeId) : ServiceM Bool := onNode (RaftNode.addLearner learner)

/-! ## Snapshots -/

/-- Publish a snapshot of the applied state and compact the log, once enough entries were applied
since the last one. -/
def tryPublishSnapshot (entryThreshold : Nat) :
    ServiceM (Except String SnapshotPublishResult) := do
  let service ← get
  let lastApplied := service.stateMachine.lastApplied
  if entryThreshold = 0 ∨ lastApplied ≤ service.lastSnapshotIndex ∨
      lastApplied - service.lastSnapshotIndex < entryThreshold then pure (.ok {})
  else
    match service.raftNode.log.termAt lastApplied with
    | none => pure (.error "cannot snapshot without term at last applied index")
    | some boundaryTerm =>
      match FileSnapshotStore.save (service.stateMachine.snapshot boundaryTerm) with
      | .error error => pure (.error error)
      | .ok store =>
        set { service with store }
        match ← onNode (RaftNode.compactLogPrefix lastApplied boundaryTerm) with
        | .error error => pure (.error error)
        | .ok () =>
          modify fun service => { service with lastSnapshotIndex := lastApplied }
          pure (.ok { performed := true, boundaryIndex := lastApplied, boundaryTerm })

/-- The part of `handleInstallSnapshot` after the received file was published: restore the state
machine, replace the log by the boundary and apply what is committed. -/
def installSnapshot (snapshot : StateMachineSnapshot) (response : InstallSnapshotResponse) :
    ServiceM (InstallSnapshotResponse × String) :=
  match StateMachine.restore snapshot with
  | .error error => pure (response, error)
  | .ok machine => do
      modify fun service => { service with stateMachine := machine }
      match ← onNode (RaftNode.replaceLogWithSnapshotBoundary snapshot.lastIncludedIndex
          snapshot.lastIncludedTerm) with
      | .error error => pure (response, error)
      | .ok () =>
        modify fun service => { service with lastSnapshotIndex := snapshot.lastIncludedIndex }
        match ← applyCommitted with
        | .error error => pure ({ response with success := false }, error)
        | .ok () => pure ({ response with success := true }, "")

/-- The receiver for a chunk: a new one at offset zero. -/
def receiverFor (service : RaftKVService) (offset : Nat) : Option SnapshotFileReceiver :=
  if offset = 0 then some {} else service.snapshotReceiver

/-- The part of `handleInstallSnapshot` that takes the chunk of an accepted leader. -/
def receiveChunk (request : InstallSnapshotRequest) (response : InstallSnapshotResponse) :
    ServiceM (InstallSnapshotResponse × String) := do
  let service ← get
  match service.receiverFor request.offset with
  | none => pure (response, "snapshot receive is not initialized")
  | some receiver =>
    match receiver.appendChunk request.lastIncludedIndex request.lastIncludedTerm
        request.offset request.data request.done with
    | (_, .error error) =>
      set { service with snapshotReceiver := none }
      pure (response, error)
    | (receiver, .ok ()) =>
      if request.done = false then
        set { service with snapshotReceiver := some receiver }
        pure ({ response with success := true }, "")
      else
        match receiver.finishAndLoad with
        | .error error =>
          set { service with snapshotReceiver := none }
          pure (response, error)
        | .ok (store, snapshot) =>
          set { service with store, snapshotReceiver := none }
          installSnapshot snapshot response

/-- Take a chunk of a leader's snapshot. The answer carries the term from before the leader was
acknowledged. -/
def handleInstallSnapshot (request : InstallSnapshotRequest) :
    ServiceM (InstallSnapshotResponse × String) := do
  let service ← get
  let response : InstallSnapshotResponse :=
    { term := service.raftNode.currentTerm, success := false }
  if request.term < service.raftNode.currentTerm then pure (response, "")
  else
    let accepted ← onNode (RaftNode.acknowledgeLeader request.term request.leaderId)
    let service ← get
    if accepted = false then
      pure ({ response with term := service.raftNode.currentTerm }, "")
    else if request.lastIncludedIndex < service.raftNode.log.firstIndex ∧
        request.lastIncludedIndex ≤ service.stateMachine.lastApplied then
      pure ({ response with success := true }, "")
    else receiveChunk request response

/-- The next chunk for a peer, as the only RPC. -/
def sendNextChunk (peer : NodeId) : ServiceM (List OutboundRpc × String) := do
  let (next, error) ← makeInstallSnapshotRpc peer
  if error ≠ "" then pure ([], error) else pure (next.toList, "")

/-- Take the answer to a chunk: the next chunk, the first one again, or replication from the
boundary on once the file has been sent. -/
def handleInstallSnapshotResponse (source : NodeId) (response : InstallSnapshotResponse) :
    ServiceM (List OutboundRpc × String) := do
  onNode (RaftNode.observeHigherTerm response.term)
  let service ← get
  if service.raftNode.role ≠ .leader ∨ response.term ≠ service.raftNode.currentTerm then
    pure ([], "")
  else
    match service.snapshotSends source with
    | none => pure ([], "")
    | some send =>
      if response.success = false then
        set (service.withSend source { send with offset := 0 })
        sendNextChunk source
      else
        match service.store.fileSize with
        | .error error => pure ([], error)
        | .ok size =>
          if send.offset < size then sendNextChunk source
          else
            let installed := send.lastIncludedIndex
            set { service with
              snapshotSends := Function.update service.snapshotSends source none }
            onNode (RaftNode.onInstallSnapshotSuccess source installed)
            let service ← get
            handleAppendEntriesResponse source
              { term := service.raftNode.currentTerm
                success := true
                requestPreviousLogIndex := installed
                requestEntryCount := 0
                matchIndex := installed
                conflictIndex := installed + 1 }

/-! ## Construction -/

/-- Start from a snapshot whose boundary is committed in the log. -/
def restoreSnapshot (service : RaftKVService) (snapshot : StateMachineSnapshot) :
    Except String RaftKVService :=
  if service.raftNode.commitIndex < snapshot.lastIncludedIndex then
    .error "snapshot boundary is ahead of durable commit index"
  else if service.raftNode.log.termAt snapshot.lastIncludedIndex ≠
      some snapshot.lastIncludedTerm then
    .error "snapshot boundary does not match durable Raft log"
  else
    match StateMachine.restore snapshot with
    | .error error => .error ("failed to restore state snapshot: " ++ error)
    | .ok machine =>
      .ok { service with
        stateMachine := machine
        lastSnapshotIndex := snapshot.lastIncludedIndex }

/-- Start from an optional snapshot. -/
def startFrom (service : RaftKVService) (snapshot : Option StateMachineSnapshot) :
    Except String RaftKVService :=
  match snapshot with
  | none => .ok service
  | some snapshot => service.restoreSnapshot snapshot

/-- Replay the committed entries, or refuse to start. -/
def rebuilt (service : RaftKVService) : Except String RaftKVService :=
  match service.caughtUp with
  | (_, .error error) => .error ("failed to rebuild committed state: " ++ error)
  | (service, .ok ()) => .ok service

/-- Construct a service over a store, from what was saved and an optional snapshot. -/
def construct (config : NodeConfig) (persistence : Option RaftPersistence) (kv : KVStore)
    (snapshot : Option StateMachineSnapshot) (sendsSnapshots : Bool)
    (store : FileSnapshotStore) : Except String RaftKVService := do
  let raftNode ← RaftNode.construct config persistence
  let service ← startFrom
    { raftNode, stateMachine := { store := kv }, sendsSnapshots, store } snapshot
  service.rebuilt

end RaftKVService

end DistributedKV
