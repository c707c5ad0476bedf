import DistributedKV.Network.Protocol
import DistributedKV.Service.Restart
import DistributedKV.Service.ServiceCluster

/-!
# The event loop of a node

The loop of `src/server/node_service.cpp` that drives a replicated key-value service: it drains the
queue of peer messages and the queue of client requests, starts a batch of reads, advances logical
time, completes what is pending, and goes on with a membership change and a snapshot. A step of the
model is the handling of one message or one request, or one of the phases that follow. Handlers
run in `NodeM`; what one of them throws ends the loop.

The bounded queues towards clients and peers are lists here: an element they refuse is one that is
never delivered. The clock counts nanoseconds. Read contexts are natural numbers, since the loop
sleeps two milliseconds between two batches and the source's 64-bit counter outlives it.
-/

namespace DistributedKV

/-! ## Client requests and answers -/

/-- A request and the connection it came from. -/
structure ClientRequestEvent where
  connectionId : UInt64
  request : Request
  deriving DecidableEq, Repr

/-- A response and the request it is for, whose connection it goes to. -/
structure Answer where
  event : ClientRequestEvent
  response : Response
  deriving DecidableEq, Repr

/-- The status a client is told for the result of a command. -/
def ApplyStatus.code : ApplyStatus → StatusCode
  | .ok => .ok
  | .notFound => .notFound
  | .staleRequest => .invalidRequest

/-- The membership change a request asks for. Only the id of a removed node matters. -/
def membershipOperation (request : Request) : MembershipOperation :=
  if request.type = .addNodeRequest then
    { operationId := request.operationId
      type := .addNode
      member :=
        { nodeId := request.nodeId, clientHost := request.clientHost
          clientPort := request.clientPort, peerHost := request.peerHost
          peerPort := request.peerPort } }
  else
    { operationId := request.operationId, type := .removeNode
      member := { nodeId := request.nodeId } }

/-- The command a request asks for, when it is a SET or a DELETE. -/
def Request.command (request : Request) : Option KVCommand :=
  match request.type with
  | .setRequest =>
    some { type := .set, clientId := request.clientId, requestId := request.requestId
           key := request.key, value := request.value }
  | .deleteRequest =>
    some { type := .delete, clientId := request.clientId, requestId := request.requestId
           key := request.key, value := request.value }
  | _ => none

/-! ## Configuration -/

/-- The configuration of a node service. -/
structure NodeServiceConfig where
  nodeId : NodeId
  members : List ClusterMember
  electionTimeoutMinMs : Nat := 300
  electionTimeoutMaxMs : Nat := 600
  heartbeatIntervalMs : Nat := 100
  readTimeoutMs : Nat := 1000
  readBatchWindowMs : Nat := 0
  snapshotEntryThreshold : Nat := 64
  learner : Bool := false
  deriving DecidableEq, Repr

/-- The configuration of the Raft node. The members are the first stable configuration, without
this node if it is a learner. -/
def NodeServiceConfig.makeRaftConfig (config : NodeServiceConfig) : NodeConfig where
  nodeId := config.nodeId
  electionTimeoutMinMs := config.electionTimeoutMinMs
  electionTimeoutMaxMs := config.electionTimeoutMaxMs
  heartbeatIntervalMs := config.heartbeatIntervalMs
  randomSeed := config.nodeId * 0x9e3779b97f4a7c15
  bootstrapCluster := some
    { configId := 1
      members := (config.members.filter fun member =>
          !(config.learner && member.nodeId == config.nodeId)).insertionSort
        fun left right => left.nodeId ≤ right.nodeId }
  learner := config.learner
  peers := (config.members.map (·.nodeId)).filter (· != config.nodeId)

/-! ## State -/

/-- A batch of reads that waits for a quorum. -/
structure PendingRead where
  requests : List ClientRequestEvent
  term : Nat
  readIndex : Nat
  acknowledgements : Finset NodeId
  deadline : Nat
  deriving DecidableEq

/-- A membership change that waits, with the index of its entry once it is proposed. -/
structure PendingMembershipChange where
  event : ClientRequestEvent
  logIndex : Option Nat := none
  deriving DecidableEq, Repr

/-- What the loop does next. -/
inductive LoopPhase where
  | peers
  | clients
  | reads
  | tick
  | pending
  | membership
  | publish
  deriving DecidableEq, Repr

/-- A node service. The two queues hold what the current step has put there. -/
structure NodeService where
  config : NodeServiceConfig
  raftService : RaftKVService
  pendingWrites : List (Nat × ClientRequestEvent) := []
  pendingReads : List (Nat × PendingRead) := []
  deferredReads : List ClientRequestEvent := []
  readBatchStarted : Option Nat := none
  nextReadContext : Nat := 1
  pendingMembershipChange : Option PendingMembershipChange := none
  phase : LoopPhase := .peers
  fatalError : Option String := none
  peerOutbound : List OutboundRpc := []
  clientResponses : List Answer := []

/-- Handlers of the loop that may throw. -/
abbrev NodeM := EStateM String NodeService

/-- A duration in ticks of the clock. -/
def milliseconds (count : Nat) : Nat := count * 1000000

namespace NodeService

/-- The Raft node inside. -/
abbrev raftNode (node : NodeService) : RaftNode := node.raftService.raftNode

/-- Run a call of the service. -/
def onService {α : Type} (program : ServiceM α) : NodeM α := fun node =>
  match program node.raftService with
  | .ok result service => .ok result { node with raftService := service }
  | .error error service => .error error { node with raftService := service }

/-- A reported error ends the loop; the empty text is no error. -/
def raise (error : String) : NodeM Unit := if error ≠ "" then throw error else pure ()

/-- Queue messages to peers. -/
def sendRpcs (outbound : List OutboundRpc) : NodeM Unit :=
  modify fun node => { node with peerOutbound := node.peerOutbound ++ outbound }

/-- The node with one more answer queued. -/
def answered (node : NodeService) (event : ClientRequestEvent) (response : Response) :
    NodeService :=
  { node with clientResponses := node.clientResponses ++ [{ event, response }] }

/-- Queue an answer to a client. -/
def sendClient (event : ClientRequestEvent) (response : Response) : NodeM Unit :=
  modify (·.answered event response)

/-- Queue an answer with a status and a text. -/
def reply (event : ClientRequestEvent) (status : StatusCode) (text : String) : NodeM Unit :=
  sendClient event { requestId := event.request.requestId, status, payload := asciiBytes text }

/-- The members of the stable configuration. -/
def memberEndpoints (node : NodeService) : List ClusterMember :=
  match node.raftNode.clusterConfig with
  | none => []
  | some cluster => cluster.members

/-- The answer of a node that is not the leader, with the endpoint of the leader it knows. -/
def notLeaderResponse (node : NodeService) (requestId : UInt64) : Response :=
  let response : Response :=
    { requestId, status := .notLeader, payload := asciiBytes "NOT_LEADER" }
  match node.raftNode.leaderId with
  | none => response
  | some leader =>
    match node.config.members.find? fun member => member.nodeId == leader with
    | none => response
    | some endpoint =>
      { response with leaderHost := endpoint.clientHost, leaderPort := endpoint.clientPort }

/-- Whether the last committed entry is of the current term. -/
def committedInTerm (node : NodeService) : Bool :=
  node.raftNode.log.termAt node.raftNode.commitIndex == some node.raftNode.currentTerm

/-- Make a call of the service, send what it returns and end the loop on an error it reports. -/
def serve (call : ServiceCall) : NodeM Unit := do
  let (outbound, error) ← onService (RaftKVService.perform call)
  sendRpcs outbound
  raise error

/-! ## Peer messages -/

/-- The call a peer message leads to. A request whose sender is not the node it names is
dropped. -/
def peerCall (source : NodeId) : RpcPayload → Option ServiceCall
  | .requestVote rpc =>
    if rpc.candidateId ≠ source then none else some (.handleRequestVote source rpc)
  | .requestVoteResponse rpc => some (.handleRequestVoteResponse source rpc)
  | .appendEntries rpc =>
    if rpc.leaderId ≠ source then none else some (.handleAppendEntries source rpc)
  | .installSnapshot rpc =>
    if rpc.leaderId ≠ source then none else some (.handleInstallSnapshot source rpc)
  | .installSnapshotResponse rpc => some (.handleInstallSnapshotResponse source rpc)
  | .appendEntriesResponse rpc => some (.handleAppendEntriesResponse source rpc)

/-- Count a successful answer to a read barrier for the batch with its context, if the batch is of
the current term. -/
def acknowledge (node : NodeService) (source : NodeId) (rpc : AppendEntriesResponse) :
    NodeService :=
  if rpc.success = true ∧ rpc.readContext ≠ 0 then
    { node with
      pendingReads := node.pendingReads.map fun (context, read) =>
        if context = rpc.readContext ∧ read.term = node.raftNode.currentTerm then
          (context, { read with acknowledgements := insert source read.acknowledgements })
        else (context, read) }
  else node

/-- Handle one peer message: an answer to a replication request may acknowledge a batch of reads,
then the service is called. -/
def processPeerMessage (source : NodeId) (payload : RpcPayload) : NodeM Unit := do
  match payload with
  | .appendEntriesResponse rpc => modify (·.acknowledge source rpc)
  | _ => pure ()
  match peerCall source payload with
  | none => pure ()
  | some call => serve call

/-- The known members follow the stable configuration. What the source does to its connections
is not modelled. -/
def syncPeerTransport : NodeM Unit :=
  modify fun node =>
    match node.raftNode.clusterConfig with
    | none => node
    | some cluster => { node with config := { node.config with members := cluster.members } }

/-! ## Client requests -/

/-- Start a requested membership change: an added node becomes a learner first, the removal of a
node is proposed at once. -/
def startMembershipChange (event : ClientRequestEvent) : NodeM Unit := do
  if event.request.type = .addNodeRequest then
    let accepted ← onService (RaftKVService.addLearner event.request.nodeId)
    if accepted = false then reply event .invalidRequest "ADD_NODE_REJECTED"
    else modify fun node => { node with pendingMembershipChange := some { event } }
  else
    let proposed ← onService (RaftKVService.proposeConfChange .removeNode
      { nodeId := event.request.nodeId } event.request.operationId)
    if proposed.accepted = false then reply event .invalidRequest "REMOVE_NODE_REJECTED"
    else
      sendRpcs proposed.outbound
      modify fun node =>
        { node with pendingMembershipChange := some { event, logIndex := some proposed.index } }

/-- Take a request for a membership change. A change that was completed or is under way is
recognized by its operation id; only one is under way at a time. -/
def requestMembershipChange (event : ClientRequestEvent) : NodeM Unit := do
  let node ← get
  let operation := membershipOperation event.request
  if node.raftNode.role ≠ .leader then
    sendClient event (node.notLeaderResponse event.request.requestId)
  else if node.raftNode.completedMembershipOperation.map (·.operationId) =
      some operation.operationId then
    if node.raftNode.completedMembershipOperation = some operation then
      sendClient event
        { requestId := event.request.requestId, status := .ok
          payload := asciiBytes "OK_REPLAYED", members := node.memberEndpoints }
    else reply event .invalidRequest "OPERATION_ID_REUSED"
  else
    match node.raftNode.activeMembershipOperation with
    | some active =>
      if active.operationId ≠ operation.operationId then
        reply event .serverBusy "MEMBERSHIP_CHANGE_IN_PROGRESS"
      else if active ≠ operation then reply event .invalidRequest "OPERATION_ID_REUSED"
      else set { node with pendingMembershipChange := some { event, logIndex := some 0 } }
    | none =>
      match node.pendingMembershipChange with
      | some pending =>
        let pendingOperation := membershipOperation pending.event.request
        if pendingOperation = operation then
          set { node with pendingMembershipChange := some { pending with event } }
        else if pendingOperation.operationId = operation.operationId then
          reply event .invalidRequest "OPERATION_ID_REUSED"
        else reply event .serverBusy "MEMBERSHIP_CHANGE_IN_PROGRESS"
      | none =>
        if node.raftNode.jointConfig.isSome = true then
          reply event .serverBusy "MEMBERSHIP_CHANGE_IN_PROGRESS"
        else startMembershipChange event

/-- Take a GET: it joins the next batch of reads of a leader that has committed an entry of its
term. -/
def requestRead (event : ClientRequestEvent) (now : Nat) : NodeM Unit := do
  let node ← get
  if node.raftNode.role ≠ .leader then
    sendClient event (node.notLeaderResponse event.request.requestId)
  else if node.committedInTerm = false then reply event .unavailable "LEADER_NOT_READY"
  else
    set { node with
      readBatchStarted := if node.deferredReads = [] then some now else node.readBatchStarted
      deferredReads := node.deferredReads ++ [event] }

/-- The answer to a write with the result of its command. -/
def writeResponse (request : Request) (result : ApplyResult) : Response where
  requestId := request.requestId
  status := result.status.code
  payload := result.payload

/-- Remember a write that is not applied yet, under the index of its entry. -/
def pendWrite (node : NodeService) (index : Nat) (event : ClientRequestEvent) : NodeService :=
  { node with
    pendingWrites := (index, event) :: node.pendingWrites.filter fun write => write.1 != index }

/-- Take a SET or a DELETE and submit its command. -/
def requestWrite (event : ClientRequestEvent) (command : KVCommand) : NodeM Unit := do
  let (result, error) ← onService (RaftKVService.submit command)
  sendRpcs result.outbound
  raise error
  match result.status, result.result with
  | .notLeader, _ =>
    let node ← get
    sendClient event (node.notLeaderResponse event.request.requestId)
  | .invalid, _ => reply event .invalidRequest "INVALID_REQUEST"
  | .applied, some applied => sendClient event (writeResponse event.request applied)
  | _, _ => modify (·.pendWrite result.logIndex event)

/-- Handle one client request. -/
def processClientRequest (event : ClientRequestEvent) (now : Nat) : NodeM Unit := do
  let node ← get
  match event.request.type with
  | .listMembersRequest =>
    sendClient event
      { requestId := event.request.requestId, status := .ok, payload := asciiBytes "OK"
        members := node.memberEndpoints }
  | .addNodeRequest | .removeNodeRequest => requestMembershipChange event
  | .getRequest => requestRead event now
  | _ =>
    match event.request.command with
    | some command => requestWrite event command
    | none => reply event .invalidRequest "unsupported request"

/-! ## Reads -/

/-- Drop the deferred reads and give each the same kind of answer. -/
def refuseDeferred (node : NodeService) (response : UInt64 → Response) : NodeService :=
  { node with
    clientResponses := node.clientResponses ++ node.deferredReads.map fun event =>
      { event, response := response event.request.requestId }
    deferredReads := []
    readBatchStarted := none }

/-- The batch that is made of the deferred reads. It is acknowledged by the node itself. -/
def readBatch (node : NodeService) (now : Nat) : PendingRead where
  requests := node.deferredReads
  term := node.raftNode.currentTerm
  readIndex := node.raftNode.commitIndex
  acknowledgements := {node.config.nodeId}
  deadline := now + milliseconds node.config.readTimeoutMs

/-- The context of the next batch, which is not zero. -/
def freshContext (node : NodeService) : Nat :=
  if node.nextReadContext = 0 then 1 else node.nextReadContext

/-- The node with the deferred reads in a new batch. -/
def withBatch (node : NodeService) (now : Nat) : NodeService :=
  { node with
    pendingReads :=
      if (node.pendingReads.lookup node.freshContext).isSome = true then node.pendingReads
      else node.pendingReads ++ [(node.freshContext, node.readBatch now)]
    deferredReads := []
    readBatchStarted := none
    nextReadContext := node.freshContext + 1 }

/-- Start a batch of reads once the window of the first has passed, and send its barrier. -/
def startReadBatchIfReady (now : Nat) : NodeM Unit := do
  let node ← get
  match node.readBatchStarted with
  | none => pure ()
  | some started =>
    if node.deferredReads = [] ∨
        now - started < milliseconds node.config.readBatchWindowMs then pure ()
    else if node.raftNode.role ≠ .leader then set (node.refuseDeferred node.notLeaderResponse)
    else if node.committedInTerm = false then
      set (node.refuseDeferred fun requestId =>
        { requestId, status := .unavailable, payload := asciiBytes "LEADER_NOT_READY" })
    else
      set (node.withBatch now)
      sendRpcs (node.raftNode.makeReadBarrier node.freshContext)

/-- Whether a majority of a configuration has acknowledged a batch. -/
def acknowledgedBy (read : PendingRead) (cluster : ClusterConfiguration) : Bool :=
  decide (cluster.members.length / 2 + 1 ≤
    RaftNode.countMembers (fun id => decide (id ∈ read.acknowledgements)) cluster)

/-- Whether a batch has its quorum: in joint consensus, a majority of both configurations. -/
def readQuorumReached (node : NodeService) (read : PendingRead) : Bool :=
  match node.raftNode.clusterConfig with
  | some cluster =>
    acknowledgedBy read cluster &&
      match node.raftNode.jointConfig with
      | none => true
      | some joint => acknowledgedBy read joint
  | none => decide (node.config.members.length / 2 + 1 ≤ read.acknowledgements.card)

/-! ## What is pending -/

/-- Complete a pending write: a node that is not the leader any more gives up on it, a leader
answers once the result is there. -/
def completeWrite (node : NodeService) (write : Nat × ClientRequestEvent) : NodeService :=
  let rest := node.pendingWrites.filter fun other => other.1 != write.1
  if node.raftNode.role ≠ .leader then
    { node with pendingWrites := rest }.answered write.2
      (node.notLeaderResponse write.2.request.requestId)
  else
    match RaftKVService.takeResult write.1 node.raftService with
    | .ok (some result) service =>
      { node with raftService := service, pendingWrites := rest }.answered write.2
        (writeResponse write.2.request result)
    | .ok none service | .error _ service => { node with raftService := service }

/-- The answer to a GET from the applied state. -/
def readResponse (node : NodeService) (request : Request) : Response :=
  match node.raftService.getApplied request.key with
  | some value => { requestId := request.requestId, status := .ok, payload := value }
  | none =>
    { requestId := request.requestId, status := .notFound, payload := asciiBytes "NOT_FOUND" }

/-- The node with a batch of reads answered and removed. -/
def finishRead (node : NodeService) (context : Nat) (read : PendingRead)
    (response : Request → Response) : NodeService :=
  { node with
    pendingReads := node.pendingReads.filter fun other => other.1 != context
    clientResponses := node.clientResponses ++ read.requests.map fun event =>
      { event, response := response event.request } }

/-- Complete a batch of reads: it fails when the leadership of its term is lost or its time has
run out, and is answered once it has its quorum and its index is applied. -/
def completeRead (now : Nat) (node : NodeService) (batch : Nat × PendingRead) : NodeService :=
  if node.raftNode.role ≠ .leader ∨ node.raftNode.currentTerm ≠ batch.2.term then
    node.finishRead batch.1 batch.2 fun request => node.notLeaderResponse request.requestId
  else if batch.2.deadline ≤ now then
    node.finishRead batch.1 batch.2 fun request =>
      { requestId := request.requestId, status := .unavailable
        payload := asciiBytes "READ_QUORUM_TIMEOUT" }
  else if node.readQuorumReached batch.2 = true ∧
      batch.2.readIndex ≤ node.raftService.stateMachine.lastApplied then
    node.finishRead batch.1 batch.2 node.readResponse
  else node

/-- Complete the pending writes and then the pending reads that can be completed. -/
def completePending (node : NodeService) (now : Nat) : NodeService :=
  let node := node.pendingWrites.foldl completeWrite node
  node.pendingReads.foldl (completeRead now) node

/-! ## Membership and snapshots -/

/-- Go on with a membership change: a learner that has caught up is proposed as a member, and the
requester is told when the stable configuration has changed. -/
def processMembershipChange : NodeM Unit := do
  let node ← get
  match node.pendingMembershipChange with
  | none => pure ()
  | some pending =>
    let request := pending.event.request
    let adding := decide (request.type = .addNodeRequest)
    if node.raftNode.role ≠ .leader then
      set { node with pendingMembershipChange := none }
      sendClient pending.event (node.notLeaderResponse request.requestId)
    else if adding = true ∧ pending.logIndex = none then
      if node.raftNode.learnerCaughtUp request.nodeId = false then pure ()
      else
        let proposed ← onService (RaftKVService.proposeConfChange .addNode
          (membershipOperation request).member request.operationId)
        if proposed.accepted = false then
          modify fun node => { node with pendingMembershipChange := none }
          reply pending.event .internalError "ADD_NODE_PROPOSAL_FAILED"
        else
          modify fun node =>
            { node with
              pendingMembershipChange := some { pending with logIndex := some proposed.index } }
          sendRpcs proposed.outbound
    else
      match node.raftNode.clusterConfig with
      | none => pure ()
      | some cluster =>
        if pending.logIndex = none ∨ node.raftNode.jointConfig.isSome = true ∨
            (configurationMemberIds cluster).contains request.nodeId ≠ adding then pure ()
        else
          set { node with pendingMembershipChange := none }
          sendClient pending.event
            { requestId := request.requestId, status := .ok, payload := asciiBytes "OK"
              members := node.memberEndpoints }

/-- Publish a snapshot when it is due, and read it back. -/
def publishSnapshot : NodeM Unit := do
  let node ← get
  match ← onService (RaftKVService.tryPublishSnapshot node.config.snapshotEntryThreshold) with
  | .error error => throw error
  | .ok result =>
    if result.performed then
      let node ← get
      match node.raftService.store.load with
      | .error error => throw ("failed to load state snapshot: " ++ error)
      | .ok _ => pure ()
    else pure ()

/-- Advance logical time, if any has passed. -/
def elapse (elapsedMs : Nat) : NodeM Unit :=
  if elapsedMs = 0 then pure () else serve (.tick elapsedMs)

end NodeService

/-! ## Steps of the loop -/

/-- One step of the loop: a message or a request is taken from its queue, or a phase is carried
out with the time the clock shows. -/
inductive LoopEvent where
  | receive (source : NodeId) (payload : RpcPayload)
  | peersDrained
  | request (event : ClientRequestEvent) (now : Nat)
  | requestsDrained
  | startReads (now : Nat)
  | elapse (elapsedMs : Nat)
  | complete (now : Nat)
  | changeMembership
  | publishSnapshot
  deriving DecidableEq, Repr

namespace LoopEvent

/-- The phase in which a step is made. -/
def phase : LoopEvent → LoopPhase
  | .receive _ _ | .peersDrained => .peers
  | .request _ _ | .requestsDrained => .clients
  | .startReads _ => .reads
  | .elapse _ => .tick
  | .complete _ => .pending
  | .changeMembership => .membership
  | .publishSnapshot => .publish

/-- The phase after a step. The connections to peers are renewed when their queue is empty. -/
def following : LoopEvent → LoopPhase
  | .receive _ _ => .peers
  | .peersDrained | .request _ _ => .clients
  | .requestsDrained => .reads
  | .startReads _ => .tick
  | .elapse _ => .pending
  | .complete _ => .membership
  | .changeMembership => .publish
  | .publishSnapshot => .peers

/-- The handler of a step. -/
def handler : LoopEvent → NodeM Unit
  | .receive source payload => NodeService.processPeerMessage source payload
  | .peersDrained => NodeService.syncPeerTransport
  | .request event now => NodeService.processClientRequest event now
  | .requestsDrained => pure ()
  | .startReads now => NodeService.startReadBatchIfReady now
  | .elapse elapsedMs => NodeService.elapse elapsedMs
  | .complete now => modify (·.completePending now)
  | .changeMembership => NodeService.processMembershipChange
  | .publishSnapshot => NodeService.publishSnapshot

end LoopEvent

namespace NodeService

/-- The node a handler leaves behind, stopped if the handler threw, with what it has queued. -/
def handled (node : NodeService) (event : LoopEvent) : NodeService :=
  match event.handler node with
  | .ok _ after => { after with phase := event.following }
  | .error error after =>
    { after with
      phase := event.following, fatalError := some (errorOr error "node runtime failed") }

/-- Whether the loop may make a step now. -/
def Ready (node : NodeService) (event : LoopEvent) : Prop :=
  node.fatalError = none ∧ event.phase = node.phase

instance (node : NodeService) (event : LoopEvent) : Decidable (node.Ready event) :=
  inferInstanceAs (Decidable (_ ∧ _))

/-- The node after a step, with its queues emptied. -/
def after (node : NodeService) (event : LoopEvent) : NodeService :=
  { node.handled event with peerOutbound := [], clientResponses := [] }

/-- What a step answers to clients. -/
def answers (node : NodeService) (event : LoopEvent) : List Answer :=
  (node.handled event).clientResponses

/-- One step, when the loop may make it. -/
def step (node : NodeService) (event : LoopEvent) : Option NodeService :=
  if node.Ready event then some (node.after event) else none

/-- Start a node service from the files in its data directory. -/
def start (config : NodeServiceConfig) (files : Files) : Except String NodeService := do
  let snapshot ← files.snapshot.load.mapError ("failed to load state snapshot: " ++ ·)
  let raftService ← RaftKVService.construct config.makeRaftConfig
    (some files.journal.reopenedBarrier) {} snapshot true files.snapshot
  if (config.members.map (·.nodeId)).contains config.nodeId = false then
    .error "node id is absent from membership"
  else if config.members = [] ∨ config.readTimeoutMs = 0 then
    .error "invalid NodeService configuration"
  else if config.learner = true ∧ config.members.length < 2 then
    .error "learner requires an existing voter endpoint"
  else .ok { config, raftService }

end NodeService

end DistributedKV
