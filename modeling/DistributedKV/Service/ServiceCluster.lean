import DistributedKV.Cluster.Network
import DistributedKV.Service.RaftKVService

/-!
# Clusters of key-value services

The services of a cluster exchange the packets of their nodes over a network that may delay,
reorder, duplicate and lose them. A service may stop between two calls or inside one, after any of
the saves of its node. It is then constructed again over an empty store, from the states the node
had saved and the snapshot file beside it.
-/

namespace DistributedKV

/-- A call of a service. -/
inductive ServiceCall where
  | tick (elapsedMs : Nat)
  | submit (command : KVCommand)
  | takeResult (index : Nat)
  | handleRequestVote (source : NodeId) (request : RequestVoteRequest)
  | handleRequestVoteResponse (source : NodeId) (response : RequestVoteResponse)
  | handleAppendEntries (source : NodeId) (request : AppendEntriesRequest)
  | handleAppendEntriesResponse (source : NodeId) (response : AppendEntriesResponse)
  | handleInstallSnapshot (source : NodeId) (request : InstallSnapshotRequest)
  | handleInstallSnapshotResponse (source : NodeId) (response : InstallSnapshotResponse)
  | tryPublishSnapshot (entryThreshold : Nat)
  | proposeConfChange (type : ConfChangeType) (member : ClusterMember) (operationId : UInt64)
  | addLearner (learner : NodeId)
  deriving DecidableEq, Repr

namespace RaftKVService

/-- Execute a call; the result is what the service sends and the error it reports. -/
def perform : ServiceCall → ServiceM (List OutboundRpc × String)
  | .tick elapsedMs => tick elapsedMs
  | .submit command => do
      let (result, error) ← submit command
      pure (result.outbound, error)
  | .takeResult index => do
      let _ ← takeResult index
      pure ([], "")
  | .handleRequestVote source request => do
      let response ← handleRequestVote request
      pure ([{ destination := source, payload := .requestVoteResponse response }], "")
  | .handleRequestVoteResponse source response => handleRequestVoteResponse source response
  | .handleAppendEntries source request => do
      let (response, error) ← handleAppendEntries request
      pure ([{ destination := source, payload := .appendEntriesResponse response }], error)
  | .handleAppendEntriesResponse source response => handleAppendEntriesResponse source response
  | .handleInstallSnapshot source request => do
      let (response, error) ← handleInstallSnapshot request
      pure ([{ destination := source, payload := .installSnapshotResponse response }], error)
  | .handleInstallSnapshotResponse source response =>
    handleInstallSnapshotResponse source response
  | .tryPublishSnapshot entryThreshold => do
      match ← tryPublishSnapshot entryThreshold with
      | .error error => pure ([], error)
      | .ok _ => pure ([], "")
  | .proposeConfChange type member operationId => do
      let result ← proposeConfChange type member operationId
      pure (result.outbound, "")
  | .addLearner learner => do
      let _ ← addLearner learner
      pure ([], "")

/-- The service a call leaves behind, also when it throws. -/
def after (service : RaftKVService) (call : ServiceCall) : RaftKVService :=
  match perform call service with
  | .ok _ service => service
  | .error _ service => service

/-- Construct the service again from some saved states and the snapshot file beside it. -/
def restart (config : NodeConfig) (service : RaftKVService) (saved : List RaftPersistentState) :
    Except String RaftKVService := do
  let snapshot ← service.store.load
  construct config (service.raftNode.persistence.map fun persistence => { persistence with saved })
    {} snapshot service.sendsSnapshots service.store

end RaftKVService

/-- The call a packet leads to at its destination. -/
def Packet.serviceCall (packet : Packet) : ServiceCall :=
  match packet.payload with
  | .requestVote request => .handleRequestVote packet.source request
  | .requestVoteResponse response => .handleRequestVoteResponse packet.source response
  | .appendEntries request => .handleAppendEntries packet.source request
  | .appendEntriesResponse response => .handleAppendEntriesResponse packet.source response
  | .installSnapshot request => .handleInstallSnapshot packet.source request
  | .installSnapshotResponse response => .handleInstallSnapshotResponse packet.source response

/-- The nodes of a cluster, and which of their services send snapshots. -/
structure ServiceDeployment extends Deployment where
  sendsSnapshots : NodeId → Bool

/-- The services and everything ever sent. -/
structure ServiceCluster where
  service : NodeId → RaftKVService
  sent : List Packet

/-- What makes a service act: a local call, or the delivery of a packet. -/
inductive ServiceStimulus where
  | call (host : NodeId) (call : ServiceCall)
  | deliver (packet : Packet)
  deriving DecidableEq, Repr

/-- A call, a call that is cut short by a crash that loses its last saves, or a restart between
calls. -/
inductive ServiceEvent where
  | run (stimulus : ServiceStimulus)
  | crash (stimulus : ServiceStimulus) (lost : Nat)
  | restart (host : NodeId)
  deriving DecidableEq, Repr

namespace ServiceCluster

/-- The service a stimulus concerns and the call it leads to. Only sent packets are delivered. -/
def target (cluster : ServiceCluster) : ServiceStimulus → Option (NodeId × ServiceCall)
  | .call host call => some (host, call)
  | .deliver packet =>
    if packet ∈ cluster.sent then some (packet.destination, packet.serviceCall) else none

/-- The cluster after a service returned from a call. -/
def returned (cluster : ServiceCluster) (host : NodeId) (service : RaftKVService)
    (outbound : List OutboundRpc) : ServiceCluster where
  service := Function.update cluster.service host service
  sent := outbound.map (fun rpc => { source := host, destination := rpc.destination
                                     payload := rpc.payload }) ++ cluster.sent

/-- The cluster after a service was constructed again from some saved states. -/
def restarted (deployment : ServiceDeployment) (cluster : ServiceCluster) (host : NodeId)
    (saved : List RaftPersistentState) : Option ServiceCluster :=
  match RaftKVService.restart (deployment.config host) (cluster.service host) saved with
  | .error _ => none
  | .ok service => some { cluster with service := Function.update cluster.service host service }

/-- One event, when it can happen. A call that throws does not return; its effect is that of a
crash. -/
def step (deployment : ServiceDeployment) (cluster : ServiceCluster) :
    ServiceEvent → Option ServiceCluster
  | .run stimulus =>
    match cluster.target stimulus with
    | none => none
    | some (host, call) =>
      if host ∈ deployment.hosts then
        match RaftKVService.perform call (cluster.service host) with
        | .error _ _ => none
        | .ok (outbound, _) service => some (cluster.returned host service outbound)
      else none
  | .crash stimulus lost =>
    match cluster.target stimulus with
    | none => none
    | some (host, call) =>
      let saved := ((cluster.service host).after call).raftNode.saved
      if host ∈ deployment.hosts ∧
          (cluster.service host).raftNode.saved.length + lost ≤ saved.length then
        cluster.restarted deployment host (saved.drop lost)
      else none
  | .restart host =>
    if host ∈ deployment.hosts then
      cluster.restarted deployment host (cluster.service host).raftNode.saved
    else none

/-- Every service is freshly constructed over an empty reliable barrier, without a snapshot, and
nothing was sent. -/
def Initial (deployment : ServiceDeployment) (cluster : ServiceCluster) : Prop :=
  cluster.sent = [] ∧ ∀ host ∈ deployment.hosts,
    RaftKVService.construct (deployment.config host) (some .reliable) {} none
      (deployment.sendsSnapshots host) {} = .ok (cluster.service host)

end ServiceCluster

/-- The local calls of an event satisfy a condition; deliveries and restarts always do. -/
def ServiceEvent.Within (allowed : ServiceCall → Prop) : ServiceEvent → Prop
  | .run (.call _ call) | .crash (.call _ call) _ => allowed call
  | _ => True

namespace ServiceCluster

/-- One event whose local calls are allowed. -/
def Next (deployment : ServiceDeployment) (allowed : ServiceCall → Prop)
    (cluster following : ServiceCluster) : Prop :=
  ∃ event, ServiceEvent.Within allowed event ∧ cluster.step deployment event = some following

/-- A run: it starts initially, and from one point to the next there is one event, or none. -/
abbrev Run (deployment : ServiceDeployment) (allowed : ServiceCall → Prop)
    (run : Nat → ServiceCluster) : Prop :=
  EventRun.Run (Initial deployment) (Next deployment allowed) run

/-- The cluster in which every service is freshly constructed. -/
def boot (deployment : ServiceDeployment) : ServiceCluster where
  service host := (RaftKVService.construct (deployment.config host) (some .reliable) {} none
    (deployment.sendsSnapshots host) {}).toOption.getD
      { raftNode := RaftNode.fresh (deployment.config host) none }
  sent := []

theorem boot_initial {deployment : ServiceDeployment}
    (haccepted : ∀ host ∈ deployment.hosts,
      (RaftKVService.construct (deployment.config host) (some .reliable) {} none
        (deployment.sendsSnapshots host) {}).isOk = true) :
    Initial deployment (boot deployment) := by
  refine ⟨rfl, fun host hhost => ?_⟩
  have hok := haccepted host hhost
  cases hconstruct : RaftKVService.construct (deployment.config host) (some .reliable) {} none
      (deployment.sendsSnapshots host) {} with
  | error error => simp [hconstruct, Except.isOk, Except.toBool] at hok
  | ok service => simp [boot, hconstruct, Except.toOption]

end ServiceCluster

end DistributedKV
