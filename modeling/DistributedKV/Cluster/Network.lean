import DistributedKV.Foundation.EventRun
import DistributedKV.Raft.Node.Operation

/-!
# Clusters of Raft nodes

Nodes that exchange requests and responses over a network that may delay, reorder, duplicate and
lose them: every packet ever sent stays available for delivery, and need not be delivered. A node
may stop between two operations or inside one, after any of its saves, and is then constructed
again from the states it had saved. What an operation sends is on the network only once the
operation has returned.
-/

namespace DistributedKV

/-- A message on the network. -/
structure Packet where
  source : NodeId
  destination : NodeId
  payload : RpcPayload
  deriving DecidableEq, Repr

/-- The nodes of a cluster and the configurations they are constructed with. -/
structure Deployment where
  hosts : Finset NodeId
  config : NodeId → NodeConfig

/-- The nodes and everything ever sent. -/
structure Cluster where
  node : NodeId → RaftNode
  sent : List Packet

/-- A persistence barrier whose saves and loads always succeed, with nothing saved. -/
def RaftPersistence.reliable : RaftPersistence where
  save _ _ := .ok ()

/-- The call a packet leads to at its destination. Snapshots are handled above the node. -/
def Packet.operation (packet : Packet) : Option Operation :=
  match packet.payload with
  | .requestVote request => some (.handleRequestVote packet.source request)
  | .requestVoteResponse response => some (.handleRequestVoteResponse packet.source response)
  | .appendEntries request => some (.handleAppendEntries packet.source request)
  | .appendEntriesResponse response =>
    some (.handleAppendEntriesResponse packet.source response)
  | .installSnapshot _ => none
  | .installSnapshotResponse _ => none

/-- What makes a node act: a local call, or the delivery of a packet. -/
inductive Stimulus where
  | call (host : NodeId) (operation : Operation)
  | deliver (packet : Packet)
  deriving DecidableEq, Repr

/-- An operation, an operation that is cut short by a crash that loses its last saves, or a
restart between operations. -/
inductive Event where
  | run (stimulus : Stimulus)
  | crash (stimulus : Stimulus) (lost : Nat)
  | restart (host : NodeId)
  deriving DecidableEq, Repr

namespace Cluster

/-- The node a stimulus concerns and the call it leads to. Only sent packets are delivered. -/
def target (cluster : Cluster) : Stimulus → Option (NodeId × Operation)
  | .call host operation => some (host, operation)
  | .deliver packet =>
    if packet ∈ cluster.sent then packet.operation.map fun operation =>
      (packet.destination, operation)
    else none

/-- The cluster after a node returned from an operation. -/
def returned (cluster : Cluster) (host : NodeId) (node : RaftNode)
    (outbound : List OutboundRpc) : Cluster where
  node := Function.update cluster.node host node
  sent := outbound.map (fun rpc => { source := host, destination := rpc.destination
                                     payload := rpc.payload }) ++ cluster.sent

/-- The cluster after a node was constructed again from some saved states. -/
def restarted (deployment : Deployment) (cluster : Cluster) (host : NodeId)
    (saved : List RaftPersistentState) : Option Cluster :=
  match RaftNode.restart (deployment.config host) (cluster.node host) saved with
  | .error _ => none
  | .ok node => some { cluster with node := Function.update cluster.node host node }

/-- One event, when it can happen. An operation that throws does not return; its effect is that
of a crash. -/
def step (deployment : Deployment) (cluster : Cluster) : Event → Option Cluster
  | .run stimulus =>
    match cluster.target stimulus with
    | none => none
    | some (host, operation) =>
      if host ∈ deployment.hosts then
        match RaftNode.perform operation (cluster.node host) with
        | .error _ _ => none
        | .ok outbound node => some (cluster.returned host node outbound)
      else none
  | .crash stimulus lost =>
    match cluster.target stimulus with
    | none => none
    | some (host, operation) =>
      let saved := ((cluster.node host).after operation).saved
      if host ∈ deployment.hosts ∧ (cluster.node host).saved.length + lost ≤ saved.length then
        cluster.restarted deployment host (saved.drop lost)
      else none
  | .restart host =>
    if host ∈ deployment.hosts then
      cluster.restarted deployment host (cluster.node host).saved
    else none

/-- Every host is freshly constructed over an empty reliable barrier and nothing was sent. -/
def Initial (deployment : Deployment) (cluster : Cluster) : Prop :=
  cluster.sent = [] ∧ ∀ host ∈ deployment.hosts,
    RaftNode.construct (deployment.config host) (some .reliable) = .ok (cluster.node host)

end Cluster

/-- The local calls of an event satisfy a condition; deliveries and restarts always do. -/
def Event.Within (allowed : Operation → Prop) : Event → Prop
  | .run (.call _ operation) | .crash (.call _ operation) _ => allowed operation
  | _ => True

namespace Cluster

/-- One event whose local calls are allowed. -/
def Next (deployment : Deployment) (allowed : Operation → Prop) (cluster following : Cluster) :
    Prop :=
  ∃ event, Event.Within allowed event ∧ cluster.step deployment event = some following

/-- A run: it starts initially, and from one point to the next there is one event, or none. -/
abbrev Run (deployment : Deployment) (allowed : Operation → Prop) (run : Nat → Cluster) : Prop :=
  EventRun.Run (Initial deployment) (Next deployment allowed) run

/-- The cluster in which every host is freshly constructed. -/
def boot (deployment : Deployment) : Cluster where
  node host := (RaftNode.construct (deployment.config host) (some .reliable)).toOption.getD
    (RaftNode.fresh (deployment.config host) none)
  sent := []

/-- The cluster after a list of events; an event that cannot happen changes nothing. -/
def execute (deployment : Deployment) (events : List Event) (cluster : Cluster) : Cluster :=
  EventRun.execute (step deployment) events cluster

theorem boot_initial {deployment : Deployment}
    (haccepted : ∀ host ∈ deployment.hosts,
      (RaftNode.construct (deployment.config host) (some .reliable)).isOk = true) :
    Initial deployment (boot deployment) := by
  refine ⟨rfl, fun host hhost => ?_⟩
  have hok := haccepted host hhost
  cases hconstruct : RaftNode.construct (deployment.config host) (some .reliable) with
  | error error => simp [hconstruct, Except.isOk, Except.toBool] at hok
  | ok node => simp [boot, hconstruct, Except.toOption]

end Cluster

end DistributedKV
