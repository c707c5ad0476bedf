import DistributedKV.Cluster.Network
import DistributedKV.Foundation.Cursor
import DistributedKV.Raft.Node.Quorums

/-!
# Clusters of fixed membership

All hosts are voters, they agree on the set of voters, and only logical time and client commands
act on them from outside. A quorum is a strict majority of the voters; the majorities the code
counts are quorums, and any two quorums meet.
-/

namespace DistributedKV

open Majority
open TermLog (Rules Meets)

/-- The configuration a node runs with: its peers come from the bootstrap cluster, if any. -/
def NodeConfig.effective (config : NodeConfig) : NodeConfig :=
  match config.bootstrapCluster with
  | none => config
  | some cluster =>
    { config with peers := applyPeersFromConfiguration cluster config.nodeId }

/-- Every host is a voter and has the hosts as its voters. -/
structure Deployment.FixedMembership (deployment : Deployment) : Prop where
  nodeId : ∀ host ∈ deployment.hosts, (deployment.config host).nodeId = host
  learner : ∀ host ∈ deployment.hosts, (deployment.config host).learner = false
  learners : ∀ host ∈ deployment.hosts, (deployment.config host).learners = []
  voters : ∀ host ∈ deployment.hosts,
    insert host (deployment.config host).effective.peers.toFinset = deployment.hosts

/-- The local calls of a run without membership changes and snapshots: logical time and client
commands. -/
def Operation.Plain : Operation → Prop
  | .tick _ | .propose _ => True
  | _ => False

/-- A configuration in which node `n` is one of the voters, which are its peers and itself. -/
structure FixedConfig (voters : Finset NodeId) (n : NodeId) (config : NodeConfig) : Prop where
  nodeId : config.nodeId = n
  learner : config.learner = false
  learners : config.learners = []
  voters : insert n config.peers.toFinset = voters
  nodup : config.peers.Nodup
  self : n ∉ config.peers
  batch : 1 ≤ config.maximumEntriesPerAppend

/-- Entries are stamped with their term, quorums are strict majorities, and a leader writes no
configuration change and numbers its entries from one. -/
def majorityRules (voters : Finset NodeId) : Rules NodeId LogEntry where
  stamp := LogEntry.term
  quorum members := members ⊆ voters ∧ voters.card < 2 * members.card
  valid position entry := entry.index = position + 1 ∧ entry.type ≠ .confChange

theorem majorities_meet (voters : Finset NodeId) : Meets (majorityRules voters).quorum := by
  rintro first second ⟨hfirst, hfirstCard⟩ ⟨hsecond, hsecondCard⟩
  have hmajority : IsMajority first voters := ⟨hfirst, hfirstCard⟩
  exact hmajority.meets ⟨hsecond, hsecondCard⟩ (Adjacent.refl voters)

namespace FixedConfig

variable {voters : Finset NodeId} {n : NodeId} {config : NodeConfig}

theorem self_mem (hconfig : FixedConfig voters n config) : n ∈ voters := by
  rw [← hconfig.voters]
  exact Finset.mem_insert_self _ _

theorem mem_peers_iff (hconfig : FixedConfig voters n config) {v : NodeId} :
    v ∈ config.peers ↔ v ∈ voters ∧ v ≠ n := by
  rw [← hconfig.voters, Finset.mem_insert, List.mem_toFinset]
  constructor
  · intro hv
    exact ⟨.inr hv, fun h => hconfig.self (h ▸ hv)⟩
  · rintro ⟨hself | hv, hne⟩
    · exact absurd hself hne
    · exact hv

end FixedConfig

section Counting

variable {voters : Finset NodeId} {n : NodeId} {node : RaftNode}

theorem FixedConfig.counts_voters (hconfig : FixedConfig voters n node.config)
    (hjoint : node.jointConfig = none) : node.CountsVoters voters where
  joint := hjoint
  self := hconfig.nodeId ▸ hconfig.self
  nodup := hconfig.nodup
  voters := by rw [List.toFinset_cons, hconfig.nodeId, hconfig.voters]

theorem RaftNode.quorum_of_election (hconfig : FixedConfig voters n node.config)
    (hjoint : node.jointConfig = none) (hvotes : node.votesReceived ⊆ voters)
    (helection : node.hasElectionQuorum = true) :
    (majorityRules voters).quorum node.votesReceived := by
  have hmajority := (hconfig.counts_voters hjoint).election hvotes helection
  exact ⟨hmajority.subset, hmajority.more⟩

theorem RaftNode.quorum_of_replication (hconfig : FixedConfig voters n node.config)
    (hjoint : node.jointConfig = none) {index : Nat}
    (hreplication : node.hasReplicationQuorum index = true) :
    (majorityRules voters).quorum (voters.filter fun id => node.replicated index id = true) := by
  have hmajority := (hconfig.counts_voters hjoint).replication.mp hreplication
  exact ⟨hmajority.subset, hmajority.more⟩

end Counting

end DistributedKV
