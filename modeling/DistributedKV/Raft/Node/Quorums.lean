import DistributedKV.Foundation.Majority
import DistributedKV.Raft.Node.State

/-!
# What the quorum tests count

A node has two tests for a quorum, one for votes and one for replicas. Outside joint consensus it
counts itself and its peers, in joint consensus the members of both configurations. In either
case what passes a test is a majority of the voters it is counted against.
-/

namespace DistributedKV

open Majority

theorem LeaderElection.has_quorum_iff {granted members : Nat} :
    LeaderElection.hasQuorum granted members = true ↔ members < 2 * granted := by
  rw [hasQuorum, quorumSize, decide_eq_true_iff]
  omega

namespace RaftNode

variable {node : RaftNode} {voters : Finset NodeId} {index : Nat}

/-! ## Outside joint consensus -/

/-- The voters a node counts outside joint consensus are itself and its peers. -/
structure CountsVoters (node : RaftNode) (voters : Finset NodeId) : Prop where
  joint : node.jointConfig = none
  self : node.config.nodeId ∉ node.config.peers
  nodup : node.config.peers.Nodup
  voters : (node.config.nodeId :: node.config.peers).toFinset = voters

theorem has_replication_quorum_stable (hjoint : node.jointConfig = none) :
    node.hasReplicationQuorum index = LeaderElection.hasQuorum
      ((if node.replicated index node.config.nodeId then 1 else 0) +
        (node.config.peers.filter (node.replicated index)).length)
      (node.config.peers.length + 1) := by
  unfold hasReplicationQuorum
  rw [hjoint]
  cases node.clusterConfig <;> rfl

namespace CountsVoters

variable (hcounts : node.CountsVoters voters)
include hcounts

theorem nodup_cons : (node.config.nodeId :: node.config.peers).Nodup :=
  List.nodup_cons.mpr ⟨hcounts.self, hcounts.nodup⟩

theorem election (hvotes : node.votesReceived ⊆ voters)
    (helected : node.hasElectionQuorum = true) : IsMajority node.votesReceived voters := by
  have hcount : node.quorumSize ≤ node.votesReceived.card := by
    simpa [hasElectionQuorum, hcounts.joint] using helected
  have hcard : voters.card = node.config.peers.length + 1 := by
    rw [← hcounts.voters, List.toFinset_card_of_nodup hcounts.nodup_cons, List.length_cons]
  rw [quorumSize, LeaderElection.quorumSize] at hcount
  exact ⟨hvotes, by omega⟩

theorem replication : node.hasReplicationQuorum index = true ↔
    IsMajority (voters.filter fun id => node.replicated index id = true) voters := by
  rw [has_replication_quorum_stable hcounts.joint, LeaderElection.has_quorum_iff, ← hcounts.voters,
    isMajority_filter_iff hcounts.nodup_cons, List.filter_cons, List.length_cons]
  split_ifs
  · rw [List.length_cons, Nat.add_comm 1]
  · rw [Nat.zero_add]

end CountsVoters

/-! ## In joint consensus -/

variable {cluster target : ClusterConfiguration}

theorem count_members_eq (holds : NodeId → Bool) (config : ClusterConfiguration) :
    countMembers holds config = ((configurationMemberIds config).filter holds).length := by
  rw [countMembers, configurationMemberIds, List.filter_map, List.length_map]
  rfl

theorem majority_of_count_members {holds : NodeId → Bool} {config : ClusterConfiguration}
    (hnodup : (configurationMemberIds config).Nodup)
    (hquorum : LeaderElection.hasQuorum (countMembers holds config) config.members.length = true) :
    IsMajority ((configurationMemberIds config).toFinset.filter fun id => holds id = true)
      (configurationMemberIds config).toFinset := by
  rw [LeaderElection.has_quorum_iff, count_members_eq] at hquorum
  rwa [isMajority_filter_iff hnodup, configurationMemberIds, List.length_map]

theorem election_counts (hcluster : node.clusterConfig = some cluster)
    (hjoint : node.jointConfig = some target) (helected : node.hasElectionQuorum = true) :
    ∀ config ∈ [cluster, target], LeaderElection.hasQuorum
      (countMembers (fun id => decide (id ∈ node.votesReceived)) config)
      config.members.length = true := by
  unfold hasElectionQuorum at helected
  rw [hcluster, hjoint, Bool.and_eq_true] at helected
  simpa using helected

theorem replication_counts (hcluster : node.clusterConfig = some cluster)
    (hjoint : node.jointConfig = some target)
    (hreplicated : node.hasReplicationQuorum index = true) :
    ∀ config ∈ [cluster, target], LeaderElection.hasQuorum
      (countMembers (node.replicated index) config) config.members.length = true := by
  unfold hasReplicationQuorum at hreplicated
  rw [hcluster, hjoint, Bool.and_eq_true] at hreplicated
  simpa using hreplicated

end RaftNode

end DistributedKV
