import DistributedKV.Raft.Node.Quorums
import DistributedKV.Raft.Node.Roster

/-!
# Quorums during a membership change

A change a leader proposes adds one member to the stable configuration or removes one. Until it is
complete, nodes may work with the old configuration, with both or with the new one. Whatever
passes a quorum test in one of these phases contains a majority of a configuration of the phase,
and majorities of the two configurations meet, so quorums of any two phases have a member in
common (`change_quorums_meet`).
-/

namespace DistributedKV

open Majority List

/-- The members of a configuration as a set. -/
def ClusterConfiguration.voters (config : ClusterConfiguration) : Finset NodeId :=
  (configurationMemberIds config).toFinset

/-- How far a node is in a change. -/
inductive ChangePhase where
  | old
  | joint
  | new
  deriving DecidableEq, Repr

/-- The members of the configurations that count in a phase. -/
def ChangePhase.voters (cluster target : ClusterConfiguration) : ChangePhase → Finset NodeId
  | .old => cluster.voters
  | .joint => cluster.voters ∪ target.voters
  | .new => target.voters

namespace RaftNode

variable {node : RaftNode} {cluster target config : ClusterConfiguration} {phase : ChangePhase}

/-! ## The configurations of a change -/

/-- A leader may propose to move from a configuration to the other one. -/
def Proposes (cluster target : ClusterConfiguration) : Prop :=
  ∃ (leader : RaftNode) (change : ConfChangeEntry),
    leader.Proposable cluster change ∧ change.targetConfig = target

/-- The target of a change has one member more or less. -/
theorem Proposable.adjacent {change : ConfChangeEntry} (h : node.Proposable cluster change) :
    Adjacent cluster.voters change.targetConfig.voters := by
  have htarget := h.target
  unfold changeTarget at htarget
  cases htype : change.type with
  | addNode =>
    rw [htype] at htarget
    dsimp only at htarget
    split_ifs at htarget
    rw [← Option.some.inj htarget]
    refine Adjacent.of_insert change.member.nodeId (fun id hid => ?_) fun id hid => ?_
    · obtain ⟨member, hmember, rfl⟩ := mem_map.mp (mem_toFinset.mp hid)
      refine mem_toFinset.mpr (mem_map_of_mem ?_)
      exact (perm_insertionSort _ _).mem_iff.mpr (mem_append_left _ hmember)
    · obtain ⟨member, hmember, rfl⟩ := mem_map.mp (mem_toFinset.mp hid)
      rcases mem_append.mp ((perm_insertionSort _ _).mem_iff.mp hmember) with
        hold | hnew
      · exact Finset.mem_insert_of_mem (mem_toFinset.mpr (mem_map_of_mem hold))
      · rw [mem_singleton.mp hnew]
        exact Finset.mem_insert_self _ _
  | removeNode =>
    rw [htype] at htarget
    dsimp only at htarget
    split_ifs at htarget
    rw [← Option.some.inj htarget]
    refine (Adjacent.of_insert change.member.nodeId (fun id hid => ?_) fun id hid => ?_).symm
    · obtain ⟨member, hmember, rfl⟩ := mem_map.mp (mem_toFinset.mp hid)
      exact mem_toFinset.mpr (mem_map_of_mem (mem_of_mem_eraseP hmember))
    · obtain ⟨member, hmember, rfl⟩ := mem_map.mp (mem_toFinset.mp hid)
      by_cases hremoved : member.nodeId = change.member.nodeId
      · rw [hremoved]
        exact Finset.mem_insert_self _ _
      · refine Finset.mem_insert_of_mem (mem_toFinset.mpr (mem_map_of_mem ?_))
        exact (mem_eraseP_of_neg (by simpa using hremoved)).mpr hmember

/-! ## Nodes in a phase -/

/-- A node that works with a stable configuration and belongs to it. -/
structure StableIn (config : ClusterConfiguration) (node : RaftNode) : Prop where
  clusterConfig : node.clusterConfig = some config
  jointConfig : node.jointConfig = none
  peers : node.PeersMatch
  self : node.config.nodeId ∈ configurationMemberIds config

/-- A node in a phase of a change. In joint consensus only the two configurations count, and the
node may belong to either of them. -/
def InPhase (cluster target : ClusterConfiguration) (node : RaftNode) : ChangePhase → Prop
  | .old => node.StableIn cluster
  | .joint => node.clusterConfig = some cluster ∧ node.jointConfig = some target
  | .new => node.StableIn target

theorem StableIn.counts (h : node.StableIn config) : node.CountsVoters config.voters where
  joint := h.jointConfig
  self := fun hself => ((h.peers.mem _).mp hself).2 rfl
  nodup := h.peers.nodup
  voters := by
    ext id
    rw [ClusterConfiguration.voters, mem_toFinset, mem_toFinset, mem_cons,
      h.peers.mem id, clusterIds, jointIds, h.clusterConfig, h.jointConfig]
    by_cases hid : id = node.config.nodeId
    · simp [hid, h.self]
    · simp [hid, memberIds]

theorem StableIn.votes (h : node.StableIn config)
    (hvotes : ∀ id ∈ node.votesReceived, node.isVotingMember id = true) :
    node.votesReceived ⊆ config.voters := by
  intro id hid
  have hvoter := hvotes id hid
  rw [isVotingMember] at hvoter
  rw [← h.counts.voters, toFinset_cons, Finset.mem_insert, mem_toFinset]
  split_ifs at hvoter with hself
  · exact .inl hself
  · exact .inr (by simpa using hvoter)

/-! ## Quorums of a phase -/

/-- Votes of voting members that win an election in a phase. -/
def ElectionQuorum (cluster target : ClusterConfiguration) (phase : ChangePhase)
    (votes : Finset NodeId) : Prop :=
  ∃ node : RaftNode, node.InPhase cluster target phase ∧ node.votesReceived = votes ∧
    (∀ id ∈ votes, node.isVotingMember id = true) ∧ node.hasElectionQuorum = true

/-- The members of a phase that hold an index, when they are enough to commit it. -/
def ReplicationQuorum (cluster target : ClusterConfiguration) (phase : ChangePhase)
    (replicas : Finset NodeId) : Prop :=
  ∃ (node : RaftNode) (index : Nat), node.InPhase cluster target phase ∧
    ((phase.voters cluster target).filter fun id => node.replicated index id = true) = replicas ∧
    node.hasReplicationQuorum index = true

/-- A set that contains a majority of one of the configurations. -/
def HasMajority (cluster target : ClusterConfiguration) (members : Finset NodeId) : Prop :=
  ∃ config ∈ [cluster, target], ∃ part ⊆ members, IsMajority part config.voters

theorem HasMajority.meets {first second : Finset NodeId}
    (hadjacent : Adjacent cluster.voters target.voters) (hfirst : HasMajority cluster target first)
    (hsecond : HasMajority cluster target second) : (first ∩ second).Nonempty := by
  obtain ⟨config, hconfig, part, hpart, hmajority⟩ := hfirst
  obtain ⟨other, hother, otherPart, hotherPart, hotherMajority⟩ := hsecond
  have hnear : Adjacent config.voters other.voters := by
    simp only [mem_cons, not_mem_nil, or_false] at hconfig hother
    rcases hconfig with rfl | rfl <;> rcases hother with rfl | rfl
    · exact Adjacent.refl _
    · exact hadjacent
    · exact hadjacent.symm
    · exact Adjacent.refl _
  obtain ⟨id, hid, hotherId⟩ := hmajority.meets hotherMajority hnear
  exact ⟨id, Finset.mem_inter.mpr ⟨hpart hid, hotherPart hotherId⟩⟩

theorem ElectionQuorum.hasMajority (hcluster : (configurationMemberIds cluster).Nodup)
    {votes : Finset NodeId} (h : ElectionQuorum cluster target phase votes) :
    HasMajority cluster target votes := by
  obtain ⟨node, hphase, rfl, hvotes, helected⟩ := h
  cases phase with
  | old =>
    exact ⟨cluster, by simp, _, Finset.Subset.refl _,
      hphase.counts.election (hphase.votes hvotes) helected⟩
  | new =>
    exact ⟨target, by simp, _, Finset.Subset.refl _,
      hphase.counts.election (hphase.votes hvotes) helected⟩
  | joint =>
    have hcounted := election_counts hphase.1 hphase.2 helected cluster (by simp)
    refine ⟨cluster, by simp, _, fun id hid => ?_, majority_of_count_members hcluster hcounted⟩
    exact of_decide_eq_true (Finset.mem_filter.mp hid).2

theorem ReplicationQuorum.hasMajority (hcluster : (configurationMemberIds cluster).Nodup)
    {replicas : Finset NodeId} (h : ReplicationQuorum cluster target phase replicas) :
    HasMajority cluster target replicas := by
  obtain ⟨node, index, hphase, rfl, hreplicated⟩ := h
  cases phase with
  | old =>
    exact ⟨cluster, by simp, _, Finset.Subset.refl _,
      hphase.counts.replication.mp hreplicated⟩
  | new =>
    exact ⟨target, by simp, _, Finset.Subset.refl _,
      hphase.counts.replication.mp hreplicated⟩
  | joint =>
    have hcounted := replication_counts hphase.1 hphase.2 hreplicated cluster (by simp)
    exact ⟨cluster, by simp, _, Finset.filter_subset_filter _ Finset.subset_union_left,
      majority_of_count_members hcluster hcounted⟩

/-- A set of votes that wins an election in any phase of a change has a member in common with the
replicas of every index that can be committed in any phase, and with the votes that win another
election. -/
theorem change_quorums_meet {self : NodeId}
    (hvalid : validateClusterConfiguration cluster self = .ok ())
    (hproposes : Proposes cluster target) {first second : ChangePhase} {votes : Finset NodeId}
    (hvotes : ElectionQuorum cluster target first votes) :
    (∀ replicas, ReplicationQuorum cluster target second replicas → (votes ∩ replicas).Nonempty) ∧
      ∀ others, ElectionQuorum cluster target second others → (votes ∩ others).Nonempty := by
  obtain ⟨leader, change, hproposable, rfl⟩ := hproposes
  have hcluster := nodup_of_validate hvalid
  have hadjacent := hproposable.adjacent
  have hmajority := hvotes.hasMajority hcluster
  constructor
  · intro replicas hreplicas
    exact hmajority.meets hadjacent (hreplicas.hasMajority hcluster)
  · intro others hothers
    exact hmajority.meets hadjacent (hothers.hasMajority hcluster)

/-- Three members, and a fourth one that is added to them. -/
def threeMembers : ClusterConfiguration := plainCluster 1 [1, 2, 3]

/-- The four members. -/
def fourMembers : ClusterConfiguration := plainCluster 2 [1, 2, 3, 4]

/-- A leader that may propose the addition. -/
def addingLeader : RaftNode :=
  { config := { nodeId := 1, peers := [2, 3], learners := [4] }
    role := .leader
    clusterConfig := some threeMembers
    matchIndex := fun _ => some 0 }

/-- A candidate among the three, with two votes. -/
def oldCandidate : RaftNode :=
  { config := { nodeId := 3, peers := [1, 2] }
    role := .candidate
    clusterConfig := some threeMembers
    votesReceived := {2, 3} }

/-- A leader of the four, with an entry that two of its peers hold. -/
def newLeader : RaftNode :=
  { config := { nodeId := 1, peers := [2, 3, 4] }
    role := .leader
    clusterConfig := some fourMembers
    log := RaftLog.empty.append 1 .command [1]
    matchIndex := fun peer => if peer = 3 then some 0 else some 1 }

/-- The candidate's votes and the replicas of the entry have a member in common. -/
theorem votes_meet_replicas :
    validateClusterConfiguration threeMembers 0 = .ok () ∧ Proposes threeMembers fourMembers ∧
      ElectionQuorum threeMembers fourMembers .old {2, 3} ∧
      ReplicationQuorum threeMembers fourMembers .new {1, 2, 4} ∧
      (({2, 3} : Finset NodeId) ∩ {1, 2, 4}).Nonempty := by
  have hvalid : validateClusterConfiguration threeMembers 0 = .ok () := by decide +kernel
  have hproposes : Proposes threeMembers fourMembers := by
    refine ⟨addingLeader, { type := .addNode, joint := true, member := plainMember 4
                            targetConfig := fourMembers, operationId := 0 }, ?_, rfl⟩
    exact ⟨rfl, rfl, rfl, rfl, rfl, by decide +kernel, by decide +kernel, rfl⟩
  have hvotes : ElectionQuorum threeMembers fourMembers .old {2, 3} := by
    have hroster : oldCandidate.Rostered := rostered_stable rfl rfl (nodup_of_validate hvalid) rfl
    have hvoters : ∀ id ∈ ({2, 3} : Finset NodeId), oldCandidate.isVotingMember id = true := by
      simp [oldCandidate, isVotingMember]
    exact ⟨oldCandidate, ⟨rfl, rfl, hroster.peers, by decide⟩, rfl, hvoters, by decide⟩
  have hreplicas : ReplicationQuorum threeMembers fourMembers .new {1, 2, 4} := by
    have hroster : newLeader.Rostered := rostered_stable rfl rfl (by decide) rfl
    exact ⟨newLeader, 1, ⟨rfl, rfl, hroster.peers, by decide⟩, by decide +kernel, by decide⟩
  exact ⟨hvalid, hproposes, hvotes, hreplicas,
    (change_quorums_meet hvalid hproposes hvotes).1 _ hreplicas⟩

end RaftNode

end DistributedKV
