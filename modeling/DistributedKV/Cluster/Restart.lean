import DistributedKV.Cluster.Replication
import DistributedKV.Raft.ConfChangeCodec
import DistributedKV.Raft.Node.Reconstruct

/-!
# Restarting a node

A configuration the constructor has accepted once is accepted again, so a construction over the
states a node has saved can only be refused for the states themselves. When it succeeds, the node
is a follower in the term, with the vote, the log and the commit index of its latest image, and is
related to the same history (`NodeFacts.of_construct`).
-/

namespace DistributedKV

open TermLog Barrier RaftNode

variable {voters : Finset NodeId} {config : NodeConfig} {H : RaftHistory} {n : NodeId}
  {node final : RaftNode} {state : RaftPersistentState}

/-- The configuration passes the checks of the constructor. -/
structure NodeConfig.Accepted (config : NodeConfig) : Prop where
  parameters : config.parametersValid = true
  peers : distinctIds [config.nodeId] config.peers = true
  learners : distinctIds (config.nodeId :: config.peers) config.learners = true
  bootstrap : ∀ cluster, config.bootstrapCluster = some cluster →
    validateClusterConfiguration cluster (if config.learner then 0 else config.nodeId) = .ok ()

theorem NodeConfig.accepted_of_construct
    (hrun : RaftNode.construct config (some .reliable) = .ok node) : config.Accepted := by
  obtain ⟨⟨⟨hparameters, hpeers, hlearners⟩, -, hmembership⟩, -⟩ := construct_cases hrun
  exact ⟨hparameters, hpeers, hlearners, hmembership.configuration⟩

/-- An accepted configuration whose voters are the hosts is fixed. -/
theorem Deployment.FixedMembership.fixed {deployment : Deployment}
    (hmembership : deployment.FixedMembership) (hn : n ∈ deployment.hosts)
    (haccepted : (deployment.config n).Accepted) :
    FixedConfig deployment.hosts n (deployment.config n).effective := by
  have hid := hmembership.nodeId n hn
  have hbatch : 1 ≤ (deployment.config n).maximumEntriesPerAppend := by
    have hparameters := haccepted.parameters
    simp only [NodeConfig.parametersValid, Bool.and_eq_true, bne_iff_ne] at hparameters
    exact Nat.one_le_iff_ne_zero.mpr hparameters.2
  have hvoters := hmembership.voters n hn
  rw [NodeConfig.effective] at hvoters ⊢
  cases hbootstrap : (deployment.config n).bootstrapCluster with
  | none =>
    simp only [hbootstrap] at hvoters ⊢
    have hdistinct := haccepted.peers
    simp only [distinctIds, List.singleton_append, List.nodup_cons, Bool.and_eq_true,
      decide_eq_true_eq, hid] at hdistinct
    exact ⟨hid, hmembership.learner n hn, hmembership.learners n hn, hvoters,
      hdistinct.1.2, hdistinct.1.1, hbatch⟩
  | some cluster =>
    simp only [hbootstrap] at hvoters ⊢
    have hnodup := nodup_of_validate (haccepted.bootstrap cluster hbootstrap)
    exact ⟨hid, hmembership.learner n hn, hmembership.learners n hn, hvoters,
      hnodup.filter _, by simp [applyPeersFromConfiguration, hid], hbatch⟩

/-! ## The constructed node -/

theorem RaftNode.started_of_unchanged
    (hcluster : state.clusterConfig = none ∨ state.clusterConfig = config.bootstrapCluster)
    (hjoint : state.jointConfig = none) :
    RaftNode.startedJoint state = none ∧
      (state.clusterConfig <|> config.bootstrapCluster) = config.bootstrapCluster ∧
      (RaftNode.startedConfig config state).nodeId = config.nodeId ∧
      (RaftNode.startedConfig config state).peers = config.effective.peers ∧
      (RaftNode.startedConfig config state).learners = config.learners := by
  rw [startedJoint, startedConfig, NodeConfig.effective, hjoint]
  rcases hcluster with hnone | hsame
  · rw [hnone]
    cases config.bootstrapCluster <;> exact ⟨rfl, rfl, rfl, rfl, rfl⟩
  · rw [hsame]
    cases config.bootstrapCluster <;> exact ⟨rfl, rfl, rfl, rfl, rfl⟩

/-- A voter of an accepted configuration stays a voter. -/
theorem NodeConfig.Accepted.started_config (haccepted : config.Accepted)
    (hlearner : config.learner = false)
    (hcluster : state.clusterConfig = none ∨ state.clusterConfig = config.bootstrapCluster)
    (hjoint : state.jointConfig = none) :
    RaftNode.startedConfig config state = config.effective := by
  rw [startedConfig, NodeConfig.effective, hjoint]
  rcases hcluster with hnone | hsame
  · cases config.bootstrapCluster <;> rw [hnone]
  · rw [hsame]
    cases hbootstrap : config.bootstrapCluster with
    | none => rfl
    | some cluster =>
      have hmember : config.nodeId ∈ configurationMemberIds cluster := by
        have hvalid := haccepted.bootstrap cluster hbootstrap
        have hzero : config.nodeId ≠ 0 := by
          have hparameters := haccepted.parameters
          simp only [NodeConfig.parametersValid, Bool.and_eq_true, bne_iff_ne] at hparameters
          exact hparameters.1.1.1.1.1
        rw [hlearner, if_neg (by decide), validateClusterConfiguration] at hvalid
        split_ifs at hvalid with _ _ hlocal
        exact hlocal.resolve_left hzero
      have hvoter : (!(configurationMemberIds cluster).contains config.nodeId) =
          config.learner := by simp [hmember, hlearner]
      simp only [hvoter, loadedPeers]

/-- A node constructed over a current journal is related to the history. -/
theorem NodeFacts.of_construct (hsound : Sound voters H) (haccepted : config.Accepted)
    (hfixed : FixedConfig voters n config.effective) (hlearner : config.learner = false)
    {saved : List RaftPersistentState} (hdurable : DurableHead voters config H n saved)
    (hrun : RaftNode.construct config (some { RaftPersistence.reliable with saved }) = .ok node) :
    NodeFacts voters config H n node := by
  obtain ⟨⟨-, hsafety, -⟩, hnode⟩ := construct_cases hrun
  generalize himage : loadedImage (some { RaftPersistence.reliable with saved }) = image
    at hsafety hnode
  -- The image has the term, vote and log of the history, and the old membership.
  obtain ⟨hcluster, hjoint, hactive, hterm, hvote, hlog, hcommit⟩ :
      (image.clusterConfig = none ∨ image.clusterConfig = config.bootstrapCluster) ∧
        image.jointConfig = none ∧ image.activeMembershipOperation = none ∧
        image.currentTerm = H.term n ∧ image.votedFor = H.vote n (H.term n) ∧
        image.restoredLog.entries = RaftLog.empty.boundary :: H.log n ∧
        Settled (majorityRules voters) H (H.term n) image.commitIndex (H.log n) := by
    cases saved with
    | nil =>
      obtain ⟨hterm, hempty⟩ : H.term n = 0 ∧ H.log n = [] := hdurable
      have hvote : H.vote n (H.term n) = none := by
        cases hcast : H.vote n (H.term n) with
        | none => rfl
        | some c =>
          obtain ⟨log, hstood⟩ := hsound.invariant.voteStood hcast
          have hpos := (hsound.invariant.stoodTerm hstood).1
          omega
      rw [← himage, hvote, hterm, hempty]
      exact ⟨.inl rfl, rfl, rfl, rfl, rfl, rfl, .inl rfl⟩
    | cons head older =>
      have hfacts : DurableFacts voters config H n image := himage ▸ hdurable
      have hentries := hfacts.entries
      refine ⟨.inr hfacts.cluster, hfacts.joint, hfacts.active, hfacts.term, hfacts.vote, ?_,
        hfacts.commit⟩
      rcases hsafety with hinitial | hloaded
      · rw [hinitial] at hentries
        cases hentries
      · rw [RaftLog.entries_restore hloaded.restored, hentries]
  obtain ⟨hstartedJoint, hstable, -⟩ := started_of_unchanged hcluster hjoint
  have hconfig := haccepted.started_config hlearner hcluster hjoint
  obtain ⟨huncompacted, hsuffix⟩ := List.cons.inj hlog
  have hplain : node = (loaded config (some { RaftPersistence.reliable with saved })
      image).resetElectionTimer := by
    rw [hnode, recoverPending, show (loaded config _ image).jointConfig = none
      from hstartedJoint]
  have heffective : node.config = config.effective := by
    rw [hplain]
    exact hconfig
  rw [hplain] at heffective ⊢
  exact
    { core :=
        { effective := heffective
          fixed := by rwa [heffective]
          reliable := ⟨saved, rfl⟩
          cluster := hstable
          joint := hstartedJoint
          pending := rfl
          active := hactive
          uncompacted := huncompacted
          term := hterm
          log := hsuffix
          vote := hvote
          commit := hcommit
          candidate := fun h => by cases h
          leader := fun h => by cases h }
      durable := hdurable }

end DistributedKV
