import DistributedKV.Foundation.EventRun
import DistributedKV.Raft.Node.Reconstruct

/-!
# The lifetime of a node

A node is constructed with a bootstrap or a persisted configuration, performs operations, and may
at any time be constructed again from states it has saved. The runs are those whose constructions
and operations meet given conditions, so that a result can say which ones it is about.
-/

namespace DistributedKV

open Barrier EventRun

namespace RaftNode

variable {node : RaftNode}

/-! ## What the constructor establishes -/

/-- Where the configuration of a constructed node comes from. -/
inductive Configured (config : NodeConfig) (state : RaftPersistentState) (node : RaftNode) :
    Prop where
  | restored (cluster : ClusterConfiguration) (hsaved : state.clusterConfig = some cluster)
      (hvalid : validateClusterConfiguration cluster 0 = .ok ())
      (hcluster : node.clusterConfig = some cluster)
      (hjoint : node.jointConfig = state.jointConfig)
      (hpeers : node.config.peers = loadedPeers cluster state.jointConfig config.nodeId)
      (hlearner : node.config.learner =
        !(configurationMemberIds cluster).contains config.nodeId)
  | bootstrapped (cluster : ClusterConfiguration) (hsaved : state.clusterConfig = none)
      (hbootstrap : config.bootstrapCluster = some cluster)
      (hvalid : validateClusterConfiguration cluster
        (if config.learner then 0 else config.nodeId) = .ok ())
      (hcluster : node.clusterConfig = some cluster)
      (hjoint : node.jointConfig = none)
      (hpeers : node.config.peers = applyPeersFromConfiguration cluster config.nodeId)
      (hlearner : node.config.learner = config.learner)

/-- What is known of a node that was constructed with a configuration in force. -/
structure Launched (config : NodeConfig) (state : RaftPersistentState) (node : RaftNode) :
    Prop where
  role : node.role = .follower
  nodeId : node.config.nodeId = config.nodeId
  nonzero : config.nodeId ≠ 0
  learners : node.config.learners = config.learners
  distinct : (config.nodeId :: config.peers ++ config.learners).Nodup
  configured : Configured config state node

theorem nodup_of_distinct_ids {seen ids : List NodeId} (h : distinctIds seen ids ≠ false) :
    (seen ++ ids).Nodup := by
  rw [distinctIds] at h
  simp only [ne_eq, Bool.not_eq_false, Bool.and_eq_true, decide_eq_true_eq] at h
  exact h.1

/-- A node constructed with a configuration in force. -/
theorem launched_of_construct {config : NodeConfig} {persistence : Option RaftPersistence}
    (hrun : construct config persistence = .ok node)
    (hcluster : node.clusterConfig.isSome = true) :
    Launched config (loadedImage persistence) node := by
  obtain ⟨⟨⟨hparameters, -, hlearners⟩, -, hmembership⟩, hnode⟩ := construct_cases hrun
  obtain ⟨active, pending, hrecovered⟩ :=
    recover_pending_fields (loaded config persistence (loadedImage persistence))
  rw [hrecovered] at hnode
  have hnonzero : config.nodeId ≠ 0 := by
    intro hzero
    simp [NodeConfig.parametersValid, hzero] at hparameters
  have hdistinct : (config.nodeId :: config.peers ++ config.learners).Nodup :=
    nodup_of_distinct_ids (by rw [hlearners]; decide)
  have hvalid := hmembership.configuration
  have hrole : node.role = .follower := by rw [hnode]; rfl
  have hconfig : node.config = startedConfig config (loadedImage persistence) := by rw [hnode]; rfl
  have hstable : node.clusterConfig =
      ((loadedImage persistence).clusterConfig <|> config.bootstrapCluster) := by rw [hnode]; rfl
  have hjoint : node.jointConfig = startedJoint (loadedImage persistence) := by rw [hnode]; rfl
  rw [ConfigurationValid] at hvalid
  cases hsaved : (loadedImage persistence).clusterConfig with
  | some cluster =>
    rw [hsaved] at hvalid hstable
    rw [startedConfig, hsaved] at hconfig
    rw [startedJoint, hsaved] at hjoint
    exact ⟨hrole, by rw [hconfig], hnonzero, by rw [hconfig], hdistinct,
      .restored cluster hsaved hvalid hstable hjoint (by rw [hconfig]) (by rw [hconfig])⟩
  | none =>
    rw [hsaved] at hvalid hstable
    rw [hstable] at hcluster
    obtain ⟨cluster, hbootstrap⟩ := Option.isSome_iff_exists.mp hcluster
    have hsome : config.bootstrapCluster = some cluster := hbootstrap
    rw [startedConfig, hsaved, hsome] at hconfig
    rw [startedJoint, hsaved] at hjoint
    exact ⟨hrole, by rw [hconfig], hnonzero, by rw [hconfig], hdistinct,
      .bootstrapped cluster hsaved hsome (hvalid cluster hsome) (hstable.trans hbootstrap) hjoint
        (by rw [hconfig]) (by rw [hconfig])⟩

/-! ## Runs -/

variable (starts : NodeConfig → RaftPersistentState → Prop) (allows : RaftNode → Operation → Prop)

/-- A construction that meets its condition and has a configuration in force. -/
def Starts (persistence : Option RaftPersistence) (node : RaftNode) : Prop :=
  ∃ config, starts config (loadedImage persistence) ∧ construct config persistence = .ok node ∧
    node.clusterConfig.isSome = true

/-- An operation that meets its condition, whether it returns or throws, or a restart from any
states. -/
inductive Lives : RaftNode → RaftNode → Prop where
  | perform (node : RaftNode) (operation : Operation) (hallows : allows node operation) :
      Lives node (node.after operation)
  | restart (node following : RaftNode) (saved : List RaftPersistentState)
      (hstarts : Starts starts
        (node.persistence.map fun persistence => { persistence with saved }) following) :
      Lives node following

/-- A run of a node, from a construction on. -/
def Lifetime (run : Nat → RaftNode) : Prop :=
  Run (fun node => ∃ persistence, Starts starts persistence node) (Lives starts allows) run

variable {starts allows} {run : Nat → RaftNode}

theorem Lifetime.invariant (hrun : Lifetime starts allows run) {I : RaftNode → Prop}
    (hstart : ∀ config state node, starts config state → Launched config state node → I node)
    (hstep : ∀ node operation, allows node operation → I node → I (node.after operation))
    (k : Nat) : I (run k) := by
  have hlaunch : ∀ {persistence node}, Starts starts persistence node → I node := by
    rintro persistence node ⟨config, hstarts, hconstruct, hcluster⟩
    exact hstart config _ node hstarts (launched_of_construct hconstruct hcluster)
  refine Run.invariant hrun (fun node ⟨_, hstarts⟩ => hlaunch hstarts) ?_ k
  intro node following hlives hnode
  cases hlives with
  | perform operation hallows => exact hstep node operation hallows hnode
  | restart _ saved hstarts => exact hlaunch hstarts

/-- The node after a list of operations. -/
def afterAll (node : RaftNode) (operations : List Operation) : RaftNode :=
  operations.foldl after node

/-- Allowed operations make a run. -/
theorem Lifetime.of_operations {persistence : Option RaftPersistence}
    (hstarts : Starts starts persistence node) {operations : List Operation}
    (hallows : ∀ k operation, operations[k]? = some operation →
      allows (node.afterAll (operations.take k)) operation) :
    Lifetime starts allows fun k => node.afterAll (operations.take k) := by
  refine ⟨⟨persistence, hstarts⟩, fun k => ?_⟩
  rcases Nat.lt_or_ge k operations.length with hk | hk
  · have hget : operations[k]? = some operations[k] := List.getElem?_eq_getElem hk
    have htake : operations.take (k + 1) = operations.take k ++ [operations[k]] := by simp
    refine .inr ?_
    show Lives starts allows (node.afterAll (operations.take k))
      (node.afterAll (operations.take (k + 1)))
    have hnext : node.afterAll (operations.take (k + 1)) =
        (node.afterAll (operations.take k)).after operations[k] := by
      rw [htake, afterAll, List.foldl_append]
      rfl
    rw [hnext]
    exact .perform _ _ (hallows k _ hget)
  · refine .inl ?_
    simp only [List.take_of_length_le hk, List.take_of_length_le (Nat.le_succ_of_le hk)]

/-! ## Small clusters -/

/-- A member with short hosts. -/
def plainMember (nodeId : NodeId) : ClusterMember :=
  { nodeId, clientHost := [104], clientPort := 1, peerHost := [104], peerPort := 2 }

/-- A configuration of such members. -/
def plainCluster (configId : UInt64) (ids : List NodeId) : ClusterConfiguration :=
  { configId, members := ids.map plainMember }

/-- The entry of an anonymous change. -/
def plainChange (index term : Nat) (type : ConfChangeType) (joint : Bool) (nodeId : NodeId)
    (targetConfig : ClusterConfiguration) : LogEntry :=
  let member := plainMember nodeId
  let change : ConfChangeEntry := { type, joint, member, targetConfig, operationId := 0 }
  { index, term, type := .confChange
    command := (encodeConfChangeEntry change).toOption.getD [] }

/-- A vote for the candidate of a term. -/
def granted (term : Nat) : RequestVoteResponse :=
  { term, electionTerm := term, voteGranted := true }

/-- The acknowledgement of the log up to an index. -/
def matchedUpTo (term matchIndex : Nat) : AppendEntriesResponse :=
  { term, success := true, requestPreviousLogIndex := 0, requestEntryCount := matchIndex
    matchIndex, conflictIndex := matchIndex + 1, conflictTerm := none, readContext := 0 }

/-- How a new node and a list of operations end: whether there is a configuration at the start,
and what a view shows of the last state. -/
def outcome {α : Type} (config : NodeConfig) (operations : List Operation) (view : RaftNode → α) :
    Option (Bool × α) :=
  (construct config none).toOption.map fun node =>
    (node.clusterConfig.isSome, view (node.afterAll operations))

theorem view_of_outcome {α : Type} {config : NodeConfig} {operations : List Operation}
    {view : RaftNode → α} {seen : α} (hnode : construct config none = .ok node)
    (houtcome : outcome config operations view = some (true, seen)) :
    node.clusterConfig.isSome = true ∧ view (node.afterAll operations) = seen := by
  rw [outcome, hnode] at houtcome
  exact Prod.mk.inj (Option.some.inj houtcome)

theorem lifetime_of_outcome {α : Type} {config : NodeConfig} {operations : List Operation}
    {view : RaftNode → α} {seen : α} (houtcome : outcome config operations view = some (true, seen)) :
    ∃ node, construct config none = .ok node ∧
      Lifetime (fun _ _ => True) (fun _ _ => True)
        (fun k => node.afterAll (operations.take k)) ∧
      view (node.afterAll operations) = seen := by
  cases hnode : construct config none with
  | error error =>
    rw [outcome, hnode] at houtcome
    cases houtcome
  | ok node =>
    obtain ⟨hcluster, hview⟩ := view_of_outcome hnode houtcome
    have hstarts : Starts (fun _ _ => True) none node := ⟨config, trivial, hnode, hcluster⟩
    exact ⟨node, rfl, Lifetime.of_operations hstarts fun _ _ _ => trivial, hview⟩

end RaftNode

end DistributedKV
