import DistributedKV.Raft.ConfChangeCodec
import DistributedKV.Raft.Node.Lifetime
import DistributedKV.Raft.Node.MicroSteps

/-!
# The peers of a node and the configurations in force

The list of peers is rebuilt in five places. In each of them it becomes the members of the stable
configuration and of the joint one, if there is one, without the node itself; no other change
touches it (`Micro.rostered`).
-/

namespace DistributedKV

open Barrier ByteReader List

/-- The member ids of a configuration, if there is one. -/
def memberIds (config : Option ClusterConfiguration) : List NodeId :=
  (config.map configurationMemberIds).getD []

/-! ## Decoded changes -/

theorem valid_of_decode_cluster_configuration {input rest : Bytes} {config : ClusterConfiguration}
    (hrun : decodeClusterConfiguration input = .ok (config, rest)) :
    validateClusterConfiguration config 0 = .ok () := by
  rw [decodeClusterConfiguration, remaining_bind] at hrun
  split_ifs at hrun
  obtain ⟨configId, input, -, hrun⟩ := bind_eq_ok.mp hrun
  obtain ⟨count, input, -, hrun⟩ := bind_eq_ok.mp hrun
  split_ifs at hrun
  obtain ⟨members, input, -, hrun⟩ := bind_eq_ok.mp hrun
  obtain ⟨_, input, hvalid, hrun⟩ := bind_eq_ok.mp hrun
  cases hrun
  cases hcheck : validateClusterConfiguration
      { configId := UInt64.ofNat configId, members } 0 with
  | error message =>
    rw [hcheck] at hvalid
    cases hvalid
  | ok _ => rfl

/-- The target of a change that was decoded is valid. -/
theorem valid_of_decode_conf_change_entry {input : Bytes} {change : ConfChangeEntry}
    (hrun : decodeConfChangeEntry input = .ok change) :
    validateClusterConfiguration change.targetConfig 0 = .ok () := by
  rw [decodeConfChangeEntry] at hrun
  split_ifs at hrun
  obtain ⟨⟨entry, rest⟩, hread, rfl⟩ := except_map_eq_ok.mp hrun
  rw [readConfChangeEntry] at hread
  obtain ⟨magic, input, -, hread⟩ := bind_eq_ok.mp hread
  split_ifs at hread
  obtain ⟨code, input, -, hread⟩ := bind_eq_ok.mp hread
  obtain ⟨joint, input, -, hread⟩ := bind_eq_ok.mp hread
  cases htype : ConfChangeType.ofCode code with
  | none =>
    rw [htype] at hread
    cases hread
  | some type =>
    rw [htype] at hread
    obtain ⟨member, input, -, hread⟩ := bind_eq_ok.mp hread
    rw [remaining_bind] at hread
    split_ifs at hread
    obtain ⟨targetSize, input, -, hread⟩ := bind_eq_ok.mp hread
    rw [remaining_bind] at hread
    split_ifs at hread
    obtain ⟨target, input, htarget, hread⟩ := bind_eq_ok.mp hread
    obtain ⟨operationId, input, -, hread⟩ := bind_eq_ok.mp hread
    cases hread
    exact valid_of_decode_cluster_configuration htarget

/-- The operation that handles a replication request. -/
def Operation.Replicates : Operation → Prop
  | .handleAppendEntries _ _ => True
  | _ => False

namespace RaftNode

variable {node : RaftNode} {operation : Operation}

variable {change : ConfChangeEntry} {cluster target : ClusterConfiguration} {entry : LogEntry}
  {index : Nat}

theorem valid_of_change_of (hchange : changeOf entry = some change) :
    validateClusterConfiguration change.targetConfig 0 = .ok () := by
  rw [changeOf] at hchange
  split_ifs at hchange
  cases hdecode : decodeConfChangeEntry entry.command with
  | error error =>
    rw [hdecode] at hchange
    cases hchange
  | ok decoded =>
    rw [hdecode] at hchange
    cases hchange
    exact valid_of_decode_conf_change_entry hdecode

/-! ## Peers -/

/-- The members of the stable configuration. -/
def clusterIds (node : RaftNode) : List NodeId := memberIds node.clusterConfig

/-- The members of the joint configuration. -/
def jointIds (node : RaftNode) : List NodeId := memberIds node.jointConfig

/-- The peers are distinct, and they are the members of both configurations but the node. -/
structure PeersMatch (node : RaftNode) : Prop where
  nodup : node.config.peers.Nodup
  mem : ∀ id, id ∈ node.config.peers ↔
    (id ∈ node.clusterIds ∨ id ∈ node.jointIds) ∧ id ≠ node.config.nodeId

/-- A node with a stable configuration of distinct members, and peers that match. -/
structure Rostered (node : RaftNode) : Prop where
  cluster : ∃ cluster, node.clusterConfig = some cluster ∧ (configurationMemberIds cluster).Nodup
  peers : PeersMatch node

theorem Rostered.congr {after : RaftNode} (hroster : node.Rostered)
    (hpeers : after.config.peers = node.config.peers)
    (hself : after.config.nodeId = node.config.nodeId)
    (hcluster : after.clusterConfig = node.clusterConfig)
    (hjoint : after.jointConfig = node.jointConfig) : after.Rostered where
  cluster := by
    rw [hcluster]
    exact hroster.cluster
  peers := by
    refine ⟨hpeers ▸ hroster.peers.nodup, fun id => ?_⟩
    rw [hpeers, hself, clusterIds, jointIds, hcluster, hjoint]
    exact hroster.peers.mem id

theorem Rostered.cluster_ne_none (hroster : node.Rostered) : node.clusterConfig ≠ none := by
  obtain ⟨cluster, hcluster, -⟩ := hroster.cluster
  simp [hcluster]

theorem nodup_joint_member_ids (hcluster : (configurationMemberIds cluster).Nodup)
    (htarget : (configurationMemberIds target).Nodup) : (jointMemberIds cluster target).Nodup := by
  rw [jointMemberIds]
  refine List.Nodup.append hcluster (htarget.filter _) fun id hold hnew => ?_
  rw [mem_filter] at hnew
  simp [hold] at hnew

theorem mem_joint_member_ids {id : NodeId} :
    id ∈ jointMemberIds cluster target ↔
      id ∈ configurationMemberIds cluster ∨ id ∈ configurationMemberIds target := by
  rw [jointMemberIds, mem_append, mem_filter]
  by_cases h : id ∈ configurationMemberIds cluster
  · simp [h]
  · simp [h]

theorem rostered_joint (hclusterConfig : node.clusterConfig = some cluster)
    (hjointConfig : node.jointConfig = some target)
    (hcluster : (configurationMemberIds cluster).Nodup)
    (htarget : (configurationMemberIds target).Nodup) (hpeers : node.config.peers =
      (jointMemberIds cluster target).filter (· != node.config.nodeId)) : node.Rostered where
  cluster := ⟨cluster, hclusterConfig, hcluster⟩
  peers := by
    refine ⟨hpeers ▸ (nodup_joint_member_ids hcluster htarget).filter _, fun id => ?_⟩
    rw [hpeers, mem_filter, mem_joint_member_ids, clusterIds, jointIds, hclusterConfig,
      hjointConfig]
    simp [memberIds]

theorem rostered_stable (hclusterConfig : node.clusterConfig = some cluster)
    (hjointConfig : node.jointConfig = none) (hcluster : (configurationMemberIds cluster).Nodup)
    (hpeers : node.config.peers = applyPeersFromConfiguration cluster node.config.nodeId) :
    node.Rostered where
  cluster := ⟨cluster, hclusterConfig, hcluster⟩
  peers := by
    refine ⟨hpeers ▸ hcluster.filter _, fun id => ?_⟩
    rw [hpeers, applyPeersFromConfiguration, mem_filter, clusterIds, jointIds, hclusterConfig,
      hjointConfig]
    simp [memberIds]

/-- The joint peers are added to the stable ones, once. -/
theorem loaded_peers_fold (self : NodeId) (ids peers : List NodeId) (hnodup : peers.Nodup) :
    let loaded := ids.foldl
      (fun peers id => if id ∉ peers ∧ id ≠ self then peers ++ [id] else peers) peers
    loaded.Nodup ∧ ∀ id, id ∈ loaded ↔ id ∈ peers ∨ (id ∈ ids ∧ id ≠ self) := by
  induction ids generalizing peers with
  | nil => exact ⟨hnodup, fun id => by simp⟩
  | cons first rest ih =>
    dsimp only
    rw [foldl_cons]
    split_ifs with hnew
    · have hmore : (peers ++ [first]).Nodup :=
        List.Nodup.append hnodup (nodup_singleton first) (by simpa using hnew.1)
      refine ⟨(ih _ hmore).1, fun id => ?_⟩
      rw [(ih _ hmore).2 id]
      simp only [mem_append, mem_cons, not_mem_nil, or_false]
      grind
    · refine ⟨(ih _ hnodup).1, fun id => ?_⟩
      rw [(ih _ hnodup).2 id]
      simp only [mem_cons]
      grind

/-- A constructed node has the peers of its configurations. -/
theorem Launched.rostered {config : NodeConfig} {state : RaftPersistentState}
    (h : Launched config state node) : node.Rostered := by
  cases h.configured with
  | restored cluster hsaved hvalid hcluster hjoint hpeers hlearner =>
    have hnodup := nodup_of_validate hvalid
    rw [← h.nodeId] at hpeers
    cases hsaved : state.jointConfig with
    | none =>
      rw [hsaved] at hjoint hpeers
      exact rostered_stable hcluster hjoint hnodup hpeers
    | some joint =>
      rw [hsaved] at hjoint hpeers
      have hfold := loaded_peers_fold node.config.nodeId (configurationMemberIds joint)
        (applyPeersFromConfiguration cluster node.config.nodeId) (hnodup.filter _)
      rw [loadedPeers] at hpeers
      refine ⟨⟨cluster, hcluster, hnodup⟩, hpeers ▸ hfold.1, fun id => ?_⟩
      rw [hpeers, hfold.2 id, applyPeersFromConfiguration, mem_filter, clusterIds,
        jointIds, hcluster, hjoint]
      simp only [memberIds, Option.map_some, Option.getD_some, bne_iff_ne, ne_eq]
      tauto
  | bootstrapped cluster hsaved hbootstrap hvalid hcluster hjoint hpeers hlearner =>
    rw [← h.nodeId] at hpeers
    exact rostered_stable hcluster hjoint (nodup_of_validate hvalid) hpeers

theorem Rostered.rollback (hroster : node.Rostered) (pending : Option (Bytes × Bool)) :
    (node.rollbackPending pending).1.Rostered := by
  obtain ⟨cluster, hcluster, hnodup⟩ := hroster.cluster
  unfold rollbackPending dropPending
  split
  · split_ifs
    · exact hroster
    · exact rostered_stable hcluster rfl hnodup (by simp only [hcluster])
    · exact hroster.congr rfl rfl rfl rfl
  · exact hroster

theorem rollback_pending_members (node : RaftNode) (pending : Option (Bytes × Bool)) :
    let dropped := (node.rollbackPending pending).1
    dropped.config.nodeId = node.config.nodeId ∧ dropped.config.learner = node.config.learner ∧
      dropped.config.learners = node.config.learners ∧
      dropped.clusterConfig = node.clusterConfig ∧
      (dropped.jointConfig = node.jointConfig ∨ dropped.jointConfig = none) := by
  unfold rollbackPending dropPending
  split
  · split_ifs
    · exact ⟨rfl, rfl, rfl, rfl, .inl rfl⟩
    · exact ⟨rfl, rfl, rfl, rfl, .inr rfl⟩
    · exact ⟨rfl, rfl, rfl, rfl, .inl rfl⟩
  · exact ⟨rfl, rfl, rfl, rfl, .inl rfl⟩

/-- Every change keeps the peers matching. -/
theorem Micro.rostered {first second : RaftNode} (hstep : Micro operation first second)
    (hroster : first.Rostered) : second.Rostered := by
  obtain ⟨stable, hstable, hnodup⟩ := hroster.cluster
  cases hstep with
  | prepare h =>
    cases h with
    | stepDown term leader hmessage hterm =>
      unfold becomeFollower resetElectionTimer
      split_ifs <;> exact hroster.congr rfl rfl rfl rfl
    | proposeUnencoded cluster change error hoperation hproposable hencoded =>
      cases hproposable.clusterConfig.symm.trans hstable
      exact rostered_joint hstable rfl hnodup (nodup_of_validate hproposable.valid) rfl
    | proposeChange cluster change encoded hoperation hproposable hencoded =>
      cases hproposable.clusterConfig.symm.trans hstable
      exact rostered_joint hstable rfl hnodup (nodup_of_validate hproposable.valid) rfl
    | merge source request log hoperation hrole hterm hprevious hlog =>
      have hmerged : ({ first with log } : RaftNode).Rostered := hroster.congr rfl rfl rfl rfl
      exact hmerged.rollback _
    | join cluster entry change hrole happended hjoint hcluster =>
      obtain ⟨_, _, _, _, _, _, hchange⟩ := happended
      cases hcluster.symm.trans hstable
      exact rostered_joint hstable rfl hnodup (nodup_of_validate (valid_of_change_of hchange))
        rfl
    | fault change hcluster _ => exact absurd hcluster hroster.cluster_ne_none
    | save hsave => cases hsave; exact hroster.congr rfl rfl rfl rfl
    | _ => exact hroster.congr rfl rfl rfl rfl
  | commit h => cases h <;> exact hroster.congr rfl rfl rfl rfl
  | apply h =>
    cases h with
    | joint cluster change hcommitted hjoint hcluster =>
      obtain ⟨-, _, -, hchange⟩ := hcommitted
      cases hcluster.symm.trans hstable
      exact rostered_joint hstable rfl hnodup (nodup_of_validate (valid_of_change_of hchange))
        rfl
    | stable change hcommitted hjoint =>
      obtain ⟨-, _, -, hchange⟩ := hcommitted
      exact rostered_stable rfl rfl (nodup_of_validate (valid_of_change_of hchange)) rfl
    | fault change hcluster _ => exact absurd hcluster hroster.cluster_ne_none
    | save hsave => cases hsave; exact hroster.congr rfl rfl rfl rfl
    | _ => exact hroster.congr rfl rfl rfl rfl

/-! ## Changes that are not applied yet -/

/-- The log holds the change at an index whose configuration is not applied. -/
def Unapplied (node : RaftNode) (index : Nat) (change : ConfChangeEntry) : Prop :=
  node.configurationAppliedIndex < index ∧
    ∃ entry, node.log.entryAt index = some entry ∧ changeOf entry = some change

/-- A request carries the change at an index. -/
def Requested (operation : Operation) (index : Nat) (change : ConfChangeEntry) : Prop :=
  ∃ source request entry, operation = .handleAppendEntries source request ∧
    entry ∈ request.entries ∧ entry.index = index ∧ changeOf entry = some change

/-- A change the node may put into force in an operation: it is in the log and not applied, or a
request carries it at an index that is not applied or not committed. -/
def Coming (operation : Operation) (node : RaftNode) (index : Nat) (change : ConfChangeEntry) :
    Prop :=
  node.Unapplied index change ∨ (Requested operation index change ∧
    (node.configurationAppliedIndex < index ∨ node.commitIndex < index))

theorem Committed.unapplied (hcommitted : node.Committed change) :
    node.Unapplied (node.configurationAppliedIndex + 1) change :=
  ⟨Nat.lt_succ_self _, hcommitted.2⟩

theorem not_unapplied_of_last_index_le (h : node.log.lastIndex ≤ node.configurationAppliedIndex) :
    ¬ node.Unapplied index change := by
  rintro ⟨hlater, entry, hentry, -⟩
  have hrange := (node.log.entry_at_is_some index).mp (by simp [hentry])
  omega

theorem Unapplied.held (h : node.Unapplied index change) :
    change ∈ node.log.entries.filterMap changeOf := by
  obtain ⟨-, entry, hentry, hchange⟩ := h
  exact mem_filterMap.mpr ⟨entry, node.log.entry_at_mem hentry, hchange⟩

theorem entry_at_append_cases (log : RaftLog) {term : Nat} {type : EntryType} {command : Bytes}
    (hentry : (log.append term type command).entryAt index = some entry) :
    log.entryAt index = some entry ∨
      (index = log.lastIndex + 1 ∧
        entry = { index := log.lastIndex + 1, term, type, command }) := by
  have hrange := ((log.append term type command).entry_at_is_some index).mp (by simp [hentry])
  rw [RaftLog.last_index_append] at hrange
  rcases Nat.lt_or_ge log.lastIndex index with hlater | hheld
  · obtain rfl : index = log.lastIndex + 1 := by omega
    rw [RaftLog.entry_at_append_last] at hentry
    exact .inr ⟨rfl, (Option.some.inj hentry).symm⟩
  · have hsome : (log.entryAt index).isSome := (log.entry_at_is_some index).mpr ⟨hrange.1, hheld⟩
    obtain ⟨held, hat⟩ := Option.isSome_iff_exists.mp hsome
    rw [log.entry_at_append_of_some hat] at hentry
    exact .inl (hat.trans hentry)

/-- An entry of a merged log was there or is incoming. -/
theorem entry_at_append_from {log merged : RaftLog} {previousIndex : Nat} {incoming : List LogEntry}
    (hrun : log.appendFrom previousIndex incoming = .ok merged)
    (hentry : merged.entryAt index = some entry) :
    log.entryAt index = some entry ∨ (entry ∈ incoming ∧ entry.index = index) := by
  have hindex := merged.entry_at_index hentry
  obtain ⟨-, -, hboundary, -, hsuffix⟩ := RaftLog.append_from_spec hrun
  rcases mem_cons.mp (merged.entry_at_mem hentry) with hfirst | hmember
  · rw [hboundary] at hfirst
    rw [← hindex, hfirst]
    exact .inl log.entry_at_first
  · have hheld : entry ∈ log.suffix ∨ entry ∈ incoming := by
      rcases hsuffix with ⟨hsame, -⟩ | hreplaced
      · exact .inl (hsame ▸ hmember)
      · rw [hreplaced] at hmember
        exact (mem_append.mp hmember).imp_left mem_of_mem_take
    rcases hheld with hheld | hnew
    · rw [← hindex]
      exact .inl (log.entry_at_of_mem hheld)
    · exact .inr ⟨hnew, hindex⟩

theorem valid_of_encode {encoded : Bytes} (hencoded : encodeConfChangeEntry change = .ok encoded) :
    validateClusterConfiguration change.targetConfig 0 = .ok () := by
  obtain ⟨_, target, -, htarget, -⟩ := encode_conf_change_entry_ok hencoded
  obtain ⟨_, hvalid, -⟩ := except_bind_eq_ok.mp htarget
  exact hvalid

theorem change_of_encoded {decoded : ConfChangeEntry} {encoded : Bytes} {term : Nat}
    (hadded : change.type = .addNode → change.member ∈ change.targetConfig.members)
    (hencoded : encodeConfChangeEntry change = .ok encoded)
    (hchange : changeOf { index, term, type := .confChange, command := encoded } = some decoded) :
    decoded.joint = change.joint ∧ decoded.targetConfig = change.targetConfig := by
  have hread := decode_encode_conf_change_entry
    (fun htype => complete_of_validate (valid_of_encode hencoded) (hadded htype)) hencoded
  rw [changeOf, if_pos rfl, hread] at hchange
  cases hchange
  exact ⟨rfl, rfl⟩

/-- The exit entry leads to the joint configuration. -/
theorem make_joint_exit_entry_spec {exit : ConfChangeEntry}
    (hexit : node.makeJointExitEntry = some exit) :
    exit.joint = false ∧ node.jointConfig = some exit.targetConfig ∧
      (exit.type = .addNode → exit.member ∈ exit.targetConfig.members) := by
  rw [makeJointExitEntry] at hexit
  split at hexit
  · rename_i cluster joint hcluster hjoint
    dsimp only at hexit
    split_ifs at hexit
    · obtain ⟨member, hmember, rfl⟩ := Option.map_eq_some_iff.mp hexit
      exact ⟨rfl, hjoint, fun _ => mem_of_find?_eq_some hmember⟩
    · obtain ⟨member, hmember, rfl⟩ := Option.map_eq_some_iff.mp hexit
      exact ⟨rfl, hjoint, fun htype => by cases htype⟩
  · cases hexit

theorem Proposable.added_mem (h : node.Proposable cluster change) (htype : change.type = .addNode) :
    change.member ∈ change.targetConfig.members := by
  have htarget := h.target
  unfold changeTarget at htarget
  rw [htype] at htarget
  dsimp only at htarget
  split_ifs at htarget
  rw [← Option.some.inj htarget]
  exact (perm_insertionSort _ _).mem_iff.mpr (by simp)

/-- A member of the target was one, or a learner. -/
theorem Proposable.member_of_target (h : node.Proposable cluster change) {id : NodeId}
    (hid : id ∈ configurationMemberIds change.targetConfig) :
    id ∈ node.clusterIds ∨ (id = change.member.nodeId ∧ id ∈ node.config.learners) := by
  have htarget := h.target
  have hcluster : node.clusterIds = configurationMemberIds cluster := by
    rw [clusterIds, h.clusterConfig]
    rfl
  rw [hcluster]
  unfold changeTarget at htarget
  cases htype : change.type with
  | addNode =>
    rw [htype] at htarget
    dsimp only at htarget
    split_ifs at htarget with hlast hrefused
    rw [← Option.some.inj htarget] at hid
    obtain ⟨member, hmember, rfl⟩ := mem_map.mp hid
    rcases mem_append.mp ((perm_insertionSort _ _).mem_iff.mp hmember) with hold | hnew
    · exact .inl (mem_map_of_mem hold)
    · rw [mem_singleton.mp hnew]
      simp only [not_or, Bool.not_eq_false, learnerCaughtUp, Bool.and_eq_true] at hrefused
      exact .inr ⟨rfl, by simpa using hrefused.2.2.1⟩
  | removeNode =>
    rw [htype] at htarget
    dsimp only at htarget
    split_ifs at htarget
    rw [← Option.some.inj htarget] at hid
    obtain ⟨member, hmember, rfl⟩ := mem_map.mp hid
    exact .inl (mem_map_of_mem (mem_of_mem_eraseP hmember))

/-- Where a change in the log comes from: it was there, a request brought it, it leads out of the
joint configuration, or a leader proposed it. -/
inductive Origin (operation : Operation) (node : RaftNode) (index : Nat)
    (change : ConfChangeEntry) : Prop where
  | held (h : node.Unapplied index change)
  | requested (hrole : node.role = .follower) (h : Requested operation index change)
  | exit (hindex : index = node.log.lastIndex + 1) (hrole : node.role = .leader)
      (hstable : change.joint = false) (htarget : node.jointConfig = some change.targetConfig)
  | proposed (cluster : ClusterConfiguration) (proposal : ConfChangeEntry)
      (hindex : index = node.log.lastIndex + 1) (hproposable : node.Proposable cluster proposal)
      (hjoint : change.joint = true) (htarget : change.targetConfig = proposal.targetConfig)

theorem unapplied_append_exit {exit : ConfChangeEntry} {encoded : Bytes} {after : RaftNode}
    (hchange : after.Unapplied index change) (hexit : node.makeJointExitEntry = some exit)
    (hencoded : encodeConfChangeEntry exit = .ok encoded)
    (hlog : after.log = node.log.append node.currentTerm .confChange encoded)
    (happlied : after.configurationAppliedIndex = node.configurationAppliedIndex) :
    node.Unapplied index change ∨ (index = node.log.lastIndex + 1 ∧ change.joint = false ∧
      node.jointConfig = some change.targetConfig) := by
  obtain ⟨hlater, entry, hentry, hchange⟩ := hchange
  rw [happlied] at hlater
  rw [hlog] at hentry
  obtain ⟨hstable, htarget, hadded⟩ := make_joint_exit_entry_spec hexit
  rcases entry_at_append_cases node.log hentry with hheld | ⟨hindex, rfl⟩
  · exact .inl ⟨hlater, entry, hheld, hchange⟩
  · obtain ⟨hsame, hleads⟩ := change_of_encoded hadded hencoded hchange
    exact .inr ⟨hindex, hsame.trans hstable, hleads ▸ htarget⟩

theorem unapplied_append {after : RaftNode} {type : EntryType} {command : Bytes}
    (hchange : after.Unapplied index change) (htype : type ≠ .confChange)
    (hlog : after.log = node.log.append node.currentTerm type command)
    (happlied : after.configurationAppliedIndex = node.configurationAppliedIndex) :
    node.Unapplied index change := by
  obtain ⟨hlater, entry, hentry, hchange⟩ := hchange
  rw [happlied] at hlater
  rw [hlog] at hentry
  rcases entry_at_append_cases node.log hentry with hheld | ⟨-, rfl⟩
  · exact ⟨hlater, entry, hheld, hchange⟩
  · rw [changeOf, if_neg htype] at hchange
    cases hchange

theorem coming_append {after : RaftNode} {type : EntryType} {command : Bytes}
    (hchange : after.Coming operation index change) (htype : type ≠ .confChange)
    (hlog : after.log = node.log.append node.currentTerm type command)
    (happlied : after.configurationAppliedIndex = node.configurationAppliedIndex)
    (hcommit : after.commitIndex = node.commitIndex) : node.Coming operation index change := by
  rcases hchange with hchange | ⟨hrequested, hfresh⟩
  · exact .inl (unapplied_append hchange htype hlog happlied)
  · rw [happlied, hcommit] at hfresh
    exact .inr ⟨hrequested, hfresh⟩

theorem Appended.coming (h : Appended operation node entry change) :
    node.Coming operation entry.index change := by
  obtain ⟨source, request, hoperation, hsent, -, hlater, hchange⟩ := h
  exact .inr ⟨⟨source, request, entry, hoperation, hsent, rfl, hchange⟩, .inr hlater⟩

theorem unapplied_merge {log : RaftLog} {source : NodeId} {request : AppendEntriesRequest}
    {pending : Option (Bytes × Bool)}
    (hlog : node.log.appendFrom request.previousLogIndex request.entries = .ok log)
    (hoperation : operation = .handleAppendEntries source request)
    (hchange : ({ node with log }.rollbackPending pending).1.Unapplied index change) :
    node.Unapplied index change ∨ Requested operation index change := by
  obtain ⟨hkept, -, -, -, hlevel⟩ := { node with log }.rollback_pending_frame pending
  obtain ⟨hlater, entry, hentry, hchange⟩ := hchange
  rw [hlevel] at hlater
  rw [hkept] at hentry
  rcases entry_at_append_from hlog hentry with hheld | ⟨hnew, hindex⟩
  · exact .inl ⟨hlater, entry, hheld, hchange⟩
  · exact .inr ⟨source, request, entry, hoperation, hnew, hindex, hchange⟩

theorem coming_merge {log : RaftLog} {source : NodeId} {request : AppendEntriesRequest}
    {pending : Option (Bytes × Bool)}
    (hlog : node.log.appendFrom request.previousLogIndex request.entries = .ok log)
    (hoperation : operation = .handleAppendEntries source request)
    (hchange : ({ node with log }.rollbackPending pending).1.Coming operation index change) :
    node.Coming operation index change := by
  obtain ⟨-, -, -, hcommit, hlevel⟩ := { node with log }.rollback_pending_frame pending
  rcases hchange with hchange | ⟨hrequested, hfresh⟩
  · rcases unapplied_merge hlog hoperation hchange with hheld | hrequested
    · exact .inl hheld
    · refine .inr ⟨hrequested, .inl ?_⟩
      exact hlevel ▸ hchange.1
  · rw [hlevel, hcommit] at hfresh
    exact .inr ⟨hrequested, hfresh⟩

theorem not_replicates_of_elects (helects : operation.Elects) : ¬ operation.Replicates := by
  cases operation <;> simp_all [Operation.Elects, Operation.Replicates]

theorem Requested.replicates (h : Requested operation index change) : operation.Replicates := by
  obtain ⟨source, request, entry, rfl, -⟩ := h
  trivial

theorem coming_cut {log : RaftLog} {commit : Nat} (hsnapshot : operation.Snapshot)
    (hcut : node.CutFrom log)
    (hchange : { node with log, commitIndex := commit }.Coming operation index change) :
    node.Coming operation index change := by
  rcases hchange with ⟨hlater, entry, hentry, hchange⟩ | ⟨⟨source, request, entry, rfl, -⟩, -⟩
  · exact .inl ⟨hlater, entry, hcut index entry change hentry hchange, hchange⟩
  · exact hsnapshot.elim

theorem origin_of_exit (hrole : node.role = .leader)
    (h : node.Unapplied index change ∨ (index = node.log.lastIndex + 1 ∧ change.joint = false ∧
      node.jointConfig = some change.targetConfig)) : Origin operation node index change := by
  rcases h with hheld | ⟨hindex, hstable, htarget⟩
  · exact .held hheld
  · exact .exit hindex hrole hstable htarget

/-- A change that is not applied has an origin. -/
theorem Micro.origin {first second : RaftNode} (hstep : Micro operation first second)
    (hchange : second.Unapplied index change) : Origin operation first index change := by
  cases hstep with
  | prepare h =>
    cases h with
    | stepDown term leader hmessage hterm =>
      refine .held ?_
      unfold becomeFollower resetElectionTimer at hchange
      split_ifs at hchange <;> exact hchange
    | takeOver helects hrole hquorum =>
      exact .held (unapplied_append hchange (by decide) rfl rfl)
    | appendExit exit encoded helects hrole hfresh hexit hencoded =>
      exact origin_of_exit hrole (unapplied_append_exit hchange hexit hencoded rfl rfl)
    | appendCommand command hrole hoperation =>
      exact .held (unapplied_append hchange (by decide) rfl rfl)
    | proposeChange cluster proposal encoded hoperation hproposable hencoded =>
      obtain ⟨hlater, entry, hentry, hchange⟩ := hchange
      rcases entry_at_append_cases first.log hentry with hheld | ⟨hindex, rfl⟩
      · exact .held ⟨hlater, entry, hheld, hchange⟩
      · obtain ⟨hjoint, htarget⟩ := change_of_encoded hproposable.added_mem hencoded hchange
        exact .proposed cluster proposal hindex hproposable (hjoint.trans hproposable.joint)
          htarget
    | merge source request log hoperation hrole hterm hprevious hlog =>
      exact (unapplied_merge hlog hoperation hchange).elim .held (.requested hrole)
    | cutLog log commit hsnapshot hcut =>
      obtain ⟨hlater, entry, hentry, hchange⟩ := hchange
      exact .held ⟨hlater, entry, hcut index entry change hentry hchange, hchange⟩
    | save hsave => cases hsave; exact .held hchange
    | _ => exact .held hchange
  | commit h => cases h <;> exact .held hchange
  | apply h =>
    cases h with
    | appendExit exit encoded hrole hbehind hexit hencoded =>
      exact origin_of_exit hrole (unapplied_append_exit hchange hexit hencoded rfl rfl)
    | advance hlater => exact .held ⟨Nat.lt_of_succ_lt hchange.1, hchange.2⟩
    | save hsave => cases hsave; exact .held hchange
    | _ => exact .held hchange

end RaftNode

end DistributedKV
