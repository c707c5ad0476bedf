import DistributedKV.Raft.Node.Quorums
import DistributedKV.Raft.Node.Roster

/-!
# The commit rule of a leader

The scan of `advanceCommitIndex` and the stateless scan of `calculateCommitIndex` count replicas in
different ways. In every state a node can be in its peers are distinct and it is not one of them
(`Arises.enrolled`), so outside joint consensus both find the same index: the greatest one of the
current term that a majority holds.
-/

namespace DistributedKV

open Barrier Majority

namespace RaftNode

variable {node : RaftNode} {operation : Operation}

/-! ## The voters in every state -/

/-- The node and its peers are distinct, and so are the members of the stable configuration. -/
structure Enrolled (node : RaftNode) : Prop where
  voters : (node.config.nodeId :: node.config.peers).Nodup
  members : (memberIds node.clusterConfig).Nodup

theorem Enrolled.congr {after : RaftNode} (h : node.Enrolled)
    (hself : after.config.nodeId = node.config.nodeId)
    (hpeers : after.config.peers = node.config.peers)
    (hcluster : after.clusterConfig = node.clusterConfig) : after.Enrolled where
  voters := by
    rw [hself, hpeers]
    exact h.voters
  members := by
    rw [hcluster]
    exact h.members

theorem enrolled_of_peers {cluster : ClusterConfiguration} {ids : List NodeId}
    (hcluster : node.clusterConfig = some cluster)
    (hmembers : (configurationMemberIds cluster).Nodup) (hids : ids.Nodup)
    (hpeers : node.config.peers = ids.filter (· != node.config.nodeId)) : node.Enrolled where
  voters := by
    rw [hpeers, List.nodup_cons]
    exact ⟨by simp, hids.filter _⟩
  members := by
    rw [hcluster]
    exact hmembers

/-- A constructed node has distinct peers. -/
theorem enrolled_of_construct {config : NodeConfig} {persistence : Option RaftPersistence}
    (hrun : construct config persistence = .ok node) : node.Enrolled := by
  cases hcluster : node.clusterConfig with
  | some cluster =>
    have hroster := (launched_of_construct hrun (by rw [hcluster]; rfl)).rostered
    obtain ⟨stable, hstable, hnodup⟩ := hroster.cluster
    refine ⟨List.nodup_cons.mpr ⟨fun hself => ?_, hroster.peers.nodup⟩, ?_⟩
    · exact ((hroster.peers.mem _).mp hself).2 rfl
    · rw [hstable]
      exact hnodup
  | none =>
    obtain ⟨⟨⟨-, hpeers, -⟩, -, -⟩, hnode⟩ := construct_cases hrun
    obtain ⟨active, pending, hrecovered⟩ :=
      recover_pending_fields (loaded config persistence (loadedImage persistence))
    rw [hrecovered] at hnode
    have hnone : ((loadedImage persistence).clusterConfig <|> config.bootstrapCluster) = none := by
      rw [← hcluster, hnode]
      rfl
    obtain ⟨hsaved, hbootstrap⟩ : (loadedImage persistence).clusterConfig = none ∧
        config.bootstrapCluster = none := by simpa using hnone
    have hconfig : node.config = config := by
      have hstarted : node.config = startedConfig config (loadedImage persistence) := by
        rw [hnode]
        rfl
      rw [hstarted, startedConfig, hsaved, hbootstrap]
    refine ⟨?_, by rw [hcluster]; exact List.nodup_nil⟩
    rw [hconfig]
    exact nodup_of_distinct_ids (by rw [hpeers]; decide)

theorem Enrolled.rollback (h : node.Enrolled) (pending : Option (Bytes × Bool)) :
    (node.rollbackPending pending).1.Enrolled := by
  unfold rollbackPending dropPending
  split
  · split_ifs
    · exact h
    · cases hcluster : node.clusterConfig with
      | none => exact h.congr rfl rfl hcluster.symm
      | some cluster =>
        have hmembers : (configurationMemberIds cluster).Nodup := by
          have hnodup := h.members
          rwa [hcluster] at hnodup
        exact enrolled_of_peers rfl hmembers hmembers rfl
    · exact h.congr rfl rfl rfl
  · exact h

theorem Enrolled.join {after : RaftNode} {cluster target : ClusterConfiguration}
    (h : node.Enrolled) (hcluster : node.clusterConfig = some cluster)
    (hvalid : (configurationMemberIds target).Nodup)
    (hsame : after.clusterConfig = node.clusterConfig)
    (hpeers : after.config.peers =
      (jointMemberIds cluster target).filter (· != after.config.nodeId)) : after.Enrolled := by
  have hmembers : (configurationMemberIds cluster).Nodup := by
    have hnodup := h.members
    rwa [hcluster] at hnodup
  exact enrolled_of_peers (hsame.trans hcluster) hmembers (nodup_joint_member_ids hmembers hvalid)
    hpeers

/-- Every change leaves distinct peers. -/
theorem Micro.enrolled {first second : RaftNode} (hstep : Micro operation first second)
    (h : first.Enrolled) : second.Enrolled := by
  cases hstep with
  | prepare hprepare =>
    cases hprepare with
    | stepDown term leader hmessage hterm =>
      unfold becomeFollower resetElectionTimer
      split_ifs <;> exact h.congr rfl rfl rfl
    | proposeUnencoded cluster change error hoperation hproposable hencoded =>
      exact h.join hproposable.clusterConfig (nodup_of_validate hproposable.valid) rfl rfl
    | proposeChange cluster change encoded hoperation hproposable hencoded =>
      exact h.join hproposable.clusterConfig (nodup_of_validate hproposable.valid) rfl rfl
    | merge source request log hoperation hrole hterm hprevious hlog =>
      have hmerged : ({ first with log } : RaftNode).Enrolled := h.congr rfl rfl rfl
      exact hmerged.rollback _
    | join cluster entry change hrole happended hjoint hcluster =>
      obtain ⟨_, _, _, _, _, _, hchange⟩ := happended
      exact h.join hcluster (nodup_of_validate (valid_of_change_of hchange)) rfl rfl
    | save hsave => cases hsave; exact h.congr rfl rfl rfl
    | _ => exact h.congr rfl rfl rfl
  | commit hcommit => cases hcommit <;> exact h.congr rfl rfl rfl
  | apply happly =>
    cases happly with
    | joint cluster change hcommitted hjoint hcluster =>
      obtain ⟨-, _, -, hchange⟩ := hcommitted
      exact h.join hcluster (nodup_of_validate (valid_of_change_of hchange)) rfl rfl
    | stable change hcommitted hjoint =>
      obtain ⟨-, _, -, hchange⟩ := hcommitted
      have hnodup := nodup_of_validate (valid_of_change_of hchange)
      exact enrolled_of_peers rfl hnodup hnodup rfl
    | save hsave => cases hsave; exact h.congr rfl rfl rfl
    | _ => exact h.congr rfl rfl rfl

/-- The states a node can be in, also in the middle of an operation: it is constructed and then
moves by the changes that operations are made of. -/
inductive Arises : RaftNode → Prop where
  | constructed {node : RaftNode} {config : NodeConfig} {persistence : Option RaftPersistence}
      (hrun : construct config persistence = .ok node) : Arises node
  | changed {first second : RaftNode} {operation : Operation} (hfirst : Arises first)
      (hstep : Micro operation first second) : Arises second

theorem Arises.enrolled (h : node.Arises) : node.Enrolled := by
  induction h with
  | constructed hrun => exact enrolled_of_construct hrun
  | changed _ hstep ih => exact hstep.enrolled ih

theorem Arises.after (h : node.Arises) (operation : Operation) : (node.after operation).Arises :=
  invariant_after (fun _ _ hstep hfirst => hfirst.changed hstep) h

/-! ## The scan -/

/-- The voters that hold an index: the leader, and the peers with a match index that is not
below. -/
def holders (node : RaftNode) (index : Nat) : Finset NodeId :=
  insert node.config.nodeId
    (node.config.peers.toFinset.filter fun peer => index ≤ (node.matchIndex peer).getD 0)

/-- The indexes above the commit index that have an entry of the current term and are held by a
strict majority of the leader and its peers. -/
def committable (node : RaftNode) : Set Nat :=
  {index | node.commitIndex < index ∧
    (∃ entry, node.log.entryAt index = some entry ∧ entry.term = node.currentTerm) ∧
    IsMajority (node.holders index) (node.config.nodeId :: node.config.peers).toFinset}

theorem le_committable_index {count index : Nat} (hlater : node.commitIndex < index)
    (hrange : index ≤ node.commitIndex + count)
    (hterm : node.log.termAt index = some node.currentTerm)
    (hquorum : node.hasReplicationQuorum index = true) : index ≤ node.committableIndex count := by
  induction count with
  | zero => omega
  | succ count ih =>
    rw [committableIndex]
    split_ifs with hpasses
    · exact hrange
    · have hother : index ≠ node.commitIndex + (count + 1) := by
        rintro rfl
        exact hpasses ⟨hterm, hquorum⟩
      exact ih (by omega)

theorem filter_replicated_eq_holders (h : node.Enrolled) {index : Nat} (hpositive : 0 < index)
    (hindex : index ≤ node.log.lastIndex) :
    ((node.config.nodeId :: node.config.peers).toFinset.filter
      fun id => node.replicated index id = true) = node.holders index := by
  have hself : node.config.nodeId ∉ node.config.peers := (List.nodup_cons.mp h.voters).1
  ext id
  rw [holders, List.toFinset_cons, Finset.mem_filter, Finset.mem_insert, Finset.mem_insert,
    Finset.mem_filter]
  by_cases hid : id = node.config.nodeId
  · simp [hid, replicated, hindex]
  · rw [replicated, if_neg hid]
    cases hmatched : node.matchIndex id with
    | none => simp [hid, Nat.not_le.mpr hpositive]
    | some matched => simp [hid]

theorem mem_committable_iff (h : node.Enrolled) (hjoint : node.jointConfig = none) {index : Nat} :
    index ∈ node.committable ↔ node.commitIndex < index ∧
      node.log.termAt index = some node.currentTerm ∧ node.hasReplicationQuorum index = true := by
  have hentry : (∃ entry, node.log.entryAt index = some entry ∧ entry.term = node.currentTerm) ↔
      node.log.termAt index = some node.currentTerm := by
    rw [RaftLog.termAt, Option.map_eq_some_iff]
  have hcounts : node.CountsVoters (node.config.nodeId :: node.config.peers).toFinset :=
    ⟨hjoint, (List.nodup_cons.mp h.voters).1, (List.nodup_cons.mp h.voters).2, rfl⟩
  show _ ∧ _ ∧ _ ↔ _
  rw [hentry]
  refine and_congr_right fun hlater => and_congr_right fun hterm => ?_
  rw [hcounts.replication, filter_replicated_eq_holders h (Nat.zero_lt_of_lt hlater)
    (RaftLog.le_last_index_of_term_at hterm)]

theorem committable_index_greatest (h : node.Enrolled) (hjoint : node.jointConfig = none) :
    let value := node.committableIndex (node.log.lastIndex - node.commitIndex)
    IsGreatest node.committable value ∨ (node.committable = ∅ ∧ value = node.commitIndex) := by
  intro value
  have hupper : ∀ index ∈ node.committable, index ≤ value := by
    intro index hmem
    obtain ⟨hlater, hterm, hquorum⟩ := (mem_committable_iff h hjoint).mp hmem
    have hlast := RaftLog.le_last_index_of_term_at hterm
    exact le_committable_index hlater (by omega) hterm hquorum
  rcases node.committable_index_spec (node.log.lastIndex - node.commitIndex) with hsame | hfound
  · refine .inr ⟨Set.eq_empty_iff_forall_notMem.mpr fun index hmem => ?_, hsame⟩
    exact Nat.not_le.mpr hmem.1 (hsame ▸ hupper index hmem)
  · exact .inl ⟨(mem_committable_iff h hjoint).mpr hfound, hupper⟩

/-! ## The stateless scan -/

/-- The node and the rule count the same peers. -/
theorem length_filter_replicated {index : Nat} {peers : List NodeId}
    (hself : node.config.nodeId ∉ peers) :
    (peers.filter (node.replicated index)).length =
      ((peers.filterMap node.matchIndex).filter (index ≤ ·)).length := by
  induction peers with
  | nil => rfl
  | cons peer rest ih =>
    rw [List.mem_cons, not_or] at hself
    have hreplicated : node.replicated index peer =
        ((node.matchIndex peer).map fun matched => decide (index ≤ matched)).getD false := by
      rw [replicated, if_neg (Ne.symm hself.1)]
      cases node.matchIndex peer <;> rfl
    rw [List.filter_cons, List.filterMap_cons, hreplicated]
    cases hmatched : node.matchIndex peer with
    | none => exact ih hself.2
    | some matched =>
      by_cases hle : index ≤ matched
      · simp [hle, ih hself.2]
      · simp [hle, ih hself.2]

theorem committable_index_eq_commit_scan (h : node.Enrolled) (hjoint : node.jointConfig = none)
    {count : Nat} (hcount : count ≤ node.log.lastIndex - node.commitIndex) :
    node.committableIndex count =
      LogReplication.commitScan node.log node.currentTerm node.commitIndex
        (node.config.peers.filterMap node.matchIndex) (node.config.peers.length + 1) count := by
  induction count with
  | zero => rfl
  | succ count ih =>
    have hself : node.replicated (node.commitIndex + (count + 1)) node.config.nodeId = true := by
      rw [replicated, if_pos rfl, decide_eq_true_iff]
      omega
    rw [committableIndex, LogReplication.commitScan, has_replication_quorum_stable hjoint,
      if_pos hself, length_filter_replicated (List.nodup_cons.mp h.voters).1, ih (by omega)]

/-! ## What a leader commits -/

theorem Apply.commit_index {first second : RaftNode} (hstep : Apply first second) :
    second.commitIndex = first.commitIndex := by
  cases hstep with
  | save hsave => cases hsave; rfl
  | _ => rfl

/-- The node after the commit rule, also when it throws. -/
def advanced (node : RaftNode) : RaftNode :=
  match advanceCommitIndex node with
  | .ok _ final => final
  | .error _ final => final

/-- A leader moves its commit index to what the scan finds. -/
theorem commit_index_advanced (hrole : node.role = .leader) :
    node.advanced.commitIndex =
      node.committableIndex (node.log.lastIndex - node.commitIndex) := by
  have hleader : advanceCommitIndex node = (do
      let commit := node.committableIndex (node.log.lastIndex - node.commitIndex)
      if commit ≠ node.commitIndex then
        set { node with commitIndex := commit }
        applyCommittedConfiguration
        persistOrThrow
      else pure ()) node := by
    rw [advanceCommitIndex, get_bind, if_neg (not_not.mpr hrole)]
  rw [advanced, hleader]
  dsimp only
  by_cases hsame : node.committableIndex (node.log.lastIndex - node.commitIndex) = node.commitIndex
  · rw [if_neg (not_not.mpr hsame)]
    exact hsame.symm
  · obtain ⟨-, hterm, -⟩ := (node.committable_index_spec _).resolve_left hsame
    rw [if_pos hsame, set_bind]
    have htraces : Traces Apply (do applyCommittedConfiguration; persistOrThrow)
        { node with
          commitIndex := node.committableIndex (node.log.lastIndex - node.commitIndex) }
        fun _ _ => True :=
      .bind (traces_apply_committed_configuration (RaftLog.le_last_index_of_term_at hterm))
        fun _ _ _ => (traces_persist.relax fun _ _ => .save).mono fun _ _ _ => trivial
    -- Both ways to end are reached by steps that keep the new commit index.
    have hkeeps : ∀ first second, Apply first second →
        first.commitIndex = node.committableIndex (node.log.lastIndex - node.commitIndex) →
        second.commitIndex = node.committableIndex (node.log.lastIndex - node.commitIndex) :=
      fun _ _ hstep hfirst => hstep.commit_index.trans hfirst
    split
    · rename_i hend
      exact invariant_of_steps hkeeps (htraces.1 _ _ hend).1 rfl
    · rename_i hend
      exact invariant_of_steps hkeeps (htraces.2 _ _ hend) rfl

/-- A leader outside joint consensus commits what the stateless rule says, for any log, term,
commit index and match indexes: the greatest index of its term that a majority holds, and nothing
new when there is none. -/
theorem advance_commits_greatest {origin : RaftNode} (harises : origin.Arises)
    (hrole : origin.role = .leader) (hjoint : origin.jointConfig = none) (log : RaftLog)
    (term commit : Nat) (matched : NodeId → Option Nat) :
    let leader : RaftNode :=
      { origin with log, currentTerm := term, commitIndex := commit, matchIndex := matched }
    let value := LogReplication.calculateCommitIndex log term commit
      (origin.config.peers.filterMap matched) (origin.config.peers.length + 1)
    leader.advanced.commitIndex = value ∧
      (IsGreatest leader.committable value ∨ (leader.committable = ∅ ∧ value = commit)) := by
  intro leader value
  have henrolled : leader.Enrolled := harises.enrolled.congr rfl rfl rfl
  have hvalue : leader.committableIndex (leader.log.lastIndex - leader.commitIndex) = value :=
    committable_index_eq_commit_scan henrolled hjoint le_rfl
  have hleader : leader.role = .leader := hrole
  constructor
  · rw [commit_index_advanced hleader, hvalue]
  · have hgreatest := committable_index_greatest henrolled hjoint
    rwa [hvalue] at hgreatest

/-- A node with two peers that one of them has elected. -/
def electedOfThree : RaftNode :=
  ((fresh { nodeId := 1, peers := [2, 3] } none).resetElectionTimer.after (.tick 300)).after
    (.handleRequestVoteResponse 2 (granted 1))

/-- Its log, with two entries of its term. -/
def twoEntries : RaftLog := (RaftLog.empty.append 1 .command [1]).append 1 .command [2]

/-- It commits both entries when one peer holds them. -/
theorem elected_leader_commits :
    electedOfThree.Arises ∧ electedOfThree.role = .leader ∧ electedOfThree.jointConfig = none ∧
      let leader : RaftNode :=
        { electedOfThree with
          log := twoEntries
          currentTerm := 1
          commitIndex := 0
          matchIndex := fun peer => if peer = 2 then some 2 else some 1 }
      leader.advanced.commitIndex = 2 ∧ IsGreatest leader.committable 2 := by
  have hnew : (fresh { nodeId := 1, peers := [2, 3] } none).resetElectionTimer.Arises :=
    .constructed (show construct { nodeId := 1, peers := [2, 3] } none = .ok _ from rfl)
  have harises : electedOfThree.Arises := (hnew.after _).after _
  have hrole : electedOfThree.role = .leader := by decide +kernel
  have hjoint : electedOfThree.jointConfig = none := by decide +kernel
  have hpeers : electedOfThree.config.peers = [2, 3] := by decide +kernel
  refine ⟨harises, hrole, hjoint, ?_⟩
  have hcommits := advance_commits_greatest harises hrole hjoint twoEntries 1 0
    fun peer => if peer = 2 then some 2 else some 1
  have hvalue : LogReplication.calculateCommitIndex twoEntries 1 0
      (electedOfThree.config.peers.filterMap fun peer => if peer = 2 then some 2 else some 1)
      (electedOfThree.config.peers.length + 1) = 2 := by
    rw [hpeers]
    decide
  dsimp only at hcommits ⊢
  rw [hvalue] at hcommits
  exact ⟨hcommits.1, hcommits.2.resolve_right fun hnone => absurd hnone.2 (by decide)⟩

end RaftNode

end DistributedKV
