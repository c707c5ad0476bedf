import DistributedKV.Raft.Node.Operation
import DistributedKV.Raft.RaftLogFacts
import DistributedKV.Foundation.SmallSteps

/-!
# What an operation can do to a node

The changes of state that operations are made of, each with the conditions under which the code
makes it. An operation first prepares, then commits at most once, and then applies what is
committed; it does nothing else, also when it throws (`phased_perform`). An invariant of a node
is proved by looking at each change once (`invariant_after`).
-/

namespace DistributedKV

open Barrier Relation

/-- The operations that replace the log by a snapshot boundary or cut it there. -/
def Operation.Snapshot : Operation → Prop
  | .compactLogPrefix _ _ | .applySnapshotBoundary _ _ | .replaceLogWithSnapshotBoundary _ _ => True
  | _ => False

/-- The operation that lets time pass. -/
def Operation.Elapses : Operation → Prop
  | .tick _ => True
  | _ => False

/-- The operations in which a node can win an election. -/
def Operation.Elects : Operation → Prop
  | .tick _ | .handleRequestVoteResponse _ _ => True
  | _ => False

/-- The operations in which a leader learns that a peer holds its log up to an index. -/
def Operation.Credits (peer : NodeId) (index : Nat) : Operation → Prop
  | .handleAppendEntriesResponse source response => source = peer ∧ response.matchIndex = index
  | .onInstallSnapshotSuccess source boundary => source = peer ∧ boundary = index
  | _ => False

theorem Operation.Elects.not_credits {operation : Operation} (helects : operation.Elects)
    {peer : NodeId} {index : Nat} : ¬ operation.Credits peer index := by
  cases operation with
  | tick elapsedMs => exact id
  | handleRequestVoteResponse source response => exact id
  | _ => exact helects.elim

/-- The operations of a leader in which it can commit. -/
def Operation.Advances : Operation → Prop
  | .handleAppendEntriesResponse _ _ | .propose _ | .proposeConfChange _ _ _
  | .onInstallSnapshotSuccess _ _ => True
  | _ => False

namespace RaftNode

/-- The next committed entry that is not applied yet carries the change. -/
def Committed (node : RaftNode) (change : ConfChangeEntry) : Prop :=
  node.configurationAppliedIndex < node.commitIndex ∧
    ∃ entry, node.log.entryAt (node.configurationAppliedIndex + 1) = some entry ∧
      changeOf entry = some change

/-- An uncommitted entry of the request that is being handled carries the change. -/
def Appended (operation : Operation) (node : RaftNode) (entry : LogEntry)
    (change : ConfChangeEntry) : Prop :=
  ∃ source request, operation = .handleAppendEntries source request ∧ entry ∈ request.entries ∧
    entry ∈ node.log.suffix ∧ node.commitIndex < entry.index ∧ changeOf entry = some change

/-- A leader may propose the joint change on its stable configuration. -/
structure Proposable (node : RaftNode) (cluster : ClusterConfiguration)
    (change : ConfChangeEntry) : Prop where
  role : node.role = .leader
  pending : node.pendingConfChangeIndex = none
  jointConfig : node.jointConfig = none
  clusterConfig : node.clusterConfig = some cluster
  admitted : node.operationAdmitted
    { operationId := change.operationId, type := change.type, member := change.member } = true
  target : node.changeTarget cluster change.type change.member = some change.targetConfig
  valid : validateClusterConfiguration change.targetConfig node.config.nodeId = .ok ()
  joint : change.joint = true

/-- The log of a snapshot boundary has no configuration change that was not there before. -/
def CutFrom (node : RaftNode) (log : RaftLog) : Prop :=
  ∀ index entry change, log.entryAt index = some entry → changeOf entry = some change →
    node.log.entryAt index = some entry

/-- A save that is accepted. -/
inductive Save : RaftNode → RaftNode → Prop where
  | persist (node : RaftNode) (persistence : RaftPersistence)
      (hpersistence : node.persistence = some persistence)
      (haccepted : persistence.save persistence.saved node.persistentState = .ok ()) :
      Save node
        { node with
          persistence := some { persistence with
            saved := node.persistentState :: persistence.saved } }

/-- The changes before anything is committed. -/
inductive Prepare (operation : Operation) : RaftNode → RaftNode → Prop where
  | wait (node : RaftNode) (leaderId : Option NodeId)
      (electionElapsedMs heartbeatElapsedMs electionTimeoutMs : Nat) (randomState : UInt64) :
      Prepare operation node
        { node with
          leaderId, electionElapsedMs, heartbeatElapsedMs, electionTimeoutMs, randomState }
  | stepDown (node : RaftNode) (term : Nat) (leader : Option NodeId)
      (hmessage : ¬ operation.Elapses) (hterm : node.currentTerm ≤ term) :
      Prepare operation node (node.becomeFollower term leader)
  | stand (node : RaftNode) (helapses : operation.Elapses) (hrole : node.role ≠ .leader)
      (hlearner : node.config.learner = false) :
      Prepare operation node node.candidacy
  | countVote (node : RaftNode) (source : NodeId) (hrole : node.role = .candidate)
      (hvoter : node.isVotingMember source = true) :
      Prepare operation node { node with votesReceived := insert source node.votesReceived }
  | takeOver (node : RaftNode) (helects : operation.Elects) (hrole : node.role = .candidate)
      (hquorum : node.hasElectionQuorum = true) :
      Prepare operation node node.takeover
  | castVote (node : RaftNode) (request : RequestVoteRequest)
      (hlearner : node.config.learner = false)
      (hvoter : node.isVotingMember request.candidateId = true)
      (hgrants : node.grantsVote request = true) :
      Prepare operation node (node.withVote request.candidateId)
  | credit (node : RaftNode) (peer : NodeId) (index next matched : Nat)
      (hcredits : operation.Credits peer index) (hrole : node.role = .leader)
      (hnext : node.nextIndex peer = some next) (hmatch : node.matchIndex peer = some matched)
      (hindex : index ≤ node.log.lastIndex) :
      Prepare operation node
        { node with
          nextIndex := Function.update node.nextIndex peer (some (max next (index + 1)))
          matchIndex := Function.update node.matchIndex peer (some (max matched index)) }
  | backUp (node : RaftNode) (source : NodeId) (response : AppendEntriesResponse) (next : Nat)
      (hoperation : operation = .handleAppendEntriesResponse source response)
      (hrejected : response.success = false) (hrole : node.role = .leader)
      (hnext : node.nextIndex source = some next) :
      Prepare operation node
        { node with
          nextIndex := Function.update node.nextIndex source
            (some (LogReplication.nextIndexAfterConflict node.log response.conflictIndex
              response.conflictTerm)) }
  | pendExit (node : RaftNode) (joint : ClusterConfiguration) (index : Nat)
      (helects : operation.Elects) (hrole : node.role = .leader)
      (hjoint : node.jointConfig = some joint) (hexit : node.isExitFor joint index = true) :
      Prepare operation node { node with pendingConfChangeIndex := some index }
  | appendExit (node : RaftNode) (exit : ConfChangeEntry) (encoded : Bytes)
      (helects : operation.Elects) (hrole : node.role = .leader)
      (hfresh : ∀ id matched, node.matchIndex id = some matched → matched = 0)
      (hexit : node.makeJointExitEntry = some exit)
      (hencoded : encodeConfChangeEntry exit = .ok encoded) :
      Prepare operation node
        { node with
          log := node.log.append node.currentTerm .confChange encoded
          pendingConfChangeIndex := some (node.log.lastIndex + 1) }
  | appendCommand (node : RaftNode) (command : Bytes) (hrole : node.role = .leader)
      (hoperation : operation = .propose command) :
      Prepare operation node
        { node with log := node.log.append node.currentTerm .command command }
  | proposeUnencoded (node : RaftNode) (cluster : ClusterConfiguration)
      (change : ConfChangeEntry) (error : String)
      (hoperation : operation =
        .proposeConfChange change.type change.member change.operationId)
      (hproposable : node.Proposable cluster change)
      (hencoded : encodeConfChangeEntry change = .error error) :
      Prepare operation node (node.proposeJoint cluster change)
  | proposeChange (node : RaftNode) (cluster : ClusterConfiguration) (change : ConfChangeEntry)
      (encoded : Bytes)
      (hoperation : operation =
        .proposeConfChange change.type change.member change.operationId)
      (hproposable : node.Proposable cluster change)
      (hencoded : encodeConfChangeEntry change = .ok encoded) :
      Prepare operation node
        { node.proposeJoint cluster change with
          log := node.log.append node.currentTerm .confChange encoded
          pendingConfChangeIndex := some (node.log.lastIndex + 1) }
  | merge (node : RaftNode) (source : NodeId) (request : AppendEntriesRequest) (log : RaftLog)
      (hoperation : operation = .handleAppendEntries source request)
      (hrole : node.role = .follower) (hterm : node.currentTerm = request.term)
      (hprevious : node.log.termAt request.previousLogIndex = some request.previousLogTerm)
      (hlog : node.log.appendFrom request.previousLogIndex request.entries = .ok log) :
      Prepare operation node ({ node with log }.rollbackPending node.pendingChange).1
  | join (node : RaftNode) (cluster : ClusterConfiguration) (entry : LogEntry)
      (change : ConfChangeEntry) (hrole : node.role = .follower)
      (happended : Appended operation node entry change) (hjoint : change.joint = true)
      (hcluster : node.clusterConfig = some cluster) :
      Prepare operation node
        { (node.enterJoint change).adoptJointPeers cluster change.targetConfig with
          pendingConfChangeIndex := some entry.index }
  | fault (node : RaftNode) (change : ConfChangeEntry) (hcluster : node.clusterConfig = none)
      (happended : ∃ entry, Appended operation node entry change) :
      Prepare operation node (node.enterJoint change)
  | addLearner (node : RaftNode) (learner : NodeId) (hoperation : operation = .addLearner learner)
      (hrole : node.role = .leader) (hzero : learner ≠ 0)
      (hmember : node.isMember learner = false) :
      Prepare operation node
        { node with
          config := { node.config with learners := node.config.learners ++ [learner] }
          nextIndex := Function.update node.nextIndex learner (some (max 1 node.log.firstIndex))
          matchIndex := Function.update node.matchIndex learner (some 0) }
  | cutLog (node : RaftNode) (log : RaftLog) (commit : Nat) (hsnapshot : operation.Snapshot)
      (hcut : node.CutFrom log) :
      Prepare operation node { node with log, commitIndex := commit }
  | save {node saved : RaftNode} (hsave : Save node saved) : Prepare operation node saved

/-- The commit index moves. -/
inductive Commit (operation : Operation) : RaftNode → RaftNode → Prop where
  | asLeader (node : RaftNode) (commit : Nat)
      (hcommits : operation.Advances ∨ operation.Elects) (hrole : node.role = .leader)
      (hlater : node.commitIndex < commit)
      (hterm : node.log.termAt commit = some node.currentTerm)
      (hquorum : node.hasReplicationQuorum commit = true) :
      Commit operation node { node with commitIndex := commit }
  | asFollower (node : RaftNode) (source : NodeId) (request : AppendEntriesRequest)
      (hoperation : operation = .handleAppendEntries source request)
      (hrole : node.role = .follower) (hlater : node.commitIndex < request.leaderCommit) :
      Commit operation node
        { node with commitIndex := min request.leaderCommit node.log.lastIndex }

/-- The changes by which committed configurations are put into force. -/
inductive Apply : RaftNode → RaftNode → Prop where
  | joint (node : RaftNode) (cluster : ClusterConfiguration) (change : ConfChangeEntry)
      (hcommitted : node.Committed change) (hjoint : change.joint = true)
      (hcluster : node.clusterConfig = some cluster) :
      Apply node ((node.enterJoint change).adoptJointPeers cluster change.targetConfig)
  | stable (node : RaftNode) (change : ConfChangeEntry)
      (hcommitted : node.Committed change) (hjoint : change.joint = false) :
      Apply node (node.enterStable change)
  | fault (node : RaftNode) (change : ConfChangeEntry) (hcluster : node.clusterConfig = none)
      (hcommitted : node.Committed change) :
      Apply node (node.enterJoint change)
  | appendExit (node : RaftNode) (exit : ConfChangeEntry) (encoded : Bytes)
      (hrole : node.role = .leader) (hbehind : node.commitIndex ≤ node.log.lastIndex)
      (hexit : node.makeJointExitEntry = some exit)
      (hencoded : encodeConfChangeEntry exit = .ok encoded) :
      Apply node
        { node with
          log := node.log.append node.currentTerm .confChange encoded
          pendingConfChangeIndex := some (node.log.lastIndex + 1) }
  | advance (node : RaftNode) (hlater : node.configurationAppliedIndex < node.commitIndex) :
      Apply node { node with configurationAppliedIndex := node.configurationAppliedIndex + 1 }
  | save {node saved : RaftNode} (hsave : Save node saved) : Apply node saved

/-- One change of state inside an operation. -/
inductive Micro (operation : Operation) (first second : RaftNode) : Prop where
  | prepare (h : Prepare operation first second)
  | commit (h : Commit operation first second)
  | apply (h : Apply first second)

/-! ## Configurations -/

variable {operation : Operation} {node : RaftNode}

/-- Role, commit index and applied index are the same, and the log has not become shorter. -/
structure Level (before after : RaftNode) : Prop where
  role : after.role = before.role
  commitIndex : after.commitIndex = before.commitIndex
  configurationAppliedIndex :
    after.configurationAppliedIndex = before.configurationAppliedIndex
  lastIndex : before.log.lastIndex ≤ after.log.lastIndex

/-- A save changes the barrier only. -/
theorem traces_persist :
    Traces Save persistOrThrow node
      fun _ final => ∃ persistence, final = { node with persistence } := by
  cases hpersistence : node.persistence with
  | none =>
    have hrun : persistOrThrow node = .ok () node := by rw [persistOrThrow, hpersistence]
    exact .of_ok hrun .refl ⟨node.persistence, rfl⟩
  | some persistence =>
    cases hsave : persistence.save persistence.saved node.persistentState with
    | ok =>
      have hrun : persistOrThrow node = .ok () { node with
          persistence := some { persistence with
            saved := node.persistentState :: persistence.saved } } := by
        simp only [persistOrThrow, hpersistence, hsave]
      exact .of_ok hrun (.single (.persist node persistence hpersistence hsave)) ⟨_, rfl⟩
    | error error =>
      have hrun : persistOrThrow node =
          .error (errorOr error "Raft persistence barrier failed") node := by
        simp only [persistOrThrow, hpersistence, hsave]
      exact .of_error hrun .refl

theorem traces_persist_if (changed : Bool) :
    Traces Save (persistIf changed) node fun _ _ => True := by
  rw [persistIf]
  split_ifs
  · exact traces_persist.mono fun _ _ _ => trivial
  · exact .pure trivial

theorem traces_prepare_persist :
    Traces (Prepare operation) persistOrThrow node
      fun _ final => ∃ persistence, final = { node with persistence } :=
  traces_persist.relax fun _ _ => .save

/-- Appending the way out is a step that allows it. -/
theorem traces_append_joint_exit {R : RaftNode → RaftNode → Prop}
    (hstep : ∀ exit encoded, node.makeJointExitEntry = some exit →
      encodeConfChangeEntry exit = .ok encoded →
      R node { node with
        log := node.log.append node.currentTerm .confChange encoded
        pendingConfChangeIndex := some (node.log.lastIndex + 1) })
    (fallback : String) :
    Traces R (appendJointExit fallback) node fun _ final => Level node final := by
  rw [appendJointExit]
  refine .get_bind ?_
  split
  · exact .throw .refl
  · rename_i exit hexit
    split
    · exact .throw .refl
    · rename_i encoded hencoded
      refine .set (.single (hstep exit encoded hexit hencoded)) ⟨rfl, rfl, rfl, ?_⟩
      rw [RaftLog.last_index_append]
      exact Nat.le_succ _

theorem apply_configuration_entry_joint {change : ConfChangeEntry}
    {cluster : ClusterConfiguration} (hjoint : change.joint = true)
    (hcluster : node.clusterConfig = some cluster) :
    applyConfigurationEntry change node =
      (if node.role = .leader then appendJointExit "failed to encode joint exit" else pure ())
        ((node.enterJoint change).adoptJointPeers cluster change.targetConfig) := by
  have hsome : (node.enterJoint change).clusterConfig = some cluster := hcluster
  rw [applyConfigurationEntry, if_pos hjoint, modify_bind, get_bind, hsome]
  rfl

theorem apply_configuration_entry_fault {change : ConfChangeEntry} (hjoint : change.joint = true)
    (hcluster : node.clusterConfig = none) :
    applyConfigurationEntry change node =
      .error "undefined: no stable configuration" (node.enterJoint change) := by
  have hnone : (node.enterJoint change).clusterConfig = none := hcluster
  rw [applyConfigurationEntry, if_pos hjoint, modify_bind, get_bind, hnone]
  rfl

/-- A committed change is put into force. -/
theorem traces_apply_configuration_entry {change : ConfChangeEntry}
    (hcommitted : node.Committed change) (hbound : node.commitIndex ≤ node.log.lastIndex) :
    Traces Apply (applyConfigurationEntry change) node fun _ final => Level node final := by
  by_cases hjoint : change.joint = true
  · cases hcluster : node.clusterConfig with
    | none =>
      exact .of_error (apply_configuration_entry_fault hjoint hcluster)
        (.single (.fault node change hcluster hcommitted))
    | some cluster =>
      refine .prepend (.single (.joint node cluster change hcommitted hjoint hcluster))
        (apply_configuration_entry_joint hjoint hcluster) ?_
      split_ifs with hrole
      · have happend := traces_append_joint_exit
          (fun exit encoded => Apply.appendExit
            ((node.enterJoint change).adoptJointPeers cluster change.targetConfig) exit encoded
            hrole hbound) "failed to encode joint exit"
        exact happend.mono fun _ _ h =>
          ⟨h.role, h.commitIndex, h.configurationAppliedIndex, h.lastIndex⟩
      · exact .pure ⟨rfl, rfl, rfl, le_rfl⟩
  · have hstable : change.joint = false := by simpa using hjoint
    rw [applyConfigurationEntry, if_neg hjoint]
    exact .modify (.single (.stable node change hcommitted hstable)) ⟨rfl, rfl, rfl, le_rfl⟩

theorem traces_apply_committed_entry {entry : LogEntry}
    (hlater : node.configurationAppliedIndex < node.commitIndex)
    (hbound : node.commitIndex ≤ node.log.lastIndex)
    (hentry : node.log.entryAt (node.configurationAppliedIndex + 1) = some entry) :
    Traces Apply (applyCommittedEntry entry) node fun _ final => Level node final := by
  rw [applyCommittedEntry]
  split_ifs with htype
  · split
    · exact .throw .refl
    · rename_i change hdecode
      have hchange : changeOf entry = some change := by
        rw [changeOf, if_pos htype, hdecode]
        rfl
      exact traces_apply_configuration_entry ⟨hlater, entry, hentry, hchange⟩ hbound
  · exact .pure ⟨rfl, rfl, rfl, le_rfl⟩

/-- Committed entries are applied one after the other. -/
theorem traces_apply_committed_loop (count : Nat)
    (hcount : count = 0 ∨ node.configurationAppliedIndex + count ≤ node.commitIndex)
    (hbound : node.commitIndex ≤ node.log.lastIndex) :
    Traces Apply (applyCommittedLoop count) node fun _ final => final.role = node.role := by
  induction count generalizing node with
  | zero => exact .pure rfl
  | succ count ih =>
    have hlater : node.configurationAppliedIndex < node.commitIndex := by omega
    rw [applyCommittedLoop]
    refine .get_bind ?_
    dsimp only
    split
    · exact .pure rfl
    · rename_i entry hentry
      refine .bind (traces_apply_committed_entry hlater hbound hentry)
        fun _ middle hmiddle => ?_
      have hcommit := hmiddle.commitIndex
      have happlied := hmiddle.configurationAppliedIndex
      have hlast := hmiddle.lastIndex
      rw [← happlied]
      refine .modify_bind (.single (.advance middle (by omega))) ((ih ?_ ?_).mono ?_)
      · exact .inr (by show _ + 1 + count ≤ middle.commitIndex; omega)
      · show middle.commitIndex ≤ middle.log.lastIndex
        omega
      · exact fun _ _ hrole => hrole.trans hmiddle.role

theorem traces_apply_committed_configuration (hbound : node.commitIndex ≤ node.log.lastIndex) :
    Traces Apply applyCommittedConfiguration node fun _ final => final.role = node.role := by
  rw [applyCommittedConfiguration]
  exact .get_bind (traces_apply_committed_loop _ (by omega) hbound)

/-- A new leader has the way out or appends it. -/
theorem traces_recover_joint_exit_entry (helects : operation.Elects) (hrole : node.role = .leader)
    (hfresh : ∀ id matched, node.matchIndex id = some matched → matched = 0) :
    Traces (Prepare operation) recoverJointExitEntry node
      fun _ final => final.role = .leader := by
  rw [recoverJointExitEntry]
  refine .get_bind ?_
  split
  · exact .pure hrole
  · rename_i joint hjoint
    dsimp only
    split
    · rename_i index hindex
      have hexit : node.isExitFor joint index = true := List.find?_some hindex
      exact .set (.single (.pendExit node joint index helects hrole hjoint hexit)) hrole
    · have happend := traces_append_joint_exit
        (fun exit encoded => Prepare.appendExit node exit encoded helects hrole hfresh)
        "failed to recover joint exit"
      exact happend.mono fun _ _ h => h.role.trans hrole

/-- A leader commits what a quorum holds, then applies. -/
theorem phased_advance_commit_index {P : RaftNode → RaftNode → Prop}
    (hcommits : operation.Advances ∨ operation.Elects) :
    Phased P (Commit operation) Apply advanceCommitIndex node fun _ _ => True := by
  rw [advanceCommitIndex]
  refine .get_bind ?_
  split_ifs with hrole
  · exact .pure trivial
  · dsimp only
    split_ifs with hcommit
    · obtain ⟨hlater, hterm, hquorum⟩ :=
        (node.committable_index_spec (node.log.lastIndex - node.commitIndex)).resolve_left hcommit
      refine .commit_bind
        (.asLeader node _ hcommits (not_not.mp hrole) hlater hterm hquorum) ?_
      have hbound := RaftLog.le_last_index_of_term_at hterm
      exact .bind (traces_apply_committed_configuration hbound) fun _ _ _ =>
        (traces_persist.relax fun _ _ => .save).mono fun _ _ _ => trivial
    · exact .pure trivial

/-- The program prepares, commits and applies as an operation does. -/
abbrev Acts {α : Type} (operation : Operation) (program : RaftM α) (node : RaftNode) : Prop :=
  Phased (Prepare operation) (Commit operation) Apply program node fun _ _ => True

theorem followed_by {α β : Type} {program : RaftM α} {post : α → RaftNode → Prop}
    {next : α → RaftM β} {after : β → RaftNode → Prop}
    (hprogram : Phased (Prepare operation) (Commit operation) Apply program node post)
    (hnext : ∀ result middle, post result middle → Traces Save (next result) middle after) :
    Phased (Prepare operation) (Commit operation) Apply (program >>= next) node after :=
  hprogram.followed hnext (fun _ _ => .save) fun _ _ => .save

theorem phased_publish {α : Type} (hcommits : operation.Advances ∨ operation.Elects)
    (answer : RaftNode → α) :
    Acts operation (do persistOrThrow; advanceCommitIndex; let leader ← get; pure (answer leader))
      node :=
  .bind traces_prepare_persist fun _ _ _ =>
    followed_by (phased_advance_commit_index hcommits) fun _ _ _ =>
      .get_bind (.pure trivial)

/-! ## Elections -/

theorem phased_become_leader (helects : operation.Elects) (hrole : node.role = .candidate)
    (hquorum : node.hasElectionQuorum = true) :
    Acts operation becomeLeader node := by
  have hfresh : ∀ id matched, node.takeover.matchIndex id = some matched → matched = 0 := by
    intro id matched hmatched
    have hcursor : node.initialCursors 0 id = some matched := hmatched
    rw [initialCursors] at hcursor
    split_ifs at hcursor
    exact (Option.some.inj hcursor).symm
  rw [becomeLeader]
  refine .modify_bind (.single (.takeOver node helects hrole hquorum)) ?_
  exact .bind (traces_recover_joint_exit_entry helects rfl hfresh) fun _ _ _ =>
    phased_publish (.inr helects) _

/-- A node that is not a learner stands for election. -/
theorem phased_start_election (helapses : operation.Elapses) (hrole : node.role ≠ .leader) :
    Acts operation startElection node := by
  have helects : operation.Elects := by
    cases operation with
    | tick elapsedMs => trivial
    | _ => exact helapses.elim
  rw [startElection]
  refine .get_bind ?_
  split_ifs with hrefused
  · exact .pure trivial
  · have hlearner : node.config.learner = false := by
      rw [not_or] at hrefused
      simpa using hrefused.1
    refine .set_bind (.single (.stand node helapses hrole hlearner))
      (.bind traces_prepare_persist ?_)
    rintro - middle ⟨persistence, rfl⟩
    refine .get_bind ?_
    split_ifs with hquorum
    · exact phased_become_leader helects rfl hquorum
    · exact .pure trivial

theorem phased_tick {elapsedMs : Nat} (hoperation : operation = .tick elapsedMs) :
    Acts operation (tick elapsedMs) node := by
  have helapses : operation.Elapses := hoperation ▸ trivial
  rw [tick]
  refine .get_bind ?_
  dsimp only
  split_ifs with _ hrole
  · exact .pure trivial
  · exact .set_bind (.single (.wait node _ _ _ _ _)) (.pure trivial)
  · exact .set_bind (.single (.wait node _ _ _ _ _)) (.pure trivial)
  · exact .set_bind (.single (.wait node _ _ _ _ _)) (phased_start_election helapses hrole)
  · exact .set_bind (.single (.wait node _ _ _ _ _)) (.pure trivial)

/-- The answer to a vote request. -/
theorem traces_handle_request_vote {request : RequestVoteRequest} (hmessage : ¬ operation.Elapses) :
    Traces (Prepare operation) (handleRequestVote request) node fun _ _ => True := by
  rw [handleRequestVote]
  refine .get_bind ?_
  split_ifs with hrefused
  · exact .pure trivial
  · simp only [not_or, Bool.not_eq_true, Bool.not_eq_false] at hrefused
    obtain ⟨hlearner, hvoter, -⟩ := hrefused
    dsimp only
    generalize hmiddle : (if decide (node.currentTerm < request.term) = true then
      node.becomeFollower request.term none else node) = middle
    have hsteps : ReflTransGen (Prepare operation) node middle := by
      rw [← hmiddle]
      split_ifs with hterm
      · exact .single (.stepDown node _ _ hmessage (of_decide_eq_true hterm).le)
      · exact .refl
    have hconfig : middle.config = node.config := by
      rw [← hmiddle]
      split_ifs
      · simp only [becomeFollower, resetElectionTimer]
        split_ifs <;> rfl
      · rfl
    refine .set_bind ?_ (.bind ((traces_persist_if _).relax fun _ _ => .save)
      fun _ _ _ => .get_bind (.pure trivial))
    split_ifs with hgrants
    · refine hsteps.tail (.castVote middle request ?_ ?_ hgrants)
      · rw [hconfig, hlearner]
      · rw [isVotingMember, hconfig]
        exact hvoter
    · exact hsteps

theorem traces_step_down {term : Nat} (hmessage : ¬ operation.Elapses)
    (hterm : node.currentTerm < term) :
    Traces (Prepare operation) (do set (node.becomeFollower term none); persistOrThrow) node
      fun _ _ => True :=
  .set_bind (.single (.stepDown node _ _ hmessage hterm.le))
    (traces_prepare_persist.mono fun _ _ _ => trivial)

variable {source : NodeId} {log : RaftLog} {request : AppendEntriesRequest}
  {response : AppendEntriesResponse}

theorem phased_handle_request_vote_response {response : RequestVoteResponse}
    (hoperation : operation = .handleRequestVoteResponse source response) :
    Acts operation (handleRequestVoteResponse source response) node := by
  subst hoperation
  rw [handleRequestVoteResponse]
  refine .get_bind ?_
  dsimp only
  split_ifs with hstranger hterm hidle hquorum
  · exact .pure trivial
  · rw [← bind_assoc]
    exact .bind (traces_step_down id hterm) fun _ _ _ => .pure trivial
  · exact .pure trivial
  · simp only [not_or, Bool.not_eq_false, ne_eq, not_not] at hstranger hidle
    exact .set_bind (.single (.countVote node source hidle.1 hstranger.1))
      (phased_become_leader trivial hidle.1 hquorum)
  · simp only [not_or, Bool.not_eq_false, ne_eq, not_not] at hstranger hidle
    exact .set_bind (.single (.countVote node source hidle.1 hstranger.1))
      (.pure trivial)

/-! ## Replication -/

theorem follow_leader_steps {term : Nat} (hmessage : ¬ operation.Elapses)
    (hterm : node.currentTerm ≤ term) (leader : NodeId) :
    ReflTransGen (Prepare operation) node (node.followLeader term leader) := by
  rw [followLeader]
  split_ifs
  · exact .single (.stepDown node term (some leader) hmessage hterm)
  · exact .single (.wait node _ _ _ _ _)

theorem follow_leader_fields {term : Nat} (hterm : node.currentTerm ≤ term) (leader : NodeId) :
    (node.followLeader term leader).role = .follower ∧
      (node.followLeader term leader).currentTerm = term ∧
      (node.followLeader term leader).log = node.log := by
  rw [followLeader]
  split_ifs with h
  · unfold becomeFollower resetElectionTimer
    split_ifs with hnewer
    · exact ⟨rfl, rfl, rfl⟩
    · exact ⟨rfl, Nat.le_antisymm hterm (not_lt.mp hnewer), rfl⟩
  · obtain ⟨hnewer, hrole⟩ := not_or.mp h
    exact ⟨not_not.mp hrole, Nat.le_antisymm hterm (not_lt.mp hnewer), rfl⟩

theorem term_at_of_no_conflict (hpass : appendConflict log request response = none) :
    log.termAt request.previousLogIndex = some request.previousLogTerm := by
  rw [appendConflict] at hpass
  split at hpass
  · cases hpass
  split at hpass
  · rename_i previousTerm hprevious
    split_ifs at hpass with hsame
    rw [hprevious, not_not.mp hsame]
  · cases hpass

/-- The joint entries of a request are put into force. -/
theorem traces_apply_appended (hoperation : operation = .handleAppendEntries source request)
    (entries : List LogEntry)
    (hentries : ∀ entry ∈ entries, entry ∈ request.entries ∧ entry ∈ node.log.suffix)
    (hrole : node.role = .follower) :
    Traces (Prepare operation) (applyAppended entries) node
      fun _ final => final.role = .follower := by
  induction entries generalizing node with
  | nil => exact .pure hrole
  | cons entry rest ih =>
    obtain ⟨⟨hsent, hheld⟩, hrest⟩ := List.forall_mem_cons.mp hentries
    rw [applyAppended]
    refine .get_bind ?_
    split
    · exact ih hrest hrole
    · rename_i change hchange
      split_ifs at hchange with hlater
      by_cases hjoint : change.joint = true
      · rw [if_pos hjoint]
        cases hcluster : node.clusterConfig with
        | none =>
          refine .of_error (Barrier.bind_of_error
            (apply_configuration_entry_fault hjoint hcluster))
            (.single (.fault node change hcluster
              ⟨entry, source, request, hoperation, hsent, hheld, hlater, hchange⟩))
        | some cluster =>
          have happly := apply_configuration_entry_joint hjoint hcluster
          rw [if_neg (by rw [hrole]; decide)] at happly
          refine .prepend (.single (.join node cluster entry change hrole
            ⟨source, request, hoperation, hsent, hheld, hlater, hchange⟩ hjoint hcluster))
            ((bind_of_ok happly).trans (modify_bind _ _ _)) ?_
          exact .bind (ih hrest hrole) fun _ _ h => .pure h
      · rw [if_neg hjoint]
        exact ih hrest hrole

theorem phased_follow_commit (hoperation : operation = .handleAppendEntries source request)
    (hrole : node.role = .follower) :
    Acts operation (followCommit request.leaderCommit) node := by
  rw [followCommit]
  refine .get_bind ?_
  dsimp only
  split_ifs with hlater hcommit
  · exact .commit_bind (.asFollower node source request hoperation hrole hlater)
      (.bind (traces_apply_committed_configuration (Nat.min_le_right _ _)) fun _ _ _ =>
        .pure trivial)
  · exact .pure trivial
  · exact .pure trivial

theorem traces_finish_append (response : AppendEntriesResponse) (changed : Bool) :
    Traces Save (finishAppend response changed) node fun _ _ => True := by
  rw [finishAppend]
  exact .get_bind (.bind (traces_persist_if changed) fun _ _ _ => .pure trivial)

theorem phased_finish_append (response : AppendEntriesResponse) (changed : Bool) :
    Acts operation (finishAppend response changed) node :=
  .of_traces ((traces_finish_append response changed).relax fun _ _ => .save)

theorem rollback_pending_frame (node : RaftNode) (pending : Option (Bytes × Bool)) :
    let dropped := (node.rollbackPending pending).1
    dropped.log = node.log ∧ dropped.role = node.role ∧ dropped.currentTerm = node.currentTerm ∧
      dropped.commitIndex = node.commitIndex ∧
      dropped.configurationAppliedIndex = node.configurationAppliedIndex := by
  unfold rollbackPending dropPending
  split
  · split_ifs <;> exact ⟨rfl, rfl, rfl, rfl, rfl⟩
  · exact ⟨rfl, rfl, rfl, rfl, rfl⟩

/-- The entries of a request are taken over. -/
theorem phased_append_matched (hoperation : operation = .handleAppendEntries source request)
    (hrole : node.role = .follower) (hterm : node.currentTerm = request.term)
    (hprevious : node.log.termAt request.previousLogIndex = some request.previousLogTerm)
    (response : AppendEntriesResponse) (termIncreased : Bool) :
    Acts operation (appendMatched request response termIncreased) node := by
  rw [appendMatched]
  refine .get_bind ?_
  cases hlog : node.log.appendFrom request.previousLogIndex request.entries with
  | error error => exact phased_finish_append _ _
  | ok log =>
    have hmerge := Prepare.merge node source request log hoperation hrole hterm hprevious hlog
    obtain ⟨hkept, hfollower, -⟩ := { node with log }.rollback_pending_frame node.pendingChange
    rcases hroll : { node with log }.rollbackPending node.pendingChange with ⟨rolled, dropped⟩
    rw [hroll] at hmerge hkept hfollower
    simp only [hroll]
    refine .set_bind (.single hmerge) (.bind
      (traces_apply_appended hoperation request.entries ?_ (hfollower.trans hrole)) ?_)
    · intro entry hentry
      rw [hkept]
      exact ⟨hentry, RaftLog.append_from_mem hlog hentry⟩
    · intro _ _ hfollower
      exact followed_by (phased_follow_commit hoperation hfollower) fun _ _ _ =>
        traces_finish_append _ _

theorem phased_handle_append_entries
    (hoperation : operation = .handleAppendEntries source request) :
    Acts operation (handleAppendEntries request) node := by
  have hmessage : ¬ operation.Elapses := hoperation ▸ id
  rw [handleAppendEntries]
  refine .get_bind ?_
  dsimp only
  split_ifs with hrefused
  · exact phased_finish_append _ _
  · have hterm : node.currentTerm ≤ request.term := not_lt.mp (not_or.mp hrefused).2
    obtain ⟨hrole, hreached, hlog⟩ := follow_leader_fields hterm request.leaderId
    refine .set_bind (follow_leader_steps hmessage hterm request.leaderId) ?_
    split
    · exact phased_finish_append _ _
    · rename_i hpass
      refine phased_append_matched hoperation hrole hreached ?_ _ _
      rw [hlog]
      exact term_at_of_no_conflict hpass

theorem le_last_of_valid (hvalid : acknowledgementValid log response = true) :
    response.matchIndex ≤ log.lastIndex := by
  simp only [acknowledgementValid, Bool.and_eq_true, Bool.not_eq_true', decide_eq_false_iff_not,
    not_lt] at hvalid
  exact hvalid.1.1.2

/-- The answer to a replication request is taken. -/
theorem phased_handle_append_entries_response
    (hoperation : operation = .handleAppendEntriesResponse source response) :
    Acts operation (handleAppendEntriesResponse source response) node := by
  subst hoperation
  rw [handleAppendEntriesResponse]
  refine .get_bind ?_
  split
  · exact .pure trivial
  split
  · rename_i hterm
    rw [← bind_assoc]
    exact .bind (traces_step_down id hterm) fun _ _ _ => .pure trivial
  split
  · exact .pure trivial
  rename_i hidle
  have hrole : node.role = .leader := not_not.mp (not_or.mp hidle).1
  split
  · rename_i next matched hnext hmatch
    dsimp only
    split_ifs with hsuccess hvalid hstale
    · refine .set_bind
        (.single (.credit node source _ next matched ⟨rfl, rfl⟩ hrole hnext hmatch
          (le_last_of_valid hvalid)))
        (followed_by (phased_advance_commit_index (.inl trivial)) fun _ _ _ => .get_bind ?_)
      split_ifs <;> exact .pure trivial
    · exact .pure trivial
    · exact .pure trivial
    · exact .set_bind
        (.single (.backUp node source response next rfl (Bool.eq_false_iff.mpr hsuccess) hrole
          hnext))
        (.pure trivial)
  · exact .pure trivial

theorem phased_propose {command : Bytes} (hoperation : operation = .propose command) :
    Acts operation (propose command) node := by
  rw [propose]
  refine .get_bind ?_
  split_ifs with hrole
  · exact .pure trivial
  · exact .set_bind (.single (.appendCommand node command (not_not.mp hrole) hoperation))
      (phased_publish (.inl (hoperation ▸ trivial)) _)

/-! ## Membership and snapshots -/

/-- A membership change is proposed. -/
theorem phased_propose_conf_change {type : ConfChangeType} {member : ClusterMember}
    {operationId : UInt64} (hoperation : operation = .proposeConfChange type member operationId) :
    Acts operation (proposeConfChange type member operationId) node := by
  rw [proposeConfChange]
  refine .get_bind ?_
  split
  · exact .pure trivial
  rename_i cluster hcluster
  split
  · exact .pure trivial
  rename_i hadmitted
  simp only [not_or, ne_eq, not_not, Bool.not_eq_true, Option.isSome_eq_false_iff,
    Option.isNone_iff_eq_none, Bool.not_eq_false] at hadmitted
  obtain ⟨hrole, hpending, hstable, hadmitted⟩ := hadmitted
  split
  · exact .pure trivial
  rename_i target htarget
  split
  · exact .pure trivial
  rename_i hvalid
  have hproposable : node.Proposable cluster
      { type, joint := true, member, targetConfig := target, operationId } :=
    ⟨hrole, hpending, hstable, hcluster, hadmitted, htarget, hvalid, rfl⟩
  dsimp only
  cases hencoded : encodeConfChangeEntry
      { type, joint := true, member, targetConfig := target, operationId } with
  | error error =>
    exact .set_bind
      (.single (.proposeUnencoded node cluster _ error hoperation hproposable hencoded))
      (.pure trivial)
  | ok encoded =>
    -- The joint configuration and its entry are one change.
    exact .set_set_bind
      (.single (.proposeChange node cluster _ encoded hoperation hproposable hencoded))
      (phased_publish (.inl (hoperation ▸ trivial)) _)

theorem traces_add_learner {learner : NodeId} (hoperation : operation = .addLearner learner) :
    Traces (Prepare operation) (addLearner learner) node fun _ _ => True := by
  rw [addLearner]
  refine .get_bind ?_
  split_ifs with hrefused
  · exact .pure trivial
  · simp only [not_or, ne_eq, not_not, Bool.not_eq_true] at hrefused
    obtain ⟨hrole, hzero, -, hmember⟩ := hrefused
    exact .set_bind (.single (.addLearner node learner hoperation hrole hzero hmember))
      (.pure trivial)

theorem traces_acknowledge_leader {term : Nat} {leader : NodeId} (hmessage : ¬ operation.Elapses) :
    Traces (Prepare operation) (acknowledgeLeader term leader) node fun _ _ => True := by
  rw [acknowledgeLeader]
  refine .get_bind ?_
  split_ifs with hrefused
  · exact .pure trivial
  · exact .set_bind (follow_leader_steps hmessage (not_lt.mp (not_or.mp hrefused).2) leader)
      (.bind ((traces_persist_if _).relax fun _ _ => .save) fun _ _ _ => .pure trivial)

theorem cut_from_of_suffix (hboundary : log.boundary.type = .noOp)
    (hsuffix : ∀ entry ∈ log.suffix, entry ∈ node.log.suffix) : node.CutFrom log := by
  intro index entry change hentry hchange
  rcases List.mem_cons.mp (log.entry_at_mem hentry) with rfl | hmember
  · rw [changeOf, hboundary] at hchange
    cases hchange
  · rw [← log.entry_at_index hentry]
    exact node.log.entry_at_of_mem (hsuffix entry hmember)

theorem cut_from_compact_to {boundaryIndex boundaryTerm : Nat}
    (hcompact : node.log.compactTo boundaryIndex boundaryTerm = .ok log) : node.CutFrom log := by
  rw [RaftLog.compactTo] at hcompact
  split_ifs at hcompact
  cases hcompact
  exact cut_from_of_suffix rfl fun entry => List.mem_of_mem_drop

theorem cut_from_boundary {boundaryIndex boundaryTerm : Nat} (hrestore : RaftLog.restore
      [{ index := boundaryIndex, term := boundaryTerm, type := .noOp, command := [] }] = .ok log) :
    node.CutFrom log := by
  rw [RaftLog.restore] at hrestore
  split_ifs at hrestore
  cases hrestore
  exact cut_from_of_suffix rfl fun entry hentry => by cases hentry

theorem traces_cut_log (hsnapshot : operation.Snapshot) (hcut : node.CutFrom log) (commit : Nat) :
    Traces (Prepare operation)
      (do set { node with log, commitIndex := commit }; persistOrThrow
          pure (.ok () : Except String Unit)) node fun _ _ => True :=
  .set_bind (.single (.cutLog node log commit hsnapshot hcut))
    (.bind traces_prepare_persist fun _ _ _ => .pure trivial)

theorem phased_on_install_snapshot_success {peer : NodeId} {lastIncludedIndex : Nat}
    (hoperation : operation = .onInstallSnapshotSuccess peer lastIncludedIndex) :
    Acts operation (onInstallSnapshotSuccess peer lastIncludedIndex) node := by
  subst hoperation
  rw [onInstallSnapshotSuccess]
  refine .get_bind ?_
  split
  · exact .pure trivial
  rename_i hrefused
  have hrole : node.role = .leader := not_not.mp (not_or.mp hrefused).1
  have hheld : lastIncludedIndex ≤ node.log.lastIndex := not_lt.mp (not_or.mp hrefused).2
  split
  · rename_i next matched hnext hmatch
    exact .set_bind
      (.single (.credit node peer _ next matched ⟨rfl, rfl⟩ hrole hnext hmatch hheld))
      (phased_advance_commit_index (.inl trivial))
  · exact .pure trivial

theorem traces_observe_higher_term {term : Nat} (hmessage : ¬ operation.Elapses) :
    Traces (Prepare operation) (observeHigherTerm term) node fun _ _ => True := by
  rw [observeHigherTerm]
  refine .get_bind ?_
  split_ifs with hterm
  · exact traces_step_down hmessage hterm
  · exact .pure trivial

/-- Every operation prepares, commits at most once and applies. -/
theorem phased_perform (operation : Operation) (node : RaftNode) :
    Acts operation (perform operation) node := by
  have hanswer : ∀ {α : Type} {program : RaftM α} (answer : α → List OutboundRpc),
      Acts operation program node →
      Acts operation (do let result ← program; pure (answer result)) node :=
    fun _ hphased => followed_by hphased fun _ _ _ => .pure trivial
  cases operation with
  | tick elapsedMs => exact phased_tick rfl
  | handleRequestVote source request =>
    exact hanswer _ (.of_traces (traces_handle_request_vote id))
  | handleRequestVoteResponse source response => exact phased_handle_request_vote_response rfl
  | handleAppendEntries source request => exact hanswer _ (phased_handle_append_entries rfl)
  | handleAppendEntriesResponse source response =>
    exact phased_handle_append_entries_response rfl
  | propose command => exact hanswer _ (phased_propose rfl)
  | proposeConfChange type member operationId => exact hanswer _ (phased_propose_conf_change rfl)
  | addLearner learner => exact hanswer _ (.of_traces (traces_add_learner rfl))
  | compactLogPrefix boundaryIndex boundaryTerm =>
    have hsnapshot : (Operation.compactLogPrefix boundaryIndex boundaryTerm).Snapshot := trivial
    refine hanswer _ (.of_traces ?_)
    rw [compactLogPrefix]
    refine .get_bind ?_
    split
    · exact .pure trivial
    · rename_i log hcompact
      exact traces_cut_log hsnapshot (cut_from_compact_to hcompact) node.commitIndex
  | acknowledgeLeader term leader => exact hanswer _ (.of_traces (traces_acknowledge_leader id))
  | applySnapshotBoundary boundaryIndex boundaryTerm =>
    have hsnapshot : (Operation.applySnapshotBoundary boundaryIndex boundaryTerm).Snapshot := trivial
    refine hanswer _ (.of_traces ?_)
    rw [applySnapshotBoundary]
    refine .get_bind ?_
    split
    · exact .pure trivial
    · rename_i log hcompact
      exact traces_cut_log hsnapshot (cut_from_compact_to hcompact) _
  | replaceLogWithSnapshotBoundary boundaryIndex boundaryTerm =>
    have hsnapshot :
        (Operation.replaceLogWithSnapshotBoundary boundaryIndex boundaryTerm).Snapshot := trivial
    refine hanswer _ (.of_traces ?_)
    rw [replaceLogWithSnapshotBoundary]
    refine .get_bind ?_
    split
    · exact .pure trivial
    · rename_i log hrestore
      exact traces_cut_log hsnapshot (cut_from_boundary hrestore) _
  | onInstallSnapshotSuccess peer lastIncludedIndex =>
    exact hanswer _ (phased_on_install_snapshot_success rfl)
  | observeHigherTerm term => exact hanswer _ (.of_traces (traces_observe_higher_term id))

theorem traces_of_phased {α : Type} {program : RaftM α} {post : α → RaftNode → Prop}
    (hphased : Phased (Prepare operation) (Commit operation) Apply program node post) :
    Traces (Micro operation) program node post :=
  hphased.traces (fun _ _ => .prepare) (fun _ _ => .commit) fun _ _ => .apply

theorem phases_after (operation : Operation) (node : RaftNode) :
    Phases (Prepare operation) (Commit operation) Apply node (node.after operation) := by
  obtain ⟨hreturn, hthrow⟩ := phased_perform operation node
  rw [after]
  split
  · rename_i outbound final hrun
    exact (hreturn outbound final hrun).1
  · rename_i error final hrun
    exact hthrow error final hrun

theorem invariant_after {operation : Operation} {I : RaftNode → Prop}
    (hstep : ∀ first second, Micro operation first second → I first → I second)
    (hnode : I node) : I (node.after operation) :=
  (phases_after operation node).invariant (fun _ _ h => hstep _ _ (.prepare h))
    (fun _ _ h => hstep _ _ (.commit h)) (fun _ _ h => hstep _ _ (.apply h)) hnode

end RaftNode

end DistributedKV
