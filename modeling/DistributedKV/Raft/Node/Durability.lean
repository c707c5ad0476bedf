import DistributedKV.Raft.Node.Reconstruct

/-!
# Saving before answering

Term, vote, log and commit index are the safety state. Every operation that returns either leaves
them and the journal as they were, or has saved them as the latest image (`Kept`). All images an
operation saves carry the term and the vote it returns with, because no operation touches them
after its first save.
-/

namespace DistributedKV

open Barrier

/-- What must be durable before a node answers. -/
structure SafetyState where
  currentTerm : Nat
  votedFor : Option NodeId
  entries : List LogEntry
  commitIndex : Nat
  deriving DecidableEq, Repr

/-- The safety state of a saved image. -/
def RaftPersistentState.safetyState (image : RaftPersistentState) : SafetyState where
  currentTerm := image.currentTerm
  votedFor := image.votedFor
  entries := image.entries
  commitIndex := image.commitIndex

namespace RaftNode

/-- The safety state in memory. -/
def safetyState (node : RaftNode) : SafetyState where
  currentTerm := node.currentTerm
  votedFor := node.votedFor
  entries := node.log.persistentEntries
  commitIndex := node.commitIndex

/-- The node has a barrier. -/
def Backed (node : RaftNode) : Prop := ∃ persistence, node.persistence = some persistence

/-- The term, the vote and the barrier are the same. -/
structure Steady (before after : RaftNode) : Prop where
  currentTerm : after.currentTerm = before.currentTerm
  votedFor : after.votedFor = before.votedFor
  persistence : after.persistence = before.persistence

/-- The images saved in between carry the term and the vote of the node, and the latest of them
its safety state. -/
structure Written (before after : RaftNode) : Prop where
  backed : after.Backed
  journal : ∃ latest older, after.saved = latest :: older ++ before.saved ∧
    latest.safetyState = after.safetyState ∧ ∀ image ∈ latest :: older,
      image.currentTerm = after.currentTerm ∧ image.votedFor = after.votedFor

/-- Nothing durable has changed, or it has been written. -/
def Kept (before after : RaftNode) : Prop :=
  (after.persistence = before.persistence ∧ after.safetyState = before.safetyState) ∨
    Written before after

variable {before middle after node : RaftNode}

theorem Backed.congr (hbacked : before.Backed)
    (hpersistence : after.persistence = before.persistence) : after.Backed := by
  rw [Backed, hpersistence]
  exact hbacked

theorem saved_congr (hpersistence : after.persistence = before.persistence) :
    after.saved = before.saved := by
  rw [saved, saved, hpersistence]

theorem Steady.refl (node : RaftNode) : Steady node node := ⟨rfl, rfl, rfl⟩

theorem Steady.trans (hfirst : Steady before middle) (hsecond : Steady middle after) :
    Steady before after :=
  ⟨hsecond.currentTerm.trans hfirst.currentTerm, hsecond.votedFor.trans hfirst.votedFor,
    hsecond.persistence.trans hfirst.persistence⟩

theorem Written.of_persistence (hwritten : Written middle after)
    (hpersistence : middle.persistence = before.persistence) : Written before after := by
  refine ⟨hwritten.backed, ?_⟩
  rw [← saved_congr hpersistence]
  exact hwritten.journal

theorem Kept.refl (node : RaftNode) : Kept node node := Or.inl ⟨rfl, rfl⟩

theorem Kept.of_same (hkept : Kept middle after)
    (hpersistence : middle.persistence = before.persistence)
    (hsafety : middle.safetyState = before.safetyState) : Kept before after := by
  rcases hkept with ⟨hpersistence', hsafety'⟩ | hwritten
  · exact .inl ⟨hpersistence'.trans hpersistence, hsafety'.trans hsafety⟩
  · exact .inr (hwritten.of_persistence hpersistence)

theorem Kept.backed (hkept : Kept before after) (hbacked : before.Backed) :
    after.Backed := by
  rcases hkept with ⟨hpersistence, -⟩ | hwritten
  · exact hbacked.congr hpersistence
  · exact hwritten.backed

/-- What has been written stays so. -/
theorem Written.trans (hfirst : Written before middle) (hsecond : Kept middle after)
    (hterm : after.currentTerm = middle.currentTerm) (hvote : after.votedFor = middle.votedFor) :
    Written before after := by
  obtain ⟨latest, older, hsaved, hlatest, himages⟩ := hfirst.journal
  refine ⟨hsecond.backed hfirst.backed, ?_⟩
  rcases hsecond with ⟨hpersistence, hsafety⟩ | hwritten
  · refine ⟨latest, older, (saved_congr hpersistence).trans hsaved, hlatest.trans hsafety.symm, ?_⟩
    rwa [hterm, hvote]
  · obtain ⟨newest, newer, hsaved', hnewest, hnew⟩ := hwritten.journal
    refine ⟨newest, newer ++ latest :: older, ?_, hnewest, ?_⟩
    · rw [hsaved', hsaved]
      simp
    · intro image himage
      rcases List.mem_append.mp (List.cons_append ▸ himage) with h | h
      · exact hnew image h
      · rw [hterm, hvote]
        exact himages image h

/-! ## The barrier and the configuration -/

theorem ensures_persist (hbacked : node.Backed) :
    Ensures persistOrThrow node fun _ final => Written node final ∧
      final.currentTerm = node.currentTerm ∧ final.votedFor = node.votedFor := by
  obtain ⟨persistence, hpersistence⟩ := hbacked
  intro result final hrun
  simp only [persistOrThrow, hpersistence] at hrun
  split at hrun
  case h_2 => cases hrun
  cases hrun
  refine ⟨⟨⟨_, rfl⟩, node.persistentState, [], ?_, rfl, ?_⟩, rfl, rfl⟩
  · simp [saved, hpersistence]
  · intro image himage
    rw [List.mem_singleton.mp himage]
    exact ⟨rfl, rfl⟩

theorem ensures_persist_if (before : RaftNode) (changed : Bool) (hbacked : node.Backed)
    (hpersistence : node.persistence = before.persistence)
    (hsame : changed = false → node.safetyState = before.safetyState) :
    Ensures (persistIf changed) node fun _ => Kept before := by
  rw [persistIf]
  split_ifs with h
  · exact (ensures_persist hbacked).mono fun _ _ h => .inr (h.1.of_persistence hpersistence)
  · exact .pure (.inl ⟨hpersistence, hsame (by simpa using h)⟩)

theorem ensures_append_joint_exit (fallback : String) :
    Ensures (appendJointExit fallback) node fun _ => Steady node := by
  rw [appendJointExit]
  refine .get_bind ?_
  split
  · exact .throw
  · split
    · exact .throw
    · exact .set ⟨rfl, rfl, rfl⟩

theorem ensures_apply_configuration_entry (entry : ConfChangeEntry) :
    Ensures (applyConfigurationEntry entry) node fun _ => Steady node := by
  rw [applyConfigurationEntry]
  split_ifs with hjoint
  · refine .modify_bind (.get_bind ?_)
    split
    · exact .throw
    · refine .set_bind ?_
      split_ifs
      · exact (ensures_append_joint_exit _).mono fun _ _ h =>
          ⟨h.currentTerm, h.votedFor, h.persistence⟩
      · exact .pure ⟨rfl, rfl, rfl⟩
  · exact .modify ⟨rfl, rfl, rfl⟩

theorem ensures_apply_committed_entry (entry : LogEntry) :
    Ensures (applyCommittedEntry entry) node fun _ => Steady node := by
  rw [applyCommittedEntry]
  split_ifs
  · split
    · exact .throw
    · exact ensures_apply_configuration_entry _
  · exact .pure (Steady.refl node)

theorem ensures_apply_committed_loop (count : Nat) :
    Ensures (applyCommittedLoop count) node fun _ => Steady node := by
  induction count generalizing node with
  | zero => exact .pure (Steady.refl node)
  | succ count ih =>
    rw [applyCommittedLoop]
    refine .get_bind ?_
    dsimp only
    split
    · exact .pure (Steady.refl node)
    · refine .bind (ensures_apply_committed_entry _) fun _ middle hmiddle => ?_
      refine .modify_bind (ih.mono fun _ final hfinal => ?_)
      exact hmiddle.trans ⟨hfinal.currentTerm, hfinal.votedFor, hfinal.persistence⟩

/-- Without a change to apply, entries are only counted. -/
theorem apply_committed_loop_plain (count : Nat) (node : RaftNode)
    (hplain : ∀ index entry, node.configurationAppliedIndex < index →
      node.log.entryAt index = some entry → entry.type ≠ .confChange) :
    ∃ cursor, applyCommittedLoop count node =
      .ok () { node with configurationAppliedIndex := cursor } := by
  induction count generalizing node with
  | zero => exact ⟨node.configurationAppliedIndex, rfl⟩
  | succ count ih =>
    rw [applyCommittedLoop, get_bind]
    cases hentry : node.log.entryAt (node.configurationAppliedIndex + 1) with
    | none => exact ⟨node.configurationAppliedIndex, rfl⟩
    | some entry =>
      have hskip : applyCommittedEntry entry node = .ok () node := by
        rw [applyCommittedEntry, if_neg (hplain _ entry (Nat.lt_succ_self _) hentry)]
        rfl
      obtain ⟨cursor, hcursor⟩ := ih
        { node with configurationAppliedIndex := node.configurationAppliedIndex + 1 }
        fun index other hindex => hplain index other (Nat.lt_of_succ_lt hindex)
      refine ⟨cursor, ?_⟩
      dsimp only
      rw [bind_of_ok hskip, modify_bind, hcursor]

theorem ensures_recover_joint_exit_entry :
    Ensures recoverJointExitEntry node fun _ => Steady node := by
  rw [recoverJointExitEntry]
  refine .get_bind ?_
  split
  · exact .pure (Steady.refl node)
  · dsimp only
    split
    · exact .set ⟨rfl, rfl, rfl⟩
    · exact ensures_append_joint_exit _

/-- A leader that commits writes what it committed. -/
theorem ensures_advance_commit_index (hbacked : node.Backed) :
    Ensures advanceCommitIndex node fun _ final => Kept node final ∧
      final.currentTerm = node.currentTerm ∧ final.votedFor = node.votedFor := by
  rw [advanceCommitIndex]
  refine .get_bind ?_
  split_ifs
  · exact .pure ⟨Kept.refl node, rfl, rfl⟩
  · dsimp only
    split_ifs
    · refine .set_bind (.bind (ensures_apply_committed_loop _) ?_)
      rintro - middle ⟨hterm, hvote, hpersistence⟩
      refine (ensures_persist (hbacked.congr hpersistence)).mono ?_
      rintro - final ⟨hwritten, hterm', hvote'⟩
      exact ⟨.inr (hwritten.of_persistence hpersistence), hterm'.trans hterm,
        hvote'.trans hvote⟩
    · exact .pure ⟨Kept.refl node, rfl, rfl⟩

theorem ensures_persist_advance (hbacked : node.Backed) :
    Ensures (do persistOrThrow; advanceCommitIndex) node fun _ final => Written node final ∧
      final.currentTerm = node.currentTerm ∧ final.votedFor = node.votedFor := by
  refine .bind (ensures_persist hbacked) ?_
  rintro - middle ⟨hwritten, hterm, hvote⟩
  refine (ensures_advance_commit_index hwritten.backed).mono ?_
  rintro - final ⟨hkept, hterm', hvote'⟩
  exact ⟨hwritten.trans hkept hterm' hvote', hterm'.trans hterm, hvote'.trans hvote⟩

/-! ## Elections -/

theorem ensures_become_leader (hbacked : node.Backed) :
    Ensures becomeLeader node fun _ final => Written node final ∧
      final.currentTerm = node.currentTerm ∧ final.votedFor = node.votedFor := by
  rw [becomeLeader]
  refine .modify_bind (.bind ensures_recover_joint_exit_entry ?_)
  rintro - middle ⟨hterm, hvote, hpersistence⟩
  have hsame : middle.persistence = node.persistence := hpersistence
  rw [← bind_assoc]
  refine .bind (ensures_persist_advance (hbacked.congr hsame)) ?_
  rintro - final ⟨hwritten, hterm', hvote'⟩
  refine .get_bind (.pure ⟨hwritten.of_persistence hsame, ?_, ?_⟩)
  · exact hterm'.trans hterm
  · exact hvote'.trans hvote

theorem ensures_start_election (hbacked : node.Backed) :
    Ensures startElection node fun _ => Kept node := by
  rw [startElection]
  refine .get_bind ?_
  split_ifs
  · exact .pure (Kept.refl node)
  · have hcandidate : node.candidacy.Backed := hbacked
    refine .set_bind (.bind (ensures_persist hcandidate) ?_)
    rintro - middle ⟨hwritten, -, -⟩
    have hfrom : Written node middle := hwritten.of_persistence rfl
    refine .get_bind ?_
    split_ifs
    · refine (ensures_become_leader hwritten.backed).mono ?_
      rintro - final ⟨hleader, hterm, hvote⟩
      exact .inr (hfrom.trans (.inr hleader) hterm hvote)
    · exact .pure (.inr hfrom)

theorem ensures_tick (hbacked : node.Backed) (elapsedMs : Nat) :
    Ensures (tick elapsedMs) node fun _ => Kept node := by
  rw [tick]
  refine .get_bind ?_
  dsimp only
  split_ifs
  · exact .pure (Kept.refl node)
  · exact .set_bind (.pure (.inl ⟨rfl, rfl⟩))
  · exact .set_bind (.pure (.inl ⟨rfl, rfl⟩))
  · have hwaited : { node with
        electionElapsedMs := saturatingAdd node.electionElapsedMs elapsedMs }.Backed := hbacked
    exact .set_bind ((ensures_start_election hwaited).mono fun _ _ h => h.of_same rfl rfl)
  · exact .set_bind (.pure (.inl ⟨rfl, rfl⟩))

theorem become_follower_spec (node : RaftNode) (term : Nat) (leader : Option NodeId) :
    (node.becomeFollower term leader).persistence = node.persistence ∧
      (¬ node.currentTerm < term →
        (node.becomeFollower term leader).safetyState = node.safetyState) := by
  simp only [becomeFollower, resetElectionTimer]
  split_ifs with hnewer
  · exact ⟨rfl, fun h => absurd hnewer h⟩
  · exact ⟨rfl, fun _ => rfl⟩

theorem ensures_step_down (hbacked : node.Backed) (term : Nat) :
    Ensures (do set (node.becomeFollower term none); persistOrThrow) node fun _ => Kept node := by
  have hpersistence := (node.become_follower_spec term none).1
  refine .set_bind ((ensures_persist (hbacked.congr hpersistence)).mono ?_)
  rintro - final ⟨hwritten, -, -⟩
  exact .inr (hwritten.of_persistence hpersistence)

/-- A new vote is written, and so is a new term. -/
theorem ensures_handle_request_vote (hbacked : node.Backed) (request : RequestVoteRequest) :
    Ensures (handleRequestVote request) node fun _ => Kept node := by
  rw [handleRequestVote]
  refine .get_bind ?_
  split_ifs
  · exact .pure (Kept.refl node)
  · dsimp only
    generalize hmiddle : (if decide (node.currentTerm < request.term) = true then
      node.becomeFollower request.term none else node) = middle
    have hpersistence : middle.persistence = node.persistence := by
      rw [← hmiddle]
      split_ifs
      · exact (node.become_follower_spec _ _).1
      · rfl
    generalize hgranted : middle.grantsVote request = granted
    refine .set_bind (.bind (ensures_persist_if node _ ?_ ?_ ?_) ?_)
    · exact hbacked.congr (by split_ifs <;> exact hpersistence)
    · split_ifs <;> exact hpersistence
    · intro hsame
      rw [Bool.or_eq_false_iff] at hsame
      obtain ⟨hterm, hvote⟩ := hsame
      rw [hterm, if_neg (by decide)] at hmiddle
      subst hmiddle
      cases granted with
      | false => rfl
      | true =>
        have hvoted : node.votedFor = some request.candidateId := by simpa using hvote
        simp only [if_true, withVote, resetElectionTimer, safetyState, hvoted]
    · intro _ final hkept
      exact .get_bind (.pure hkept)

theorem ensures_handle_request_vote_response (hbacked : node.Backed) (source : NodeId)
    (response : RequestVoteResponse) :
    Ensures (handleRequestVoteResponse source response) node fun _ => Kept node := by
  rw [handleRequestVoteResponse]
  refine .get_bind ?_
  dsimp only
  split_ifs
  · exact .pure (Kept.refl node)
  · rw [← bind_assoc]
    exact .bind (ensures_step_down hbacked _) fun _ _ h => .pure h
  · exact .pure (Kept.refl node)
  · have hcounted : { node with
        votesReceived := insert source node.votesReceived }.Backed := hbacked
    exact .set_bind ((ensures_become_leader hcounted).mono fun _ _ h =>
      .inr (h.1.of_persistence rfl))
  · exact .set_bind (.pure (.inl ⟨rfl, rfl⟩))

/-! ## Replication -/

theorem follow_leader_spec (node : RaftNode) (term : Nat) (leader : NodeId) :
    (node.followLeader term leader).persistence = node.persistence ∧
      (¬ node.currentTerm < term →
        (node.followLeader term leader).safetyState = node.safetyState) := by
  rw [followLeader]
  split_ifs
  · exact node.become_follower_spec term (some leader)
  · exact ⟨rfl, fun _ => rfl⟩

theorem append_from_nil {log merged : RaftLog} {previousIndex : Nat}
    (hrun : log.appendFrom previousIndex [] = .ok merged) : merged = log := by
  rw [RaftLog.appendFrom] at hrun
  split at hrun
  · cases hrun
  · rw [if_pos rfl] at hrun
    exact (Except.ok.inj hrun).symm

theorem rollback_pending_spec (node : RaftNode) (pending : Option (Bytes × Bool)) :
    Steady node (node.rollbackPending pending).1 ∧
      ((node.rollbackPending pending).2 = false → (node.rollbackPending pending).1 = node) := by
  unfold rollbackPending
  split
  · split_ifs
    · exact ⟨Steady.refl node, fun _ => rfl⟩
    · refine ⟨?_, fun h => by cases h⟩
      rw [dropPending]
      split_ifs <;> exact ⟨rfl, rfl, rfl⟩
  · exact ⟨Steady.refl node, fun _ => rfl⟩

/-- Appended configurations touch neither term nor vote. -/
theorem ensures_apply_appended (entries : List LogEntry) :
    Ensures (applyAppended entries) node
      fun _ final => Steady node final ∧ (entries = [] → final = node) := by
  induction entries generalizing node with
  | nil => exact .pure ⟨Steady.refl node, fun _ => rfl⟩
  | cons entry rest ih =>
    have hrest : ∀ middle, Steady node middle → Ensures (applyAppended rest) middle
        fun _ final => Steady node final ∧ (entry :: rest = [] → final = node) :=
      fun middle hmiddle => ih.mono fun _ _ h => ⟨hmiddle.trans h.1, fun h => by cases h⟩
    rw [applyAppended]
    refine .get_bind ?_
    split
    · exact hrest node (Steady.refl node)
    · rename_i change _
      by_cases hjoint : change.joint = true
      · rw [if_pos hjoint]
        refine .bind (ensures_apply_configuration_entry _) fun _ middle hmiddle => ?_
        refine .modify_bind (.bind (hrest _ ?_) fun _ _ h => .pure h)
        exact ⟨hmiddle.currentTerm, hmiddle.votedFor, hmiddle.persistence⟩
      · rw [if_neg hjoint]
        exact hrest node (Steady.refl node)

theorem ensures_follow_commit (leaderCommit : Nat) :
    Ensures (followCommit leaderCommit) node
      fun moved final => Steady node final ∧ (moved = false → final = node) := by
  rw [followCommit]
  refine .get_bind ?_
  dsimp only
  split_ifs
  · refine .set_bind (.bind (ensures_apply_committed_loop _) fun _ _ h => ?_)
    exact .pure ⟨⟨h.currentTerm, h.votedFor, h.persistence⟩, fun h => by cases h⟩
  · exact .pure ⟨Steady.refl node, fun _ => rfl⟩
  · exact .pure ⟨Steady.refl node, fun _ => rfl⟩

theorem ensures_finish_append (before : RaftNode) (response : AppendEntriesResponse)
    (changed : Bool) (hbacked : before.Backed)
    (hpersistence : node.persistence = before.persistence)
    (hsame : changed = false → node.safetyState = before.safetyState) :
    Ensures (finishAppend response changed) node fun _ => Kept before := by
  rw [finishAppend]
  refine .get_bind (.bind ?_ fun _ _ h => .pure h)
  exact ensures_persist_if before changed (hbacked.congr hpersistence) hpersistence hsame

/-- Taking over entries keeps the node. -/
theorem ensures_append_matched (before : RaftNode) (request : AppendEntriesRequest)
    (response : AppendEntriesResponse) (termIncreased : Bool) (hbacked : before.Backed)
    (hpersistence : node.persistence = before.persistence)
    (hsame : termIncreased = false → node.safetyState = before.safetyState) :
    Ensures (appendMatched request response termIncreased) node fun _ => Kept before := by
  rw [appendMatched]
  refine .get_bind ?_
  cases hlog : node.log.appendFrom request.previousLogIndex request.entries with
  | error error => exact ensures_finish_append before _ _ hbacked hpersistence hsame
  | ok log =>
    obtain ⟨hsteady, hidle⟩ := { node with log }.rollback_pending_spec node.pendingChange
    rcases hroll : { node with log }.rollbackPending node.pendingChange with ⟨rolled, dropped⟩
    rw [hroll] at hsteady hidle
    dsimp only at hidle
    simp only [hroll]
    refine .set_bind (.bind (ensures_apply_appended _) ?_)
    rintro joined afterJoin ⟨hjoin, hjoinIdle⟩
    refine .bind (ensures_follow_commit _) ?_
    rintro moved afterCommit ⟨hcommit, hcommitIdle⟩
    refine ensures_finish_append before _ _ hbacked
      ((hcommit.persistence.trans (hjoin.persistence.trans hsteady.persistence)).trans
        hpersistence) fun hquiet => ?_
    simp only [Bool.or_eq_false_iff, Bool.not_eq_false', List.isEmpty_iff] at hquiet
    obtain ⟨⟨⟨⟨hterm, hentries⟩, hrolled⟩, -⟩, hmoved⟩ := hquiet
    rw [hcommitIdle hmoved, hjoinIdle hentries, hidle hrolled, ← hsame hterm]
    rw [hentries] at hlog
    rw [append_from_nil hlog]

theorem ensures_handle_append_entries (hbacked : node.Backed)
    (request : AppendEntriesRequest) :
    Ensures (handleAppendEntries request) node fun _ => Kept node := by
  rw [handleAppendEntries]
  refine .get_bind ?_
  dsimp only
  split_ifs
  · exact ensures_finish_append node _ _ hbacked rfl fun _ => rfl
  · obtain ⟨hpersistence, hsafety⟩ := node.follow_leader_spec request.term request.leaderId
    have hsame : decide (node.currentTerm < request.term) = false →
        (node.followLeader request.term request.leaderId).safetyState = node.safetyState :=
      fun h => hsafety (by simpa using h)
    refine .set_bind ?_
    split
    · exact ensures_finish_append node _ _ hbacked hpersistence hsame
    · exact ensures_append_matched node _ _ _ hbacked hpersistence hsame

/-- Handling a response keeps the node. -/
theorem ensures_handle_append_entries_response (hbacked : node.Backed) (source : NodeId)
    (response : AppendEntriesResponse) :
    Ensures (handleAppendEntriesResponse source response) node fun _ => Kept node := by
  rw [handleAppendEntriesResponse]
  refine .get_bind ?_
  split
  · exact .pure (Kept.refl node)
  split
  · rw [← bind_assoc]
    exact .bind (ensures_step_down hbacked _) fun _ _ h => .pure h
  split
  · exact .pure (Kept.refl node)
  split
  · dsimp only
    split_ifs
    · refine .set_bind (.bind (ensures_advance_commit_index hbacked) ?_)
      rintro - final ⟨hkept, -, -⟩
      refine .get_bind ?_
      split_ifs <;> exact .pure (hkept.of_same rfl rfl)
    · exact .pure (Kept.refl node)
    · exact .pure (Kept.refl node)
    · exact .set_bind (.pure (.inl ⟨rfl, rfl⟩))
  · exact .pure (Kept.refl node)

theorem ensures_publish {α : Type} {before : RaftNode} (hbacked : before.Backed)
    (hpersistence : node.persistence = before.persistence) (answer : RaftNode → α) :
    Ensures (do persistOrThrow; advanceCommitIndex; let leader ← get; pure (answer leader)) node
      fun _ => Kept before := by
  rw [← bind_assoc]
  refine .bind (ensures_persist_advance (hbacked.congr hpersistence)) ?_
  rintro - final ⟨hwritten, -, -⟩
  exact .get_bind (.pure (.inr (hwritten.of_persistence hpersistence)))

theorem ensures_propose (hbacked : node.Backed) (command : Bytes) :
    Ensures (propose command) node fun _ => Kept node := by
  rw [propose]
  refine .get_bind ?_
  split_ifs
  · exact .pure (Kept.refl node)
  · refine .set_bind (ensures_publish hbacked ?_ _)
    rfl

/-! ## Membership and snapshots -/

/-- A change is written before it is answered. -/
theorem ensures_propose_conf_change (hbacked : node.Backed) (type : ConfChangeType)
    (member : ClusterMember) (operationId : UInt64) :
    Ensures (proposeConfChange type member operationId) node fun _ => Kept node := by
  rw [proposeConfChange]
  refine .get_bind ?_
  split
  · exact .pure (Kept.refl node)
  split
  · exact .pure (Kept.refl node)
  split
  · exact .pure (Kept.refl node)
  split
  · exact .pure (Kept.refl node)
  dsimp only
  refine .set_bind ?_
  split
  · exact .pure (.inl ⟨rfl, rfl⟩)
  · refine .set_bind (ensures_publish hbacked ?_ _)
    rfl

theorem ensures_add_learner (learner : NodeId) :
    Ensures (addLearner learner) node fun _ => Kept node := by
  rw [addLearner]
  refine .get_bind ?_
  split_ifs
  · exact .pure (Kept.refl node)
  · exact .set_bind (.pure (.inl ⟨rfl, rfl⟩))

theorem ensures_persist_answer {α : Type} {before : RaftNode} (hbacked : before.Backed)
    (hpersistence : node.persistence = before.persistence) (answer : α) :
    Ensures (do persistOrThrow; pure answer) node fun _ => Kept before := by
  refine .bind (ensures_persist (hbacked.congr hpersistence)) ?_
  rintro - final ⟨hwritten, -, -⟩
  exact .pure (.inr (hwritten.of_persistence hpersistence))

section Reliability

variable (hbacked : node.Backed)
include hbacked

theorem ensures_compact_log (boundaryIndex boundaryTerm : Nat) :
    Ensures (compactLogPrefix boundaryIndex boundaryTerm) node fun _ => Kept node := by
  rw [compactLogPrefix]
  refine .get_bind ?_
  split
  · exact .pure (Kept.refl node)
  · refine .set_bind (ensures_persist_answer hbacked ?_ _)
    rfl

theorem ensures_acknowledge_leader (term : Nat) (leader : NodeId) :
    Ensures (acknowledgeLeader term leader) node fun _ => Kept node := by
  rw [acknowledgeLeader]
  refine .get_bind ?_
  split_ifs
  · exact .pure (Kept.refl node)
  · obtain ⟨hpersistence, hsafety⟩ := node.follow_leader_spec term leader
    refine .set_bind (.bind (ensures_persist_if node _
      (hbacked.congr hpersistence) hpersistence fun h => hsafety (by simpa using h)) ?_)
    exact fun _ _ h => .pure h

theorem ensures_apply_snapshot_boundary (boundaryIndex boundaryTerm : Nat) :
    Ensures (applySnapshotBoundary boundaryIndex boundaryTerm) node fun _ => Kept node := by
  rw [applySnapshotBoundary]
  refine .get_bind ?_
  split
  · exact .pure (Kept.refl node)
  · refine .set_bind (ensures_persist_answer hbacked ?_ _)
    rfl

theorem ensures_replace_log (boundaryIndex boundaryTerm : Nat) :
    Ensures (replaceLogWithSnapshotBoundary boundaryIndex boundaryTerm) node
      fun _ => Kept node := by
  rw [replaceLogWithSnapshotBoundary]
  refine .get_bind ?_
  split
  · exact .pure (Kept.refl node)
  · refine .set_bind (ensures_persist_answer hbacked ?_ _)
    rfl

theorem ensures_on_install_snapshot_success (peer : NodeId) (lastIncludedIndex : Nat) :
    Ensures (onInstallSnapshotSuccess peer lastIncludedIndex) node fun _ => Kept node := by
  rw [onInstallSnapshotSuccess]
  refine .get_bind ?_
  split
  · exact .pure (Kept.refl node)
  split
  · refine .set_bind ((ensures_advance_commit_index ?_).mono ?_)
    · exact hbacked
    · rintro - final ⟨hkept, -, -⟩
      exact hkept.of_same rfl rfl
  · exact .pure (Kept.refl node)

theorem ensures_observe_higher_term (term : Nat) :
    Ensures (observeHigherTerm term) node fun _ => Kept node := by
  rw [observeHigherTerm]
  refine .get_bind ?_
  split_ifs
  · exact ensures_step_down hbacked term
  · exact .pure (Kept.refl node)

/-- Every operation that returns has written what it changed. -/
theorem ensures_perform (operation : Operation) :
    Ensures (perform operation) node fun _ => Kept node := by
  cases operation with
  | tick elapsedMs => exact ensures_tick hbacked elapsedMs
  | handleRequestVote source request =>
    exact (ensures_handle_request_vote hbacked request).bind fun _ _ h => .pure h
  | handleRequestVoteResponse source response =>
    exact ensures_handle_request_vote_response hbacked source response
  | handleAppendEntries source request =>
    exact (ensures_handle_append_entries hbacked request).bind fun _ _ h => .pure h
  | handleAppendEntriesResponse source response =>
    exact ensures_handle_append_entries_response hbacked source response
  | propose command =>
    exact (ensures_propose hbacked command).bind fun _ _ h => .pure h
  | proposeConfChange type member operationId =>
    exact (ensures_propose_conf_change hbacked type member operationId).bind
      fun _ _ h => .pure h
  | addLearner learner => exact (ensures_add_learner learner).bind fun _ _ h => .pure h
  | compactLogPrefix boundaryIndex boundaryTerm =>
    exact (ensures_compact_log hbacked boundaryIndex boundaryTerm).bind
      fun _ _ h => .pure h
  | acknowledgeLeader term leader =>
    exact (ensures_acknowledge_leader hbacked term leader).bind fun _ _ h => .pure h
  | applySnapshotBoundary boundaryIndex boundaryTerm =>
    exact (ensures_apply_snapshot_boundary hbacked boundaryIndex boundaryTerm).bind
      fun _ _ h => .pure h
  | replaceLogWithSnapshotBoundary boundaryIndex boundaryTerm =>
    exact (ensures_replace_log hbacked boundaryIndex boundaryTerm).bind
      fun _ _ h => .pure h
  | onInstallSnapshotSuccess peer lastIncludedIndex =>
    exact (ensures_on_install_snapshot_success hbacked peer lastIncludedIndex).bind
      fun _ _ h => .pure h
  | observeHigherTerm term =>
    exact (ensures_observe_higher_term hbacked term).bind fun _ _ h => .pure h

end Reliability

/-! ## Sequences of operations -/

/-- The latest image has the safety state of the node; or nothing has been saved since the start,
and the safety state is the one from the start. -/
def Durable (start node : RaftNode) : Prop :=
  (node.saved.head?.map (·.safetyState) = some node.safetyState) ∨
    (node.saved = start.saved ∧ node.safetyState = start.safetyState)

instance (start node : RaftNode) : Decidable (Durable start node) :=
  inferInstanceAs (Decidable (_ ∨ _))

/-- Perform operations one after the other, up to the first that throws. -/
def performAll : List Operation → RaftM Unit
  | [] => pure ()
  | operation :: rest => do
      let _ ← perform operation
      performAll rest

theorem Kept.durable {start : RaftNode} (hkept : Kept before after)
    (hdurable : Durable start before) : Durable start after := by
  rcases hkept with ⟨hpersistence, hsafety⟩ | hwritten
  · rw [Durable, saved_congr hpersistence, hsafety]
    exact hdurable
  · obtain ⟨latest, older, hsaved, hlatest, -⟩ := hwritten.journal
    refine .inl ?_
    rw [hsaved, List.cons_append, List.head?_cons, Option.map_some, hlatest]

theorem ensures_perform_all {start : RaftNode} (operations : List Operation)
    (hbacked : node.Backed) (hdurable : Durable start node) :
    Ensures (performAll operations) node fun _ final => Durable start final := by
  induction operations generalizing node with
  | nil => exact .pure hdurable
  | cons operation rest ih =>
    refine .bind (ensures_perform hbacked operation) fun _ middle hkept => ?_
    exact ih (hkept.backed hbacked) (hkept.durable hdurable)

/-- Whenever the last of a sequence of operations returns and none before it has thrown, the
latest image has the safety state of the node, or nothing has been saved and the safety state is
the one from construction. -/
theorem durable_of_perform_all (config : NodeConfig) (persistence : RaftPersistence)
    {start final : RaftNode} (hstart : construct config (some persistence) = .ok start)
    (operations : List Operation) (hrun : performAll operations start = .ok () final) :
    Durable start final :=
  ensures_perform_all operations ⟨persistence, (construct_durable hstart).persistence⟩
    (.inr ⟨rfl, rfl⟩) () final hrun

/-- A node that stands for election has its term and its vote saved. -/
theorem durable_of_perform_all_election :
    ∃ start final,
      construct { nodeId := 1, peers := [2, 3] } (some { save := fun _ _ => .ok () }) = .ok start ∧
        performAll [.tick 300, .propose []] start = .ok () final ∧ final.currentTerm = 1 ∧
        Durable start final :=
  ⟨_, _, rfl, rfl, rfl, durable_of_perform_all { nodeId := 1, peers := [2, 3] }
    { save := fun _ _ => .ok () } rfl [.tick 300, .propose []] rfl⟩

/-- A request whose only entry is a configuration change that does not decode, and which commits
it. -/
def undecodableCommit : AppendEntriesRequest where
  term := 1
  leaderId := 2
  previousLogIndex := 0
  previousLogTerm := 0
  entries := [{ index := 1, term := 1, type := .confChange, command := [0] }]
  leaderCommit := 1

/-- After an operation that throws, a later one may return without anything having been saved:
the entry and the commit index are in memory only. -/
theorem unsaved_after_throw :
    ∃ start outbound final,
      construct { nodeId := 1, peers := [2, 3] } (some { save := fun _ _ => .ok () }) = .ok start ∧
        perform (.tick 0) (start.after (.handleAppendEntries 2 undecodableCommit)) =
          .ok outbound final ∧
        final.saved = [] ∧ final.commitIndex = 1 ∧ ¬ Durable start final :=
  ⟨_, _, _, rfl, rfl, rfl, rfl, by decide +kernel⟩

end RaftNode

end DistributedKV
