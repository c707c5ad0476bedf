import DistributedKV.Raft.Node.Lifetime
import DistributedKV.Raft.Node.MicroSteps

/-!
# What a replication request commits

A follower moves its commit index to the leader's, but not past the end of its own log. The end
of its log need not be the end of what the request has verified: a log that already holds every
entry of the request keeps what comes behind them.
-/

namespace DistributedKV

namespace RaftNode

open Barrier

/-! ## The commit index of a follower -/

/-- A follower with the log and the commit index of another node. -/
structure Follows (before after : RaftNode) : Prop where
  role : after.role = .follower
  commitIndex : after.commitIndex = before.commitIndex
  log : after.log = before.log

variable {node : RaftNode}

theorem Follows.refl (hrole : node.role = .follower) : Follows node node := ⟨hrole, rfl, rfl⟩

theorem Follows.trans {middle final : RaftNode} (hfirst : Follows node middle)
    (hnext : Follows middle final) : Follows node final :=
  ⟨hnext.role, hnext.commitIndex.trans hfirst.commitIndex, hnext.log.trans hfirst.log⟩

/-- A follower that applies a change appends nothing. -/
theorem ensures_follower_apply_configuration_entry (hrole : node.role = .follower)
    (change : ConfChangeEntry) :
    Ensures (applyConfigurationEntry change) node fun _ final => Follows node final := by
  rw [applyConfigurationEntry]
  split_ifs with hjoint
  · refine .modify_bind (.get_bind ?_)
    split
    · exact .throw
    · rename_i cluster _
      refine .set_bind ?_
      have hfollower : ¬ ((node.enterJoint change).adoptJointPeers cluster
          change.targetConfig).role = .leader := by
        show ¬ node.role = .leader
        rw [hrole]
        decide
      rw [if_neg hfollower]
      exact .pure ⟨hrole, rfl, rfl⟩
  · exact .modify ⟨hrole, rfl, rfl⟩

/-- Nor does one that applies committed entries. -/
theorem ensures_follower_apply_committed_loop (hrole : node.role = .follower) (count : Nat) :
    Ensures (applyCommittedLoop count) node fun _ final => Follows node final := by
  induction count generalizing node with
  | zero => exact .pure (.refl hrole)
  | succ count ih =>
    rw [applyCommittedLoop]
    refine .get_bind ?_
    dsimp only
    split
    · exact .pure (.refl hrole)
    · rename_i entry _
      have hentry : Ensures (applyCommittedEntry entry) node
          fun _ final => Follows node final := by
        rw [applyCommittedEntry]
        split_ifs
        · split
          · exact .throw
          · exact ensures_follower_apply_configuration_entry hrole _
        · exact .pure (.refl hrole)
      refine .bind hentry fun _ middle hmiddle => .modify_bind ?_
      have hadvanced : Follows node
          { middle with configurationAppliedIndex := node.configurationAppliedIndex + 1 } :=
        ⟨hmiddle.role, hmiddle.commitIndex, hmiddle.log⟩
      exact (ih hadvanced.role).mono fun _ _ h => hadvanced.trans h

/-- Nor does one that applies those of a request. -/
theorem ensures_follower_apply_appended (hrole : node.role = .follower)
    (entries : List LogEntry) :
    Ensures (applyAppended entries) node fun _ final => Follows node final := by
  induction entries generalizing node with
  | nil => exact .pure (.refl hrole)
  | cons entry rest ih =>
    rw [applyAppended]
    refine .get_bind ?_
    split
    · exact ih hrole
    · rename_i change _
      by_cases hjoint : change.joint = true
      · rw [if_pos hjoint]
        refine .bind (ensures_follower_apply_configuration_entry hrole change)
          fun _ middle hmiddle => .modify_bind ?_
        have hpending : Follows node
            { middle with pendingConfChangeIndex := some entry.index } :=
          ⟨hmiddle.role, hmiddle.commitIndex, hmiddle.log⟩
        exact .bind (ih hpending.role) fun _ _ h => .pure (hpending.trans h)
      · rw [if_neg hjoint]
        exact ih hrole

/-- The commit index a follower with this log takes over. -/
def followedCommit (commitIndex leaderCommit : Nat) (log : RaftLog) : Nat :=
  if commitIndex < leaderCommit then min leaderCommit log.lastIndex else commitIndex

theorem ensures_follower_follow_commit (hrole : node.role = .follower) (leaderCommit : Nat) :
    Ensures (followCommit leaderCommit) node fun _ final =>
      final.commitIndex = followedCommit node.commitIndex leaderCommit node.log := by
  rw [followCommit]
  refine .get_bind ?_
  dsimp only
  rw [followedCommit]
  split_ifs with hlater hmoves
  · have hset : ({ node with commitIndex := min leaderCommit node.log.lastIndex } :
        RaftNode).role = .follower := hrole
    exact .set_bind (.bind (ensures_follower_apply_committed_loop hset _)
      fun _ _ h => .pure h.commitIndex)
  · exact .pure (not_not.mp hmoves).symm
  · exact .pure rfl

theorem ensures_finish_append_commit (response : AppendEntriesResponse) (changed : Bool) :
    Ensures (finishAppend response changed) node fun answer final =>
      answer.success = response.success ∧ final.commitIndex = node.commitIndex := by
  have hpersist : Ensures (persistIf changed) node
      fun _ final => final.commitIndex = node.commitIndex := by
    rw [persistIf]
    split_ifs
    · intro _ final hrun
      rw [persistOrThrow] at hrun
      split at hrun
      · cases hrun
        rfl
      · split at hrun <;> cases hrun
        rfl
    · exact .pure rfl
  rw [finishAppend]
  exact .get_bind (.bind hpersist fun _ _ h => .pure ⟨rfl, h⟩)

variable {response : AppendEntriesResponse}

theorem ensures_turned_down (hfailed : response.success = false) (changed : Bool)
    {post : RaftNode → Prop} :
    Ensures (finishAppend response changed) node fun answer final =>
      answer.success = true → post final :=
  (ensures_finish_append_commit response changed).mono fun answer _ h hsuccess => by
    rw [h.1, hfailed] at hsuccess
    cases hsuccess

theorem append_conflict_success {log : RaftLog} {request : AppendEntriesRequest}
    {rejection : AppendEntriesResponse} (hfailed : response.success = false)
    (hrejection : appendConflict log request response = some rejection) :
    rejection.success = false := by
  rw [appendConflict] at hrejection
  split at hrejection
  · cases hrejection
    exact hfailed
  split at hrejection
  · split_ifs at hrejection
    cases hrejection
    exact hfailed
  · cases hrejection
    exact hfailed

theorem rollback_pending_follows (hrole : node.role = .follower) (pending : Option (Bytes × Bool)) :
    Follows node (node.rollbackPending pending).1 := by
  unfold rollbackPending dropPending
  split
  · split_ifs <;> exact ⟨hrole, rfl, rfl⟩
  · exact .refl hrole

/-- Entries are merged, and the commit index follows. -/
theorem ensures_append_matched_commit (hrole : node.role = .follower)
    (request : AppendEntriesRequest) (hfailed : response.success = false) (termIncreased : Bool) :
    Ensures (appendMatched request response termIncreased) node fun answer final =>
      answer.success = true → ∃ merged,
        node.log.appendFrom request.previousLogIndex request.entries = .ok merged ∧
          final.commitIndex = followedCommit node.commitIndex request.leaderCommit merged := by
  rw [appendMatched]
  refine .get_bind ?_
  cases hlog : node.log.appendFrom request.previousLogIndex request.entries with
  | error error =>
    have hstill : ({ response with conflictIndex := node.log.lastIndex + 1 } :
        AppendEntriesResponse).success = false := hfailed
    exact (ensures_turned_down hstill _).mono fun _ _ h => h
  | ok merged =>
    have hmerged : ({ node with log := merged } : RaftNode).role = .follower := hrole
    have hrolled := rollback_pending_follows hmerged node.pendingChange
    rcases hroll : { node with log := merged }.rollbackPending node.pendingChange with
      ⟨rolled, dropped⟩
    rw [hroll] at hrolled
    simp only [hroll]
    refine .set_bind (.bind
      (ensures_follower_apply_appended hrolled.role request.entries) fun joined middle hjoined => ?_)
    have hmiddle := hrolled.trans hjoined
    refine .bind (ensures_follower_follow_commit hmiddle.role _)
      fun moved final hcommit => ?_
    refine (ensures_finish_append_commit _ _).mono fun _ _ hfinish _ => ⟨merged, rfl, ?_⟩
    rw [hfinish.2, hcommit, hmiddle.commitIndex, hmiddle.log]

/-- A success has merged the entries and followed the commit. -/
theorem ensures_append_success (request : AppendEntriesRequest) :
    Ensures (handleAppendEntries request) node fun response final =>
      response.success = true → ∃ merged,
        node.log.appendFrom request.previousLogIndex request.entries = .ok merged ∧
          final.commitIndex = followedCommit node.commitIndex request.leaderCommit merged := by
  rw [handleAppendEntries]
  refine .get_bind ?_
  dsimp only
  split_ifs with hrefused
  · exact ensures_turned_down rfl _
  · have hterm : node.currentTerm ≤ request.term := not_lt.mp (not_or.mp hrefused).2
    obtain ⟨hrole, -, hlog⟩ := follow_leader_fields hterm request.leaderId
    have hcommit : (node.followLeader request.term request.leaderId).commitIndex =
        node.commitIndex := by
      unfold followLeader becomeFollower resetElectionTimer
      split_ifs <;> rfl
    refine .set_bind ?_
    split
    · rename_i rejection hrejection
      exact ensures_turned_down (append_conflict_success rfl hrejection) _
    · rw [← hlog, ← hcommit]
      exact ensures_append_matched_commit hrole request rfl _

/-! ## How far a request commits -/

/-- The log goes on behind the entries of a request, all of which it holds. -/
def HoldsMore (log : RaftLog) (request : AppendEntriesRequest) : Prop :=
  (∀ entry ∈ request.entries, log.entryAt entry.index = some entry) ∧
    request.previousLogIndex + request.entries.length < log.lastIndex

/-- The merged log ends with the request or held more. -/
theorem last_index_merged {log merged : RaftLog} {request : AppendEntriesRequest}
    (hmerged : log.appendFrom request.previousLogIndex request.entries = .ok merged) :
    (HoldsMore log request ∧ merged.lastIndex = log.lastIndex) ∨
      (¬ HoldsMore log request ∧
        merged.lastIndex = request.previousLogIndex + request.entries.length) := by
  obtain ⟨hfirst, hlast, hboundary, hvalid, hsuffix⟩ := RaftLog.append_from_spec hmerged
  have hlength := log.last_index_eq
  have hmergedLength := merged.last_index_eq
  have hsame : merged.firstIndex = log.firstIndex := by
    rw [RaftLog.firstIndex, hboundary, RaftLog.firstIndex]
  rcases hsuffix with ⟨hkept, hbegins⟩ | hreplaced
  · have hend := hbegins.length_le
    rw [List.length_drop] at hend
    rw [hkept] at hmergedLength
    by_cases hmore : request.previousLogIndex + request.entries.length < log.lastIndex
    · refine .inl ⟨⟨fun entry hentry => ?_, hmore⟩, by omega⟩
      exact log.entry_at_of_mem (List.mem_of_mem_drop (hbegins.subset hentry))
    · exact .inr ⟨fun h => hmore h.2, by omega⟩
  · have hend : merged.lastIndex = request.previousLogIndex + request.entries.length := by
      rw [hmergedLength, hreplaced, List.length_append, List.length_take]
      omega
    refine .inr ⟨fun ⟨hheld, hmore⟩ => ?_, hend⟩
    -- A log that holds the whole request is not cut.
    have hbegins : log.suffix <+: merged.suffix := by
      refine RaftLog.append_from_keeps (List.prefix_refl _) (fun entry hentry hbehind present
        hpresent => ?_) hmerged
      have hat := hheld entry hentry
      rw [show entry.index = log.firstIndex + (entry.index - log.firstIndex - 1 + 1) by omega,
        log.entry_at_succ, hpresent] at hat
      rw [Option.some.inj hat]
    have := hbegins.length_le
    omega

/-- After a request that is answered with success the commit index is bounded by what the request
has verified, unless the log held more than the request and the leader has committed more. -/
theorem follower_commit_bound_iff (request : AppendEntriesRequest)
    (response : AppendEntriesResponse) (final : RaftNode)
    (hrun : handleAppendEntries request node = .ok response final)
    (hsuccess : response.success = true) :
    final.commitIndex ≤ max node.commitIndex
        (min request.leaderCommit (request.previousLogIndex + request.entries.length)) ↔
      ¬ (HoldsMore node.log request ∧
        request.previousLogIndex + request.entries.length < request.leaderCommit ∧
        node.commitIndex < min request.leaderCommit node.log.lastIndex) := by
  obtain ⟨merged, hmerged, hcommit⟩ := ensures_append_success request response final hrun hsuccess
  rw [hcommit, followedCommit]
  rcases last_index_merged hmerged with ⟨hmore, hlast⟩ | ⟨hnone, hlast⟩
  · have hbehind := hmore.2
    rw [hlast]
    simp only [hmore, true_and]
    split_ifs <;> omega
  · rw [hlast]
    simp only [hnone, false_and, not_false_eq_true, iff_true]
    split_ifs <;> omega

/-! ## An empty probe -/

/-- The third of three voters, to which the first one has replicated an entry that it has not
committed. -/
def laggingFollower : Option RaftNode :=
  (construct { nodeId := 3
               bootstrapCluster := some
                { configId := 1, members := [plainMember 1, plainMember 2, plainMember 3] } }
    none).toOption.map fun node =>
      node.after (.handleAppendEntries 1
        { term := 1, leaderId := 1, previousLogIndex := 0, previousLogTerm := 0
          entries := [{ index := 1, term := 1, type := .command, command := [120] }]
          leaderCommit := 0, readContext := 0 })

/-- What a leader of term 2 that has compacted its log sends to a peer at the start of its log. -/
def compactedProbe (leaderCommit : Nat) : AppendEntriesRequest :=
  { term := 2, leaderId := 2, previousLogIndex := 0, previousLogTerm := 0, entries := []
    leaderCommit, readContext := 0 }

/-- The answer to the probe, with the commit index before and after it. -/
def probeOutcome (leaderCommit : Nat) (node : RaftNode) : Option (Bool × Nat × Nat) :=
  match handleAppendEntries (compactedProbe leaderCommit) node with
  | .ok response final => some (response.success, node.commitIndex, final.commitIndex)
  | .error _ _ => none

theorem probe_outcome_run {leaderCommit : Nat} {outcome : Bool × Nat × Nat}
    (houtcome : laggingFollower.bind (probeOutcome leaderCommit) = some outcome) :
    ∃ node response final, laggingFollower = some node ∧
      handleAppendEntries (compactedProbe leaderCommit) node = .ok response final ∧
      (response.success, node.commitIndex, final.commitIndex) = outcome := by
  obtain ⟨node, hnode, houtcome⟩ := Option.bind_eq_some_iff.mp houtcome
  rw [probeOutcome] at houtcome
  cases hrun : handleAppendEntries (compactedProbe leaderCommit) node with
  | error error final =>
    rw [hrun] at houtcome
    cases houtcome
  | ok response final =>
    rw [hrun] at houtcome
    exact ⟨node, response, final, hnode, hrun, Option.some.inj houtcome⟩

/-- A probe without entries commits an entry that it has not verified. -/
theorem probe_commits_unverified :
    ∃ node response final, laggingFollower = some node ∧
      handleAppendEntries (compactedProbe 1) node = .ok response final ∧
      response.success = true ∧
      ¬ final.commitIndex ≤ max node.commitIndex
        (min (compactedProbe 1).leaderCommit
          ((compactedProbe 1).previousLogIndex + (compactedProbe 1).entries.length)) := by
  have houtcome : laggingFollower.bind (probeOutcome 1) = some (true, 0, 1) := by decide +kernel
  obtain ⟨node, response, final, hnode, hrun, hvalues⟩ := probe_outcome_run houtcome
  simp only [Prod.mk.injEq] at hvalues
  obtain ⟨hsuccess, hbefore, hafter⟩ := hvalues
  refine ⟨node, response, final, hnode, hrun, hsuccess, ?_⟩
  rw [hbefore, hafter]
  decide

/-- The same probe from a leader that has committed nothing keeps the bound. -/
theorem idle_probe_keeps_bound :
    ∃ node response final, laggingFollower = some node ∧
      handleAppendEntries (compactedProbe 0) node = .ok response final ∧
      response.success = true ∧ final.commitIndex ≤ max node.commitIndex 0 := by
  have houtcome : laggingFollower.bind (probeOutcome 0) = some (true, 0, 0) := by decide +kernel
  obtain ⟨node, response, final, hnode, hrun, hvalues⟩ := probe_outcome_run houtcome
  simp only [Prod.mk.injEq] at hvalues
  obtain ⟨hsuccess, -, -⟩ := hvalues
  refine ⟨node, response, final, hnode, hrun, hsuccess, ?_⟩
  exact (follower_commit_bound_iff (compactedProbe 0) response final hrun hsuccess).mpr
    fun h => Nat.not_lt_zero _ h.2.1

end RaftNode

end DistributedKV
