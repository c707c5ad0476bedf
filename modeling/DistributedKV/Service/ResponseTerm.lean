import DistributedKV.Service.CatchUp
import DistributedKV.Service.InstallSnapshot

/-!
# The terms of responses

A leader drops every response whose term is not its own. The handlers of vote and replication
requests read the term when they are done, so that a response carries the term of the node. The
handler of snapshot chunks reads it before it acknowledges the leader, and a response to the first
chunk of a newer term carries the old one (`response_terms_iff`).
-/

namespace DistributedKV

open Barrier

namespace RaftNode

variable {node : RaftNode}

theorem ensures_persist_if_term (changed : Bool) :
    Ensures (persistIf changed) node fun _ final => final.currentTerm = node.currentTerm := by
  rw [persistIf]
  split_ifs
  · exact ensures_recorded.mono fun _ final hfinal => by rw [hfinal]; rfl
  · exact .pure rfl

theorem ensures_request_vote_term (request : RequestVoteRequest) :
    Ensures (handleRequestVote request) node fun response final =>
      response.term = final.currentTerm := by
  rw [handleRequestVote]
  refine .get_bind ?_
  split_ifs
  · exact .pure rfl
  · exact .set_bind (.bind_last fun _ final => .get_bind (.pure rfl))

theorem ensures_finish_append_term (response : AppendEntriesResponse) (changed : Bool) :
    Ensures (finishAppend response changed) node fun answer final =>
      answer.term = final.currentTerm := by
  rw [finishAppend]
  refine .get_bind (.bind (ensures_persist_if_term changed) fun _ final hterm => ?_)
  exact .pure hterm.symm

/-- A replication response carries the term of the node. -/
theorem ensures_append_entries_term (request : AppendEntriesRequest) :
    Ensures (handleAppendEntries request) node fun response final =>
      response.term = final.currentTerm := by
  rw [handleAppendEntries]
  refine .get_bind ?_
  dsimp only
  split_ifs
  · exact ensures_finish_append_term _ _
  · refine .set_bind ?_
    split
    · exact ensures_finish_append_term _ _
    · rw [appendMatched]
      refine .get_bind ?_
      split
      · exact ensures_finish_append_term _ _
      · exact .set_bind (.bind_last fun _ _ => .bind_last fun _ _ =>
          ensures_finish_append_term _ _)

theorem ensures_replace_log_term (boundaryIndex boundaryTerm : Nat) :
    Ensures (replaceLogWithSnapshotBoundary boundaryIndex boundaryTerm) node fun _ final =>
      final.currentTerm = node.currentTerm := by
  rw [replaceLogWithSnapshotBoundary]
  refine .get_bind ?_
  split
  · exact .pure rfl
  · refine .set_bind (.bind ensures_recorded fun _ final hfinal => ?_)
    refine .pure ?_
    rw [hfinal]
    rfl

theorem acknowledge_leader_refused {term : Nat} {leader : NodeId}
    (hmember : node.isMember leader = false) :
    acknowledgeLeader term leader node = .ok false node := by
  rw [acknowledgeLeader, get_bind, if_pos (.inl hmember)]
  rfl

end RaftNode

namespace RaftKVService

variable {service : RaftKVService}

theorem ensures_request_vote_term (request : RequestVoteRequest) :
    Ensures (handleRequestVote request) service fun response final =>
      response.term = final.raftNode.currentTerm := by
  refine (ensures_on_node (RaftNode.ensures_request_vote_term request)).mono ?_
  intro response final hfinal
  obtain ⟨node, hterm, rfl⟩ := hfinal
  exact hterm

theorem ensures_append_entries_term (request : AppendEntriesRequest) :
    Ensures (handleAppendEntries request) service fun answer final =>
      answer.1.term = final.raftNode.currentTerm := by
  rw [handleAppendEntries]
  refine .bind (ensures_on_node (RaftNode.ensures_append_entries_term request)) ?_
  intro response middle hmiddle
  obtain ⟨node, hterm, rfl⟩ := hmiddle
  refine .bind ensures_apply_committed fun applied final hfinal => ?_
  have hsame : response.term = final.raftNode.currentTerm := by
    rw [hfinal, caught_up_framed.raftNode]
    exact hterm
  cases applied with
  | error error => exact .pure hsame
  | ok _ => exact .pure hsame

/-- Installing a snapshot changes no term. -/
theorem ensures_install_term (snapshot : StateMachineSnapshot)
    (response : InstallSnapshotResponse) :
    Ensures (installSnapshot snapshot response) service fun answer final =>
      answer.1.term = response.term ∧
        final.raftNode.currentTerm = service.raftNode.currentTerm := by
  rw [installSnapshot]
  split
  · exact .pure ⟨rfl, rfl⟩
  · rename_i machine _
    refine .modify_bind ?_
    refine .bind (ensures_on_node (RaftNode.ensures_replace_log_term _ _)) ?_
    intro replaced middle hmiddle
    obtain ⟨node, hterm, rfl⟩ := hmiddle
    cases replaced with
    | error error => exact .pure ⟨rfl, hterm⟩
    | ok _ =>
      refine .modify_bind ?_
      refine .bind ensures_apply_committed fun applied final hfinal => ?_
      have hsame : final.raftNode.currentTerm = service.raftNode.currentTerm := by
        rw [hfinal, caught_up_framed.raftNode]
        exact hterm
      cases applied with
      | error error => exact .pure ⟨rfl, hsame⟩
      | ok _ => exact .pure ⟨rfl, hsame⟩

theorem ensures_receive_chunk_term (request : InstallSnapshotRequest)
    (response : InstallSnapshotResponse) :
    Ensures (receiveChunk request response) service fun answer final =>
      answer.1.term = response.term ∧
        final.raftNode.currentTerm = service.raftNode.currentTerm := by
  rw [receiveChunk]
  refine .get_bind ?_
  split
  · exact .pure ⟨rfl, rfl⟩
  · split
    · exact .set_bind (.pure ⟨rfl, rfl⟩)
    · split_ifs
      · exact .set_bind (.pure ⟨rfl, rfl⟩)
      · split
        · exact .set_bind (.pure ⟨rfl, rfl⟩)
        · exact .set_bind (ensures_install_term _ _)

/-- When a snapshot response carries the term. -/
theorem ensures_install_snapshot_term (request : InstallSnapshotRequest) :
    Ensures (handleInstallSnapshot request) service fun answer final =>
      answer.1.term = final.raftNode.currentTerm ↔
        ¬ (service.raftNode.currentTerm < request.term ∧
          service.raftNode.isMember request.leaderId = true) := by
  rw [handleInstallSnapshot]
  refine .get_bind ?_
  dsimp only
  by_cases hstale : request.term < service.raftNode.currentTerm
  · rw [if_pos hstale]
    exact .pure (iff_of_true rfl fun hnewer => by omega)
  rw [if_neg hstale]
  cases hmember : service.raftNode.isMember request.leaderId with
  | false =>
    have hrefused : onNode (RaftNode.acknowledgeLeader request.term request.leaderId) service =
        .ok false service := by
      rw [onNode, RaftNode.acknowledge_leader_refused hmember]
    intro answer final hrun
    rw [bind_of_ok hrefused] at hrun
    cases hrun
    exact iff_of_true rfl fun hnewer => by cases hnewer.2
  | true =>
    have hcurrent : service.raftNode.currentTerm ≤ request.term := not_lt.mp hstale
    obtain ⟨-, -, -, hterm⟩ :=
      service.raftNode.acknowledged_fields request.leaderId hcurrent
    refine .bind (ensures_on_node (RaftNode.ensures_acknowledged hmember hcurrent)) ?_
    intro accepted middle hmiddle
    obtain ⟨node, ⟨rfl, rfl⟩, rfl⟩ := hmiddle
    refine .get_bind ?_
    rw [if_neg (by decide)]
    -- from here on the response has the old term and the node that of the request
    have hdone : ∀ answer : InstallSnapshotResponse × String, ∀ final : RaftKVService,
        answer.1.term = service.raftNode.currentTerm ∧
          final.raftNode.currentTerm =
            (service.raftNode.acknowledged request.term request.leaderId).currentTerm →
        (answer.1.term = final.raftNode.currentTerm ↔
          ¬ (service.raftNode.currentTerm < request.term ∧ true = true)) := by
      intro answer final hterms
      rw [hterms.1, hterms.2, hterm, and_iff_left rfl, not_lt]
      exact ⟨fun hsame => hsame.ge, fun hle => Nat.le_antisymm hcurrent hle⟩
    split_ifs
    · exact .pure (hdone _ _ ⟨rfl, rfl⟩)
    · exact (ensures_receive_chunk_term request _).mono hdone

/-- In every state, responses to vote and replication requests carry the term of the node after
the request; a response to a snapshot chunk does so exactly when the chunk does not come from a
member in a newer term. -/
theorem response_terms_iff (service : RaftKVService) :
    (∀ request response final, handleRequestVote request service = .ok response final →
        response.term = final.raftNode.currentTerm) ∧
      (∀ request answer final, handleAppendEntries request service = .ok answer final →
        answer.1.term = final.raftNode.currentTerm) ∧
      ∀ request answer final, handleInstallSnapshot request service = .ok answer final →
        (answer.1.term = final.raftNode.currentTerm ↔
          ¬ (service.raftNode.currentTerm < request.term ∧
            service.raftNode.isMember request.leaderId = true)) :=
  ⟨fun request => ensures_request_vote_term request,
    fun request => ensures_append_entries_term request,
    fun request => ensures_install_snapshot_term request⟩

/-! ### The first chunk of a newer term -/

/-- A first chunk that node 1 sends as the leader of a term. -/
def firstChunk (term : Nat) : InstallSnapshotRequest where
  term
  leaderId := 1
  lastIncludedIndex := 5
  lastIncludedTerm := 1
  offset := 0
  done := false
  data := [1]

/-- The terms of the response to such a chunk and of the node after it, for a follower that has
restarted in term 1. -/
def chunkTerms (term : Nat) : Option (Nat × Nat) :=
  match handleInstallSnapshot (firstChunk term) (restartedFollower 1) with
  | .ok answer final => some (answer.1.term, final.raftNode.currentTerm)
  | .error _ _ => none

theorem chunk_terms_eq_some {term answered reached : Nat}
    (hterms : chunkTerms term = some (answered, reached)) :
    ∃ answer final, handleInstallSnapshot (firstChunk term) (restartedFollower 1) =
        .ok answer final ∧
      answer.1.term = answered ∧ final.raftNode.currentTerm = reached := by
  rw [chunkTerms] at hterms
  split at hterms
  · rename_i answer final hrun
    cases hterms
    exact ⟨answer, final, hrun, rfl, rfl⟩
  · cases hterms

/-- A chunk of the follower's own term is answered with that term. -/
theorem response_terms_same_term :
    ∃ answer final, handleInstallSnapshot (firstChunk 1) (restartedFollower 1) = .ok answer final ∧
      answer.1.term = final.raftNode.currentTerm := by
  have hterms : chunkTerms 1 = some (1, 1) := by decide +kernel
  obtain ⟨answer, final, hrun, -, -⟩ := chunk_terms_eq_some hterms
  have holder : ¬ ((restartedFollower 1).raftNode.currentTerm < (firstChunk 1).term ∧
      (restartedFollower 1).raftNode.isMember (firstChunk 1).leaderId = true) := by
    decide +kernel
  exact ⟨answer, final, hrun,
    ((response_terms_iff (restartedFollower 1)).2.2 (firstChunk 1) answer final hrun).mpr holder⟩

/-- The first chunk of term 2 is answered with term 1 by a follower that is in term 2 then. -/
theorem newer_chunk_answered_stale :
    ∃ answer final, handleInstallSnapshot (firstChunk 2) (restartedFollower 1) = .ok answer final ∧
      answer.1.term = 1 ∧ final.raftNode.currentTerm = 2 :=
  chunk_terms_eq_some (by decide +kernel)

end RaftKVService

end DistributedKV
