import DistributedKV.Raft.Node.Durability
import DistributedKV.Raft.Node.MicroSteps

/-!
# Saves of a node

What a save and the acceptance of a leader leave behind, with equations for a barrier whose saves
succeed.
-/

namespace DistributedKV

open Barrier

namespace RaftNode

/-- The node with its image saved, when it has a barrier. -/
def recorded (node : RaftNode) : RaftNode :=
  { node with
    persistence := node.persistence.map fun barrier =>
      { barrier with saved := node.persistentState :: barrier.saved } }

/-- The node after it accepted the leader of a term. -/
def acknowledged (node : RaftNode) (term : Nat) (leader : NodeId) : RaftNode :=
  if node.currentTerm < term then (node.followLeader term leader).recorded
  else node.followLeader term leader

variable {node : RaftNode} {term : Nat}

theorem ensures_recorded : Ensures persistOrThrow node fun _ final => final = node.recorded := by
  intro result final hrun
  rw [persistOrThrow] at hrun
  split at hrun
  · rename_i hnone
    cases hrun
    rw [recorded, hnone, Option.map_none, ← hnone]
  · rename_i barrier hsome
    split at hrun
    · cases hrun
      simp [recorded, hsome]
    · cases hrun

/-- A save that is refused changes nothing. -/
theorem persist_thrown {error : String} {final : RaftNode}
    (hrun : persistOrThrow node = .error error final) : final = node := by
  rw [persistOrThrow] at hrun
  split at hrun
  · cases hrun
  · split at hrun
    · cases hrun
    · cases hrun
      rfl

theorem recorded_saved (hbacked : node.Backed) :
    node.recorded.saved = node.persistentState :: node.saved := by
  obtain ⟨persistence, hpersistence⟩ := hbacked
  simp [saved, recorded, hpersistence]

theorem Backed.recorded (hbacked : node.Backed) : node.recorded.Backed := by
  obtain ⟨persistence, hpersistence⟩ := hbacked
  exact ⟨_, by rw [RaftNode.recorded, hpersistence]; rfl⟩

theorem leaves_persist (hbacked : node.Backed) :
    Leaves saved persistOrThrow node (fun _ final => final = node.recorded)
      (fun final => final = node) (fun image => image = node.persistentState) := by
  refine ⟨fun result final hrun => ?_, fun error final hrun => ?_⟩
  · obtain rfl := ensures_recorded result final hrun
    exact ⟨rfl, [node.persistentState], recorded_saved hbacked, by simp⟩
  · obtain rfl := persist_thrown hrun
    exact ⟨rfl, .of_eq rfl⟩

theorem Micro.saves {operation : Operation} {after : RaftNode} (hstep : Micro operation node after) :
    after.persistence = node.persistence ∨ Save node after := by
  cases hstep with
  | prepare hstep =>
    cases hstep with
    | stepDown term leader => exact .inl (node.become_follower_spec term leader).1
    | merge source request log =>
      exact .inl ({ node with log }.rollback_pending_spec node.pendingChange).1.persistence
    | save hsave => exact .inr hsave
    | _ => exact .inl rfl
  | commit hstep => cases hstep <;> exact .inl rfl
  | apply hstep =>
    cases hstep with
    | save hsave => exact .inr hsave
    | _ => exact .inl rfl

theorem ensures_acknowledged {term : Nat} {leader : NodeId}
    (hmember : node.isMember leader = true) (hterm : node.currentTerm ≤ term) :
    Ensures (acknowledgeLeader term leader) node fun accepted final =>
      accepted = true ∧ final = node.acknowledged term leader := by
  rw [acknowledgeLeader]
  refine .get_bind ?_
  rw [if_neg (by simp [hmember, not_lt.mpr hterm])]
  refine .set_bind (.bind ?_ fun _ final hfinal => .pure ⟨rfl, hfinal⟩)
  rw [persistIf, acknowledged]
  by_cases hnewer : node.currentTerm < term
  · rw [if_pos (by simpa using hnewer), if_pos hnewer]
    exact ensures_recorded
  · rw [if_neg (by simpa using hnewer), if_neg hnewer]
    exact .pure rfl

theorem follow_leader_config (node : RaftNode) (term : Nat) (leader : NodeId) :
    (node.followLeader term leader).commitIndex = node.commitIndex ∧
      (node.followLeader term leader).config = node.config ∧
      (node.followLeader term leader).clusterConfig = node.clusterConfig := by
  unfold followLeader becomeFollower resetElectionTimer
  split_ifs
  · exact ⟨rfl, rfl, rfl⟩
  · exact ⟨rfl, rfl, rfl⟩
  · exact ⟨rfl, rfl, rfl⟩

theorem acknowledged_fields (node : RaftNode) {term : Nat} (leader : NodeId)
    (hterm : node.currentTerm ≤ term) :
    (node.acknowledged term leader).log = node.log ∧
      (node.acknowledged term leader).commitIndex = node.commitIndex ∧
      (node.acknowledged term leader).config = node.config ∧
      (node.acknowledged term leader).currentTerm = term := by
  obtain ⟨-, hreached, hlog⟩ := follow_leader_fields hterm leader
  obtain ⟨hcommit, hconfig, -⟩ := node.follow_leader_config term leader
  rw [acknowledged]
  split_ifs
  · exact ⟨hlog, hcommit, hconfig, hreached⟩
  · exact ⟨hlog, hcommit, hconfig, hreached⟩

/-- A node that accepts a leader follows. -/
theorem ensures_accepted_follows {leader : NodeId} :
    Ensures (acknowledgeLeader term leader) node fun accepted final =>
      accepted = true → final.role = .follower := by
  by_cases hrefused : node.isMember leader = false ∨ term < node.currentTerm
  · rw [acknowledgeLeader]
    refine .get_bind ?_
    rw [if_pos hrefused]
    exact .pure fun h => by cases h
  · obtain ⟨hmember, hterm⟩ := not_or.mp hrefused
    have hreached : node.currentTerm ≤ term := not_lt.mp hterm
    refine (ensures_acknowledged (by simpa using hmember) hreached).mono ?_
    rintro accepted final ⟨-, rfl⟩ -
    have hrole := (follow_leader_fields hreached leader).1
    rw [acknowledged]
    split_ifs
    · exact hrole
    · exact hrole

/-! ## Saves that succeed -/

/-- The saves of the barrier, if there is one, always succeed. -/
def SavesSucceed (node : RaftNode) : Prop :=
  ∀ persistence, node.persistence = some persistence →
    ∀ saved image, persistence.save saved image = .ok ()

theorem SavesSucceed.persist_or_throw (hsaves : node.SavesSucceed) :
    persistOrThrow node = .ok () node.recorded := by
  rw [persistOrThrow, recorded]
  cases hpersistence : node.persistence with
  | none =>
    show EStateM.Result.ok () node = _
    rw [Option.map_none, ← hpersistence]
  | some persistence => simp [hsaves persistence hpersistence]

theorem SavesSucceed.recorded (hsaves : node.SavesSucceed) : node.recorded.SavesSucceed := by
  intro persistence hpersistence
  obtain ⟨barrier, hbarrier, rfl⟩ := Option.map_eq_some_iff.mp hpersistence
  exact hsaves barrier hbarrier

theorem SavesSucceed.follow_leader (hsaves : node.SavesSucceed) (term : Nat) (leader : NodeId) :
    (node.followLeader term leader).SavesSucceed := by
  rw [SavesSucceed, (node.follow_leader_spec term leader).1]
  exact hsaves

theorem SavesSucceed.acknowledged (hsaves : node.SavesSucceed) (term : Nat) (leader : NodeId) :
    (node.acknowledged term leader).SavesSucceed := by
  rw [RaftNode.acknowledged]
  split_ifs
  · exact (hsaves.follow_leader term leader).recorded
  · exact hsaves.follow_leader term leader

theorem SavesSucceed.acknowledge_leader (hsaves : node.SavesSucceed) {leader : NodeId}
    (hmember : node.isMember leader = true) (hterm : node.currentTerm ≤ term) :
    acknowledgeLeader term leader node = .ok true (node.acknowledged term leader) := by
  rw [acknowledgeLeader, get_bind, if_neg (by simp [hmember, not_lt.mpr hterm]), set_bind,
    persistIf, RaftNode.acknowledged]
  by_cases hnewer : node.currentTerm < term
  · rw [if_pos (by simpa using hnewer), if_pos hnewer,
      bind_of_ok (hsaves.follow_leader term leader).persist_or_throw]
    rfl
  · rw [if_neg (by simpa using hnewer), if_neg hnewer]
    rfl

end RaftNode

end DistributedKV
