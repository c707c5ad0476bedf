import DistributedKV.Cluster.Relation
import DistributedKV.Raft.Node.Durability

/-!
# Saving and committing

The barrier of a related node saves a current image. A leader commits only what a quorum has
acknowledged in its own term, so the index it commits is settled, and without configuration
entries in its log the configuration stays as it is.
-/

namespace DistributedKV

open TermLog Barrier RaftNode

variable {voters : Finset NodeId} {config : NodeConfig} {H K : RaftHistory} {n : NodeId}
  {node : RaftNode}

/-- A history in which everything the protocol maintains holds. -/
structure Sound (voters : Finset NodeId) (H : RaftHistory) : Prop where
  invariant : Invariant (majorityRules voters).stamp H
  elected : Elected (majorityRules voters).quorum H
  valid : ValidEntries (majorityRules voters) H

theorem Sound.steps (hsound : Sound voters H) (hsteps : Steps (majorityRules voters) n H K) :
    Sound voters K :=
  ⟨(hsteps.spec hsound.invariant).1, hsteps.elected hsound.elected,
    hsteps.valid hsound.invariant hsound.valid⟩

/-- An image that a crash inside an operation of node `n` can leave behind. -/
def Left (voters : Finset NodeId) (config : NodeConfig) (H : RaftHistory) (n : NodeId)
    (image : RaftPersistentState) : Prop :=
  ∃ K, Steps (majorityRules voters) n H K ∧ DurableFacts voters config K n image

/-- The node and the packets an operation of node `n` returns with. -/
def Outcome (voters : Finset NodeId) (config : NodeConfig) (H : RaftHistory) (n : NodeId)
    (outbound : List OutboundRpc) (final : RaftNode) : Prop :=
  ∃ K, Steps (majorityRules voters) n H K ∧ NodeFacts voters config K n final ∧
    ∀ rpc ∈ outbound, PacketFacts voters K
      { source := n, destination := rpc.destination, payload := rpc.payload }

theorem Left.after {image : RaftPersistentState} (hleft : Left voters config K n image)
    (hsteps : Steps (majorityRules voters) n H K) : Left voters config H n image := by
  obtain ⟨M, hmore, hfacts⟩ := hleft
  exact ⟨M, hsteps.trans hmore, hfacts⟩

theorem Outcome.after {outbound : List OutboundRpc} {final : RaftNode}
    (houtcome : Outcome voters config K n outbound final)
    (hsteps : Steps (majorityRules voters) n H K) : Outcome voters config H n outbound final := by
  obtain ⟨M, hmore, hfacts, hpackets⟩ := houtcome
  exact ⟨M, hsteps.trans hmore, hfacts, hpackets⟩

theorem NodeFacts.outcome (hfacts : NodeFacts voters config H n node) :
    Outcome voters config H n [] node :=
  ⟨H, Steps.refl H, hfacts, by simp⟩

/-! ## The barrier -/

namespace RaftNode

/-- The node after its barrier has taken its image. -/
def stored (node : RaftNode) : RaftNode :=
  { node with persistence := node.persistence.map fun persistence =>
      { persistence with saved := node.persistentState :: persistence.saved } }

end RaftNode

section Saving

variable (hcore : NodeCore voters config H n node)
include hcore

theorem NodeCore.persist_eq :
    RaftNode.persistOrThrow node = .ok () node.stored := by
  obtain ⟨saved, hsaved⟩ := hcore.reliable
  simp only [RaftNode.persistOrThrow, RaftNode.stored, hsaved, RaftPersistence.reliable,
    Option.map_some]

theorem NodeCore.saved_stored :
    node.stored.saved = node.persistentState :: node.saved := by
  obtain ⟨saved, hsaved⟩ := hcore.reliable
  simp [RaftNode.saved, RaftNode.stored, hsaved]

theorem NodeCore.image :
    DurableFacts voters config H n node.persistentState where
  term := hcore.term
  vote := hcore.vote
  entries := by
    have hboundary : node.log.boundary = RaftLog.empty.boundary := hcore.uncompacted
    show node.log.boundary :: node.log.suffix = _
    rw [hboundary, hcore.log]
  commit := hcore.commit
  cluster := hcore.cluster
  joint := hcore.joint
  active := hcore.active

theorem NodeCore.facts_stored :
    NodeFacts voters config H n node.stored where
  core :=
    { hcore with
      reliable := by
        obtain ⟨saved, hsaved⟩ := hcore.reliable
        exact ⟨node.persistentState :: saved, by simp [stored, hsaved]⟩ }
  durable := by
    rw [hcore.saved_stored]
    exact hcore.image

theorem NodeCore.returns_persist :
    Returns RaftNode.saved RaftNode.persistOrThrow node
      (fun _ final => final = node.stored) (Left voters config H n) := by
  refine .of_ok hcore.persist_eq rfl ⟨[node.persistentState], ?_, ?_⟩
  · rw [hcore.saved_stored]
    rfl
  · intro image himage
    rw [List.mem_singleton.mp himage]
    exact ⟨H, Steps.refl H, hcore.image⟩

end Saving

/-! ## Committing -/

theorem NodeCore.no_conf_change (hcore : NodeCore voters config H n node)
    (hsound : Sound voters H) (index : Nat) (entry : LogEntry)
    (hentry : node.log.entryAt index = some entry) : entry.type ≠ .confChange := by
  cases index with
  | zero =>
    have hfirst := node.log.entry_at_first
    have hboundary : node.log.boundary = RaftLog.empty.boundary := hcore.uncompacted
    rw [hcore.uncompacted.first_index, hentry, hboundary] at hfirst
    rw [Option.some.inj hfirst]
    decide
  | succ k =>
    rw [hcore.uncompacted.entry_at_succ, hcore.log] at hentry
    exact (hsound.valid.of_stamped (hsound.invariant.stamped n) hentry).2

/-- An index of its term that a leader finds replicated by a quorum is chosen. -/
theorem LeaderFacts.chosen (hleader : LeaderFacts H n node.config.peers node.nextIndex node.matchIndex)
    (hcore : NodeCore voters config H n node) (hsound : Sound voters H) {index : Nat}
    (hpos : 0 < index) (hterm : node.log.termAt index = some node.currentTerm)
    (hquorum : node.hasReplicationQuorum index = true) :
    Chosen (majorityRules voters) H (H.term n) index := by
  obtain ⟨k, rfl⟩ : ∃ k, index = k + 1 := ⟨index - 1, by omega⟩
  rw [hcore.uncompacted.term_at_succ, hcore.log, hcore.term] at hterm
  obtain ⟨entry, hentry, hstamp⟩ := Option.map_eq_some_iff.mp hterm
  have hlength := (List.getElem?_eq_some_iff.mp hentry).1
  have hholds := hsound.invariant.leaderHolds hleader.leads rfl
  refine ⟨by rw [← hholds]; omega, hpos, ?_, ?_⟩
  · rw [History.start, ← hholds, last_stamp_take hentry]
    exact hstamp
  · refine ⟨_, quorum_of_replication hcore.fixed hcore.joint hquorum, ?_⟩
    intro v hv
    obtain ⟨hvoter, hreplicated⟩ := Finset.mem_filter.mp hv
    rcases eq_or_ne v n with rfl | hne
    · rw [hleader.acked]
      omega
    · have hpeer := hcore.fixed.mem_peers_iff.mpr ⟨hvoter, hne⟩
      rw [replicated, hcore.fixed.nodeId, if_neg hne] at hreplicated
      cases hmatched : node.matchIndex v with
      | none => simp [hmatched] at hreplicated
      | some matched =>
        have hle : k + 1 ≤ matched := by simpa [hmatched] using hreplicated
        exact hle.trans (hleader.matched v hpeer matched hmatched)

theorem NodeCore.with_commit (hcore : NodeCore voters config H n node) {commit : Nat}
    (hcommit : Settled (majorityRules voters) H (H.term n) commit (H.log n)) (cursor : Nat) :
    NodeCore voters config H n
      { node with commitIndex := commit, configurationAppliedIndex := cursor } :=
  { hcore with
    commit := hcommit }

theorem NodeCore.apply_committed (hcore : NodeCore voters config H n node)
    (hsound : Sound voters H) (commit : Nat) :
    ∃ cursor, RaftNode.applyCommittedConfiguration { node with commitIndex := commit } =
      .ok () { node with commitIndex := commit, configurationAppliedIndex := cursor } := by
  rw [applyCommittedConfiguration, get_bind]
  exact apply_committed_loop_plain _ _ fun index entry _ =>
    hcore.no_conf_change hsound index entry

/-- Committing keeps the facts about a node and its role. -/
theorem NodeFacts.returns_advance (hfacts : NodeFacts voters config H n node)
    (hsound : Sound voters H) :
    Returns RaftNode.saved RaftNode.advanceCommitIndex node
      (fun _ final => NodeFacts voters config H n final ∧ final.role = node.role)
      (Left voters config H n) := by
  have hcore := hfacts.core
  rw [advanceCommitIndex]
  refine .get_bind ?_
  by_cases hrole : node.role = .leader
  · rw [if_neg (by simp [hrole])]
    by_cases hsame : node.committableIndex (node.log.lastIndex - node.commitIndex) =
        node.commitIndex
    · rw [if_neg (by simp [hsame])]
      exact .pure ⟨hfacts, rfl⟩
    · rw [if_pos hsame]
      obtain ⟨hlt, hterm, hquorum⟩ := (node.committable_index_spec _).resolve_left hsame
      have hchosen := (hcore.leader hrole).chosen hcore hsound (by omega) hterm hquorum
      -- The leader's log is the origin of its own term, so the chosen index is settled in it.
      have hsettled : Settled (majorityRules voters) H (H.term n)
          (node.committableIndex (node.log.lastIndex - node.commitIndex)) (H.log n) := by
        refine .inr ⟨H.term n, le_rfl, _, hchosen, le_rfl, ?_⟩
        rw [hsound.invariant.leaderHolds (hcore.leader hrole).leads rfl]
        rfl
      obtain ⟨cursor, hcursor⟩ := hcore.apply_committed hsound
        (node.committableIndex (node.log.lastIndex - node.commitIndex))
      have hnew := hcore.with_commit hsettled cursor
      refine .set_bind rfl ?_
      refine .bind_ok hcursor rfl ?_
      refine hnew.returns_persist.mono ?_ fun _ h => h
      rintro _ _ rfl
      exact ⟨hnew.facts_stored, rfl⟩
  · rw [if_pos hrole]
    exact .pure ⟨hfacts, rfl⟩

end DistributedKV
