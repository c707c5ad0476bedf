import DistributedKV.Cluster.Commit

/-!
# Leadership

What a leader sends is a part of its log from a safe cursor, what it appends extends the log of
its term, and a candidate with a quorum of votes becomes the only leader of its term.
-/

namespace DistributedKV

open TermLog Barrier List RaftNode

variable {voters : Finset NodeId} {config : NodeConfig} {H K : RaftHistory} {n : NodeId}
  {node : RaftNode}

/-! ## Replication requests -/

section Requests

variable (hleader : LeaderFacts H n node.config.peers node.nextIndex node.matchIndex)
  (hcore : NodeCore voters config H n node) (hsound : Sound voters H)
include hleader hcore hsound

/-- The cursor a leader uses for a peer is inside its log and safe. -/
theorem LeaderFacts.next_safe {v : NodeId} (hv : v ∈ node.config.peers) :
    ∃ previous, (node.nextIndex v).getD (node.log.lastIndex + 1) = previous + 1 ∧
      previous ≤ (H.log n).length ∧ CursorSafe H (H.term n) v previous := by
  have hholds := hsound.invariant.leaderHolds hleader.leads rfl
  cases hnext : node.nextIndex v with
  | none =>
    refine ⟨(H.log n).length, ?_, le_rfl, ?_, ?_⟩
    · rw [Option.getD_none, hcore.uncompacted.last_index, hcore.log]
    · intro _ _ common _ hcommon
      rw [hholds]
      exact hcommon.length_le
    · intro _ c log hc hstood
      have hcn : n = c := Option.some.inj (hleader.leads.symm.trans hc)
      subst hcn
      exact (hleader.opened log hstood).le
  | some next =>
    obtain ⟨hpos, hle, hsafe⟩ := hleader.cursor v hv next hnext
    exact ⟨next - 1, by rw [Option.getD_some]; omega, by omega, hsafe⟩

/-- A leader's request is a part of its log from a safe cursor. -/
theorem LeaderFacts.append_facts {v : NodeId} (hv : v ∈ node.config.peers) :
    PacketFacts voters H
      { source := n
        destination := (node.makeAppendEntries v).destination
        payload := (node.makeAppendEntries v).payload } := by
  have hholds := hsound.invariant.leaderHolds hleader.leads rfl
  obtain ⟨previous, hnext, hle, hsafe⟩ := hleader.next_safe hcore hsound hv
  simp only [makeAppendEntries, hnext, Nat.add_sub_cancel, PacketFacts]
  rw [RaftLog.entries_from_of_start hcore.uncompacted.first_index,
    hcore.uncompacted.term_at_eq (by rw [hcore.log]; exact hle), hcore.log, hcore.term]
  exact
    { leads := hleader.leads
      leaderId := hcore.fixed.nodeId
      other := (hcore.fixed.mem_peers_iff.mp hv).2
      previous := by rw [← hholds]; exact hle
      previousTerm := by rw [History.start, ← hholds]; rfl
      entries := by
        rw [← hholds]
        exact take_prefix _ _
      commit := by
        rw [← hholds]
        exact hcore.commit
      cursor := hsafe
      opened := by
        intro hempty log hstood
        have hlength := congrArg length hempty
        rw [length_take, length_drop, length_nil] at hlength
        have hbatch := hcore.fixed.batch
        have hlt := hleader.opened log hstood
        simp only
        omega }

theorem LeaderFacts.replicate_facts :
    ∀ rpc ∈ node.replicateToAll, PacketFacts voters H
      { source := n, destination := rpc.destination, payload := rpc.payload } := by
  intro rpc hrpc
  rw [replicateToAll, hcore.fixed.learners, append_nil] at hrpc
  obtain ⟨v, hv, rfl⟩ := mem_map.mp hrpc
  exact hleader.append_facts hcore hsound hv

end Requests

/-! ## Appending -/

/-- The entry a node appends to its log. -/
def RaftNode.nextEntry (node : RaftNode) (type : EntryType) (command : Bytes) : LogEntry where
  index := node.log.lastIndex + 1
  term := node.currentTerm
  type := type
  command := command

theorem NodeCore.next_entry_valid (hcore : NodeCore voters config H n node) {type : EntryType}
    (htype : type ≠ .confChange) (command : Bytes) :
    (majorityRules voters).valid (H.log n).length (node.nextEntry type command) := by
  refine ⟨?_, htype⟩
  show node.log.lastIndex + 1 = _
  rw [hcore.uncompacted.last_index, hcore.log]

theorem NodeCore.append_step (hcore : NodeCore voters config H n node)
    (hleads : H.leader (H.term n) = some n) {type : EntryType} (htype : type ≠ .confChange)
    (command : Bytes) :
    Step (majorityRules voters) n H (H.append n (H.term n) (node.nextEntry type command)) :=
  .append _ hleads hcore.term (hcore.next_entry_valid htype command)

theorem settled_append {R : Rules NodeId LogEntry} {bound larger commit : Nat}
    {log extension : List LogEntry} (hsettled : Settled R H bound commit log)
    (hgrows : Grows H K) (hbound : bound ≤ larger) :
    Settled R K larger commit (log ++ extension) := by
  refine (hsettled.grows hgrows hbound).congr ?_
  rw [take_append_of_le_length hsettled.le_length]

/-- A leader that appends an entry stays related. -/
theorem NodeCore.append (hcore : NodeCore voters config H n node) (hsound : Sound voters H)
    (hrole : node.role = .leader) {type : EntryType} (htype : type ≠ .confChange)
    (command : Bytes) :
    NodeCore voters config (H.append n (H.term n) (node.nextEntry type command)) n
      { node with log := node.log.append node.currentTerm type command } := by
  have hleader := hcore.leader hrole
  have hstep := hcore.append_step hleader.leads htype command
  have hgrows := hstep.grows hsound.invariant
  have hled : H.Led (H.term n) := by simp [History.Led, hleader.leads]
  have hlog : (H.append n (H.term n) (node.nextEntry type command)).log n =
      H.log n ++ [node.nextEntry type command] := by simp [History.append]
  exact
    { hcore with
      log := by
        rw [hlog, ← hcore.log]
        rfl
      commit := by
        rw [hlog]
        exact settled_append hcore.commit hgrows le_rfl
      candidate := fun hcandidate => by simp [hrole] at hcandidate
      leader := fun _ =>
        { leads := hleader.leads
          acked := by simp [History.append, updatePair]
          opened := by
            intro log hstood
            rw [hlog, length_append]
            exact Nat.lt_add_right _ (hleader.opened log hstood)
          cursor := by
            intro v hv next hnext
            obtain ⟨hpos, hle, hsafe⟩ := hleader.cursor v hv next hnext
            rw [hlog, length_append]
            exact ⟨hpos, by omega, hsafe.step hsound.invariant hled hstep⟩
          matched := fun v hv index hindex =>
            (hleader.matched v hv index hindex).trans (hgrows.acked _ v) } }

/-! ## Taking over -/

theorem CandidateFacts.unled (hcandidate : CandidateFacts voters H n node.votesReceived)
    (hsound : Sound voters H) (hquorum : (majorityRules voters).quorum node.votesReceived) :
    H.leader (H.term n) = none := by
  by_contra hled
  obtain ⟨d, hd⟩ := Option.ne_none_iff_exists'.mp hled
  obtain ⟨v, hvote, helector⟩ :=
    majorities_meet voters _ _ hquorum (hsound.elected (H.term n) d hd)
  have hfor := hcandidate.voted v hvote
  have hagainst := hsound.invariant.electorsVoted hd v helector
  have hdn : n = d := Option.some.inj (hfor.symm.trans hagainst)
  exact hcandidate.waiting (hdn ▸ hd)

/-- The history in which node `n` has been elected and has opened its term with an entry. -/
def History.takeover (H : RaftHistory) (n : NodeId) (electors : Finset NodeId)
    (entry : LogEntry) : RaftHistory :=
  (H.elect n (H.term n) electors).append n (H.term n) entry

section TakingOver

variable (hcore : NodeCore voters config H n node) (hsound : Sound voters H)
include hcore hsound

theorem NodeCore.takeover_steps (hcandidate : CandidateFacts voters H n node.votesReceived)
    (hquorum : (majorityRules voters).quorum node.votesReceived) :
    Steps (majorityRules voters) n H
      (History.takeover H n node.votesReceived (node.nextEntry .noOp [])) := by
  have helect : Step (majorityRules voters) n H
      (H.elect n (H.term n) node.votesReceived) :=
    .elect _ (hcandidate.unled hsound hquorum) hcandidate.stood hcandidate.voted hquorum
  refine (Steps.single helect).trans (Steps.single ?_)
  exact .append _ (by simp [History.elect]) hcore.term
    (hcore.next_entry_valid (by decide) [])

/-- A candidate with a quorum is related as the leader it turns into. -/
theorem NodeCore.takeover (hcandidate : CandidateFacts voters H n node.votesReceived)
    (hquorum : (majorityRules voters).quorum node.votesReceived) :
    NodeCore voters config
      (History.takeover H n node.votesReceived (node.nextEntry .noOp [])) n node.takeover := by
  have hsteps := hcore.takeover_steps hsound hcandidate hquorum
  obtain ⟨hafter, hgrows, -⟩ := hsteps.spec hsound.invariant
  have hlog : (History.takeover H n node.votesReceived (node.nextEntry .noOp [])).log n =
      H.log n ++ [node.nextEntry .noOp []] := by
    simp [History.takeover, History.append, History.elect]
  have hleads : (History.takeover H n node.votesReceived (node.nextEntry .noOp [])).leader
      (H.term n) = some n := by
    simp [History.takeover, History.append, History.elect]
  have hstood := hgrows.stood _ _ _ hcandidate.stood
  exact
    { hcore with
      log := by
        rw [hlog, ← hcore.log]
        rfl
      commit := by
        rw [hlog]
        exact settled_append hcore.commit hgrows le_rfl
      candidate := fun hrole => by simp [RaftNode.takeover] at hrole
      leader := fun _ =>
        { leads := hleads
          acked := by simp [History.takeover, History.append, History.elect, updatePair]
          opened := by
            intro log hother
            have heq : H.log n = log := Option.some.inj (hstood.symm.trans hother)
            rw [hlog, ← heq, length_append]
            exact Nat.lt_add_one _
          cursor := by
            intro v hv next hnext
            have hpeer : v ∈ node.config.peers ++ node.config.learners :=
              mem_append_left _ hv
            have hnext' : node.log.lastIndex + 1 = next := by
              simpa [RaftNode.takeover, RaftNode.initialCursors, hpeer] using hnext
            rw [hcore.uncompacted.last_index, hcore.log] at hnext'
            rw [hlog, length_append, ← hnext']
            exact ⟨by omega, by omega, CursorSafe.of_stood hafter hleads hstood⟩
          matched := by
            intro v hv index hindex
            have hpeer : v ∈ node.config.peers ++ node.config.learners :=
              mem_append_left _ hv
            have hzero : 0 = index := by
              simpa [RaftNode.takeover, RaftNode.initialCursors, hpeer] using hindex
            rw [← hzero]
            exact Nat.zero_le _ } }

/-- A leader that saves, commits and replicates is simulated. -/
theorem NodeCore.returns_publish {α : Type} (hrole : node.role = .leader) (answer : RaftNode → α) :
    Returns RaftNode.saved
      (do
        RaftNode.persistOrThrow
        RaftNode.advanceCommitIndex
        let leader ← get
        pure (answer leader)) node
      (fun result final => result = answer final ∧
        Outcome voters config H n final.replicateToAll final) (Left voters config H n) := by
  refine .bind hcore.returns_persist ?_
  rintro _ _ rfl
  refine .bind (hcore.facts_stored.returns_advance hsound) ?_
  rintro _ final ⟨hfacts, hsame⟩
  have hleader := hfacts.core.leader (hsame.trans hrole)
  exact .get_bind (.pure
    ⟨rfl, H, Steps.refl H, hfacts, hleader.replicate_facts hfacts.core hsound⟩)

/-- Becoming leader is simulated. -/
theorem NodeCore.returns_become_leader (hcandidate : CandidateFacts voters H n node.votesReceived)
    (hquorum : (majorityRules voters).quorum node.votesReceived) :
    Returns RaftNode.saved RaftNode.becomeLeader node
      (Outcome voters config H n) (Left voters config H n) := by
  have hsteps := hcore.takeover_steps hsound hcandidate hquorum
  have hnew := hcore.takeover hsound hcandidate hquorum
  have hrecover : recoverJointExitEntry node.takeover = .ok () node.takeover := by
    rw [recoverJointExitEntry, get_bind, hnew.joint]
    rfl
  rw [becomeLeader]
  refine .modify_bind rfl (.bind_ok hrecover rfl ?_)
  refine (hnew.returns_publish (hsound.steps hsteps) rfl replicateToAll).mono ?_
    fun _ h => h.after hsteps
  rintro _ final ⟨rfl, houtcome⟩
  exact houtcome.after hsteps

end TakingOver

/-- A client command is simulated. -/
theorem NodeFacts.returns_propose (hfacts : NodeFacts voters config H n node)
    (hsound : Sound voters H) (command : Bytes) :
    Returns RaftNode.saved (RaftNode.perform (.propose command)) node
      (Outcome voters config H n) (Left voters config H n) := by
  have hcore := hfacts.core
  have hpropose : Returns saved (propose command) node
      (fun result final => Outcome voters config H n result.outbound final)
      (Left voters config H n) := by
    rw [propose]
    refine .get_bind ?_
    by_cases hrole : node.role = .leader
    · rw [if_neg (by simp [hrole])]
      have htype : EntryType.command ≠ .confChange := by decide
      have hsteps := Steps.single (hcore.append_step (hcore.leader hrole).leads htype command)
      have hnew := hcore.append hsound hrole htype command
      refine .set_bind rfl ?_
      refine (hnew.returns_publish (hsound.steps hsteps) hrole _).mono ?_ fun _ h => h.after hsteps
      rintro _ final ⟨rfl, houtcome⟩
      exact houtcome.after hsteps
    · rw [if_pos hrole]
      exact .pure hfacts.outcome
  exact .bind hpropose fun _ _ h => .pure h

end DistributedKV
