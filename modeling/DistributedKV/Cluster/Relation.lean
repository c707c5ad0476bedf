import DistributedKV.Cluster.FixedMembership
import DistributedKV.Raft.RaftLogFacts

/-!
# Nodes and packets related to a history

What the state of a node, the states it has saved and the packets on the network say about a
history of terms, votes and leader logs. The facts about one node and about packets survive the
steps of the other nodes (`NodeCore.frame`, `PacketFacts.steps`), so that the simulation of an
operation only has to look at the node that performs it.
-/

namespace DistributedKV

open TermLog

/-- Histories of Raft nodes and log entries. -/
abbrev RaftHistory := History NodeId LogEntry

variable {voters : Finset NodeId} {config : NodeConfig} {H K : RaftHistory} {n m : NodeId}
  {node : RaftNode}

/-- A candidate still has the log it stood with, and its votes were cast for it. -/
structure CandidateFacts (voters : Finset NodeId) (H : RaftHistory) (n : NodeId)
    (votes : Finset NodeId) : Prop where
  stood : H.stood (H.term n) n = some (H.log n)
  waiting : H.leader (H.term n) ≠ some n
  voters : votes ⊆ voters
  voted : ∀ v ∈ votes, H.vote v (H.term n) = some n

/-- A leader leads its term with at least one entry of its own. Its cursors are safe, and what
it takes to be matched has been acknowledged. -/
structure LeaderFacts (H : RaftHistory) (n : NodeId) (peers : List NodeId)
    (nextIndex matchIndex : NodeId → Option Nat) : Prop where
  leads : H.leader (H.term n) = some n
  acked : H.acked (H.term n) n = (H.log n).length
  opened : ∀ log, H.stood (H.term n) n = some log → log.length < (H.log n).length
  cursor : ∀ v ∈ peers, ∀ next, nextIndex v = some next →
    1 ≤ next ∧ next ≤ (H.log n).length + 1 ∧ CursorSafe H (H.term n) v (next - 1)
  matched : ∀ v ∈ peers, ∀ index, matchIndex v = some index → index ≤ H.acked (H.term n) v

/-- The state of a node, up to what it has saved. -/
structure NodeCore (voters : Finset NodeId) (config : NodeConfig) (H : RaftHistory)
    (n : NodeId) (node : RaftNode) : Prop where
  effective : node.config = config.effective
  fixed : FixedConfig voters n node.config
  reliable : ∃ saved, node.persistence = some { RaftPersistence.reliable with saved }
  cluster : node.clusterConfig = config.bootstrapCluster
  joint : node.jointConfig = none
  pending : node.pendingConfChangeIndex = none
  active : node.activeMembershipOperation = none
  uncompacted : node.log.Uncompacted
  term : node.currentTerm = H.term n
  log : node.log.suffix = H.log n
  vote : node.votedFor = H.vote n (H.term n)
  commit : Settled (majorityRules voters) H (H.term n) node.commitIndex (H.log n)
  candidate : node.role = .candidate → CandidateFacts voters H n node.votesReceived
  leader : node.role = .leader →
    LeaderFacts H n node.config.peers node.nextIndex node.matchIndex

/-- A saved state has the node's term, vote and log and a commit index that is settled. -/
structure DurableFacts (voters : Finset NodeId) (config : NodeConfig) (H : RaftHistory)
    (n : NodeId) (image : RaftPersistentState) : Prop where
  term : image.currentTerm = H.term n
  vote : image.votedFor = H.vote n (H.term n)
  entries : image.entries = RaftLog.empty.boundary :: H.log n
  commit : Settled (majorityRules voters) H (H.term n) image.commitIndex (H.log n)
  cluster : image.clusterConfig = config.bootstrapCluster
  joint : image.jointConfig = none
  active : image.activeMembershipOperation = none

/-- The latest of the saved states is current; without one, the node has not moved. -/
def DurableHead (voters : Finset NodeId) (config : NodeConfig) (H : RaftHistory) (n : NodeId) :
    List RaftPersistentState → Prop
  | [] => H.term n = 0 ∧ H.log n = []
  | image :: _ => DurableFacts voters config H n image

/-- The state of a node between operations. -/
structure NodeFacts (voters : Finset NodeId) (config : NodeConfig) (H : RaftHistory)
    (n : NodeId) (node : RaftNode) : Prop where
  core : NodeCore voters config H n node
  durable : DurableHead voters config H n node.saved

/-! ## Packets -/

/-- A replication request repeats a part of the log of its term's leader, from a safe cursor. An
empty one starts behind the leader's first own entry. -/
structure AppendFacts (voters : Finset NodeId) (H : RaftHistory) (source destination : NodeId)
    (request : AppendEntriesRequest) : Prop where
  leads : H.leader request.term = some source
  leaderId : request.leaderId = source
  other : destination ≠ source
  previous : request.previousLogIndex ≤ (H.leaderLog request.term).length
  previousTerm : request.previousLogTerm =
    lastStamp LogEntry.term (H.start request.term request.previousLogIndex)
  entries : request.entries <+: (H.leaderLog request.term).drop request.previousLogIndex
  commit : Settled (majorityRules voters) H request.term request.leaderCommit
    (H.leaderLog request.term)
  cursor : CursorSafe H request.term destination request.previousLogIndex
  opened : request.entries = [] → ∀ log, H.stood request.term source = some log →
    log.length < request.previousLogIndex

/-- The hint of a rejection leads to a safe cursor as long as the follower has acknowledged
nothing in the term. -/
structure RejectFacts (H : RaftHistory) (t : Nat) (v : NodeId) (conflictIndex : Nat)
    (conflictTerm : Option Nat) : Prop where
  reached : t ≤ H.term v
  length : conflictTerm = none → H.term v = t → H.acked t v = 0 →
    (H.log v).length < conflictIndex
  hint : ∀ term, conflictTerm = some term → 0 < term ∧ term < t ∧
    ∃ c log, H.leader t = some c ∧ H.stood t c = some log ∧ CursorSafe H t v
      (((log.reverse.find? (·.term == term)).map (·.index)).getD (conflictIndex - 1))

/-- What a packet on the network says. -/
def PacketFacts (voters : Finset NodeId) (H : RaftHistory) (packet : Packet) : Prop :=
  match packet.payload with
  | .requestVote request =>
    request.candidateId = packet.source ∧ ∃ log, H.stood request.term packet.source = some log ∧
      request.lastLogIndex = log.length ∧ request.lastLogTerm = lastStamp LogEntry.term log
  | .requestVoteResponse response =>
    response.voteGranted = true →
      H.vote packet.source response.electionTerm = some packet.destination
  | .appendEntries request => AppendFacts voters H packet.source packet.destination request
  | .appendEntriesResponse response =>
    (response.success = true → response.matchIndex ≤ H.acked response.term packet.source) ∧
      (response.success = false → RejectFacts H response.term packet.source
        response.conflictIndex response.conflictTerm)
  | .installSnapshot _ | .installSnapshotResponse _ => True

/-! ## Steps of other nodes -/

section Steps

variable {R : Rules NodeId LogEntry} (hsteps : Steps R n H K) (hinv : Invariant R.stamp H)
include hsteps hinv

theorem CandidateFacts.frame {votes : Finset NodeId}
    (hfacts : CandidateFacts voters H m votes) (hm : m ≠ n) : CandidateFacts voters K m votes := by
  obtain ⟨-, hgrows, hframe⟩ := hsteps.spec hinv
  refine ⟨?_, ?_, hfacts.voters, ?_⟩
  · rw [hframe.term m hm, hframe.log m hm]
    exact hgrows.stood _ _ _ hfacts.stood
  · rw [hframe.term m hm]
    exact fun h => hfacts.waiting (hframe.leader _ m hm h)
  · rw [hframe.term m hm]
    exact fun v hv => hgrows.vote _ _ _ (hfacts.voted v hv)

/-- The facts about a leader survive the steps of other nodes. -/
theorem LeaderFacts.frame {peers : List NodeId} {nextIndex matchIndex : NodeId → Option Nat}
    (hfacts : LeaderFacts H m peers nextIndex matchIndex) (hm : m ≠ n) :
    LeaderFacts K m peers nextIndex matchIndex := by
  obtain ⟨-, hgrows, hframe⟩ := hsteps.spec hinv
  have hled : H.Led (H.term m) := by simp [History.Led, hfacts.leads]
  constructor
  · rw [hframe.term m hm]
    exact hgrows.leader _ _ hfacts.leads
  · rw [hframe.term m hm, hframe.log m hm, hframe.acked _ m hm, hfacts.acked]
  · rw [hframe.term m hm, hframe.log m hm, hframe.stood _ m hm]
    exact hfacts.opened
  · intro v hv next hnext
    obtain ⟨hpos, hle, hsafe⟩ := hfacts.cursor v hv next hnext
    rw [hframe.term m hm, hframe.log m hm]
    exact ⟨hpos, hle, hsafe.steps hinv hled hsteps⟩
  · intro v hv index hindex
    rw [hframe.term m hm]
    exact (hfacts.matched v hv index hindex).trans (hgrows.acked _ v)

end Steps

section MajoritySteps

variable (hsteps : Steps (majorityRules voters) n H K)
  (hinv : Invariant (majorityRules voters).stamp H)
include hsteps hinv

theorem NodeCore.frame (hcore : NodeCore voters config H m node) (hm : m ≠ n) :
    NodeCore voters config K m node := by
  obtain ⟨-, hgrows, hframe⟩ := hsteps.spec hinv
  exact
    { hcore with
      term := by rw [hcore.term, hframe.term m hm]
      log := by rw [hcore.log, hframe.log m hm]
      vote := by rw [hcore.vote, hframe.vote m hm, hframe.term m hm]
      commit := by
        rw [hframe.term m hm, hframe.log m hm]
        exact hcore.commit.grows hgrows le_rfl
      candidate := fun hrole => (hcore.candidate hrole).frame hsteps hinv hm
      leader := fun hrole => (hcore.leader hrole).frame hsteps hinv hm }

/-- What is saved stays current under the steps of other nodes. -/
theorem DurableHead.frame {saved : List RaftPersistentState}
    (hhead : DurableHead voters config H m saved) (hm : m ≠ n) :
    DurableHead voters config K m saved := by
  obtain ⟨-, hgrows, hframe⟩ := hsteps.spec hinv
  cases saved with
  | nil =>
    obtain ⟨hterm, hlog⟩ := hhead
    exact ⟨(hframe.term m hm).trans hterm, (hframe.log m hm).trans hlog⟩
  | cons image rest =>
    have hfacts : DurableFacts voters config H m image := hhead
    exact
      { hfacts with
        term := by rw [hfacts.term, hframe.term m hm]
        vote := by rw [hfacts.vote, hframe.vote m hm, hframe.term m hm]
        entries := by rw [hfacts.entries, hframe.log m hm]
        commit := by
          rw [hframe.term m hm, hframe.log m hm]
          exact hfacts.commit.grows hgrows le_rfl }

theorem NodeFacts.frame (hfacts : NodeFacts voters config H m node) (hm : m ≠ n) :
    NodeFacts voters config K m node :=
  ⟨hfacts.core.frame hsteps hinv hm, hfacts.durable.frame hsteps hinv hm⟩

/-- A replication request stays what it says. -/
theorem AppendFacts.steps {source destination : NodeId} {request : AppendEntriesRequest}
    (hfacts : AppendFacts voters H source destination request) :
    AppendFacts voters K source destination request := by
  obtain ⟨hafter, hgrows, -⟩ := hsteps.spec hinv
  have hled : H.Led request.term := by simp [History.Led, hfacts.leads]
  obtain ⟨rest, hrest⟩ := hgrows.leaderLog request.term
  exact
    { hfacts with
      leads := hgrows.leader _ _ hfacts.leads
      previous := hfacts.previous.trans (hgrows.leaderLog _).length_le
      previousTerm := by rw [hgrows.start_eq hfacts.previous, hfacts.previousTerm]
      entries := by
        rw [← hrest, List.drop_append_of_le_length hfacts.previous]
        exact hfacts.entries.trans (List.prefix_append _ _)
      commit := by
        refine (hfacts.commit.grows hgrows le_rfl).congr ?_
        rw [← hrest, List.take_append_of_le_length hfacts.commit.le_length]
      cursor := hfacts.cursor.steps hinv hled hsteps
      opened := by
        intro hempty log hstood
        obtain ⟨log', hold, -⟩ := hinv.leaderStood hfacts.leads
        have heq : log' = log :=
          Option.some.inj ((hgrows.stood _ _ _ hold).symm.trans hstood)
        exact heq ▸ hfacts.opened hempty log' hold }

theorem RejectFacts.steps {t conflictIndex : Nat} {v : NodeId} {conflictTerm : Option Nat}
    (hfacts : RejectFacts H t v conflictIndex conflictTerm) :
    RejectFacts K t v conflictIndex conflictTerm := by
  obtain ⟨-, hgrows, -⟩ := hsteps.spec hinv
  refine ⟨hfacts.reached.trans (hgrows.term v), ?_, ?_⟩
  · intro hnone hterm hacked
    obtain ⟨hbefore, hzero, hlog⟩ := hsteps.frozen hfacts.reached hinv hterm hacked
    exact hlog ▸ hfacts.length hnone hbefore hzero
  · intro term hsome
    obtain ⟨hpos, hlt, c, log, hleader, hstood, hsafe⟩ := hfacts.hint term hsome
    have hled : H.Led t := by simp [History.Led, hleader]
    exact ⟨hpos, hlt, c, log, hgrows.leader _ _ hleader, hgrows.stood _ _ _ hstood,
      hsafe.steps hinv hled hsteps⟩

/-- The facts about a packet survive the steps of every node. -/
theorem PacketFacts.steps {packet : Packet} (hfacts : PacketFacts voters H packet) :
    PacketFacts voters K packet := by
  obtain ⟨-, hgrows, -⟩ := hsteps.spec hinv
  obtain ⟨source, destination, payload⟩ := packet
  cases payload with
  | requestVote request =>
    obtain ⟨hcandidate, log, hstood, hindex, hterm⟩ := hfacts
    exact ⟨hcandidate, log, hgrows.stood _ _ _ hstood, hindex, hterm⟩
  | requestVoteResponse response => exact fun hgranted => hgrows.vote _ _ _ (hfacts hgranted)
  | appendEntries request => exact AppendFacts.steps hsteps hinv hfacts
  | appendEntriesResponse response =>
    exact ⟨fun hsuccess => (hfacts.1 hsuccess).trans (hgrows.acked _ _),
      fun hfailure => (hfacts.2 hfailure).steps hsteps hinv⟩
  | installSnapshot request => trivial
  | installSnapshotResponse response => trivial

end MajoritySteps

end DistributedKV
