import DistributedKV.Cluster.Leadership

/-!
# Elections are simulated

The timer, the two sides of a vote and the messages of newer terms, each as steps of the history:
a node that learns of a newer term moves to it, a candidate stands with its log, and a vote is
cast once in a term, for a candidate whose log is at least as up to date.
-/

namespace DistributedKV

open TermLog Barrier RaftNode

variable {voters : Finset NodeId} {config : NodeConfig} {H K : RaftHistory} {n : NodeId}
  {node : RaftNode}

/-! ## Newer terms -/

theorem NodeCore.step_down (hcore : NodeCore voters config H n node) {t : Nat}
    (hterm : t ≤ H.term n) (leader : Option NodeId) :
    NodeCore voters config H n (node.becomeFollower t leader) := by
  have hnew : ¬ node.currentTerm < t := by rw [hcore.term]; omega
  rw [becomeFollower, if_neg hnew]
  exact
    { hcore with
      candidate := fun hrole => by simp [resetElectionTimer] at hrole
      leader := fun hrole => by simp [resetElectionTimer] at hrole }

/-- A node that moves to a newer term stays related. -/
theorem NodeCore.raise (hcore : NodeCore voters config H n node) (hsound : Sound voters H)
    {t : Nat} (hterm : H.term n < t) (leader : Option NodeId) :
    NodeCore voters config (H.raise n t) n (node.becomeFollower t leader) := by
  have hstep : Step (majorityRules voters) n H (H.raise n t) := .raise t hterm
  have hat : (H.raise n t).term n = t := by simp [History.raise]
  have hnew : node.currentTerm < t := by rw [hcore.term]; exact hterm
  rw [becomeFollower, if_pos hnew]
  exact
    { hcore with
      term := hat.symm
      vote := by
        rw [hat]
        exact (hsound.invariant.vote_of_term_lt hterm).symm
      commit := by
        rw [hat]
        exact hcore.commit.grows (hstep.grows hsound.invariant) hterm.le
      candidate := fun hrole => by simp [resetElectionTimer] at hrole
      leader := fun hrole => by simp [resetElectionTimer] at hrole }

/-- Learning of a newer term and saving it is simulated. -/
theorem NodeFacts.returns_newer_term (hfacts : NodeFacts voters config H n node)
    (hsound : Sound voters H) {t : Nat} (hterm : H.term n < t) :
    Returns RaftNode.saved
      (do
        set (node.becomeFollower t none)
        RaftNode.persistOrThrow
        pure []) node
      (Outcome voters config H n) (Left voters config H n) := by
  have hsteps : Steps (majorityRules voters) n H (H.raise n t) := Steps.single (.raise t hterm)
  have hnew := hfacts.core.raise hsound hterm none
  have hjournal : (node.becomeFollower t none).saved = node.saved := by
    have hlt : node.currentTerm < t := by rw [hfacts.core.term]; exact hterm
    rw [becomeFollower, if_pos hlt]
    rfl
  refine .set_bind hjournal ?_
  refine .bind (hnew.returns_persist.mono (fun _ _ h => h) fun _ h => h.after hsteps) ?_
  rintro _ _ rfl
  exact .pure (hnew.facts_stored.outcome.after hsteps)

/-! ## Standing -/

/-- A node that starts an election stands in the next term. -/
theorem NodeCore.candidacy (hcore : NodeCore voters config H n node) (hsound : Sound voters H) :
    NodeCore voters config (H.stand n (H.term n + 1)) n node.candidacy := by
  have hstep : Step (majorityRules voters) n H (H.stand n (H.term n + 1)) :=
    .stand _ (Nat.lt_succ_self _)
  have hat : (H.stand n (H.term n + 1)).term n = H.term n + 1 := by
    simp [History.stand, History.castVote, History.enrol, History.raise]
  have hvote : (H.stand n (H.term n + 1)).vote n (H.term n + 1) = some n := by
    simp [History.stand, History.castVote, updatePair]
  exact
    { hcore with
      term := by
        rw [hat, ← hcore.term]
        rfl
      vote := by
        rw [hat, hvote, ← hcore.fixed.nodeId]
        rfl
      commit := by
        rw [hat]
        exact hcore.commit.grows (hstep.grows hsound.invariant) (Nat.le_succ _)
      candidate := fun _ =>
        { stood := by
            rw [hat]
            simp [History.stand, History.castVote, History.enrol, History.raise, updatePair]
          waiting := by
            rw [hat]
            intro hleader
            have hle := (hsound.invariant.leader_term hleader).2
            omega
          voters := by
            intro v hv
            have hvn : v = n := by
              simpa [RaftNode.candidacy, RaftNode.resetElectionTimer, hcore.fixed.nodeId] using hv
            rw [hvn]
            exact hcore.fixed.self_mem
          voted := by
            intro v hv
            have hvn : v = n := by
              simpa [RaftNode.candidacy, RaftNode.resetElectionTimer, hcore.fixed.nodeId] using hv
            rw [hvn, hat, hvote] }
      leader := fun hrole => by simp [RaftNode.candidacy, RaftNode.resetElectionTimer] at hrole }

theorem CandidateFacts.request_facts (hcandidate : CandidateFacts voters H n node.votesReceived)
    (hcore : NodeCore voters config H n node) :
    ∀ rpc ∈ node.voteRequests, PacketFacts voters H
      { source := n, destination := rpc.destination, payload := rpc.payload } := by
  intro rpc hrpc
  obtain ⟨peer, -, rfl⟩ := List.mem_map.mp hrpc
  refine ⟨hcore.fixed.nodeId, H.log n, ?_, ?_, ?_⟩
  · simp only [hcore.term]
    exact hcandidate.stood
  · simp only [hcore.uncompacted.last_index, hcore.log]
  · simp only [hcore.uncompacted.last_term, hcore.log]

/-- Starting an election is simulated. -/
theorem NodeFacts.returns_start_election (hfacts : NodeFacts voters config H n node)
    (hsound : Sound voters H) :
    Returns RaftNode.saved RaftNode.startElection node
      (Outcome voters config H n) (Left voters config H n) := by
  have hsteps : Steps (majorityRules voters) n H (H.stand n (H.term n + 1)) :=
    Steps.single (.stand _ (Nat.lt_succ_self _))
  have hnew := hfacts.core.candidacy hsound
  have hsound' := hsound.steps hsteps
  rw [startElection]
  refine .get_bind ?_
  split_ifs with hblocked
  · exact .pure hfacts.outcome
  · refine .set_bind rfl ?_
    refine .bind (hnew.returns_persist.mono (fun _ _ h => h) fun _ h => h.after hsteps) ?_
    rintro _ _ rfl
    have hstored := hnew.facts_stored
    have hcandidate := hstored.core.candidate rfl
    refine .get_bind ?_
    split_ifs with hquorum
    · have hmajority := quorum_of_election hstored.core.fixed hstored.core.joint
        hcandidate.voters hquorum
      exact (hstored.core.returns_become_leader hsound' hcandidate hmajority).mono
        (fun _ _ h => h.after hsteps) fun _ h => h.after hsteps
    · exact .pure (Outcome.after
        ⟨_, Steps.refl _, hstored, hcandidate.request_facts hstored.core⟩ hsteps)

/-! ## Voting -/

variable {request : RequestVoteRequest} {log : List LogEntry}

section Voting

variable (hcore : NodeCore voters config H n node)
include hcore

theorem NodeCore.up_to_date (hindex : request.lastLogIndex = log.length)
    (hterm : request.lastLogTerm = lastStamp LogEntry.term log)
    (hgrants : node.grantsVote request = true) : UpToDate LogEntry.term log (H.log n) := by
  have hfresh := (Bool.and_eq_true_iff.mp hgrants).2
  rw [LeaderElection.isCandidateLogUpToDate, hcore.uncompacted.last_term,
    hcore.uncompacted.last_index, hcore.log, hindex, hterm] at hfresh
  simpa [UpToDate] using hfresh

/-- A node that votes stays related. -/
theorem NodeCore.cast_vote (hsound : Sound voters H) {candidate : NodeId}
    (hstep : Step (majorityRules voters) n H (H.castVote n candidate (H.term n))) :
    NodeCore voters config (H.castVote n candidate (H.term n)) n (node.withVote candidate) := by
  have hgrows := hstep.grows hsound.invariant
  exact
    { hcore with
      vote := by simp [withVote, resetElectionTimer, History.castVote, updatePair]
      commit := hcore.commit.grows hgrows le_rfl
      candidate := fun hrole =>
        { (hcore.candidate hrole) with
          voted := fun v hv => hgrows.vote _ _ _ ((hcore.candidate hrole).voted v hv) }
      leader := fun hrole =>
        { (hcore.leader hrole) with
          cursor := fun v hv next hnext => by
            obtain ⟨hpos, hle, hsafe⟩ := (hcore.leader hrole).cursor v hv next hnext
            exact ⟨hpos, hle, hsafe.reached, hsafe.ahead⟩ } }

theorem NodeCore.repeat_vote {candidate : NodeId} (hvoted : node.votedFor = some candidate) :
    NodeCore voters config H n (node.withVote candidate) :=
  { hcore with vote := hvoted.symm.trans hcore.vote }

/-- Granting a vote is a step of the history, or repeats the vote of the term. -/
theorem NodeCore.grant (hsound : Sound voters H)
    (hterm : request.term = H.term n) (hstood : H.stood request.term request.candidateId = some log)
    (hindex : request.lastLogIndex = log.length)
    (hlast : request.lastLogTerm = lastStamp LogEntry.term log)
    (hgrants : node.grantsVote request = true) :
    ∃ K, Steps (majorityRules voters) n H K ∧
      NodeCore voters config K n (node.withVote request.candidateId) ∧
      K.vote n request.term = some request.candidateId ∧
      (node.votedFor = some request.candidateId → K = H) := by
  have hcan := (Bool.and_eq_true_iff.mp hgrants).1
  rw [hterm] at hstood ⊢
  by_cases hvoted : node.votedFor = some request.candidateId
  · exact ⟨H, Steps.refl H, hcore.repeat_vote hvoted, hcore.vote.symm.trans hvoted, fun _ => rfl⟩
  · have hnone : H.vote n (H.term n) = none := by
      rw [← hcore.vote]
      simpa [hvoted] using hcan
    have hstep : Step (majorityRules voters) n H
        (H.castVote n request.candidateId (H.term n)) :=
      .castVote _ log hnone hstood (hcore.up_to_date hindex hlast hgrants)
    exact ⟨_, Steps.single hstep, hcore.cast_vote hsound hstep,
      by simp [History.castVote, updatePair], fun h => absurd h hvoted⟩

/-- The node and the answer a vote request leaves: a granted vote was cast for the candidate. -/
def VoteOutcome (voters : Finset NodeId) (config : NodeConfig) (H : RaftHistory) (n : NodeId)
    (request : RequestVoteRequest) (response : RequestVoteResponse) (final : RaftNode) : Prop :=
  ∃ K, Steps (majorityRules voters) n H K ∧ NodeFacts voters config K n final ∧
    (response.voteGranted = true →
      K.vote n response.electionTerm = some request.candidateId)

theorem NodeCore.returns_persist_if (changed : Bool)
    (hsame : changed = false → DurableHead voters config H n node.saved) :
    Returns RaftNode.saved (RaftNode.persistIf changed) node
      (fun _ final => NodeFacts voters config H n final ∧ final.currentTerm = node.currentTerm)
      (Left voters config H n) := by
  cases changed with
  | false => exact .pure ⟨⟨hcore, hsame rfl⟩, rfl⟩
  | true =>
    refine hcore.returns_persist.mono ?_ fun _ h => h
    rintro _ _ rfl
    exact ⟨hcore.facts_stored, rfl⟩

/-- Answering a vote request of the term is simulated. -/
theorem NodeCore.returns_vote (hsound : Sound voters H)
    {start : RaftNode} (hstart : node.saved = start.saved) (hterm : request.term = H.term n)
    (hstood : H.stood request.term request.candidateId = some log)
    (hindex : request.lastLogIndex = log.length)
    (hlast : request.lastLogTerm = lastStamp LogEntry.term log) (termIncreased : Bool)
    (hsame : termIncreased = false → DurableHead voters config H n node.saved) :
    Returns RaftNode.saved
      (do
        set (if node.grantsVote request then node.withVote request.candidateId else node)
        RaftNode.persistIf (termIncreased || (node.grantsVote request &&
          node.votedFor != some request.candidateId))
        let node' ← get
        pure { term := node'.currentTerm, electionTerm := request.term
               voteGranted := node.grantsVote request }) start
      (VoteOutcome voters config H n request) (Left voters config H n) := by
  cases hgrants : node.grantsVote request with
  | false =>
    refine .set_bind hstart ?_
    refine .bind (hcore.returns_persist_if _ fun h => hsame (by simpa using h)) ?_
    rintro _ final ⟨hfinal, -⟩
    exact .get_bind (.pure ⟨H, Steps.refl H, hfinal, by simp⟩)
  | true =>
    obtain ⟨K, hsteps, hnew, hvote, hrepeat⟩ :=
      hcore.grant hsound hterm hstood hindex hlast hgrants
    refine .set_bind hstart ?_
    refine .bind ((hnew.returns_persist_if _ ?_).mono (fun _ _ h => h)
      fun _ h => h.after hsteps) ?_
    · -- Nothing is saved only if the term is not new and the vote repeats an earlier one.
      intro hunchanged
      obtain ⟨hold, hagain⟩ : termIncreased = false ∧
          node.votedFor = some request.candidateId := by simpa using hunchanged
      rw [hrepeat hagain]
      exact hsame hold
    · rintro _ final ⟨hfinal, -⟩
      exact .get_bind (.pure ⟨K, hsteps, hfinal, fun _ => hvote⟩)

end Voting

/-- Answering a vote request is simulated. -/
theorem NodeFacts.returns_handle_request_vote (hfacts : NodeFacts voters config H n node)
    (hsound : Sound voters H) (hstood : H.stood request.term request.candidateId = some log)
    (hindex : request.lastLogIndex = log.length)
    (hlast : request.lastLogTerm = lastStamp LogEntry.term log) :
    Returns RaftNode.saved (RaftNode.handleRequestVote request) node
      (VoteOutcome voters config H n request) (Left voters config H n) := by
  have hcore := hfacts.core
  rw [handleRequestVote]
  refine .get_bind ?_
  by_cases hrefused : node.config.learner = true ∨
      node.isVotingMember request.candidateId = false ∨ request.term < node.currentTerm
  · rw [if_pos hrefused]
    exact .pure ⟨H, Steps.refl H, hfacts, by simp⟩
  · rw [if_neg hrefused]
    by_cases hnewer : node.currentTerm < request.term
    · have hterm : H.term n < request.term := hcore.term ▸ hnewer
      have hstep : Step (majorityRules voters) n H (H.raise n request.term) := .raise _ hterm
      have hsteps := Steps.single hstep
      have hjournal : (node.becomeFollower request.term none).saved = node.saved := by
        rw [becomeFollower, if_pos hnewer]
        rfl
      have hvote := (hcore.raise hsound hterm none).returns_vote (hsound.steps hsteps) hjournal
        (by simp [History.raise]) hstood hindex hlast true (by simp)
      simp only [hnewer, decide_true, if_true]
      refine hvote.mono ?_ fun _ h => h.after hsteps
      rintro response final ⟨K, hmore, hrest⟩
      exact ⟨K, hsteps.trans hmore, hrest⟩
    · have hterm : request.term = H.term n := by
        have hge : ¬ request.term < node.currentTerm := fun h => hrefused (.inr (.inr h))
        rw [← hcore.term]
        omega
      simp only [hnewer, decide_false, Bool.false_eq_true, if_false]
      exact hcore.returns_vote hsound rfl hterm hstood hindex hlast false fun _ => hfacts.durable

/-- A candidate that counts a vote stays related. -/
theorem NodeFacts.count_vote (hfacts : NodeFacts voters config H n node)
    (hrole : node.role = .candidate) {source : NodeId} (hsource : source ∈ voters)
    (hvote : H.vote source (H.term n) = some n) :
    NodeFacts voters config H n
      { node with votesReceived := insert source node.votesReceived } where
  core :=
    { hfacts.core with
      candidate := fun _ =>
        { hfacts.core.candidate hrole with
          voters := Finset.insert_subset hsource (hfacts.core.candidate hrole).voters
          voted := by
            intro v hv
            rcases Finset.mem_insert.mp hv with rfl | hold
            · exact hvote
            · exact (hfacts.core.candidate hrole).voted v hold }
      leader := fun hleader => by simp [hrole] at hleader }
  durable := hfacts.durable

theorem RaftNode.voting_peer {source : NodeId}
    (hmember : ¬ (node.isVotingMember source = false ∨ source = node.config.nodeId)) :
    source ∈ node.config.peers := by
  rw [not_or] at hmember
  simpa [isVotingMember, hmember.2] using hmember.1

/-- Counting a vote response is simulated. -/
theorem NodeFacts.returns_request_vote_response (hfacts : NodeFacts voters config H n node)
    (hsound : Sound voters H) {source : NodeId} {response : RequestVoteResponse}
    (hgranted : response.voteGranted = true → H.vote source response.electionTerm = some n) :
    Returns RaftNode.saved (RaftNode.handleRequestVoteResponse source response) node
      (Outcome voters config H n) (Left voters config H n) := by
  have hcore := hfacts.core
  rw [handleRequestVoteResponse]
  refine .get_bind ?_
  by_cases hmember : node.isVotingMember source = false ∨ source = node.config.nodeId
  · rw [if_pos hmember]
    exact .pure hfacts.outcome
  rw [if_neg hmember]
  by_cases hnewer : node.currentTerm < response.term
  · rw [if_pos hnewer]
    exact hfacts.returns_newer_term hsound (hcore.term ▸ hnewer)
  rw [if_neg hnewer]
  by_cases hstale : node.role ≠ .candidate ∨ response.term ≠ node.currentTerm ∨
      response.electionTerm ≠ node.currentTerm ∨ response.voteGranted = false
  · rw [if_pos hstale]
    exact .pure hfacts.outcome
  rw [if_neg hstale]
  simp only [not_or, not_not, Bool.not_eq_false] at hstale
  obtain ⟨hrole, -, helection, hgrant⟩ := hstale
  have hvoter := (hcore.fixed.mem_peers_iff.mp (voting_peer hmember)).1
  have hcounted := hfacts.count_vote hrole hvoter (by
    rw [← hcore.term, ← helection]
    exact hgranted hgrant)
  have hcandidate := hcounted.core.candidate hrole
  refine .set_bind rfl ?_
  split_ifs with hquorum
  · exact hcounted.core.returns_become_leader hsound hcandidate
      (quorum_of_election hcounted.core.fixed hcounted.core.joint hcandidate.voters
        hquorum)
  · exact .pure hcounted.outcome

/-! ## Logical time -/

theorem NodeFacts.with_timers (hfacts : NodeFacts voters config H n node)
    (electionElapsed heartbeatElapsed : Nat) :
    NodeFacts voters config H n
      { node with electionElapsedMs := electionElapsed, heartbeatElapsedMs := heartbeatElapsed } :=
  ⟨{ hfacts.core with }, hfacts.durable⟩

/-- A tick is simulated. -/
theorem NodeFacts.returns_tick (hfacts : NodeFacts voters config H n node)
    (hsound : Sound voters H) (elapsedMs : Nat) :
    Returns RaftNode.saved (RaftNode.tick elapsedMs) node
      (Outcome voters config H n) (Left voters config H n) := by
  rw [tick]
  refine .get_bind ?_
  rw [hfacts.core.fixed.learner, if_neg (by decide)]
  by_cases hrole : node.role = .leader
  · rw [if_pos hrole]
    dsimp only
    split_ifs with hdue
    · have hreset := hfacts.with_timers node.electionElapsedMs 0
      exact .set_bind rfl (.pure ⟨H, Steps.refl H, hreset,
        (hreset.core.leader hrole).replicate_facts hreset.core hsound⟩)
    · exact .set_bind rfl
        (.pure (hfacts.with_timers node.electionElapsedMs _).outcome)
  · rw [if_neg hrole]
    have hlater := hfacts.with_timers (saturatingAdd node.electionElapsedMs elapsedMs)
      node.heartbeatElapsedMs
    refine .set_bind rfl ?_
    split_ifs with hdue
    · exact hlater.returns_start_election hsound
    · exact .pure hlater.outcome

end DistributedKV
