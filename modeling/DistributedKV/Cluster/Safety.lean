import DistributedKV.Cluster.Run

/-!
# The safety properties of a cluster of fixed membership

Election safety, log matching and leader completeness in every run, each read off the histories
that simulate the points of the run.
-/

namespace DistributedKV

open TermLog Cluster

variable {deployment : Deployment} {run : Nat → Cluster}

/-- Node `v` has given its vote of a term: it returned a response that grants it, or has saved
its vote for itself. -/
def Cluster.Voted (cluster : Cluster) (v : NodeId) (term : Nat) (candidate : NodeId) : Prop :=
  (∃ response : RequestVoteResponse, response.voteGranted = true ∧ response.electionTerm = term ∧
    { source := v, destination := candidate, payload := .requestVoteResponse response } ∈
      cluster.sent) ∨
    (candidate = v ∧ ∃ image ∈ (cluster.node v).saved,
      image.currentTerm = term ∧ image.votedFor = some v)

/-- Where two logs have entries of the same term at an index, they agree up to it. -/
def RaftLog.Matching (first second : RaftLog) : Prop :=
  ∀ i e f, first.entryAt i = some e → second.entryAt i = some f → e.term = f.term →
    ∀ j ≤ i, first.entryAt j = second.entryAt j

/-! ## A run of three voters -/

/-- Three voters that know each other. -/
def threeVoters : Deployment where
  hosts := {1, 2, 3}
  config host := { nodeId := host, peers := [1, 2, 3].filter (· != host) }

theorem forall_three_hosts {P : NodeId → Prop} (hfirst : P 1) (hsecond : P 2) (hthird : P 3) :
    ∀ host ∈ ({1, 2, 3} : Finset NodeId), P host := by
  intro host hhost
  simp only [Finset.mem_insert, Finset.mem_singleton] at hhost
  rcases hhost with rfl | rfl | rfl
  · exact hfirst
  · exact hsecond
  · exact hthird

/-- The delivery of a payload. -/
def received (source destination : NodeId) (payload : RpcPayload) : Event :=
  .run (.deliver { source, destination, payload })

/-- Node 1 is elected with the vote of node 2 and commits its first entry, then node 2 is elected
with the vote of node 3. -/
def twoElections : List Event :=
  [.run (.call 1 (.tick 300)),
    received 1 2 (.requestVote
      { term := 1, candidateId := 1, lastLogIndex := 0, lastLogTerm := 0 }),
    received 2 1 (.requestVoteResponse { term := 1, electionTerm := 1, voteGranted := true }),
    received 1 2 (.appendEntries
      { term := 1, leaderId := 1, previousLogIndex := 0, previousLogTerm := 0
        entries := [{ index := 1, term := 1, type := .noOp, command := [] }], leaderCommit := 0 }),
    received 2 1 (.appendEntriesResponse
      { term := 1, success := true, requestPreviousLogIndex := 0, requestEntryCount := 1
        matchIndex := 1, conflictIndex := 2 }),
    .run (.call 2 (.tick 300)),
    received 2 3 (.requestVote
      { term := 2, candidateId := 2, lastLogIndex := 1, lastLogTerm := 1 }),
    received 3 2 (.requestVoteResponse { term := 2, electionTerm := 2, voteGranted := true })]

/-- The clusters of this run. -/
def twoElectionsRun (k : Nat) : Cluster :=
  execute threeVoters (twoElections.take k) (boot threeVoters)

theorem three_voters_fixed : threeVoters.FixedMembership := by
  constructor <;> refine forall_three_hosts ?_ ?_ ?_ <;> decide +kernel

theorem two_elections_run : Run threeVoters Operation.Plain twoElectionsRun := by
  refine EventRun.Run.of_events (boot_initial (forall_three_hosts (by decide +kernel)
    (by decide +kernel) (by decide +kernel))) ?_
  simp [twoElections, received, Event.Within, Operation.Plain]

/-! ## Logs without a snapshot -/

section Uncompacted

variable {first second : RaftLog} (hfirst : first.Uncompacted) (hsecond : second.Uncompacted)
include hfirst hsecond

theorem RaftLog.Uncompacted.entry_at_zero : first.entryAt 0 = second.entryAt 0 := by
  have hone := first.entry_at_first
  have htwo := second.entry_at_first
  rw [hfirst.first_index] at hone
  rw [hsecond.first_index] at htwo
  rw [hone, htwo, hfirst, hsecond]

theorem RaftLog.Uncompacted.entry_at_eq {i : Nat}
    (htake : first.suffix.take i = second.suffix.take i) {j : Nat} (hj : j ≤ i) :
    first.entryAt j = second.entryAt j := by
  cases j with
  | zero => exact hfirst.entry_at_zero hsecond
  | succ k =>
    rw [hfirst.entry_at_succ, hsecond.entry_at_succ]
    have hget := congrArg (·[k]?) htake
    simpa only [List.getElem?_take, if_pos (Nat.lt_of_succ_le hj)] using hget

end Uncompacted

/-! ## Elections -/

variable {H : RaftHistory} {voters : Finset NodeId} {config : NodeConfig} {n : NodeId}
  {node : RaftNode}

theorem Simulated.voted {cluster : Cluster} (hsim : Simulated deployment cluster H) {v c : NodeId}
    (hv : v ∈ deployment.hosts) {term : Nat} (hvoted : cluster.Voted v term c) :
    H.vote v term = some c := by
  rcases hvoted with ⟨response, hgranted, rfl, hsent⟩ | ⟨rfl, image, himage, rfl, hvote⟩
  · exact hsim.packets _ hsent hgranted
  · exact hsim.votes c hv image himage c hvote

/-- In every run, a term has at most one leader, and a node gives its vote of a term to at most
one candidate. -/
theorem election_safety (hrun : Run deployment Operation.Plain run)
    (hmembership : deployment.FixedMembership) (j k : Nat) :
    (∀ n ∈ deployment.hosts, ∀ m ∈ deployment.hosts,
      ((run j).node n).role = .leader → ((run k).node m).role = .leader →
      ((run j).node n).currentTerm = ((run k).node m).currentTerm → n = m) ∧
    ∀ v ∈ deployment.hosts, ∀ term c d,
      (run j).Voted v term c → (run k).Voted v term d → c = d := by
  obtain ⟨H, K, M, hfirst, hsecond, -, hgrowsH, hgrowsK⟩ := hrun.histories hmembership j k
  constructor
  · intro n hn m hm hleader hleader' hterm
    have hcore := (hfirst.nodes n hn).core
    have hcore' := (hsecond.nodes m hm).core
    have hleads := hgrowsH.leader _ _ (hcore.leader hleader).leads
    have hleads' := hgrowsK.leader _ _ (hcore'.leader hleader').leads
    rw [hcore.term, hcore'.term] at hterm
    rw [hterm, hleads'] at hleads
    exact (Option.some.inj hleads).symm
  · intro v hv term c d hc hd
    have hvote := hgrowsH.vote _ _ _ (hfirst.voted hv hc)
    have hvote' := hgrowsK.vote _ _ _ (hsecond.voted hv hd)
    exact Option.some.inj (hvote.symm.trans hvote')

/-- Node 2 votes for node 1 in term 1, and for nobody else in that term. -/
theorem election_safety_two_elections :
    (twoElectionsRun 2).Voted 2 1 1 ∧ ∀ c, (twoElectionsRun 8).Voted 2 1 c → 1 = c := by
  have hvoted : (twoElectionsRun 2).Voted 2 1 1 :=
    .inl ⟨{ term := 1, electionTerm := 1, voteGranted := true }, rfl, rfl, by decide +kernel⟩
  exact ⟨hvoted, fun c hc => (election_safety two_elections_run three_voters_fixed 2 8).2 2
    (by decide) 1 1 c hvoted hc⟩

/-! ## Logs -/

theorem NodeCore.stamped (hcore : NodeCore voters config H n node) (hsound : Sound voters H) :
    WellStamped LogEntry.term H.leaderLog node.currentTerm node.log.suffix := by
  rw [hcore.term, hcore.log]
  exact hsound.invariant.stamped n

theorem NodeCore.matching {first second : NodeConfig} {m : NodeId} {other : RaftNode}
    (hnode : NodeCore voters first H n node) (hother : NodeCore voters second H m other)
    (hsound : Sound voters H) : node.log.Matching other.log := by
  intro i e f he hf hterm j hj
  cases i with
  | zero =>
    obtain rfl : j = 0 := by omega
    exact hnode.uncompacted.entry_at_zero hother.uncompacted
  | succ k =>
    rw [hnode.uncompacted.entry_at_succ] at he
    rw [hother.uncompacted.entry_at_succ] at hf
    exact hnode.uncompacted.entry_at_eq hother.uncompacted
      ((hnode.stamped hsound).take_eq_take (hother.stamped hsound) he hf hterm) hj

/-- Terms do not decrease along the log of a related node. -/
theorem NodeCore.terms_sorted (hcore : NodeCore voters config H n node) (hsound : Sound voters H)
    {i j : Nat} {e f : LogEntry} (hij : i ≤ j) (he : node.log.entryAt i = some e)
    (hf : node.log.entryAt j = some f) : e.term ≤ f.term := by
  cases i with
  | zero =>
    have hboundary := node.log.entry_at_first
    rw [hcore.uncompacted.first_index, he, hcore.uncompacted] at hboundary
    rw [Option.some.inj hboundary]
    exact Nat.zero_le _
  | succ i =>
    obtain ⟨j, rfl⟩ : ∃ j', j = j' + 1 := ⟨j - 1, by omega⟩
    rw [hcore.uncompacted.entry_at_succ] at he hf
    rcases (Nat.succ_le_succ_iff.mp hij).lt_or_eq with hlt | rfl
    · obtain ⟨hi, rfl⟩ := List.getElem?_eq_some_iff.mp he
      obtain ⟨hj, rfl⟩ := List.getElem?_eq_some_iff.mp hf
      exact List.pairwise_iff_getElem.mp (hcore.stamped hsound).sorted i j hi hj hlt
    · rw [he] at hf
      exact (Option.some.inj hf ▸ le_rfl)

theorem NodeCore.term_le (hcore : NodeCore voters config H n node) (hsound : Sound voters H)
    {i : Nat} {e : LogEntry} (he : node.log.entryAt i = some e) : e.term ≤ node.currentTerm := by
  cases i with
  | zero =>
    have hboundary := node.log.entry_at_first
    rw [hcore.uncompacted.first_index, he, hcore.uncompacted] at hboundary
    rw [Option.some.inj hboundary]
    exact Nat.zero_le _
  | succ i =>
    rw [hcore.uncompacted.entry_at_succ] at he
    exact (hcore.stamped hsound).bounded e (List.mem_of_getElem? he)

/-- A request that was sent never disagrees with an entry of its index and term. -/
theorem NodeCore.append_from_agrees {source : NodeId} {request : AppendEntriesRequest}
    (hcore : NodeCore voters config H n node) (hsound : Sound voters H)
    (hfacts : AppendFacts voters H source n request) (hterm : node.currentTerm ≤ request.term)
    {response : AppendEntriesResponse}
    (hpass : RaftNode.appendConflict node.log request response = none) :
    node.log.appendFrom request.previousLogIndex request.entries ≠
      .error "same Raft index and term contain different payloads" := by
  rw [hcore.term] at hterm
  -- The receiver first moves to the term of the request, which leaves its log.
  obtain ⟨K, hsteps, hfollower, hreached, -, hlog, -, -⟩ :=
    hcore.follow hsound hterm request.leaderId
  have hsound' := hsound.steps hsteps
  have hfacts' := hfacts.steps hsteps hsound.invariant
  rw [← hlog] at hpass ⊢
  obtain ⟨hle, hagree⟩ := hfollower.agree_of_no_conflict hsound' hfacts' hpass
  intro herror
  rcases hfollower.append_from hsound' hfacts' hreached.symm hle hagree with h | ⟨log, h, -⟩
  · rw [h] at herror
    simp at herror
  · rw [h] at herror
    cases herror

/-- In every run, the logs of any two nodes match, terms do not decrease along a log and are at
most the node's, and no request that is delivered disagrees with an entry of the same index and
term when it reaches the log. -/
theorem log_matching (hrun : Run deployment Operation.Plain run)
    (hmembership : deployment.FixedMembership) (k : Nat) :
    (∀ n ∈ deployment.hosts, ∀ m ∈ deployment.hosts,
      ((run k).node n).log.Matching ((run k).node m).log) ∧
    (∀ n ∈ deployment.hosts, ∀ i j e f, i ≤ j → ((run k).node n).log.entryAt i = some e →
      ((run k).node n).log.entryAt j = some f → e.term ≤ f.term) ∧
    (∀ n ∈ deployment.hosts, ∀ i e, ((run k).node n).log.entryAt i = some e →
      e.term ≤ ((run k).node n).currentTerm) ∧
    ∀ packet ∈ (run k).sent, packet.destination ∈ deployment.hosts → ∀ request,
      packet.payload = .appendEntries request →
      ((run k).node packet.destination).currentTerm ≤ request.term → ∀ response,
      RaftNode.appendConflict ((run k).node packet.destination).log request response = none →
      ((run k).node packet.destination).log.appendFrom request.previousLogIndex
          request.entries ≠ .error "same Raft index and term contain different payloads" := by
  obtain ⟨H, hsim⟩ := hrun.simulated hmembership k
  refine ⟨fun n hn m hm => ?_, fun n hn i j e f => ?_, fun n hn i e => ?_, ?_⟩
  · exact (hsim.nodes n hn).core.matching (hsim.nodes m hm).core hsim.sound
  · exact fun hij he hf => (hsim.nodes n hn).core.terms_sorted hsim.sound hij he hf
  · exact (hsim.nodes n hn).core.term_le hsim.sound
  · rintro ⟨source, destination, payload⟩ hsent hdestination request rfl hterm response hpass
    exact (hsim.nodes destination hdestination).core.append_from_agrees hsim.sound
      (hsim.packets _ hsent) hterm hpass

/-- The logs of the two leaders match, and they have the first entry in common. -/
theorem log_matching_two_elections :
    ((twoElectionsRun 8).node 1).log.entryAt 1 ≠ none ∧
      ((twoElectionsRun 8).node 1).log.Matching ((twoElectionsRun 8).node 2).log :=
  ⟨by decide +kernel, (log_matching two_elections_run three_voters_fixed 8).1 1 (by decide) 2
    (by decide)⟩

/-! ## Committed entries -/

/-- What is settled is in the log of every leader of a later term. -/
theorem NodeCore.holds_settled {K M : RaftHistory} {m : NodeId}
    (hcore : NodeCore voters config K m node) (hsimulated : Sound voters K)
    (hsound : Sound voters M) (hgrows : Grows K M) (hrole : node.role = .leader)
    {bound length : Nat} {log : List LogEntry}
    (hsettled : Settled (majorityRules voters) M bound length log)
    (hbound : bound < node.currentTerm) : node.log.suffix.take length = log.take length := by
  rw [hcore.term] at hbound
  have hleads := (hcore.leader hrole).leads
  obtain ⟨stood, hstood, hbegins, -⟩ := hsimulated.invariant.leaderStood hleads
  rcases hsettled with rfl | ⟨term, hterm, chosen, hchosen, hlength, htake⟩
  · simp
  · have hstart := leader_completeness hsound.invariant (majorities_meet voters) hsound.elected
      hchosen (K.term m) (hterm.trans_lt hbound) m stood (hgrows.leader _ _ hleads)
      (hgrows.stood _ _ _ hstood)
    have hheld := ((M.start_prefix_start term hlength).trans hstart).trans hbegins
    rw [hcore.log, hsimulated.invariant.leaderHolds hleads rfl, htake]
    have hwithin : (M.start term length).length = length := by
      rw [History.start, List.length_take]
      exact min_eq_left (hlength.trans hchosen.within)
    have heq := List.prefix_iff_eq_take.mp hheld
    rw [hwithin] at heq
    exact heq.symm

/-- In every run, whatever a node of one term has committed, in particular what its leader has
just committed, is in the log of every leader of a later term. -/
theorem committed_in_later_leader (hrun : Run deployment Operation.Plain run)
    (hmembership : deployment.FixedMembership) (j k : Nat) {n m : NodeId}
    (hn : n ∈ deployment.hosts) (hm : m ∈ deployment.hosts)
    (hleader : ((run k).node m).role = .leader)
    (hterm : ((run j).node n).currentTerm < ((run k).node m).currentTerm) {i : Nat}
    (hcommit : i ≤ ((run j).node n).commitIndex) :
    ((run k).node m).log.entryAt i = ((run j).node n).log.entryAt i := by
  obtain ⟨H, K, M, hfirst, hsecond, hsound, hgrowsH, hgrowsK⟩ := hrun.histories hmembership j k
  have hcore := (hfirst.nodes n hn).core
  have hcore' := (hsecond.nodes m hm).core
  have hsettled := hcore.commit.grows hgrowsH le_rfl
  rw [← hcore.term, ← hcore.log] at hsettled
  have htake := hcore'.holds_settled hsecond.sound hsound hgrowsK hleader hsettled hterm
  exact hcore'.uncompacted.entry_at_eq hcore.uncompacted htake hcommit

/-- The first entry, committed by node 1 in term 1, is in the log of node 2, the leader of
term 2. -/
theorem committed_in_later_leader_two_elections :
    ((twoElectionsRun 5).node 1).commitIndex = 1 ∧
      ((twoElectionsRun 8).node 2).role = .leader ∧
      ((twoElectionsRun 8).node 2).log.entryAt 1 = ((twoElectionsRun 5).node 1).log.entryAt 1 :=
  ⟨by decide +kernel, by decide +kernel, committed_in_later_leader two_elections_run
    three_voters_fixed 5 8 (by decide) (by decide) (by decide +kernel) (by decide +kernel)
    (by decide +kernel)⟩

end DistributedKV
