import DistributedKV.Cluster.Restart
import DistributedKV.Raft.Node.Durability

/-!
# Runs of a cluster of fixed membership

Every event of such a cluster is simulated by steps of one node in the history
(`Simulated.step`): an operation that returns by what its handler does, a crash by what the last
image that was saved holds. The history of a run only grows, so what is established at one point
of a run can be compared with what is established at another (`Cluster.Run.histories`).
-/

namespace DistributedKV

open TermLog Barrier Cluster List RaftNode

/-- A cluster related to a history, with every vote that was ever saved. -/
structure Simulated (deployment : Deployment) (cluster : Cluster) (H : RaftHistory) : Prop where
  sound : Sound deployment.hosts H
  nodes : ∀ n ∈ deployment.hosts,
    NodeFacts deployment.hosts (deployment.config n) H n (cluster.node n)
  packets : ∀ packet ∈ cluster.sent, PacketFacts deployment.hosts H packet
  votes : ∀ n ∈ deployment.hosts, ∀ image ∈ (cluster.node n).saved, ∀ c,
    image.votedFor = some c → H.vote n image.currentTerm = some c

variable {deployment : Deployment} {cluster following : Cluster} {H K : RaftHistory} {n : NodeId}

theorem NodeCore.backed {voters : Finset NodeId} {config : NodeConfig}
    {node : RaftNode} (hcore : NodeCore voters config H n node) : node.Backed := by
  obtain ⟨saved, hsaved⟩ := hcore.reliable
  exact ⟨_, hsaved⟩

/-- What a packet leads to at its destination is simulated. -/
theorem NodeFacts.returns_packet {voters : Finset NodeId} {config : NodeConfig} {node : RaftNode}
    (hfacts : NodeFacts voters config H n node) (hsound : Sound voters H) {packet : Packet}
    (hpacket : PacketFacts voters H packet) (hn : packet.destination = n) {operation : Operation}
    (hoperation : packet.operation = some operation) :
    Returns RaftNode.saved (RaftNode.perform operation) node
      (Outcome voters config H n) (Left voters config H n) := by
  obtain ⟨source, destination, payload⟩ := packet
  subst hn
  cases payload with
  | requestVote request =>
    cases hoperation
    obtain ⟨hcandidate, log, hstood, hindex, hlast⟩ := hpacket
    rw [← hcandidate] at hstood
    refine (hfacts.returns_handle_request_vote hsound hstood hindex hlast).bind ?_
    rintro response final ⟨K, hsteps, hfinal, hgranted⟩
    refine .pure ⟨K, hsteps, hfinal, ?_⟩
    simp only [mem_singleton, forall_eq]
    intro hvote
    rw [hgranted hvote, hcandidate]
  | requestVoteResponse response =>
    cases hoperation
    exact hfacts.returns_request_vote_response hsound hpacket
  | appendEntries request =>
    cases hoperation
    refine (hfacts.returns_handle_append_entries hsound hpacket).bind ?_
    rintro response final ⟨K, hsteps, hfinal, hanswer⟩
    refine .pure ⟨K, hsteps, hfinal, ?_⟩
    simpa only [mem_singleton, forall_eq] using hanswer
  | appendEntriesResponse response =>
    cases hoperation
    exact hfacts.returns_append_entries_response hsound hpacket.1 hpacket.2
  | installSnapshot request => cases hoperation
  | installSnapshotResponse response => cases hoperation

/-- Whether the local calls of a stimulus are allowed. -/
def Stimulus.Within (allowed : Operation → Prop) : Stimulus → Prop
  | .call _ operation => allowed operation
  | .deliver _ => True

namespace Stimulus.Within

variable {allowed further : Operation → Prop} {stimulus : Stimulus}

theorem mono (hwithin : stimulus.Within allowed)
    (himplies : ∀ operation, allowed operation → further operation) : stimulus.Within further := by
  cases stimulus with
  | call host operation => exact himplies operation hwithin
  | deliver packet => trivial

theorem run (hwithin : stimulus.Within allowed) : Event.Within allowed (.run stimulus) := by
  cases stimulus <;> exact hwithin

theorem crash (hwithin : stimulus.Within allowed) (lost : Nat) :
    Event.Within allowed (.crash stimulus lost) := by
  cases stimulus <;> exact hwithin

end Stimulus.Within

theorem Cluster.Next.mono {allowed further : Operation → Prop}
    (hnext : cluster.Next deployment allowed following)
    (himplies : ∀ operation, allowed operation → further operation) :
    cluster.Next deployment further following := by
  obtain ⟨event, hwithin, hstep⟩ := hnext
  refine ⟨event, ?_, hstep⟩
  cases event with
  | run stimulus => exact (Stimulus.Within.mono (by cases stimulus <;> exact hwithin) himplies).run
  | crash stimulus lost =>
    exact (Stimulus.Within.mono (by cases stimulus <;> exact hwithin) himplies).crash lost
  | restart host => trivial

/-- What a stimulus leads to is simulated. -/
theorem Simulated.returns (hsim : Simulated deployment cluster H) {stimulus : Stimulus}
    (hwithin : stimulus.Within Operation.Plain) {operation : Operation}
    (htarget : cluster.target stimulus = some (n, operation)) (hn : n ∈ deployment.hosts) :
    Returns RaftNode.saved (RaftNode.perform operation) (cluster.node n)
      (Outcome deployment.hosts (deployment.config n) H n)
      (Left deployment.hosts (deployment.config n) H n) := by
  have hfacts := hsim.nodes n hn
  cases stimulus with
  | call host call =>
    cases htarget
    cases operation with
    | tick elapsedMs => exact hfacts.returns_tick hsim.sound elapsedMs
    | propose command => exact hfacts.returns_propose hsim.sound command
    | _ => exact hwithin.elim
  | deliver packet =>
    simp only [Cluster.target] at htarget
    split_ifs at htarget with hsent
    obtain ⟨call, hcall, heq⟩ := Option.map_eq_some_iff.mp htarget
    obtain ⟨hdestination, rfl⟩ := Prod.mk.inj heq
    exact hfacts.returns_packet hsim.sound (hsim.packets packet hsent) hdestination hcall

/-! ## The other nodes and the packets -/

/-- Steps of the node that moved keep everything else simulated. -/
theorem Simulated.advance (hsim : Simulated deployment cluster H) (hn : n ∈ deployment.hosts)
    (hsteps : Steps (majorityRules deployment.hosts) n H K) {node : RaftNode}
    (hnode : NodeFacts deployment.hosts (deployment.config n) K n node)
    (hvotes : ∀ image ∈ node.saved, ∀ c, image.votedFor = some c →
      K.vote n image.currentTerm = some c) {added : List Packet}
    (hadded : ∀ packet ∈ added, PacketFacts deployment.hosts K packet) :
    Simulated deployment
      { node := Function.update cluster.node n node, sent := added ++ cluster.sent } K := by
  have hinv := hsim.sound.invariant
  obtain ⟨-, hgrows, -⟩ := hsteps.spec hinv
  refine ⟨hsim.sound.steps hsteps, ?_, ?_, ?_⟩
  · intro m hm
    rcases eq_or_ne m n with rfl | hne
    · simpa using hnode
    · simpa [hne] using (hsim.nodes m hm).frame hsteps hinv hne
  · intro packet hpacket
    rcases mem_append.mp hpacket with h | h
    · exact hadded packet h
    · exact (hsim.packets packet h).steps hsteps hinv
  · intro m hm image himage c hc
    rcases eq_or_ne m n with rfl | hne
    · exact hvotes image (by simpa using himage) c hc
    · exact hgrows.vote _ _ _ (hsim.votes m hm image (by simpa [hne] using himage) c hc)

/-! ## Events -/

section Hosts

variable (hsim : Simulated deployment cluster H) (hn : n ∈ deployment.hosts)
include hsim hn

theorem Simulated.votes_written (hgrows : Grows H K) {final : RaftNode} {vote : Option NodeId}
    {images : List RaftPersistentState} {term : Nat} (hvote : vote = K.vote n term)
    (himages : ∀ image ∈ images, image.currentTerm = term ∧ image.votedFor = vote)
    (hsaved : final.saved = images ++ (cluster.node n).saved) :
    ∀ image ∈ final.saved, ∀ c, image.votedFor = some c →
      K.vote n image.currentTerm = some c := by
  intro image himage c hc
  rw [hsaved] at himage
  rcases mem_append.mp himage with h | h
  · obtain ⟨hterm, hvoted⟩ := himages image h
    rw [hterm, ← hvote, ← hvoted, hc]
  · exact hgrows.vote _ _ _ (hsim.votes n hn image h c hc)

/-- An operation that returns is simulated by steps of its node. -/
theorem Simulated.returned {operation : Operation} {outbound : List OutboundRpc} {final : RaftNode}
    (hrun : RaftNode.perform operation (cluster.node n) = .ok outbound final)
    (houtcome : Outcome deployment.hosts (deployment.config n) H n outbound final) :
    ∃ K, Steps (majorityRules deployment.hosts) n H K ∧
      Simulated deployment (cluster.returned n final outbound) K := by
  obtain ⟨K, hsteps, hfinal, hpackets⟩ := houtcome
  obtain ⟨-, hgrows, -⟩ := hsteps.spec hsim.sound.invariant
  refine ⟨K, hsteps, hsim.advance hn hsteps hfinal ?_ ?_⟩
  · have hkept := ensures_perform (hsim.nodes n hn).core.backed operation
      outbound final hrun
    rcases hkept with ⟨hpersistence, -⟩ | hwritten
    · rw [saved_congr hpersistence]
      exact fun image himage c hc => hgrows.vote _ _ _ (hsim.votes n hn image himage c hc)
    · obtain ⟨latest, older, hsaved, -, himages⟩ := hwritten.journal
      refine hsim.votes_written hn hgrows hfinal.core.vote ?_ hsaved
      rw [← hfinal.core.term]
      exact himages
  · intro packet hpacket
    obtain ⟨rpc, hrpc, rfl⟩ := mem_map.mp hpacket
    exact hpackets rpc hrpc

/-- A restart from a journal whose head is current is simulated. -/
theorem Simulated.restarted
    (hmembership : deployment.FixedMembership) (haccepted : (deployment.config n).Accepted)
    (hsteps : Steps (majorityRules deployment.hosts) n H K) {saved : List RaftPersistentState}
    (hdurable : DurableHead deployment.hosts (deployment.config n) K n saved)
    (hvotes : ∀ image ∈ saved, ∀ c, image.votedFor = some c →
      K.vote n image.currentTerm = some c)
    (hrun : cluster.restarted deployment n saved = some following) :
    Simulated deployment following K := by
  obtain ⟨journal, hjournal⟩ := (hsim.nodes n hn).core.reliable
  rw [Cluster.restarted, restart, hjournal, Option.map_some] at hrun
  split at hrun
  · cases hrun
  · rename_i node hconstruct
    cases hrun
    have hfacts := NodeFacts.of_construct (hsim.sound.steps hsteps) haccepted
      (hmembership.fixed hn haccepted) (hmembership.learner n hn) hdurable hconstruct
    have hsaved : node.saved = saved := by
      rw [RaftNode.saved, (RaftNode.construct_durable hconstruct).persistence]
      rfl
    have hnothing : ∀ packet ∈ ([] : List Packet), PacketFacts deployment.hosts K packet := by simp
    exact hsim.advance hn hsteps hfacts (hsaved ▸ hvotes) hnothing

/-- A crash leaves a journal that is current in some later history. -/
theorem Simulated.crashed {operation : Operation}
    (hreturns : Returns RaftNode.saved (RaftNode.perform operation) (cluster.node n)
      (Outcome deployment.hosts (deployment.config n) H n)
      (Left deployment.hosts (deployment.config n) H n)) {lost : Nat}
    (hlost : (cluster.node n).saved.length + lost ≤
      ((cluster.node n).after operation).saved.length) :
    ∃ K, Steps (majorityRules deployment.hosts) n H K ∧
      DurableHead deployment.hosts (deployment.config n) K n
        (((cluster.node n).after operation).saved.drop lost) ∧
      ∀ image ∈ ((cluster.node n).after operation).saved.drop lost, ∀ c,
        image.votedFor = some c → K.vote n image.currentTerm = some c := by
  obtain ⟨outbound, final, hrun, -, added, hadded, hleft⟩ := hreturns.elim
  have hafter : (cluster.node n).after operation = final := by rw [RaftNode.after, hrun]
  rw [hafter, hadded] at hlost ⊢
  rw [length_append] at hlost
  rw [drop_append_of_le_length (by omega)]
  have hold := hsim.votes n hn
  cases hremaining : added.drop lost with
  | nil => exact ⟨H, Steps.refl H, (hsim.nodes n hn).durable, hold⟩
  | cons image older =>
    have hmember : ∀ other ∈ image :: older, other ∈ added :=
      fun other hother => mem_of_mem_drop (hremaining ▸ hother)
    obtain ⟨K, hsteps, hdurable⟩ := hleft image (hmember image mem_cons_self)
    obtain ⟨-, hgrows, -⟩ := hsteps.spec hsim.sound.invariant
    refine ⟨K, hsteps, hdurable, ?_⟩
    -- All images of one operation carry the same term and vote.
    have hsame : ∀ other ∈ added,
        other.currentTerm = final.currentTerm ∧ other.votedFor = final.votedFor := by
      have hkept := ensures_perform (hsim.nodes n hn).core.backed operation
        outbound final hrun
      rcases hkept with ⟨hpersistence, -⟩ | hwritten
      · have hempty : added = [] := by
          have hlength := congrArg length hadded
          rw [saved_congr hpersistence, length_append] at hlength
          exact length_eq_zero_iff.mp (by omega)
        simp [hempty]
      · obtain ⟨latest, rest, hsaved, -, himages⟩ := hwritten.journal
        rw [append_cancel_right (hadded.symm.trans hsaved)]
        exact himages
    obtain ⟨hterm, hvote⟩ := hsame image (hmember image mem_cons_self)
    intro other hother c hc
    rcases mem_append.mp hother with h | h
    · obtain ⟨hterm', hvote'⟩ := hsame other (hmember other h)
      rw [hterm', ← hterm, hdurable.term, ← hdurable.vote, hvote, ← hvote', hc]
    · exact hgrows.vote _ _ _ (hold other h c hc)

end Hosts

/-- Every event is simulated by steps of one node. -/
theorem Simulated.step (hsim : Simulated deployment cluster H)
    (hmembership : deployment.FixedMembership)
    (haccepted : ∀ host ∈ deployment.hosts, (deployment.config host).Accepted)
    (hnext : cluster.Next deployment Operation.Plain following) :
    ∃ K, Grows H K ∧ Simulated deployment following K := by
  have hgrows : ∀ n K, Steps (majorityRules deployment.hosts) n H K → Grows H K :=
    fun n K hsteps => (hsteps.spec hsim.sound.invariant).2.1
  obtain ⟨event, hwithin, hstep⟩ := hnext
  cases event with
  | run stimulus =>
    have hallowed : stimulus.Within Operation.Plain := by cases stimulus <;> exact hwithin
    simp only [Cluster.step] at hstep
    split at hstep
    · cases hstep
    rename_i host operation htarget
    split_ifs at hstep with hhost
    split at hstep
    · cases hstep
    rename_i outbound final hrun
    cases hstep
    obtain ⟨result, node, hresult, houtcome, -⟩ := (hsim.returns hallowed htarget hhost).elim
    rw [hrun] at hresult
    cases hresult
    obtain ⟨K, hsteps, hnew⟩ := hsim.returned hhost hrun houtcome
    exact ⟨K, hgrows host K hsteps, hnew⟩
  | crash stimulus lost =>
    have hallowed : stimulus.Within Operation.Plain := by cases stimulus <;> exact hwithin
    simp only [Cluster.step] at hstep
    split at hstep
    · cases hstep
    rename_i host operation htarget
    split_ifs at hstep with hcondition
    obtain ⟨hhost, hlost⟩ := hcondition
    obtain ⟨K, hsteps, hdurable, hvotes⟩ :=
      hsim.crashed hhost (hsim.returns hallowed htarget hhost) hlost
    exact ⟨K, hgrows host K hsteps, hsim.restarted hhost hmembership (haccepted host hhost)
      hsteps hdurable hvotes hstep⟩
  | restart host =>
    simp only [Cluster.step] at hstep
    split_ifs at hstep with hhost
    exact ⟨H, Grows.refl H, hsim.restarted hhost hmembership (haccepted host hhost)
      (Steps.refl H) (hsim.nodes host hhost).durable (hsim.votes host hhost) hstep⟩

/-! ## Runs -/

theorem Sound.initial (voters : Finset NodeId) : Sound voters (History.initial NodeId LogEntry) where
  invariant := Invariant.initial _
  elected := by
    intro t c h
    simp [History.initial] at h
  valid := by
    intro t
    simp [History.initial]

theorem Cluster.Initial.accepted (hinitial : cluster.Initial deployment) :
    ∀ host ∈ deployment.hosts, (deployment.config host).Accepted :=
  fun host hhost => NodeConfig.accepted_of_construct (hinitial.2 host hhost)

theorem Cluster.Initial.simulated (hinitial : cluster.Initial deployment)
    (hmembership : deployment.FixedMembership) :
    Simulated deployment cluster (History.initial NodeId LogEntry) := by
  have hsound := Sound.initial deployment.hosts
  refine ⟨hsound, fun n hn => ?_, by simp [hinitial.1], fun n hn image himage => ?_⟩
  · have haccepted := hinitial.accepted n hn
    have hempty : DurableHead deployment.hosts (deployment.config n)
        (History.initial NodeId LogEntry) n [] := ⟨rfl, rfl⟩
    exact NodeFacts.of_construct hsound haccepted (hmembership.fixed hn haccepted)
      (hmembership.learner n hn) hempty (hinitial.2 n hn)
  · rw [saved, (construct_durable (hinitial.2 n hn)).persistence] at himage
    simp [RaftPersistence.reliable] at himage

theorem growing_history (hmembership : deployment.FixedMembership)
    (haccepted : ∀ host ∈ deployment.hosts, (deployment.config host).Accepted) :
    EventRun.GrowingGhost (Initial deployment) (Next deployment Operation.Plain)
      (Simulated deployment) Grows where
  refl := Grows.refl
  trans := Grows.trans
  initial := fun _ hinitial => ⟨_, hinitial.simulated hmembership⟩
  next := fun hsim hnext => hsim.step hmembership haccepted hnext

variable {run : Nat → Cluster}

theorem Cluster.Run.simulated (hrun : Run deployment Operation.Plain run)
    (hmembership : deployment.FixedMembership) (k : Nat) :
    ∃ H, Simulated deployment (run k) H :=
  (growing_history hmembership hrun.initial.accepted).point hrun k

theorem Cluster.Run.histories (hrun : Run deployment Operation.Plain run)
    (hmembership : deployment.FixedMembership) (j k : Nat) :
    ∃ H K M, Simulated deployment (run j) H ∧ Simulated deployment (run k) K ∧
      Sound deployment.hosts M ∧ Grows H M ∧ Grows K M := by
  obtain ⟨H, K, hfirst, hsecond, hgrows | hgrows⟩ :=
    (growing_history hmembership hrun.initial.accepted).both hrun j k
  · exact ⟨H, K, K, hfirst, hsecond, hsecond.sound, hgrows, Grows.refl K⟩
  · exact ⟨H, K, H, hfirst, hsecond, hfirst.sound, Grows.refl H, hgrows⟩

end DistributedKV
