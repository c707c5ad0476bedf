import DistributedKV.Cluster.Entries
import DistributedKV.Cluster.Safety
import DistributedKV.Service.ExactlyOnce
import DistributedKV.Service.Restart
import DistributedKV.Service.ServiceCluster

/-!
# State machine safety

In a cluster of services of fixed membership the nodes move as in a cluster of nodes, and every
state machine is the replay of a start of the log that is settled in the history of the run. Two
machines that have applied equally many entries are therefore equal (`state_machine_safety`).
-/

namespace DistributedKV

open TermLog Barrier RaftKVService

/-! ## Calls as operations of the node -/

/-- The local calls of a run without membership changes and snapshots. -/
def ServiceCall.Plain : ServiceCall → Prop
  | .tick _ | .submit _ | .takeResult _ => True
  | _ => False

/-- The operation of the node a call leads to. A command that cannot be encoded leads to none. -/
def ServiceCall.operation : ServiceCall → Option Operation
  | .tick elapsedMs => some (.tick elapsedMs)
  | .submit command => (KVCommandCodec.encode command).toOption.map .propose
  | .handleRequestVote source request => some (.handleRequestVote source request)
  | .handleRequestVoteResponse source response =>
    some (.handleRequestVoteResponse source response)
  | .handleAppendEntries source request => some (.handleAppendEntries source request)
  | .handleAppendEntriesResponse source response =>
    some (.handleAppendEntriesResponse source response)
  | _ => none

/-- The entries whose payloads the state machine accepts. -/
def applicablePolicy : EntryPolicy where
  legal _ entry := entry.Applicable
  mono _ h := h
  sentinel _ := rfl
  noOp _ _ _ := rfl
  confChange _ _ change command _ hencoded := by
    show command ≠ []
    rintro rfl
    obtain ⟨-, -, hencoded⟩ := except_bind_eq_ok.mp hencoded
    split at hencoded
    · cases hencoded
    obtain ⟨member, -, hencoded⟩ := except_bind_eq_ok.mp hencoded
    obtain ⟨target, -, hencoded⟩ := except_bind_eq_ok.mp hencoded
    dsimp only at hencoded
    split at hencoded
    · cases hencoded
    · simp at hencoded

/-- The operations of a run of services: logical time and encoded commands. -/
def Operation.Submitted (operation : Operation) : Prop :=
  operation.Plain ∧ operation.Obeys applicablePolicy

namespace RaftKVService

variable {service final : RaftKVService}

/-- A call sends what its operation sends. -/
theorem perform_spec {call : ServiceCall} {operation : Operation}
    (hcall : call.operation = some operation) {outbound : List OutboundRpc} {node : RaftNode}
    (hrun : RaftNode.perform operation service.raftNode = .ok outbound node)
    (hreachable : Reachable node service.stateMachine) (hstore : service.store.file = none) :
    ∃ final, perform call service = .ok (outbound, "") final ∧ Served service node final := by
  cases call with
  | tick elapsedMs =>
    cases hcall
    exact settle_spec hreachable hstore hrun
  | submit command =>
    cases hencoded : KVCommandCodec.encode command with
    | error error => simp [ServiceCall.operation, hencoded, Except.toOption] at hcall
    | ok encoded =>
      simp only [ServiceCall.operation, hencoded, Except.toOption, Option.map_some,
        Option.some.injEq] at hcall
      subst hcall
      obtain ⟨proposal, hpropose, rfl⟩ := bind_pure_eq_ok hrun
      obtain ⟨result, final, hsubmit, hsame, hserved⟩ :=
        submit_spec hreachable hstore hencoded hpropose
      refine ⟨final, ?_, hserved⟩
      rw [perform, bind_of_ok hsubmit, ← hsame]
      rfl
  | handleRequestVote source request =>
    cases hcall
    obtain ⟨response, hvote, rfl⟩ := bind_pure_eq_ok hrun
    refine ⟨{ service with raftNode := node }, ?_, ⟨rfl, rfl, rfl, .inl rfl⟩⟩
    rw [perform, handleRequestVote, bind_of_ok (on_node_of_ok hvote)]
    rfl
  | handleRequestVoteResponse source response =>
    cases hcall
    exact settle_spec hreachable hstore hrun
  | handleAppendEntries source request =>
    cases hcall
    obtain ⟨response, hanswer, rfl⟩ := bind_pure_eq_ok hrun
    obtain ⟨final, hhandle, hserved⟩ := handle_append_entries_spec hreachable hanswer
    refine ⟨final, ?_, hserved⟩
    rw [perform, bind_of_ok hhandle]
    rfl
  | handleAppendEntriesResponse source response =>
    cases hcall
    exact settle_spec hreachable hstore hrun
  | _ => cases hcall

/-- A call without an operation leaves the node alone. -/
theorem perform_idle (service : RaftKVService) {call : ServiceCall} (hplain : call.Plain)
    (hcall : call.operation = none) :
    ∃ error final, perform call service = .ok ([], error) final ∧
      final.raftNode = service.raftNode ∧ final.stateMachine = service.stateMachine ∧
      final.store = service.store := by
  cases call with
  | tick elapsedMs => cases hcall
  | submit command =>
    cases hencoded : KVCommandCodec.encode command with
    | error error =>
      refine ⟨error, service, ?_, rfl, rfl, rfl⟩
      have hsubmit : submit command service = .ok ({ status := .invalid }, error) service := by
        rw [submit, hencoded]
        rfl
      rw [perform, bind_of_ok hsubmit]
      rfl
    | ok encoded => simp [ServiceCall.operation, hencoded, Except.toOption] at hcall
  | takeResult index => exact ⟨"", _, rfl, rfl, rfl, rfl⟩
  | _ => exact hplain.elim

theorem construct_spec {config : NodeConfig} {barrier : Option RaftPersistence} {sends : Bool}
    {store : FileSnapshotStore} (hrun : construct config barrier {} none sends store = .ok final) :
    ∃ node, RaftNode.construct config barrier = .ok node ∧
      { raftNode := node, sendsSnapshots := sends, store : RaftKVService }.caughtUp =
        (final, .ok ()) := by
  obtain ⟨node, started, hnode, ⟨⟩, hcaught⟩ := construct_eq_ok_iff.mp hrun
  exact ⟨node, hnode, hcaught⟩

theorem restart_spec {config : NodeConfig} {saved : List RaftPersistentState}
    (hstore : service.store.file = none) (hrun : restart config service saved = .ok final) :
    ∃ node, RaftNode.restart config service.raftNode saved = .ok node ∧
      { raftNode := node, sendsSnapshots := service.sendsSnapshots
        store := service.store : RaftKVService }.caughtUp = (final, .ok ()) := by
  have hload : service.store.load = .ok none := by rw [FileSnapshotStore.load, hstore]
  rw [restart, hload] at hrun
  exact construct_spec hrun

end RaftKVService

/-! ## Machines and histories -/

/-- The machine is the replay of a start of a log that is settled. -/
def Replayed (voters : Finset NodeId) (H : RaftHistory) (machine : StateMachine) : Prop :=
  ∃ bound log, Settled (majorityRules voters) H bound machine.lastApplied log ∧
    StateMachine.replay (log.take machine.lastApplied) = .ok machine

namespace Replayed

variable {voters : Finset NodeId} {config : NodeConfig} {H K : RaftHistory} {n : NodeId}
  {machine other : StateMachine} {node : RaftNode}

theorem initial (voters : Finset NodeId) (H : RaftHistory) : Replayed voters H {} :=
  ⟨0, [], .inl rfl, rfl⟩

theorem grows (hreplayed : Replayed voters H machine) (hgrows : Grows H K) :
    Replayed voters K machine := by
  obtain ⟨bound, log, hsettled, hreplay⟩ := hreplayed
  exact ⟨bound, log, hsettled.grows hgrows le_rfl, hreplay⟩

theorem eq_of_last_applied (hmachine : Replayed voters H machine)
    (hother : Replayed voters H other) (hsound : Sound voters H)
    (happlied : machine.lastApplied = other.lastApplied) : machine = other := by
  obtain ⟨bound, log, hsettled, hreplay⟩ := hmachine
  obtain ⟨bound', log', hsettled', hreplay'⟩ := hother
  rw [← happlied] at hsettled' hreplay'
  have htake := hsettled.take_eq_take hsound.invariant (majorities_meet voters) hsound.elected
    hsettled'
  rw [htake, hreplay'] at hreplay
  exact (Except.ok.inj hreplay).symm

theorem reachable (hreplayed : Replayed voters H machine) (hsound : Sound voters H)
    (hcore : NodeCore voters config H n node) (hobeys : node.Obeys applicablePolicy) :
    RaftKVService.Reachable node machine where
  uncompacted := hcore.uncompacted
  applicable entry hentry := hobeys.entries entry (List.mem_cons_of_mem _ hentry)
  committed := by
    rw [hcore.log]
    exact hcore.commit.le_length
  replayed hle := by
    obtain ⟨bound, log, hsettled, hreplay⟩ := hreplayed
    have htake := hsettled.take_eq_take hsound.invariant (majorities_meet voters) hsound.elected
      (hcore.commit.of_le hle)
    rw [hcore.log, ← htake, hreplay]

theorem of_committed (hcore : NodeCore voters config H n node)
    (hreplay : StateMachine.replay (node.log.suffix.take node.commitIndex) = .ok machine) :
    Replayed voters H machine := by
  have hlength : node.commitIndex ≤ node.log.suffix.length := by
    rw [hcore.log]
    exact hcore.commit.le_length
  have happlied : machine.lastApplied = node.commitIndex := by
    rw [StateMachine.replay_last_applied hreplay, List.length_take, min_eq_left hlength]
  refine ⟨H.term n, H.log n, ?_, ?_⟩
  · rw [happlied]
    exact hcore.commit
  · rw [happlied, ← hcore.log, hreplay]

theorem served {service final : RaftKVService} (hserved : service.Served node final)
    (hcore : NodeCore voters config H n node) (hreplayed : Replayed voters H service.stateMachine) :
    Replayed voters H final.stateMachine := by
  rcases hserved.machine with hsame | hreplay
  · rw [hsame]
    exact hreplayed
  · exact of_committed hcore hreplay

end Replayed

/-! ## Services and histories -/

/-- The nodes of the services. -/
def ServiceCluster.nodes (cluster : ServiceCluster) : Cluster where
  node host := (cluster.service host).raftNode
  sent := cluster.sent

/-- The nodes are related to a history and hold what the state machines accept, there is no
snapshot file, and every machine is a replay of what is settled. -/
structure ServiceSimulated (deployment : ServiceDeployment) (cluster : ServiceCluster)
    (H : RaftHistory) : Prop where
  nodes : Simulated deployment.toDeployment cluster.nodes H
  entries : cluster.nodes.Obeys applicablePolicy deployment.toDeployment
  unpublished : ∀ host ∈ deployment.hosts, (cluster.service host).store.file = none
  replayed : ∀ host ∈ deployment.hosts,
    Replayed deployment.hosts H (cluster.service host).stateMachine

namespace ServiceSimulated

variable {deployment : ServiceDeployment} {cluster following : ServiceCluster}
  {H K : RaftHistory} {host : NodeId}

theorem nodes_update (cluster : ServiceCluster) (host : NodeId) (service : RaftKVService)
    (sent : List Packet) :
    ServiceCluster.nodes { service := Function.update cluster.service host service, sent } =
      { node := Function.update cluster.nodes.node host service.raftNode, sent } := by
  refine congrArg (Cluster.mk · sent) (funext fun other => ?_)
  exact Function.apply_update (fun _ service => raftNode service) cluster.service
    host service other

/-- One service has moved with its node. -/
theorem update (hsim : ServiceSimulated deployment cluster H) (hgrows : Grows H K)
    {service : RaftKVService} {sent : List Packet}
    (hnodes : Simulated deployment.toDeployment
      { node := Function.update cluster.nodes.node host service.raftNode, sent } K)
    (hentries : Cluster.Obeys applicablePolicy deployment.toDeployment
      { node := Function.update cluster.nodes.node host service.raftNode, sent })
    (hstore : service.store.file = none)
    (hreplayed : Replayed deployment.hosts K service.stateMachine) :
    ServiceSimulated deployment
      { service := Function.update cluster.service host service, sent } K := by
  refine ⟨?_, ?_, fun other hother => ?_, fun other hother => ?_⟩
  · rwa [nodes_update]
  · rwa [nodes_update]
  · rcases eq_or_ne other host with rfl | hne
    · simpa using hstore
    · simpa [hne] using hsim.unpublished other hother
  · rcases eq_or_ne other host with rfl | hne
    · simpa using hreplayed
    · simpa [hne] using (hsim.replayed other hother).grows hgrows

/-! ### Events -/

/-- What makes a service act makes its node act. -/
theorem node_stimulus (hsim : ServiceSimulated deployment cluster H) {stimulus : ServiceStimulus}
    (hwithin : ∀ host call, stimulus = .call host call → call.Plain) {call : ServiceCall}
    (htarget : cluster.target stimulus = some (host, call)) :
    (call.Plain ∧ call.operation = none) ∨
      ∃ operation action, call.operation = some operation ∧
        Stimulus.Within Operation.Submitted action ∧
        cluster.nodes.target action = some (host, operation) := by
  cases stimulus with
  | call caller requested =>
    cases htarget
    have hplain := hwithin host call rfl
    cases call with
    | tick elapsedMs =>
      exact .inr ⟨_, .call host (.tick elapsedMs), rfl, ⟨trivial, not_false⟩, rfl⟩
    | submit command =>
      cases hencoded : KVCommandCodec.encode command with
      | error error =>
        exact .inl ⟨trivial, by simp [ServiceCall.operation, hencoded, Except.toOption]⟩
      | ok encoded =>
        refine .inr ⟨_, .call host (.propose encoded), ?_, ⟨trivial, fun _ _ _ => ?_⟩, rfl⟩
        · simp [ServiceCall.operation, hencoded, Except.toOption]
        · show (KVCommandCodec.decode encoded).isOk = true
          rw [KVCommandCodec.decode_encode_command hencoded]
          rfl
    | takeResult index => exact .inl ⟨trivial, rfl⟩
    | _ => exact hplain.elim
  | deliver packet =>
    simp only [ServiceCluster.target] at htarget
    split_ifs at htarget with hsent
    cases htarget
    have hpacket := hsim.entries.packets packet hsent
    have hnode : ∀ operation, packet.operation = some operation →
        cluster.nodes.target (.deliver packet) = some (packet.destination, operation) := by
      intro operation hoperation
      have hsame : packet ∈ cluster.nodes.sent := hsent
      simp only [Cluster.target, if_pos hsame, hoperation, Option.map_some]
    obtain ⟨source, destination, payload⟩ := packet
    cases payload with
    | installSnapshot request => exact hpacket.elim
    | installSnapshotResponse response => exact hpacket.elim
    | _ => exact .inr ⟨_, .deliver _, rfl, trivial, hnode _ rfl⟩

section Step

variable (hmembership : deployment.FixedMembership)
  (haccepted : ∀ host ∈ deployment.hosts, (deployment.config host).Accepted)
include hmembership haccepted

section Steps

variable (hsim : ServiceSimulated deployment cluster H)
include hsim

theorem step_nodes {nodes : Cluster}
    (hnext : cluster.nodes.Next deployment.toDeployment Operation.Submitted nodes) :
    ∃ K, Grows H K ∧ Simulated deployment.toDeployment nodes K ∧
      nodes.Obeys applicablePolicy deployment.toDeployment := by
  obtain ⟨K, hgrows, hnodes⟩ := hsim.nodes.step hmembership haccepted
    (hnext.mono fun _ hsubmitted => hsubmitted.1)
  exact ⟨K, hgrows, hnodes, hsim.entries.step (fun _ hsubmitted => hsubmitted.2) hnext⟩

/-- A call that concerns the node is simulated. -/
theorem perform (hhost : host ∈ deployment.hosts)
    {call : ServiceCall} {operation : Operation} (hcall : call.operation = some operation)
    {action : Stimulus} (hwithin : action.Within Operation.Submitted)
    (htarget : cluster.nodes.target action = some (host, operation)) :
    ∃ outbound final K,
      RaftKVService.perform call (cluster.service host) = .ok (outbound, "") final ∧
      (cluster.nodes.node host).after operation = final.raftNode ∧
      Grows H K ∧ ServiceSimulated deployment (cluster.returned host final outbound) K := by
  obtain ⟨outbound, node, hrun, -, -⟩ := (hsim.nodes.returns
    (hwithin.mono fun _ hsubmitted => hsubmitted.1) htarget hhost).elim
  have hnext : cluster.nodes.Next deployment.toDeployment Operation.Submitted
      (cluster.nodes.returned host node outbound) := by
    refine ⟨.run action, hwithin.run, ?_⟩
    simp only [Cluster.step, htarget, if_pos hhost, hrun]
  obtain ⟨K, hgrows, hnodes, hentries⟩ := hsim.step_nodes hmembership haccepted hnext
  have hreplayed := (hsim.replayed host hhost).grows hgrows
  have hcore := (hnodes.nodes host hhost).core
  have hobeys := hentries.nodes host hhost
  simp only [Cluster.returned, Function.update_self] at hcore hobeys
  obtain ⟨final, hperform, hserved⟩ := perform_spec hcall hrun
    (hreplayed.reachable hnodes.sound hcore hobeys) (hsim.unpublished host hhost)
  refine ⟨outbound, final, K, hperform, ?_, hgrows, ?_⟩
  · rw [RaftNode.after, hrun, hserved.raftNode]
  · have hstore : final.store.file = none := by
      rw [hserved.store]
      exact hsim.unpublished host hhost
    refine hsim.update hgrows ?_ ?_ hstore (hreplayed.served hserved hcore)
    · rw [hserved.raftNode]
      exact hnodes
    · rw [hserved.raftNode]
      exact hentries

/-- A restart is simulated. -/
theorem restarted (hhost : host ∈ deployment.hosts) {saved : List RaftPersistentState}
    (hnext : ∀ nodes, cluster.nodes.restarted deployment.toDeployment host saved = some nodes →
      cluster.nodes.Next deployment.toDeployment Operation.Submitted nodes)
    (hrun : cluster.restarted deployment host saved = some following) :
    ∃ K, Grows H K ∧ ServiceSimulated deployment following K := by
  rw [ServiceCluster.restarted] at hrun
  split at hrun
  · cases hrun
  rename_i final hrestart
  cases hrun
  obtain ⟨node, hnode, hcaught⟩ :=
    restart_spec (hsim.unpublished host hhost) hrestart
  have hrestarted : cluster.nodes.restarted deployment.toDeployment host saved =
      some { cluster.nodes with node := Function.update cluster.nodes.node host node } := by
    have hsame : RaftNode.restart (deployment.config host) (cluster.nodes.node host) saved =
        .ok node := hnode
    rw [Cluster.restarted, hsame]
  obtain ⟨K, hgrows, hnodes, hentries⟩ :=
    hsim.step_nodes hmembership haccepted (hnext _ hrestarted)
  have hcore := (hnodes.nodes host hhost).core
  have hobeys := hentries.nodes host hhost
  simp only [Function.update_self] at hcore hobeys
  have hempty := Replayed.initial deployment.hosts K
  have hreachable : RaftKVService.Reachable
      { raftNode := node, sendsSnapshots := (cluster.service host).sendsSnapshots
        store := (cluster.service host).store : RaftKVService }.raftNode {} :=
    hempty.reachable hnodes.sound hcore hobeys
  obtain ⟨caught, hsame, hframed, hmachine⟩ := caught_up_spec hreachable
  rw [hcaught] at hsame
  obtain rfl : final = caught := (Prod.mk.inj hsame).1
  refine ⟨K, hgrows, hsim.update hgrows ?_ ?_ ?_ ?_⟩
  · rw [hframed.raftNode]
    exact hnodes
  · rw [hframed.raftNode]
    exact hentries
  · rw [hframed.store]
    exact hsim.unpublished host hhost
  · rcases hmachine with hsame | hreplay
    · rw [hsame]
      exact hempty
    · exact Replayed.of_committed hcore hreplay

/-- Every event is simulated. -/
theorem step (hnext : cluster.Next deployment ServiceCall.Plain following) :
    ∃ K, Grows H K ∧ ServiceSimulated deployment following K := by
  obtain ⟨event, hwithin, hstep⟩ := hnext
  cases event with
  | run stimulus =>
    have hlocal : ∀ host call, stimulus = .call host call → call.Plain := by
      rintro host call rfl
      exact hwithin
    simp only [ServiceCluster.step] at hstep
    split at hstep
    · cases hstep
    rename_i host call htarget
    split_ifs at hstep with hhost
    rcases hsim.node_stimulus hlocal htarget with
      ⟨hplain, hcall⟩ | ⟨operation, action, hcall, haction, hnode⟩
    · obtain ⟨error, final, hperform, hsame, hmachine, hstore⟩ :=
        (cluster.service host).perform_idle hplain hcall
      rw [hperform] at hstep
      cases hstep
      refine ⟨H, Grows.refl H, hsim.update (Grows.refl H) ?_ ?_ ?_ ?_⟩
      · rw [hsame]
        simpa [ServiceCluster.nodes] using hsim.nodes
      · rw [hsame]
        simpa [ServiceCluster.nodes] using hsim.entries
      · rw [hstore]
        exact hsim.unpublished host hhost
      · rw [hmachine]
        exact hsim.replayed host hhost
    · obtain ⟨outbound, final, K, hperform, -, hgrows, hfinal⟩ :=
        hsim.perform hmembership haccepted hhost hcall haction hnode
      rw [hperform] at hstep
      cases hstep
      exact ⟨K, hgrows, hfinal⟩
  | crash stimulus lost =>
    have hlocal : ∀ host call, stimulus = .call host call → call.Plain := by
      rintro host call rfl
      exact hwithin
    simp only [ServiceCluster.step] at hstep
    split at hstep
    · cases hstep
    rename_i host call htarget
    split_ifs at hstep with hcondition
    obtain ⟨hhost, hlost⟩ := hcondition
    rcases hsim.node_stimulus hlocal htarget with
      ⟨hplain, hcall⟩ | ⟨operation, action, hcall, haction, hnode⟩
    · -- The call saves nothing, so the crash loses nothing.
      obtain ⟨error, final, hperform, hsame, -, -⟩ :=
        (cluster.service host).perform_idle hplain hcall
      have hafter : (cluster.service host).after call = final := by
        rw [after, hperform]
      rw [hafter, hsame] at hlost hstep
      obtain rfl : lost = 0 := by omega
      refine hsim.restarted hmembership haccepted hhost (fun nodes hnodes => ?_) hstep
      refine ⟨.restart host, trivial, ?_⟩
      simp only [Cluster.step, if_pos hhost]
      exact hnodes
    · obtain ⟨outbound, final, K, hperform, hafter, -, -⟩ :=
        hsim.perform hmembership haccepted hhost hcall haction hnode
      have hfinal : (cluster.service host).after call = final := by
        rw [after, hperform]
      rw [hfinal, ← hafter] at hlost hstep
      refine hsim.restarted hmembership haccepted hhost (fun nodes hnodes => ?_) hstep
      refine ⟨.crash action lost, haction.crash lost, ?_⟩
      simp only [Cluster.step, hnode]
      rw [if_pos ⟨hhost, hlost⟩]
      exact hnodes
  | restart host =>
    simp only [ServiceCluster.step] at hstep
    split_ifs at hstep with hhost
    refine hsim.restarted hmembership haccepted hhost (fun nodes hnodes => ?_) hstep
    refine ⟨.restart host, trivial, ?_⟩
    simp only [Cluster.step, if_pos hhost]
    exact hnodes

end Steps

end Step

end ServiceSimulated

/-! ## Runs -/

theorem RaftKVService.construct_fresh {config : NodeConfig} {sends : Bool}
    {service : RaftKVService}
    (hrun : RaftKVService.construct config (some .reliable) {} none sends {} = .ok service) :
    ∃ node, RaftNode.construct config (some .reliable) = .ok node ∧
      service = { raftNode := node, sendsSnapshots := sends } := by
  obtain ⟨node, hnode, hcaught⟩ := construct_spec hrun
  have hcommit : node.commitIndex = 0 := by
    rcases (RaftNode.construct_durable hnode).durable with ⟨-, -, -, -, hcommit⟩ | ⟨-, -, -, hcommit⟩
    · exact hcommit
    · exact hcommit
  simp only [caughtUp, hcommit, Nat.zero_sub, applyLoop] at hcaught
  exact ⟨node, hnode, ((Prod.mk.inj hcaught).1).symm⟩

section Run

variable {deployment : ServiceDeployment} {cluster : ServiceCluster} {run : Nat → ServiceCluster}

theorem ServiceCluster.Initial.nodes (hinitial : cluster.Initial deployment) :
    cluster.nodes.Initial deployment.toDeployment := by
  refine ⟨hinitial.1, fun host hhost => ?_⟩
  obtain ⟨node, hnode, hservice⟩ := construct_fresh (hinitial.2 host hhost)
  rw [hnode]
  exact congrArg Except.ok (congrArg raftNode hservice).symm

theorem ServiceCluster.Initial.simulated (hinitial : cluster.Initial deployment)
    (hmembership : deployment.FixedMembership) :
    ServiceSimulated deployment cluster (History.initial NodeId LogEntry) := by
  refine ⟨hinitial.nodes.simulated hmembership, hinitial.nodes.obeys, fun host hhost => ?_,
    fun host hhost => ?_⟩
  · obtain ⟨node, -, hservice⟩ := construct_fresh (hinitial.2 host hhost)
    rw [hservice]
  · obtain ⟨node, -, hservice⟩ := construct_fresh (hinitial.2 host hhost)
    rw [hservice]
    exact Replayed.initial _ _

theorem growing_service_history (hmembership : deployment.FixedMembership)
    (haccepted : ∀ host ∈ deployment.hosts, (deployment.config host).Accepted) :
    EventRun.GrowingGhost (ServiceCluster.Initial deployment)
      (ServiceCluster.Next deployment ServiceCall.Plain) (ServiceSimulated deployment) Grows where
  refl := Grows.refl
  trans := Grows.trans
  initial := fun _ hinitial => ⟨_, hinitial.simulated hmembership⟩
  next := fun hsim hnext => hsim.step hmembership haccepted hnext

theorem ServiceCluster.Run.histories
    (hrun : ServiceCluster.Run deployment ServiceCall.Plain run)
    (hmembership : deployment.FixedMembership) (j k : Nat) :
    ∃ H K M, ServiceSimulated deployment (run j) H ∧ ServiceSimulated deployment (run k) K ∧
      Sound deployment.hosts M ∧ Grows H M ∧ Grows K M := by
  obtain ⟨H, K, hfirst, hsecond, hgrows | hgrows⟩ :=
    (growing_service_history hmembership hrun.initial.nodes.accepted).both hrun j k
  · exact ⟨H, K, K, hfirst, hsecond, hsecond.nodes.sound, hgrows, Grows.refl K⟩
  · exact ⟨H, K, H, hfirst, hsecond, hfirst.nodes.sound, Grows.refl H, hgrows⟩

/-- In every run, two nodes agree on the entries that both have committed, and two state machines
that have applied equally many entries hold the same keys and the same client sessions. -/
theorem state_machine_safety (hrun : ServiceCluster.Run deployment ServiceCall.Plain run)
    (hmembership : deployment.FixedMembership) (j k : Nat) {n m : NodeId}
    (hn : n ∈ deployment.hosts) (hm : m ∈ deployment.hosts) :
    (∀ i, i ≤ ((run j).service n).raftNode.commitIndex →
      i ≤ ((run k).service m).raftNode.commitIndex →
      ((run j).service n).raftNode.log.entryAt i = ((run k).service m).raftNode.log.entryAt i) ∧
    (((run j).service n).stateMachine.lastApplied =
        ((run k).service m).stateMachine.lastApplied →
      ((run j).service n).stateMachine.store = ((run k).service m).stateMachine.store ∧
      ((run j).service n).stateMachine.sessions =
        ((run k).service m).stateMachine.sessions) := by
  obtain ⟨H, K, M, hfirst, hsecond, hsound, hgrowsH, hgrowsK⟩ := hrun.histories hmembership j k
  constructor
  · intro i hi hi'
    have hcore := (hfirst.nodes.nodes n hn).core
    have hcore' := (hsecond.nodes.nodes m hm).core
    have htake := ((hcore.commit.grows hgrowsH le_rfl).of_le hi).take_eq_take hsound.invariant
      (majorities_meet deployment.hosts) hsound.elected
      ((hcore'.commit.grows hgrowsK le_rfl).of_le hi')
    rw [← hcore.log, ← hcore'.log] at htake
    exact hcore.uncompacted.entry_at_eq hcore'.uncompacted htake le_rfl
  · intro happlied
    have hsame := ((hfirst.replayed n hn).grows hgrowsH).eq_of_last_applied
      ((hsecond.replayed m hm).grows hgrowsK) hsound happlied
    exact ⟨congrArg StateMachine.store hsame, congrArg StateMachine.sessions hsame⟩

end Run

/-! ### A run with a submitted command -/

/-- Three services that do not send snapshots. -/
def threeServices : ServiceDeployment where
  toDeployment := threeVoters
  sendsSnapshots _ := false

/-- The delivery of a payload to a service. -/
def delivered (source destination : NodeId) (payload : RpcPayload) : ServiceEvent :=
  .run (.deliver { source, destination, payload })

/-- Service 1 is elected with the vote of service 2, replicates a submitted command to it and
tells it that the command is committed. -/
def oneSubmission : List ServiceEvent :=
  [.run (.call 1 (.tick 300)),
    delivered 1 2 (.requestVote
      { term := 1, candidateId := 1, lastLogIndex := 0, lastLogTerm := 0 }),
    delivered 2 1 (.requestVoteResponse { term := 1, electionTerm := 1, voteGranted := true }),
    .run (.call 1 (.submit setKey)),
    delivered 1 2 (.appendEntries
      { term := 1, leaderId := 1, previousLogIndex := 0, previousLogTerm := 0
        entries := [{ index := 1, term := 1, type := .noOp, command := [] },
          { index := 2, term := 1, type := .command, command := setKeyEncoded }]
        leaderCommit := 0 }),
    delivered 2 1 (.appendEntriesResponse
      { term := 1, success := true, requestPreviousLogIndex := 0, requestEntryCount := 2
        matchIndex := 2, conflictIndex := 3 }),
    .run (.call 1 (.tick 50)),
    delivered 1 2 (.appendEntries
      { term := 1, leaderId := 1, previousLogIndex := 2, previousLogTerm := 1
        entries := [], leaderCommit := 2 })]

/-- The clusters of this run. -/
def oneSubmissionRun (k : Nat) : ServiceCluster :=
  EventRun.execute (ServiceCluster.step threeServices) (oneSubmission.take k)
    (ServiceCluster.boot threeServices)

theorem one_submission_run :
    ServiceCluster.Run threeServices ServiceCall.Plain oneSubmissionRun := by
  refine EventRun.Run.of_events (ServiceCluster.boot_initial (forall_three_hosts
    (by decide +kernel) (by decide +kernel) (by decide +kernel))) ?_
  simp [oneSubmission, delivered, ServiceEvent.Within, ServiceCall.Plain]

/-- Services 1 and 2 have both applied the command and hold the same keys. -/
theorem state_machine_safety_one_submission :
    ((oneSubmissionRun 8).service 1).getApplied [120] = some [49] ∧
      ((oneSubmissionRun 8).service 1).stateMachine.store =
        ((oneSubmissionRun 8).service 2).stateMachine.store :=
  ⟨by decide +kernel, ((state_machine_safety one_submission_run three_voters_fixed 8 8
    (by decide : (1 : NodeId) ∈ threeServices.hosts)
    (by decide : (2 : NodeId) ∈ threeServices.hosts)).2 (by decide +kernel)).1⟩

end DistributedKV
