import DistributedKV.Raft.Node.CursorOrder
import DistributedKV.Service.Safety
import DistributedKV.Service.ServiceSteps

/-!
# Replication cursors in runs

In a run of fixed membership the cursors of a leader stay within its log and no match index falls
during a leadership; and a next index stays above its match index as long as no rejection leads a
cursor back to what its peer has acknowledged (`cursors_consistent`). Nothing else is asked of the
responses, which may be delayed, duplicated and reordered, with services that stop, compact their
logs and install snapshots. The leader's filter does not keep such rejections out
(`repeated_rejection`).
-/

namespace DistributedKV

open Barrier Relation

/-- The calls a service makes on its own that leave the membership alone. -/
def ServiceCall.Fixed : ServiceCall → Prop
  | .tick _ | .submit _ | .takeResult _ | .tryPublishSnapshot _ => True
  | _ => False

/-- The calls of which every change keeps the cursors in order. -/
def ServiceCall.Orderly : ServiceCall → Prop
  | .handleAppendEntriesResponse _ response => response.success = true
  | .addLearner _ => False
  | _ => True

variable {call : ServiceCall}

theorem ServiceCall.Runs.orderly {operation : Operation} (hruns : call.Runs operation)
    (horderly : call.Orderly) : operation.Orderly := by
  cases call with
  | submit command =>
    obtain ⟨encoded, -, rfl⟩ := hruns
    trivial
  | handleAppendEntriesResponse source response =>
    cases hruns
    exact horderly
  | handleInstallSnapshotResponse source response =>
    obtain rfl | ⟨index, rfl⟩ | ⟨answer, hsuccess, rfl⟩ := hruns
    · trivial
    · trivial
    · exact hsuccess
  | addLearner learner => exact horderly.elim
  | takeResult index => exact hruns.elim
  | tryPublishSnapshot threshold => exact hruns.elim
  | _ =>
    cases hruns
    trivial

namespace RaftKVService

variable {service final : RaftKVService} {strict : Prop}

/-- A change keeps the cursors of the node in order. -/
theorem Micro.tends {first second : RaftKVService} (hmicro : Micro call first second)
    (horderly : call.Orderly) : RaftNode.Tends strict first.raftNode second.raftNode := by
  cases hmicro with
  | node operation node hruns hnode => exact hnode.tends (hruns.orderly horderly)
  | apply _ hlater hnext =>
    obtain ⟨entry, result, -, -, hframed⟩ := apply_next_inv hnext
    rw [hframed.raftNode]
    exact RaftNode.Tends.refl _
  | compact threshold boundaryTerm log hcall hpublishes hlog =>
    exact RaftNode.Tends.of_steady rfl rfl rfl rfl (RaftLog.compact_to_ends hlog).2.ge
  | replace source request boundaryTerm hcall hrole happlied =>
    -- the new log may end earlier, but the node follows
    exact RaftNode.Tends.of_follower le_rfl hrole
  | save after hsave =>
    cases hsave
    exact RaftNode.Tends.of_steady rfl rfl rfl rfl le_rfl
  | _ => exact RaftNode.Tends.refl _

theorem tends_of_steps (horderly : call.Orderly)
    (hsteps : ReflTransGen (Micro call) service final) :
    RaftNode.Tends strict service.raftNode final.raftNode := by
  have hstep : ∀ first second : RaftKVService, Micro call first second →
      RaftNode.Tends strict service.raftNode first.raftNode →
      RaftNode.Tends strict service.raftNode second.raftNode :=
    fun _ _ hmicro htends => htends.trans (hmicro.tends horderly)
  exact invariant_of_steps hstep hsteps (RaftNode.Tends.refl _)

/-- A call delivers no rejection that leads back to what the peer has acknowledged. -/
def fresh (service : RaftKVService) : ServiceCall → Bool
  | .handleAppendEntriesResponse source response => service.raftNode.freshRejection source response
  | _ => true

/-- A call that adds no learner keeps the cursors in order. -/
theorem perform_tends {answer : List OutboundRpc × String}
    (hrun : perform call service = .ok answer final)
    (hlearner : ∀ learner, call ≠ .addLearner learner)
    (hfresh : strict → service.fresh call = true) :
    RaftNode.Tends strict service.raftNode final.raftNode := by
  have hplain : call.Orderly → RaftNode.Tends strict service.raftNode final.raftNode := fun horderly =>
    tends_of_steps horderly ((traces_perform call service).1 answer final hrun).1
  cases call with
  | handleAppendEntriesResponse source response =>
    cases hsuccess : response.success with
    | true => exact hplain hsuccess
    | false =>
      have hensures : Ensures (handleAppendEntriesResponse source response) service
          fun _ final => RaftNode.Tends strict service.raftNode final.raftNode := by
        rw [handleAppendEntriesResponse]
        refine .bind (ensures_on_node (RaftNode.ensures_rejection hsuccess hfresh)) ?_
        rintro outbound middle ⟨node, htends, rfl⟩ answer final hsettle
        -- what follows changes the node no more than taking a result does
        have hsteps : ReflTransGen (Micro (.takeResult 0)) { service with raftNode := node }
            final := ((traces_settle Micro.settles outbound).1 answer final hsettle).1
        have horderly : (ServiceCall.takeResult 0).Orderly := trivial
        exact htends.trans (tends_of_steps horderly hsteps)
      exact hensures answer final hrun
  | addLearner learner => exact absurd rfl (hlearner learner)
  | _ => exact hplain trivial

theorem restart_follows {config : NodeConfig} {saved : List RaftPersistentState}
    (hrun : service.restart config saved = .ok final) : final.raftNode.role = .follower := by
  obtain ⟨snapshot, -, hconstruct⟩ := except_bind_eq_ok.mp hrun
  exact RaftNode.construct_follows (construct_node hconstruct)

end RaftKVService

namespace ServiceCluster

variable {deployment : ServiceDeployment} {cluster following : ServiceCluster}
  {run : Nat → ServiceCluster} {host : NodeId} {strict : Prop}

/-- The event delivers no rejection that leads a leader's cursor back to what the peer has
acknowledged. -/
def fresh (cluster : ServiceCluster) : ServiceEvent → Bool
  | .run stimulus =>
    match cluster.target stimulus with
    | some (host, call) => (cluster.service host).fresh call
    | none => true
  | _ => true

/-- One event whose local calls leave the membership alone, and that is fresh in the strict sense. -/
def FixedNext (strict : Prop) (deployment : ServiceDeployment)
    (cluster following : ServiceCluster) : Prop :=
  ∃ event, (ServiceEvent.Within ServiceCall.Fixed event ∧
      (strict → cluster.fresh event = true)) ∧
    cluster.step deployment event = some following

/-- A run of such events. -/
abbrev FixedRun (strict : Prop) (deployment : ServiceDeployment) (run : Nat → ServiceCluster) :
    Prop :=
  EventRun.Run (Initial deployment) (FixedNext strict deployment) run

theorem restarted_follows {target : NodeId} {saved : List RaftPersistentState}
    (hrun : cluster.restarted deployment target saved = some following) :
    following.service host = cluster.service host ∨
      (following.service host).raftNode.role = .follower := by
  rw [restarted] at hrun
  split at hrun
  · cases hrun
  · rename_i service hrestart
    cases hrun
    by_cases hhost : host = target
    · subst hhost
      right
      dsimp only
      rw [Function.update_self]
      exact RaftKVService.restart_follows hrestart
    · exact .inl (Function.update_of_ne hhost ..)

theorem target_adds_no_learner {stimulus : ServiceStimulus} {target : NodeId} {call : ServiceCall}
    (hwithin : ServiceEvent.Within ServiceCall.Fixed (.run stimulus))
    (htarget : cluster.target stimulus = some (target, call)) (learner : NodeId) :
    call ≠ .addLearner learner := by
  rintro rfl
  cases stimulus with
  | call host given =>
    cases htarget
    exact hwithin
  | deliver packet =>
    rw [ServiceCluster.target] at htarget
    split at htarget
    · have hcall : packet.serviceCall = .addLearner learner :=
        congrArg Prod.snd (Option.some.inj htarget)
      rw [Packet.serviceCall] at hcall
      split at hcall <;> cases hcall
    · cases htarget

/-- After an event the cursors are in order, or it follows. -/
theorem FixedNext.tends (hnext : FixedNext strict deployment cluster following) :
    RaftNode.Tends strict (cluster.service host).raftNode (following.service host).raftNode ∨
      (following.service host).raftNode.role = .follower := by
  obtain ⟨event, ⟨hwithin, hfresh⟩, hstep⟩ := hnext
  have hrestarts : ∀ {target : NodeId} {saved : List RaftPersistentState},
      cluster.restarted deployment target saved = some following →
      RaftNode.Tends strict (cluster.service host).raftNode (following.service host).raftNode ∨
        (following.service host).raftNode.role = .follower := by
    intro target saved hrun
    refine (restarted_follows hrun).imp_left fun hsame => ?_
    rw [hsame]
    exact RaftNode.Tends.refl _
  cases event with
  | run stimulus =>
    rw [step] at hstep
    split at hstep
    · cases hstep
    rename_i target call htarget
    split at hstep
    · split at hstep
      · cases hstep
      rename_i outbound error service hperform
      cases hstep
      left
      by_cases hhost : host = target
      · subst hhost
        rw [fresh, htarget] at hfresh
        dsimp only [returned]
        rw [Function.update_self]
        exact RaftKVService.perform_tends hperform (target_adds_no_learner hwithin htarget) hfresh
      · dsimp only [returned]
        rw [Function.update_of_ne hhost]
        exact RaftNode.Tends.refl _
    · cases hstep
  | crash stimulus lost =>
    rw [step] at hstep
    split at hstep
    · cases hstep
    dsimp only at hstep
    split at hstep
    · exact hrestarts hstep
    · cases hstep
  | restart target =>
    rw [step] at hstep
    split at hstep
    · exact hrestarts hstep
    · cases hstep

theorem cursors_ordered_of_follower {node : RaftNode} (hrole : node.role = .follower) :
    node.CursorsOrdered strict := by
  intro hleader
  rw [hrole] at hleader
  cases hleader

theorem FixedRun.ordered (hrun : FixedRun strict deployment run) (hhost : host ∈ deployment.hosts)
    (k : Nat) : ((run k).service host).raftNode.CursorsOrdered strict := by
  refine hrun.invariant (I := fun cluster => (cluster.service host).raftNode.CursorsOrdered strict)
    (fun cluster hinitial => ?_) (fun cluster following hnext hordered => ?_) k
  · exact cursors_ordered_of_follower
      (RaftNode.construct_follows (RaftKVService.construct_node (hinitial.2 host hhost)))
  · rcases hnext.tends with htends | hfollower
    · exact htends.ordered hordered
    · exact cursors_ordered_of_follower hfollower

/-- While a service leads a term no match index falls. -/
theorem FixedRun.match_grown (hrun : FixedRun strict deployment run) {j d : Nat}
    (hleads : ∀ i, j ≤ i → i ≤ j + d → ((run i).service host).raftNode.role = .leader ∧
      ((run i).service host).raftNode.currentTerm =
        ((run j).service host).raftNode.currentTerm) :
    RaftNode.MatchGrown ((run j).service host).raftNode ((run (j + d)).service host).raftNode := by
  induction d with
  | zero => exact fun peer matched hmatched => ⟨matched, hmatched, le_rfl⟩
  | succ d ih =>
    have hgrown := ih fun i hfrom hto => hleads i hfrom (hto.trans (Nat.le_succ _))
    obtain ⟨hbefore, hterm⟩ := hleads (j + d) (Nat.le_add_right _ _) (Nat.le_succ _)
    obtain ⟨hafter, hlater⟩ := hleads (j + d + 1) (Nat.le_add_right j (d + 1)) le_rfl
    show RaftNode.MatchGrown _ ((run (j + d + 1)).service host).raftNode
    rcases hrun.next (j + d) with hsame | hnext
    · rw [hsame]
      exact hgrown
    · rcases hnext.tends with htends | hfollower
      · rcases htends.leads hafter (hlater.trans hterm.symm) with hcandidate | ⟨-, hmore⟩
        · rw [hbefore] at hcandidate
          cases hcandidate
        · exact hgrown.trans hmore
      · rw [hafter] at hfollower
        cases hfollower

/-- In every run of fixed membership the match index of a peer lies inside the leader's log, the next
index is at most one past the log, and no match index falls during a leadership; and if no rejection
leads a cursor back to what its peer has acknowledged, the match index lies below the next index. -/
theorem cursors_consistent (hrun : Run deployment ServiceCall.Fixed run)
    (hhost : host ∈ deployment.hosts) :
    (∀ k, ((run k).service host).raftNode.CursorsOrdered False) ∧
      (∀ j k, j ≤ k →
        (∀ i, j ≤ i → i ≤ k → ((run i).service host).raftNode.role = .leader ∧
          ((run i).service host).raftNode.currentTerm =
            ((run j).service host).raftNode.currentTerm) →
        RaftNode.MatchGrown ((run j).service host).raftNode ((run k).service host).raftNode) ∧
      (FixedRun True deployment run →
        ∀ k, ((run k).service host).raftNode.CursorsOrdered True) := by
  have hfixed : FixedRun False deployment run := by
    refine ⟨hrun.initial, fun k => (hrun.next k).imp_right ?_⟩
    rintro ⟨event, hwithin, hstep⟩
    exact ⟨event, ⟨hwithin, False.elim⟩, hstep⟩
  refine ⟨fun k => hfixed.ordered hhost k, fun j k hle hleads => ?_,
    fun hfresh k => hfresh.ordered hhost k⟩
  have hspan : j + (k - j) = k := Nat.add_sub_cancel' hle
  rw [← hspan] at hleads ⊢
  exact hfixed.match_grown hleads

end ServiceCluster

/-! ### A rejection that arrives twice -/

/-- Three services that send one entry at a time. -/
def slowServices : ServiceDeployment where
  hosts := {1, 2, 3}
  config host :=
    { nodeId := host, peers := [1, 2, 3].filter (· != host), maximumEntriesPerAppend := 1 }
  sendsSnapshots _ := false

/-- Service 3 has no entry 1 and rejects entry 2 of term 3. -/
def entryRejected : ServiceEvent :=
  delivered 3 1 (.appendEntriesResponse
    { term := 3, success := false, requestPreviousLogIndex := 1, requestEntryCount := 1
      matchIndex := 0, conflictIndex := 1 })

/-- Service 1 is elected with the vote of service 2 and steps down when service 3 stands, before it
sends its entry. It is elected again, service 3 rejects its second entry and acknowledges the
first one. -/
def acknowledgedEntry : List ServiceEvent :=
  [.run (.call 1 (.tick 300)),
    delivered 1 2 (.requestVote
      { term := 1, candidateId := 1, lastLogIndex := 0, lastLogTerm := 0 }),
    delivered 2 1 (.requestVoteResponse { term := 1, electionTerm := 1, voteGranted := true }),
    .run (.call 3 (.tick 300)),
    .run (.call 3 (.tick 300)),
    delivered 3 1 (.requestVote
      { term := 2, candidateId := 3, lastLogIndex := 0, lastLogTerm := 0 }),
    .run (.call 1 (.tick 300)),
    delivered 1 2 (.requestVote
      { term := 3, candidateId := 1, lastLogIndex := 1, lastLogTerm := 1 }),
    delivered 2 1 (.requestVoteResponse { term := 3, electionTerm := 3, voteGranted := true }),
    delivered 1 3 (.appendEntries
      { term := 3, leaderId := 1, previousLogIndex := 1, previousLogTerm := 1
        entries := [{ index := 2, term := 3, type := .noOp, command := [] }], leaderCommit := 0 }),
    entryRejected,
    delivered 1 3 (.appendEntries
      { term := 3, leaderId := 1, previousLogIndex := 0, previousLogTerm := 0
        entries := [{ index := 1, term := 1, type := .noOp, command := [] }], leaderCommit := 0 }),
    delivered 3 1 (.appendEntriesResponse
      { term := 3, success := true, requestPreviousLogIndex := 0, requestEntryCount := 1
        matchIndex := 1, conflictIndex := 2 })]

/-- The clusters of some events from the start on. -/
def slowRun (events : List ServiceEvent) (k : Nat) : ServiceCluster :=
  EventRun.execute (ServiceCluster.step slowServices) (events.take k)
    (ServiceCluster.boot slowServices)

theorem slow_services_initial : (ServiceCluster.boot slowServices).Initial slowServices :=
  ServiceCluster.boot_initial (forall_three_hosts (by decide +kernel) (by decide +kernel)
    (by decide +kernel))

theorem slow_services_fixed : slowServices.FixedMembership := by
  constructor <;> refine forall_three_hosts ?_ ?_ ?_ <;> decide +kernel

/-- The run up to the acknowledgement is fresh, so service 1 keeps the cursors of service 3 in
order. -/
theorem acknowledged_entry_consistent :
    ((slowRun acknowledgedEntry 13).service 1).raftNode.role = .leader ∧
      ((slowRun acknowledgedEntry 13).service 1).raftNode.matchIndex 3 = some 1 ∧
      ((slowRun acknowledgedEntry 13).service 1).raftNode.CursorsOrdered True ∧
      RaftNode.MatchGrown ((slowRun acknowledgedEntry 9).service 1).raftNode
        ((slowRun acknowledgedEntry 13).service 1).raftNode := by
  have hfixed : ∀ event ∈ acknowledgedEntry, ServiceEvent.Within ServiceCall.Fixed event := by
    simp [acknowledgedEntry, entryRejected, delivered, ServiceEvent.Within, ServiceCall.Fixed]
  have hchecked : EventRun.checked (ServiceCluster.step slowServices) ServiceCluster.fresh
      acknowledgedEntry (ServiceCluster.boot slowServices) = true := by
    decide +kernel
  have hfresh : ServiceCluster.FixedRun True slowServices (slowRun acknowledgedEntry) :=
    EventRun.Run.of_steps slow_services_initial fun k hk =>
      ⟨hfixed _ (List.getElem_mem hk), fun _ => EventRun.check_of_checked hchecked k hk⟩
  obtain ⟨-, hgrown, hordered⟩ := ServiceCluster.cursors_consistent
    (EventRun.Run.of_events slow_services_initial hfixed)
    (by decide : (1 : NodeId) ∈ slowServices.hosts)
  refine ⟨by decide +kernel, by decide +kernel, hordered hfresh 13, hgrown 9 13 (by omega) ?_⟩
  intro i hfrom hto
  obtain rfl | rfl | rfl | rfl | rfl : i = 9 ∨ i = 10 ∨ i = 11 ∨ i = 12 ∨ i = 13 := by omega
  all_goals exact ⟨by decide +kernel, by decide +kernel⟩

/-- When the rejection arrives a second time, it passes the filter of service 1, whose next index
for service 3 falls back to the index that service 3 has acknowledged. -/
theorem repeated_rejection :
    slowServices.FixedMembership ∧
      ServiceCluster.Run slowServices ServiceCall.Fixed
        (slowRun (acknowledgedEntry ++ [entryRejected])) ∧
      ((slowRun (acknowledgedEntry ++ [entryRejected]) 14).service 1).raftNode.role = .leader ∧
      ((slowRun (acknowledgedEntry ++ [entryRejected]) 14).service 1).raftNode.matchIndex 3 =
        some 1 ∧
      ((slowRun (acknowledgedEntry ++ [entryRejected]) 14).service 1).raftNode.nextIndex 3 =
        some 1 ∧
      ¬ ((slowRun (acknowledgedEntry ++ [entryRejected]) 14).service 1).raftNode.CursorsOrdered
        True := by
  have hrole : ((slowRun (acknowledgedEntry ++ [entryRejected]) 14).service 1).raftNode.role =
      .leader := by decide +kernel
  have hmatch : ((slowRun (acknowledgedEntry ++ [entryRejected]) 14).service 1).raftNode.matchIndex
      3 = some 1 := by decide +kernel
  have hnext : ((slowRun (acknowledgedEntry ++ [entryRejected]) 14).service 1).raftNode.nextIndex
      3 = some 1 := by decide +kernel
  refine ⟨slow_services_fixed, EventRun.Run.of_events slow_services_initial ?_, hrole, hmatch,
    hnext, fun hordered => ?_⟩
  · simp [acknowledgedEntry, entryRejected, delivered, ServiceEvent.Within, ServiceCall.Fixed]
  · have horders := hordered hrole 3
    rw [hnext, hmatch] at horders
    cases horders with
    | some horders => exact Nat.lt_irrefl 1 (horders.2.1 trivial)

end DistributedKV
