import DistributedKV.Raft.Node.Roster

/-!
# The cursors of a leader

A leader fills its two cursor maps when it is elected and when it adds a learner, and nowhere
else. The peers always match the configurations, but a change that was in the log before the
election can bring a peer into force later that has no cursors. It cannot when a node that may be
elected knows the members of all the changes it has not applied (`peers_match_and_cursors`).
-/

namespace DistributedKV

open Barrier List

namespace RaftNode

variable {node : RaftNode} {operation : Operation}

/-- An id has an entry in both cursor maps. -/
def HasCursors (node : RaftNode) (id : NodeId) : Prop :=
  (node.nextIndex id).isSome = true ∧ (node.matchIndex id).isSome = true

/-- A leader has cursors for every peer and every learner. -/
def CursorsComplete (node : RaftNode) : Prop :=
  node.role = .leader → ∀ id ∈ node.config.peers ++ node.config.learners, node.HasCursors id

/-- The operation can end with the node as a new leader. -/
def MayLead (node : RaftNode) : Operation → Prop
  | .tick _ => node.role ≠ .leader
  | .handleRequestVoteResponse _ _ => node.role = .candidate
  | _ => False

/-- The members of the changes that are not applied are members already. -/
def Covered (node : RaftNode) : Prop :=
  ∀ index change, node.Unapplied index change →
    ∀ id ∈ configurationMemberIds change.targetConfig, node.isMember id = true

/-- A node that may be elected has applied or knows all changes in its log. -/
def Prepared (node : RaftNode) (operation : Operation) : Prop :=
  node.MayLead operation → node.Covered

/-- The cursors a leader has and those that the changes in its log will ask for. -/
structure Tracking (node : RaftNode) : Prop extends Rostered node where
  complete : node.CursorsComplete
  targets : node.role = .leader → ∀ index change, node.Unapplied index change →
    ∀ id ∈ configurationMemberIds change.targetConfig, id ≠ node.config.nodeId →
      node.HasCursors id

theorem not_may_lead_of_leader (hrole : node.role = .leader) : ¬ node.MayLead operation := by
  cases operation <;> simp [MayLead, hrole]

theorem may_lead_of_candidate (helects : operation.Elects) (hrole : node.role = .candidate) :
    node.MayLead operation := by
  cases operation <;> simp_all [MayLead, Operation.Elects]

theorem not_may_lead_of_snapshot (hsnapshot : operation.Snapshot) : ¬ node.MayLead operation := by
  cases operation <;> simp_all [MayLead, Operation.Snapshot]

variable {id : NodeId}

theorem Tracking.of_member (h : node.Tracking) (hrole : node.role = .leader)
    (hid : id ∈ node.clusterIds ∨ id ∈ node.jointIds) (hself : id ≠ node.config.nodeId) :
    node.HasCursors id :=
  h.complete hrole id (mem_append_left _ ((h.peers.mem id).mpr ⟨hid, hself⟩))

/-- A leader has cursors for every change that comes. -/
theorem Tracking.of_origin (h : node.Tracking) (hrole : node.role = .leader) {index : Nat}
    {change : ConfChangeEntry} (horigin : Origin operation node index change)
    (hid : id ∈ configurationMemberIds change.targetConfig) (hself : id ≠ node.config.nodeId) :
    node.HasCursors id := by
  cases horigin with
  | held hheld => exact h.targets hrole index change hheld id hid hself
  | requested hfollower _ =>
    rw [hrole] at hfollower
    cases hfollower
  | exit hindex _ hstable htarget =>
    refine h.of_member hrole (.inr ?_) hself
    rw [jointIds, htarget]
    exact hid
  | proposed cluster proposal hindex hproposable hjoint htarget =>
    rw [htarget] at hid
    rcases hproposable.member_of_target hid with hcluster | ⟨-, hlearner⟩
    · exact h.of_member hrole (.inl hcluster) hself
    · exact h.complete hrole id (mem_append_right _ hlearner)

theorem Tracking.of_joint_peer (h : node.Tracking) (hrole : node.role = .leader)
    {cluster target : ClusterConfiguration} (hcluster : node.clusterConfig = some cluster)
    (htarget : ∀ id ∈ configurationMemberIds target, id ≠ node.config.nodeId →
      node.HasCursors id)
    (hid : id ∈ (jointMemberIds cluster target).filter (· != node.config.nodeId)) :
    node.HasCursors id := by
  rw [mem_filter, mem_joint_member_ids, bne_iff_ne] at hid
  obtain ⟨hid | hid, hself⟩ := hid
  · refine h.of_member hrole (.inl ?_) hself
    rw [clusterIds, hcluster]
    exact hid
  · exact htarget id hid hself

theorem Tracking.of_proposal (h : node.Tracking) {cluster : ClusterConfiguration}
    {change : ConfChangeEntry} (hproposable : node.Proposable cluster change) :
    ∀ id ∈ (node.proposeJoint cluster change).config.peers ++
      (node.proposeJoint cluster change).config.learners, node.HasCursors id := by
  intro id hid
  rcases mem_append.mp hid with hpeer | hlearner
  · have horigin : Origin (.proposeConfChange change.type change.member change.operationId) node
        (node.log.lastIndex + 1) change :=
      .proposed cluster change rfl hproposable hproposable.joint rfl
    exact h.of_joint_peer hproposable.role hproposable.clusterConfig
      (fun id => h.of_origin hproposable.role horigin) hpeer
  · exact h.complete hproposable.role id (mem_append_right _ (mem_filter.mp hlearner).1)

theorem has_cursors_takeover (hid : id ∈ node.config.peers ++ node.config.learners) :
    node.takeover.HasCursors id := by
  have hcursor : ∀ value, (node.initialCursors value id).isSome = true := by
    intro value
    rw [initialCursors, if_pos hid]
    rfl
  exact ⟨hcursor _, hcursor _⟩

theorem mem_of_is_member (hmember : node.isMember id = true) (hself : id ≠ node.config.nodeId) :
    id ∈ node.config.peers ++ node.config.learners := by
  simpa [isMember, hself] using hmember

theorem has_cursors_update {learner : NodeId} {next matched : Nat} {added : RaftNode}
    (hnext : added.nextIndex = Function.update node.nextIndex learner (some next))
    (hmatch : added.matchIndex = Function.update node.matchIndex learner (some matched))
    (h : id = learner ∨ node.HasCursors id) : added.HasCursors id := by
  rw [HasCursors, hnext, hmatch]
  by_cases hid : id = learner
  · subst hid
    simp
  · rw [Function.update_of_ne hid, Function.update_of_ne hid]
    exact h.resolve_left hid

theorem Tracking.move (h : node.Tracking) (hrole : node.role = .leader)
    {next matched : NodeId → Option Nat}
    (hroster : Rostered { node with nextIndex := next, matchIndex := matched })
    (hkeeps : ∀ id, node.HasCursors id →
      ({ node with nextIndex := next, matchIndex := matched } : RaftNode).HasCursors id) :
    Tracking { node with nextIndex := next, matchIndex := matched } :=
  ⟨hroster, fun _ id hid => hkeeps id (h.complete hrole id hid),
    fun _ index change hchange id hid hself =>
      hkeeps id (h.targets hrole index change hchange id hid hself)⟩

/-- What comes before a commit keeps the cursors. -/
theorem Prepare.tracking {first second : RaftNode} (hstep : Prepare operation first second)
    (h : first.Tracking ∧ first.Prepared operation) :
    second.Tracking ∧ second.Prepared operation := by
  obtain ⟨htracking, hprepared⟩ := h
  have hroster := (Micro.prepare hstep).rostered htracking.toRostered
  have horigin : ∀ index change, second.Unapplied index change →
      Origin operation first index change := fun _ _ => (Micro.prepare hstep).origin
  cases hstep with
  | stepDown term leader hmessage hterm =>
    have hrole : (first.becomeFollower term leader).role = .follower := rfl
    refine ⟨⟨hroster, fun hleader => ?_, fun hleader => ?_⟩, fun hmay => ?_⟩
    · rw [hrole] at hleader
      cases hleader
    · rw [hrole] at hleader
      cases hleader
    · cases operation <;> simp_all [MayLead, Operation.Elapses]
  | stand helapses hrole hlearner =>
    refine ⟨⟨hroster, nofun, nofun⟩, fun _ => hprepared ?_⟩
    cases operation <;> simp_all [MayLead, Operation.Elapses]
  | takeOver helects hrole hquorum =>
    -- The changes in the log are covered, since the candidate was prepared.
    have hcovered := hprepared (may_lead_of_candidate helects hrole)
    refine ⟨⟨hroster, fun _ id hid => ?_, fun _ index change hchange id hid hself => ?_⟩,
      fun hmay => absurd hmay (not_may_lead_of_leader rfl)⟩
    · exact has_cursors_takeover hid
    · have hheld : first.Unapplied index change := unapplied_append hchange (by decide) rfl rfl
      exact has_cursors_takeover (mem_of_is_member (hcovered index change hheld id hid) hself)
  | credit peer index next matched hcredits hrole hnext hmatch hindex =>
    exact ⟨htracking.move hrole hroster fun id h => has_cursors_update rfl rfl (.inr h),
      hprepared⟩
  | backUp source response next hresponse hrejected hrole hnext =>
    refine ⟨htracking.move hrole hroster fun id h => ⟨?_, h.2⟩, hprepared⟩
    by_cases hid : id = source
    · subst hid
      simp
    · simpa [Function.update_of_ne hid] using h.1
  | appendExit exit encoded helects hrole hfresh hexit hencoded =>
    exact ⟨⟨hroster, htracking.complete, fun _ index change hchange id =>
      htracking.of_origin hrole (horigin index change hchange)⟩,
      fun hmay => absurd hmay (not_may_lead_of_leader hrole)⟩
  | appendCommand command hrole hoperation =>
    exact ⟨⟨hroster, htracking.complete, fun _ index change hchange id =>
      htracking.of_origin hrole (horigin index change hchange)⟩,
      fun hmay => absurd hmay (not_may_lead_of_leader hrole)⟩
  | proposeUnencoded cluster change error hoperation hproposable hencoded =>
    exact ⟨⟨hroster, fun _ => htracking.of_proposal hproposable, htracking.targets⟩,
      fun hmay => absurd hmay (not_may_lead_of_leader hproposable.role)⟩
  | proposeChange cluster change encoded hoperation hproposable hencoded =>
    exact ⟨⟨hroster, fun _ => htracking.of_proposal hproposable, fun _ index change hchange id =>
      htracking.of_origin hproposable.role (horigin index change hchange)⟩,
      fun hmay => absurd hmay (not_may_lead_of_leader hproposable.role)⟩
  | merge source request log hoperation hrole hterm hprevious hlog =>
    subst hoperation
    obtain ⟨-, hkept, -⟩ := { first with log }.rollback_pending_frame first.pendingChange
    have hfollower : _ ≠ Role.leader := fun hleader => by
      cases (hkept.trans hrole).symm.trans hleader
    exact ⟨⟨hroster, fun hleader => absurd hleader hfollower,
      fun hleader => absurd hleader hfollower⟩, nofun⟩
  | join cluster entry change hrole happended hjoint hcluster =>
    obtain ⟨source, request, rfl, -⟩ := happended
    have hfollower : first.role ≠ .leader := fun hleader => by cases hrole.symm.trans hleader
    exact ⟨⟨hroster, fun hleader => absurd hleader hfollower,
      fun hleader => absurd hleader hfollower⟩, nofun⟩
  | fault change hcluster _ => exact absurd hcluster htracking.cluster_ne_none
  | addLearner learner hoperation hrole hzero hmember =>
    subst hoperation
    refine ⟨⟨hroster, fun _ id hid => has_cursors_update rfl rfl ?_,
      fun _ index change hchange id hid hself => has_cursors_update rfl rfl (.inr
        (htracking.targets hrole index change hchange id hid hself))⟩, nofun⟩
    rw [← append_assoc, mem_append, mem_singleton] at hid
    exact hid.symm.imp_right (htracking.complete hrole id)
  | cutLog log commit hsnapshot hcut =>
    exact ⟨⟨hroster, htracking.complete, fun hrole index change hchange id =>
      htracking.of_origin hrole (horigin index change hchange)⟩,
      fun hmay => absurd hmay (not_may_lead_of_snapshot hsnapshot)⟩
  | save hsave =>
    cases hsave
    exact ⟨⟨hroster, htracking.complete, htracking.targets⟩, hprepared⟩
  | _ => exact ⟨⟨hroster, htracking.complete, htracking.targets⟩, hprepared⟩

theorem Commit.tracking {first second : RaftNode} (hstep : Commit operation first second)
    (h : first.Tracking) : second.Tracking := by
  have hroster := (Micro.commit hstep).rostered h.toRostered
  cases hstep <;> exact ⟨hroster, h.complete, h.targets⟩

/-- What is put into force has its cursors already. -/
theorem Apply.tracking {first second : RaftNode} (hstep : Apply first second)
    (h : first.Tracking) : second.Tracking := by
  have hmicro : Micro (.tick 0) first second := .apply hstep
  have hroster := hmicro.rostered h.toRostered
  have horigin : ∀ index change, second.Unapplied index change →
      Origin (.tick 0) first index change := fun _ _ => hmicro.origin
  cases hstep with
  | joint cluster change hcommitted hjoint hcluster =>
    refine ⟨hroster, fun hrole id hid => ?_, h.targets⟩
    rcases mem_append.mp hid with hpeer | hlearner
    · exact h.of_joint_peer hrole hcluster (h.targets hrole _ _ hcommitted.unapplied) hpeer
    · exact h.complete hrole id (mem_append_right _ hlearner)
  | stable change hcommitted hjoint =>
    refine ⟨hroster, fun hrole id hid => ?_, h.targets⟩
    rcases mem_append.mp hid with hpeer | hlearner
    · obtain ⟨hid, hself⟩ := mem_filter.mp hpeer
      exact h.targets hrole _ _ hcommitted.unapplied id hid (bne_iff_ne.mp hself)
    · exact h.complete hrole id (mem_append_right _ hlearner)
  | fault change hcluster _ => exact absurd hcluster h.cluster_ne_none
  | appendExit exit encoded hrole hbehind hexit hencoded =>
    exact ⟨hroster, h.complete, fun _ index change hchange id =>
      h.of_origin hrole (horigin index change hchange)⟩
  | advance hlater =>
    exact ⟨hroster, h.complete, fun hrole index change hchange id =>
      h.of_origin hrole (horigin index change hchange)⟩
  | save hsave =>
    cases hsave
    exact ⟨hroster, h.complete, h.targets⟩

theorem Tracking.after (h : node.Tracking) (hprepared : node.Prepared operation) :
    (node.after operation).Tracking :=
  (phases_after operation node).reaches (fun _ _ => Prepare.tracking) (fun _ => And.left)
    (fun _ _ hcommit h => hcommit.tracking h.1) (fun _ _ => Apply.tracking) ⟨h, hprepared⟩

/-- In every run the peers are distinct and match the configurations; and a leader has cursors
for all of them and for its learners, in every run whose nodes are prepared when they may be
elected. -/
theorem peers_match_and_cursors (run : Nat → RaftNode) :
    (Lifetime (fun _ _ => True) (fun _ _ => True) run → ∀ k, (run k).PeersMatch) ∧
      (Lifetime (fun _ _ => True) Prepared run → ∀ k, (run k).CursorsComplete) := by
  refine ⟨fun hrun k => ?_, fun hrun k => ?_⟩
  · have hroster : (run k).Rostered := hrun.invariant (fun _ _ _ _ => Launched.rostered)
      (fun node operation _ => invariant_after fun _ _ => Micro.rostered) k
    exact hroster.peers
  · have htracking : (run k).Tracking := by
      refine hrun.invariant (fun config state node _ hlaunched => ?_)
        (fun node operation hprepared h => h.after hprepared) k
      have hfollower : node.role ≠ .leader := fun hleader => by
        cases hlaunched.role.symm.trans hleader
      exact ⟨hlaunched.rostered, fun hleader => absurd hleader hfollower,
        fun hleader => absurd hleader hfollower⟩
    exact htracking.complete

/-- A follower of `{1, 2, 3}` gets the addition of node 4 with its exit, and the beginning of the
addition of node 5, of which only the first is committed. It is elected, and two acknowledgements
commit the second addition. -/
def laggingElection : List Operation :=
  [.handleAppendEntries 1
      { term := 1, leaderId := 1, previousLogIndex := 0, previousLogTerm := 0
        entries :=
          [plainChange 1 1 .addNode true 4 (plainCluster 2 [1, 2, 3, 4]),
            plainChange 2 1 .addNode false 4 (plainCluster 2 [1, 2, 3, 4]),
            plainChange 3 1 .addNode true 5 (plainCluster 3 [1, 2, 3, 4, 5])]
        leaderCommit := 2, readContext := 0 },
    .tick 300, .handleRequestVoteResponse 3 (granted 2), .handleRequestVoteResponse 4 (granted 2),
    .handleAppendEntriesResponse 3 (matchedUpTo 2 4),
    .handleAppendEntriesResponse 4 (matchedUpTo 2 4)]

/-- The leader has node 5 as a peer, without cursors. -/
theorem late_peer_without_cursors :
    ∃ node, construct { nodeId := 2, bootstrapCluster := some (plainCluster 1 [1, 2, 3]) } none =
        .ok node ∧
      Lifetime (fun _ _ => True) (fun _ _ => True)
        (fun k => node.afterAll (laggingElection.take k)) ∧
      ¬ (node.afterAll laggingElection).CursorsComplete := by
  have houtcome : outcome { nodeId := 2, bootstrapCluster := some (plainCluster 1 [1, 2, 3]) }
      laggingElection (fun node => (node.role, node.config.peers, (node.nextIndex 5).isSome)) =
      some (true, .leader, [1, 3, 4, 5], false) := by
    decide +kernel
  obtain ⟨node, hnode, hrun, hview⟩ := lifetime_of_outcome houtcome
  simp only [Prod.mk.injEq] at hview
  obtain ⟨hrole, hpeers, hcursor⟩ := hview
  refine ⟨node, hnode, hrun, fun hcomplete => ?_⟩
  have hfive := hcomplete hrole 5 (by simp [hpeers])
  rw [HasCursors, hcursor] at hfive
  cases hfive.1

/-- Node 2 of `{1, 2, 3}` gets the entry that adds node 4, is elected by both majorities, appends
the exit and hears that nodes 3 and 4 hold it. -/
def electedInAddition : List Operation :=
  [.handleAppendEntries 1
      { term := 1, leaderId := 1, previousLogIndex := 0, previousLogTerm := 0
        entries := [plainChange 1 1 .addNode true 4 (plainCluster 2 [1, 2, 3, 4])]
        leaderCommit := 0, readContext := 0 },
    .tick 300, .handleRequestVoteResponse 3 (granted 2), .handleRequestVoteResponse 4 (granted 2),
    .handleAppendEntriesResponse 3 (matchedUpTo 2 3),
    .handleAppendEntriesResponse 4 (matchedUpTo 2 3)]

/-- The node is prepared at every operation, as node 4 is a member of the joint configuration in
force, and leads the four nodes with a cursor for each of the others. -/
theorem cursors_of_elected_in_addition :
    ∃ run : Nat → RaftNode, Lifetime (fun _ _ => True) Prepared run ∧
      (run 3).log.lastIndex = 1 ∧ (run 3).configurationAppliedIndex = 0 ∧
      (run 6).role = .leader ∧ (run 6).config.peers = [1, 3, 4] ∧ (run 6).jointIds = [] ∧
      (run 6).PeersMatch ∧ (run 6).CursorsComplete := by
  have hstates : ∀ k, k < 6 → outcome
      { nodeId := 2, bootstrapCluster := some (plainCluster 1 [1, 2, 3]) }
      (electedInAddition.take k)
      (fun node => (node.log.entries.filterMap changeOf).all fun change =>
        (configurationMemberIds change.targetConfig).all node.isMember) = some (true, true) := by
    decide +kernel
  have hvoting : outcome { nodeId := 2, bootstrapCluster := some (plainCluster 1 [1, 2, 3]) }
      (electedInAddition.take 3) (fun node => (node.log.lastIndex, node.configurationAppliedIndex)) =
      some (true, 1, 0) := by
    decide +kernel
  have hlast : outcome { nodeId := 2, bootstrapCluster := some (plainCluster 1 [1, 2, 3]) }
      (electedInAddition.take 6) (fun node => (node.role, node.config.peers, node.jointIds)) =
      some (true, .leader, [1, 3, 4], []) := by
    decide +kernel
  obtain ⟨node, hnode, -, hview⟩ := lifetime_of_outcome hlast
  obtain ⟨happended, happlied⟩ := Prod.mk.inj (view_of_outcome hnode hvoting).2
  simp only [Prod.mk.injEq] at hview
  have hcluster := (view_of_outcome hnode hlast).1
  have hstarts : Starts (fun _ _ => True) none node := ⟨_, trivial, hnode, hcluster⟩
  have hrun : Lifetime (fun _ _ => True) Prepared
      (fun k => node.afterAll (electedInAddition.take k)) := by
    refine Lifetime.of_operations hstarts ?_
    intro k operation hoperation _ index change hchange
    have hk : k < 6 := (List.getElem?_eq_some_iff.mp hoperation).1
    have hmembers := List.all_eq_true.mp (view_of_outcome hnode (hstates k hk)).2
    exact all_eq_true.mp (hmembers change hchange.held)
  refine ⟨_, hrun, happended, happlied, hview.1, hview.2.1, hview.2.2, ?_,
    (peers_match_and_cursors _).2 hrun 6⟩
  exact (peers_match_and_cursors _).1 (Lifetime.of_operations hstarts fun _ _ _ => trivial) 6

end RaftNode

end DistributedKV
