import DistributedKV.Raft.Node.Cursors

/-!
# Leading as a voter

A node that stands for election or leads should be a member of a configuration in force. A leader
may not propose its own removal, but a node that is being removed can be elected between the joint
entry and the exit entry; it then commits its own removal and goes on leading. Leading is left to
voters in the runs in which a node stands only as a member and commits, as a leader, no change that
leaves it out (`leads_only_as_voter`).
-/

namespace DistributedKV

open Barrier

namespace RaftNode

variable {node after : RaftNode} {operation : Operation}

/-- The node is a member of a configuration in force. -/
def InForce (node : RaftNode) : Prop :=
  node.config.nodeId ∈ node.clusterIds ∨ node.config.nodeId ∈ node.jointIds

/-- A candidate or a leader is a member of a configuration in force. -/
def LeadsAsVoter (node : RaftNode) : Prop := node.role ≠ .follower → node.InForce

/-- The changes up to an index keep the node: the exits have it as a member, and so have the joint
configurations as long as the stable one does not. -/
def Retained (node : RaftNode) (bound : Nat) : Prop :=
  ∀ index change, index ≤ bound → node.Unapplied index change →
    change.joint = false ∨ node.config.nodeId ∉ node.clusterIds →
    node.config.nodeId ∈ configurationMemberIds change.targetConfig

/-- A node that would stand for election is a member, and a leader that can commit, old or new, is
kept by all changes in its log. -/
structure Entitled (node : RaftNode) (operation : Operation) : Prop where
  stands : operation.Elapses → node.role ≠ .leader → node.config.learner = false → node.InForce
  commits : node.role = .leader → operation.Advances → node.Retained node.log.lastIndex
  elected : node.MayLead operation → node.Retained node.log.lastIndex

/-- A new leader in a joint configuration without it: it cannot commit on its own. -/
structure Powerless (node : RaftNode) : Prop where
  fresh : ∀ id matched, node.matchIndex id = some matched → matched = 0
  joint : ∃ joint, node.jointConfig = some joint ∧
    node.config.nodeId ∉ configurationMemberIds joint

/-! ## Before a commit -/

/-- The state of a node that prepares an operation. -/
structure Leading (operation : Operation) (node : RaftNode) : Prop extends Rostered node,
    Entitled node operation where
  voter : node.LeadsAsVoter
  fresh : node.role = .leader → operation.Elects →
    node.Retained node.log.lastIndex ∨ node.Powerless

theorem Unapplied.le_last_index {index : Nat} {change : ConfChangeEntry}
    (h : node.Unapplied index change) : index ≤ node.log.lastIndex := by
  obtain ⟨-, entry, hentry, -⟩ := h
  exact ((node.log.entry_at_is_some index).mp (by simp [hentry])).2

theorem Retained.more {bound : Nat} (h : node.Retained node.log.lastIndex)
    (hself : after.config.nodeId = node.config.nodeId)
    (hcluster : after.clusterConfig = node.clusterConfig)
    (hsource : ∀ index change, after.Unapplied index change → node.Unapplied index change ∨
      node.config.nodeId ∈ configurationMemberIds change.targetConfig) :
    after.Retained bound := by
  intro index change hbound hchange hkind
  rw [hself, clusterIds, hcluster] at hkind
  rw [hself]
  rcases hsource index change hchange with hheld | hmember
  · exact h index change hheld.le_last_index hheld hkind
  · exact hmember

theorem not_advances_of_elects (helects : operation.Elects) : ¬ operation.Advances := by
  cases operation <;> simp_all [Operation.Elects, Operation.Advances]

/-- A powerless leader has no quorum for anything new. -/
theorem Powerless.no_quorum (h : node.Powerless) (hroster : node.Rostered) {commit : Nat}
    (hlater : 0 < commit) : node.hasReplicationQuorum commit = false := by
  obtain ⟨cluster, hcluster, -⟩ := hroster.cluster
  obtain ⟨joint, hjoint, houtside⟩ := h.joint
  have hcount : countMembers (node.replicated commit) joint = 0 := by
    rw [countMembers, List.length_eq_zero_iff, List.filter_eq_nil_iff]
    intro member hmember
    have hother : member.nodeId ≠ node.config.nodeId := fun hsame =>
      houtside (hsame ▸ List.mem_map_of_mem hmember)
    rw [replicated, if_neg hother]
    cases hmatched : node.matchIndex member.nodeId with
    | none => simp
    | some matched =>
      rw [h.fresh _ matched hmatched]
      simpa using hlater.ne'
  rw [hasReplicationQuorum, hcluster, hjoint]
  simp only [hcount, Bool.and_eq_false_iff]
  exact .inr (decide_eq_false (by rw [LeaderElection.quorumSize]; omega))

theorem Leading.stable_of_proposable (h : node.Leading operation) {cluster : ClusterConfiguration}
    {change : ConfChangeEntry} (hproposable : node.Proposable cluster change) :
    node.config.nodeId ∈ node.clusterIds := by
  refine (h.voter (by rw [hproposable.role]; decide)).resolve_right fun hjoint => ?_
  rw [jointIds, hproposable.jointConfig] at hjoint
  exact absurd hjoint List.not_mem_nil

/-- What comes before a commit leaves leading to voters. -/
theorem Prepare.leading {first second : RaftNode} (hstep : Prepare operation first second)
    (h : first.Leading operation) : second.Leading operation := by
  have hroster := (Micro.prepare hstep).rostered h.toRostered
  cases hstep with
  | stepDown term leader hmessage hterm =>
    have hrole : (first.becomeFollower term leader).role = .follower := rfl
    refine ⟨hroster, ⟨fun helapses => absurd helapses hmessage, ?_, ?_⟩, ?_, ?_⟩
    · intro hleads
      cases hrole.symm.trans hleads
    · intro hmay
      cases operation <;> simp_all [MayLead, Operation.Elapses]
    · exact fun hother => absurd hrole hother
    · intro hleads
      cases hrole.symm.trans hleads
  | stand helapses hrole hlearner =>
    have hmember := h.stands helapses hrole hlearner
    have hmay : first.MayLead operation := by
      cases operation <;> simp_all [MayLead, Operation.Elapses]
    refine ⟨hroster, ⟨fun _ _ _ => hmember, ?_, fun _ => h.elected hmay⟩, fun _ => hmember, ?_⟩
    · intro hleads
      cases hleads
    · intro hleads
      cases hleads
  | takeOver helects hrole hquorum =>
    have hretained : first.takeover.Retained first.takeover.log.lastIndex :=
      (h.elected (may_lead_of_candidate helects hrole)).more rfl rfl
        (fun _ _ hchange => .inl (unapplied_append hchange (by decide) rfl rfl))
    exact ⟨hroster, ⟨fun _ hother => absurd rfl hother, fun _ _ => hretained,
      fun _ => hretained⟩, fun _ => h.voter (by rw [hrole]; decide), fun _ _ => .inl hretained⟩
  | appendExit exit encoded helects hrole hfresh hexit hencoded =>
    obtain ⟨-, hjoint, -⟩ := make_joint_exit_entry_spec hexit
    refine ⟨hroster, ⟨fun _ hother => absurd hrole hother,
      fun _ hadvances => absurd hadvances (not_advances_of_elects helects),
      fun hmay => absurd hmay (not_may_lead_of_leader hrole)⟩, h.voter, fun _ _ => ?_⟩
    by_cases hmember : first.config.nodeId ∈ configurationMemberIds exit.targetConfig
    · refine (h.fresh hrole helects).imp (fun hretained => hretained.more rfl rfl ?_)
        fun hless => ⟨hless.fresh, hless.joint⟩
      intro index change hchange
      refine (unapplied_append_exit hchange hexit hencoded rfl rfl).imp_right fun hnew => ?_
      rw [← Option.some.inj (hjoint.symm.trans hnew.2.2)]
      exact hmember
    · exact .inr ⟨hfresh, exit.targetConfig, hjoint, hmember⟩
  | credit peer index next matched hcredits hrole hnext hmatch hindex =>
    exact ⟨hroster, ⟨h.stands, h.commits, h.elected⟩, h.voter,
      fun _ helects => absurd hcredits helects.not_credits⟩
  | backUp source response next hresponse =>
    subst hresponse
    exact ⟨hroster, ⟨h.stands, h.commits, h.elected⟩, h.voter, fun _ => False.elim⟩
  | appendCommand command hrole hproposal =>
    subst hproposal
    exact ⟨hroster, ⟨False.elim, fun _ hadvances => (h.commits hrole hadvances).more rfl rfl
      (fun _ _ hchange => .inl (unapplied_append hchange (by decide) rfl rfl)), False.elim⟩,
      h.voter, fun _ => False.elim⟩
  | proposeUnencoded cluster change error hproposal hproposable hencoded =>
    subst hproposal
    have hstable := h.stable_of_proposable hproposable
    exact ⟨hroster, ⟨False.elim, h.commits, False.elim⟩, fun _ => .inl hstable, fun _ => False.elim⟩
  | proposeChange cluster change encoded hproposal hproposable hencoded =>
    subst hproposal
    have hstable := h.stable_of_proposable hproposable
    refine ⟨hroster, ⟨False.elim, fun _ hadvances => ?_, False.elim⟩, fun _ => .inl hstable,
      fun _ => False.elim⟩
    rintro index new - ⟨hlater, entry, hentry, hnew⟩ hkind
    rcases entry_at_append_cases first.log hentry with hheld | ⟨-, rfl⟩
    · have hold : first.Unapplied index new := ⟨hlater, entry, hheld, hnew⟩
      exact h.commits hproposable.role hadvances index new hold.le_last_index hold hkind
    · -- The proposal is joint, and the stable configuration has the node.
      have hjoint := (change_of_encoded hproposable.added_mem hencoded hnew).1
      rw [hjoint, hproposable.joint] at hkind
      exact absurd hstable (hkind.resolve_left Bool.noConfusion)
  | merge source request log hrequest hrole hterm hprevious hlog =>
    subst hrequest
    obtain ⟨-, hkept, -⟩ := { first with log }.rollback_pending_frame first.pendingChange
    exact ⟨hroster, ⟨False.elim, fun _ => False.elim, False.elim⟩, fun hother =>
      absurd (hkept.trans hrole) hother, fun _ => False.elim⟩
  | join cluster entry change hrole happended hjoint hcluster =>
    obtain ⟨source, request, rfl, -⟩ := happended
    exact ⟨hroster, ⟨False.elim, fun _ => False.elim, False.elim⟩, fun hother => absurd hrole hother,
      fun _ => False.elim⟩
  | fault change hcluster _ => exact absurd hcluster h.cluster_ne_none
  | addLearner learner hoperation hrole hzero hmember =>
    subst hoperation
    exact ⟨hroster, ⟨False.elim, fun _ => False.elim, False.elim⟩, h.voter, fun _ => False.elim⟩
  | cutLog log commit hsnapshot hcut =>
    refine ⟨hroster, ⟨h.stands, fun _ hadvances => ?_, fun hmay => ?_⟩, h.voter,
      fun _ helects => ?_⟩
    · cases operation <;> simp_all [Operation.Snapshot, Operation.Advances]
    · exact absurd hmay (not_may_lead_of_snapshot hsnapshot)
    · cases operation <;> simp_all [Operation.Snapshot, Operation.Elects]
  | save hsave =>
    cases hsave
    exact ⟨hroster, ⟨h.stands, h.commits, h.elected⟩, h.voter, fun hrole helects =>
      (h.fresh hrole helects).imp_right fun hless => ⟨hless.fresh, hless.joint⟩⟩
  | _ =>
    exact ⟨hroster, ⟨h.stands, h.commits, h.elected⟩, h.voter, fun hrole helects =>
      (h.fresh hrole helects).imp_right fun hless => ⟨hless.fresh, hless.joint⟩⟩

/-! ## While committed changes are applied -/

/-- The state of a node that applies what is committed. -/
structure Retaining (node : RaftNode) : Prop extends Rostered node where
  voter : node.LeadsAsVoter
  retained : node.role ≠ .follower → node.Retained node.commitIndex

theorem Commit.retaining {first second : RaftNode} (hstep : Commit operation first second)
    (h : first.Leading operation) : second.Retaining := by
  have hroster := (Micro.commit hstep).rostered h.toRostered
  cases hstep with
  | asLeader commit hcommits hrole hlater hterm hquorum =>
    have hretained : first.Retained first.log.lastIndex := by
      rcases hcommits with hadvances | helects
      · exact h.commits hrole hadvances
      · refine (h.fresh hrole helects).resolve_right fun hless => ?_
        rw [hless.no_quorum h.toRostered (Nat.zero_lt_of_lt hlater)] at hquorum
        cases hquorum
    exact ⟨hroster, h.voter, fun _ => hretained.more rfl rfl (fun _ _ => .inl)⟩
  | asFollower source request hoperation hrole hlater =>
    exact ⟨hroster, h.voter, fun hother => absurd hrole hother⟩

/-- So does putting committed changes into force. -/
theorem Apply.retaining {first second : RaftNode} (hstep : Apply first second)
    (h : first.Retaining) : second.Retaining := by
  have hmicro : Micro (.tick 0) first second := .apply hstep
  have hroster := hmicro.rostered h.toRostered
  cases hstep with
  | joint cluster change hcommitted hjoint hcluster =>
    refine ⟨hroster, fun hrole => ?_, h.retained⟩
    by_cases hstable : first.config.nodeId ∈ first.clusterIds
    · exact .inl hstable
    · exact .inr (h.retained hrole _ change hcommitted.1 hcommitted.unapplied
        (.inr hstable))
  | stable change hcommitted hjoint =>
    have hmember : first.role ≠ .follower →
        first.config.nodeId ∈ configurationMemberIds change.targetConfig := fun hrole =>
      h.retained hrole _ change hcommitted.1 hcommitted.unapplied (.inl hjoint)
    refine ⟨hroster, fun hrole => .inl (hmember hrole), fun hrole => ?_⟩
    intro index other hbound hother hkind
    -- The new stable configuration has the node, so only exits matter.
    have hexit : other.joint = false := hkind.resolve_right fun houtside =>
      houtside (hmember hrole)
    exact h.retained hrole index other hbound hother (.inl hexit)
  | fault change hcluster _ => exact absurd hcluster h.cluster_ne_none
  | appendExit exit encoded hrole hbehind hexit hencoded =>
    refine ⟨hroster, h.voter, fun hrole index change hbound hchange hkind => ?_⟩
    rcases unapplied_append_exit hchange hexit hencoded rfl rfl with hheld | ⟨hindex, -⟩
    · exact h.retained hrole index change hbound hheld hkind
    · have hbound : index ≤ first.commitIndex := hbound
      omega
  | advance hlater =>
    exact ⟨hroster, h.voter, fun hrole index change hbound hchange =>
      h.retained hrole index change hbound ⟨Nat.lt_of_succ_lt hchange.1, hchange.2⟩⟩
  | save hsave =>
    cases hsave
    exact ⟨hroster, h.voter, h.retained⟩

/-! ## Runs -/

/-- A step that does not let a stranger lead. -/
def Defers (first second : RaftNode) : Prop := first.LeadsAsVoter → second.LeadsAsVoter

theorem traces_tick_leader (hrole : node.role = .leader) (elapsedMs : Nat) :
    Traces Defers (tick elapsedMs) node fun _ _ => True := by
  rw [tick]
  refine .get_bind ?_
  dsimp only
  split_ifs
  · exact .pure trivial
  · exact .set_bind (.single id) (.pure trivial)
  · exact .set_bind (.single id) (.pure trivial)

theorem traces_vote_idle (hrole : node.role ≠ .candidate) (source : NodeId)
    (response : RequestVoteResponse) :
    Traces Defers (handleRequestVoteResponse source response) node fun _ _ => True := by
  rw [handleRequestVoteResponse]
  refine .get_bind ?_
  dsimp only
  split_ifs with hstranger hterm hidle
  · exact .pure trivial
  · have hfollower : (node.becomeFollower response.term none).LeadsAsVoter :=
      fun hother => absurd rfl hother
    refine .set_bind (.single fun _ => hfollower)
      (.bind (traces_persist.relax ?_) fun _ _ _ => .pure trivial)
    rintro _ _ ⟨⟩
    exact id
  · exact .pure trivial
  · exact absurd hrole (not_or.mp hidle).1
  · exact absurd hrole (not_or.mp hidle).1

theorem leads_as_voter_of_traces (htraces : Traces Defers (perform operation) node
    fun _ _ => True) (h : node.LeadsAsVoter) : (node.after operation).LeadsAsVoter := by
  rw [RaftNode.after]
  split
  · rename_i outbound final hrun
    exact invariant_of_steps (fun _ _ => id) (htraces.1 outbound final hrun).1 h
  · rename_i error final hrun
    exact invariant_of_steps (fun _ _ => id) (htraces.2 error final hrun) h

/-- So does every operation of an entitled node. -/
theorem LeadsAsVoter.after_operation (h : node.LeadsAsVoter) (hroster : node.Rostered)
    (hentitled : node.Entitled operation) : (node.after operation).LeadsAsVoter := by
  by_cases hidle : operation.Elects ∧ ¬ node.MayLead operation
  · obtain ⟨helects, hnot⟩ := hidle
    cases operation with
    | tick elapsedMs =>
      exact leads_as_voter_of_traces (traces_tick_leader (not_not.mp hnot) elapsedMs) h
    | handleRequestVoteResponse source response =>
      exact leads_as_voter_of_traces (traces_vote_idle hnot source response) h
    | _ => exact helects.elim
  · have hfresh : node.role = .leader → operation.Elects →
        node.Retained node.log.lastIndex ∨ node.Powerless := fun hrole helects =>
      absurd ⟨helects, not_may_lead_of_leader hrole⟩ hidle
    have hprepare : ∀ {last}, Relation.ReflTransGen (Prepare operation) node last →
        last.Leading operation := fun hsteps =>
      invariant_of_steps (fun _ _ hstep => hstep.leading) hsteps ⟨hroster, hentitled, h, hfresh⟩
    rcases phases_after operation node with hsteps | ⟨ready, committed, hsteps, hcommit, happly⟩
    · exact (hprepare hsteps).voter
    · exact (invariant_of_steps (fun _ _ hstep => hstep.retaining) happly
        (hcommit.retaining (hprepare hsteps))).voter

theorem propose_refused (hrole : node.role ≠ .leader) (command : Bytes) :
    propose command node = .ok {} node := by
  show (if node.role ≠ .leader then _ else _ : RaftM _) node = _
  rw [if_pos hrole]
  rfl

/-- In every run whose nodes are entitled to what they do, candidates and leaders are members of a
configuration in force, and a node that is no member accepts no command. -/
theorem leads_only_as_voter {run : Nat → RaftNode}
    (hrun : Lifetime (fun _ _ => True) Entitled run) (k : Nat) :
    (run k).LeadsAsVoter ∧
      (¬ (run k).InForce → ∀ command, propose command (run k) = .ok {} (run k)) := by
  have hleads : (run k).Rostered ∧ (run k).LeadsAsVoter := by
    refine hrun.invariant (I := fun node => node.Rostered ∧ node.LeadsAsVoter)
      (fun _ _ _ _ hlaunched =>
        ⟨hlaunched.rostered, fun hother => absurd hlaunched.role hother⟩) ?_ k
    rintro node operation hentitled ⟨hroster, h⟩
    exact ⟨invariant_after (fun _ _ => Micro.rostered) hroster,
      h.after_operation hroster hentitled⟩
  refine ⟨hleads.2, fun hstranger command => propose_refused (fun hrole => ?_) command⟩
  exact hstranger (hleads.2 (by rw [hrole]; decide))

/-- Node 3 of `{1, 2, 3}` gets the entry that removes it, is elected by the others, recovers the
exit entry and hears that both hold it. -/
def removedLeader : List Operation :=
  [.handleAppendEntries 1
      { term := 1, leaderId := 1, previousLogIndex := 0, previousLogTerm := 0
        entries := [plainChange 1 1 .removeNode true 3 (plainCluster 2 [1, 2])]
        leaderCommit := 0, readContext := 0 },
    .tick 300, .handleRequestVoteResponse 1 (granted 2), .handleRequestVoteResponse 2 (granted 2),
    .handleAppendEntriesResponse 1 (matchedUpTo 2 3),
    .handleAppendEntriesResponse 2 (matchedUpTo 2 3)]

/-- Whether a node accepts a command. -/
def accepts (node : RaftNode) (command : Bytes) : Bool :=
  match propose command node with
  | .ok result _ => result.accepted
  | .error _ _ => false

/-- The node leads `{1, 2}`, which does not have it, and accepts commands. -/
theorem leader_commits_own_removal :
    ∃ node, construct { nodeId := 3, bootstrapCluster := some (plainCluster 1 [1, 2, 3]) } none =
        .ok node ∧
      Lifetime (fun _ _ => True) (fun _ _ => True)
        (fun k => node.afterAll (removedLeader.take k)) ∧
      ¬ (node.afterAll removedLeader).LeadsAsVoter ∧
      (node.afterAll removedLeader).role = .leader ∧
      (node.afterAll removedLeader).accepts [] = true := by
  have houtcome : outcome { nodeId := 3, bootstrapCluster := some (plainCluster 1 [1, 2, 3]) }
      removedLeader (fun node => (node.role, node.config.nodeId, node.clusterIds, node.jointIds,
        node.accepts [])) = some (true, .leader, 3, [1, 2], [], true) := by
    decide +kernel
  obtain ⟨node, hnode, hrun, hview⟩ := lifetime_of_outcome houtcome
  simp only [Prod.mk.injEq] at hview
  obtain ⟨hrole, hself, hcluster, hjoint, haccepts⟩ := hview
  refine ⟨node, hnode, hrun, fun hleads => ?_, hrole, haccepts⟩
  have hmember := hleads (by rw [hrole]; decide)
  rw [InForce, hself, hcluster, hjoint] at hmember
  exact absurd hmember (by decide)

theorem Entitled.of_kept {operation : Operation} (hmember : node.config.nodeId ∈ node.clusterIds)
    (hkept : ∀ change ∈ node.log.entries.filterMap changeOf,
      node.config.nodeId ∈ configurationMemberIds change.targetConfig) : node.Entitled operation := by
  have hretained : node.Retained node.log.lastIndex :=
    fun index change _ hchange _ => hkept change hchange.held
  exact ⟨fun _ _ _ => .inl hmember, fun _ _ => hretained, fun _ => hretained⟩

/-- A node that is elected during the addition of node 4 is entitled to every operation, and leads
when it has committed the addition and its exit. -/
theorem leads_of_elected_in_addition :
    ∃ run : Nat → RaftNode, Lifetime (fun _ _ => True) Entitled run ∧ (run 6).role = .leader ∧
      (run 6).commitIndex = 3 ∧ (run 6).clusterIds = [1, 2, 3, 4] ∧ (run 6).LeadsAsVoter := by
  have hstates : ∀ k, k < 6 → outcome
      { nodeId := 2, bootstrapCluster := some (plainCluster 1 [1, 2, 3]) }
      (electedInAddition.take k)
      (fun node => decide (node.config.nodeId ∈ node.clusterIds ∧
        ∀ change ∈ node.log.entries.filterMap changeOf,
          node.config.nodeId ∈ configurationMemberIds change.targetConfig)) =
      some (true, true) := by
    decide +kernel
  have hlast : outcome { nodeId := 2, bootstrapCluster := some (plainCluster 1 [1, 2, 3]) }
      (electedInAddition.take 6) (fun node => (node.role, node.commitIndex, node.clusterIds)) =
      some (true, .leader, 3, [1, 2, 3, 4]) := by
    decide +kernel
  obtain ⟨node, hnode, -, hview⟩ := lifetime_of_outcome hlast
  simp only [Prod.mk.injEq] at hview
  have hrun : Lifetime (fun _ _ => True) Entitled
      (fun k => node.afterAll (electedInAddition.take k)) := by
    have hstarts : Starts (fun _ _ => True) none node :=
      ⟨_, trivial, hnode, (view_of_outcome hnode hlast).1⟩
    refine Lifetime.of_operations hstarts fun k operation hoperation => ?_
    have hk : k < 6 := (List.getElem?_eq_some_iff.mp hoperation).1
    obtain ⟨hmember, hkept⟩ := of_decide_eq_true (view_of_outcome hnode (hstates k hk)).2
    exact Entitled.of_kept hmember hkept
  exact ⟨_, hrun, hview.1, hview.2.1, hview.2.2, (leads_only_as_voter hrun 6).1⟩

end RaftNode

end DistributedKV
