import DistributedKV.Raft.Node.Roster

/-!
# Learners and voters

The constructor demands that learners are distinct from the peers it is given. Later a learner
leaves the list when its own leader proposes to add it, and in no other way: a change that another
leader made can turn a learner into a peer while it stays in the list. Learners and peers stay
apart in the runs in which no such change names a learner (`learners_stay_apart`).
-/

namespace DistributedKV

open Barrier List

namespace RaftNode

variable {node : RaftNode} {operation : Operation}

/-- The learners are distinct, and neither the node nor its peers are among them. -/
structure LearnersApart (node : RaftNode) : Prop where
  nodup : node.config.learners.Nodup
  self : node.config.nodeId ∉ node.config.learners
  peers : ∀ id ∈ node.config.learners, id ∉ node.config.peers

/-- The destinations a leader replicates to. -/
def destinations (node : RaftNode) : List NodeId :=
  node.replicateToAll.map (·.destination)

/-- The members a node starts with: those of the persisted configurations, or of the bootstrap
configuration when none is persisted. -/
def initialIds (config : NodeConfig) (state : RaftPersistentState) : List NodeId :=
  match state.clusterConfig with
  | some cluster => configurationMemberIds cluster ++ memberIds state.jointConfig
  | none => memberIds config.bootstrapCluster

/-- No configured learner is a member at the start. -/
def LearnersNew (config : NodeConfig) (state : RaftPersistentState) : Prop :=
  ∀ id ∈ config.learners, id ∉ initialIds config state

/-- None of the changes names a learner. -/
def Spares (changes : Nat → ConfChangeEntry → Prop) (node : RaftNode) : Prop :=
  ∀ index change, changes index change →
    ∀ id ∈ configurationMemberIds change.targetConfig, id ∉ node.config.learners

/-- No change that the node may put into force in the operation names a learner. -/
def Unpromoted (node : RaftNode) (operation : Operation) : Prop :=
  node.Spares (node.Coming operation)

/-- The learners are apart from both configurations and from the given changes. -/
structure Separated (changes : Nat → ConfChangeEntry → Prop) (node : RaftNode) : Prop
    extends Rostered node where
  nodup : node.config.learners.Nodup
  apart : ∀ id ∈ node.config.learners,
    id ≠ node.config.nodeId ∧ id ∉ node.clusterIds ∧ id ∉ node.jointIds
  spares : node.Spares changes

theorem learners_apart_of_members (hroster : node.Rostered)
    (hnodup : node.config.learners.Nodup)
    (hapart : ∀ id ∈ node.config.learners,
      id ≠ node.config.nodeId ∧ id ∉ node.clusterIds ∧ id ∉ node.jointIds) :
    node.LearnersApart where
  nodup := hnodup
  self := fun hself => (hapart _ hself).1 rfl
  peers := by
    intro id hid hpeer
    obtain ⟨-, hcluster, hjoint⟩ := hapart id hid
    exact ((hroster.peers.mem id).mp hpeer).1.elim hcluster hjoint

theorem LearnersApart.members (h : node.LearnersApart) (hroster : node.Rostered) :
    ∀ id ∈ node.config.learners,
      id ≠ node.config.nodeId ∧ id ∉ node.clusterIds ∧ id ∉ node.jointIds := by
  intro id hid
  have hself : id ≠ node.config.nodeId := fun hself => h.self (hself ▸ hid)
  have hpeer : ∀ hmember : id ∈ node.clusterIds ∨ id ∈ node.jointIds, False := fun hmember =>
    h.peers id hid ((hroster.peers.mem id).mpr ⟨hmember, hself⟩)
  exact ⟨hself, fun hcluster => hpeer (.inl hcluster), fun hjoint => hpeer (.inr hjoint)⟩

theorem LearnersApart.destinations_nodup (h : node.LearnersApart) (hroster : node.Rostered) :
    node.destinations.Nodup := by
  have hids : node.destinations = node.config.peers ++ node.config.learners := by
    rw [destinations, replicateToAll, map_map]
    exact map_id _
  rw [hids]
  exact List.Nodup.append hroster.peers.nodup h.nodup fun id hpeer hlearner =>
    h.peers id hlearner hpeer

section Separated

variable {changes later : Nat → ConfChangeEntry → Prop} {after : RaftNode}

theorem Separated.mono (h : node.Separated changes)
    (hless : ∀ index change, later index change → changes index change) : node.Separated later :=
  ⟨h.toRostered, h.nodup, h.apart, fun index change hchange =>
    h.spares index change (hless index change hchange)⟩

theorem Separated.spares_exit (h : node.Separated changes)
    (hlearners : after.config.learners = node.config.learners)
    (hsource : ∀ index change, later index change →
      changes index change ∨ node.jointConfig = some change.targetConfig) :
    after.Spares later := by
  intro index change hchange id hid hlearner
  rw [hlearners] at hlearner
  rcases hsource index change hchange with hknown | hjoint
  · exact h.spares index change hknown id hid hlearner
  · refine (h.apart id hlearner).2.2 ?_
    rw [jointIds, hjoint]
    exact hid

theorem Separated.apart_joint (h : node.Separated changes) {target : ClusterConfiguration}
    (htarget : ∀ id ∈ configurationMemberIds target, id ∉ node.config.learners) :
    ∀ id ∈ node.config.learners, id ≠ node.config.nodeId ∧ id ∉ node.clusterIds ∧
      id ∉ memberIds (some target) :=
  fun id hid => ⟨(h.apart id hid).1, (h.apart id hid).2.1, fun hmember => htarget id hmember hid⟩

/-- A proposal takes the member it adds from the learners. -/
theorem Separated.proposed {cluster : ClusterConfiguration} {change : ConfChangeEntry}
    (h : node.Separated changes) (hproposable : node.Proposable cluster change)
    (hroster : after.Rostered) (hconfig : after.config = (node.proposeJoint cluster change).config)
    (hcluster : after.clusterConfig = node.clusterConfig)
    (hjoint : after.jointConfig = some change.targetConfig)
    (hsource : ∀ index new, later index new →
      changes index new ∨ new.targetConfig = change.targetConfig) :
    after.Separated later := by
  have hold : ∀ id ∈ after.config.learners,
      id ∈ node.config.learners ∧ id ≠ change.member.nodeId := by
    rw [hconfig]
    intro id hid
    obtain ⟨hid, hother⟩ := mem_filter.mp hid
    exact ⟨hid, bne_iff_ne.mp hother⟩
  have htarget : ∀ id ∈ configurationMemberIds change.targetConfig,
      id ∉ after.config.learners := by
    intro id hid hlearner
    obtain ⟨hlearner, hother⟩ := hold id hlearner
    rcases hproposable.member_of_target hid with hcluster | ⟨hadded, -⟩
    · exact (h.apart id hlearner).2.1 hcluster
    · exact hother hadded
  have hself : after.config.nodeId = node.config.nodeId := by
    rw [hconfig]
    rfl
  refine ⟨hroster, ?_, fun id hid => ?_, fun index new hnew id hid hlearner => ?_⟩
  · rw [hconfig]
    exact h.nodup.filter _
  · obtain ⟨hother, hstable, -⟩ := h.apart id (hold id hid).1
    rw [hself, clusterIds, jointIds, hcluster, hjoint]
    exact ⟨hother, hstable, fun hmember => htarget id hmember hid⟩
  · rcases hsource index new hnew with hknown | hsame
    · exact h.spares index new hknown id hid (hold id hlearner).1
    · exact htarget id (hsame ▸ hid) hlearner

end Separated

/-- What comes before a commit keeps the learners apart. -/
theorem Prepare.separated {first second : RaftNode} (hstep : Prepare operation first second)
    (hoperation : ∀ learner, operation ≠ .addLearner learner)
    (h : first.Separated (first.Coming operation)) :
    second.Separated (second.Coming operation) := by
  have hroster := (Micro.prepare hstep).rostered h.toRostered
  cases hstep with
  | stepDown term leader hmessage hterm =>
    unfold becomeFollower resetElectionTimer at hroster ⊢
    split_ifs at hroster ⊢ <;> exact ⟨hroster, h.nodup, h.apart, h.spares⟩
  | takeOver helects hrole hquorum =>
    refine ⟨hroster, h.nodup, h.apart, h.spares_exit rfl fun index change hchange => ?_⟩
    exact .inl (coming_append hchange (by decide) rfl rfl rfl)
  | appendExit exit encoded helects hrole hfresh hexit hencoded =>
    refine ⟨hroster, h.nodup, h.apart, h.spares_exit rfl fun index change hchange => ?_⟩
    rcases hchange with hchange | ⟨hrequested, -⟩
    · exact (unapplied_append_exit hchange hexit hencoded rfl rfl).imp .inl fun hnew => hnew.2.2
    · exact absurd hrequested.replicates (not_replicates_of_elects helects)
  | appendCommand command hrole hproposal =>
    refine ⟨hroster, h.nodup, h.apart, h.spares_exit rfl fun index change hchange => ?_⟩
    exact .inl (coming_append hchange (by decide) rfl rfl rfl)
  | proposeUnencoded cluster change error hproposal hproposable hencoded =>
    exact h.proposed hproposable hroster rfl rfl rfl fun _ _ hnew => .inl hnew
  | proposeChange cluster change encoded hproposal hproposable hencoded =>
    refine h.proposed hproposable hroster rfl rfl rfl ?_
    rintro index new (⟨hlater, entry, hentry, hnew⟩ | hrequested)
    · rcases entry_at_append_cases first.log hentry with hheld | ⟨-, rfl⟩
      · exact .inl (.inl ⟨hlater, entry, hheld, hnew⟩)
      · exact .inr (change_of_encoded hproposable.added_mem hencoded hnew).2
    · exact .inl (.inr hrequested)
  | merge source request log hrequest hrole hterm hprevious hlog =>
    obtain ⟨hself, -, hlearners, hcluster, hjoint⟩ :=
      rollback_pending_members { first with log } first.pendingChange
    refine ⟨hroster, hlearners ▸ h.nodup, ?_, h.spares_exit hlearners
      fun _ _ hchange => .inl (coming_merge hlog hrequest hchange)⟩
    intro id hid
    rw [hlearners] at hid
    obtain ⟨hother, hstable, hjoined⟩ := h.apart id hid
    rw [hself, clusterIds, jointIds, hcluster]
    refine ⟨hother, hstable, ?_⟩
    rcases hjoint with hsame | hnone
    · rw [hsame]
      exact hjoined
    · rw [hnone]
      exact not_mem_nil
  | join cluster entry change hrole happended hjoint hcluster =>
    exact ⟨hroster, h.nodup, h.apart_joint (h.spares entry.index change happended.coming),
      h.spares⟩
  | fault change hcluster _ => exact absurd hcluster h.cluster_ne_none
  | addLearner learner hlearner => exact absurd hlearner (hoperation learner)
  | cutLog log commit hsnapshot hcut =>
    exact ⟨hroster, h.nodup, h.apart, h.spares_exit rfl fun _ _ hchange =>
      .inl (coming_cut hsnapshot hcut hchange)⟩
  | save hsave =>
    cases hsave
    exact ⟨hroster, h.nodup, h.apart, h.spares⟩
  | _ => exact ⟨hroster, h.nodup, h.apart, h.spares⟩

theorem Commit.separated {first second : RaftNode} (hstep : Commit operation first second)
    (h : first.Separated first.Unapplied) : second.Separated second.Unapplied := by
  have hroster := (Micro.commit hstep).rostered h.toRostered
  cases hstep <;> exact ⟨hroster, h.nodup, h.apart, h.spares⟩

/-- What is put into force spares the learners. -/
theorem Apply.separated {first second : RaftNode} (hstep : Apply first second)
    (h : first.Separated first.Unapplied) : second.Separated second.Unapplied := by
  have hmicro : Micro (.tick 0) first second := .apply hstep
  have hroster := hmicro.rostered h.toRostered
  cases hstep with
  | joint cluster change hcommitted hjoint hcluster =>
    exact ⟨hroster, h.nodup, h.apart_joint (h.spares _ change hcommitted.unapplied), h.spares⟩
  | stable change hcommitted hjoint =>
    have htarget := h.spares _ change hcommitted.unapplied
    exact ⟨hroster, h.nodup, fun id hid => ⟨(h.apart id hid).1,
      fun hmember => htarget id hmember hid, not_mem_nil⟩, h.spares⟩
  | fault change hcluster _ => exact absurd hcluster h.cluster_ne_none
  | appendExit exit encoded hrole hbehind hexit hencoded =>
    exact ⟨hroster, h.nodup, h.apart, h.spares_exit rfl fun _ _ hchange =>
      (unapplied_append_exit hchange hexit hencoded rfl rfl).imp_right fun hnew => hnew.2.2⟩
  | advance hlater =>
    exact ⟨hroster, h.nodup, h.apart, h.spares_exit rfl fun _ _ hchange =>
      .inl ⟨Nat.lt_of_succ_lt hchange.1, hchange.2⟩⟩
  | save hsave =>
    cases hsave
    exact ⟨hroster, h.nodup, h.apart, h.spares⟩

/-- Adding a learner does nothing, or adds a new one. -/
theorem after_add_learner (learner : NodeId) :
    node.after (.addLearner learner) = node ∨
      (node.isMember learner = false ∧
        ∃ nextIndex matchIndex, node.after (.addLearner learner) =
          { node with
            config := { node.config with learners := node.config.learners ++ [learner] }
            nextIndex, matchIndex }) := by
  by_cases hrefused : node.role ≠ .leader ∨ learner = 0 ∨ learner = node.config.nodeId ∨
      node.isMember learner = true
  · have hrun : addLearner learner node = .ok false node := by
      show (if node.role ≠ .leader ∨ learner = 0 ∨ learner = node.config.nodeId ∨
        node.isMember learner = true then _ else _ : RaftM Bool) node = _
      rw [if_pos hrefused]
      rfl
    refine .inl ?_
    simp only [after, perform, bind, EStateM.bind, hrun]
    rfl
  · have hmember : node.isMember learner = false := by
      simp only [not_or, Bool.not_eq_true] at hrefused
      exact hrefused.2.2.2
    have hrun : addLearner learner node = .ok true { node with
        config := { node.config with learners := node.config.learners ++ [learner] }
        nextIndex := Function.update node.nextIndex learner (some (max 1 node.log.firstIndex))
        matchIndex := Function.update node.matchIndex learner (some 0) } := by
      show (if node.role ≠ .leader ∨ learner = 0 ∨ learner = node.config.nodeId ∨
        node.isMember learner = true then _ else _ : RaftM Bool) node = _
      rw [if_neg hrefused]
      rfl
    refine .inr ⟨hmember, Function.update node.nextIndex learner (some (max 1 node.log.firstIndex)),
      Function.update node.matchIndex learner (some 0), ?_⟩
    simp only [after, perform, bind, EStateM.bind, hrun]
    rfl

/-- Operations that promote no learner keep them apart. -/
theorem LearnersApart.after (h : node.LearnersApart) (hroster : node.Rostered)
    (hunpromoted : node.Unpromoted operation) : (node.after operation).LearnersApart := by
  by_cases hadds : ∃ learner, operation = .addLearner learner
  · obtain ⟨learner, rfl⟩ := hadds
    rcases node.after_add_learner learner with hsame | ⟨hmember, next, matched, hadded⟩
    · rw [hsame]
      exact h
    · rw [hadded]
      simp only [isMember, Bool.or_eq_false_iff, beq_eq_false_iff_ne, ne_eq,
        contains_eq_mem, decide_eq_false_iff_not] at hmember
      obtain ⟨⟨hself, hpeer⟩, hnew⟩ := hmember
      refine ⟨List.Nodup.append h.nodup (nodup_singleton learner) (by simpa using hnew), ?_, ?_⟩
      · intro hid
        rcases mem_append.mp hid with hold | hlast
        · exact h.self hold
        · exact hself (mem_singleton.mp hlast).symm
      · intro id hid
        rcases mem_append.mp hid with hold | hlast
        · exact h.peers id hold
        · rw [mem_singleton.mp hlast]
          exact hpeer
  · have hother : ∀ learner, operation ≠ .addLearner learner := fun learner hlearner =>
      hadds ⟨learner, hlearner⟩
    have hsettles : ∀ state : RaftNode, state.Separated (state.Coming operation) →
        state.Separated state.Unapplied := fun _ h => h.mono fun _ _ => .inl
    have hafter : (node.after operation).Separated (node.after operation).Unapplied :=
      (phases_after operation node).reaches
        (I := fun state => state.Separated (state.Coming operation))
        (J := fun state => state.Separated state.Unapplied)
        (fun _ _ hstep => hstep.separated hother) hsettles
        (fun _ _ hcommit h => hcommit.separated (hsettles _ h)) (fun _ _ => Apply.separated)
        ⟨hroster, h.nodup, h.members hroster, hunpromoted⟩
    exact learners_apart_of_members hafter.toRostered hafter.nodup hafter.apart

/-- Learners that are new at the start are apart. -/
theorem Launched.learners_apart {config : NodeConfig} {state : RaftPersistentState}
    (h : Launched config state node) (hnew : LearnersNew config state) : node.LearnersApart := by
  have hdistinct := h.distinct
  rw [cons_append, nodup_cons, nodup_append] at hdistinct
  obtain ⟨hself, -, hnodup, -⟩ := hdistinct
  have hmembers : ∀ id, id ∈ node.clusterIds ∨ id ∈ node.jointIds →
      id ∈ initialIds config state := by
    intro id hid
    rw [initialIds]
    cases h.configured with
    | restored cluster hsaved hvalid hcluster hjoint hpeers hlearner =>
      rw [clusterIds, jointIds, hcluster, hjoint] at hid
      rw [hsaved]
      exact mem_append.mpr hid
    | bootstrapped cluster hsaved hbootstrap hvalid hcluster hjoint hpeers hlearner =>
      rw [clusterIds, jointIds, hcluster, hjoint] at hid
      rw [hsaved]
      show id ∈ memberIds config.bootstrapCluster
      rw [hbootstrap]
      exact hid.resolve_right not_mem_nil
  refine ⟨h.learners ▸ hnodup, ?_, fun id hid hpeer => ?_⟩
  · rw [h.nodeId, h.learners]
    exact fun hid => hself (mem_append_right _ hid)
  · rw [h.learners] at hid
    exact hnew id hid (hmembers id ((h.rostered.peers.mem id).mp hpeer).1)

/-- In every run that starts with new learners and promotes none, learners and peers stay apart,
and a leader replicates to no destination twice. -/
theorem learners_stay_apart {run : Nat → RaftNode} (hrun : Lifetime LearnersNew Unpromoted run)
    (k : Nat) : (run k).LearnersApart ∧ (run k).destinations.Nodup := by
  have hapart : (run k).Rostered ∧ (run k).LearnersApart := by
    refine hrun.invariant (I := fun node => node.Rostered ∧ node.LearnersApart)
      (fun _ _ _ hnew hlaunched => ⟨hlaunched.rostered, hlaunched.learners_apart hnew⟩) ?_ k
    rintro node operation hunpromoted ⟨hroster, h⟩
    exact ⟨invariant_after (fun _ _ => Micro.rostered) hroster, h.after hroster hunpromoted⟩
  exact ⟨hapart.2, hapart.2.destinations_nodup hapart.1⟩

/-- Node 1 of `{1, 2, 3}` is elected and replicates to the learner 4. Node 2 takes over, adds node
4 as well and proposes it as a voter. -/
def deposedBeforePromotion : List Operation :=
  [.tick 300, .handleRequestVoteResponse 2 (granted 1), .addLearner 4,
    .handleAppendEntries 2
      { term := 2, leaderId := 2, previousLogIndex := 0, previousLogTerm := 0
        entries :=
          [{ index := 1, term := 2, type := .noOp, command := [] },
            plainChange 2 2 .addNode true 4 (plainCluster 2 [1, 2, 3, 4])]
        leaderCommit := 0, readContext := 0 }]

/-- Node 4 is a peer and a learner of node 1. -/
theorem promoted_by_other_leader :
    ∃ node, construct { nodeId := 1, bootstrapCluster := some (plainCluster 1 [1, 2, 3]) } none =
        .ok node ∧
      Lifetime (fun _ _ => True) (fun _ _ => True)
        (fun k => node.afterAll (deposedBeforePromotion.take k)) ∧
      ¬ (node.afterAll deposedBeforePromotion).LearnersApart ∧
      ¬ (node.afterAll deposedBeforePromotion).destinations.Nodup := by
  have houtcome : outcome { nodeId := 1, bootstrapCluster := some (plainCluster 1 [1, 2, 3]) }
      deposedBeforePromotion
      (fun node => (node.config.peers, node.config.learners, node.destinations)) =
      some (true, [2, 3, 4], [4], [2, 3, 4, 4]) := by
    decide +kernel
  obtain ⟨node, hnode, hrun, hview⟩ := lifetime_of_outcome houtcome
  simp only [Prod.mk.injEq] at hview
  obtain ⟨hpeers, hlearners, hdestinations⟩ := hview
  refine ⟨node, hnode, hrun, fun hapart => ?_, ?_⟩
  · exact hapart.peers 4 (by simp [hlearners]) (by simp [hpeers])
  · rw [hdestinations]
    decide

/-- The only voter of a cluster adds a learner and proposes it when it has caught up. -/
def promotion : List Operation :=
  [.tick 300, .addLearner 2, .handleAppendEntriesResponse 2 (matchedUpTo 1 1),
    .proposeConfChange .addNode (plainMember 2) 0]

/-- Along a promotion by its own leader the learner leaves the list. -/
theorem own_promotion_apart :
    ∃ run : Nat → RaftNode, Lifetime LearnersNew Unpromoted run ∧
      (run 2).config.learners = [2] ∧ (run 4).config.peers = [2] ∧
      (run 4).LearnersApart ∧ (run 4).destinations.Nodup := by
  have hstates : ∀ k, k < 4 → outcome
      { nodeId := 1, bootstrapCluster := some (plainCluster 1 [1]) } (promotion.take k)
      (fun node => decide (node.log.lastIndex ≤ node.configurationAppliedIndex)) =
      some (true, true) := by
    decide +kernel
  have hlearners : outcome { nodeId := 1, bootstrapCluster := some (plainCluster 1 [1]) }
      (promotion.take 2) (fun node => node.config.learners) = some (true, [2]) := by
    decide +kernel
  have hpeers : outcome { nodeId := 1, bootstrapCluster := some (plainCluster 1 [1]) }
      promotion (fun node => node.config.peers) = some (true, [2]) := by
    decide +kernel
  obtain ⟨node, hnode, -, hpromoted⟩ := lifetime_of_outcome hpeers
  have hcluster := (view_of_outcome hnode hpeers).1
  have hrun : Lifetime LearnersNew Unpromoted (fun k => node.afterAll (promotion.take k)) := by
    have hstarts : Starts LearnersNew none node :=
      ⟨_, fun id hid => absurd hid not_mem_nil, hnode, hcluster⟩
    refine Lifetime.of_operations hstarts fun k operation hoperation index change hchange => ?_
    have hk : k < 4 := (List.getElem?_eq_some_iff.mp hoperation).1
    have happlied := of_decide_eq_true (view_of_outcome hnode (hstates k hk)).2
    rcases hchange with hchange | ⟨⟨source, request, entry, rfl, -⟩, -⟩
    · exact absurd hchange (not_unapplied_of_last_index_le happlied)
    · have hmember := mem_of_getElem? hoperation
      simp [promotion] at hmember
  exact ⟨_, hrun, (view_of_outcome hnode hlearners).2, hpromoted, learners_stay_apart hrun 4⟩

end RaftNode

end DistributedKV
