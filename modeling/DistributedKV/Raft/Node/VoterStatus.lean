import DistributedKV.Raft.Node.Roster

/-!
# The voter status of a node

The flag that makes a node a learner is computed from the stable configuration when a node is
restored and when an exit entry is applied, and it is cleared when a joint configuration with the
node comes into force. Nothing sets it again when that joint configuration is dropped or replaced
by one without the node. The flag follows the configurations in the runs in which the changes at
hand agree on the node (`voter_status_follows`).
-/

namespace DistributedKV

open Barrier

/-- The operation that proposes a membership change. -/
def Operation.Proposes : Operation → Prop
  | .proposeConfChange _ _ _ => True
  | _ => False

namespace RaftNode

variable {node after : RaftNode} {operation : Operation}
  {changes later : Nat → ConfChangeEntry → Prop}

/-- The node is a voter exactly when a configuration in force has it as a member. -/
def VoterStatus (node : RaftNode) : Prop :=
  node.config.learner = false ↔
    node.config.nodeId ∈ node.clusterIds ∨ node.config.nodeId ∈ node.jointIds

/-- All the configurations have the node as a member, or none has. -/
def Unanimous (self : NodeId) (targets : ClusterConfiguration → Prop) : Prop :=
  (∀ target, targets target → self ∈ configurationMemberIds target) ∨
    ∀ target, targets target → self ∉ configurationMemberIds target

/-- The joint configurations of the changes behind an index. -/
def JointBehind (changes : Nat → ConfChangeEntry → Prop) (bound : Nat)
    (target : ClusterConfiguration) : Prop :=
  ∃ index change, bound < index ∧ changes index change ∧ change.joint = true ∧
    change.targetConfig = target

/-- A change leaves joint consensus with a configuration without the node. -/
def Leaves (node : RaftNode) (change : ConfChangeEntry) : Prop :=
  change.joint = false ∧ node.config.nodeId ∉ configurationMemberIds change.targetConfig

/-- While the stable configuration does not have the node, the joint one and those to come agree
on it; so do those that come behind an exit without the node. -/
structure Steered (changes : Nat → ConfChangeEntry → Prop) (node : RaftNode) : Prop where
  outside : node.config.nodeId ∉ node.clusterIds → Unanimous node.config.nodeId fun target =>
    node.jointConfig = some target ∨ ∃ bound, JointBehind changes bound target
  leaving : ∀ index change, changes index change → node.Leaves change →
    Unanimous node.config.nodeId (JointBehind changes index)

/-- The entries of a request leave the pending entry of the log where it is. -/
def KeepsPending (operation : Operation) (node : RaftNode) : Prop :=
  ∀ source request log index entry, operation = .handleAppendEntries source request →
    node.log.appendFrom request.previousLogIndex request.entries = .ok log →
    node.pendingConfChangeIndex = some index → node.log.entryAt index = some entry →
    log.entryAt index = some entry

/-- The changes at hand agree on the node, a proposal agrees with them, and the joint configuration
through which alone the node is a voter is not overwritten. -/
structure Consistent (node : RaftNode) (operation : Operation) : Prop where
  steered : node.Steered (node.Coming operation)
  proposing : operation.Proposes → ∀ index change, node.Coming operation index change →
    node.Leaves change → ∀ target, JointBehind (node.Coming operation) index target →
      node.config.nodeId ∈ configurationMemberIds target
  kept : node.config.nodeId ∉ node.clusterIds → node.config.nodeId ∈ node.jointIds →
    KeepsPending operation node

/-- A node starts with a flag that agrees with its configurations: a persisted joint configuration
has it only if the stable one has, and a configured learner is not in the bootstrap
configuration. -/
def StartsConsistent (config : NodeConfig) (state : RaftPersistentState) : Prop :=
  match state.clusterConfig with
  | some cluster =>
    config.nodeId ∈ memberIds state.jointConfig → config.nodeId ∈ configurationMemberIds cluster
  | none => config.learner = true → config.nodeId ∉ memberIds config.bootstrapCluster

theorem mem_joint_ids {id : NodeId} :
    id ∈ node.jointIds ↔ ∃ joint, node.jointConfig = some joint ∧
      id ∈ configurationMemberIds joint := by
  rw [jointIds, memberIds]
  cases node.jointConfig with
  | none => simp
  | some joint => simp

/-! ## Agreement -/

theorem Unanimous.mono {self : NodeId} {targets fewer : ClusterConfiguration → Prop}
    (h : Unanimous self targets) (hfewer : ∀ target, fewer target → targets target) :
    Unanimous self fewer :=
  h.imp (fun hall target htarget => hall target (hfewer target htarget))
    fun hnone target htarget => hnone target (hfewer target htarget)

variable {target cluster : ClusterConfiguration} {change : ConfChangeEntry}
  {first second : RaftNode}

theorem Unanimous.mem {self : NodeId} {targets : ClusterConfiguration → Prop}
    (h : Unanimous self targets) {other : ClusterConfiguration} (htarget : targets target)
    (hother : targets other) (hself : self ∈ configurationMemberIds target) :
    self ∈ configurationMemberIds other := by
  rcases h with hall | hnone
  · exact hall other hother
  · exact absurd hself (hnone target htarget)

/-- The changes become fewer, up to an exit behind all of them. -/
def Dwindles (changes later : Nat → ConfChangeEntry → Prop) : Prop :=
  ∀ index change, later index change → changes index change ∨
    (change.joint = false ∧ ∀ other change, later other change → other ≤ index)

theorem Dwindles.joint_behind (h : Dwindles changes later) {bound : Nat}
    (htarget : JointBehind later bound target) : JointBehind changes bound target := by
  obtain ⟨index, change, hbound, hchange, hjoint, htarget⟩ := htarget
  refine ⟨index, change, hbound, ?_, hjoint, htarget⟩
  rcases h index change hchange with hold | ⟨hstable, -⟩
  · exact hold
  · rw [hjoint] at hstable
    cases hstable

theorem Dwindles.known_or_last (h : Dwindles changes later) {index : Nat}
    (hchange : later index change) :
    changes index change ∨ ∀ target, ¬ JointBehind later index target := by
  refine (h index change hchange).imp_right fun ⟨_, hlast⟩ target htarget => ?_
  obtain ⟨other, change, hbound, hother, -⟩ := htarget
  exact absurd (hlast other change hother) (not_le.mpr hbound)

/-- A node stays steered when fewer changes are at hand. -/
theorem Steered.dwindles (h : node.Steered changes)
    (hself : after.config.nodeId = node.config.nodeId)
    (hcluster : after.clusterConfig = node.clusterConfig)
    (hjoint : ∀ target, after.jointConfig = some target →
      node.jointConfig = some target ∨ ∃ bound, JointBehind changes bound target)
    (hless : Dwindles changes later) : after.Steered later := by
  refine ⟨fun houtside => ?_, fun index change hchange hleaves => ?_⟩
  · rw [hself, clusterIds, hcluster] at houtside
    rw [hself]
    refine (h.outside houtside).mono fun target htarget => ?_
    rcases htarget with htarget | ⟨bound, htarget⟩
    · exact hjoint target htarget
    · exact .inr ⟨bound, hless.joint_behind htarget⟩
  · rw [Leaves, hself] at hleaves
    rw [hself]
    rcases hless.known_or_last hchange with hold | hlast
    · exact (h.leaving index change hold hleaves).mono fun _ => hless.joint_behind
    · exact .inl fun target htarget => absurd htarget (hlast target)

/-! ## The flag -/

theorem VoterStatus.adopt_joint (h : node.VoterStatus) (pendingConfChangeIndex : Option Nat)
    (hagree : node.config.nodeId ∉ node.clusterIds → node.config.nodeId ∈ node.jointIds →
      node.config.nodeId ∈ configurationMemberIds change.targetConfig) :
    { (node.enterJoint change).adoptJointPeers cluster change.targetConfig with
      pendingConfChangeIndex }.VoterStatus := by
  show (if (configurationMemberIds change.targetConfig).contains node.config.nodeId then false
      else node.config.learner) = false ↔ node.config.nodeId ∈ node.clusterIds ∨
    node.config.nodeId ∈ configurationMemberIds change.targetConfig
  by_cases htarget : node.config.nodeId ∈ configurationMemberIds change.targetConfig
  · simp [htarget]
  · rw [if_neg (by simpa using htarget)]
    refine h.trans ⟨fun hmember => .inl ?_, fun hmember => .inl (hmember.resolve_right htarget)⟩
    by_contra houtside
    exact htarget (hagree houtside (hmember.resolve_left houtside))

/-- The node has an id, and it is not one of its learners. -/
structure SelfApart (node : RaftNode) : Prop where
  nonzero : node.config.nodeId ≠ 0
  learners : node.config.nodeId ∉ node.config.learners

theorem Proposable.self_mem (h : node.Proposable cluster change) (hself : node.SelfApart) :
    node.config.nodeId ∈ node.clusterIds ∧
      node.config.nodeId ∈ configurationMemberIds change.targetConfig := by
  have htarget : node.config.nodeId ∈ configurationMemberIds change.targetConfig :=
    (validate_cluster_configuration_ok h.valid).2.2.2.2.resolve_left hself.nonzero
  rcases h.member_of_target htarget with hcluster | ⟨-, hlearner⟩
  · exact ⟨hcluster, htarget⟩
  · exact absurd hlearner hself.learners

/-- Every change leaves the node out of its learners. -/
theorem Micro.self_apart (hstep : Micro operation first second) (h : first.SelfApart) :
    second.SelfApart := by
  cases hstep with
  | prepare hprepare =>
    cases hprepare with
    | stepDown term leader hmessage hterm =>
      unfold becomeFollower resetElectionTimer
      split_ifs <;> exact ⟨h.nonzero, h.learners⟩
    | proposeUnencoded | proposeChange =>
      exact ⟨h.nonzero, fun hid => h.learners (List.mem_filter.mp hid).1⟩
    | merge source request log hoperation hrole hterm hprevious hlog =>
      unfold rollbackPending dropPending
      split
      · split_ifs <;> exact ⟨h.nonzero, h.learners⟩
      · exact ⟨h.nonzero, h.learners⟩
    | addLearner learner hoperation hrole hzero hmember =>
      refine ⟨h.nonzero, fun hid => ?_⟩
      rcases List.mem_append.mp hid with hold | hnew
      · exact h.learners hold
      · rw [← List.mem_singleton.mp hnew, isMember] at hmember
        simp at hmember
    | save hsave => cases hsave; exact ⟨h.nonzero, h.learners⟩
    | _ => exact ⟨h.nonzero, h.learners⟩
  | commit hcommit => cases hcommit <;> exact ⟨h.nonzero, h.learners⟩
  | apply happly =>
    cases happly with
    | save hsave => cases hsave; exact ⟨h.nonzero, h.learners⟩
    | _ => exact ⟨h.nonzero, h.learners⟩

theorem Launched.self_apart {config : NodeConfig} {state : RaftPersistentState}
    (h : Launched config state node) : node.SelfApart := by
  have hdistinct := h.distinct
  rw [List.cons_append, List.nodup_cons] at hdistinct
  refine ⟨h.nodeId ▸ h.nonzero, ?_⟩
  rw [h.nodeId, h.learners]
  exact fun hid => hdistinct.1 (List.mem_append_right _ hid)

/-! ## Steps -/

/-- The flag is right before a commit, and what is at hand will keep it so. -/
structure Governed (operation : Operation) (node : RaftNode) : Prop extends Rostered node,
    SelfApart node where
  status : node.VoterStatus
  consistent : node.Consistent operation

/-- The flag is right while committed changes are applied, and what is in the log will keep it
so. -/
structure Settled (node : RaftNode) : Prop extends Rostered node, SelfApart node where
  status : node.VoterStatus
  steered : node.Steered node.Unapplied

theorem keeps_pending_of_not_replicates (h : ¬ operation.Replicates) :
    KeepsPending operation node := by
  rintro source request log index entry rfl
  exact absurd trivial h

theorem coming_eq_unapplied (h : ¬ operation.Replicates) :
    node.Coming operation = node.Unapplied := by
  funext index change
  exact propext ⟨fun hchange => hchange.resolve_right fun hrequested =>
    h hrequested.1.replicates, .inl⟩

/-- The flag stays right when fewer changes are at hand. -/
theorem Governed.dwindles (h : node.Governed operation) (hroster : after.Rostered)
    (hapart : after.SelfApart) (hself : after.config.nodeId = node.config.nodeId)
    (hlearner : after.config.learner = node.config.learner)
    (hcluster : after.clusterConfig = node.clusterConfig)
    (hjoint : after.jointConfig = node.jointConfig)
    (hless : Dwindles (node.Coming operation) (after.Coming operation))
    (hkept : KeepsPending operation node → KeepsPending operation after) :
    after.Governed operation where
  toRostered := hroster
  toSelfApart := hapart
  status := by
    rw [VoterStatus, hself, hlearner, clusterIds, jointIds, hcluster, hjoint]
    exact h.status
  consistent := by
    refine ⟨h.consistent.steered.dwindles hself hcluster
      (fun target htarget => .inl (hjoint ▸ htarget)) hless, ?_, ?_⟩
    · intro hproposes index change hchange hleaves target htarget
      rw [Leaves, hself] at hleaves
      rw [hself]
      rcases hless.known_or_last hchange with hold | hlast
      · exact h.consistent.proposing hproposes index change hold hleaves target
          (hless.joint_behind htarget)
      · exact absurd htarget (hlast target)
    · rw [hself, clusterIds, jointIds, hcluster, hjoint]
      exact fun houtside hinside => hkept (h.consistent.kept houtside hinside)

theorem dwindles_of_subset (h : ∀ index change, later index change → changes index change) :
    Dwindles changes later := fun index change hchange => .inl (h index change hchange)

theorem dwindles_append_exit {exit : ConfChangeEntry} {encoded : Bytes}
    (hexit : node.makeJointExitEntry = some exit)
    (hencoded : encodeConfChangeEntry exit = .ok encoded)
    (hlog : after.log = node.log.append node.currentTerm .confChange encoded)
    (happlied : after.configurationAppliedIndex = node.configurationAppliedIndex) :
    Dwindles node.Unapplied after.Unapplied := by
  intro index change hchange
  refine (unapplied_append_exit hchange hexit hencoded hlog happlied).imp_right ?_
  rintro ⟨rfl, hstable, -⟩
  refine ⟨hstable, fun other change hother => ?_⟩
  obtain ⟨-, entry, hentry, -⟩ := hother
  have hrange := ((after.log).entry_at_is_some other).mp (by simp [hentry])
  rw [hlog, RaftLog.last_index_append] at hrange
  exact hrange.2

/-- A proposal is made by a voter and names it. -/
theorem Governed.proposed (h : node.Governed operation) (hproposes : operation.Proposes)
    (hproposable : node.Proposable cluster change) (hroster : after.Rostered)
    (hapart : after.SelfApart) (hself : after.config.nodeId = node.config.nodeId)
    (hlearner : after.config.learner = node.config.learner)
    (hcluster : after.clusterConfig = node.clusterConfig)
    (hnew : ∀ index new, after.Coming operation index new → node.Coming operation index new ∨
      (new.joint = true ∧ new.targetConfig = change.targetConfig)) : after.Governed operation := by
  obtain ⟨hstable, htarget⟩ := hproposable.self_mem h.toSelfApart
  have hmember : after.config.nodeId ∈ after.clusterIds := by
    rw [hself, clusterIds, hcluster]
    exact hstable
  have hbehind : ∀ index exit, after.Coming operation index exit → after.Leaves exit →
      ∀ target, JointBehind (after.Coming operation) index target →
        after.config.nodeId ∈ configurationMemberIds target := by
    intro index exit hexit hleaves target hahead
    obtain ⟨other, joint, hbound, hother, hjoint, hleads⟩ := hahead
    have hknown : node.Coming operation index exit := by
      refine (hnew index exit hexit).resolve_right fun hnewer => ?_
      have hjoint := hnewer.1
      rw [hleaves.1] at hjoint
      cases hjoint
    rw [Leaves, hself] at hleaves
    rw [hself]
    rcases hnew other joint hother with hold | ⟨-, hsame⟩
    · exact h.consistent.proposing hproposes index exit hknown hleaves target
        ⟨other, joint, hbound, hold, hjoint, hleads⟩
    · rw [← hleads, hsame]
      exact htarget
  refine ⟨hroster, hapart, ?_, ⟨?_, fun index exit hexit hleaves => .inl
    (hbehind index exit hexit hleaves)⟩, fun _ => hbehind, fun houtside => absurd hmember houtside⟩
  · rw [VoterStatus, hlearner]
    exact iff_of_true (h.status.mpr (.inl hstable)) (.inl hmember)
  · exact fun houtside => absurd hmember houtside

/-- A pending entry that is kept is not rolled back. -/
theorem rollback_pending_of_kept {log : RaftLog}
    (hkept : ∀ index entry, node.pendingConfChangeIndex = some index →
      node.log.entryAt index = some entry → log.entryAt index = some entry) :
    ({ node with log }.rollbackPending node.pendingChange).1 = { node with log } := by
  unfold rollbackPending
  split
  · rename_i command joint index hpending hindex
    have hentry : ∃ entry, node.log.entryAt index = some entry ∧ entry.command = command := by
      have hindex : node.pendingConfChangeIndex = some index := hindex
      rw [pendingChange, hindex] at hpending
      dsimp only at hpending
      split_ifs at hpending
      split at hpending
      · cases hpending
      · rename_i entry hentry
        obtain ⟨change, -, hsame⟩ := Option.map_eq_some_iff.mp hpending
        exact ⟨entry, hentry, (Prod.mk.inj hsame).1⟩
    obtain ⟨entry, hentry, rfl⟩ := hentry
    rw [if_pos (by simp only [hkept index entry hindex hentry, Option.map_some])]
  · rfl

theorem keeps_pending_merge {log : RaftLog} {source : NodeId} {request : AppendEntriesRequest}
    (hoperation : operation = .handleAppendEntries source request)
    (hlog : node.log.appendFrom request.previousLogIndex request.entries = .ok log) :
    KeepsPending operation { node with log } := by
  intro source again merged index entry hagain hmerged hindex hentry
  cases hoperation.symm.trans hagain
  exact RaftLog.append_from_again hlog hmerged hentry

theorem Appended.keeps_pending {entry : LogEntry} (h : Appended operation node entry change)
    (hlog : after.log = node.log) (hpending : after.pendingConfChangeIndex = some entry.index) :
    KeepsPending operation after := by
  obtain ⟨source, request, hoperation, hsent, hheld, -⟩ := h
  intro source again merged index other hagain hmerged hindex hother
  cases hoperation.symm.trans hagain
  cases hpending.symm.trans hindex
  rw [hlog, node.log.entry_at_of_mem hheld] at hother
  cases hother
  exact merged.entry_at_of_mem (RaftLog.append_from_mem hmerged hsent)

/-- The entries of a request keep the flag right. -/
theorem Governed.merge {log : RaftLog} {source : NodeId} {request : AppendEntriesRequest}
    (h : node.Governed operation) (hoperation : operation = .handleAppendEntries source request)
    (hlog : node.log.appendFrom request.previousLogIndex request.entries = .ok log)
    (hafter : after = ({ node with log }.rollbackPending node.pendingChange).1)
    (hroster : after.Rostered) (hapart : after.SelfApart) : after.Governed operation := by
  have hless : Dwindles (node.Coming operation) (after.Coming operation) :=
    dwindles_of_subset fun _ _ hchange => coming_merge hlog hoperation (hafter ▸ hchange)
  by_cases hjoining : node.config.nodeId ∉ node.clusterIds ∧ node.config.nodeId ∈ node.jointIds
  · have hkept := h.consistent.kept hjoining.1 hjoining.2
    have hsame := rollback_pending_of_kept fun index entry =>
      hkept source request log index entry hoperation hlog
    rw [hsame] at hafter
    subst hafter
    exact h.dwindles hroster hapart rfl rfl rfl rfl hless fun _ =>
      keeps_pending_merge hoperation hlog
  · obtain ⟨hself, hlearner, -, hcluster, hjoint⟩ :=
      rollback_pending_members { node with log } node.pendingChange
    rw [← hafter] at hself hlearner hcluster hjoint
    have hjoins : ∀ target, after.jointConfig = some target → node.jointConfig = some target := by
      intro target htarget
      rcases hjoint with hsame | hnone
      · exact hsame.symm.trans htarget
      · cases hnone.symm.trans htarget
    have hinside : after.config.nodeId ∈ after.jointIds → node.config.nodeId ∈ node.jointIds := by
      rw [mem_joint_ids, mem_joint_ids, hself]
      intro hinside
      obtain ⟨joint, hsome, hmember⟩ := hinside
      exact ⟨joint, hjoins joint hsome, hmember⟩
    have hstable : after.config.nodeId ∈ after.clusterIds ↔ node.config.nodeId ∈ node.clusterIds := by
      rw [hself, clusterIds, hcluster]
      rfl
    have houter : node.config.nodeId ∈ node.jointIds → node.config.nodeId ∈ node.clusterIds :=
      fun hmember => by_contra fun houtside => hjoining ⟨houtside, hmember⟩
    refine ⟨hroster, hapart, ?_, ⟨h.consistent.steered.dwindles hself hcluster
      (fun target htarget => .inl (hjoins target htarget)) hless, ?_, ?_⟩⟩
    · rw [VoterStatus, hlearner, hstable]
      refine h.status.trans ⟨fun hmember => .inl (hmember.elim id houter), fun hmember => ?_⟩
      exact hmember.imp_right hinside
    · subst hoperation
      exact False.elim
    · rw [hstable]
      exact fun houtside hmember => absurd (houter (hinside hmember)) houtside

/-- What comes before a commit keeps the flag right. -/
theorem Prepare.governed (hstep : Prepare operation first second) (h : first.Governed operation) :
    second.Governed operation := by
  have hroster := (Micro.prepare hstep).rostered h.toRostered
  have hself := (Micro.prepare hstep).self_apart h.toSelfApart
  cases hstep with
  | stepDown term leader hmessage hterm =>
    unfold becomeFollower resetElectionTimer at hroster hself ⊢
    split_ifs at hroster hself ⊢ <;>
      exact h.dwindles hroster hself rfl rfl rfl rfl (dwindles_of_subset fun _ _ => id) id
  | takeOver helects hrole hquorum =>
    exact h.dwindles hroster hself rfl rfl rfl rfl (dwindles_of_subset fun _ _ hchange =>
      coming_append hchange (by decide) rfl rfl rfl)
      fun _ => keeps_pending_of_not_replicates (not_replicates_of_elects helects)
  | pendExit joint index helects hrole hjoint hexit =>
    exact h.dwindles hroster hself rfl rfl rfl rfl (dwindles_of_subset fun _ _ => id)
      fun _ => keeps_pending_of_not_replicates (not_replicates_of_elects helects)
  | appendExit exit encoded helects hrole hfresh hexit hencoded =>
    have hmessage := not_replicates_of_elects helects
    refine h.dwindles hroster hself rfl rfl rfl rfl ?_
      fun _ => keeps_pending_of_not_replicates hmessage
    rw [coming_eq_unapplied hmessage, coming_eq_unapplied hmessage]
    exact dwindles_append_exit hexit hencoded rfl rfl
  | appendCommand command hrole hproposal =>
    exact h.dwindles hroster hself rfl rfl rfl rfl (dwindles_of_subset fun _ _ hchange =>
      coming_append hchange (by decide) rfl rfl rfl)
      fun _ => keeps_pending_of_not_replicates (hproposal ▸ id)
  | proposeUnencoded cluster change error hproposal hproposable hencoded =>
    exact h.proposed (hproposal ▸ trivial) hproposable hroster hself rfl rfl rfl
      fun _ _ hnew => .inl hnew
  | proposeChange cluster change encoded hproposal hproposable hencoded =>
    refine h.proposed (hproposal ▸ trivial) hproposable hroster hself rfl rfl rfl ?_
    rintro index new (⟨hlater, entry, hentry, hnew⟩ | hrequested)
    · rcases entry_at_append_cases first.log hentry with hheld | ⟨-, rfl⟩
      · exact .inl (.inl ⟨hlater, entry, hheld, hnew⟩)
      · obtain ⟨hjoint, htarget⟩ := change_of_encoded hproposable.added_mem hencoded hnew
        exact .inr ⟨hjoint.trans hproposable.joint, htarget⟩
    · exact .inl (.inr hrequested)
  | merge source request log hrequest hrole hterm hprevious hlog =>
    exact h.merge hrequest hlog rfl hroster hself
  | join cluster entry change hrole happended hjoint hcluster =>
    have hcoming := happended.coming
    obtain ⟨source, request, rfl, -, -, hlater, -⟩ := id happended
    have hbehind : JointBehind (first.Coming (.handleAppendEntries source request))
        first.commitIndex change.targetConfig :=
      ⟨entry.index, change, hlater, hcoming, hjoint, rfl⟩
    refine ⟨hroster, hself, h.status.adopt_joint _ fun houtside hinside => ?_,
      h.consistent.steered.dwindles rfl rfl ?_ (dwindles_of_subset fun _ _ => id), False.elim,
      fun _ _ => happended.keeps_pending rfl rfl⟩
    · obtain ⟨joint, hsome, hmember⟩ := mem_joint_ids.mp hinside
      exact (h.consistent.steered.outside houtside).mem (.inl hsome)
        (.inr ⟨_, hbehind⟩) hmember
    · rintro target htarget
      cases htarget
      exact .inr ⟨_, hbehind⟩
  | fault change hcluster _ => exact absurd hcluster h.cluster_ne_none
  | cutLog log commit hsnapshot hcut =>
    refine h.dwindles hroster hself rfl rfl rfl rfl (dwindles_of_subset fun _ _ hchange =>
      coming_cut hsnapshot hcut hchange) fun _ => keeps_pending_of_not_replicates ?_
    cases operation <;> simp_all [Operation.Snapshot, Operation.Replicates]
  | save hsave =>
    cases hsave
    exact h.dwindles hroster hself rfl rfl rfl rfl (dwindles_of_subset fun _ _ => id) id
  | _ => exact h.dwindles hroster hself rfl rfl rfl rfl (dwindles_of_subset fun _ _ => id) id

theorem Settled.dwindles (h : node.Settled) (hroster : after.Rostered) (hapart : after.SelfApart)
    (hconfig : after.config = node.config) (hcluster : after.clusterConfig = node.clusterConfig)
    (hjoint : after.jointConfig = node.jointConfig)
    (hless : Dwindles node.Unapplied after.Unapplied) : after.Settled where
  toRostered := hroster
  toSelfApart := hapart
  status := by
    rw [VoterStatus, hconfig, clusterIds, jointIds, hcluster, hjoint]
    exact h.status
  steered := h.steered.dwindles (by rw [hconfig]) hcluster
    (fun target htarget => .inl (hjoint ▸ htarget)) hless

theorem Commit.settled (hstep : Commit operation first second) (h : first.Settled) :
    second.Settled := by
  have hroster := (Micro.commit hstep).rostered h.toRostered
  have hself := (Micro.commit hstep).self_apart h.toSelfApart
  cases hstep <;> exact h.dwindles hroster hself rfl rfl rfl (dwindles_of_subset fun _ _ => id)

theorem Committed.behind {exit : ConfChangeEntry} (hcommitted : node.Committed exit)
    (hstable : exit.joint = false) {bound : Nat} (h : JointBehind node.Unapplied bound target) :
    JointBehind node.Unapplied (node.configurationAppliedIndex + 1) target := by
  obtain ⟨index, change, -, ⟨hlater, entry, hentry, hchange⟩, hjoint, htarget⟩ := h
  refine ⟨index, change, ?_, ⟨hlater, entry, hentry, hchange⟩, hjoint, htarget⟩
  refine Nat.lt_of_le_of_ne hlater fun hnext => ?_
  obtain ⟨-, first, hfirst, hexit⟩ := hcommitted
  rw [hnext, hentry] at hfirst
  cases hfirst
  cases hchange.symm.trans hexit
  rw [hjoint] at hstable
  cases hstable

/-- Putting committed changes into force keeps the flag right. -/
theorem Apply.settled (hstep : Apply first second) (h : first.Settled) : second.Settled := by
  have hmicro : Micro (.tick 0) first second := .apply hstep
  have hroster := hmicro.rostered h.toRostered
  have hself := hmicro.self_apart h.toSelfApart
  cases hstep with
  | joint cluster change hcommitted hjoint hcluster =>
    have hbehind : JointBehind first.Unapplied first.configurationAppliedIndex
        change.targetConfig :=
      ⟨_, change, Nat.lt_succ_self _, hcommitted.unapplied, hjoint, rfl⟩
    refine ⟨hroster, hself, h.status.adopt_joint none fun houtside hinside => ?_,
      h.steered.dwindles rfl rfl ?_ (dwindles_of_subset fun _ _ => id)⟩
    · obtain ⟨joint, hsome, hmember⟩ := mem_joint_ids.mp hinside
      exact (h.steered.outside houtside).mem (.inl hsome) (.inr ⟨_, hbehind⟩) hmember
    · rintro target htarget
      cases htarget
      exact .inr ⟨_, hbehind⟩
  | stable change hcommitted hjoint =>
    refine ⟨hroster, hself, ?_, fun houtside => ?_, h.steered.leaving⟩
    · show (!(configurationMemberIds change.targetConfig).contains first.config.nodeId) = false ↔
        first.config.nodeId ∈ configurationMemberIds change.targetConfig ∨
          first.config.nodeId ∈ ([] : List NodeId)
      simp
    · -- The node leaves: what comes behind the exit agrees on it.
      refine (h.steered.leaving _ change hcommitted.unapplied ⟨hjoint, houtside⟩).mono ?_
      rintro target (hnone | ⟨bound, htarget⟩)
      · cases hnone
      · exact hcommitted.behind hjoint htarget
  | fault change hcluster _ => exact absurd hcluster h.cluster_ne_none
  | appendExit exit encoded hrole hbehind hexit hencoded =>
    exact h.dwindles hroster hself rfl rfl rfl (dwindles_append_exit hexit hencoded rfl rfl)
  | advance hlater =>
    exact h.dwindles hroster hself rfl rfl rfl (dwindles_of_subset fun _ _ hchange =>
      ⟨Nat.lt_of_succ_lt hchange.1, hchange.2⟩)
  | save hsave =>
    cases hsave
    exact h.dwindles hroster hself rfl rfl rfl (dwindles_of_subset fun _ _ => id)

theorem Governed.settled (h : node.Governed operation) : node.Settled :=
  ⟨h.toRostered, h.toSelfApart, h.status, h.consistent.steered.dwindles rfl rfl
    (fun _ htarget => .inl htarget) (dwindles_of_subset fun _ _ hchange => .inl hchange)⟩

theorem settled_after (hroster : node.Rostered) (hapart : node.SelfApart)
    (hstatus : node.VoterStatus) (hconsistent : node.Consistent operation) :
    (node.after operation).Settled :=
  (phases_after operation node).reaches (fun _ _ => Prepare.governed)
    (fun _ h => h.settled) (fun _ _ hcommit h => hcommit.settled h.settled)
    (fun _ _ => Apply.settled) ⟨hroster, hapart, hstatus, hconsistent⟩

/-- A node that starts consistently has the right flag. -/
theorem Launched.voter_status {config : NodeConfig} {state : RaftPersistentState}
    (h : Launched config state node) (hstarts : StartsConsistent config state) :
    node.VoterStatus := by
  rw [StartsConsistent] at hstarts
  rw [VoterStatus, h.nodeId]
  cases h.configured with
  | restored cluster hsaved hvalid hcluster hjoint hpeers hlearner =>
    rw [hsaved] at hstarts
    rw [hlearner, clusterIds, jointIds, hcluster, hjoint]
    have hstable : config.nodeId ∈ memberIds (some cluster) ↔
        config.nodeId ∈ configurationMemberIds cluster := Iff.rfl
    rw [hstable, or_iff_left_of_imp hstarts]
    simp
  | bootstrapped cluster hsaved hbootstrap hvalid hcluster hjoint hpeers hlearner =>
    rw [hsaved, hbootstrap] at hstarts
    rw [hlearner, clusterIds, jointIds, hcluster, hjoint]
    have hnone : config.nodeId ∉ memberIds none := List.not_mem_nil
    rw [or_iff_left hnone]
    cases hlearns : config.learner with
    | false =>
      rw [hlearns] at hvalid
      refine iff_of_true rfl ?_
      exact (validate_cluster_configuration_ok hvalid).2.2.2.2.resolve_left h.nonzero
    | true => exact iff_of_false Bool.noConfusion (hstarts hlearns)

/-- In every run that starts consistently and whose changes at hand agree on the node, the node is
a voter exactly when a configuration in force has it as a member. -/
theorem voter_status_follows {run : Nat → RaftNode}
    (hrun : Lifetime StartsConsistent Consistent run) (k : Nat) : (run k).VoterStatus := by
  have hsettled : (run k).Rostered ∧ (run k).SelfApart ∧ (run k).VoterStatus := by
    refine hrun.invariant (I := fun node => node.Rostered ∧ node.SelfApart ∧ node.VoterStatus)
      (fun _ _ _ hstarts hlaunched =>
        ⟨hlaunched.rostered, hlaunched.self_apart, hlaunched.voter_status hstarts⟩) ?_ k
    rintro node operation hconsistent ⟨hroster, hapart, hstatus⟩
    have hafter := settled_after hroster hapart hstatus hconsistent
    exact ⟨hafter.toRostered, hafter.toSelfApart, hafter.status⟩
  exact hsettled.2.2

/-- A learner of `{1, 2, 3}` gets the entry that adds it from one leader, and another leader
overwrites the entry. -/
def overwrittenPromotion : List Operation :=
  [.handleAppendEntries 1
      { term := 1, leaderId := 1, previousLogIndex := 0, previousLogTerm := 0
        entries := [plainChange 1 1 .addNode true 4 (plainCluster 2 [1, 2, 3, 4])]
        leaderCommit := 0, readContext := 0 },
    .handleAppendEntries 2
      { term := 2, leaderId := 2, previousLogIndex := 0, previousLogTerm := 0
        entries := [{ index := 1, term := 2, type := .noOp, command := [] }]
        leaderCommit := 0, readContext := 0 }]

/-- The node stays a voter when it is no longer a member. -/
theorem voter_after_rollback :
    ∃ node, construct { nodeId := 4, learner := true
                        bootstrapCluster := some (plainCluster 1 [1, 2, 3]) } none = .ok node ∧
      Lifetime (fun _ _ => True) (fun _ _ => True)
        (fun k => node.afterAll (overwrittenPromotion.take k)) ∧
      ¬ (node.afterAll overwrittenPromotion).VoterStatus := by
  have houtcome : outcome { nodeId := 4, learner := true
                            bootstrapCluster := some (plainCluster 1 [1, 2, 3]) }
      overwrittenPromotion (fun node => (node.config.learner, node.config.nodeId, node.clusterIds,
        node.jointIds)) = some (true, false, 4, [1, 2, 3], []) := by
    decide +kernel
  obtain ⟨node, hnode, hrun, hview⟩ := lifetime_of_outcome houtcome
  simp only [Prod.mk.injEq] at hview
  obtain ⟨hlearner, hself, hcluster, hjoint⟩ := hview
  refine ⟨node, hnode, hrun, fun hstatus => ?_⟩
  rw [VoterStatus, hlearner, hself, hcluster, hjoint] at hstatus
  exact absurd (hstatus.mp rfl) (by decide)

theorem consistent_of_members (hnone : node.jointConfig = none)
    (hmembers : ∀ index change, node.Coming operation index change →
      change.joint = true ∧ node.config.nodeId ∈ configurationMemberIds change.targetConfig) :
    node.Consistent operation := by
  have hexit : ∀ index change, node.Coming operation index change → ¬ node.Leaves change :=
    fun index change hchange hleaves => hleaves.2 (hmembers index change hchange).2
  refine ⟨⟨fun _ => .inl fun target htarget => ?_, fun index change hchange hleaves =>
    absurd hleaves (hexit index change hchange)⟩, fun _ index change hchange hleaves =>
    absurd hleaves (hexit index change hchange), fun _ hjoint => ?_⟩
  · rcases htarget with hjoint | ⟨bound, index, change, -, hchange, -, rfl⟩
    · cases hnone.symm.trans hjoint
    · exact (hmembers index change hchange).2
  · obtain ⟨joint, hsome, -⟩ := mem_joint_ids.mp hjoint
    cases hnone.symm.trans hsome

/-- The entry that adds node 4 to `{1, 2, 3}` makes the learner a voter. -/
theorem learner_promoted :
    ∃ run : Nat → RaftNode, Lifetime StartsConsistent Consistent run ∧
      (run 0).config.learner = true ∧ (run 1).config.learner = false ∧ (run 1).VoterStatus := by
  have hbefore : outcome { nodeId := 4, learner := true
                           bootstrapCluster := some (plainCluster 1 [1, 2, 3]) } []
      (fun node => (node.config.learner, node.config.nodeId, node.jointConfig,
        decide (node.log.lastIndex ≤ node.configurationAppliedIndex))) =
      some (true, true, 4, none, true) := by
    decide +kernel
  have hafter : outcome { nodeId := 4, learner := true
                          bootstrapCluster := some (plainCluster 1 [1, 2, 3]) }
      (overwrittenPromotion.take 1) (fun node => node.config.learner) = some (true, false) := by
    decide +kernel
  have hread : (changeOf (plainChange 1 1 .addNode true 4 (plainCluster 2 [1, 2, 3, 4]))).map
      (fun change => (change.joint, configurationMemberIds change.targetConfig)) =
      some (true, [1, 2, 3, 4]) := by
    decide +kernel
  obtain ⟨node, hnode, -, hvoter⟩ := lifetime_of_outcome hafter
  obtain ⟨hcluster, hview⟩ := view_of_outcome hnode hbefore
  simp only [Prod.mk.injEq, decide_eq_true_eq] at hview
  obtain ⟨hlearner, hself, hnone, hempty⟩ : node.config.learner = true ∧ node.config.nodeId = 4 ∧
    node.jointConfig = none ∧ node.log.lastIndex ≤ node.configurationAppliedIndex := hview
  have hrun : Lifetime StartsConsistent Consistent
      (fun k => node.afterAll ((overwrittenPromotion.take 1).take k)) := by
    have hstarts : Starts StartsConsistent none node := ⟨_, fun _ => by decide, hnode, hcluster⟩
    refine Lifetime.of_operations hstarts fun k operation hoperation => ?_
    match k with
    | 0 =>
      refine consistent_of_members hnone fun index change hchange => ?_
      cases hoperation
      rcases hchange with hheld | ⟨⟨source, request, entry, hrequest, hsent, -, hchange⟩, -⟩
      · exact absurd hheld (not_unapplied_of_last_index_le hempty)
      · cases hrequest
        rw [← List.mem_singleton.mp hsent, hchange] at hread
        obtain ⟨hjoint, hmembers⟩ := Prod.mk.inj (Option.some.inj hread)
        refine ⟨hjoint, ?_⟩
        show node.config.nodeId ∈ _
        rw [hself, hmembers]
        decide
  exact ⟨_, hrun, hlearner, hvoter, voter_status_follows hrun 1⟩

end RaftNode

end DistributedKV
