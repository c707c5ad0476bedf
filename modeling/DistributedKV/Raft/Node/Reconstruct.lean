import DistributedKV.Raft.Node.Operation
import DistributedKV.Foundation.Barrier

/-!
# Which images can be started from

The constructor takes an image exactly when its safety part and its membership part pass their
checks (`construct_eq_ok_iff`), and then the node is a fixed function of configuration and image
(`construct_cases`): a follower with the barrier it was given, and with term, vote, log and commit
index of the latest image (`construct_durable`). The two parts are checked independently of each
other. A node whose journal is up to date can be constructed from it with its own log and commit
index (`Restartable.construct`).
-/

namespace DistributedKV

open Barrier RaftLog

/-- The parameters and ids of a configuration pass the checks of the constructor. -/
def NodeConfig.Checked (config : NodeConfig) : Prop :=
  config.parametersValid = true ∧ distinctIds [config.nodeId] config.peers = true ∧
    distinctIds (config.nodeId :: config.peers) config.learners = true

theorem RaftLog.entries_restore {entries : List LogEntry} {log : RaftLog}
    (hrun : RaftLog.restore entries = .ok log) : log.entries = entries := by
  cases entries with
  | nil => cases hrun
  | cons boundary suffix =>
    rw [restore] at hrun
    split_ifs at hrun
    cases hrun
    rfl

theorem RaftLog.restore_entries {log other : RaftLog}
    (hrun : RaftLog.restore log.entries = .ok other) : other = log := by
  have hentries := entries_restore hrun
  rw [entries, entries, List.cons.injEq] at hentries
  exact ext hentries.1 hentries.2

namespace RaftPersistentState

variable (image : RaftPersistentState)

/-- The log of an image; an image without entries stands for the empty log. -/
def restoredLog : RaftLog :=
  match RaftLog.restore image.entries with
  | .ok log => log
  | .error _ => .empty

/-- Term, entries and commit index of a saved image pass the checks. -/
structure Sound : Prop where
  term : image.currentTerm ≠ 0
  restored : RaftLog.restore image.entries = .ok image.restoredLog
  committed : image.commitIndex ≤ image.restoredLog.lastIndex
  terms : ∀ entry ∈ image.entries, entry.term ≤ image.currentTerm

variable {image}

theorem Sound.of_restore {log : RaftLog} (hterm : image.currentTerm ≠ 0)
    (hrestore : RaftLog.restore image.entries = .ok log)
    (hcommitted : image.commitIndex ≤ log.lastIndex)
    (hterms : ∀ entry ∈ image.entries, entry.term ≤ image.currentTerm) : image.Sound := by
  have hlog : image.restoredLog = log := by rw [restoredLog, hrestore]
  exact ⟨hterm, by rw [hlog, hrestore], by rwa [hlog], hterms⟩

theorem Sound.restored_log {log : RaftLog} (hsound : image.Sound)
    (hentries : image.entries = log.entries) : image.restoredLog = log := by
  have hrestored := hsound.restored
  rw [hentries] at hrestored
  exact restore_entries hrestored

end RaftPersistentState

theorem RaftLog.get_last_restore {entries : List LogEntry} {log : RaftLog}
    (hrun : RaftLog.restore entries = .ok log) : entries.getLast? = some log.back := by
  rw [← RaftLog.entries_restore hrun, RaftLog.entries, RaftLog.back, List.getLast?_cons]

namespace RaftNode

variable {config : NodeConfig} {barrier : RaftPersistence} {image : RaftPersistentState}
  {node after : RaftNode}

/-! ## The safety part -/

/-- The node with the term, the vote, the log and the commit index of an image. -/
def withDurable (node : RaftNode) (state : RaftPersistentState) (log : RaftLog) : RaftNode :=
  { node with
    currentTerm := state.currentTerm
    votedFor := state.votedFor
    log
    commitIndex := state.commitIndex }

theorem restore_durable_of_sound (hsound : image.Sound) (node : RaftNode) :
    node.restoreDurable image = .ok (node.withDurable image image.restoredLog) := by
  have hinitial : image ≠ {} := by
    rintro rfl
    exact hsound.term rfl
  have hterms : ¬ (image.entries.any fun entry => decide (image.currentTerm < entry.term)) = true := by
    simpa using hsound.terms
  rw [restoreDurable, if_neg hinitial, if_neg hsound.term, get_last_restore hsound.restored]
  dsimp only
  rw [if_neg (show ¬ image.restoredLog.back.index < image.commitIndex from
    not_lt.mpr hsound.committed), hsound.restored]
  dsimp only
  rw [if_neg hterms]
  rfl

/-- An image that is loaded is the initial one or sound. -/
theorem sound_of_restore_durable (hrun : node.restoreDurable image = .ok after) :
    image = {} ∨ image.Sound := by
  rw [restoreDurable] at hrun
  split at hrun
  · rename_i hinitial
    exact .inl hinitial
  split at hrun
  · cases hrun
  rename_i hterm
  split at hrun
  · cases hrun
  rename_i last hlast
  split at hrun
  · cases hrun
  rename_i hcommitted
  split at hrun
  · cases hrun
  rename_i log hlog
  split at hrun
  · cases hrun
  rename_i hterms
  have hrestored : image.restoredLog = log := by rw [RaftPersistentState.restoredLog, hlog]
  have hback := get_last_restore hlog
  rw [hlast, Option.some.injEq] at hback
  subst hback
  exact .inr ⟨hterm, by rw [hrestored, hlog], by rw [hrestored]; exact not_lt.mp hcommitted,
    by simpa using hterms⟩

theorem restore_durable_initial (config : NodeConfig) (barrier : Option RaftPersistence) :
    (fresh config barrier).restoreDurable {} =
      .ok ((fresh config barrier).withDurable {} (RaftPersistentState.restoredLog {})) := rfl

theorem restore_durable_iff {barrier : Option RaftPersistence} :
    (fresh config barrier).restoreDurable image = .ok after ↔
      (image = {} ∨ image.Sound) ∧
        after = (fresh config barrier).withDurable image image.restoredLog := by
  constructor
  · intro hrun
    have hloaded := sound_of_restore_durable hrun
    refine ⟨hloaded, ?_⟩
    rcases hloaded with rfl | hsound
    · rw [restore_durable_initial] at hrun
      exact (Except.ok.inj hrun).symm
    · rw [restore_durable_of_sound hsound] at hrun
      exact (Except.ok.inj hrun).symm
  · rintro ⟨rfl | hsound, rfl⟩
    · exact restore_durable_initial config barrier
    · exact restore_durable_of_sound hsound _

/-! ## The membership part -/

/-- The configuration a node starts with. -/
def startedConfig (config : NodeConfig) (image : RaftPersistentState) : NodeConfig :=
  match image.clusterConfig with
  | some cluster =>
    { config with
      learner := !(configurationMemberIds cluster).contains config.nodeId
      peers := loadedPeers cluster image.jointConfig config.nodeId }
  | none =>
    match config.bootstrapCluster with
    | none => config
    | some cluster =>
      { config with peers := applyPeersFromConfiguration cluster config.nodeId }

/-- The joint configuration a node starts with: that of an image that has a stable one. -/
def startedJoint (image : RaftPersistentState) : Option ClusterConfiguration :=
  image.clusterConfig.bind fun _ => image.jointConfig

/-- The node with the configuration it starts with. -/
def configured (node : RaftNode) (image : RaftPersistentState) : RaftNode :=
  { node with
    config := startedConfig node.config image
    clusterConfig := image.clusterConfig <|> node.config.bootstrapCluster
    jointConfig := startedJoint image
    configurationAppliedIndex := if image.clusterConfig.isSome then node.commitIndex else 0 }

/-- The node with the operations of an image. -/
def withOperations (node : RaftNode) (image : RaftPersistentState) : RaftNode :=
  { node with
    activeMembershipOperation := image.activeMembershipOperation
    completedMembershipOperation := image.completedMembershipOperation }

/-- The node that starts from an image before its timer is set. -/
def loaded (config : NodeConfig) (barrier : Option RaftPersistence)
    (image : RaftPersistentState) : RaftNode :=
  (((fresh config barrier).withDurable image image.restoredLog).configured image).withOperations
    image

/-- The stable configuration a node would start with is valid. The one of an image need not
contain the node. -/
def ConfigurationValid (config : NodeConfig) (image : RaftPersistentState) : Prop :=
  match image.clusterConfig with
  | some cluster => validateClusterConfiguration cluster 0 = .ok ()
  | none => ∀ cluster, config.bootstrapCluster = some cluster →
      validateClusterConfiguration cluster (if config.learner then 0 else config.nodeId) = .ok ()

/-- Configurations, operations and vote of an image pass the checks. -/
structure MembershipValid (config : NodeConfig) (image : RaftPersistentState) : Prop where
  configuration : ConfigurationValid config image
  active : checkOperation image.activeMembershipOperation = .ok ()
  completed : checkOperation image.completedMembershipOperation = .ok ()
  joint : image.activeMembershipOperation.isSome = true → (startedJoint image).isSome = true
  vote : ∀ candidate, image.votedFor = some candidate →
    (loaded config none image).isMember candidate = true

/-- A configuration is started from when it is valid. -/
theorem start_configuration_iff (hcluster : node.clusterConfig = none)
    (hjoint : node.jointConfig = none) (happlied : node.configurationAppliedIndex = 0) :
    node.startConfiguration image = .ok after ↔
      ConfigurationValid node.config image ∧ after = node.configured image := by
  rw [startConfiguration, ConfigurationValid, configured, startedConfig, startedJoint]
  cases image.clusterConfig with
  | some cluster =>
    dsimp only
    rw [restoreConfiguration]
    cases validateClusterConfiguration cluster 0 with
    | error error => simp
    | ok _ => exact ⟨fun h => ⟨rfl, (Except.ok.inj h).symm⟩, fun h => congrArg _ h.2.symm⟩
  | none =>
    obtain ⟨⟨self, peers, bootstrap, _, _, _, _, _, _, learner⟩⟩ := node
    dsimp only at hcluster hjoint happlied ⊢
    subst hcluster hjoint happlied
    rw [bootstrapConfiguration]
    cases bootstrap with
    | none =>
      exact ⟨fun h => ⟨by simp, (Except.ok.inj h).symm⟩, fun h => congrArg _ h.2.symm⟩
    | some cluster =>
      cases hvalid : validateClusterConfiguration cluster
          (if learner = true then 0 else self) with
      | error error => simp [hvalid]
      | ok _ =>
        dsimp only
        rw [hvalid]
        exact ⟨fun h => ⟨by simpa using hvalid, (Except.ok.inj h).symm⟩,
          fun h => congrArg _ h.2.symm⟩

/-- When the operations of an image are taken over. -/
theorem restore_operations_iff :
    node.restoreOperations image = .ok after ↔
      (checkOperation image.activeMembershipOperation = .ok () ∧
        checkOperation image.completedMembershipOperation = .ok () ∧
        (image.activeMembershipOperation.isSome = true → node.jointConfig.isSome = true)) ∧
      after = node.withOperations image := by
  rw [restoreOperations, except_bind_eq_ok]
  constructor
  · rintro ⟨⟨⟩, hactive, hrun⟩
    obtain ⟨⟨⟩, hcompleted, hrun⟩ := except_bind_eq_ok.mp hrun
    split at hrun
    · cases hrun
    rename_i hjoint
    cases hrun
    refine ⟨⟨hactive, hcompleted, fun hsome => ?_⟩, rfl⟩
    simpa [hsome, Option.isSome_iff_ne_none] using hjoint
  · rintro ⟨⟨hactive, hcompleted, hjoint⟩, rfl⟩
    refine ⟨(), hactive, except_bind_eq_ok.mpr ⟨(), hcompleted, if_neg ?_⟩⟩
    rintro ⟨hsome, hnone⟩
    have hpresent := hjoint hsome
    rw [Option.isNone_iff_eq_none] at hnone
    rw [hnone] at hpresent
    cases hpresent

theorem check_vote_iff :
    node.checkVote image = .ok () ↔
      ∀ candidate, image.votedFor = some candidate → node.isMember candidate = true := by
  rw [checkVote]
  cases image.votedFor with
  | none => simp
  | some candidate =>
    dsimp only
    split_ifs with hmember
    · simp [hmember]
    · simp [hmember]

/-! ## The constructor -/

/-- The node that starts from the latest image of a barrier. -/
def reconstructed (config : NodeConfig) (barrier : RaftPersistence) : RaftNode :=
  (loaded config (some barrier) barrier.latest).recoverPending.resetElectionTimer

/-- An image that passes all checks leads to one node. -/
theorem construct_eq_ok_iff (hload : barrier.loadAnswer = .ok ()) :
    construct config (some barrier) = .ok node ↔
      (config.Checked ∧ (barrier.latest = {} ∨ barrier.latest.Sound) ∧
        MembershipValid config barrier.latest) ∧ node = reconstructed config barrier := by
  have hstate : barrier.load = .ok barrier.latest := by
    rw [RaftPersistence.load, hload]
    rfl
  constructor
  · intro hrun
    rw [construct] at hrun
    split_ifs at hrun with hparameters hpeers hlearners
    have hchecked : config.Checked := ⟨by simpa using hparameters, by simpa using hpeers,
      by simpa using hlearners⟩
    dsimp only at hrun
    rw [hstate] at hrun
    obtain ⟨started, hstarted, rfl⟩ := except_map_eq_ok.mp hrun
    obtain ⟨restored, hrestored, hrun⟩ := except_bind_eq_ok.mp hstarted
    obtain ⟨hloaded, rfl⟩ := restore_durable_iff.mp hrestored
    obtain ⟨started, hstarted, hrun⟩ := except_bind_eq_ok.mp hrun
    obtain ⟨hconfiguration, rfl⟩ := (start_configuration_iff rfl rfl rfl).mp hstarted
    obtain ⟨operating, hoperating, hrun⟩ := except_bind_eq_ok.mp hrun
    obtain ⟨⟨hactive, hcompleted, hjoint⟩, rfl⟩ := restore_operations_iff.mp hoperating
    obtain ⟨⟨⟩, hvote, hrun⟩ := except_bind_eq_ok.mp hrun
    cases hrun
    exact ⟨⟨hchecked, hloaded, hconfiguration, hactive, hcompleted, hjoint,
      check_vote_iff.mp hvote⟩, rfl⟩
  · rintro ⟨⟨⟨hparameters, hpeers, hlearners⟩, hloaded, hmembership⟩, rfl⟩
    rw [construct, if_neg (by simp [hparameters]), if_neg (by simp [hpeers]),
      if_neg (by simp [hlearners])]
    dsimp only
    rw [hstate]
    refine except_map_eq_ok.mpr ⟨_, ?_, rfl⟩
    refine except_bind_eq_ok.mpr ⟨_, restore_durable_iff.mpr ⟨hloaded, rfl⟩, ?_⟩
    refine except_bind_eq_ok.mpr ⟨_, (start_configuration_iff rfl rfl rfl).mpr
      ⟨hmembership.configuration, rfl⟩, ?_⟩
    refine except_bind_eq_ok.mpr ⟨_, restore_operations_iff.mpr
      ⟨⟨hmembership.active, hmembership.completed, hmembership.joint⟩, rfl⟩, ?_⟩
    exact except_bind_eq_ok.mpr ⟨(), check_vote_iff.mpr hmembership.vote, rfl⟩

theorem recover_pending_fields (node : RaftNode) :
    ∃ active pending, node.recoverPending =
      { node with activeMembershipOperation := active, pendingConfChangeIndex := pending } := by
  rw [recoverPending]
  split
  · exact ⟨_, _, rfl⟩
  · dsimp only
    split <;> exact ⟨_, _, rfl⟩

theorem reconstructed_fields (config : NodeConfig) (barrier : RaftPersistence) :
    (reconstructed config barrier).persistence = some barrier ∧
      (reconstructed config barrier).currentTerm = barrier.latest.currentTerm ∧
      (reconstructed config barrier).votedFor = barrier.latest.votedFor ∧
      (reconstructed config barrier).log = barrier.latest.restoredLog ∧
      (reconstructed config barrier).commitIndex = barrier.latest.commitIndex := by
  obtain ⟨active, pending, hrecovered⟩ :=
    recover_pending_fields (loaded config (some barrier) barrier.latest)
  rw [reconstructed, hrecovered]
  exact ⟨rfl, rfl, rfl, rfl, rfl⟩

/-- The image a construction loads: the latest saved one, and the initial one without a
barrier. -/
def loadedImage (persistence : Option RaftPersistence) : RaftPersistentState :=
  (persistence.map (·.latest)).getD {}

/-- What a construction that succeeds has checked. -/
theorem construct_cases {persistence : Option RaftPersistence}
    (hrun : construct config persistence = .ok node) :
    (config.Checked ∧ (loadedImage persistence = {} ∨ (loadedImage persistence).Sound) ∧
        MembershipValid config (loadedImage persistence)) ∧
      node =
        (loaded config persistence (loadedImage persistence)).recoverPending.resetElectionTimer := by
  cases persistence with
  | some barrier =>
    have hload : barrier.loadAnswer = .ok () := by
      rw [construct] at hrun
      split_ifs at hrun
      dsimp only at hrun
      split at hrun
      · cases hrun
      · rename_i state hload
        obtain ⟨⟨⟩, hanswer, -⟩ := except_map_eq_ok.mp hload
        exact hanswer
    exact (construct_eq_ok_iff hload).mp hrun
  | none =>
    rw [construct] at hrun
    split_ifs at hrun with hparameters hpeers hlearners
    obtain ⟨started, hbootstrap, rfl⟩ := except_map_eq_ok.mp hrun
    have hstart : (fresh config none).startConfiguration {} = .ok started := hbootstrap
    obtain ⟨hconfiguration, rfl⟩ := (start_configuration_iff rfl rfl rfl).mp hstart
    have hmembership : MembershipValid config {} := by
      refine ⟨hconfiguration, rfl, rfl, ?_, ?_⟩
      · simp
      · simp
    exact ⟨⟨⟨by simpa using hparameters, by simpa using hpeers, by simpa using hlearners⟩,
      .inl rfl, hmembership⟩, rfl⟩

/-- The fields of a node that come from its latest image. -/
structure Restored (barrier : RaftPersistence) (node : RaftNode) : Prop where
  persistence : node.persistence = some barrier
  role : node.role = .follower
  durable : (barrier.latest = {} ∧ node.log = .empty ∧ node.currentTerm = 0 ∧
      node.votedFor = none ∧ node.commitIndex = 0) ∨
    (RaftLog.restore barrier.latest.entries = .ok node.log ∧
      node.currentTerm = barrier.latest.currentTerm ∧
      node.votedFor = barrier.latest.votedFor ∧
      node.commitIndex = barrier.latest.commitIndex)

theorem construct_durable {persistence : RaftPersistence}
    (hrun : construct config (some persistence) = .ok node) : Restored persistence node := by
  obtain ⟨⟨-, hsafety, -⟩, rfl⟩ := construct_cases hrun
  obtain ⟨active, pending, hrecovered⟩ :=
    recover_pending_fields (loaded config (some persistence) (loadedImage (some persistence)))
  rw [hrecovered]
  refine ⟨rfl, rfl, ?_⟩
  rcases hsafety with hinitial | hsound
  · have hlatest : persistence.latest = {} := hinitial
    refine .inl ⟨hlatest, ?_⟩
    simp only [loadedImage, Option.map_some, Option.getD_some, hlatest]
    exact ⟨rfl, rfl, rfl, rfl⟩
  · exact .inr ⟨hsound.restored, rfl, rfl, rfl⟩

theorem construct_follows {persistence : Option RaftPersistence}
    (hrun : construct config persistence = .ok node) : node.role = .follower := by
  obtain ⟨-, rfl⟩ := construct_cases hrun
  obtain ⟨active, pending, hrecovered⟩ :=
    recover_pending_fields (loaded config persistence (loadedImage persistence))
  rw [hrecovered]
  rfl

end RaftNode

/-! ## Nodes whose journal is up to date -/

theorem validate_cluster_of_member {cluster : ClusterConfiguration} {self : NodeId}
    (hvalid : validateClusterConfiguration cluster self = .ok ()) :
    validateClusterConfiguration cluster 0 = .ok () := by
  rw [validateClusterConfiguration] at hvalid ⊢
  split at hvalid
  · cases hvalid
  rename_i hmetadata
  split at hvalid
  · cases hvalid
  rename_i hmembers
  rw [if_neg hmetadata, if_neg hmembers, if_pos (.inl rfl)]

namespace RaftNode

variable {config : NodeConfig} {node : RaftNode} {term : Nat} {leader : NodeId}

/-- The latest image of a node; the initial one when nothing was saved. -/
def latest (node : RaftNode) : RaftPersistentState := node.saved.head?.getD {}

/-- The latest image is the state of the node; or nothing was ever saved and the node is as new. -/
def JournalCurrent (config : NodeConfig) (node : RaftNode) : Prop :=
  node.latest = node.persistentState ∨
    (node.latest = {} ∧ node.persistentState =
      { entries := RaftLog.empty.persistentEntries, clusterConfig := config.bootstrapCluster })

/-- The journal is up to date and a node can be constructed from it. -/
structure Restartable (config : NodeConfig) (node : RaftNode) : Prop where
  checked : config.Checked
  journal : JournalCurrent config node
  safety : node.latest = {} ∨ node.latest.Sound
  membership : MembershipValid config node.latest

namespace Restartable

section Restarting

variable (hnode : node.Restartable config)
include hnode

/-- The log of the node can be restored from its entries. -/
theorem log :
    RaftLog.restore node.log.entries = .ok node.log ∧ node.commitIndex ≤ node.log.lastIndex ∧
      ∀ entry ∈ node.log.entries, entry.term ≤ node.currentTerm := by
  rcases hnode.journal with hcurrent | ⟨-, hnew⟩
  · rcases hnode.safety with hinitial | hsound
    · rw [hcurrent] at hinitial
      exact absurd (congrArg RaftPersistentState.entries hinitial) (List.cons_ne_nil _ _)
    · obtain ⟨-, hrestored, hcommitted, hterms⟩ := hsound
      rw [hcurrent] at hrestored hcommitted hterms
      have hlog := restore_entries hrestored
      rw [hlog] at hrestored hcommitted
      exact ⟨hrestored, hcommitted, hterms⟩
  · have hentries : node.log.entries = empty.entries :=
      congrArg RaftPersistentState.entries hnew
    have hcommit : node.commitIndex = 0 := congrArg RaftPersistentState.commitIndex hnew
    have hempty : restore empty.entries = .ok empty := rfl
    refine ⟨?_, by rw [hcommit]; exact Nat.zero_le _, fun entry hentry => ?_⟩
    · rw [← hentries] at hempty
      rw [hempty, restore_entries hempty]
    · rw [hentries] at hentry
      rw [List.mem_singleton.mp hentry]
      exact Nat.zero_le _

theorem sound {term : Nat} (hterm : node.currentTerm ≤ term)
    (hpositive : 0 < term) (vote : Option NodeId) :
    { node.persistentState with currentTerm := term, votedFor := vote }.Sound := by
  obtain ⟨hrestore, hcommitted, hterms⟩ := hnode.log
  exact .of_restore hpositive.ne' hrestore hcommitted fun entry hentry =>
    (hterms entry hentry).trans hterm

theorem started :
    node.latest.restoredLog = node.log ∧ node.latest.commitIndex = node.commitIndex := by
  obtain ⟨hrestore, -, -⟩ := hnode.log
  rcases hnode.journal with hcurrent | ⟨hinitial, hnew⟩
  · rw [hcurrent]
    refine ⟨?_, rfl⟩
    show (match restore node.log.entries with | .ok log => log | .error _ => .empty) = _
    rw [hrestore]
  · have hentries : node.log.entries = empty.entries :=
      congrArg RaftPersistentState.entries hnew
    have hcommit : node.commitIndex = 0 := congrArg RaftPersistentState.commitIndex hnew
    have hempty : restore empty.entries = .ok empty := rfl
    rw [← hentries] at hempty
    rw [hinitial, hcommit]
    exact ⟨restore_entries hempty, rfl⟩

theorem construct {barrier : RaftPersistence} (hload : barrier.load = .ok node.latest) :
    ∃ constructed, RaftNode.construct config (some barrier) = .ok constructed ∧
      constructed.log = node.log ∧ constructed.commitIndex = node.commitIndex := by
  obtain ⟨⟨⟩, hanswer, hlatest⟩ := except_map_eq_ok.mp hload
  obtain ⟨hlog, hcommit⟩ := hnode.started
  obtain ⟨-, -, -, hlog', hcommit'⟩ := reconstructed_fields config barrier
  rw [hlatest] at hlog' hcommit'
  refine ⟨_, (construct_eq_ok_iff hanswer).mpr ⟨⟨hnode.checked, ?_⟩, rfl⟩, hlog'.trans hlog,
    hcommit'.trans hcommit⟩
  rw [hlatest]
  exact ⟨hnode.safety, hnode.membership⟩

/-- The membership part of an image of the node is valid. -/
theorem membership_valid {vote : Option NodeId}
    (hvote : vote = none ∨ vote = node.votedFor) (term commitIndex : Nat)
    (entries : List LogEntry) :
    MembershipValid config { node.persistentState with
      currentTerm := term, votedFor := vote, entries, commitIndex } := by
  obtain ⟨hconfiguration, hactive, hcompleted, hjoint, hmember⟩ := hnode.membership
  rcases hnode.journal with hcurrent | ⟨hinitial, hnew⟩
  · rw [hcurrent] at hconfiguration hactive hcompleted hjoint hmember
    refine ⟨hconfiguration, hactive, hcompleted, hjoint, fun candidate hcandidate => ?_⟩
    rcases hvote with rfl | rfl
    · cases hcandidate
    · exact hmember candidate hcandidate
  · have hnone : vote = none := by
      rcases hvote with h | h
      · exact h
      · exact h.trans (congrArg RaftPersistentState.votedFor hnew)
    rw [hinitial] at hconfiguration
    rw [hnew, hnone]
    refine ⟨?_, rfl, rfl, by simp, by simp⟩
    -- The bootstrap configuration was validated with the node in it.
    rw [ConfigurationValid] at hconfiguration ⊢
    dsimp only at hconfiguration ⊢
    cases hbootstrap : config.bootstrapCluster with
    | none => simp
    | some cluster => exact validate_cluster_of_member (hconfiguration cluster hbootstrap)

end Restarting

end Restartable

end RaftNode

end DistributedKV
