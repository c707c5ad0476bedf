import DistributedKV.Raft.Node.Roster

/-!
# Rejected membership proposals

A proposal is turned down at about ten places. Up to the validation of the target nothing has
been changed. The encoder comes after the joint configuration is in force, and it limits hosts
that the validation does not limit, so that a proposal it turns down has changed the node.
-/

namespace DistributedKV

namespace RaftNode

open Barrier

/-- What a rejected proposal is expected to leave alone. -/
structure Undisturbed (before after : RaftNode) : Prop where
  jointConfig : after.jointConfig = before.jointConfig
  activeMembershipOperation : after.activeMembershipOperation = before.activeMembershipOperation
  pendingConfChangeIndex : after.pendingConfChangeIndex = before.pendingConfChangeIndex
  peers : after.config.peers = before.config.peers
  learners : after.config.learners = before.config.learners
  log : after.log = before.log

/-- The joint change a proposal leads to. -/
def proposedChange (type : ConfChangeType) (member : ClusterMember) (operationId : UInt64)
    (targetConfig : ClusterConfiguration) : ConfChangeEntry :=
  { type, joint := true, member, targetConfig, operationId }

section

variable {node : RaftNode} {type : ConfChangeType} {member : ClusterMember} {operationId : UInt64}
  {cluster target : ClusterConfiguration}

/-- A proposal that fails a check is turned down. -/
theorem propose_conf_change_refused
    (hrefused : ∀ cluster target,
      ¬ node.Proposable cluster (proposedChange type member operationId target)) :
    proposeConfChange type member operationId node = .ok {} node := by
  rw [proposeConfChange, get_bind]
  cases hcluster : node.clusterConfig with
  | none => rfl
  | some cluster =>
    dsimp only
    split_ifs with hadmitted
    · rfl
    simp only [not_or, ne_eq, not_not, Bool.not_eq_true, Option.isSome_eq_false_iff,
      Option.isNone_iff_eq_none, Bool.not_eq_false] at hadmitted
    obtain ⟨hrole, hpending, hstable, hadmitted⟩ := hadmitted
    cases htarget : node.changeTarget cluster type member with
    | none => rfl
    | some target =>
      dsimp only
      cases hvalid : validateClusterConfiguration target node.config.nodeId with
      | error error => rfl
      | ok _ =>
        exact absurd ⟨hrole, hpending, hstable, hcluster, hadmitted, htarget, hvalid, rfl⟩
          (hrefused cluster target)

/-- The joint configuration is in force before it is encoded. -/
theorem Proposable.propose_eq
    (h : node.Proposable cluster (proposedChange type member operationId target)) :
    proposeConfChange type member operationId node =
      (match encodeConfChangeEntry (proposedChange type member operationId target) with
        | .error _ => pure {}
        | .ok encoded => do
            let leader ← get
            set { leader with
              log := leader.log.append leader.currentTerm .confChange encoded
              pendingConfChangeIndex := some (leader.log.lastIndex + 1) }
            persistOrThrow
            advanceCommitIndex
            let published ← get
            pure { accepted := true, index := leader.log.lastIndex + 1
                   outbound := published.replicateToAll } : RaftM ProposeResult)
        (node.proposeJoint cluster (proposedChange type member operationId target)) := by
  have hadmitted : node.operationAdmitted { operationId, type, member } = true := h.admitted
  have htarget : node.changeTarget cluster type member = some target := h.target
  have hvalid : validateClusterConfiguration target node.config.nodeId = .ok () := h.valid
  have hpassed : ¬ (node.role ≠ .leader ∨ node.pendingConfChangeIndex.isSome = true ∨
      node.jointConfig.isSome = true ∨
      node.operationAdmitted { operationId, type, member } = false) := by
    simp [h.role, h.pending, h.jointConfig, hadmitted]
  rw [proposeConfChange, get_bind, h.clusterConfig]
  dsimp only
  rw [if_neg hpassed, htarget]
  dsimp only
  rw [hvalid]
  dsimp only
  rw [set_bind]
  cases hencoded : encodeConfChangeEntry (proposedChange type member operationId target) with
  | error error =>
    rw [proposedChange] at hencoded
    rw [hencoded]
    rfl
  | ok encoded =>
    rw [proposedChange] at hencoded
    rw [hencoded]
    rfl

theorem Proposable.unique {other : ClusterConfiguration} {target' : ClusterConfiguration}
    (h : node.Proposable cluster (proposedChange type member operationId target))
    (h' : node.Proposable other (proposedChange type member operationId target')) :
    target' = target := by
  have hcluster : other = cluster := Option.some.inj (h'.clusterConfig.symm.trans h.clusterConfig)
  subst hcluster
  exact Option.some.inj (h'.target.symm.trans h.target)

end

/-- A rejected proposal leaves the node alone exactly when no change that passes the checks has
a target with a host of more than 255 bytes, or removes the id zero. -/
theorem rejected_proposal_undisturbed_iff (node : RaftNode) (type : ConfChangeType)
    (member : ClusterMember) (operationId : UInt64) :
    (∀ result final, proposeConfChange type member operationId node = .ok result final →
        result.accepted = false → Undisturbed node final) ↔
      ∀ cluster target,
        node.Proposable cluster (proposedChange type member operationId target) →
          (∀ other ∈ target.members, other.Fits) ∧
            (type = .removeNode → member.nodeId ≠ 0) := by
  by_cases hrefused : ∀ cluster target,
      ¬ node.Proposable cluster (proposedChange type member operationId target)
  · refine ⟨fun _ cluster target h => absurd h (hrefused cluster target),
      fun _ result final hrun _ => ?_⟩
    cases (propose_conf_change_refused hrefused).symm.trans hrun
    exact ⟨rfl, rfl, rfl, rfl, rfl, rfl⟩
  · push Not at hrefused
    obtain ⟨cluster, target, hproposable⟩ := hrefused
    have hencodes : (∃ bytes,
        encodeConfChangeEntry (proposedChange type member operationId target) = .ok bytes) ↔ _ :=
      encode_conf_change_entry_ok_iff (validate_for_any hproposable.valid) hproposable.added_mem
    have hrun := hproposable.propose_eq
    cases hencoded : encodeConfChangeEntry (proposedChange type member operationId target) with
    | error error =>
      -- The joint configuration stays in force where there was none.
      rw [hencoded] at hrun hencodes
      constructor
      · intro hkept
        have hjoint := (hkept _ _ hrun rfl).jointConfig
        rw [hproposable.jointConfig] at hjoint
        cases hjoint
      · intro hfits
        obtain ⟨bytes, hbytes⟩ := hencodes.mpr (hfits cluster target hproposable)
        cases hbytes
    | ok encoded =>
      rw [hencoded] at hrun hencodes
      have haccepted : Ensures (proposeConfChange type member operationId) node
          fun result _ => result.accepted = true := by
        intro result final h
        rw [hrun] at h
        revert result final
        exact Ensures.get_bind (Ensures.set_bind (Ensures.bind_last fun _ _ =>
          Ensures.bind_last fun _ _ => Ensures.get_bind (Ensures.pure rfl)))
      constructor
      · intro _ other target' h
        rw [hproposable.unique h]
        exact hencodes.mp ⟨encoded, rfl⟩
      · intro _ result final h hrejected
        have := haccepted result final h
        dsimp only at this
        rw [hrejected] at this
        cases this

/-! ## A host that is too long -/

/-- The only voter of a cluster is elected, adds node 2 as a learner and hears that it has caught
up. -/
def soleLeader : Option RaftNode :=
  (construct { nodeId := 1
               bootstrapCluster := some { configId := 1, members := [plainMember 1] } }
    none).toOption.map fun node =>
      [.tick 300, .addLearner 2,
        .handleAppendEntriesResponse 2
          { term := 1, success := true, requestPreviousLogIndex := 0, requestEntryCount := 1
            matchIndex := 1, conflictIndex := 2, conflictTerm := none, readContext := 0 }].foldl
        after node

/-- Node 2 with a client host of 256 bytes. -/
def longHostMember : ClusterMember :=
  { plainMember 2 with clientHost := List.replicate 256 104 }

/-- How an anonymous proposal to add the member ends: whether the node leads and has a joint
configuration, whether the proposal is accepted and whether there is a joint configuration then. -/
def longHostOutcome (node : RaftNode) : Option (Bool × Bool × Bool × Bool) :=
  match proposeConfChange .addNode longHostMember 0 node with
  | .ok result final =>
    some (node.role == .leader, node.jointConfig.isSome, result.accepted, final.jointConfig.isSome)
  | .error _ _ => none

/-- A leader rejects the member after it has put the joint configuration into force. -/
theorem long_host_proposal_disturbs :
    ∃ node result final, soleLeader = some node ∧ node.role = .leader ∧
      proposeConfChange .addNode longHostMember 0 node = .ok result final ∧
      result.accepted = false ∧ ¬ Undisturbed node final := by
  have houtcome : soleLeader.bind longHostOutcome = some (true, false, false, true) := by
    decide +kernel
  obtain ⟨node, hnode, houtcome⟩ := Option.bind_eq_some_iff.mp houtcome
  rw [longHostOutcome] at houtcome
  cases hrun : proposeConfChange .addNode longHostMember 0 node with
  | error error final =>
    rw [hrun] at houtcome
    cases houtcome
  | ok result final =>
    rw [hrun] at houtcome
    simp only [Option.some.injEq, Prod.mk.injEq, beq_iff_eq] at houtcome
    obtain ⟨hrole, hbefore, hrejected, hafter⟩ := houtcome
    refine ⟨node, result, final, hnode, hrole, hrun, hrejected, fun hkept => ?_⟩
    rw [hkept.jointConfig, hbefore] at hafter
    cases hafter

end RaftNode

end DistributedKV
