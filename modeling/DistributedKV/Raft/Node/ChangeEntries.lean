import DistributedKV.Raft.Node.Proposal

/-!
# The configuration entries of a leader's log

A leader writes configuration changes into its log in three places: when it proposes one, when it
is elected in a joint configuration, and when it applies a joint configuration. Every node stops
at a committed entry it cannot decode. The encoder does not check the id and the ports of an added
member, but the member is always one of the target's, which are checked, so what was written
decodes (`conf_change_entries_decode`).
-/

namespace DistributedKV

namespace RaftNode

open Barrier Relation

variable {node : RaftNode}

/-- The entry carries the change: any decoder reads it as it was, a removed member by its id, and a
node at which it is committed goes on to put it into force. -/
structure DecodesTo (entry : LogEntry) (change : ConfChangeEntry) : Prop where
  type : entry.type = .confChange
  decode : decodeConfChangeEntry entry.command = .ok { change with member := change.wireMember }
  applied : ∀ peer : RaftNode, applyCommittedEntry entry peer =
    applyConfigurationEntry { change with member := change.wireMember } peer

theorem decodes_to_of_encode {change : ConfChangeEntry} {encoded : Bytes} {index term : Nat}
    (hadded : change.type = .addNode → change.member ∈ change.targetConfig.members)
    (hencoded : encodeConfChangeEntry change = .ok encoded) :
    DecodesTo { index, term, type := .confChange, command := encoded } change := by
  have hdecode := decode_encode_conf_change_entry
    (fun htype => complete_of_validate (valid_of_encode hencoded) (hadded htype)) hencoded
  refine ⟨rfl, hdecode, fun peer => ?_⟩
  rw [applyCommittedEntry, if_pos rfl, hdecode]

/-- The node after a call, whether it returned or threw. -/
def Ends {α : Type} (program : RaftM α) (node final : RaftNode) : Prop :=
  (∃ result, program node = .ok result final) ∨ ∃ error, program node = .error error final

section

variable {α : Type} {program : RaftM α} {final : RaftNode}

theorem Ends.of_ok {result : α} {last : RaftNode} (hends : Ends program node final)
    (hrun : program node = .ok result last) : final = last := by
  rcases hends with ⟨answer, hrun'⟩ | ⟨error, hrun'⟩
  · cases hrun.symm.trans hrun'
    rfl
  · cases hrun.symm.trans hrun'

theorem Ends.of_error {error : String} {last : RaftNode} (hends : Ends program node final)
    (hrun : program node = .error error last) : final = last := by
  rcases hends with ⟨answer, hrun'⟩ | ⟨error, hrun'⟩
  · cases hrun.symm.trans hrun'
  · cases hrun.symm.trans hrun'
    rfl

theorem Ends.congr {next : RaftM α} {middle : RaftNode} (hends : Ends program node final)
    (hrun : program node = next middle) : Ends next middle final := by
  rw [Ends, hrun] at hends
  exact hends

theorem reaches_of_ends {R : RaftNode → RaftNode → Prop} {post : α → RaftNode → Prop}
    (htraces : Traces R program node post) (hends : Ends program node final) :
    ReflTransGen R node final := by
  rcases hends with ⟨result, hrun⟩ | ⟨error, hrun⟩
  · exact (htraces.1 result final hrun).1
  · exact htraces.2 error final hrun

end

/-! ### Ways out of a joint configuration -/

/-- The log stays, or the way out of the joint configuration is appended. -/
inductive ExitStep (first second : RaftNode) : Prop where
  | keep (hlog : second.log = first.log)
  | append (exit : ConfChangeEntry) (encoded : Bytes)
      (hexit : first.makeJointExitEntry = some exit)
      (hencoded : encodeConfChangeEntry exit = .ok encoded)
      (hlog : second.log = first.log.append first.currentTerm .confChange encoded)

theorem Save.exit_step {first second : RaftNode} (h : Save first second) :
    ExitStep first second := by
  cases h
  exact .keep rfl

theorem Apply.exit_step {first second : RaftNode} (h : Apply first second) :
    ExitStep first second := by
  cases h with
  | appendExit exit encoded hrole hbehind hexit hencoded =>
    exact .append exit encoded hexit hencoded rfl
  | save hsave => exact hsave.exit_step
  | _ => exact .keep rfl

theorem traces_publish_exits {α : Type} (answer : RaftNode → α) :
    Traces ExitStep
      (do persistOrThrow; advanceCommitIndex; let leader ← get; pure (answer leader)) node
      fun _ _ => True := by
  have hcommits : (Operation.propose []).Advances ∨ (Operation.propose []).Elects := Or.inl trivial
  have hadvance : ∀ middle, Traces ExitStep advanceCommitIndex middle fun _ _ => True :=
    fun middle => (phased_advance_commit_index hcommits).traces (fun _ _ h => h)
      (fun _ _ h => by cases h <;> exact .keep rfl) fun _ _ => Apply.exit_step
  exact .bind (traces_persist.relax fun _ _ => Save.exit_step) fun _ middle _ =>
    .bind (hadvance middle) fun _ _ _ => .get_bind (.pure trivial)

/-- An entry that leads out of the joint configuration of some leader. -/
def IsExit (entry : LogEntry) : Prop :=
  ∃ leader exit, makeJointExitEntry leader = some exit ∧ DecodesTo entry exit

theorem exit_decodes {exit : ConfChangeEntry} {encoded : Bytes} {index term : Nat}
    (hexit : node.makeJointExitEntry = some exit)
    (hencoded : encodeConfChangeEntry exit = .ok encoded) :
    DecodesTo { index, term, type := .confChange, command := encoded } exit :=
  decodes_to_of_encode (make_joint_exit_entry_spec hexit).2.2 hencoded

variable {final : RaftNode}

/-- Such steps extend the log by ways out. -/
theorem suffix_of_exit_steps (hsteps : ReflTransGen ExitStep node final) :
    ∃ rest, final.log.suffix = node.log.suffix ++ rest ∧ ∀ entry ∈ rest, IsExit entry := by
  induction hsteps with
  | refl => exact ⟨[], by simp, by simp⟩
  | tail hsteps hstep ih =>
    rename_i middle last
    obtain ⟨rest, hsuffix, hexits⟩ := ih
    cases hstep with
    | keep hlog => exact ⟨rest, by rw [hlog, hsuffix], hexits⟩
    | append exit encoded hexit hencoded hlog =>
      let written : LogEntry := { index := middle.log.lastIndex + 1, term := middle.currentTerm
                                  type := .confChange, command := encoded }
      have hlast : last.log.suffix = middle.log.suffix ++ [written] := by
        rw [hlog]
        rfl
      refine ⟨rest ++ [written], by rw [hlast, hsuffix, List.append_assoc], ?_⟩
      intro entry hentry
      rcases List.mem_append.mp hentry with hheld | hnew
      · exact hexits entry hheld
      · rw [List.mem_singleton.mp hnew]
        exact ⟨middle, exit, hexit, exit_decodes hexit hencoded⟩

/-! ### The three places -/

/-- The log of the node is left alone, or one entry that carries the change is added to it. -/
def Writes (before after : RaftLog) (change : ConfChangeEntry → Prop) : Prop :=
  after = before ∨ ∃ entry written, change written ∧ DecodesTo entry written ∧
    after.suffix = before.suffix ++ [entry]

/-- Appending the way out writes it. -/
theorem append_joint_exit_writes (fallback : String)
    (hends : Ends (appendJointExit fallback) node final) :
    Writes node.log final.log fun exit => node.makeJointExitEntry = some exit := by
  cases hexit : node.makeJointExitEntry with
  | none =>
    have hrun : appendJointExit fallback node =
        .error "joint configuration has invalid delta" node := by
      rw [appendJointExit, get_bind, hexit]
      rfl
    rw [hends.of_error hrun]
    exact .inl rfl
  | some exit =>
    cases hencoded : encodeConfChangeEntry exit with
    | error error =>
      have hrun : appendJointExit fallback node = .error (errorOr error fallback) node := by
        rw [appendJointExit, get_bind, hexit]
        dsimp only
        rw [hencoded]
        rfl
      rw [hends.of_error hrun]
      exact .inl rfl
    | ok encoded =>
      have hrun : appendJointExit fallback node = .ok () { node with
          log := node.log.append node.currentTerm .confChange encoded
          pendingConfChangeIndex := some (node.log.lastIndex + 1) } := by
        rw [appendJointExit, get_bind, hexit]
        dsimp only
        rw [hencoded]
        rfl
      rw [hends.of_ok hrun]
      exact .inr ⟨_, exit, rfl, exit_decodes hexit hencoded, rfl⟩

/-- A new leader writes the way out at most. -/
theorem recover_joint_exit_entry_writes (hends : Ends recoverJointExitEntry node final) :
    Writes node.log final.log fun exit => node.makeJointExitEntry = some exit := by
  cases hjoint : node.jointConfig with
  | none =>
    have hrun : recoverJointExitEntry node = .ok () node := by
      rw [recoverJointExitEntry, get_bind, hjoint]
      rfl
    rw [hends.of_ok hrun]
    exact .inl rfl
  | some joint =>
    cases hfound : (List.range' (node.configurationAppliedIndex + 1)
        (node.log.lastIndex + 1 - (node.configurationAppliedIndex + 1))).find?
        (node.isExitFor joint) with
    | some index =>
      have hrun : recoverJointExitEntry node =
          .ok () { node with pendingConfChangeIndex := some index } := by
        rw [recoverJointExitEntry, get_bind, hjoint]
        dsimp only
        rw [hfound]
        rfl
      rw [hends.of_ok hrun]
      exact .inl rfl
    | none =>
      have hrun : recoverJointExitEntry node =
          appendJointExit "failed to recover joint exit" node := by
        rw [recoverJointExitEntry, get_bind, hjoint]
        dsimp only
        rw [hfound]
      exact append_joint_exit_writes _ (hends.congr hrun)

/-- Applying a joint change writes the way out at most. -/
theorem apply_configuration_entry_writes (change : ConfChangeEntry)
    (hends : Ends (applyConfigurationEntry change) node final) :
    Writes node.log final.log fun exit => (node.enterJoint change).makeJointExitEntry = some exit := by
  by_cases hjoint : change.joint = true
  · cases hcluster : node.clusterConfig with
    | none =>
      rw [hends.of_error (apply_configuration_entry_fault hjoint hcluster)]
      exact .inl rfl
    | some cluster =>
      have hrun := apply_configuration_entry_joint hjoint hcluster
      by_cases hrole : node.role = .leader
      · rw [if_pos hrole] at hrun
        exact append_joint_exit_writes _ (hends.congr hrun)
      · rw [if_neg hrole] at hrun
        rw [hends.of_ok hrun]
        exact .inl rfl
  · have hrun : applyConfigurationEntry change node = .ok () (node.enterStable change) := by
      rw [applyConfigurationEntry, if_neg hjoint]
      rfl
    rw [hends.of_ok hrun]
    exact .inl rfl

/-- A proposal writes its change, then ways out only. -/
theorem propose_conf_change_writes (type : ConfChangeType) (member : ClusterMember)
    (operationId : UInt64) (hends : Ends (proposeConfChange type member operationId) node final) :
    final.log = node.log ∨ ∃ cluster target entry rest,
      node.Proposable cluster (proposedChange type member operationId target) ∧
      DecodesTo entry (proposedChange type member operationId target) ∧
      final.log.suffix = node.log.suffix ++ entry :: rest ∧ ∀ later ∈ rest, IsExit later := by
  by_cases hrefused : ∀ cluster target,
      ¬ node.Proposable cluster (proposedChange type member operationId target)
  · rw [hends.of_ok (propose_conf_change_refused hrefused)]
    exact .inl rfl
  push Not at hrefused
  obtain ⟨cluster, target, hproposable⟩ := hrefused
  have hrun := hproposable.propose_eq
  cases hencoded : encodeConfChangeEntry (proposedChange type member operationId target) with
  | error error =>
    rw [hencoded] at hrun
    rw [hends.of_ok hrun]
    exact .inl rfl
  | ok encoded =>
    rw [hencoded] at hrun
    have hsteps := reaches_of_ends (traces_publish_exits _) (hends.congr hrun)
    obtain ⟨rest, hsuffix, hexits⟩ := suffix_of_exit_steps hsteps
    let written : LogEntry := { index := node.log.lastIndex + 1, term := node.currentTerm
                                type := .confChange, command := encoded }
    have hwritten : DecodesTo written (proposedChange type member operationId target) :=
      decodes_to_of_encode hproposable.added_mem hencoded
    refine .inr ⟨cluster, target, written, rest, hproposable, hwritten, ?_, hexits⟩
    rw [hsuffix]
    exact List.append_assoc node.log.suffix [written] rest

/-- Whatever entry a leader appends in one of the three places, and whichever way the call ends:
every node decodes it to the change that was written, and puts that change into force when the
entry is committed. -/
theorem conf_change_entries_decode (node : RaftNode) :
    (∀ type member operationId final,
      Ends (proposeConfChange type member operationId) node final →
      final.log = node.log ∨ ∃ cluster target entry rest,
        node.Proposable cluster (proposedChange type member operationId target) ∧
        DecodesTo entry (proposedChange type member operationId target) ∧
        final.log.suffix = node.log.suffix ++ entry :: rest ∧ ∀ later ∈ rest, IsExit later) ∧
    (∀ final, Ends recoverJointExitEntry node final →
      Writes node.log final.log fun exit => node.makeJointExitEntry = some exit) ∧
    ∀ change final, Ends (applyConfigurationEntry change) node final →
      Writes node.log final.log fun exit =>
        (node.enterJoint change).makeJointExitEntry = some exit :=
  ⟨fun type member operationId _ => propose_conf_change_writes type member operationId,
    fun _ => recover_joint_exit_entry_writes,
    fun change _ => apply_configuration_entry_writes change⟩

/-- How many entries there are before and after a leader proposes to add node 2. -/
def additionLengths (node : RaftNode) : Option (Nat × Nat) :=
  match proposeConfChange .addNode (plainMember 2) 7 node with
  | .ok _ final => some (node.log.suffix.length, final.log.suffix.length)
  | .error _ _ => none

/-- The only voter of a cluster proposes to add node 2, and its log has the entry then. -/
theorem addition_entry_decodes :
    ∃ node result final target entry rest, soleLeader = some node ∧
      proposeConfChange .addNode (plainMember 2) 7 node = .ok result final ∧
      DecodesTo entry (proposedChange .addNode (plainMember 2) 7 target) ∧
      final.log.suffix = node.log.suffix ++ entry :: rest := by
  have hlengths : soleLeader.bind additionLengths = some (1, 2) := by decide +kernel
  obtain ⟨node, hnode, hlengths⟩ := Option.bind_eq_some_iff.mp hlengths
  rw [additionLengths] at hlengths
  cases hrun : proposeConfChange .addNode (plainMember 2) 7 node with
  | error error final =>
    rw [hrun] at hlengths
    cases hlengths
  | ok result final =>
    rw [hrun] at hlengths
    simp only [Option.some.injEq, Prod.mk.injEq] at hlengths
    rcases (conf_change_entries_decode node).1 .addNode (plainMember 2) 7 final
        (.inl ⟨result, hrun⟩) with hsame | ⟨cluster, target, entry, rest, -, hentry, hlog, -⟩
    · rw [hsame, hlengths.1] at hlengths
      cases hlengths.2
    · exact ⟨node, result, final, target, entry, rest, hnode, hrun, hentry, hlog⟩

end RaftNode

end DistributedKV
