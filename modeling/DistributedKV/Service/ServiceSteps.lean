import DistributedKV.Raft.Node.MicroSteps
import DistributedKV.Service.CatchUp
import DistributedKV.Service.InstallSnapshot
import DistributedKV.Service.Restart
import DistributedKV.Service.ServiceCluster

/-!
# What a call can do to a service

The changes of state that the calls of a service are made of: changes of its node, entries that
are applied, the tables of submissions and transfers, and the writes of the snapshot file. Every
call is a chain of them, also when it throws (`traces_perform`), so that an invariant of a service
is proved by looking at each change once.
-/

namespace DistributedKV

open Barrier Relation RaftNode

/-- The operations of the node that a call runs, those on snapshot boundaries apart. -/
def ServiceCall.Runs : ServiceCall → Operation → Prop
  | .tick elapsedMs, operation => operation = .tick elapsedMs
  | .submit command, operation =>
    ∃ encoded, KVCommandCodec.encode command = .ok encoded ∧ operation = .propose encoded
  | .handleRequestVote source request, operation =>
    operation = .handleRequestVote source request
  | .handleRequestVoteResponse source response, operation =>
    operation = .handleRequestVoteResponse source response
  | .handleAppendEntries source request, operation =>
    operation = .handleAppendEntries source request
  | .handleAppendEntriesResponse source response, operation =>
    operation = .handleAppendEntriesResponse source response
  | .handleInstallSnapshot _ request, operation =>
    operation = .acknowledgeLeader request.term request.leaderId
  | .handleInstallSnapshotResponse source response, operation =>
    operation = .observeHigherTerm response.term ∨
      (∃ index, operation = .onInstallSnapshotSuccess source index) ∨
      ∃ answer, answer.success = true ∧
        operation = .handleAppendEntriesResponse source answer
  | .proposeConfChange type member operationId, operation =>
    operation = .proposeConfChange type member operationId
  | .addLearner learner, operation => operation = .addLearner learner
  | .takeResult _, _ | .tryPublishSnapshot _, _ => False

namespace RaftKVService

/-- The entry at an index carries a submitted command in the current term. -/
structure Holds (node : RaftNode) (command : KVCommand) (index : Nat) : Prop where
  role : node.role = .leader
  entry : ∃ encoded, KVCommandCodec.encode command = .ok encoded ∧
    node.log.entryAt index =
      some { index, term := node.currentTerm, type := .command, command := encoded }

/-- The service may publish the snapshot of what it has applied, whose last entry has this term. -/
structure Publishes (service : RaftKVService) (boundaryTerm : Nat) (store : FileSnapshotStore) :
    Prop where
  later : service.lastSnapshotIndex < service.stateMachine.lastApplied
  term : service.raftNode.log.termAt service.stateMachine.lastApplied = some boundaryTerm
  file : FileSnapshotStore.save (service.stateMachine.snapshot boundaryTerm) = .ok store

/-- One change of state inside a call. -/
inductive Micro (call : ServiceCall) : RaftKVService → RaftKVService → Prop where
  | node (service : RaftKVService) (operation : Operation) (after : RaftNode)
      (hruns : call.Runs operation) (hmicro : RaftNode.Micro operation service.raftNode after) :
      Micro call service { service with raftNode := after }
  | apply (service next : RaftKVService)
      (hlater : service.stateMachine.lastApplied < service.raftNode.commitIndex)
      (hnext : service.applyNext = .ok next) :
      Micro call service next
  | pend (service : RaftKVService) (command : KVCommand) (index : Nat)
      (hcall : call = .submit command) (hholds : Holds service.raftNode command index) :
      Micro call service
        { service with pendingLocal := insert index service.pendingLocal }
  | take (service : RaftKVService) (index : Nat) :
      Micro call service
        { service with completedLocal := Function.update service.completedLocal index none }
  | track (service : RaftKVService) (snapshotSends : NodeId → Option LeaderSnapshotSend) :
      Micro call service { service with snapshotSends }
  | receive (service : RaftKVService) (snapshotReceiver : Option SnapshotFileReceiver) :
      Micro call service { service with snapshotReceiver }
  | publish (service : RaftKVService) (threshold boundaryTerm : Nat) (store : FileSnapshotStore)
      (hcall : call = .tryPublishSnapshot threshold)
      (hpublishes : service.Publishes boundaryTerm store) :
      Micro call service { service with store }
  | compact (service : RaftKVService) (threshold boundaryTerm : Nat) (log : RaftLog)
      (hcall : call = .tryPublishSnapshot threshold)
      (hpublishes : service.Publishes boundaryTerm service.store)
      (hlog : service.raftNode.log.compactTo service.stateMachine.lastApplied boundaryTerm =
        .ok log) :
      Micro call service { service with raftNode := { service.raftNode with log } }
  | accept (service : RaftKVService) (source : NodeId) (request : InstallSnapshotRequest)
      (receiver : SnapshotFileReceiver) (store : FileSnapshotStore)
      (snapshot : StateMachineSnapshot) (hcall : call = .handleInstallSnapshot source request)
      (hfile : receiver.finishAndLoad = .ok (store, snapshot)) :
      Micro call service { service with store, snapshotReceiver := none }
  | restore (service : RaftKVService) (source : NodeId) (request : InstallSnapshotRequest)
      (snapshot : StateMachineSnapshot) (machine : StateMachine)
      (hcall : call = .handleInstallSnapshot source request)
      (hrole : service.raftNode.role = .follower)
      (hindex : snapshot.lastIncludedIndex = request.lastIncludedIndex)
      (hnew : ¬ (request.lastIncludedIndex < service.raftNode.log.firstIndex ∧
        request.lastIncludedIndex ≤ service.stateMachine.lastApplied))
      (hmachine : StateMachine.restore snapshot = .ok machine) :
      Micro call service { service with stateMachine := machine }
  | replace (service : RaftKVService) (source : NodeId) (request : InstallSnapshotRequest)
      (boundaryTerm : Nat) (hcall : call = .handleInstallSnapshot source request)
      (hrole : service.raftNode.role = .follower)
      (happlied : service.stateMachine.lastApplied = request.lastIncludedIndex) :
      Micro call service
        { service with
          raftNode := { service.raftNode with
            log := .boundaryOnly request.lastIncludedIndex boundaryTerm
            commitIndex := max service.raftNode.commitIndex request.lastIncludedIndex } }
  | save (service : RaftKVService) (after : RaftNode)
      (hsave : RaftNode.Save service.raftNode after) :
      Micro call service { service with raftNode := after }
  | record (service : RaftKVService) (index : Nat)
      (hindex : index = service.stateMachine.lastApplied) :
      Micro call service { service with lastSnapshotIndex := index }

variable {call : ServiceCall} {service final : RaftKVService}

/-! ## Applying and sending -/

/-- The steps of a node are steps of its service. -/
theorem traces_lift {α : Type} {program : RaftM α} {post : α → RaftNode → Prop}
    {R : RaftNode → RaftNode → Prop} {S : RaftKVService → RaftKVService → Prop}
    (hstep : ∀ first second, R first second →
      S { service with raftNode := first } { service with raftNode := second })
    (htraces : Traces R program service.raftNode post) :
    Traces S (onNode program) service fun result final =>
      ∃ node, post result node ∧ final = { service with raftNode := node } := by
  have hlift : ∀ node, ReflTransGen R service.raftNode node →
      ReflTransGen S service { service with raftNode := node } := by
    intro node hsteps
    induction hsteps with
    | refl => exact .refl
    | tail _ hlast ih => exact ih.tail (hstep _ _ hlast)
  refine ⟨fun result final hrun => ?_, fun error final hrun => ?_⟩
  · rw [onNode] at hrun
    split at hrun
    · rename_i answer node hnode
      cases hrun
      obtain ⟨hsteps, hpost⟩ := htraces.1 _ node hnode
      exact ⟨hlift node hsteps, node, hpost, rfl⟩
    · cases hrun
  · rw [onNode] at hrun
    split at hrun
    · cases hrun
    · rename_i answer node hnode
      cases hrun
      exact hlift node (htraces.2 _ node hnode)

/-- An operation of the node inside a call. -/
theorem traces_on_node {α : Type} {operation : Operation} {program : RaftM α}
    {post : α → RaftNode → Prop} (hruns : call.Runs operation)
    (htraces : Traces (RaftNode.Micro operation) program service.raftNode post) :
    Traces (Micro call) (onNode program) service fun result final =>
      ∃ node, post result node ∧ final = { service with raftNode := node } :=
  traces_lift (fun _ _ => .node _ operation _ hruns) htraces

/-- Making a chunk returns and changes only the progress of transfers. -/
theorem make_install_snapshot_rpc_run (peer : NodeId) (service : RaftKVService) :
    ∃ answer snapshotSends,
      makeInstallSnapshotRpc peer service = .ok answer { service with snapshotSends } := by
  rw [makeInstallSnapshotRpc, get_bind]
  split_ifs
  · exact ⟨_, _, rfl⟩
  dsimp only
  cases service.raftNode.log.termAt service.raftNode.log.firstIndex with
  | none => exact ⟨_, _, rfl⟩
  | some boundaryTerm =>
    dsimp only
    split_ifs
    · exact ⟨_, _, rfl⟩
    · rcases service.store.readBytes _ _ with error | ⟨chunk, eof⟩
      · exact ⟨_, _, rfl⟩
      · exact ⟨_, _, rfl⟩

/-- Completing requests changes transfers only. -/
theorem complete_replication_run (outbound : List OutboundRpc) (service : RaftKVService) :
    ∃ answer snapshotSends,
      completeReplication outbound service = .ok answer { service with snapshotSends } := by
  induction outbound generalizing service with
  | nil => exact ⟨_, _, rfl⟩
  | cons rpc rest ih =>
    rw [completeReplication, get_bind]
    split_ifs
    · obtain ⟨made, sends, hmade⟩ :=
        make_install_snapshot_rpc_run rpc.destination (service.rewindSend rpc.destination)
      rw [set_bind, bind_of_ok hmade]
      dsimp only
      split_ifs
      · exact ⟨_, _, rfl⟩
      · obtain ⟨answer, snapshotSends, hrest⟩ :=
          ih { service.rewindSend rpc.destination with snapshotSends := sends }
        rw [bind_of_ok hrest]
        dsimp only
        split_ifs <;> exact ⟨_, snapshotSends, rfl⟩
    · obtain ⟨answer, snapshotSends, hrest⟩ := ih service
      rw [bind_of_ok hrest]
      dsimp only
      split_ifs <;> exact ⟨_, snapshotSends, rfl⟩

/-- So does making what is sent ready. -/
theorem finalize_outbound_run (outbound : List OutboundRpc) (service : RaftKVService) :
    ∃ answer snapshotSends,
      finalizeOutbound outbound service = .ok answer { service with snapshotSends } := by
  rw [finalizeOutbound, get_bind]
  split_ifs
  · exact complete_replication_run outbound service
  · exact ⟨_, _, rfl⟩

/-- The relation allows what a call does behind the operations of the node: it applies committed
entries and changes the tables of results and of transfers. -/
structure Settles (R : RaftKVService → RaftKVService → Prop) : Prop where
  apply : ∀ {service next}, service.stateMachine.lastApplied < service.raftNode.commitIndex →
    service.applyNext = .ok next → R service next
  take : ∀ service index, R service
    { service with completedLocal := Function.update service.completedLocal index none }
  track : ∀ service snapshotSends, R service { service with snapshotSends }

theorem Micro.settles : Settles (Micro call) := ⟨.apply _ _, .take, .track⟩

section Settling

variable {R : RaftKVService → RaftKVService → Prop} (hsettles : Settles R)
include hsettles

theorem steps_apply_loop {count : Nat}
    (hcount : service.stateMachine.lastApplied + count ≤ service.raftNode.commitIndex ∨ count = 0) :
    ReflTransGen R service (applyLoop count service).1 := by
  induction count generalizing service with
  | zero => exact .refl
  | succ count ih =>
    rw [applyLoop]
    cases hnext : service.applyNext with
    | error error => exact .refl
    | ok next =>
      obtain ⟨entry, result, -, happly, hframed⟩ := apply_next_inv hnext
      have happlied := StateMachine.apply_last_applied happly
      refine .head (hsettles.apply (by omega) hnext) (ih ?_)
      rw [hframed.raftNode, happlied]
      omega

theorem traces_apply_committed :
    Traces R applyCommitted service fun answer final =>
      answer = service.caughtUp.2 ∧ final = service.caughtUp.1 :=
  .of_ok rfl (steps_apply_loop hsettles (by omega)) ⟨rfl, rfl⟩

theorem traces_make_install_snapshot_rpc (peer : NodeId) :
    Traces R (makeInstallSnapshotRpc peer) service fun _ _ => True := by
  obtain ⟨answer, snapshotSends, hrun⟩ := make_install_snapshot_rpc_run peer service
  exact .of_ok hrun (.single (hsettles.track service snapshotSends)) trivial

theorem traces_finalize_outbound (outbound : List OutboundRpc) :
    Traces R (finalizeOutbound outbound) service fun _ _ => True := by
  obtain ⟨answer, snapshotSends, hrun⟩ := finalize_outbound_run outbound service
  exact .of_ok hrun (.single (hsettles.track service snapshotSends)) trivial

theorem traces_settle (outbound : List OutboundRpc) :
    Traces R (settle outbound) service fun _ _ => True := by
  rw [settle]
  refine .bind (traces_apply_committed hsettles) fun answer _ _ => ?_
  cases answer with
  | error error => exact .pure trivial
  | ok _ => exact traces_finalize_outbound hsettles outbound

theorem traces_take_result (index : Nat) :
    Traces R (takeResult index) service fun _ _ => True :=
  .get_bind (.set_bind (.single (hsettles.take service index)) (.pure trivial))

theorem traces_submit_accepted {index : Nat} (outbound : List OutboundRpc)
    (hpend : R service { service with pendingLocal := insert index service.pendingLocal }) :
    Traces R (submitAccepted index outbound) service fun _ _ => True := by
  refine .modify_bind (.single hpend) (.bind (traces_apply_committed hsettles) fun answer _ _ => ?_)
  cases answer with
  | error error => exact .pure trivial
  | ok _ =>
    refine .bind (traces_take_result hsettles index) fun _ _ _ => ?_
    refine .bind (traces_finalize_outbound hsettles _) fun answer _ _ => ?_
    dsimp only
    split_ifs
    · exact .pure trivial
    · split <;> exact .pure trivial

end Settling

/-! ## Submissions -/

end RaftKVService

namespace RaftNode

/-- The node keeps its role and its term, and every entry of its log stays where it is. -/
structure Lengthened (before after : RaftNode) : Prop where
  role : after.role = before.role
  currentTerm : after.currentTerm = before.currentTerm
  entries : ∀ index entry, before.log.entryAt index = some entry →
    after.log.entryAt index = some entry

variable {before middle after node : RaftNode}

theorem Lengthened.refl (node : RaftNode) : Lengthened node node := ⟨rfl, rfl, fun _ _ h => h⟩

theorem Lengthened.trans (hfirst : Lengthened before middle) (hsecond : Lengthened middle after) :
    Lengthened before after :=
  ⟨hsecond.role.trans hfirst.role, hsecond.currentTerm.trans hfirst.currentTerm,
    fun index entry h => hsecond.entries index entry (hfirst.entries index entry h)⟩

theorem ensures_append_joint_exit_lengthens (fallback : String) :
    Ensures (appendJointExit fallback) node fun _ final => Lengthened node final := by
  rw [appendJointExit]
  refine .get_bind ?_
  split
  · exact .throw
  · split
    · exact .throw
    · exact .set ⟨rfl, rfl, fun _ _ h => node.log.entry_at_append_of_some h _ _ _⟩

theorem ensures_apply_committed_entry_lengthens (entry : LogEntry) :
    Ensures (applyCommittedEntry entry) node fun _ final => Lengthened node final := by
  rw [applyCommittedEntry]
  split_ifs
  · split
    · exact .throw
    · rename_i change hchange
      rw [applyConfigurationEntry]
      split_ifs
      · refine .modify_bind (.get_bind ?_)
        split
        · exact .throw
        · refine .set_bind ?_
          split_ifs
          · exact (ensures_append_joint_exit_lengthens _).mono fun _ _ h =>
              ⟨h.role, h.currentTerm, h.entries⟩
          · exact .pure ⟨rfl, rfl, fun _ _ h => h⟩
      · exact .modify ⟨rfl, rfl, fun _ _ h => h⟩
  · exact .pure (Lengthened.refl node)

theorem ensures_apply_committed_loop_lengthens (count : Nat) :
    Ensures (applyCommittedLoop count) node fun _ final => Lengthened node final := by
  induction count generalizing node with
  | zero => exact .pure (Lengthened.refl node)
  | succ count ih =>
    rw [applyCommittedLoop]
    refine .get_bind ?_
    dsimp only
    split
    · exact .pure (Lengthened.refl node)
    · refine .bind (ensures_apply_committed_entry_lengthens _) fun _ middle hmiddle => ?_
      refine .modify_bind (ih.mono fun _ final hfinal => ?_)
      exact hmiddle.trans ⟨hfinal.role, hfinal.currentTerm, hfinal.entries⟩

theorem ensures_advance_commit_index_lengthens :
    Ensures advanceCommitIndex node fun _ final => Lengthened node final := by
  rw [advanceCommitIndex]
  refine .get_bind ?_
  split_ifs
  · exact .pure (Lengthened.refl node)
  · dsimp only
    split_ifs
    · refine .set_bind (.bind (ensures_apply_committed_loop_lengthens _) ?_)
      rintro - middle ⟨hrole, hterm, hentries⟩
      refine ensures_recorded.mono ?_
      rintro - final rfl
      exact ⟨hrole, hterm, hentries⟩
    · exact .pure (Lengthened.refl node)

theorem ensures_propose_entry (command : Bytes) :
    Ensures (propose command) node fun result final => result.accepted = true →
      final.role = .leader ∧ final.log.entryAt result.index = some
        { index := result.index, term := final.currentTerm, type := .command, command } := by
  rw [propose]
  refine .get_bind ?_
  split_ifs with hrole
  · exact .pure fun haccepted => by cases haccepted
  · refine .set_bind (.bind ensures_recorded ?_)
    rintro - recorded rfl
    refine .bind ensures_advance_commit_index_lengthens fun _ final hfinal => ?_
    refine .get_bind (.pure fun _ => ⟨hfinal.role.trans (not_not.mp hrole), ?_⟩)
    rw [hfinal.currentTerm]
    exact hfinal.entries _ _ (node.log.entry_at_append_last _ _ _)

end RaftNode

namespace RaftKVService

variable {call : ServiceCall} {service final : RaftKVService}

/-- A command is submitted. -/
theorem traces_submit {command : KVCommand} (hcall : call = .submit command) :
    Traces (Micro call) (submit command) service fun _ _ => True := by
  rw [submit]
  cases hencoded : KVCommandCodec.encode command with
  | error error => exact .pure trivial
  | ok encoded =>
    have hruns : call.Runs (.propose encoded) := by
      rw [hcall]
      exact ⟨encoded, hencoded, rfl⟩
    refine .bind (traces_on_node hruns ((traces_of_phased
      (phased_propose rfl)).and_ensures
      (ensures_propose_entry encoded))) ?_
    rintro proposal final ⟨node, ⟨-, hproposed⟩, rfl⟩
    split_ifs with haccepted
    · obtain ⟨hrole, hentry⟩ := hproposed haccepted
      exact traces_submit_accepted Micro.settles _ (.pend { service with raftNode := node } command
        proposal.index hcall ⟨hrole, encoded, hencoded, hentry⟩)
    · exact .pure trivial

/-! ## Snapshots -/

/-- The node is changed and saved inside a call. -/
theorem traces_write {α : Type} {answer : α} {node : RaftNode}
    (hsteps : ReflTransGen (Micro call) service { service with raftNode := node }) :
    Traces (Micro call) (onNode (do set node; persistOrThrow; pure answer)) service
      fun result final => result = answer ∧ ∃ persistence,
        final = { service with raftNode := { node with persistence } } := by
  have hlift : ∀ {final}, ReflTransGen RaftNode.Save node final →
      ReflTransGen (Micro call) service { service with raftNode := final } := fun hsaves =>
    hsteps.trans (hsaves.lift (fun after => { service with raftNode := after })
      fun _ after hsave => .save _ after hsave)
  obtain ⟨hreturn, hthrow⟩ := (traces_persist : Traces RaftNode.Save persistOrThrow node _)
  cases hsave : persistOrThrow node with
  | ok result final =>
    obtain ⟨hsaves, persistence, rfl⟩ := hreturn result final hsave
    have hrun : onNode (do set node; persistOrThrow; pure answer) service =
        .ok answer { service with raftNode := { node with persistence } } := by
      rw [onNode, set_bind, bind_of_ok hsave]
      rfl
    exact .of_ok hrun (hlift hsaves) ⟨rfl, persistence, rfl⟩
  | error error final =>
    have hrun : onNode (do set node; persistOrThrow; pure answer) service =
        .error error { service with raftNode := final } := by
      rw [onNode, set_bind, bind_of_error hsave]
    exact .of_error hrun (hlift (hthrow error final hsave))

/-- The log is cut behind a published snapshot. -/
theorem traces_compact_log {threshold boundaryTerm : Nat}
    (hcall : call = .tryPublishSnapshot threshold)
    (hpublishes : service.Publishes boundaryTerm service.store) :
    Traces (Micro call) (onNode (RaftNode.compactLogPrefix service.stateMachine.lastApplied
        boundaryTerm)) service
      fun _ final => final.stateMachine = service.stateMachine := by
  cases hlog : service.raftNode.log.compactTo service.stateMachine.lastApplied boundaryTerm with
  | error error =>
    have hrun : onNode (compactLogPrefix service.stateMachine.lastApplied boundaryTerm)
        service = .ok (.error error) service := by
      rw [onNode, compactLogPrefix, get_bind, hlog]
      rfl
    exact .of_ok hrun .refl rfl
  | ok log =>
    have hrun : onNode (compactLogPrefix service.stateMachine.lastApplied boundaryTerm)
        service = onNode (do
          set { service.raftNode with log }
          persistOrThrow
          pure (.ok () : Except String Unit)) service := by
      rw [onNode, onNode, compactLogPrefix, get_bind, hlog]
    refine .prepend .refl hrun ((traces_write (.single
      (.compact service threshold boundaryTerm log hcall hpublishes hlog))).mono ?_)
    rintro answer final ⟨-, persistence, rfl⟩
    rfl

/-- A snapshot of the applied state is published. -/
theorem traces_try_publish_snapshot {threshold : Nat}
    (hcall : call = .tryPublishSnapshot threshold) :
    Traces (Micro call) (tryPublishSnapshot threshold) service fun _ _ => True := by
  rw [tryPublishSnapshot]
  refine .get_bind ?_
  dsimp only
  split
  · exact .pure trivial
  rename_i hready
  have hlater : service.lastSnapshotIndex < service.stateMachine.lastApplied := by omega
  split
  · exact .pure trivial
  rename_i boundaryTerm hterm
  split
  · exact .pure trivial
  rename_i store hstore
  have hpublishes : service.Publishes boundaryTerm store := ⟨hlater, hterm, hstore⟩
  have hpublished : { service with store }.Publishes boundaryTerm store := ⟨hlater, hterm, hstore⟩
  have hcompact := traces_compact_log hcall hpublished
  refine .set_bind (.single (.publish service threshold boundaryTerm store hcall hpublishes))
    (.bind hcompact fun answer final hfinal => ?_)
  cases answer with
  | error error => exact .pure trivial
  | ok _ =>
    exact .modify_bind
      (.single (.record final _ (congrArg StateMachine.lastApplied hfinal).symm))
      (.pure trivial)

variable {source : NodeId} {request : InstallSnapshotRequest} {boundaryTerm : Nat}

section Receiving

variable (hcall : call = .handleInstallSnapshot source request)
  (hrole : service.raftNode.role = .follower)
include hcall hrole

/-- The log is replaced by a restored boundary. -/
theorem traces_replace_log
    (happlied : service.stateMachine.lastApplied = request.lastIncludedIndex) :
    Traces (Micro call) (onNode (RaftNode.replaceLogWithSnapshotBoundary
        request.lastIncludedIndex boundaryTerm)) service
      fun _ final => final.stateMachine = service.stateMachine := by
  cases hlog : RaftLog.restore [{ index := request.lastIncludedIndex, term := boundaryTerm
                                  type := .noOp, command := [] }] with
  | error error =>
    have hrun : onNode (replaceLogWithSnapshotBoundary request.lastIncludedIndex
        boundaryTerm) service = .ok (.error error) service := by
      rw [onNode, replaceLogWithSnapshotBoundary, get_bind, hlog]
      rfl
    exact .of_ok hrun .refl rfl
  | ok log =>
    have hentries : RaftLog.restore
        (RaftLog.boundaryOnly request.lastIncludedIndex boundaryTerm).entries = .ok log := hlog
    have hboundary := RaftLog.restore_entries hentries
    have hrun : onNode (replaceLogWithSnapshotBoundary request.lastIncludedIndex
        boundaryTerm) service = onNode (do
          set { service.raftNode with
            log, commitIndex := max service.raftNode.commitIndex request.lastIncludedIndex }
          persistOrThrow
          pure (.ok () : Except String Unit)) service := by
      rw [onNode, onNode, replaceLogWithSnapshotBoundary, get_bind, hlog]
    rw [hboundary] at hrun
    refine .prepend .refl hrun ((traces_write (.single
      (.replace service source request boundaryTerm hcall hrole happlied))).mono ?_)
    rintro answer final ⟨-, persistence, rfl⟩
    rfl

/-- A received image is installed. -/
theorem traces_install_snapshot {snapshot : StateMachineSnapshot}
    (hindex : snapshot.lastIncludedIndex = request.lastIncludedIndex)
    (hnew : ¬ (request.lastIncludedIndex < service.raftNode.log.firstIndex ∧
      request.lastIncludedIndex ≤ service.stateMachine.lastApplied))
    (response : InstallSnapshotResponse) :
    Traces (Micro call) (installSnapshot snapshot response) service fun _ _ => True := by
  rw [installSnapshot]
  split
  · exact .pure trivial
  rename_i machine hmachine
  have happlied : machine.lastApplied = request.lastIncludedIndex :=
    (StateMachine.restore_last_applied hmachine).trans hindex
  refine .modify_bind (.single
    (.restore service source request snapshot machine hcall hrole hindex hnew hmachine)) ?_
  rw [hindex]
  have hrestored : { service with stateMachine := machine }.stateMachine.lastApplied =
      request.lastIncludedIndex := happlied
  refine .bind (traces_replace_log hcall hrole hrestored) fun answer final hfinal => ?_
  cases answer with
  | error error => exact .pure trivial
  | ok _ =>
    have hrecord : request.lastIncludedIndex = final.stateMachine.lastApplied := by
      rw [hfinal]
      exact happlied.symm
    refine .modify_bind (.single (.record final _ hrecord))
      (.bind (traces_apply_committed Micro.settles) fun answer _ _ => ?_)
    cases answer with
    | error error => exact .pure trivial
    | ok _ => exact .pure trivial

/-- A chunk of an accepted leader is taken. -/
theorem traces_receive_chunk
    (hnew : ¬ (request.lastIncludedIndex < service.raftNode.log.firstIndex ∧
      request.lastIncludedIndex ≤ service.stateMachine.lastApplied))
    (response : InstallSnapshotResponse) :
    Traces (Micro call) (receiveChunk request response) service fun _ _ => True := by
  rw [receiveChunk]
  refine .get_bind ?_
  split
  · exact .pure trivial
  rename_i receiver hreceiver
  split
  · exact .set_bind (.single (.receive service none)) (.pure trivial)
  rename_i taken htaken
  obtain ⟨-, rfl⟩ := SnapshotFileReceiver.append_chunk_eq_ok.mp htaken
  split_ifs
  · exact .set_bind (.single (.receive service (some _))) (.pure trivial)
  split
  · exact .set_bind (.single (.receive service none)) (.pure trivial)
  rename_i store snapshot hfile
  have hindex : snapshot.lastIncludedIndex = request.lastIncludedIndex :=
    (SnapshotFileReceiver.finish_and_load_eq_ok.mp hfile).1.2.2.1
  refine .set_bind (.single (.accept service source request _ store snapshot hcall hfile))
    (traces_install_snapshot hcall ?_ hindex ?_ _)
  · exact hrole
  · exact hnew

end Receiving

theorem traces_handle_install_snapshot (hcall : call = .handleInstallSnapshot source request) :
    Traces (Micro call) (handleInstallSnapshot request) service fun _ _ => True := by
  have hruns : call.Runs (.acknowledgeLeader request.term request.leaderId) := by
    rw [hcall]
    exact rfl
  rw [handleInstallSnapshot]
  refine .get_bind ?_
  dsimp only
  split_ifs
  · exact .pure trivial
  refine .bind (traces_on_node hruns
    (((traces_acknowledge_leader id).relax fun _ _ => .prepare).and_ensures
      ensures_accepted_follows)) ?_
  rintro accepted final ⟨node, ⟨-, hfollows⟩, rfl⟩
  refine .get_bind ?_
  split_ifs with haccepted hcovers
  · exact .pure trivial
  · exact .pure trivial
  · exact traces_receive_chunk hcall (hfollows (by simpa using haccepted)) hcovers _

theorem traces_send_next_chunk (peer : NodeId) :
    Traces (Micro call) (sendNextChunk peer) service fun _ _ => True := by
  rw [sendNextChunk]
  refine .bind (traces_make_install_snapshot_rpc Micro.settles peer) fun answer _ _ => ?_
  dsimp only
  split_ifs <;> exact .pure trivial

/-- The answer to a chunk is taken. -/
theorem traces_handle_install_snapshot_response {response : InstallSnapshotResponse}
    (hcall : call = .handleInstallSnapshotResponse source response) :
    Traces (Micro call) (handleInstallSnapshotResponse source response) service
      fun _ _ => True := by
  have hobserve : call.Runs (.observeHigherTerm response.term) := by
    rw [hcall]
    exact .inl rfl
  have hcredit : ∀ index, call.Runs (.onInstallSnapshotSuccess source index) := by
    intro index
    rw [hcall]
    exact .inr (.inl ⟨index, rfl⟩)
  have hanswer : ∀ answer : AppendEntriesResponse, answer.success = true →
      call.Runs (.handleAppendEntriesResponse source answer) := by
    intro answer hsuccess
    rw [hcall]
    exact .inr (.inr ⟨answer, hsuccess, rfl⟩)
  rw [handleInstallSnapshotResponse]
  refine .bind (traces_on_node hobserve
    ((traces_observe_higher_term id).relax fun _ _ => .prepare)) ?_
  rintro - final ⟨node, -, rfl⟩
  refine .get_bind ?_
  split
  · exact .pure trivial
  split
  · exact .pure trivial
  rename_i send hsend
  split
  · exact .set_bind (.single (.track _ _)) (traces_send_next_chunk source)
  split
  · exact .pure trivial
  split
  · exact traces_send_next_chunk source
  dsimp only
  refine .set_bind (.single (.track _ _)) (.bind (traces_on_node
    (hcredit send.lastIncludedIndex) (traces_of_phased
      (phased_on_install_snapshot_success rfl))) ?_)
  rintro - credited -
  refine .get_bind ?_
  rw [handleAppendEntriesResponse]
  refine .bind (traces_on_node (hanswer
    { term := credited.raftNode.currentTerm
      success := true
      requestPreviousLogIndex := send.lastIncludedIndex
      requestEntryCount := 0
      matchIndex := send.lastIncludedIndex
      conflictIndex := send.lastIncludedIndex + 1 } rfl)
    (traces_of_phased (phased_handle_append_entries_response rfl)))
    fun outbound _ _ => ?_
  exact traces_settle Micro.settles outbound

/-! ## Calls -/

/-- Every call is a chain of these changes. -/
theorem traces_perform (call : ServiceCall) (service : RaftKVService) :
    Traces (Micro call) (perform call) service fun _ _ => True := by
  have hanswer : ∀ {α β : Type} {program : ServiceM α} (answer : α → β),
      Traces (Micro call) program service (fun _ _ => True) →
      Traces (Micro call) (do let result ← program; pure (answer result)) service
        fun _ _ => True :=
    fun _ htraces => .bind htraces fun _ _ _ => .pure trivial
  have honNode : ∀ {α : Type} {program : RaftM α} {operation : Operation},
      call.Runs operation → RaftNode.Acts operation program service.raftNode →
      Traces (Micro call) (onNode program) service fun _ _ => True :=
    fun hruns hphased => (traces_on_node hruns (traces_of_phased hphased)).mono
      fun _ _ _ => trivial
  cases call with
  | tick elapsedMs =>
    exact .bind (honNode rfl (phased_tick rfl)) fun _ _ _ =>
      traces_settle Micro.settles _
  | submit command => exact hanswer _ (traces_submit rfl)
  | takeResult index => exact hanswer _ (traces_take_result Micro.settles index)
  | handleRequestVote source request =>
    exact hanswer _ (honNode rfl (.of_traces (traces_handle_request_vote id)))
  | handleRequestVoteResponse source response =>
    exact .bind (honNode rfl (phased_handle_request_vote_response rfl))
      fun _ _ _ => traces_settle Micro.settles _
  | handleAppendEntries source request =>
    refine hanswer _ (.bind (honNode rfl (phased_handle_append_entries rfl))
      fun _ _ _ => .bind (traces_apply_committed Micro.settles) fun answer _ _ => ?_)
    cases answer with
    | error error => exact .pure trivial
    | ok _ => exact .pure trivial
  | handleAppendEntriesResponse source response =>
    exact .bind
      (honNode rfl (phased_handle_append_entries_response rfl))
      fun _ _ _ => traces_settle Micro.settles _
  | handleInstallSnapshot source request =>
    exact hanswer _ (traces_handle_install_snapshot rfl)
  | handleInstallSnapshotResponse source response =>
    exact traces_handle_install_snapshot_response rfl
  | tryPublishSnapshot threshold =>
    refine .bind (traces_try_publish_snapshot rfl) fun answer _ _ => ?_
    cases answer with
    | error error => exact .pure trivial
    | ok _ => exact .pure trivial
  | proposeConfChange type member operationId =>
    exact hanswer _ (honNode rfl (phased_propose_conf_change rfl))
  | addLearner learner => exact hanswer _ (honNode rfl (.of_traces (traces_add_learner rfl)))

theorem steps_after (call : ServiceCall) (service : RaftKVService) :
    ReflTransGen (Micro call) service (service.after call) := by
  obtain ⟨hreturn, hthrow⟩ := traces_perform call service
  rw [after]
  split
  · rename_i answer final hrun
    exact (hreturn answer final hrun).1
  · rename_i error final hrun
    exact hthrow error final hrun

theorem Micro.saves (hstep : Micro call service final) :
    final.raftNode.persistence = service.raftNode.persistence ∨
      RaftNode.Save service.raftNode final.raftNode := by
  cases hstep with
  | node operation after hruns hmicro => exact hmicro.saves
  | apply next hlater hnext =>
    obtain ⟨-, -, -, -, hframed⟩ := apply_next_inv hnext
    exact .inl (congrArg persistence hframed.raftNode)
  | save after hsave => exact .inr hsave
  | _ => exact .inl rfl

theorem filed_after {opened : FileRaftPersistence} (hfiled : service.raftNode.Filed opened)
    (call : ServiceCall) : (service.after call).raftNode.Filed opened := by
  refine invariant_of_steps (I := fun service => service.raftNode.Filed opened) ?_
    (steps_after call service) hfiled
  intro first second hstep hfirst
  rcases hstep.saves with hsame | hsave
  · exact hfirst.congr hsame
  · exact hfirst.save hsave

theorem invariant_of_perform {call : ServiceCall} {I : RaftKVService → Prop}
    (hstep : ∀ first second, Micro call first second → I first → I second)
    {answer : List OutboundRpc × String} (hrun : perform call service = .ok answer final)
    (hservice : I service) : I final :=
  invariant_of_steps hstep ((traces_perform call service).1 answer final hrun).1 hservice

end RaftKVService

end DistributedKV
