import DistributedKV.Service.Restart
import DistributedKV.Service.StrayChunks

/-!
# Crashes while a snapshot is installed

A call that takes a chunk writes to disk at up to three points: the term of the leader it accepts,
the received file, and the journal with the new boundary. A crash after each of them leaves a pair
of files. The follower starts from all of them, with no less applied than before, only when the
boundary is covered or committed in its log (`install_crash_iff`): the order of the last two writes
leaves a file that may be ahead of the journal, or beside it.
-/

namespace DistributedKV

open Barrier RaftNode RaftLog

namespace RaftKVService

/-- The service a call leaves behind, also when it throws. -/
def leftBy {α : Type} (service : RaftKVService) (call : ServiceM α) : RaftKVService :=
  match call service with
  | .ok _ final => final
  | .error _ final => final

/-- The files after each durable write of a call that takes a chunk: the acceptance of the leader,
the publication of the received file, and the journal with the boundary. A write that is not made
leaves the files of the one before it. -/
def crashFiles (opened : FileRaftPersistence) (service : RaftKVService)
    (request : InstallSnapshotRequest) : List Files :=
  let accepted := service.leftBy (onNode (RaftNode.acknowledgeLeader request.term request.leaderId))
  let final := service.leftBy (handleInstallSnapshot request)
  [accepted.files opened, { accepted.files opened with snapshot := final.store },
    final.files opened]

/-- The files after each durable write of several calls. -/
def crashFilesAll (opened : FileRaftPersistence) :
    List InstallSnapshotRequest → RaftKVService → List Files
  | [], _ => []
  | request :: rest, service =>
    service.crashFiles opened request ++
      crashFilesAll opened rest (service.leftBy (handleInstallSnapshot request))

end RaftKVService

/-! ## The node and its journal -/

namespace RaftNode

variable {config : NodeConfig} {opened : FileRaftPersistence} {node : RaftNode} {term : Nat}
  {leader : NodeId}

theorem follow_leader_image (leader : NodeId) (hterm : node.currentTerm ≤ term) :
    (node.followLeader term leader).persistentState =
      { node.persistentState with
        currentTerm := term
        votedFor := if node.currentTerm < term then none else node.votedFor } ∧
      (node.followLeader term leader).persistence = node.persistence := by
  rw [followLeader]
  by_cases hnewer : node.currentTerm < term
  · rw [if_pos (.inl hnewer), if_pos hnewer]
    rw [becomeFollower, if_pos hnewer]
    exact ⟨rfl, rfl⟩
  · have hsame : node.currentTerm = term := Nat.le_antisymm hterm (not_lt.mp hnewer)
    rw [if_neg hnewer]
    subst hsame
    split_ifs
    · rw [becomeFollower, if_neg hnewer]
      exact ⟨rfl, rfl⟩
    · exact ⟨rfl, rfl⟩

theorem acknowledged_same (hterm : node.currentTerm = term) (leader : NodeId) :
    (node.acknowledged term leader).persistentState = node.persistentState ∧
      (node.acknowledged term leader).persistence = node.persistence := by
  subst hterm
  obtain ⟨himage, hpersistence⟩ := node.follow_leader_image leader le_rfl
  rw [if_neg (lt_irrefl _)] at himage
  rw [acknowledged, if_neg (lt_irrefl _)]
  exact ⟨himage, hpersistence⟩

/-- It needs no save. -/
theorem acknowledge_leader_same (hmember : node.isMember leader = true)
    (hterm : node.currentTerm = term) :
    acknowledgeLeader term leader node = .ok true (node.acknowledged term leader) := by
  subst hterm
  rw [acknowledgeLeader, get_bind, if_neg (by simp [hmember]), set_bind, persistIf,
    if_neg (by simp), acknowledged, if_neg (lt_irrefl _)]
  rfl

/-- A node that accepts a leader can be restarted. -/
theorem Restartable.acknowledged (hnode : node.Restartable config) (hbacked : node.Backed)
    (leader : NodeId) (hterm : node.currentTerm ≤ term) (hpositive : 0 < term) :
    (node.acknowledged term leader).Restartable config := by
  rcases hterm.lt_or_eq with hnewer | hsame
  · obtain ⟨himage, hpersistence⟩ := follow_leader_image leader hterm
    have hlatest : (node.followLeader term leader).recorded.latest =
        (node.followLeader term leader).persistentState := by
      rw [latest, recorded_saved (hbacked.congr hpersistence)]
      rfl
    have hsound : (node.followLeader term leader).persistentState.Sound := by
      rw [himage]
      exact hnode.sound hterm hpositive _
    rw [RaftNode.acknowledged, if_pos hnewer]
    refine ⟨hnode.checked, .inl hlatest, .inr (by rwa [hlatest]), ?_⟩
    rw [hlatest, himage, if_pos hnewer]
    exact hnode.membership_valid (.inl rfl) term _ _
  · obtain ⟨himage, hpersistence⟩ := acknowledged_same hsame leader
    have hlatest : (node.acknowledged term leader).latest = node.latest := by
      rw [latest, latest, saved_congr hpersistence]
    refine ⟨hnode.checked, ?_, by rw [hlatest]; exact hnode.safety,
      by rw [hlatest]; exact hnode.membership⟩
    rw [JournalCurrent, hlatest, himage]
    exact hnode.journal

/-- The journal of the node keeps its latest image, and the node can be restarted from it. -/
structure Stored (config : NodeConfig) (opened : FileRaftPersistence) (node : RaftNode) : Prop where
  filed : node.Filed opened
  keeps : (node.file opened).Keeps node.latest
  restartable : node.Restartable config

theorem Filed.backed (hfiled : node.Filed opened) : node.Backed := by
  obtain ⟨_, _, hpersistence, -⟩ := hfiled
  exact ⟨_, hpersistence⟩

/-- A barrier over what a journal keeps loads it. -/
theorem load_reopened {journal : FileRaftPersistence} {image : RaftPersistentState}
    (hkeeps : journal.Keeps image) : journal.reopenedBarrier.load = .ok image := by
  rw [hkeeps.reopened.1]
  rfl

theorem Stored.construct (hstored : node.Stored config opened) :
    ∃ constructed,
      RaftNode.construct config (some (node.file opened).reopenedBarrier) = .ok constructed ∧
      constructed.log = node.log ∧ constructed.commitIndex = node.commitIndex :=
  hstored.restartable.construct (load_reopened hstored.keeps)

theorem Filed.acknowledge_saved {accepted : Bool} {final : RaftNode} (hfiled : node.Filed opened)
    (hmember : node.isMember leader = true) (hnewer : node.currentTerm < term)
    (hrun : acknowledgeLeader term leader node = .ok accepted final) :
    ∃ next, (node.file opened).save (node.followLeader term leader).persistentState = .ok next := by
  obtain ⟨-, hpersistence⟩ := follow_leader_image leader hnewer.le
  have hfollowing : (node.followLeader term leader).Filed opened := hfiled.congr hpersistence
  have hfile : (node.followLeader term leader).file opened = node.file opened := by
    rw [file, file, saved_congr hpersistence]
  rw [acknowledgeLeader, get_bind, if_neg (by simp [hmember, hnewer.le]), set_bind, persistIf,
    if_pos (by simpa using hnewer)] at hrun
  obtain ⟨_, _, hsave, -⟩ := run_bind_eq_ok.mp hrun
  rw [hfollowing.persist_eq, hfile] at hsave
  split at hsave
  · rename_i next hnext
    exact ⟨next, hnext⟩
  · cases hsave

/-- A node that accepts a leader has its journal again. -/
theorem Stored.acknowledged (hstored : node.Stored config opened)
    (hmember : node.isMember leader = true) (hterm : node.currentTerm ≤ term)
    (hpositive : 0 < term)
    (hrun : acknowledgeLeader term leader node = .ok true (node.acknowledged term leader))
    (hstorable : FileRaftPersistence.Storable (node.acknowledged term leader).persistentState) :
    (node.acknowledged term leader).Stored config opened := by
  have hbacked := hstored.filed.backed
  have hrestartable := hstored.restartable.acknowledged hbacked leader hterm hpositive
  rcases hterm.lt_or_eq with hnewer | hsame
  · obtain ⟨-, hpersistence⟩ := follow_leader_image leader hterm
    obtain ⟨next, hsave⟩ := hstored.filed.acknowledge_saved hmember hnewer hrun
    have hfollowing := hstored.filed.congr hpersistence
    have hfile : (node.followLeader term leader).file opened = node.file opened := by
      rw [file, file, saved_congr hpersistence]
    rw [RaftNode.acknowledged, if_pos hnewer] at hrestartable hstorable ⊢
    obtain ⟨hfiled, hnext⟩ := hfollowing.recorded (hfile ▸ hsave)
    refine ⟨hfiled, ?_, hrestartable⟩
    rw [hnext, latest, recorded_saved (hbacked.congr hpersistence)]
    exact hstored.keeps.save hstorable hsave
  · obtain ⟨-, hpersistence⟩ := acknowledged_same hsame leader
    refine ⟨hstored.filed.congr hpersistence, ?_, hrestartable⟩
    rw [file, latest, saved_congr hpersistence]
    exact hstored.keeps

/-- The node with its log replaced by a boundary, before it is saved. -/
def replacing (node : RaftNode) (index boundaryTerm : Nat) : RaftNode :=
  { node with log := .boundaryOnly index boundaryTerm, commitIndex := max node.commitIndex index }

/-- Replacing the log leaves the journal as it answers. -/
theorem Filed.replace_log (hfiled : node.Filed opened) {index boundaryTerm : Nat}
    (hconsistent : SnapshotFile.boundaryConsistent index boundaryTerm = true) :
    (replaceLogWithSnapshotBoundary index boundaryTerm node =
        .ok (.ok ()) (node.replaced index boundaryTerm) ∧
      (node.replaced index boundaryTerm).file opened =
        (node.file opened).after [(node.replacing index boundaryTerm).persistentState]) ∨
    (∃ error, replaceLogWithSnapshotBoundary index boundaryTerm node =
        .error error (node.replacing index boundaryTerm)) ∧
      (node.file opened).after [(node.replacing index boundaryTerm).persistentState] =
        node.file opened := by
  have hreplacing : (node.replacing index boundaryTerm).Filed opened := hfiled
  have hpersist := hreplacing.persist_eq
  rw [show (node.replacing index boundaryTerm).file opened = node.file opened from rfl] at hpersist
  rw [replaceLogWithSnapshotBoundary, get_bind, restore_boundary hconsistent]
  dsimp only
  rw [set_bind]
  cases hsave : (node.file opened).save (node.replacing index boundaryTerm).persistentState with
  | ok next =>
    rw [hsave] at hpersist
    refine .inl ⟨bind_of_ok hpersist, ?_⟩
    rw [FileRaftPersistence.after, FileRaftPersistence.after, hsave]
    exact (hreplacing.recorded hsave).2
  | error error =>
    rw [hsave] at hpersist
    refine .inr ⟨⟨_, bind_of_error hpersist⟩, ?_⟩
    rw [FileRaftPersistence.after, FileRaftPersistence.after, hsave]

theorem replacing_storable (hstorable : FileRaftPersistence.Storable node.persistentState)
    {boundaryTerm : Nat} (hterm : node.log.termAt node.commitIndex = some boundaryTerm) :
    FileRaftPersistence.Storable
      (node.replacing node.commitIndex boundaryTerm).persistentState := by
  have hcommit : max node.commitIndex node.commitIndex < 2 ^ 64 := by
    rw [max_self]
    exact hstorable.fits.commit
  rw [termAt, Option.map_eq_some_iff] at hterm
  obtain ⟨entry, hentry, rfl⟩ := hterm
  have hword := (hstorable.fits.entries entry (node.log.entry_at_mem hentry)).2
  refine .of_size ⟨hstorable.fits.term, hcommit, fun other hother => ?_⟩ ?_
  · rw [List.mem_singleton.mp hother]
    exact ⟨hstorable.fits.commit, hword⟩
  · show 29 + (21 + 0 + 0) + 2 ^ 20 ≤ RaftJournal.maximumPayloadSize
    decide

/-- The commit index as boundary gives such a node. -/
theorem Stored.construct_replaced (hstored : node.Stored config opened)
    (hpositive : 0 < node.currentTerm) {boundaryTerm : Nat}
    (hconsistent : SnapshotFile.boundaryConsistent node.commitIndex boundaryTerm = true)
    (hfuture : boundaryTerm ≤ node.currentTerm) {journal : FileRaftPersistence}
    (hkeeps : journal.Keeps (node.replacing node.commitIndex boundaryTerm).persistentState) :
    ∃ constructed, RaftNode.construct config (some journal.reopenedBarrier) = .ok constructed ∧
      constructed.log = .boundaryOnly node.commitIndex boundaryTerm ∧
      constructed.commitIndex = node.commitIndex := by
  let image := (node.replacing node.commitIndex boundaryTerm).persistentState
  have hsound : image.Sound := by
    refine .of_restore hpositive.ne' (restore_boundary hconsistent)
      (max_self node.commitIndex).le fun entry hentry => ?_
    rw [List.mem_singleton.mp hentry]
    exact hfuture
  have hmembership : MembershipValid config image :=
    hstored.restartable.membership_valid (.inr rfl) _ _ _
  rw [hkeeps.reopened.1]
  obtain ⟨-, -, -, hlog, hcommit⟩ := reconstructed_fields config (journal.opened.barrier image)
  exact ⟨_, (construct_eq_ok_iff rfl).mpr
    ⟨⟨hstored.restartable.checked, .inr hsound, hmembership⟩, rfl⟩,
    hlog.trans (hsound.restored_log rfl), hcommit.trans (max_self _)⟩

end RaftNode

/-! ## Calls of a stream -/

namespace RaftKVService

variable {config : NodeConfig} {opened : FileRaftPersistence} {start service : RaftKVService}
  {stream : SnapshotStream} {snapshot : StateMachineSnapshot} {received data : Bytes}

/-- What installing an image leaves in the files. -/
theorem files_installed (hfiled : service.raftNode.Filed opened) {machine : StateMachine}
    (hmachine : StateMachine.restore snapshot = .ok machine)
    (hconsistent : SnapshotFile.boundaryConsistent snapshot.lastIncludedIndex
      snapshot.lastIncludedTerm = true) (response : InstallSnapshotResponse) :
    (service.leftBy (installSnapshot snapshot response)).files opened =
      { journal := (service.raftNode.file opened).after
          [(service.raftNode.replacing snapshot.lastIncludedIndex
            snapshot.lastIncludedTerm).persistentState]
        snapshot := service.store } := by
  let restored : RaftKVService := { service with stateMachine := machine }
  rw [leftBy, installSnapshot, hmachine]
  dsimp only
  rw [modify_bind]
  rcases hfiled.replace_log hconsistent with ⟨hrun, hfile⟩ | ⟨⟨error, hrun⟩, hfile⟩
  · let replaced : RaftKVService :=
      { restored with
        raftNode := service.raftNode.replaced snapshot.lastIncludedIndex snapshot.lastIncludedTerm
        lastSnapshotIndex := snapshot.lastIncludedIndex }
    have hreplace : onNode (replaceLogWithSnapshotBoundary snapshot.lastIncludedIndex
        snapshot.lastIncludedTerm) restored = .ok (.ok ()) { restored with
          raftNode := service.raftNode.replaced snapshot.lastIncludedIndex
            snapshot.lastIncludedTerm } := on_node_of_ok hrun
    have happly : applyCommitted replaced = .ok replaced.caughtUp.2 replaced.caughtUp.1 := rfl
    -- What is applied then touches neither the node nor the store.
    have hframed : Framed replaced replaced.caughtUp.1 := caught_up_framed
    have hfiles : replaced.caughtUp.1.files opened =
        { journal := replaced.raftNode.file opened, snapshot := service.store } := by
      rw [files, hframed.raftNode, hframed.store]
    rw [bind_of_ok hreplace]
    dsimp only
    rw [modify_bind, bind_of_ok happly, ← hfile]
    cases hanswer : replaced.caughtUp.2 with
    | ok _ => exact hfiles
    | error error => exact hfiles
  · have hreplace : onNode (replaceLogWithSnapshotBoundary snapshot.lastIncludedIndex
        snapshot.lastIncludedTerm) restored = .error error { restored with
          raftNode := service.raftNode.replacing snapshot.lastIncludedIndex
            snapshot.lastIncludedTerm } := by
      rw [onNode, show restored.raftNode = service.raftNode from rfl, hrun]
    rw [bind_of_error hreplace, hfile]
    rfl

/-- The published file holds the image. -/
theorem published_load (service : RaftKVService) (hvalid : stream.Valid snapshot) :
    (service.published stream).store.load = .ok (some snapshot) := by
  show (SnapshotFile.parse SnapshotFile.loadTexts stream.chunks.flatten).map some = _
  rw [SnapshotFile.parse_texts hvalid.file]
  rfl

/-! ## Files that recover -/

/-- The service has files: its journal keeps its latest image, which is its state, it could be
started from them without losing anything it has applied, and the payloads of its committed entries
are accepted. -/
structure Durable (config : NodeConfig) (opened : FileRaftPersistence) (service : RaftKVService) :
    Prop where
  filed : service.raftNode.Filed opened
  keeps : (service.raftNode.file opened).Keeps service.raftNode.latest
  journal : service.raftNode.JournalCurrent config
  recover : (service.files opened).Recover config service.sendsSnapshots
    service.stateMachine.lastApplied
  applicable : ∀ entry ∈ service.raftNode.log.entries,
    entry.index ≤ service.raftNode.commitIndex → entry.Applicable

/-- The leader of the stream is accepted, and its term can be saved. -/
structure Takes (service : RaftKVService) (stream : SnapshotStream) : Prop
    extends service.Accepts stream where
  positive : 0 < stream.term
  saves : Succeeds (RaftNode.acknowledgeLeader stream.term stream.leaderId) service.raftNode
  storable : FileRaftPersistence.Storable (service.acknowledged stream).raftNode.persistentState

theorem Durable.stored (hdurable : service.Durable config opened) :
    service.raftNode.Stored config opened := by
  obtain ⟨restarted, hstart, -⟩ := hdurable.recover
  obtain ⟨snapshot, -, hrun⟩ := except_bind_eq_ok.mp hstart
  obtain ⟨node, -, hnode, -, -⟩ := construct_eq_ok_iff.mp hrun
  rw [show ((service.files opened).journal = service.raftNode.file opened) from rfl,
    hdurable.keeps.reopened.1] at hnode
  obtain ⟨⟨hchecked, hsafety, hmembership⟩, -⟩ := (RaftNode.construct_eq_ok_iff rfl).mp hnode
  exact ⟨hdurable.filed, hdurable.keeps, hchecked, hdurable.journal, hsafety, hmembership⟩

theorem Durable.applied_le (hdurable : service.Durable config opened) :
    service.stateMachine.lastApplied ≤ service.raftNode.commitIndex := by
  obtain ⟨restarted, hstart, happlied⟩ := hdurable.recover
  obtain ⟨snapshot, -, hrun⟩ := except_bind_eq_ok.mp hstart
  obtain ⟨node, hnode, -, hcommit⟩ := hdurable.stored.construct
  exact happlied.trans ((construct_applied hrun hnode).trans hcommit).le

theorem Durable.replayed (hdurable : start.Durable config opened) {boundary : Nat}
    (hboundary : start.raftNode.log.firstIndex ≤ boundary) {index : Nat} (hlow : boundary < index)
    (hhigh : index ≤ start.raftNode.commitIndex) :
    ∃ entry, start.raftNode.log.entryAt index = some entry ∧ entry.Applicable := by
  obtain ⟨-, hcommitted, -⟩ := hdurable.stored.restartable.log
  have hsome : (start.raftNode.log.entryAt index).isSome = true :=
    (entry_at_is_some _ _).mpr ⟨by omega, by omega⟩
  obtain ⟨entry, hentry⟩ := Option.isSome_iff_exists.mp hsome
  refine ⟨entry, hentry, hdurable.applicable entry (start.raftNode.log.entry_at_mem hentry) ?_⟩
  rw [start.raftNode.log.entry_at_index hentry]
  exact hhigh

/-- Between two chunks of a stream to a service with durable files. -/
structure Prepared (config : NodeConfig) (opened : FileRaftPersistence) (start : RaftKVService)
    (stream : SnapshotStream) (service : RaftKVService) : Prop
    extends Waiting start stream service where
  stored : service.raftNode.Stored config opened
  acknowledges : RaftNode.acknowledgeLeader stream.term stream.leaderId service.raftNode =
    .ok true (service.acknowledged stream).raftNode
  storable : FileRaftPersistence.Storable (service.acknowledged stream).raftNode.persistentState

theorem Prepared.acknowledged (hprepared : Prepared config opened start stream service)
    (hpositive : 0 < stream.term) :
    Prepared config opened start stream (service.acknowledged stream) := by
  have hstored := hprepared.stored.acknowledged hprepared.accepts.member hprepared.accepts.term
    hpositive hprepared.acknowledges hprepared.storable
  have hwaiting := hprepared.toWaiting.acknowledged
  have hterm : (service.acknowledged stream).raftNode.currentTerm = stream.term :=
    (service.raftNode.acknowledged_fields stream.leaderId hprepared.accepts.term).2.2.2
  refine ⟨hwaiting, hstored, acknowledge_leader_same hwaiting.accepts.member hterm, ?_⟩
  have himage := (acknowledged_same hterm stream.leaderId).1
  exact himage ▸ hprepared.storable

section Chunks

variable (hprepared : Prepared config opened start stream service)
include hprepared

theorem Prepared.chunk_taken (hpositive : 0 < stream.term) (data : Bytes) :
    Prepared config opened start stream (service.chunkTaken stream data) := by
  obtain ⟨-, hstored, hacknowledges, hstorable⟩ := hprepared.acknowledged hpositive
  exact ⟨hprepared.toWaiting.chunk_taken data, hstored, hacknowledges, hstorable⟩

theorem Prepared.recover (hdurable : start.Durable config opened) :
    (service.files opened).Recover config start.sendsSnapshots start.stateMachine.lastApplied := by
  obtain ⟨restarted, hstart, happlied⟩ := hdurable.recover
  obtain ⟨snapshot, hload, hrun⟩ := except_bind_eq_ok.mp hstart
  obtain ⟨node, hnode, hlog, hcommit⟩ := hdurable.stored.construct
  obtain ⟨node', hnode', hlog', hcommit'⟩ := hprepared.stored.construct
  have hstore : (service.files opened).snapshot = (start.files opened).snapshot := hprepared.store
  have hsame := construct_of_log hrun hnode hnode' (by rw [hlog', hlog, hprepared.log])
    (by rw [hcommit', hcommit, hprepared.commitIndex])
  rw [← hstore] at hload hsame
  exact ⟨_, except_bind_eq_ok.mpr ⟨snapshot, hload, hsame⟩, happlied⟩

theorem Prepared.accepted :
    service.leftBy (onNode (RaftNode.acknowledgeLeader stream.term stream.leaderId)) =
      service.acknowledged stream := by
  rw [leftBy, on_node_of_ok hprepared.acknowledges]
  rfl

theorem Prepared.left_covered (hcovers : start.Covers stream) (offset : Nat) (done : Bool) :
    service.leftBy (handleInstallSnapshot (stream.request offset data done)) =
      service.acknowledged stream := by
  have hcovered : service.Covers stream := hprepared.toWaiting.covers_iff.mpr hcovers
  have haccepts : service.Accepts (stream.request offset data done).stream :=
    ⟨hprepared.accepts.member, hprepared.accepts.term⟩
  have hrun := handle_accepted haccepts hprepared.acknowledges
  rw [leftBy, hrun.trans (if_pos hcovered)]
  rfl

/-- Otherwise it then takes its chunk. -/
theorem Prepared.left_taking (hcovers : ¬ start.Covers stream) (offset : Nat) (done : Bool) :
    service.leftBy (handleInstallSnapshot (stream.request offset data done)) =
      (service.acknowledged stream).leftBy (receiveChunk (stream.request offset data done)
        { term := service.raftNode.currentTerm, success := false }) := by
  have hcovered : ¬ service.Covers stream := fun h =>
    hcovers (hprepared.toWaiting.covers_iff.mp h)
  have haccepts : service.Accepts (stream.request offset data done).stream :=
    ⟨hprepared.accepts.member, hprepared.accepts.term⟩
  have hrun := handle_accepted haccepts hprepared.acknowledges
  rw [leftBy, hrun.trans (if_neg hcovered)]
  rfl

/-- A call before the last leaves files that recover. -/
theorem Prepared.crash_files_recover
    (hdurable : start.Durable config opened) (hpositive : 0 < stream.term) {offset : Nat}
    {done : Bool}
    (hfiles : (service.leftBy
      (handleInstallSnapshot (stream.request offset data done))).files opened =
      (service.acknowledged stream).files opened) :
    ∀ files ∈ service.crashFiles opened (stream.request offset data done),
      files.Recover config start.sendsSnapshots start.stateMachine.lastApplied := by
  have hrecover := (hprepared.acknowledged hpositive).recover hdurable
  have hstore := congrArg Files.snapshot hfiles
  intro files hfile
  rw [crashFiles, show service.leftBy (onNode (acknowledgeLeader
    (stream.request offset data done).term (stream.request offset data done).leaderId)) =
      service.acknowledged stream from hprepared.accepted] at hfile
  simp only [List.mem_cons, List.not_mem_nil, or_false] at hfile
  rcases hfile with rfl | rfl | rfl
  · exact hrecover
  · rw [show (service.leftBy (handleInstallSnapshot (stream.request offset data done))).store =
      (service.acknowledged stream).store from hstore]
    exact hrecover
  · rw [hfiles]
    exact hrecover

theorem Prepared.boundary_term_le {index term : Nat}
    (hterm : service.raftNode.log.termAt index = some term) :
    term ≤ service.raftNode.currentTerm := by
  obtain ⟨-, -, hterms⟩ := hprepared.stored.restartable.log
  rw [termAt, Option.map_eq_some_iff] at hterm
  obtain ⟨entry, hentry, rfl⟩ := hterm
  exact hterms entry (service.raftNode.log.entry_at_mem hentry)

/-- When a published file and the old journal recover. -/
theorem Prepared.published_recover_iff (hdurable : start.Durable config opened)
    (hvalid : stream.Valid snapshot) :
    Files.Recover config start.sendsSnapshots start.stateMachine.lastApplied
        { journal := service.raftNode.file opened, snapshot := (service.published stream).store } ↔
      stream.lastIncludedIndex ≤ start.raftNode.commitIndex ∧
        start.raftNode.log.termAt stream.lastIncludedIndex = some stream.lastIncludedTerm := by
  obtain ⟨-, machine, hmachine, -⟩ :=
    StateMachine.restore_decoded (SnapshotFile.decode_of_parse hvalid.file).1
  obtain ⟨node, hnode, hlog, hcommit⟩ := hprepared.stored.construct
  rw [hprepared.log] at hlog
  rw [hprepared.commitIndex] at hcommit
  have hload := published_load service hvalid
  constructor
  · rintro ⟨restarted, hstart, -⟩
    obtain ⟨other, hother, hrun⟩ := except_bind_eq_ok.mp hstart
    obtain ⟨constructed, started, hconstructed, hstarted, -⟩ := construct_eq_ok_iff.mp hrun
    cases hload.symm.trans hother
    cases hnode.symm.trans hconstructed
    obtain ⟨hbehind, hholds, -⟩ := restore_snapshot_iff.mp hstarted
    dsimp only at hbehind hholds
    rw [hcommit, hvalid.index] at hbehind
    rw [hlog, hvalid.index, hvalid.term] at hholds
    exact ⟨hbehind, hholds⟩
  · rintro ⟨hbehind, hholds⟩
    have hfirst : start.raftNode.log.firstIndex ≤ stream.lastIncludedIndex := by
      rw [termAt, Option.map_eq_some_iff] at hholds
      obtain ⟨entry, hentry, -⟩ := hholds
      exact ((entry_at_is_some _ _).mp (by rw [hentry]; rfl)).1
    obtain ⟨restarted, hrun, happlied⟩ := construct_behind hnode
      (by rw [hcommit, hvalid.index]; exact hbehind)
      (by rw [hlog, hvalid.index, hvalid.term]; exact hholds) hmachine
      (by
        rw [hlog, hcommit, hvalid.index]
        exact fun index hlow hhigh => hdurable.replayed hfirst hlow hhigh)
    refine ⟨restarted, except_bind_eq_ok.mpr ⟨some snapshot, hload, hrun⟩, ?_⟩
    rw [happlied, hcommit]
    exact hdurable.applied_le

/-- A committed boundary that is taken recovers too. -/
theorem Prepared.replaced_recover (hdurable : start.Durable config opened)
    (hpositive : 0 < service.raftNode.currentTerm)
    (hstorable : FileRaftPersistence.Storable service.raftNode.persistentState)
    (hvalid : stream.Valid snapshot)
    (hbehind : stream.lastIncludedIndex ≤ start.raftNode.commitIndex)
    (hholds : start.raftNode.log.termAt stream.lastIncludedIndex = some stream.lastIncludedTerm)
    {next : FileRaftPersistence}
    (hsave : (service.raftNode.file opened).save (service.raftNode.replacing
      stream.lastIncludedIndex stream.lastIncludedTerm).persistentState = .ok next) :
    Files.Recover config start.sendsSnapshots start.stateMachine.lastApplied
      { journal := next, snapshot := (service.published stream).store } := by
  obtain ⟨hconsistent, machine, hmachine, -⟩ :=
    StateMachine.restore_decoded (SnapshotFile.decode_of_parse hvalid.file).1
  rw [hvalid.index, hvalid.term] at hconsistent
  rw [← hprepared.commitIndex] at hbehind
  rw [← hprepared.log] at hholds
  -- The journal does not take a boundary that lies before the commit index.
  have hreached : service.raftNode.commitIndex ≤ stream.lastIncludedIndex := by
    have hcommitted := (FileRaftPersistence.save_spec hsave).2.2
    rw [RaftJournal.isValidCommitIndex, Bool.and_eq_true, decide_eq_true_eq] at hcommitted
    exact (le_max_left _ _).trans hcommitted.2
  have hindex := le_antisymm hbehind hreached
  rw [hindex] at hconsistent hholds hsave
  have hkeeps := hprepared.stored.keeps.save
    (replacing_storable hstorable hholds) hsave
  obtain ⟨constructed, hconstructed, hlog, hcommit⟩ := hprepared.stored.construct_replaced hpositive
    hconsistent (hprepared.boundary_term_le hholds) hkeeps
  have hfirst : constructed.log.termAt service.raftNode.commitIndex =
      some stream.lastIncludedTerm := by
    rw [hlog]
    exact congrArg (Option.map LogEntry.term)
      (boundaryOnly service.raftNode.commitIndex stream.lastIncludedTerm).entry_at_first
  obtain ⟨restarted, hrun, happlied⟩ := construct_behind hconstructed
    (by rw [hcommit, hvalid.index, hindex]) (by rw [hvalid.index, hindex, hvalid.term, hfirst])
    hmachine (fun index hlow hhigh => by
      rw [hvalid.index, hindex] at hlow
      rw [hcommit] at hhigh
      exact absurd hhigh (not_le.mpr hlow))
  refine ⟨restarted, except_bind_eq_ok.mpr ⟨some snapshot, published_load service hvalid, hrun⟩, ?_⟩
  rw [happlied, hcommit, hprepared.commitIndex]
  exact hdurable.applied_le

/-- What the last call leaves when it crashes. -/
theorem Prepared.crash_files_last (hcovers : ¬ start.Covers stream)
    (hreceived : service.HasReceived stream received) (hvalid : stream.Valid snapshot)
    (hall : received ++ data = stream.chunks.flatten) (hpositive : 0 < stream.term) :
    service.crashFiles opened (stream.request received.length data true) =
      [(service.acknowledged stream).files opened,
        { journal := (service.acknowledged stream).raftNode.file opened
          snapshot := (service.published stream).store },
        { journal := ((service.acknowledged stream).raftNode.file opened).after
            [((service.acknowledged stream).raftNode.replacing stream.lastIncludedIndex
              stream.lastIncludedTerm).persistentState]
          snapshot := (service.published stream).store }] := by
  obtain ⟨hconsistent, machine, hmachine, -⟩ :=
    StateMachine.restore_decoded (SnapshotFile.decode_of_parse hvalid.file).1
  have hstored := (hprepared.acknowledged hpositive).stored
  have hboundary := hconsistent
  rw [hvalid.index, hvalid.term] at hboundary
  have hleft : service.leftBy
      (handleInstallSnapshot (stream.request received.length data true)) =
        (service.published stream).leftBy (installSnapshot snapshot
          { term := service.raftNode.currentTerm, success := false }) := by
    rw [hprepared.left_taking hcovers, leftBy,
      receive_chunk_last hreceived hvalid hall hboundary]
    rfl
  have hfiles := files_installed
    (show (service.published stream).raftNode.Filed opened from hstored.filed) hmachine hconsistent
    { term := service.raftNode.currentTerm, success := false }
  rw [hvalid.index, hvalid.term] at hfiles
  have hstore := congrArg Files.snapshot hfiles
  rw [crashFiles, hleft, show service.leftBy (onNode (acknowledgeLeader
    (stream.request received.length data true).term
    (stream.request received.length data true).leaderId)) = service.acknowledged stream
    from hprepared.accepted]
  dsimp only
  rw [hfiles, show ((service.published stream).leftBy (installSnapshot snapshot
    { term := service.raftNode.currentTerm, success := false })).store =
      (service.published stream).store from hstore]
  rfl

/-- When a crash in the last call recovers. -/
theorem Prepared.crash_files_last_iff (hdurable : start.Durable config opened)
    (hpositive : 0 < stream.term) (hcovers : ¬ start.Covers stream)
    (hreceived : service.HasReceived stream received) (hvalid : stream.Valid snapshot)
    (hall : received ++ data = stream.chunks.flatten) :
    (∀ files ∈ service.crashFiles opened (stream.request received.length data true),
      files.Recover config start.sendsSnapshots start.stateMachine.lastApplied) ↔
      stream.lastIncludedIndex ≤ start.raftNode.commitIndex ∧
        start.raftNode.log.termAt stream.lastIncludedIndex = some stream.lastIncludedTerm := by
  have haccepted := hprepared.acknowledged hpositive
  have hpublished := haccepted.published_recover_iff hdurable hvalid
  have hterm : (service.acknowledged stream).raftNode.currentTerm = stream.term :=
    (service.raftNode.acknowledged_fields stream.leaderId hprepared.accepts.term).2.2.2
  rw [hprepared.crash_files_last hcovers hreceived hvalid hall hpositive]
  simp only [List.mem_cons, List.not_mem_nil, or_false, forall_eq_or_imp, forall_eq]
  constructor
  · rintro ⟨-, hrecover, -⟩
    exact hpublished.mp hrecover
  · intro hcommitted
    refine ⟨haccepted.recover hdurable, hpublished.mpr hcommitted, ?_⟩
    rw [FileRaftPersistence.after, FileRaftPersistence.after]
    cases hsave : ((service.acknowledged stream).raftNode.file opened).save
        ((service.acknowledged stream).raftNode.replacing stream.lastIncludedIndex
          stream.lastIncludedTerm).persistentState with
    | error error => exact hpublished.mpr hcommitted
    | ok next =>
      exact haccepted.replaced_recover hdurable (by rw [hterm]; exact hpositive)
        hprepared.storable hvalid hcommitted.1 hcommitted.2 hsave

end Chunks

/-! ## A crash anywhere in a stream -/

/-- When the rest of a stream recovers from every crash. -/
theorem Prepared.crash_files_all_iff {chunks : List Bytes}
    (hprepared : Prepared config opened start stream service)
    (hdurable : start.Durable config opened) (hpositive : 0 < stream.term)
    (hcovers : ¬ start.Covers stream) (hreceived : service.HasReceived stream received)
    (hvalid : stream.Valid snapshot) (hsome : chunks ≠ [])
    (hall : received ++ chunks.flatten = stream.chunks.flatten)
    (hchunks : ∀ chunk ∈ chunks.dropLast, chunk ≠ []) :
    (∀ files ∈ crashFilesAll opened (stream.requestsFrom received.length chunks) service,
      files.Recover config start.sendsSnapshots start.stateMachine.lastApplied) ↔
      stream.lastIncludedIndex ≤ start.raftNode.commitIndex ∧
        start.raftNode.log.termAt stream.lastIncludedIndex = some stream.lastIncludedTerm := by
  obtain ⟨hconsistent, -⟩ :=
    StateMachine.restore_decoded (SnapshotFile.decode_of_parse hvalid.file).1
  rw [hvalid.index, hvalid.term] at hconsistent
  induction chunks generalizing received service with
  | nil => exact absurd rfl hsome
  | cons chunk rest ih =>
    cases rest with
    | nil =>
      rw [SnapshotStream.requestsFrom, crashFilesAll, crashFilesAll, List.append_nil]
      exact hprepared.crash_files_last_iff hdurable hpositive hcovers hreceived hvalid
        (by simpa using hall)
    | cons next rest =>
      have hdata : chunk ≠ [] := hchunks chunk (by simp)
      have hleft : service.leftBy
          (handleInstallSnapshot (stream.request received.length chunk false)) =
            service.chunkTaken stream (received ++ chunk) := by
        rw [hprepared.left_taking hcovers, leftBy, receive_chunk_taken hreceived hconsistent hdata]
      have hrest := ih (hprepared.chunk_taken hpositive _) (has_received_chunk_taken hdata)
        (by simp) (by simpa using hall)
        (fun other hother => hchunks other (List.mem_cons_of_mem _ hother))
      rw [List.length_append] at hrest
      rw [← hrest, SnapshotStream.requestsFrom, crashFilesAll, hleft]
      simp only [List.mem_append, or_imp, forall_and]
      refine and_iff_right (hprepared.crash_files_recover hdurable hpositive ?_)
      rw [hleft]
      rfl

/-- A stream before the log recovers from every crash. -/
theorem Prepared.crash_files_covered (hprepared : Prepared config opened start stream service)
    (hdurable : start.Durable config opened) (hpositive : 0 < stream.term)
    (hcovers : start.Covers stream) (chunks : List Bytes) (offset : Nat) :
    ∀ files ∈ crashFilesAll opened (stream.requestsFrom offset chunks) service,
      files.Recover config start.sendsSnapshots start.stateMachine.lastApplied := by
  induction chunks generalizing offset service with
  | nil => simp [SnapshotStream.requestsFrom, crashFilesAll]
  | cons chunk rest ih =>
    have hfirst : ∀ done, ∀ files ∈ service.crashFiles opened (stream.request offset chunk done),
        files.Recover config start.sendsSnapshots start.stateMachine.lastApplied := fun done =>
      hprepared.crash_files_recover hdurable hpositive (by rw [hprepared.left_covered hcovers])
    cases rest with
    | nil =>
      rw [SnapshotStream.requestsFrom, crashFilesAll, crashFilesAll, List.append_nil]
      exact hfirst true
    | cons next rest =>
      rw [SnapshotStream.requestsFrom, crashFilesAll, hprepared.left_covered hcovers]
      intro files hfiles
      rcases List.mem_append.mp hfiles with h | h
      · exact hfirst false files h
      · exact ih (hprepared.acknowledged hpositive) _ files h

theorem Durable.prepared (hdurable : service.Durable config opened) (htakes : service.Takes stream) :
    Prepared config opened service stream service := by
  obtain ⟨accepted, final, hrun⟩ := htakes.saves
  obtain ⟨rfl, rfl⟩ := ensures_acknowledged htakes.member htakes.term accepted final hrun
  exact ⟨⟨htakes.toAccepts, rfl, rfl, rfl, rfl⟩, hdurable.stored, hrun, htakes.storable⟩

/-- A follower with durable files that takes a valid stream from a leader it accepts can be started
again after a crash at any durable write, with no less applied than before, exactly when the
boundary lies before its log, or is committed and held by its log. -/
theorem install_crash_iff (hdurable : service.Durable config opened)
    (htakes : service.Takes stream) (hvalid : stream.Valid snapshot) :
    (∀ files ∈ crashFilesAll opened stream.requests service,
      files.Recover config service.sendsSnapshots service.stateMachine.lastApplied) ↔
      service.Covers stream ∨
        (stream.lastIncludedIndex ≤ service.raftNode.commitIndex ∧
          service.raftNode.log.termAt stream.lastIncludedIndex = some stream.lastIncludedTerm) := by
  have hprepared := hdurable.prepared htakes
  by_cases hcovers : service.Covers stream
  · exact ⟨fun _ => .inl hcovers, fun _ =>
      hprepared.crash_files_covered hdurable htakes.positive hcovers stream.chunks 0⟩
  · have hnothing : service.HasReceived stream [] := rfl
    rw [or_iff_right hcovers]
    exact hprepared.crash_files_all_iff hdurable htakes.positive hcovers hnothing hvalid
      hvalid.chunks_ne_nil rfl hvalid.chunks

end RaftKVService

/-! ### Followers at the start of their log -/

/-- The service of node 2 that starts from a journal, without a snapshot. -/
def startedFollower (journal : FileRaftPersistence) : RaftKVService :=
  (Files.start followerConfig false { journal, snapshot := {} }).toOption.getD
    { raftNode := .fresh followerConfig none }

theorem started_follower_durable {journal : FileRaftPersistence} {image : RaftPersistentState}
    (hkeeps : journal.Keeps image)
    (hstart : (Files.start followerConfig false { journal, snapshot := {} }).isOk = true)
    (hjournal : (startedFollower journal).raftNode.JournalCurrent followerConfig)
    (hrecover : ((startedFollower journal).files journal.opened).Recover followerConfig
      (startedFollower journal).sendsSnapshots (startedFollower journal).stateMachine.lastApplied)
    (happlicable : ∀ entry ∈ (startedFollower journal).raftNode.log.entries,
      entry.index ≤ (startedFollower journal).raftNode.commitIndex → entry.Applicable) :
    (startedFollower journal).Durable followerConfig journal.opened := by
  obtain ⟨service, hservice⟩ := except_of_is_ok hstart
  have hstarted : Files.start followerConfig false { journal, snapshot := {} } =
      .ok (startedFollower journal) := by
    rw [startedFollower, hservice]
    rfl
  obtain ⟨hfiled, hkept⟩ := Files.start_filed hkeeps hstarted
  exact ⟨hfiled, hkept, hjournal, hrecover, happlicable⟩

/-- A new follower takes the snapshot at index 1. After a crash between the publication of the file
and the save of the journal it does not start any more. -/
theorem install_crash_new_follower :
    (startedFollower {}).Durable followerConfig (FileRaftPersistence.opened {}) ∧
      (startedFollower {}).Takes (emptyStream 1) ∧ (emptyStream 1).Valid (emptySnapshot 1) ∧
      ∃ files ∈ RaftKVService.crashFilesAll (FileRaftPersistence.opened {})
          (emptyStream 1).requests (startedFollower {}),
        ¬ files.Recover followerConfig (startedFollower {}).sendsSnapshots
          (startedFollower {}).stateMachine.lastApplied := by
  refine ⟨started_follower_durable (.fresh ⟨by decide, by decide⟩) (by decide +kernel)
    (.inr ⟨by decide +kernel, by decide +kernel⟩) (by decide +kernel) (by decide +kernel),
    ⟨⟨by decide +kernel, by decide +kernel⟩, by decide +kernel, by decide +kernel,
      .of_size ⟨by decide +kernel, by decide +kernel, by decide +kernel⟩ (by decide +kernel)⟩,
    ⟨by decide +kernel, by decide +kernel, by decide +kernel, by decide +kernel⟩, ?_⟩
  decide +kernel

/-- The journal of a follower that has committed a no-op and `SET x 1`. -/
def committedJournal : FileRaftPersistence := FileRaftPersistence.after {} [followerImage 2]

theorem committed_journal_keeps : committedJournal.Keeps (followerImage 2) := by
  have hsave : (FileRaftPersistence.save {} (followerImage 2)).isOk = true := by decide +kernel
  obtain ⟨next, hnext⟩ := except_of_is_ok hsave
  rw [committedJournal, FileRaftPersistence.after, FileRaftPersistence.after, hnext]
  have hkeeps : FileRaftPersistence.Keeps {} {} := .fresh ⟨by decide, by decide⟩
  exact hkeeps.save (.of_size ⟨by decide, by decide, by decide⟩ (by decide)) hnext

/-- The follower takes the snapshot at index 1, before its commit index, and can be started again
after every write. The journal does not take the boundary. -/
theorem install_crash_iff_behind :
    (startedFollower committedJournal).stateMachine.lastApplied = 2 ∧
      (startedFollower committedJournal).Takes (emptyStream 1) ∧
      ∀ files ∈ RaftKVService.crashFilesAll committedJournal.opened (emptyStream 1).requests
          (startedFollower committedJournal),
        files.Recover followerConfig (startedFollower committedJournal).sendsSnapshots 2 := by
  have happlied : (startedFollower committedJournal).stateMachine.lastApplied = 2 := by
    decide +kernel
  have hdurable := started_follower_durable committed_journal_keeps (by decide +kernel)
    (.inl (by decide +kernel)) (by decide +kernel) (by decide +kernel)
  have htakes : (startedFollower committedJournal).Takes (emptyStream 1) :=
    ⟨⟨by decide +kernel, by decide +kernel⟩, by decide +kernel, by decide +kernel,
      .of_size ⟨by decide +kernel, by decide +kernel, by decide +kernel⟩ (by decide +kernel)⟩
  have hvalid : (emptyStream 1).Valid (emptySnapshot 1) :=
    ⟨by decide +kernel, by decide +kernel, by decide +kernel, by decide +kernel⟩
  have hrecover := (RaftKVService.install_crash_iff hdurable htakes hvalid).mpr
    (.inr ⟨by decide +kernel, by decide +kernel⟩)
  rw [happlied] at hrecover
  exact ⟨happlied, htakes, hrecover⟩

end DistributedKV
