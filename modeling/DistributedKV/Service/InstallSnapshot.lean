import DistributedKV.Cluster.Network
import DistributedKV.Raft.Node.Saves
import DistributedKV.Raft.RaftLogFacts
import DistributedKV.Service.ExactlyOnce
import DistributedKV.Service.RaftKVService
import DistributedKV.Service.SnapshotCodec
import DistributedKV.Service.SnapshotReceiver

/-!
# Installing a snapshot

What a follower does with the chunks of a leader's snapshot. A stream of chunks that is complete
and makes a valid file is either ignored, when its boundary lies before the log, or it ends with
the state machine of the file and a log that holds nothing but the boundary
(`ensures_covered`, `ensures_install_rest`). Whether that loses something depends on where the
boundary lies (`install_keeps_iff`).
-/

namespace DistributedKV

open Barrier SnapshotFile

/-! ## Streams -/

/-- A snapshot file as a leader of a term sends it: the announced boundary and the chunks. -/
structure SnapshotStream where
  term : Nat
  leaderId : NodeId
  lastIncludedIndex : Nat
  lastIncludedTerm : Nat
  chunks : List Bytes
  deriving DecidableEq, Repr

namespace SnapshotStream

variable (stream : SnapshotStream)

/-- The request with the chunk at an offset. -/
def request (offset : Nat) (data : Bytes) (done : Bool) : InstallSnapshotRequest where
  term := stream.term
  leaderId := stream.leaderId
  lastIncludedIndex := stream.lastIncludedIndex
  lastIncludedTerm := stream.lastIncludedTerm
  offset
  done
  data

/-- The requests with some last chunks of the stream, the first of them at an offset. -/
def requestsFrom : Nat → List Bytes → List InstallSnapshotRequest
  | _, [] => []
  | offset, [last] => [stream.request offset last true]
  | offset, chunk :: next :: rest =>
    stream.request offset chunk false :: requestsFrom (offset + chunk.length) (next :: rest)

/-- All requests of the stream. -/
def requests : List InstallSnapshotRequest := stream.requestsFrom 0 stream.chunks

/-- The receiver after some bytes of the stream. Before the first byte there is a new one. -/
def receiver (received : Bytes) : SnapshotFileReceiver :=
  if received = [] then {}
  else { lastIncludedIndex := stream.lastIncludedIndex
         lastIncludedTerm := stream.lastIncludedTerm, received, active := true }

/-- The chunks make up a valid file of the announced boundary, and only the last one may be
empty. -/
structure Valid (snapshot : StateMachineSnapshot) : Prop where
  file : SnapshotFile.parse SnapshotFile.receiveTexts stream.chunks.flatten = .ok snapshot
  index : snapshot.lastIncludedIndex = stream.lastIncludedIndex
  term : snapshot.lastIncludedTerm = stream.lastIncludedTerm
  chunks : ∀ chunk ∈ stream.chunks.dropLast, chunk ≠ []

theorem Valid.chunks_ne_nil {stream : SnapshotStream} {snapshot : StateMachineSnapshot}
    (hvalid : stream.Valid snapshot) : stream.chunks ≠ [] := fun hnone =>
  (decode_of_parse hvalid.file).2 (by rw [hnone]; rfl)

end SnapshotStream

/-- The log that holds a snapshot boundary only. -/
def RaftLog.boundaryOnly (index term : Nat) : RaftLog where
  boundary := { index, term, type := .noOp, command := [] }
  suffix := []
  contiguous := trivial

theorem RaftLog.restore_boundary {index term : Nat}
    (hconsistent : boundaryConsistent index term = true) :
    RaftLog.restore [{ index, term, type := .noOp, command := [] }] =
      .ok (RaftLog.boundaryOnly index term) := by
  have hvalid : boundaryValid { index, term, type := .noOp, command := [] } = true := by
    simp only [boundaryConsistent, beq_iff_eq, decide_eq_decide] at hconsistent
    simp only [boundaryValid, Bool.and_eq_true, Bool.not_eq_true', Bool.and_eq_false_imp]
    simp
    tauto
  rw [RaftLog.restore, if_neg (by simp [hvalid]), dif_pos ⟨trivial, rfl⟩]
  rfl

namespace RaftNode

/-! ## The operations of the node -/

/-- The node after its log was replaced by a snapshot boundary. -/
def replaced (node : RaftNode) (index term : Nat) : RaftNode :=
  { node with
    log := .boundaryOnly index term
    commitIndex := max node.commitIndex index }.recorded

variable {node : RaftNode}

theorem ensures_replaced {index term : Nat}
    (hconsistent : boundaryConsistent index term = true) :
    Ensures (replaceLogWithSnapshotBoundary index term) node fun answer final =>
      answer = .ok () ∧ final = node.replaced index term := by
  rw [replaceLogWithSnapshotBoundary]
  refine .get_bind ?_
  rw [RaftLog.restore_boundary hconsistent]
  exact .set_bind (.bind ensures_recorded fun _ final hfinal =>
    .pure ⟨rfl, hfinal⟩)

end RaftNode

namespace SnapshotFileReceiver

/-- A chunk that continues the stream is taken. -/
theorem append_chunk_ok {stream : SnapshotStream} {received data : Bytes} {done : Bool}
    (hconsistent : boundaryConsistent stream.lastIncludedIndex
      stream.lastIncludedTerm = true)
    (hmore : data = [] → done = true) (hall : received ++ data ≠ []) :
    (stream.receiver received).appendChunk stream.lastIncludedIndex stream.lastIncludedTerm
      received.length data done = (stream.receiver (received ++ data), .ok ()) := by
  have hafter : stream.receiver (received ++ data) =
      { lastIncludedIndex := stream.lastIncludedIndex
        lastIncludedTerm := stream.lastIncludedTerm
        received := received ++ data, active := true } := if_neg hall
  rw [hafter]
  refine append_chunk_eq_ok.mpr ?_
  by_cases hstart : received = []
  · subst hstart
    exact ⟨.inl ⟨rfl, rfl, hconsistent, hall⟩, rfl⟩
  · rw [SnapshotStream.receiver, if_neg hstart]
    refine ⟨.inr ⟨rfl, rfl, rfl, rfl, ?_⟩, rfl⟩
    by_cases hdata : data = []
    · exact .inr ⟨hmore hdata, hstart⟩
    · exact .inl hdata

theorem finish_and_load_ok {stream : SnapshotStream} {snapshot : StateMachineSnapshot}
    (hvalid : stream.Valid snapshot) :
    (stream.receiver stream.chunks.flatten).finishAndLoad =
      .ok ({ file := some stream.chunks.flatten }, snapshot) := by
  rw [SnapshotStream.receiver, if_neg (decode_of_parse hvalid.file).2]
  exact finish_and_load_eq_ok.mpr ⟨⟨rfl, hvalid.file, hvalid.index, hvalid.term⟩, rfl⟩

end SnapshotFileReceiver

namespace RaftKVService

/-! ## One chunk -/

variable {service : RaftKVService} {stream : SnapshotStream} {snapshot : StateMachineSnapshot}
  {received data : Bytes}

/-- The service accepts the leader of the stream. -/
structure Accepts (service : RaftKVService) (stream : SnapshotStream) : Prop where
  member : service.raftNode.isMember stream.leaderId = true
  term : service.raftNode.currentTerm ≤ stream.term

/-- The service has taken some bytes of the stream. -/
def HasReceived (service : RaftKVService) (stream : SnapshotStream) (received : Bytes) : Prop :=
  service.receiverFor received.length = some (stream.receiver received)

/-- The boundary lies before the log and is applied. -/
def Covers (service : RaftKVService) (stream : SnapshotStream) : Prop :=
  stream.lastIncludedIndex < service.raftNode.log.firstIndex ∧
    stream.lastIncludedIndex ≤ service.stateMachine.lastApplied

/-- The service after it accepted the leader of the stream. -/
def acknowledged (service : RaftKVService) (stream : SnapshotStream) : RaftKVService :=
  { service with raftNode := service.raftNode.acknowledged stream.term stream.leaderId }

/-- The service after it took a chunk that is not the last. -/
def chunkTaken (service : RaftKVService) (stream : SnapshotStream) (received : Bytes) :
    RaftKVService :=
  { service.acknowledged stream with snapshotReceiver := some (stream.receiver received) }

/-- The service after it took the last chunk of a stream with this image. -/
def installed (service : RaftKVService) (stream : SnapshotStream) (machine : StateMachine) :
    RaftKVService :=
  { service with
    raftNode := (service.raftNode.acknowledged stream.term stream.leaderId).replaced
      stream.lastIncludedIndex stream.lastIncludedTerm
    stateMachine := machine
    store := { file := some stream.chunks.flatten }
    lastSnapshotIndex := stream.lastIncludedIndex
    snapshotReceiver := none }

theorem ensures_on_node {α : Type} {program : RaftM α} {post : α → RaftNode → Prop}
    (hprogram : Ensures program service.raftNode post) :
    Ensures (onNode program) service fun result final =>
      ∃ node, post result node ∧ final = { service with raftNode := node } := by
  intro result final hrun
  rw [onNode] at hrun
  split at hrun
  · rename_i answer node hnode
    cases hrun
    exact ⟨node, hprogram _ node hnode, rfl⟩
  · cases hrun

theorem ensures_apply_committed :
    Ensures applyCommitted service fun _ final => final = service.caughtUp.1 := by
  rintro answer final ⟨⟩
  rfl

theorem caught_up_boundary {index term : Nat}
    (hlog : service.raftNode.log = .boundaryOnly index term)
    (happlied : service.stateMachine.lastApplied = index) :
    service.caughtUp = (service, if service.raftNode.commitIndex ≤ index then .ok ()
      else .error "committed Raft entry is absent from local log") := by
  rw [caughtUp]
  cases hcount : service.raftNode.commitIndex - service.stateMachine.lastApplied with
  | zero => rw [applyLoop, if_pos (by omega)]
  | succ count =>
    have habsent : service.raftNode.log.entryAt (service.stateMachine.lastApplied + 1) = none := by
      rw [hlog, happlied]
      exact (RaftLog.boundaryOnly index term).entry_at_succ 0
    have hnext : service.applyNext =
        .error "committed Raft entry is absent from local log" := by
      rw [applyNext, habsent]
    rw [applyLoop, hnext, if_neg (by omega)]

/-- The leader is accepted before the chunk is taken. -/
theorem ensures_handle_install_snapshot {offset : Nat} {done : Bool}
    (haccepts : service.Accepts stream)
    {post : InstallSnapshotResponse × String → RaftKVService → Prop}
    (hcovered : service.Covers stream → ∀ result, post result (service.acknowledged stream))
    (hreceive : ¬ service.Covers stream → ∀ response,
      Ensures (receiveChunk (stream.request offset data done) response)
        (service.acknowledged stream) post) :
    Ensures (handleInstallSnapshot (stream.request offset data done)) service post := by
  obtain ⟨hlog, -, -, -⟩ := service.raftNode.acknowledged_fields stream.leaderId haccepts.term
  rw [handleInstallSnapshot]
  refine .get_bind ?_
  dsimp only
  rw [if_neg (show ¬ (stream.request offset data done).term < service.raftNode.currentTerm from
    not_lt.mpr haccepts.term)]
  refine .bind (ensures_on_node (RaftNode.ensures_acknowledged haccepts.member
    haccepts.term)) ?_
  rintro accepted final ⟨node, ⟨rfl, rfl⟩, rfl⟩
  refine .get_bind ?_
  rw [if_neg (by decide)]
  show Ensures (if stream.lastIncludedIndex <
      (service.raftNode.acknowledged stream.term stream.leaderId).log.firstIndex ∧
      stream.lastIncludedIndex ≤ service.stateMachine.lastApplied then _ else _) _ _
  rw [hlog]
  split_ifs with hcovers
  · exact .pure (hcovered hcovers _)
  · exact hreceive hcovers _

theorem receive_chunk_taken (hreceived : service.HasReceived stream received)
    (hconsistent : boundaryConsistent stream.lastIncludedIndex
      stream.lastIncludedTerm = true) (hdata : data ≠ []) (response : InstallSnapshotResponse) :
    receiveChunk (stream.request received.length data false) response
        (service.acknowledged stream) =
      .ok ({ response with success := true }, "") (service.chunkTaken stream (received ++ data)) := by
  have hreceiver : (service.acknowledged stream).receiverFor
      (stream.request received.length data false).offset = some (stream.receiver received) :=
    hreceived
  rw [receiveChunk, get_bind, hreceiver]
  dsimp only [SnapshotStream.request]
  rw [SnapshotFileReceiver.append_chunk_ok hconsistent (fun h => absurd h hdata)
    (List.append_ne_nil_of_right_ne_nil _ hdata)]
  rfl

/-- The service after it has published the file of a stream. -/
def published (service : RaftKVService) (stream : SnapshotStream) : RaftKVService :=
  { service.acknowledged stream with
    store := { file := some stream.chunks.flatten }, snapshotReceiver := none }

/-- The last chunk is published and then installed. -/
theorem receive_chunk_last (hreceived : service.HasReceived stream received)
    (hvalid : stream.Valid snapshot) (hall : received ++ data = stream.chunks.flatten)
    (hconsistent : boundaryConsistent stream.lastIncludedIndex
      stream.lastIncludedTerm = true) (response : InstallSnapshotResponse) :
    receiveChunk (stream.request received.length data true) response
        (service.acknowledged stream) =
      installSnapshot snapshot response (service.published stream) := by
  have hreceiver : (service.acknowledged stream).receiverFor
      (stream.request received.length data true).offset = some (stream.receiver received) :=
    hreceived
  have hfile := (decode_of_parse hvalid.file).2
  rw [← hall] at hfile
  rw [receiveChunk, get_bind, hreceiver]
  dsimp only [SnapshotStream.request]
  rw [SnapshotFileReceiver.append_chunk_ok hconsistent (fun _ => rfl) hfile, hall]
  dsimp only
  rw [SnapshotFileReceiver.finish_and_load_ok hvalid]
  rfl

theorem ensures_chunk_taken (haccepts : service.Accepts stream)
    (hcovers : ¬ service.Covers stream) (hreceived : service.HasReceived stream received)
    (hconsistent : boundaryConsistent stream.lastIncludedIndex
      stream.lastIncludedTerm = true) (hdata : data ≠ []) :
    Ensures (handleInstallSnapshot (stream.request received.length data false)) service
      fun _ final => final = service.chunkTaken stream (received ++ data) := by
  refine ensures_handle_install_snapshot haccepts (fun h => absurd h hcovers) fun _ response => ?_
  intro result final hrun
  rw [receive_chunk_taken hreceived hconsistent hdata response] at hrun
  cases hrun
  rfl

/-- The last chunk installs the image. -/
theorem ensures_installed (haccepts : service.Accepts stream) (hcovers : ¬ service.Covers stream)
    (hreceived : service.HasReceived stream received) (hvalid : stream.Valid snapshot)
    (hall : received ++ data = stream.chunks.flatten) {machine : StateMachine}
    (hmachine : StateMachine.restore snapshot = .ok machine)
    (happlied : machine.lastApplied = snapshot.lastIncludedIndex)
    (hconsistent : boundaryConsistent snapshot.lastIncludedIndex
      snapshot.lastIncludedTerm = true) :
    Ensures (handleInstallSnapshot (stream.request received.length data true)) service
      fun _ final => final = service.installed stream machine := by
  refine ensures_handle_install_snapshot haccepts (fun h => absurd h hcovers) fun _ response => ?_
  rw [hvalid.index, hvalid.term] at hconsistent
  rw [Ensures, receive_chunk_last hreceived hvalid hall hconsistent response]
  show Ensures (installSnapshot snapshot response) (service.published stream) _
  rw [installSnapshot, hmachine]
  refine .modify_bind ?_
  rw [hvalid.index, hvalid.term]
  refine .bind (ensures_on_node (RaftNode.ensures_replaced hconsistent)) ?_
  rintro answer final ⟨node, ⟨rfl, rfl⟩, rfl⟩
  refine .modify_bind ?_
  rw [hvalid.index] at happlied
  have hcaught : (service.installed stream machine).caughtUp.1 =
      service.installed stream machine := by rw [caught_up_boundary rfl happlied]
  refine .bind ensures_apply_committed fun answer final hfinal => ?_
  cases answer with
  | error error => exact .pure (hfinal.trans hcaught)
  | ok _ => exact .pure (hfinal.trans hcaught)

/-! ## A stream -/

/-- Handle requests one after the other. -/
def installAll : List InstallSnapshotRequest → ServiceM Unit
  | [] => pure ()
  | request :: rest => do
      let _ ← handleInstallSnapshot request
      installAll rest

/-- Between two chunks: the leader is still accepted, and log, commit index, machine and file are
as they were. -/
structure Waiting (start : RaftKVService) (stream : SnapshotStream) (service : RaftKVService) :
    Prop where
  accepts : service.Accepts stream
  log : service.raftNode.log = start.raftNode.log
  commitIndex : service.raftNode.commitIndex = start.raftNode.commitIndex
  stateMachine : service.stateMachine = start.stateMachine
  store : service.store = start.store

/-- The image has been installed. -/
structure Installed (start : RaftKVService) (stream : SnapshotStream) (final : RaftKVService) :
    Prop where
  log : final.raftNode.log = .boundaryOnly stream.lastIncludedIndex stream.lastIncludedTerm
  commitIndex : final.raftNode.commitIndex =
    max start.raftNode.commitIndex stream.lastIncludedIndex
  applied : final.stateMachine.lastApplied = stream.lastIncludedIndex

variable {start : RaftKVService}

theorem Waiting.acknowledged (hwaiting : Waiting start stream service) :
    Waiting start stream (service.acknowledged stream) := by
  obtain ⟨hlog, hcommit, hconfig, hterm⟩ :=
    service.raftNode.acknowledged_fields stream.leaderId hwaiting.accepts.term
  refine ⟨⟨?_, hterm.le⟩, hlog.trans hwaiting.log, hcommit.trans hwaiting.commitIndex,
    hwaiting.stateMachine, hwaiting.store⟩
  have hmember := hwaiting.accepts.member
  rw [RaftNode.isMember] at hmember ⊢
  rwa [show (service.acknowledged stream).raftNode.config = service.raftNode.config from hconfig]

theorem Waiting.chunk_taken (hwaiting : Waiting start stream service) (data : Bytes) :
    Waiting start stream (service.chunkTaken stream data) := by
  obtain ⟨haccepts, hlog, hcommit, hsame, hstore⟩ := hwaiting.acknowledged
  exact ⟨⟨haccepts.member, haccepts.term⟩, hlog, hcommit, hsame, hstore⟩

theorem has_received_chunk_taken {chunk : Bytes} (hdata : chunk ≠ []) :
    (service.chunkTaken stream (received ++ chunk)).HasReceived stream (received ++ chunk) := by
  rw [HasReceived, receiverFor, if_neg (by simp [hdata])]
  rfl

theorem Waiting.covers_iff (hwaiting : Waiting start stream service) :
    service.Covers stream ↔ start.Covers stream := by
  rw [Covers, Covers, hwaiting.log, hwaiting.stateMachine]

theorem ensures_covered (chunks : List Bytes) (offset : Nat)
    (hwaiting : Waiting start stream service) (hcovers : start.Covers stream) :
    Ensures (installAll (stream.requestsFrom offset chunks)) service fun _ final =>
      Waiting start stream final := by
  have hone : ∀ {service : RaftKVService} {offset data done}, Waiting start stream service →
      Ensures (handleInstallSnapshot (stream.request offset data done)) service fun _ final =>
        Waiting start stream final := fun hwaiting =>
    ensures_handle_install_snapshot hwaiting.accepts (fun _ _ => hwaiting.acknowledged)
      fun hnot => absurd (hwaiting.covers_iff.mpr hcovers) hnot
  induction chunks generalizing offset service with
  | nil => exact .pure hwaiting
  | cons chunk rest ih =>
    cases rest with
    | nil => exact .bind (hone hwaiting) fun _ _ hfinal => .pure hfinal
    | cons next rest => exact .bind (hone hwaiting) fun _ _ hfinal => ih _ hfinal

/-- The rest of a stream installs its image. -/
theorem ensures_install_rest {chunks : List Bytes} (hwaiting : Waiting start stream service)
    (hcovers : ¬ start.Covers stream) (hreceived : service.HasReceived stream received)
    (hvalid : stream.Valid snapshot) (hsome : chunks ≠ [])
    (hall : received ++ chunks.flatten = stream.chunks.flatten)
    (hchunks : ∀ chunk ∈ chunks.dropLast, chunk ≠ []) :
    Ensures (installAll (stream.requestsFrom received.length chunks)) service fun _ final =>
      Installed start stream final := by
  obtain ⟨hconsistent, machine, hmachine, happlied⟩ :=
    StateMachine.restore_decoded (decode_of_parse hvalid.file).1
  induction chunks generalizing received service with
  | nil => exact absurd rfl hsome
  | cons chunk rest ih =>
    have hnot : ¬ service.Covers stream := fun h => hcovers (hwaiting.covers_iff.mp h)
    cases rest with
    | nil =>
      have hlast : received ++ chunk = stream.chunks.flatten := by simpa using hall
      refine .bind (ensures_installed hwaiting.accepts hnot hreceived hvalid hlast
        hmachine happlied hconsistent) ?_
      rintro _ final rfl
      refine .pure ⟨rfl, ?_, happlied.trans hvalid.index⟩
      have hcommit := hwaiting.acknowledged.commitIndex
      exact congrArg (max · stream.lastIncludedIndex) hcommit
    | cons next rest =>
      have hdata : chunk ≠ [] := hchunks chunk (by simp)
      rw [hvalid.index, hvalid.term] at hconsistent
      refine .bind (ensures_chunk_taken hwaiting.accepts hnot hreceived hconsistent
        hdata) ?_
      rintro _ final rfl
      have hrest := ih (hwaiting.chunk_taken _) (has_received_chunk_taken hdata) (by simp)
        (by simpa using hall)
        (fun other hother => hchunks other (List.mem_cons_of_mem _ hother))
      rwa [List.length_append] at hrest

/-! ## What an installation keeps -/

/-- The log starts no later than what is applied, and holds what is committed. -/
structure Chained (service : RaftKVService) : Prop where
  first : service.raftNode.log.firstIndex ≤ service.stateMachine.lastApplied
  applied : service.stateMachine.lastApplied ≤ service.raftNode.commitIndex
  committed : service.raftNode.commitIndex ≤ service.raftNode.log.lastIndex

/-- Nothing that was applied, committed or known to agree with the leader is lost, and the chain
of indexes holds again. -/
structure Keeps (before : RaftKVService) (stream : SnapshotStream) (after : RaftKVService) :
    Prop where
  applied : before.stateMachine.lastApplied ≤ after.stateMachine.lastApplied
  commitIndex : before.raftNode.commitIndex ≤ after.raftNode.commitIndex
  chained : after.Chained
  suffix : before.raftNode.log.termAt stream.lastIncludedIndex = some stream.lastIncludedTerm →
    ∀ index, stream.lastIncludedIndex < index → index ≤ before.raftNode.log.lastIndex →
      after.raftNode.log.entryAt index = before.raftNode.log.entryAt index

/-- The boundary lies before the log, or it is not behind the commit index and no entry follows
it in a log that holds it. -/
def LosesNothing (service : RaftKVService) (stream : SnapshotStream) : Prop :=
  stream.lastIncludedIndex < service.raftNode.log.firstIndex ∨
    (service.raftNode.commitIndex ≤ stream.lastIncludedIndex ∧
      (service.raftNode.log.termAt stream.lastIncludedIndex = some stream.lastIncludedTerm →
        service.raftNode.log.lastIndex ≤ stream.lastIncludedIndex))

theorem Waiting.keeps (hwaiting : Waiting start stream service) (hchained : start.Chained) :
    Keeps start stream service := by
  obtain ⟨-, hlog, hcommit, hmachine, -⟩ := hwaiting
  refine ⟨by rw [hmachine], by rw [hcommit], ⟨?_, ?_, ?_⟩, fun _ index _ _ => by rw [hlog]⟩
  · rw [hlog, hmachine]
    exact hchained.first
  · rw [hmachine, hcommit]
    exact hchained.applied
  · rw [hlog, hcommit]
    exact hchained.committed

/-- When an installed image keeps everything. -/
theorem Installed.keeps_iff {final : RaftKVService} (hinstalled : Installed start stream final)
    (hchained : start.Chained) :
    Keeps start stream final ↔
      start.raftNode.commitIndex ≤ stream.lastIncludedIndex ∧
        (start.raftNode.log.termAt stream.lastIncludedIndex = some stream.lastIncludedTerm →
          start.raftNode.log.lastIndex ≤ stream.lastIncludedIndex) := by
  obtain ⟨hlog, hcommit, happlied⟩ := hinstalled
  have hlast : final.raftNode.log.lastIndex = stream.lastIncludedIndex := by rw [hlog]; rfl
  have hfirst : final.raftNode.log.firstIndex = stream.lastIncludedIndex := by rw [hlog]; rfl
  constructor
  · rintro ⟨-, -, hfinal, hsuffix⟩
    have hreached := hfinal.committed
    rw [hlast, hcommit] at hreached
    refine ⟨(le_max_left _ _).trans hreached, fun hholds => ?_⟩
    by_contra hmore
    -- The last entry of the old log is gone.
    have hkept := hsuffix hholds _ (not_le.mp hmore) le_rfl
    have hpresent : (start.raftNode.log.entryAt start.raftNode.log.lastIndex).isSome = true :=
      (RaftLog.entry_at_is_some _ _).mpr
        ⟨hchained.first.trans (hchained.applied.trans hchained.committed), le_rfl⟩
    rw [← hkept, RaftLog.entry_at_is_some, hlast] at hpresent
    exact hmore hpresent.2
  · rintro ⟨hreached, hnothing⟩
    have happlied' := hchained.applied
    refine ⟨by omega, by omega, ⟨by omega, by omega, by omega⟩, fun hholds index hlow hhigh => ?_⟩
    have hend := hnothing hholds
    omega

/-- A complete and valid stream from a leader that the service accepts keeps everything exactly
when its boundary lies before the log, or is not behind the commit index and nothing follows it in
a log that holds it. -/
theorem install_keeps_iff {final : RaftKVService} (hchained : service.Chained)
    (haccepts : service.Accepts stream) (hvalid : stream.Valid snapshot)
    (hrun : installAll stream.requests service = .ok () final) :
    Keeps service stream final ↔ service.LosesNothing stream := by
  have hwaiting : Waiting service stream service := ⟨haccepts, rfl, rfl, rfl, rfl⟩
  by_cases hcovers : service.Covers stream
  · have hfinal := ensures_covered stream.chunks 0 hwaiting hcovers () final hrun
    exact ⟨fun _ => .inl hcovers.1, fun _ => hfinal.keeps hchained⟩
  · have hnothing : service.HasReceived stream [] := rfl
    have hinstalled : Installed service stream final := ensures_install_rest hwaiting hcovers
      hnothing hvalid hvalid.chunks_ne_nil rfl hvalid.chunks () final hrun
    have hnot : ¬ stream.lastIncludedIndex < service.raftNode.log.firstIndex := fun hbefore =>
      hcovers ⟨hbefore, hbefore.le.trans hchained.first⟩
    rw [hinstalled.keeps_iff hchained, LosesNothing, or_iff_right hnot]

end RaftKVService

/-! ### A follower that is ahead of the snapshot -/

/-- The configuration of node 2 of three. -/
def followerConfig : NodeConfig := { nodeId := 2, peers := [1, 3] }

/-- The image of a node of term 1 that holds a no-op and `SET x 1`, with this commit index. -/
def followerImage (commitIndex : Nat) : RaftPersistentState where
  currentTerm := 1
  entries := [{ index := 0, term := 0, type := .noOp, command := [] },
    { index := 1, term := 1, type := .noOp, command := [] }, setKeyEntry 2]
  commitIndex

/-- The service that starts from this image. -/
def restartedFollower (commitIndex : Nat) : RaftKVService :=
  (RaftKVService.construct followerConfig
    (some { RaftPersistence.reliable with saved := [followerImage commitIndex] })
    {} none false {}).toOption.getD { raftNode := .fresh followerConfig none }

/-- The snapshot of an empty store at index 1 or later. -/
def emptySnapshot (index : Nat) : StateMachineSnapshot :=
  { lastIncludedIndex := index, lastIncludedTerm := 1, entries := [], sessions := [] }

/-- Its file, sent in one chunk by node 1 as the leader of term 1. -/
def emptyStream (index : Nat) : SnapshotStream where
  term := 1
  leaderId := 1
  lastIncludedIndex := index
  lastIncludedTerm := 1
  chunks := [((FileSnapshotStore.save (emptySnapshot index)).toOption.bind
    FileSnapshotStore.file).getD []]

/-- The service after the calls of a stream. -/
def afterInstall (stream : SnapshotStream) (service : RaftKVService) : RaftKVService :=
  match RaftKVService.installAll stream.requests service with
  | .ok _ final => final
  | .error _ final => final

/-- Whether the calls of a stream return. -/
def installReturns (stream : SnapshotStream) (service : RaftKVService) : Bool :=
  match RaftKVService.installAll stream.requests service with
  | .ok _ _ => true
  | .error _ _ => false

theorem install_all_of_returns {stream : SnapshotStream} {service : RaftKVService}
    (hreturns : installReturns stream service = true) :
    RaftKVService.installAll stream.requests service =
      .ok () (afterInstall stream service) := by
  rw [afterInstall]
  rw [installReturns] at hreturns
  cases hrun : RaftKVService.installAll stream.requests service with
  | ok answer final => rfl
  | error error final =>
    rw [hrun] at hreturns
    cases hreturns

/-- A follower that has applied both entries takes the snapshot at index 1 and has applied only
one entry then, and its log lacks the second one, which is committed. -/
theorem install_loses_applied :
    (restartedFollower 2).Chained ∧ (restartedFollower 2).Accepts (emptyStream 1) ∧
      (emptyStream 1).Valid (emptySnapshot 1) ∧
      RaftKVService.installAll (emptyStream 1).requests (restartedFollower 2) =
        .ok () (afterInstall (emptyStream 1) (restartedFollower 2)) ∧
      ¬ RaftKVService.Keeps (restartedFollower 2) (emptyStream 1)
        (afterInstall (emptyStream 1) (restartedFollower 2)) := by
  refine ⟨⟨by decide +kernel, by decide +kernel, by decide +kernel⟩,
    ⟨by decide +kernel, by decide +kernel⟩,
    ⟨by decide +kernel, by decide +kernel, by decide +kernel, by decide +kernel⟩,
    install_all_of_returns (by decide +kernel), ?_⟩
  intro hkeeps
  exact absurd hkeeps.applied (by decide +kernel)

/-- The follower of which only the first entry is committed takes the snapshot at index 3 without
losing anything. -/
theorem install_keeps_iff_ahead :
    (restartedFollower 1).LosesNothing (emptyStream 3) ∧
      RaftKVService.Keeps (restartedFollower 1) (emptyStream 3)
        (afterInstall (emptyStream 3) (restartedFollower 1)) := by
  have hlosesNothing : (restartedFollower 1).LosesNothing (emptyStream 3) :=
    .inr ⟨by decide +kernel, fun h => absurd h (by decide +kernel)⟩
  have hvalid : (emptyStream 3).Valid (emptySnapshot 3) :=
    ⟨by decide +kernel, by decide +kernel, by decide +kernel, by decide +kernel⟩
  exact ⟨hlosesNothing, (RaftKVService.install_keeps_iff
    ⟨by decide +kernel, by decide +kernel, by decide +kernel⟩
    ⟨by decide +kernel, by decide +kernel⟩ hvalid
    (install_all_of_returns (by decide +kernel))).mpr hlosesNothing⟩

end DistributedKV
