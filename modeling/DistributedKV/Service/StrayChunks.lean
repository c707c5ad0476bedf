import DistributedKV.Foundation.Refusals
import DistributedKV.Service.ResponseTerm

/-!
# Chunks that do not fit

A node takes a text from the handler of snapshot chunks for a fatal error. The handler gives one
whenever the receiver refuses a chunk of a leader it accepts, and also when a received snapshot ends
before the commit index, after which the machine and the log have been replaced already. So a chunk
is harmless exactly when the leader is not accepted, its boundary is covered, or the chunk goes on
where the last one ended and, if it is the last, completes a valid file up to the commit index at
least (`chunk_harmless_iff`).
-/

namespace DistributedKV

open Barrier ByteReader

/-! ## Texts of refusals -/

namespace SnapshotFile

theorem explains_string (maximum : Nat) : Explains (fun _ => True) (takeString maximum) := by
  refine .remaining_bind fun size _ => .test (by decide) fun hroom => ?_
  refine .word_bind (fun left hleft => by omega) fun length => ?_
  exact .remaining_bind fun rest hrest => .test (by decide) fun hvalid =>
    .bytes fun left hleft => by omega

theorem explains_entries (count : Nat) (keys : List Bytes) :
    Explains (fun _ => True) (readEntries count keys) := by
  induction count generalizing keys with
  | zero => exact .pure []
  | succ count ih =>
    refine (explains_string _).bind fun key => (explains_string _).bind fun value => ?_
    exact .test (by decide) fun _ => (ih _).bind fun rest => .pure _

theorem explains_sessions (count : Nat) (clients : List UInt64) :
    Explains (fun _ => True) (readSessions count clients) := by
  induction count generalizing clients with
  | zero => exact .pure []
  | succ count ih =>
    refine .remaining_bind fun size _ => .test (by decide) fun hroom => ?_
    refine .word_bind (fun left hleft => by omega) fun clientWord => ?_
    refine .word_bind (fun left hleft => by omega) fun requestWord => ?_
    refine .word_bind (fun left hleft => by omega) fun code => ?_
    cases statusOfCode code with
    | none => exact .refuse (by decide)
    | some status =>
      refine .test (by decide) fun _ => ?_
      exact ((explains_string _).mono fun _ _ => trivial).bind fun payload =>
        (ih _).bind fun rest => .pure _

theorem explains_session_table : Explains (fun _ => True) readSessionTable := by
  refine .remaining_bind fun size _ => .test (by decide) fun hroom => ?_
  refine .word_bind (fun left hleft => by omega) fun count => ?_
  refine .test (by decide) fun _ => ?_
  refine ((explains_sessions count []).mono fun _ _ => trivial).bind fun sessions => ?_
  exact .remaining_bind fun rest _ => .test (by decide) fun _ => .pure _

theorem explains_snapshot : Explains (20 ≤ ·) readSnapshot := by
  refine .word_bind (fun left hleft => by omega) fun index => ?_
  refine .word_bind (fun left hleft => by omega) fun term => ?_
  refine .test (by decide) fun _ => ?_
  refine .word_bind (fun left hleft => by omega) fun count => ?_
  refine .test (by decide) fun _ => ?_
  refine ((explains_entries count []).mono fun _ _ => trivial).bind fun entries => ?_
  exact explains_session_table.bind fun sessions => .pure _

theorem decode_error {input : Bytes} {error : String} (hdecode : decode input = .error error) :
    error ≠ "" := by
  rw [decode] at hdecode
  split_ifs at hdecode with hsize
  · cases hdecode
    decide
  · split at hdecode
    · rename_i failure hread
      obtain ⟨message, rfl, hmessage⟩ :=
        explains_snapshot input (Nat.not_lt.mp hsize) failure hread
      cases hdecode
      exact hmessage
    · cases hdecode

theorem parse_error {file : Bytes} {error : String}
    (hparse : parse receiveTexts file = .error error) : error ≠ "" := by
  rw [parse] at hparse
  split_ifs at hparse
  · cases hparse; decide
  · cases hparse; decide
  · cases hparse; decide
  · cases hparse; decide
  · exact decode_error hparse

end SnapshotFile

namespace SnapshotFileReceiver

variable {receiver after : SnapshotFileReceiver} {index term offset : Nat} {data : Bytes}
  {done : Bool} {error : String}

/-- A chunk that is not taken is refused with a text. -/
theorem append_chunk_error (hchunk : receiver.appendChunk index term offset data done =
    (after, .error error)) : error ≠ "" := by
  have htake : ∀ start : SnapshotFileReceiver,
      start.take index term offset data done = (after, .error error) → error ≠ "" := by
    intro start hstart
    dsimp only [take] at hstart
    split_ifs at hstart <;> cases hstart <;> decide
  rw [appendChunk] at hchunk
  split_ifs at hchunk with hbegin
  · rw [begin] at hchunk
    by_cases hconsistent : SnapshotFile.boundaryConsistent index term = false
    · rw [if_pos hconsistent] at hchunk
      cases hchunk
      decide
    · rw [if_neg hconsistent] at hchunk
      exact htake _ hchunk
  · exact htake _ hchunk

/-- So is a transfer that is not valid. -/
theorem finish_and_load_error (hfinish : receiver.finishAndLoad = .error error) : error ≠ "" := by
  have hassembled : receiver.assembled = .error error := by
    rw [finishAndLoad] at hfinish
    cases hassembled : receiver.assembled with
    | error first =>
      rw [hassembled] at hfinish
      cases hfinish
      rfl
    | ok snapshot =>
      rw [hassembled] at hfinish
      cases hfinish
  rw [assembled] at hassembled
  split_ifs at hassembled
  · cases hassembled
    decide
  · cases hparse : SnapshotFile.parse SnapshotFile.receiveTexts receiver.received with
    | error first =>
      rw [hparse] at hassembled
      cases hassembled
      exact SnapshotFile.parse_error hparse
    | ok snapshot =>
      rw [hparse] at hassembled
      dsimp only [bind, Except.bind] at hassembled
      split_ifs at hassembled
      · cases hassembled
        decide
      · cases hassembled

end SnapshotFileReceiver

namespace RaftNode

variable {node : RaftNode} {index term : Nat}

theorem SavesSucceed.replace_log (hsaves : node.SavesSucceed)
    (hconsistent : SnapshotFile.boundaryConsistent index term = true) :
    replaceLogWithSnapshotBoundary index term node = .ok (.ok ()) (node.replaced index term) := by
  have hreplacing : { node with log := .boundaryOnly index term,
                                commitIndex := max node.commitIndex index }.SavesSucceed := hsaves
  rw [replaceLogWithSnapshotBoundary, get_bind, RaftLog.restore_boundary hconsistent]
  dsimp only
  rw [set_bind, bind_of_ok hreplacing.persist_or_throw]
  rfl

end RaftNode

/-- The stream that a request announces. -/
def InstallSnapshotRequest.stream (request : InstallSnapshotRequest) : SnapshotStream where
  term := request.term
  leaderId := request.leaderId
  lastIncludedIndex := request.lastIncludedIndex
  lastIncludedTerm := request.lastIncludedTerm
  chunks := []

namespace RaftKVService

variable {service : RaftKVService} {request : InstallSnapshotRequest}
  {response : InstallSnapshotResponse} {snapshot : StateMachineSnapshot} {machine : StateMachine}

/-! ## What a call answers -/

/-- How an installation ends. -/
theorem install_snapshot_eq (hsaves : service.raftNode.SavesSucceed)
    (hmachine : StateMachine.restore snapshot = .ok machine)
    (happlied : machine.lastApplied = snapshot.lastIncludedIndex)
    (hconsistent : SnapshotFile.boundaryConsistent snapshot.lastIncludedIndex
      snapshot.lastIncludedTerm = true) :
    installSnapshot snapshot response service =
      .ok (if service.raftNode.commitIndex ≤ snapshot.lastIncludedIndex then
          ({ response with success := true }, "")
        else ({ response with success := false }, "committed Raft entry is absent from local log"))
        { service with
          raftNode := service.raftNode.replaced snapshot.lastIncludedIndex
            snapshot.lastIncludedTerm
          stateMachine := machine
          lastSnapshotIndex := snapshot.lastIncludedIndex } := by
  let restored : RaftKVService := { service with stateMachine := machine }
  let final : RaftKVService :=
    { service with
      raftNode := service.raftNode.replaced snapshot.lastIncludedIndex snapshot.lastIncludedTerm
      stateMachine := machine
      lastSnapshotIndex := snapshot.lastIncludedIndex }
  have hreplace : onNode (RaftNode.replaceLogWithSnapshotBoundary snapshot.lastIncludedIndex
      snapshot.lastIncludedTerm) restored = .ok (.ok ()) { restored with
        raftNode := service.raftNode.replaced snapshot.lastIncludedIndex
          snapshot.lastIncludedTerm } :=
    on_node_of_ok (hsaves.replace_log hconsistent)
  have hcaught : final.caughtUp = (final,
      if service.raftNode.commitIndex ≤ snapshot.lastIncludedIndex then .ok ()
      else .error "committed Raft entry is absent from local log") := by
    have hcommit : final.raftNode.commitIndex =
        max service.raftNode.commitIndex snapshot.lastIncludedIndex := rfl
    rw [caught_up_boundary rfl happlied, hcommit]
    simp
  have happly : applyCommitted final = .ok final.caughtUp.2 final.caughtUp.1 := rfl
  rw [hcaught] at happly
  rw [installSnapshot, hmachine]
  dsimp only
  rw [modify_bind, bind_of_ok hreplace]
  dsimp only
  rw [modify_bind, bind_of_ok happly]
  split_ifs
  · rfl
  · rfl

theorem handle_refused (hrefused : ¬ service.Accepts request.stream) :
    ∃ term, handleInstallSnapshot request service = .ok ({ term, success := false }, "") service := by
  rw [handleInstallSnapshot, get_bind]
  dsimp only
  by_cases hstale : request.term < service.raftNode.currentTerm
  · rw [if_pos hstale]
    exact ⟨_, rfl⟩
  have hmember : service.raftNode.isMember request.leaderId = false :=
    Bool.eq_false_iff.mpr fun hmember => hrefused ⟨hmember, not_lt.mp hstale⟩
  rw [if_neg hstale, bind_of_ok (on_node_of_ok (RaftNode.acknowledge_leader_refused hmember)),
    get_bind, if_pos rfl]
  exact ⟨_, rfl⟩

/-- A chunk of an accepted leader is taken. -/
theorem handle_accepted (haccepts : service.Accepts request.stream)
    (haccepted : RaftNode.acknowledgeLeader request.term request.leaderId service.raftNode =
      .ok true (service.raftNode.acknowledged request.term request.leaderId)) :
    handleInstallSnapshot request service =
      if request.lastIncludedIndex < service.raftNode.log.firstIndex ∧
          request.lastIncludedIndex ≤ service.stateMachine.lastApplied then
        .ok ({ term := service.raftNode.currentTerm, success := true }, "")
          (service.acknowledged request.stream)
      else receiveChunk request { term := service.raftNode.currentTerm, success := false }
        (service.acknowledged request.stream) := by
  have haccepted : onNode (RaftNode.acknowledgeLeader request.term request.leaderId) service =
      .ok true (service.acknowledged request.stream) := on_node_of_ok haccepted
  have hlog : (service.acknowledged request.stream).raftNode.log = service.raftNode.log :=
    (service.raftNode.acknowledged_fields request.leaderId haccepts.term).1
  rw [handleInstallSnapshot, get_bind]
  dsimp only
  rw [if_neg (show ¬ request.term < service.raftNode.currentTerm from not_lt.mpr haccepts.term),
    bind_of_ok haccepted, get_bind, if_neg (by decide), hlog]
  show (if request.lastIncludedIndex < service.raftNode.log.firstIndex ∧
      request.lastIncludedIndex ≤ service.stateMachine.lastApplied then _ else _ : ServiceM _) _ = _
  split_ifs
  · rfl
  · rfl

/-! ## Chunks that are harmless -/

/-- The call returns without a text, and if it answers no, then the machine, the log and the commit
index are what they were. -/
def Harmless (service : RaftKVService) (request : InstallSnapshotRequest) : Prop :=
  ∃ answer final, handleInstallSnapshot request service = .ok answer final ∧ answer.2 = "" ∧
    (answer.1.success = false → final.stateMachine = service.stateMachine ∧
      final.raftNode.log = service.raftNode.log ∧
      final.raftNode.commitIndex = service.raftNode.commitIndex)

/-- The chunk fits, and if it is the last one, then it completes a file of the announced boundary
that holds everything committed. -/
def Continues (service : RaftKVService) (request : InstallSnapshotRequest) : Prop :=
  ∃ receiver, service.receiverFor request.offset = some receiver ∧
    receiver.Fits request.lastIncludedIndex request.lastIncludedTerm request.offset request.data
      request.done ∧
    (request.done = true → (∃ snapshot,
      SnapshotFile.parse SnapshotFile.receiveTexts (receiver.held ++ request.data) =
        .ok snapshot ∧
      snapshot.lastIncludedIndex = request.lastIncludedIndex ∧
      snapshot.lastIncludedTerm = request.lastIncludedTerm) ∧
      service.raftNode.commitIndex ≤ request.lastIncludedIndex)

/-- The call succeeds. -/
def Confirmed (call : EStateM.Result String RaftKVService (InstallSnapshotResponse × String)) :
    Prop :=
  ∃ term final, call = .ok ({ term, success := true }, "") final

/-- The call returns a text. -/
def Complains (call : EStateM.Result String RaftKVService (InstallSnapshotResponse × String)) :
    Prop :=
  ∃ answer final, call = .ok answer final ∧ answer.2 ≠ ""

theorem harmless_of_confirmed (hcall : Confirmed (handleInstallSnapshot request service)) :
    service.Harmless request := by
  obtain ⟨term, final, hrun⟩ := hcall
  exact ⟨_, final, hrun, rfl, fun hsuccess => nomatch hsuccess⟩

theorem not_harmless_of_complains (hcall : Complains (handleInstallSnapshot request service)) :
    ¬ service.Harmless request := by
  obtain ⟨answer, final, hrun, htext⟩ := hcall
  rintro ⟨other, last, hother, hempty, -⟩
  rw [hrun] at hother
  cases hother
  exact htext hempty

/-- The last chunk of a transfer that fits. -/
theorem receive_last (hsaves : service.raftNode.SavesSucceed) {receiver : SnapshotFileReceiver}
    (hreceiver : service.receiverFor request.offset = some receiver)
    (hfits : receiver.Fits request.lastIncludedIndex request.lastIncludedTerm request.offset
      request.data request.done) (hdone : request.done = true) :
    (service.Continues request ∧ Confirmed (receiveChunk request response service)) ∨
      (¬ service.Continues request ∧ Complains (receiveChunk request response service)) := by
  have hchunk := SnapshotFileReceiver.append_chunk_eq_ok.mpr ⟨hfits, rfl⟩
  rw [receiveChunk, get_bind, hreceiver]
  dsimp only
  rw [hchunk]
  dsimp only
  rw [if_neg (by simp [hdone])]
  cases hfinish : (receiver.extended request.lastIncludedIndex request.lastIncludedTerm
      request.data).finishAndLoad with
  | error error =>
    refine .inr ⟨?_, ⟨_, _, rfl, SnapshotFileReceiver.finish_and_load_error hfinish⟩⟩
    rintro ⟨other, hother, -, hcomplete⟩
    rw [hreceiver] at hother
    cases hother
    obtain ⟨⟨snapshot, hfile⟩, -⟩ := hcomplete hdone
    rw [SnapshotFileReceiver.finish_and_load_eq_ok.mpr ⟨⟨rfl, hfile⟩, rfl⟩] at hfinish
    cases hfinish
  | ok published =>
    obtain ⟨store, snapshot⟩ := published
    obtain ⟨⟨-, hfile, hindex, hterm⟩, -⟩ := SnapshotFileReceiver.finish_and_load_eq_ok.mp hfinish
    rw [SnapshotFileReceiver.extended] at hindex hterm
    -- An image that was parsed can be restored, so only the commit index can be in the way.
    obtain ⟨hconsistent, machine, hmachine, happlied⟩ :=
      StateMachine.restore_decoded (SnapshotFile.decode_of_parse hfile).1
    have hpublished : { service with store, snapshotReceiver := none }.raftNode.SavesSucceed :=
      hsaves
    dsimp only
    rw [set_bind, install_snapshot_eq hpublished hmachine happlied hconsistent, hindex]
    by_cases hcommitted : service.raftNode.commitIndex ≤ request.lastIncludedIndex
    · refine .inl ⟨⟨receiver, hreceiver, hfits, fun _ =>
        ⟨⟨snapshot, hfile, hindex, hterm⟩, hcommitted⟩⟩, ?_⟩
      rw [if_pos hcommitted]
      exact ⟨_, _, rfl⟩
    · refine .inr ⟨?_, ?_⟩
      · rintro ⟨_, -, -, hcomplete⟩
        exact hcommitted (hcomplete hdone).2
      · rw [if_neg hcommitted]
        exact ⟨_, _, rfl, by simp⟩

/-- A chunk is taken when it continues a transfer. -/
theorem receive_chunk_cases (hsaves : service.raftNode.SavesSucceed)
    (request : InstallSnapshotRequest) (response : InstallSnapshotResponse) :
    (service.Continues request ∧ Confirmed (receiveChunk request response service)) ∨
      (¬ service.Continues request ∧ Complains (receiveChunk request response service)) := by
  cases hreceiver : service.receiverFor request.offset with
  | none =>
    refine .inr ⟨?_, ?_⟩
    · rintro ⟨receiver, hsome, -⟩
      rw [hreceiver] at hsome
      cases hsome
    · rw [receiveChunk, get_bind, hreceiver]
      exact ⟨_, _, rfl, by simp⟩
  | some receiver =>
    cases hchunk : receiver.appendChunk request.lastIncludedIndex request.lastIncludedTerm
        request.offset request.data request.done with
    | mk after taken =>
    cases taken with
    | error error =>
      refine .inr ⟨?_, ?_⟩
      · rintro ⟨other, hother, hfits, -⟩
        rw [hreceiver] at hother
        cases hother
        rw [SnapshotFileReceiver.append_chunk_eq_ok.mpr ⟨hfits, rfl⟩] at hchunk
        cases hchunk
      · rw [receiveChunk, get_bind, hreceiver]
        dsimp only
        rw [hchunk]
        exact ⟨_, _, rfl, SnapshotFileReceiver.append_chunk_error hchunk⟩
    | ok _ =>
      obtain ⟨hfits, rfl⟩ := SnapshotFileReceiver.append_chunk_eq_ok.mp hchunk
      cases hdone : request.done with
      | true => exact receive_last hsaves hreceiver hfits hdone
      | false =>
        refine .inl ⟨⟨receiver, hreceiver, hfits, by simp [hdone]⟩, ?_⟩
        rw [receiveChunk, get_bind, hreceiver]
        dsimp only
        rw [hchunk]
        dsimp only
        rw [if_pos hdone]
        exact ⟨_, _, rfl⟩

/-- Over saves that succeed, a chunk is harmless exactly when its leader is not accepted, its
boundary is covered, or it continues a transfer. -/
theorem chunk_harmless_iff (hsaves : service.raftNode.SavesSucceed)
    (request : InstallSnapshotRequest) :
    service.Harmless request ↔
      (service.Accepts request.stream → ¬ service.Covers request.stream →
        service.Continues request) := by
  by_cases haccepts : service.Accepts request.stream
  case neg =>
    obtain ⟨term, hrun⟩ := handle_refused haccepts
    exact iff_of_true ⟨_, service, hrun, rfl, fun _ => ⟨rfl, rfl, rfl⟩⟩
      fun h => absurd h haccepts
  have hhandle := handle_accepted haccepts
    (hsaves.acknowledge_leader haccepts.member haccepts.term)
  by_cases hcovers : service.Covers request.stream
  · have hrun := hhandle.trans (if_pos hcovers)
    exact iff_of_true (harmless_of_confirmed ⟨_, _, hrun⟩) fun _ h => absurd hcovers h
  have hrun := hhandle.trans (if_neg hcovers)
  have hcommit : (service.acknowledged request.stream).raftNode.commitIndex =
      service.raftNode.commitIndex :=
    (service.raftNode.acknowledged_fields request.leaderId haccepts.term).2.1
  have hsame : (service.acknowledged request.stream).Continues request ↔
      service.Continues request := by
    rw [Continues, Continues, hcommit]
    rfl
  have hsaved : (service.acknowledged request.stream).raftNode.SavesSucceed :=
    hsaves.acknowledged request.term request.leaderId
  rcases receive_chunk_cases hsaved request
      { term := service.raftNode.currentTerm, success := false }
    with ⟨hcontinues, hcall⟩ | ⟨hnot, hcall⟩
  · rw [← hrun] at hcall
    exact iff_of_true (harmless_of_confirmed hcall) fun _ _ => hsame.mp hcontinues
  · rw [← hrun] at hcall
    refine iff_of_false (not_harmless_of_complains hcall) fun h => hnot (hsame.mpr ?_)
    exact h haccepts hcovers

/-! ### A follower that has restarted -/

/-- A follower that starts with an empty journal. -/
def emptyFollower : RaftKVService := { raftNode := .fresh followerConfig (some .reliable) }

theorem empty_follower_saves : emptyFollower.raftNode.SavesSucceed := by
  rintro persistence ⟨⟩ saved image
  rfl

/-- The first chunk is harmless to it. -/
theorem first_chunk_harmless :
    emptyFollower.raftNode.SavesSucceed ∧ emptyFollower.Harmless (firstChunk 1) := by
  refine ⟨empty_follower_saves, (chunk_harmless_iff empty_follower_saves _).mpr fun _ _ => ?_⟩
  exact ⟨{}, rfl, .inl ⟨rfl, rfl, by decide, List.cons_ne_nil _ _⟩, fun hdone => nomatch hdone⟩

/-- The second chunk of a transfer whose start it has missed ends in an error. -/
theorem second_chunk_complains :
    emptyFollower.raftNode.SavesSucceed ∧
      ¬ emptyFollower.Harmless { firstChunk 1 with offset := 1 } ∧
      ∃ answer final, handleInstallSnapshot { firstChunk 1 with offset := 1 } emptyFollower =
        .ok answer final ∧ answer.2 = "snapshot receive is not initialized" := by
  have hrun : ∃ answer final,
      handleInstallSnapshot { firstChunk 1 with offset := 1 } emptyFollower = .ok answer final ∧
        answer.2 = "snapshot receive is not initialized" := ⟨_, _, rfl, rfl⟩
  obtain ⟨answer, final, hcall, htext⟩ := hrun
  refine ⟨empty_follower_saves, not_harmless_of_complains ⟨answer, final, hcall, ?_⟩, answer, final,
    hcall, htext⟩
  rw [htext]
  decide

end RaftKVService

end DistributedKV
