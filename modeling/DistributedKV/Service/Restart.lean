import DistributedKV.Raft.Journal.FileBarrier
import DistributedKV.Service.CatchUp

/-!
# Starting from files

What a crash leaves behind is a journal and a snapshot file. A service starts from them by
constructing its node, restoring the snapshot and catching up; the outcome depends on the log and
the commit index of the node only (`construct_of_log`).
-/

namespace DistributedKV

open Barrier

/-- What a crash leaves behind: the journal and the snapshot file. -/
structure Files where
  journal : FileRaftPersistence
  snapshot : FileSnapshotStore

/-- Start a service from the files. -/
def Files.start (config : NodeConfig) (sends : Bool) (files : Files) :
    Except String RaftKVService := do
  let snapshot ← files.snapshot.load
  RaftKVService.construct config (some files.journal.reopenedBarrier) {} snapshot sends
    files.snapshot

theorem StateMachine.restore_last_applied {snapshot : StateMachineSnapshot}
    {machine : StateMachine} (hrun : restore snapshot = .ok machine) :
    machine.lastApplied = snapshot.lastIncludedIndex := by
  rw [restore] at hrun
  split at hrun
  · cases hrun
  obtain ⟨sessions, -, hrun⟩ := except_bind_eq_ok.mp hrun
  obtain ⟨store, -, hrun⟩ := except_bind_eq_ok.mp hrun
  cases hrun
  rfl

namespace RaftKVService

/-- The files of a service whose journal was opened at its start. -/
def files (opened : FileRaftPersistence) (service : RaftKVService) : Files where
  journal := service.raftNode.file opened
  snapshot := service.store

/-! ## Starting from files -/

variable {config : NodeConfig} {sends : Bool} {service final restarted : RaftKVService}
  {files : Files} {node : RaftNode}

variable {barrier : Option RaftPersistence} {kv : KVStore} {snapshot : Option StateMachineSnapshot}
  {store : FileSnapshotStore}

theorem apply_next_of_log (hlog : node.log = service.raftNode.log) :
    { service with raftNode := node }.applyNext =
      service.applyNext.map fun next => { next with raftNode := node } := by
  rw [applyNext, applyNext, hlog]
  dsimp only
  split
  · rfl
  · rename_i entry hentry
    cases service.stateMachine.apply entry with
    | error error => rfl
    | ok answer =>
      obtain ⟨machine, result⟩ := answer
      cases result with
      | none => rfl
      | some result =>
        simp only [complete, Except.map]
        split_ifs <;> rfl

theorem apply_loop_of_log (count : Nat) (hlog : node.log = service.raftNode.log) :
    applyLoop count { service with raftNode := node } =
      ({ (applyLoop count service).1 with raftNode := node }, (applyLoop count service).2) := by
  induction count generalizing service with
  | zero => rfl
  | succ count ih =>
    rw [applyLoop, applyLoop, apply_next_of_log hlog]
    cases hnext : service.applyNext with
    | error error => rfl
    | ok next =>
      obtain ⟨-, -, -, -, hframed⟩ := apply_next_inv hnext
      exact ih (by rw [hlog, hframed.raftNode])

/-- How a service is constructed. -/
theorem construct_eq_ok_iff :
    construct config barrier kv snapshot sends store = .ok restarted ↔
      ∃ node started, RaftNode.construct config barrier = .ok node ∧
        startFrom { raftNode := node, stateMachine := { store := kv }, sendsSnapshots := sends
                    store } snapshot = .ok started ∧
        started.caughtUp = (restarted, .ok ()) := by
  rw [construct, except_bind_eq_ok]
  constructor
  · rintro ⟨node, hnode, hrun⟩
    obtain ⟨started, hstarted, hrebuilt⟩ := except_bind_eq_ok.mp hrun
    refine ⟨node, started, hnode, hstarted, ?_⟩
    rw [rebuilt] at hrebuilt
    split at hrebuilt
    · cases hrebuilt
    · rename_i caught hcaught
      cases hrebuilt
      exact hcaught
  · rintro ⟨node, started, hnode, hstarted, hcaught⟩
    refine ⟨node, hnode, except_bind_eq_ok.mpr ⟨started, hstarted, ?_⟩⟩
    rw [rebuilt, hcaught]

theorem restore_snapshot_iff {snapshot : StateMachineSnapshot} {started : RaftKVService} :
    service.restoreSnapshot snapshot = .ok started ↔
      snapshot.lastIncludedIndex ≤ service.raftNode.commitIndex ∧
        service.raftNode.log.termAt snapshot.lastIncludedIndex = some snapshot.lastIncludedTerm ∧
        ∃ machine, StateMachine.restore snapshot = .ok machine ∧
          started = { service with
            stateMachine := machine, lastSnapshotIndex := snapshot.lastIncludedIndex } := by
  rw [restoreSnapshot]
  split_ifs with hahead hterm
  · simp [hahead]
  · simp [hterm]
  · rw [not_lt] at hahead
    rw [not_not] at hterm
    cases StateMachine.restore snapshot with
    | error error => simp
    | ok machine => simp [hahead, hterm, eq_comm]

/-- What starting from a snapshot leaves. -/
theorem start_from_spec {started : RaftKVService}
    (hstarted : startFrom service snapshot = .ok started)
    (happlied : service.stateMachine.lastApplied = 0) :
    started.raftNode = service.raftNode ∧
      started.stateMachine.lastApplied ≤ service.raftNode.commitIndex ∧
      ∀ other : RaftNode, other.log = service.raftNode.log →
        other.commitIndex = service.raftNode.commitIndex →
        startFrom { service with raftNode := other } snapshot =
          .ok { started with raftNode := other } := by
  cases snapshot with
  | none =>
    cases hstarted
    exact ⟨rfl, happlied.trans_le (Nat.zero_le _), fun _ _ _ => rfl⟩
  | some snapshot =>
    obtain ⟨hbehind, hterm, machine, hmachine, rfl⟩ := restore_snapshot_iff.mp hstarted
    refine ⟨rfl, (StateMachine.restore_last_applied hmachine).trans_le hbehind,
      fun other hlog hcommit => restore_snapshot_iff.mpr ⟨?_, ?_, machine, hmachine, rfl⟩⟩
    · exact hcommit ▸ hbehind
    · exact hlog ▸ hterm

section Constructed

variable (hrun : construct config barrier kv snapshot sends store = .ok restarted)
include hrun

theorem construct_node :
    RaftNode.construct config barrier = .ok restarted.raftNode := by
  obtain ⟨node, started, hnode, hstarted, hcaught⟩ := construct_eq_ok_iff.mp hrun
  have hsame : started.raftNode = node := (start_from_spec hstarted rfl).1
  have hframed : restarted.raftNode = started.raftNode := by
    have hfields := (caught_up_framed : Framed started started.caughtUp.1).raftNode
    rw [hcaught] at hfields
    exact hfields
  rw [hnode, hframed, hsame]

theorem construct_of_log {other : Option RaftPersistence} {node' : RaftNode}
    (hnode : RaftNode.construct config barrier = .ok node)
    (hother : RaftNode.construct config other = .ok node') (hlog : node'.log = node.log)
    (hcommit : node'.commitIndex = node.commitIndex) :
    construct config other kv snapshot sends store =
      .ok { restarted with raftNode := node' } := by
  obtain ⟨constructed, started, hconstructed, hstarted, hcaught⟩ := construct_eq_ok_iff.mp hrun
  rw [hnode] at hconstructed
  cases hconstructed
  obtain ⟨hsame, -, hstarts⟩ := start_from_spec hstarted rfl
  refine construct_eq_ok_iff.mpr ⟨node', _, hother, hstarts node' hlog hcommit, ?_⟩
  have hloop := apply_loop_of_log (started.raftNode.commitIndex - started.stateMachine.lastApplied)
    (show node'.log = started.raftNode.log by rw [hlog, hsame])
  rw [caughtUp] at hcaught ⊢
  rw [hcaught] at hloop
  rw [← hloop, hsame, ← hcommit]

theorem construct_applied (hnode : RaftNode.construct config barrier = .ok node) :
    restarted.stateMachine.lastApplied = node.commitIndex := by
  obtain ⟨constructed, started, hconstructed, hstarted, hcaught⟩ := construct_eq_ok_iff.mp hrun
  rw [hnode] at hconstructed
  cases hconstructed
  obtain ⟨hsame, hbehind, -⟩ := start_from_spec hstarted rfl
  rw [apply_loop_applied hcaught, hsame]
  exact Nat.add_sub_cancel' hbehind

end Constructed

/-- A service starts from a snapshot that its log holds. -/
theorem construct_behind {snapshot : StateMachineSnapshot} {machine : StateMachine}
    (hnode : RaftNode.construct config barrier = .ok node)
    (hindex : snapshot.lastIncludedIndex ≤ node.commitIndex)
    (hterm : node.log.termAt snapshot.lastIncludedIndex = some snapshot.lastIncludedTerm)
    (hmachine : StateMachine.restore snapshot = .ok machine)
    (hentries : ∀ index, snapshot.lastIncludedIndex < index → index ≤ node.commitIndex →
      ∃ entry, node.log.entryAt index = some entry ∧ entry.Applicable) :
    ∃ restarted, construct config barrier kv (some snapshot) sends store = .ok restarted ∧
      restarted.stateMachine.lastApplied = node.commitIndex := by
  let started : RaftKVService :=
    { raftNode := node, stateMachine := machine, sendsSnapshots := sends, store
      lastSnapshotIndex := snapshot.lastIncludedIndex }
  have happlied : machine.lastApplied = snapshot.lastIncludedIndex :=
    StateMachine.restore_last_applied hmachine
  obtain ⟨final, hloop⟩ := apply_loop_succeeds (node.commitIndex - machine.lastApplied)
    (show ∀ index, started.stateMachine.lastApplied < index →
      index ≤ started.stateMachine.lastApplied + (node.commitIndex - machine.lastApplied) →
      ∃ entry, started.raftNode.log.entryAt index = some entry ∧ entry.Applicable from
        fun index hlow hhigh => hentries index (happlied ▸ hlow) (by
          rw [show started.stateMachine.lastApplied = machine.lastApplied from rfl] at hhigh
          omega))
  have hrun : construct config barrier kv (some snapshot) sends store = .ok final :=
    construct_eq_ok_iff.mpr ⟨node, started, hnode,
      restore_snapshot_iff.mpr ⟨hindex, hterm, machine, hmachine, rfl⟩, hloop⟩
  exact ⟨final, hrun, construct_applied hrun hnode⟩

end RaftKVService

theorem Files.start_filed {config : NodeConfig} {sends : Bool} {files : Files}
    {service : RaftKVService} {image : RaftPersistentState} (hkeeps : files.journal.Keeps image)
    (hstart : files.start config sends = .ok service) :
    service.raftNode.Filed files.journal.opened ∧
      (service.raftNode.file files.journal.opened).Keeps service.raftNode.latest := by
  obtain ⟨snapshot, -, hrun⟩ := except_bind_eq_ok.mp hstart
  have hnode := RaftKVService.construct_node hrun
  rw [hkeeps.reopened.1] at hnode
  have hpersistence := (RaftNode.construct_durable hnode).persistence
  have hsaved : service.raftNode.saved = [image] := by
    rw [RaftNode.saved, hpersistence]
    rfl
  refine ⟨⟨image, [], hpersistence, trivial⟩, ?_⟩
  rw [RaftNode.file, RaftNode.latest, hsaved]
  exact hkeeps.reopened.2

/-- The files lead to a service that has applied at least so many entries. -/
def Files.Recover (config : NodeConfig) (sends : Bool) (applied : Nat) (files : Files) : Prop :=
  ∃ restarted, files.start config sends = .ok restarted ∧
    applied ≤ restarted.stateMachine.lastApplied

instance (config : NodeConfig) (sends : Bool) (applied : Nat) (files : Files) :
    Decidable (files.Recover config sends applied) :=
  match hstart : files.start config sends with
  | .error _ => isFalse fun ⟨_, hother, _⟩ => by rw [hstart] at hother; cases hother
  | .ok restarted =>
    if happlied : applied ≤ restarted.stateMachine.lastApplied then
      isTrue ⟨restarted, hstart, happlied⟩
    else
      isFalse fun ⟨_, hother, hle⟩ => by rw [hstart] at hother; cases hother; exact happlied hle

end DistributedKV
