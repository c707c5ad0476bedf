import DistributedKV.Raft.RaftLogFacts
import DistributedKV.Service.RaftKVService

/-!
# Catching up with the commit index

A state machine that is the replay of the start of an uncompacted log, and whose log holds
nothing it refuses, catches up with the commit index without an error and is then the replay of
the committed start (`caught_up_spec`). The calls of the service outside snapshots do what the
node does and then catch up (`Served`).
-/

namespace DistributedKV

open Barrier StateMachine

/-- The state machine accepts the payload of the entry. -/
def LogEntry.Applicable (entry : LogEntry) : Prop :=
  match entry.type with
  | .noOp => entry.command = []
  | .confChange => entry.command ≠ []
  | .command => (KVCommandCodec.decode entry.command).isOk = true

instance : DecidablePred LogEntry.Applicable := fun entry => by
  rw [LogEntry.Applicable]
  cases entry.type <;> infer_instance

/-- The next entry is applied when it is accepted. -/
theorem StateMachine.apply_of_applicable {machine : StateMachine} {entry : LogEntry}
    (hindex : entry.index = machine.lastApplied + 1) (hentry : entry.Applicable) :
    ∃ next result, machine.apply entry = .ok (next, result) := by
  rw [LogEntry.Applicable] at hentry
  rw [apply, if_neg (not_not.mpr hindex)]
  cases htype : entry.type with
  | noOp =>
    rw [htype] at hentry
    exact ⟨_, _, if_neg (not_not.mpr hentry)⟩
  | confChange =>
    rw [htype] at hentry
    exact ⟨_, _, if_neg hentry⟩
  | command =>
    rw [htype] at hentry
    dsimp only at hentry
    cases hdecode : KVCommandCodec.decode entry.command with
    | error error => simp [hdecode, Except.isOk, Except.toBool] at hentry
    | ok command => exact ⟨_, _, rfl⟩

namespace RaftKVService

variable {service final : RaftKVService}

/-- The parts of a service that applying entries and finishing what is sent leave alone. -/
structure Framed (before after : RaftKVService) : Prop where
  raftNode : after.raftNode = before.raftNode
  store : after.store = before.store
  sendsSnapshots : after.sendsSnapshots = before.sendsSnapshots

theorem Framed.refl (service : RaftKVService) : Framed service service := ⟨rfl, rfl, rfl⟩

theorem Framed.trans {before middle after : RaftKVService} (hfirst : Framed before middle)
    (hsecond : Framed middle after) : Framed before after :=
  ⟨hsecond.raftNode.trans hfirst.raftNode, hsecond.store.trans hfirst.store,
    hsecond.sendsSnapshots.trans hfirst.sendsSnapshots⟩

theorem complete_spec (service : RaftKVService) (index : Nat) (result : Option ApplyResult) :
    Framed service (service.complete index result) ∧
      (service.complete index result).stateMachine = service.stateMachine := by
  unfold complete
  split
  · exact ⟨Framed.refl service, rfl⟩
  · split_ifs <;> exact ⟨⟨rfl, rfl, rfl⟩, rfl⟩

theorem apply_next_spec {entry : LogEntry}
    (hentry : service.raftNode.log.entryAt (service.stateMachine.lastApplied + 1) = some entry)
    (happlicable : entry.Applicable) :
    ∃ next result, service.applyNext = .ok next ∧ Framed service next ∧
      service.stateMachine.apply entry = .ok (next.stateMachine, result) := by
  obtain ⟨machine, result, happly⟩ :=
    apply_of_applicable (service.raftNode.log.entry_at_index hentry) happlicable
  obtain ⟨⟨hnode, hstore, hsends⟩, hmachine⟩ :=
    { service with stateMachine := machine }.complete_spec
      (service.stateMachine.lastApplied + 1) result
  refine ⟨_, result, ?_, ⟨hnode, hstore, hsends⟩, ?_⟩
  · simp only [applyNext, hentry, happly]
  · rw [hmachine, happly]

theorem apply_next_inv {next : RaftKVService} (hrun : service.applyNext = .ok next) :
    ∃ entry result,
      service.raftNode.log.entryAt (service.stateMachine.lastApplied + 1) = some entry ∧
        service.stateMachine.apply entry = .ok (next.stateMachine, result) ∧
        Framed service next := by
  rw [applyNext] at hrun
  split at hrun
  · cases hrun
  rename_i entry hentry
  split at hrun
  · cases hrun
  rename_i machine result happly
  cases hrun
  obtain ⟨⟨hnode, hstore, hsends⟩, hmachine⟩ :=
    { service with stateMachine := machine }.complete_spec
      (service.stateMachine.lastApplied + 1) result
  refine ⟨entry, result, hentry, ?_, hnode, hstore, hsends⟩
  rw [hmachine, happly]

theorem apply_loop_framed (count : Nat) (service : RaftKVService) :
    Framed service (applyLoop count service).1 := by
  induction count generalizing service with
  | zero => exact Framed.refl service
  | succ count ih =>
    rw [applyLoop]
    cases hnext : service.applyNext with
    | error error => exact Framed.refl service
    | ok next =>
      obtain ⟨-, -, -, -, hframed⟩ := apply_next_inv hnext
      exact hframed.trans (ih next)

theorem caught_up_framed : Framed service service.caughtUp.1 := apply_loop_framed _ service

theorem apply_loop_applied {count : Nat} (hrun : applyLoop count service = (final, .ok ())) :
    final.stateMachine.lastApplied = service.stateMachine.lastApplied + count := by
  induction count generalizing service with
  | zero =>
    cases hrun
    rfl
  | succ count ih =>
    rw [applyLoop] at hrun
    split at hrun
    · cases hrun
    rename_i next hnext
    obtain ⟨entry, result, -, happly, -⟩ := apply_next_inv hnext
    rw [ih hrun, apply_last_applied happly]
    omega

theorem apply_loop_succeeds (count : Nat)
    (hentries : ∀ index, service.stateMachine.lastApplied < index →
      index ≤ service.stateMachine.lastApplied + count →
      ∃ entry, service.raftNode.log.entryAt index = some entry ∧ entry.Applicable) :
    ∃ final, applyLoop count service = (final, .ok ()) := by
  induction count generalizing service with
  | zero => exact ⟨service, rfl⟩
  | succ count ih =>
    obtain ⟨entry, hentry, happlicable⟩ := hentries _ (Nat.lt_succ_self _) (by omega)
    obtain ⟨next, result, hnext, hframed, happly⟩ := apply_next_spec hentry happlicable
    have happlied := apply_last_applied happly
    have hrest : ∃ final, applyLoop count next = (final, .ok ()) := ih fun index hlow hhigh => by
      rw [hframed.raftNode]
      exact hentries index (by omega) (by omega)
    obtain ⟨final, hloop⟩ := hrest
    exact ⟨final, by rw [applyLoop, hnext]; exact hloop⟩

/-- The loop replays the history that it passes. -/
theorem apply_loop_replays (count : Nat) {history : List LogEntry}
    (hentries : ∀ k entry, service.stateMachine.lastApplied ≤ k → history[k]? = some entry →
      service.raftNode.log.entryAt (k + 1) = some entry ∧ entry.Applicable)
    (hreplay : replay (history.take service.stateMachine.lastApplied) =
      .ok service.stateMachine)
    (hcount : service.stateMachine.lastApplied + count ≤ history.length) :
    ∃ final, applyLoop count service = (final, .ok ()) ∧ Framed service final ∧
      replay (history.take (service.stateMachine.lastApplied + count)) =
        .ok final.stateMachine := by
  induction count generalizing service with
  | zero => exact ⟨service, rfl, Framed.refl service, hreplay⟩
  | succ count ih =>
    have hlt : service.stateMachine.lastApplied < history.length := by omega
    obtain ⟨hentry, happlicable⟩ := hentries _ _ le_rfl (List.getElem?_eq_getElem hlt)
    obtain ⟨next, result, hnext, hframed, happly⟩ := apply_next_spec hentry happlicable
    have happlied := apply_last_applied happly
    have hstep : replay (history.take next.stateMachine.lastApplied) =
        .ok next.stateMachine := by
      rw [happlied, List.take_succ_eq_append_getElem hlt]
      exact replay_concat _ _ hreplay happly
    obtain ⟨final, hloop, hrest, hfinal⟩ := ih (fun k entry hk => by
      rw [hframed.raftNode]
      exact hentries k entry (by omega)) hstep (by omega)
    refine ⟨final, ?_, hframed.trans hrest, ?_⟩
    · simp only [applyLoop, hnext, hloop]
    · rwa [happlied, show service.stateMachine.lastApplied + 1 + count =
        service.stateMachine.lastApplied + (count + 1) by omega] at hfinal

/-- The node can be caught up with: its log is uncompacted and holds the committed entries, whose
payloads are all accepted, and a machine that is not ahead is the replay of its start. -/
structure Reachable (node : RaftNode) (machine : StateMachine) : Prop where
  uncompacted : node.log.Uncompacted
  applicable : ∀ entry ∈ node.log.suffix, entry.Applicable
  committed : node.commitIndex ≤ node.log.suffix.length
  replayed : machine.lastApplied ≤ node.commitIndex →
    replay (node.log.suffix.take machine.lastApplied) = .ok machine

/-- Catching up replays what is committed. -/
theorem caught_up_spec (hreachable : Reachable service.raftNode service.stateMachine) :
    ∃ final, service.caughtUp = (final, .ok ()) ∧ Framed service final ∧
      (final.stateMachine = service.stateMachine ∨
        replay (service.raftNode.log.suffix.take service.raftNode.commitIndex) =
          .ok final.stateMachine) := by
  rw [caughtUp]
  rcases Nat.lt_or_ge service.raftNode.commitIndex service.stateMachine.lastApplied with hlt | hle
  · rw [Nat.sub_eq_zero_of_le hlt.le]
    exact ⟨service, rfl, Framed.refl service, .inl rfl⟩
  · have hentries : ∀ k entry, service.stateMachine.lastApplied ≤ k →
        service.raftNode.log.suffix[k]? = some entry →
        service.raftNode.log.entryAt (k + 1) = some entry ∧ entry.Applicable :=
      fun k entry _ hentry => ⟨(hreachable.uncompacted.entry_at_succ k).trans hentry,
        hreachable.applicable entry (List.mem_of_getElem? hentry)⟩
    obtain ⟨final, hloop, hframed, hfinal⟩ :=
      apply_loop_replays (service.raftNode.commitIndex - service.stateMachine.lastApplied) hentries
        (hreachable.replayed hle) (by have := hreachable.committed; omega)
    rw [Nat.add_sub_cancel' hle] at hfinal
    exact ⟨final, hloop, hframed, .inr hfinal⟩

/-! ## The calls -/

theorem make_install_snapshot_rpc_unpublished (hstore : service.store.file = none)
    (peer : NodeId) : makeInstallSnapshotRpc peer service = .ok (none, "") service := by
  have hpublished : ∀ index term, service.publishedAt index term = false := by
    intro index term
    rw [publishedAt, FileSnapshotStore.load, hstore]
  have hboundary := service.raftNode.log.entry_at_first
  rw [makeInstallSnapshotRpc, get_bind]
  split_ifs
  · rfl
  · dsimp only
    rw [RaftLog.termAt, hboundary, Option.map_some]
    dsimp only
    rw [if_pos (hpublished _ _)]
    rfl

/-- Without a file every request is sent as it is. -/
theorem complete_replication_spec (hstore : service.store.file = none)
    (outbound : List OutboundRpc) :
    ∃ final, completeReplication outbound service = .ok (outbound, "") final ∧
      Framed service final ∧ final.stateMachine = service.stateMachine := by
  induction outbound generalizing service with
  | nil => exact ⟨service, rfl, Framed.refl service, rfl⟩
  | cons rpc rest ih =>
    rw [completeReplication, get_bind]
    split_ifs with hbehind
    · have hrewound : (service.rewindSend rpc.destination).store.file = none := hstore
      obtain ⟨final, hrest, ⟨hnode, hsame, hsends⟩, hmachine⟩ := ih hrewound
      refine ⟨final, ?_, ⟨hnode, hsame, hsends⟩, hmachine⟩
      rw [set_bind, bind_of_ok (make_install_snapshot_rpc_unpublished hrewound _)]
      dsimp only
      rw [if_neg (by decide), bind_of_ok hrest]
      rfl
    · obtain ⟨final, hrest, hframed, hmachine⟩ := ih hstore
      refine ⟨final, ?_, hframed, hmachine⟩
      rw [bind_of_ok hrest]
      rfl

theorem finalize_outbound_spec (hstore : service.store.file = none)
    (outbound : List OutboundRpc) :
    ∃ final, finalizeOutbound outbound service = .ok (outbound, "") final ∧
      Framed service final ∧ final.stateMachine = service.stateMachine := by
  rw [finalizeOutbound, get_bind]
  split_ifs
  · exact complete_replication_spec hstore outbound
  · exact ⟨service, rfl, Framed.refl service, rfl⟩

/-- What a call leaves when the node moved and the machine caught up with it. -/
structure Served (service : RaftKVService) (node : RaftNode) (final : RaftKVService) : Prop where
  raftNode : final.raftNode = node
  store : final.store = service.store
  sendsSnapshots : final.sendsSnapshots = service.sendsSnapshots
  machine : final.stateMachine = service.stateMachine ∨
    replay (node.log.suffix.take node.commitIndex) = .ok final.stateMachine

theorem on_node_of_ok {α : Type} {program : RaftM α} {result : α} {node : RaftNode}
    (hrun : program service.raftNode = .ok result node) :
    onNode program service = .ok result { service with raftNode := node } := by
  rw [onNode, hrun]

section Call

variable {node : RaftNode} (hreachable : Reachable node service.stateMachine)
  (hstore : service.store.file = none)
include hreachable

theorem apply_committed_spec (hnode : service.raftNode = node) :
    ∃ final, applyCommitted service = .ok (.ok ()) final ∧ Served service node final := by
  subst hnode
  obtain ⟨final, hcaught, ⟨hsame, hstore, hsends⟩, hmachine⟩ := caught_up_spec hreachable
  exact ⟨final, by rw [applyCommitted, hcaught], hsame, hstore, hsends, hmachine⟩

theorem handle_append_entries_spec {request : AppendEntriesRequest}
    {response : AppendEntriesResponse}
    (hrun : RaftNode.handleAppendEntries request service.raftNode = .ok response node) :
    ∃ final, handleAppendEntries request service = .ok (response, "") final ∧
      Served service node final := by
  have hmoved : Reachable node { service with raftNode := node }.stateMachine := hreachable
  obtain ⟨final, happly, hnode, hsame, hsends, hmachine⟩ := apply_committed_spec hmoved rfl
  refine ⟨final, ?_, hnode, hsame, hsends, hmachine⟩
  rw [handleAppendEntries, bind_of_ok (on_node_of_ok hrun), bind_of_ok happly]
  rfl

include hstore

theorem settle_spec {program : RaftM (List OutboundRpc)} {outbound : List OutboundRpc}
    (hrun : program service.raftNode = .ok outbound node) :
    ∃ final, (do let outbound ← onNode program; settle outbound) service =
        .ok (outbound, "") final ∧ Served service node final := by
  have hmoved : Reachable node { service with raftNode := node }.stateMachine := hreachable
  obtain ⟨caught, happly, hnode, hsame, hsends, hmachine⟩ := apply_committed_spec hmoved rfl
  have hempty : caught.store.file = none := by
    rw [hsame]
    exact hstore
  obtain ⟨final, hfinalize, ⟨hnode', hsame', hsends'⟩, hmachine'⟩ :=
    finalize_outbound_spec hempty outbound
  refine ⟨final, ?_, hnode'.trans hnode, hsame'.trans hsame, hsends'.trans hsends, ?_⟩
  · rw [bind_of_ok (on_node_of_ok hrun), settle, bind_of_ok happly]
    exact hfinalize
  · rwa [hmachine']

/-- A submission is the node's proposal of the command. -/
theorem submit_spec {command : KVCommand} {encoded : Bytes}
    (hencoded : KVCommandCodec.encode command = .ok encoded) {proposal : ProposeResult}
    (hrun : RaftNode.propose encoded service.raftNode = .ok proposal node) :
    ∃ result final, submit command service = .ok (result, "") final ∧
      result.outbound = proposal.outbound ∧ Served service node final := by
  rw [submit, hencoded]
  dsimp only
  rw [bind_of_ok (on_node_of_ok hrun)]
  split_ifs
  · let pended : RaftKVService := { service with
      raftNode := node, pendingLocal := insert proposal.index service.pendingLocal }
    have hmoved : Reachable node pended.stateMachine := hreachable
    obtain ⟨caught, happly, hnode, hsame, hsends, hmachine⟩ := apply_committed_spec hmoved rfl
    let taken : RaftKVService := { caught with
      completedLocal := Function.update caught.completedLocal proposal.index none }
    have hempty : taken.store.file = none := by
      show caught.store.file = none
      rw [hsame]
      exact hstore
    obtain ⟨final, hfinalize, ⟨hnode', hsame', hsends'⟩, hmachine'⟩ :=
      finalize_outbound_spec hempty proposal.outbound
    have hserved : Served service node final := by
      refine ⟨hnode'.trans hnode, hsame'.trans hsame, hsends'.trans hsends, ?_⟩
      rw [hmachine']
      exact hmachine
    have htake : takeResult proposal.index caught =
        .ok (caught.completedLocal proposal.index) taken := rfl
    rw [submitAccepted, modify_bind, bind_of_ok happly]
    dsimp only
    rw [bind_of_ok htake, bind_of_ok hfinalize]
    dsimp only
    rw [if_neg (by decide)]
    cases caught.completedLocal proposal.index with
    | none => exact ⟨_, final, rfl, rfl, hserved⟩
    | some result => exact ⟨_, final, rfl, rfl, hserved⟩
  · exact ⟨_, _, rfl, rfl, ⟨rfl, rfl, rfl, .inl rfl⟩⟩

end Call

end RaftKVService

end DistributedKV
