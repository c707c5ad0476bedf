import DistributedKV.Service.CommittedHistory
import DistributedKV.Service.Safety
import DistributedKV.Service.ServiceSteps

/-!
# Crashes while snapshots are published

A service with fixed membership takes client commands, time and the messages of elections and of
replication, and publishes snapshots of what it has applied, each of which cuts its log. It stops
after any of the writes to its two files, the journal and the snapshot, or because the journal
refuses a save, and starts again from what it finds there. As long as every image in the journal can
be read and has a positive term, it starts, with everything applied that is durably committed
(`crash_recovers`): the published image is behind the durable commit index and ahead of the boundary
of the durable log, whichever of the two files was written last. An image of term zero is saved when
a new service is asked for a vote in term zero; it does not start from that one
(`crash_after_vote_of_term_zero`).
-/

namespace DistributedKV

open Barrier List RaftNode RaftKVService
open TermLog (lastStamp)

/-- The machine is the replay of a start of the history that reaches a boundary. -/
structure StateMachine.Replays (history : List LogEntry) (boundary : Nat) (machine : StateMachine) :
    Prop where
  behind : boundary ≤ machine.lastApplied
  applied : machine.lastApplied ≤ history.length
  replay : StateMachine.replay (history.take machine.lastApplied) = .ok machine

variable {history : List LogEntry}

theorem StateMachine.Replays.of_replay {boundary : Nat} {machine : StateMachine}
    (hboundary : boundary ≤ history.length) (hreplay : StateMachine.replay history = .ok machine) :
    machine.Replays history boundary := by
  have happlied := StateMachine.replay_last_applied hreplay
  exact ⟨happlied ▸ hboundary, happlied.le, by rwa [happlied, take_length]⟩

theorem StateMachine.Replays.mono {longer : List LogEntry} {boundary : Nat} {machine : StateMachine}
    (hmachine : machine.Replays history boundary) (hbegins : history <+: longer) :
    machine.Replays longer boundary := by
  refine ⟨hmachine.behind, hmachine.applied.trans hbegins.length_le, ?_⟩
  obtain ⟨tail, rfl⟩ := hbegins
  rw [take_append_of_le_length hmachine.applied]
  exact hmachine.replay

namespace RaftKVService

variable {service final : RaftKVService} {history : List LogEntry} {term : Nat}

/-! ## Catching up behind a boundary -/

/-- Catching up replays the history of the node. -/
theorem caught_up_history (hlog : service.raftNode.log.Carries history term)
    (hcommit : history.length = service.raftNode.commitIndex)
    (hmachine : service.stateMachine.Replays history service.raftNode.log.firstIndex) :
    ∃ final, service.caughtUp = (final, .ok ()) ∧ Framed service final ∧
      StateMachine.replay history = .ok final.stateMachine := by
  have happlied := hmachine.applied
  have hentries : ∀ k entry, service.stateMachine.lastApplied ≤ k → history[k]? = some entry →
      service.raftNode.log.entryAt (k + 1) = some entry ∧ entry.Applicable := by
    intro k entry hk hentry
    have hbehind := hmachine.behind.trans hk
    obtain ⟨hlt, -⟩ := List.getElem?_eq_some_iff.mp hentry
    -- The entry lies behind the boundary, so it was submitted.
    have hmember : entry ∈ service.raftNode.log.suffix := by
      refine hlog.committed.subset (mem_iff_getElem?.mpr
        ⟨k - service.raftNode.log.firstIndex, ?_⟩)
      rw [getElem?_drop, Nat.add_sub_cancel' hbehind, hentry]
    exact ⟨(hlog.entry_at hbehind hlt).trans hentry, (hlog.submitted entry hmember).applicable⟩
  obtain ⟨final, hloop, hframed, hfinal⟩ := apply_loop_replays
    (service.raftNode.commitIndex - service.stateMachine.lastApplied) hentries hmachine.replay
    (by omega)
  rw [← hcommit, Nat.add_sub_cancel' happlied, take_length] at hfinal
  exact ⟨final, hloop, hframed, hfinal⟩

/-! ## The calls of the node -/

/-- The images a service has saved, most recent first. -/
def journal (service : RaftKVService) : List RaftPersistentState := service.raftNode.saved

variable {durable : RaftPersistentState → Prop}

/-- What a call on the node leaves in the journal. -/
theorem leaves_on_node {α : Type} {program : RaftM α} {post : α → RaftNode → Prop}
    {thrown : RaftNode → Prop}
    (hprogram : Leaves RaftNode.saved program service.raftNode post thrown durable) :
    Leaves journal (onNode program) service
      (fun result final => post result final.raftNode ∧
        final = { service with raftNode := final.raftNode })
      (fun final => thrown final.raftNode ∧ final = { service with raftNode := final.raftNode })
      durable := by
  refine ⟨fun result final hrun => ?_, fun error final hrun => ?_⟩
  · rw [onNode] at hrun
    split at hrun
    · rename_i answer node hnode
      cases hrun
      exact (hprogram.1 _ node hnode).imp_left fun hpost => ⟨hpost, rfl⟩
    · cases hrun
  · rw [onNode] at hrun
    split at hrun
    · cases hrun
    · rename_i answer node hnode
      cases hrun
      exact (hprogram.2 _ node hnode).imp_left fun hthrown => ⟨hthrown, rfl⟩

variable {config : NodeConfig} {start : RaftKVService} {longer : List LogEntry}

/-- From a start on, the node has committed a longer history, and the machine is a replay of it. -/
structure Progressed (config : NodeConfig) (history : List LogEntry) (start : RaftKVService)
    (longer : List LogEntry) (service : RaftKVService) : Prop where
  begins : history <+: longer
  boundary : service.raftNode.log.boundary = start.raftNode.log.boundary
  node : service.raftNode.Tracks config longer
  kept : RaftNode.Kept start.raftNode service.raftNode
  machine : service.stateMachine.Replays longer service.raftNode.log.firstIndex
  store : service.store = start.store

/-- Nothing but the machine and the tables has changed, and progress has stayed progress. -/
def Goes (config : NodeConfig) (history : List LogEntry) (start : RaftKVService)
    (longer : List LogEntry) (first second : RaftKVService) : Prop :=
  Framed first second ∧ (Progressed config history start longer first →
    Progressed config history start longer second)

theorem Progressed.applied (hservice : Progressed config history start longer service)
    (hlater : service.stateMachine.lastApplied < service.raftNode.commitIndex)
    (hnext : service.applyNext = .ok final) : Progressed config history start longer final := by
  obtain ⟨entry, result, hentry, happly, hframed⟩ := apply_next_inv hnext
  have happlied := StateMachine.apply_last_applied happly
  have hlt := hlater.trans_eq hservice.node.commit.symm
  -- The next entry of the log is the next one of the history.
  rw [hservice.node.log.entry_at hservice.machine.behind hlt, getElem?_eq_getElem hlt] at hentry
  have hreplay : StateMachine.replay (longer.take final.stateMachine.lastApplied) =
      .ok final.stateMachine := by
    rw [happlied, take_succ_eq_append_getElem hlt, Option.some.inj hentry]
    exact StateMachine.replay_concat _ _ hservice.machine.replay happly
  have hbehind := hservice.machine.behind
  obtain ⟨hbegins, hboundary, hnode, hkept, -, hstore⟩ := hservice
  rw [← hframed.raftNode] at hboundary hnode hkept hbehind
  exact ⟨hbegins, hboundary, hnode, hkept, ⟨by omega, by omega, hreplay⟩,
    hframed.store.trans hstore⟩

theorem goes_settles : Settles (Goes config history start longer) where
  apply hlater hnext :=
    ⟨(apply_next_inv hnext).choose_spec.choose_spec.2.2, fun h => h.applied hlater hnext⟩
  take _ _ := ⟨⟨rfl, rfl, rfl⟩, fun h => ⟨h.begins, h.boundary, h.node, h.kept, h.machine, h.store⟩⟩
  track _ _ := ⟨⟨rfl, rfl, rfl⟩, fun h => ⟨h.begins, h.boundary, h.node, h.kept, h.machine, h.store⟩⟩

/-- What a call does behind the operation of the node saves nothing and is progress. -/
theorem Progressed.leaves (hservice : Progressed config history start longer service) {α : Type}
    {program : ServiceM α}
    (htraces : Traces (Goes config history start longer) program service fun _ _ => True) :
    Leaves journal program service
      (fun _ final => ∃ longer, Progressed config history start longer final)
      (fun final => final.store = start.store) durable := by
  have hgoes : ∀ final, Relation.ReflTransGen (Goes config history start longer) service final →
      Progressed config history start longer final ∧ Adds journal durable service final := by
    intro final hsteps
    refine invariant_of_steps (I := fun final => Progressed config history start longer final ∧
      Adds journal durable service final) (fun first second hgoes hfirst => ?_) hsteps
      ⟨hservice, .of_eq rfl⟩
    exact ⟨hgoes.2 hfirst.1, hfirst.2.trans (.of_eq (by rw [journal, hgoes.1.raftNode]; rfl))⟩
  exact ⟨fun result final hrun => (hgoes final (htraces.1 result final hrun).1).imp_left
    fun h => ⟨longer, h⟩, fun error final hrun => (hgoes final (htraces.2 error final hrun)).imp_left
    fun h => h.store⟩

/-- The state of a service between two calls. -/
structure Recoverable (config : NodeConfig) (history : List LogEntry) (service : RaftKVService) :
    Prop where
  node : service.raftNode.Tracks config history
  latest : RaftNode.Latest config history service.raftNode.log service.raftNode.latest
  machine : service.stateMachine.Replays history service.raftNode.log.firstIndex

/-- A call is progress of the service when it returns, and leaves the snapshot file alone; the images
it saves go on with the history. -/
abbrev Advances (config : NodeConfig) (history : List LogEntry) {α : Type} (program : ServiceM α)
    (service : RaftKVService) : Prop :=
  Leaves journal program service
    (fun _ final => ∃ longer, Progressed config history service longer final)
    (fun final => final.store = service.store)
    (RaftPersistentState.Continues config history service.raftNode.log)

theorem Recoverable.leaves_operation (hservice : Recoverable config history service) {α : Type}
    {program : RaftM α}
    (hprogram : RaftNode.Proceeds config history program service.raftNode) :
    Advances config history (onNode program) service := by
  refine (leaves_on_node hprogram).mono ?_ (fun _ h => by rw [h.2]) fun _ h => h
  rintro result final ⟨⟨⟨hboundary, longer, hbegins, htracks⟩, hkept⟩, hfinal⟩
  refine ⟨longer, hbegins, hboundary, htracks, hkept, ?_, ?_⟩
  · have hmachine := hservice.machine.mono hbegins
    rw [RaftLog.firstIndex, ← hboundary] at hmachine
    rw [hfinal]
    exact hmachine
  · rw [hfinal]

/-- The calls of a run with fixed membership, apart from the publication of snapshots. -/
def AdmitsPlain (service : RaftKVService) : ServiceCall → Prop
  | .tick _ | .submit _ | .takeResult _ | .handleRequestVote _ _ | .handleRequestVoteResponse _ _
  | .handleAppendEntriesResponse _ _ => True
  | .handleAppendEntries _ request => service.raftNode.Agrees request
  | _ => False

theorem Recoverable.progressed (hservice : Recoverable config history service) :
    Progressed config history service history service :=
  ⟨prefix_rfl, rfl, hservice.node, .refl _, hservice.machine, rfl⟩

/-- A plain call advances the service. -/
theorem Recoverable.leaves_perform (hservice : Recoverable config history service)
    {call : ServiceCall} (hadmits : service.AdmitsPlain call) :
    Advances config history (perform call) service := by
  have hsettle : ∀ {program : RaftM (List OutboundRpc)},
      RaftNode.Proceeds config history program service.raftNode →
      Advances config history (do let outbound ← onNode program; settle outbound) service := by
    intro program hprogram
    refine .bind (hservice.leaves_operation hprogram) ?_
    rintro outbound moved ⟨longer, hmoved⟩
    exact hmoved.leaves (traces_settle goes_settles outbound)
  cases call with
  | tick elapsedMs =>
    have hadmitted : service.raftNode.Admits (.tick elapsedMs) := trivial
    exact hsettle (hservice.node.proceeds hadmitted)
  | submit command =>
    rw [perform, submit]
    cases hencode : KVCommandCodec.encode command with
    | error error => exact .pure ⟨history, hservice.progressed⟩
    | ok encoded =>
      have hadmitted : service.raftNode.Admits (.propose encoded) := ⟨command, hencode⟩
      refine .bind (.bind
        (hservice.leaves_operation (hservice.node.proceeds hadmitted).of_bind_pure) ?_)
        fun _ _ h => .pure h
      rintro proposal moved ⟨longer, hmoved⟩
      split_ifs
      · exact hmoved.leaves (traces_submit_accepted goes_settles _ ⟨⟨rfl, rfl, rfl⟩,
          fun h => ⟨h.begins, h.boundary, h.node, h.kept, h.machine, h.store⟩⟩)
      · exact .pure ⟨longer, hmoved⟩
  | takeResult index =>
    exact .bind (hservice.progressed.leaves (traces_take_result goes_settles index))
      fun _ _ h => .pure h
  | handleRequestVote source request =>
    have hadmitted : service.raftNode.Admits (.handleRequestVote source request) := trivial
    exact .bind (hservice.leaves_operation (hservice.node.proceeds hadmitted).of_bind_pure)
      fun _ _ h => .pure h
  | handleRequestVoteResponse source response =>
    have hadmitted : service.raftNode.Admits (.handleRequestVoteResponse source response) :=
      trivial
    exact hsettle (hservice.node.proceeds hadmitted)
  | handleAppendEntries source request =>
    have hadmitted : service.raftNode.Admits (.handleAppendEntries source request) := hadmits
    refine .bind (.bind
      (hservice.leaves_operation (hservice.node.proceeds hadmitted).of_bind_pure) ?_)
      fun _ _ h => .pure h
    rintro response moved ⟨longer, hmoved⟩
    refine hmoved.leaves (.bind (traces_apply_committed goes_settles) fun answer _ _ => ?_)
    cases answer with
    | error error => exact .pure trivial
    | ok _ => exact .pure trivial
  | handleAppendEntriesResponse source response =>
    have hadmitted : service.raftNode.Admits (.handleAppendEntriesResponse source response) :=
      trivial
    exact hsettle (hservice.node.proceeds hadmitted)
  | _ => cases hadmits

end RaftKVService

/-! ## Files to start from -/

/-- Without a file the history starts at the boundary zero; the snapshot in a file is the image of
a replay of the history from the boundary on. -/
def FileSnapshotStore.Serves (history : List LogEntry) (boundary : Nat)
    (store : FileSnapshotStore) : Prop :=
  (store.load = .ok none ∧ boundary = 0) ∨
    ∃ snapshot machine, store.load = .ok (some snapshot) ∧
      StateMachine.restore snapshot = .ok machine ∧ machine.Replays history boundary ∧
      snapshot.lastIncludedTerm = lastStamp LogEntry.term (history.take snapshot.lastIncludedIndex)

theorem FileSnapshotStore.Serves.mono {longer : List LogEntry} {boundary : Nat}
    {store : FileSnapshotStore} (hstore : store.Serves history boundary)
    (hbegins : history <+: longer) : store.Serves longer boundary := by
  rcases hstore with hnone | ⟨snapshot, machine, hload, hrestore, hmachine, hterm⟩
  · exact .inl hnone
  · refine .inr ⟨snapshot, machine, hload, hrestore, hmachine.mono hbegins, ?_⟩
    have happlied := hmachine.applied
    rw [StateMachine.restore_last_applied hrestore] at happlied
    obtain ⟨tail, rfl⟩ := hbegins
    rwa [take_append_of_le_length happlied]

/-- The image that is loaded from the journal. -/
def Files.durable (files : Files) : RaftPersistentState := files.journal.reopenedBarrier.latest

theorem Files.durable_eq {files : Files} {image : RaftPersistentState}
    (hkeeps : files.journal.Keeps image) : files.durable = image := by
  rw [durable, hkeeps.reopened.1]
  rfl

/-- The image in the journal has committed the history, and the snapshot file serves it. -/
structure Files.Hold (config : NodeConfig) (history : List LogEntry) (files : Files) : Prop where
  keeps : files.journal.Keeps files.durable
  latest : RaftNode.Latest config history files.durable.restoredLog files.durable
  serves : files.snapshot.Serves history files.durable.restoredLog.firstIndex

theorem RaftNode.Latest.fields {config : NodeConfig} {log : RaftLog} {image : RaftPersistentState}
    (himage : RaftNode.Latest config history log image) :
    image.restoredLog = log ∧ image.commitIndex = history.length := by
  rcases himage with ⟨rfl, rfl, rfl⟩ | ⟨node, -, hnode, rfl, rfl⟩
  · exact ⟨rfl, rfl⟩
  · exact ⟨hnode.restored_log, hnode.commit.symm⟩

namespace RaftKVService

variable {service final : RaftKVService} {history : List LogEntry} {config : NodeConfig}
  {sends : Bool}

/-- Between two calls the service is in order and its snapshot file serves its history. -/
structure Consistent (config : NodeConfig) (history : List LogEntry) (service : RaftKVService) :
    Prop extends Recoverable config history service where
  serves : service.store.Serves history service.raftNode.log.firstIndex

/-- Files that hold a history start a service with it. -/
theorem start_of_hold {files : Files} (hfiles : files.Hold config history)
    (hchecked : config.Checked) (hnew : RaftNode.MembershipValid config {}) :
    ∃ restarted, files.start config sends = .ok restarted ∧
      Consistent config history restarted ∧
      StateMachine.replay history = .ok restarted.stateMachine := by
  have hbarrier := hfiles.keeps.reopened.1
  obtain ⟨hconstruct, htracks, hlog⟩ := RaftNode.Latest.construct
    (show RaftNode.Latest config history _ (files.journal.opened.barrier files.durable).latest from
      hfiles.latest) hchecked hnew rfl
  let empty : RaftKVService :=
    { raftNode := reconstructed config (files.journal.opened.barrier files.durable)
      stateMachine := {}, sendsSnapshots := sends, store := files.snapshot }
  have hserves := hfiles.serves
  rw [← hlog] at hserves
  -- The machine starts empty, or from the snapshot.
  obtain ⟨snapshot, started, hload, hstart, hframed, hmachine⟩ : ∃ snapshot started,
      files.snapshot.load = .ok snapshot ∧ startFrom empty snapshot = .ok started ∧
      Framed empty started ∧
      started.stateMachine.Replays history started.raftNode.log.firstIndex := by
    rcases hserves with ⟨hload, hzero⟩ | ⟨snapshot, machine, hload, hrestore, hmachine, hterm⟩
    · exact ⟨none, empty, hload, rfl, Framed.refl _, ⟨hzero.le, Nat.zero_le _, rfl⟩⟩
    · have hindex := StateMachine.restore_last_applied hrestore
      have happlied := hmachine.applied
      have hbehind := hmachine.behind
      rw [hindex] at happlied hbehind
      refine ⟨some snapshot, _, hload, restore_snapshot_iff.mpr ⟨?_, ?_, machine, hrestore, rfl⟩,
        ⟨rfl, rfl, rfl⟩, hmachine⟩
      · exact happlied.trans htracks.commit.le
      · rw [hterm]
        exact htracks.log.term_at hbehind happlied
  have hnode : started.raftNode =
      reconstructed config (files.journal.opened.barrier files.durable) :=
    hframed.raftNode
  obtain ⟨restarted, hcaught, hrest, hreplay⟩ := caught_up_history (hnode ▸ htracks.log)
    (hnode ▸ htracks.commit) hmachine
  have hsame := hrest.raftNode.trans hnode
  have hpersistence : restarted.raftNode.persistence =
      some (files.journal.opened.barrier files.durable) := by
    rw [hsame]
    exact (reconstructed_fields config _).1
  refine ⟨restarted, ?_, ⟨⟨?_, ?_, ?_⟩, ?_⟩, hreplay⟩
  · rw [Files.start, hload, hbarrier]
    exact construct_eq_ok_iff.mpr ⟨_, started, hconstruct, hstart, hcaught⟩
  · rw [hsame]
    exact htracks
  · have hsaved : restarted.raftNode.latest = files.durable := by
      rw [latest, saved, hpersistence]
      rfl
    rw [hsaved, hsame, hlog]
    exact hfiles.latest
  · rw [hsame]
    exact .of_replay htracks.log.first hreplay
  · rw [hsame, hrest.store, hframed.store]
    exact hserves

/-! ## Publishing -/

/-- Indexes and terms fit into 64 bits, as the types of the source have it. -/
def Fits (service : RaftKVService) : Prop :=
  service.raftNode.log.lastIndex < 2 ^ 64 ∧ service.raftNode.currentTerm < 2 ^ 64

/-- The image of what was applied serves the history. -/
theorem Consistent.saved_serves (hservice : Consistent config history service)
    (hfits : service.Fits) {boundaryTerm : Nat} {store : FileSnapshotStore}
    (hterm : service.raftNode.log.termAt service.stateMachine.lastApplied = some boundaryTerm)
    (hsave : FileSnapshotStore.save (service.stateMachine.snapshot boundaryTerm) = .ok store)
    {boundary : Nat} (hbehind : boundary ≤ service.stateMachine.lastApplied) :
    store.Serves history boundary := by
  have hmachine := hservice.machine
  obtain ⟨entry, hentry, hstamp⟩ := Option.map_eq_some_iff.mp hterm
  have hrange := (service.raftNode.log.entry_at_is_some _).mp (Option.isSome_of_eq_some hentry)
  have hle := hservice.node.log.terms entry (service.raftNode.log.entry_at_mem hentry)
  have hrepresentable : SnapshotFile.Representable service.stateMachine.lastApplied boundaryTerm :=
    ⟨hrange.2.trans_lt hfits.1, hstamp ▸ hle.trans_lt hfits.2⟩
  obtain ⟨hload, hencodable⟩ := FileSnapshotStore.load_save hrepresentable
    (StateMachine.replay_snapshot_sessions hmachine.replay) hsave
  have hagree := hservice.node.log.term_at hmachine.behind hmachine.applied
  rw [hterm] at hagree
  exact .inr ⟨_, _, hload, StateMachine.restore_snapshot hencodable,
    ⟨hbehind, hmachine.applied, hmachine.replay⟩, Option.some.inj hagree⟩

/-- The node with its log cut at the applied index. -/
theorem Consistent.cut (hservice : Consistent config history service) {boundaryTerm : Nat}
    {log : RaftLog} (hpositive : 0 < service.stateMachine.lastApplied)
    (hlog : service.raftNode.log.compactTo service.stateMachine.lastApplied boundaryTerm =
      .ok log) :
    { service.raftNode with log }.Tracks config history ∧
      log.firstIndex = service.stateMachine.lastApplied ∧ 0 < service.raftNode.currentTerm := by
  have hnode := hservice.node
  obtain ⟨hcarries, hfirst⟩ := hnode.log.compact hservice.machine.applied hlog
  refine ⟨{ hnode with log := hcarries }, hfirst, ?_⟩
  -- The boundary is a real entry, so its term is positive.
  have hvalid := hcarries.boundaryValid
  have hboundary := hcarries.terms log.boundary mem_cons_self
  have hindex : log.boundary.index ≠ 0 := by
    show log.firstIndex ≠ 0
    omega
  simp only [RaftLog.boundaryValid, Bool.and_eq_true, Bool.not_eq_true',
    Bool.and_eq_false_iff, bne_eq_false_iff_eq, beq_eq_false_iff_ne] at hvalid
  have hstamp : log.boundary.term ≠ 0 := hvalid.2.resolve_left (by simpa using hindex)
  omega

/-- What an attempt to publish leaves: a service in order, whose new snapshot file also serves the
log from before, in case the journal is not written any more. -/
structure Published (config : NodeConfig) (history : List LogEntry) (service final : RaftKVService) :
    Prop where
  consistent : Consistent config history final
  commitIndex : final.raftNode.commitIndex = service.raftNode.commitIndex
  serves : final.store.Serves history service.raftNode.log.firstIndex
  journal : final.journal = service.journal ∨ ∃ image, final.journal = image :: service.journal

/-- An attempt to publish leaves the service in order. -/
theorem Consistent.leaves_publish (hservice : Consistent config history service)
    (hfits : service.Fits) (threshold : Nat) :
    Leaves journal (perform (.tryPublishSnapshot threshold)) service
      (fun _ final => Published config history service final)
      (fun final => final.journal = service.journal ∧
        final.store.Serves history service.raftNode.log.firstIndex) fun _ => True := by
  have hidle : Published config history service service :=
    ⟨hservice, rfl, hservice.serves, .inl rfl⟩
  suffices hpublish : Leaves journal (tryPublishSnapshot threshold) service
      (fun _ final => Published config history service final)
      (fun final => final.journal = service.journal ∧
        final.store.Serves history service.raftNode.log.firstIndex) fun _ => True by
    refine .bind hpublish fun answer final hfinal => ?_
    cases answer with
    | error error => exact .pure hfinal
    | ok result => exact .pure hfinal
  rw [tryPublishSnapshot]
  refine .get_bind ?_
  dsimp only
  split_ifs with hskip
  · exact .pure hidle
  split
  · exact .pure hidle
  rename_i boundaryTerm hterm
  split
  · exact .pure hidle
  rename_i store hsave
  have hserves : ∀ boundary ≤ service.stateMachine.lastApplied, store.Serves history boundary :=
    fun _ hle => hservice.saved_serves hfits hterm hsave hle
  have hbehind := hservice.machine.behind
  refine .set_bind rfl ?_
  cases hlog : service.raftNode.log.compactTo service.stateMachine.lastApplied boundaryTerm with
  | error error =>
    have hrun : compactLogPrefix service.stateMachine.lastApplied boundaryTerm
        service.raftNode = .ok (.error error) service.raftNode := by
      rw [compactLogPrefix, get_bind, hlog]
      rfl
    have hpublished : Published config history service { service with store } :=
      ⟨⟨⟨hservice.node, hservice.latest, hservice.machine⟩, hserves _ hbehind⟩, rfl,
        hserves _ hbehind, .inl rfl⟩
    exact .bind_ok (on_node_of_ok hrun) rfl (.pure hpublished)
  | ok log =>
    -- The file is published; the save of the log that was cut may be refused.
    obtain ⟨htracks, hfirst, hpositive⟩ := hservice.cut (by omega) hlog
    have hsaved := recorded_saved htracks.backed
    have hpublished : Published config history service { service with
        store, raftNode := { service.raftNode with log }.recorded
        lastSnapshotIndex := service.stateMachine.lastApplied } := by
      have hrecorded : { service.raftNode with log }.recorded.Tracks config history :=
        { htracks with backed := htracks.backed.recorded }
      refine ⟨⟨⟨hrecorded, .inr ⟨{ service.raftNode with log }, hpositive, htracks, rfl, ?_⟩, ?_⟩,
        ?_⟩, rfl, ?_,
        .inr ⟨_, hsaved⟩⟩
      · rw [latest, hsaved]
        rfl
      · exact ⟨hfirst.le, hservice.machine.applied, hservice.machine.replay⟩
      · exact hserves _ hfirst.le
      · exact hserves _ hbehind
    have hcut : Leaves saved (compactLogPrefix service.stateMachine.lastApplied
        boundaryTerm) { service with store }.raftNode
        (fun answer final => answer = .ok () ∧ final = { service.raftNode with log }.recorded)
        (fun final => final = { service.raftNode with log }) fun _ => True := by
      rw [compactLogPrefix]
      refine .get_bind ?_
      rw [hlog]
      refine .set_bind rfl (.bind ((leaves_persist htracks.backed).mono
        (fun _ _ h => h) (fun _ h => h) fun _ _ => trivial) fun _ _ h => .pure ⟨rfl, h⟩)
    refine .bind ((leaves_on_node hcut).mono (fun _ _ h => h) ?_ fun _ h => h) ?_
    · rintro final ⟨hnode, hfinal⟩
      rw [hfinal, journal, hnode]
      exact ⟨rfl, hserves _ hbehind⟩
    · rintro _ final ⟨⟨rfl, hnode⟩, hfinal⟩
      rw [hfinal, hnode]
      exact .modify_bind rfl (.pure hpublished)

end RaftKVService

/-! ## Runs -/

/-- A service, the journal as it was opened at the last start, and everything the service has
committed since it was new, from index one on. -/
structure Recorded where
  journal : FileRaftPersistence
  service : RaftKVService
  history : List LogEntry

namespace Recorded

/-- The service after a call, with what the call has committed. -/
def after (state : Recorded) (call : ServiceCall) : Recorded where
  journal := state.journal
  service := state.service.after call
  history := RaftLog.committedBy state.history (state.service.after call).raftNode.log
    (state.service.after call).raftNode.commitIndex

/-- The images that a call has saved, most recent first. -/
def saves (state : Recorded) (call : ServiceCall) : List RaftPersistentState :=
  (state.service.after call).journal.take
    ((state.service.after call).journal.length - state.service.journal.length)

/-- The files that a crash inside a call leaves when the last saves of the call are not made. A call
that publishes a snapshot writes the file before it saves. -/
def left (state : Recorded) (call : ServiceCall) (lost : Nat) : Files where
  journal := state.journal.after ((state.service.after call).journal.dropLast.drop lost)
  snapshot := (state.service.after call).store

/-- What is durably committed in the files, from index one on. -/
def committed (state : Recorded) (files : Files) : List LogEntry :=
  RaftLog.committedBy state.history files.durable.restoredLog files.durable.commitIndex

/-- A call, or a call that is cut short by a crash that loses its last saves. -/
inductive Event where
  | call (call : ServiceCall)
  | crash (call : ServiceCall) (lost : Nat)

/-- One event, when it can happen. A call that throws stops the service. After a crash the service
starts from the files. -/
def step (config : NodeConfig) (sends : Bool) (state : Recorded) : Event → Option Recorded
  | .call call =>
    match RaftKVService.perform call state.service with
    | .error _ _ => none
    | .ok _ _ => some (state.after call)
  | .crash call lost =>
    if state.service.journal.length + lost ≤ (state.service.after call).journal.length then
      match (state.left call lost).start config sends with
      | .error _ => none
      | .ok service =>
        some { journal := (state.left call lost).journal.opened, service
               history := state.committed (state.left call lost) }
    else none

/-- The calls of a run with fixed membership and without snapshots of other nodes. -/
def Allows (state : Recorded) : ServiceCall → Prop
  | .tryPublishSnapshot _ => state.service.Fits
  | call => state.service.AdmitsPlain call

/-- A call of the run whose saves can be read and have a positive term. -/
structure Admits (state : Recorded) (call : ServiceCall) : Prop where
  allowed : state.Allows call
  storable : ∀ image ∈ state.saves call, FileRaftPersistence.Storable image
  positive : ∀ image ∈ state.saves call, 0 < image.currentTerm

/-- The call of an event. -/
def Event.of : Event → ServiceCall
  | .call made | .crash made _ => made

/-- A service that was started from no files has committed nothing. -/
def Initial (config : NodeConfig) (sends : Bool) (state : Recorded) : Prop :=
  ∃ maximumDeltaRecords maximumFileBytes,
    FileRaftPersistence.Limits { maximumDeltaRecords, maximumFileBytes } ∧
    Files.start config sends
        { journal := { maximumDeltaRecords, maximumFileBytes }, snapshot := {} } =
      .ok state.service ∧
    state.journal = FileRaftPersistence.opened { maximumDeltaRecords, maximumFileBytes } ∧
    state.history = []

/-- One event with a call that is admitted. -/
def Next (config : NodeConfig) (sends : Bool) (state following : Recorded) : Prop :=
  ∃ event : Event, state.Admits event.of ∧ state.step config sends event = some following

/-- A run of calls and crashes. -/
abbrev Run (config : NodeConfig) (sends : Bool) (run : Nat → Recorded) : Prop :=
  EventRun.Run (Initial config sends) (Next config sends) run

variable {config : NodeConfig} {sends : Bool} {state following : Recorded} {call : ServiceCall}

/-- The service can be started from nothing, it is in order with its history, and its journal keeps
the latest image. -/
structure Sound (config : NodeConfig) (state : Recorded) : Prop where
  checked : config.Checked
  started : RaftNode.MembershipValid config {}
  consistent : RaftKVService.Consistent config state.history state.service
  filed : state.service.raftNode.Filed state.journal
  keeps : (state.service.raftNode.file state.journal).Keeps state.service.raftNode.latest

theorem committed_by_length {log : RaftLog} {commit : Nat} (hcommit : commit = history.length) :
    RaftLog.committedBy history log commit = history := by
  rw [RaftLog.committedBy, hcommit, Nat.sub_self, take_zero, append_nil]

theorem after_of_ok {answer : List OutboundRpc × String} {final : RaftKVService}
    (hrun : RaftKVService.perform call state.service = .ok answer final) :
    state.service.after call = final := by
  rw [RaftKVService.after, hrun]

theorem after_of_error {error : String} {final : RaftKVService}
    (hrun : RaftKVService.perform call state.service = .error error final) :
    state.service.after call = final := by
  rw [RaftKVService.after, hrun]

section Crashes

variable (hstate : Sound config state)
include hstate

/-- The journal after a crash keeps the last image. -/
theorem Sound.left_keeps (hcall : state.Admits call) {added : List RaftPersistentState}
    (hadded : (state.service.after call).journal = added ++ state.service.journal) {lost : Nat}
    (hlost : lost ≤ added.length) :
    (state.left call lost).journal.Keeps
      ((added.drop lost).head?.getD state.service.raftNode.latest) := by
  obtain ⟨loaded, images, hbarrier, -⟩ := hstate.filed
  have hsaved : state.service.journal = images ++ [loaded] := by
    rw [RaftKVService.journal, saved, hbarrier]
    rfl
  have hdrop : (state.service.after call).journal.dropLast = added ++ images := by
    rw [hadded, hsaved, ← append_assoc, dropLast_concat]
  have haccepts : state.journal.Accepts (added ++ images) := by
    obtain ⟨other, more, hmore, haccepts⟩ := filed_after hstate.filed call
    have hall : (state.service.after call).journal = more ++ [other] := by
      rw [RaftKVService.journal, saved, hmore]
      rfl
    rwa [← hdrop, hall, dropLast_concat]
  have hkeeps := hstate.keeps
  rw [file_eq hbarrier] at hkeeps
  rw [left, hdrop, drop_append_of_le_length hlost, FileRaftPersistence.after_append]
  refine hkeeps.after (fun image himage => hcall.storable image ?_) (haccepts.recent.drop lost)
  rw [saves, hadded, length_append, Nat.add_sub_cancel, take_left]
  exact mem_of_mem_drop himage

theorem Sound.hold_before {files : Files}
    (hkeeps : files.journal.Keeps state.service.raftNode.latest)
    (hserves : files.snapshot.Serves state.history state.service.raftNode.log.firstIndex) :
    files.Hold config (state.committed files) := by
  have hlatest := Files.durable_eq hkeeps
  obtain ⟨hlog, hcommit⟩ := hstate.consistent.latest.fields
  rw [committed, hlatest, committed_by_length hcommit]
  refine ⟨?_, ?_, ?_⟩
  · rwa [hlatest]
  · rw [hlatest, hlog]
    exact hstate.consistent.latest
  · rw [hlatest, hlog]
    exact hserves

theorem Sound.go_on (hcall : state.Admits call) {added : List RaftPersistentState}
    (hadded : (state.service.after call).journal = added ++ state.service.journal)
    (hconsistent : RaftKVService.Consistent config (state.after call).history
      (state.service.after call)) : Sound config (state.after call) := by
  have hlatest : (state.service.after call).raftNode.latest =
      added.head?.getD state.service.raftNode.latest := by
    rw [latest, show (state.service.after call).raftNode.saved =
      added ++ state.service.journal from hadded]
    cases added <;> rfl
  refine ⟨hstate.checked, hstate.started, hconsistent,
    filed_after hstate.filed call, ?_⟩
  have hkeeps := hstate.left_keeps hcall hadded (Nat.zero_le _)
  rwa [drop_zero, ← hlatest] at hkeeps

/-- The files after a crash hold what is committed. -/
theorem Sound.hold_left (hcall : state.Admits call) {added : List RaftPersistentState}
    (hadded : (state.service.after call).journal = added ++ state.service.journal) {lost : Nat}
    (hlost : lost ≤ added.length)
    (hbefore : (state.service.after call).store.Serves state.history
      state.service.raftNode.log.firstIndex)
    (hsaved : ∀ image ∈ added.drop lost,
      RaftNode.Latest config (RaftLog.committedBy state.history image.restoredLog image.commitIndex)
          image.restoredLog image ∧
        (state.service.after call).store.Serves (RaftLog.committedBy state.history
          image.restoredLog image.commitIndex) image.restoredLog.firstIndex) :
    (state.left call lost).Hold config (state.committed (state.left call lost)) := by
  have hkeeps := hstate.left_keeps hcall hadded hlost
  cases hdrop : added.drop lost with
  | nil =>
    rw [hdrop] at hkeeps
    exact hstate.hold_before hkeeps hbefore
  | cons image rest =>
    obtain ⟨hlatest, hserves⟩ := hsaved image (hdrop ▸ mem_cons_self)
    rw [hdrop] at hkeeps
    have hdurable : (state.left call lost).durable = image := Files.durable_eq hkeeps
    rw [committed, hdurable]
    refine ⟨?_, ?_, ?_⟩
    · rw [hdurable]
      exact hkeeps
    · rw [hdurable]
      exact hlatest
    · rw [hdurable]
      exact hserves

/-- A call that returns leaves the service in order, and a crash inside a call leaves files that hold
what is durably committed. -/
def Recovers (config : NodeConfig) (state : Recorded) (call : ServiceCall) : Prop :=
  (∀ answer final, RaftKVService.perform call state.service = .ok answer final →
    Sound config (state.after call)) ∧
  ∀ lost, state.service.journal.length + lost ≤ (state.service.after call).journal.length →
    (state.left call lost).Hold config (state.committed (state.left call lost))

/-- A crash in a publication recovers. -/
theorem Sound.publish {threshold : Nat} (hcall : state.Admits (.tryPublishSnapshot threshold)) :
    Recovers config state (.tryPublishSnapshot threshold) := by
  obtain ⟨hreturn, hthrow⟩ := hstate.consistent.leaves_publish hcall.allowed threshold
  cases hrun : perform (.tryPublishSnapshot threshold) state.service with
  | error error final =>
    obtain ⟨⟨hjournal, hserves⟩, -⟩ := hthrow error final hrun
    have hafter := after_of_error hrun
    have hadded : (state.service.after (.tryPublishSnapshot threshold)).journal =
        [] ++ state.service.journal := by rw [hafter, hjournal, nil_append]
    refine ⟨fun answer last hok => ?_, fun lost hlost => ?_⟩
    · cases hrun.symm.trans hok
    rw [hadded, nil_append] at hlost
    exact hstate.hold_left hcall hadded (by omega) (hafter ▸ hserves) (by simp)
  | ok answer final =>
    obtain ⟨hfinal, -⟩ := hreturn answer final hrun
    have hafter := after_of_ok hrun
    have hhistory : (state.after (.tryPublishSnapshot threshold)).history = state.history := by
      rw [after, hafter]
      exact committed_by_length (hfinal.commitIndex.trans hstate.consistent.node.commit.symm)
    have hconsistent : RaftKVService.Consistent config
        (state.after (.tryPublishSnapshot threshold)).history
        (state.service.after (.tryPublishSnapshot threshold)) := by
      rw [hhistory, hafter]
      exact hfinal.consistent
    rcases hfinal.journal with hsame | ⟨image, hlonger⟩
    · have hadded : (state.service.after (.tryPublishSnapshot threshold)).journal =
          [] ++ state.service.journal := by rw [hafter, hsame, nil_append]
      refine ⟨fun _ _ _ => hstate.go_on hcall hadded hconsistent, fun lost hlost => ?_⟩
      rw [hadded, nil_append] at hlost
      exact hstate.hold_left hcall hadded (by omega) (hafter ▸ hfinal.serves) (by simp)
    · have hadded : (state.service.after (.tryPublishSnapshot threshold)).journal =
          [image] ++ state.service.journal := by rw [hafter, hlonger, singleton_append]
      refine ⟨fun _ _ _ => hstate.go_on hcall hadded hconsistent, fun lost hlost => ?_⟩
      rw [hadded, length_append, length_singleton] at hlost
      refine hstate.hold_left hcall hadded (by simp; omega) (hafter ▸ hfinal.serves)
        fun other hother => ?_
      -- The image is that of the service with the log that was cut.
      have hlatest : final.raftNode.latest = other := by
        rw [mem_singleton.mp (mem_of_mem_drop hother), latest,
          show final.raftNode.saved = image :: state.service.journal from hlonger]
        rfl
      have hheld := hfinal.consistent.latest
      obtain ⟨hlog, hcommit⟩ := hheld.fields
      rw [← hlatest, hlog, committed_by_length hcommit, hafter]
      exact ⟨hheld, hfinal.consistent.serves⟩

/-- The other calls. -/
theorem Sound.plain (hcall : state.Admits call) (hplain : state.service.AdmitsPlain call) :
    Recovers config state call := by
  have hservice := hstate.consistent
  have hfirst := hservice.node.log.first
  obtain ⟨hreturn, hthrow⟩ := hservice.toRecoverable.leaves_perform hplain
  obtain ⟨hstore, added, hadded, himages⟩ :
      (state.service.after call).store = state.service.store ∧
        Adds RaftKVService.journal (RaftPersistentState.Continues config state.history
          state.service.raftNode.log) state.service (state.service.after call) := by
    cases hrun : perform call state.service with
    | error error final =>
      rw [after_of_error hrun]
      exact hthrow error final hrun
    | ok answer final =>
      rw [after_of_ok hrun]
      refine (hreturn answer final hrun).imp_left ?_
      rintro ⟨longer, hfinal⟩
      exact hfinal.store
  have hpositive : ∀ image ∈ added, 0 < image.currentTerm := by
    have hpositive := hcall.positive
    rwa [saves, hadded, length_append, Nat.add_sub_cancel, take_left] at hpositive
  refine ⟨fun answer final hrun => ?_, fun lost hlost => ?_⟩
  · obtain ⟨⟨longer, hfinal⟩, -⟩ := hreturn answer final hrun
    have hafter := after_of_ok hrun
    have hboundary : final.raftNode.log.firstIndex = state.service.raftNode.log.firstIndex := by
      rw [RaftLog.firstIndex, hfinal.boundary, RaftLog.firstIndex]
    have hlonger : (state.after call).history = longer := by
      have h := hfinal.node.log.eq_committed_by hfinal.begins (hboundary.trans_le hfirst)
      rw [after, hafter, ← hfinal.node.commit]
      exact h.symm
    have hlatest := hservice.latest.after hservice.node
      ⟨hfinal.boundary, longer, hfinal.begins, hfinal.node⟩ hfinal.kept
      ⟨added, hafter ▸ hadded, fun image himage => ⟨himages image himage, hpositive image himage⟩⟩
    refine hstate.go_on hcall hadded ?_
    rw [after, hafter] at hlonger
    rw [after, hafter]
    dsimp only at hlonger ⊢
    rw [hlonger] at hlatest ⊢
    refine ⟨⟨hfinal.node, hlatest, hfinal.machine⟩, ?_⟩
    rw [hfinal.store, hboundary]
    exact hservice.serves.mono hfinal.begins
  · rw [hadded, length_append] at hlost
    refine hstate.hold_left hcall hadded (by omega) (by rw [hstore]; exact hservice.serves)
      fun image himage => ?_
    have hmember := mem_of_mem_drop himage
    obtain ⟨hlatest, hbegins, hsame⟩ :=
      RaftNode.Latest.of_continues (himages image hmember) (hpositive image hmember) hfirst
    rw [hstore, hsame]
    exact ⟨hlatest, hservice.serves.mono hbegins⟩

theorem Sound.after_call (hcall : state.Admits call) : Recovers config state call := by
  cases call with
  | tryPublishSnapshot threshold => exact hstate.publish hcall
  | _ => exact hstate.plain hcall hcall.allowed

end Crashes

theorem Sound.of_hold {files : Files} {service : RaftKVService} {history : List LogEntry}
    (hfiles : files.Hold config history) (hchecked : config.Checked)
    (hnew : RaftNode.MembershipValid config {})
    (hstart : files.start config sends = .ok service) :
    Sound config { journal := files.journal.opened, service, history } := by
  obtain ⟨restarted, hrestart, hconsistent, -⟩ :=
    start_of_hold hfiles hchecked hnew
  cases hstart.symm.trans hrestart
  obtain ⟨hfiled, hkeeps⟩ := Files.start_filed hfiles.keeps hstart
  exact ⟨hchecked, hnew, hconsistent, hfiled, hkeeps⟩

/-- A new service is sound. -/
theorem Sound.initial (hinitial : Initial config sends state) : Sound config state := by
  obtain ⟨maximumDeltaRecords, maximumFileBytes, hlimits, hstart, hjournal, hhistory⟩ := hinitial
  have hkeeps := FileRaftPersistence.Keeps.fresh hlimits
  obtain ⟨snapshot, -, hrun⟩ := except_bind_eq_ok.mp hstart
  obtain ⟨node, -, hnode, -, -⟩ := construct_eq_ok_iff.mp hrun
  dsimp only at hnode
  rw [hkeeps.reopened.1] at hnode
  obtain ⟨⟨hchecked, -, hmembership⟩, -⟩ := (construct_eq_ok_iff rfl).mp hnode
  have hdurable : Files.durable
      { journal := { maximumDeltaRecords, maximumFileBytes }, snapshot := {} } = {} :=
    Files.durable_eq hkeeps
  have hfiles : Files.Hold config []
      { journal := { maximumDeltaRecords, maximumFileBytes }, snapshot := {} } := by
    refine ⟨?_, ?_, ?_⟩
    · rw [hdurable]
      exact hkeeps
    · rw [hdurable]
      exact .inl ⟨rfl, rfl, rfl⟩
    · rw [hdurable]
      exact .inl ⟨rfl, rfl⟩
  have hsound := Sound.of_hold hfiles hchecked hmembership hstart
  rwa [← hjournal, ← hhistory] at hsound

/-- Every event leaves the service in order. -/
theorem Sound.next (hstate : Sound config state) (hnext : Next config sends state following) :
    Sound config following := by
  obtain ⟨event, hadmits, hstep⟩ := hnext
  obtain ⟨hafter, hfiles⟩ := hstate.after_call hadmits
  cases event with
  | call made =>
    rw [step] at hstep
    split at hstep
    · cases hstep
    · rename_i answer final hrun
      cases hstep
      exact hafter answer final hrun
  | crash made lost =>
    rw [step] at hstep
    split at hstep
    · rename_i hlost
      split at hstep
      · cases hstep
      · rename_i service hstart
        cases hstep
        exact .of_hold (hfiles lost hlost) hstate.checked hstate.started hstart
    · cases hstep

theorem Run.sound {run : Nat → Recorded} (hrun : Run config sends run) (k : Nat) :
    Sound config (run k) :=
  hrun.invariant (fun _ h => Sound.initial h) (fun _ _ hnext hstate => hstate.next hnext) k

/-- A cluster of one. -/
def soleConfig : NodeConfig where
  nodeId := 1

/-- The service of a cluster, started from nothing. -/
def started (config : NodeConfig) : Recorded where
  journal := FileRaftPersistence.opened {}
  service := (Files.start config false { journal := {}, snapshot := {} }).toOption.getD
    { raftNode := .fresh config none }
  history := []

/-- It is elected and takes a command. -/
def soleEvents : List Event :=
  [.call (.tick 300), .call (.submit { type := .set, clientId := 1, requestId := 1, key := [7]
                                       value := [8] })]

/-- The run of these events. -/
def soleRun (k : Nat) : Recorded :=
  EventRun.execute (step soleConfig false) (soleEvents.take k) (started soleConfig)

/-- The images that a call saves have a positive term and are far from overflowing. -/
def shortSaves (state : Recorded) (call : ServiceCall) : Bool :=
  (state.saves call).all fun image =>
    decide (0 < image.currentTerm) && decide (image.currentTerm < 2 ^ 64) &&
      decide (image.commitIndex < 2 ^ 64) &&
      (image.entries.all fun entry =>
        decide (entry.index < 2 ^ 64) && decide (entry.term < 2 ^ 64)) &&
      decide (RaftJournal.fieldsSize image + 2 ^ 20 ≤ RaftJournal.maximumPayloadSize)

theorem Admits.of_short (hallowed : state.Allows call) (hshort : state.shortSaves call = true) :
    state.Admits call := by
  simp only [shortSaves, all_eq_true, Bool.and_eq_true, decide_eq_true_iff] at hshort
  refine ⟨hallowed, fun image himage => ?_, fun image himage => ?_⟩
  · obtain ⟨⟨⟨⟨-, hterm⟩, hcommit⟩, hentries⟩, hsize⟩ := hshort image himage
    exact .of_size ⟨hterm, hcommit, hentries⟩ hsize
  · obtain ⟨⟨⟨⟨hpositive, -⟩, -⟩, -⟩, -⟩ := hshort image himage
    exact hpositive

theorem initial_started
    (hstart : (Files.start config false { journal := {}, snapshot := {} }).isOk = true) :
    Initial config false (started config) := by
  refine ⟨FileRaftPersistence.maximumDeltaRecords {}, FileRaftPersistence.maximumFileBytes {},
    ⟨by decide, by decide⟩, ?_, rfl, rfl⟩
  obtain ⟨service, hfiles⟩ := except_of_is_ok hstart
  rw [started, hfiles]
  rfl

theorem sole_run : Run soleConfig false soleRun := by
  have hchecked : EventRun.checked (step soleConfig false)
      (fun state event => state.shortSaves event.of) soleEvents (started soleConfig) = true := by
    decide +kernel
  refine EventRun.Run.of_steps (initial_started (by decide +kernel)) fun k hk => ?_
  refine .of_short ?_ (EventRun.check_of_checked hchecked k hk)
  obtain rfl | rfl : k = 0 ∨ k = 1 := by
    rw [show soleEvents.length = 2 from rfl] at hk
    omega
  · trivial
  · trivial

/-- One of three nodes. -/
def voterConfig : NodeConfig where
  nodeId := 1
  peers := [2, 3]

/-- The request of another one for a vote in term zero. -/
def termZeroVote : ServiceCall := .handleRequestVote 2
  { term := 0, candidateId := 2, lastLogIndex := 0, lastLogTerm := 0 }

end Recorded

end DistributedKV
