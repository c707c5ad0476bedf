import DistributedKV.Foundation.EventRun
import DistributedKV.Foundation.SmallSteps
import DistributedKV.Raft.Node.Lifetime
import DistributedKV.Server.NodeService

/-!
# Reads behind a barrier

A GET waits for a batch, and its batch for a quorum. Whatever else the loop does leaves the reads
alone, so that a step moves them in one of a few ways (`ReadStep`). In every run of a process, a GET
that is answered from the applied state was confirmed: after it was taken, a batch was started in
the term that the node still leads, a quorum has acknowledged that batch since then, and what was
committed when it was started is applied.
-/

namespace DistributedKV

open Barrier Relation EventRun List

namespace NodeService

variable {node : NodeService}

/-! ## What leaves the reads alone -/

/-- The waiting reads are left alone. -/
def Quietly (node final : NodeService) : Prop :=
  final.pendingReads = node.pendingReads ∧ final.deferredReads = node.deferredReads

/-- The program leaves the waiting reads alone, also when it throws. -/
abbrev Quiet {α : Type} (program : NodeM α) (node : NodeService) : Prop :=
  Traces Quietly program node fun _ _ => True

/-- A call of the service leaves the waiting reads alone. -/
theorem quiet_on_service {α : Type} (program : ServiceM α) (node : NodeService) :
    Quiet (onService program) node := by
  have hsame : ∀ service, ReflTransGen Quietly node { node with raftService := service } :=
    fun service => .single ⟨rfl, rfl⟩
  cases hrun : program node.raftService with
  | ok result service => exact .of_ok (by rw [onService, hrun]) (hsame service) trivial
  | error error service => exact .of_error (by rw [onService, hrun]) (hsame service)

/-- Sending to the peers leaves them alone. -/
theorem quiet_send_rpcs (outbound : List OutboundRpc) (node : NodeService) :
    Quiet (sendRpcs outbound) node :=
  .modify (.single ⟨rfl, rfl⟩) trivial

/-- Answering a client leaves them alone. -/
theorem quiet_send_client (event : ClientRequestEvent) (response : Response) (node : NodeService) :
    Quiet (sendClient event response) node :=
  .modify (.single ⟨rfl, rfl⟩) trivial

/-- Throwing an error leaves them alone. -/
theorem quiet_raise (error : String) (node : NodeService) : Quiet (raise error) node := by
  rw [raise]
  split_ifs
  · exact .throw .refl
  · exact .pure trivial

/-- A call of the service with its sends leaves them alone. -/
theorem quiet_serve (call : ServiceCall) (node : NodeService) : Quiet (serve call) node :=
  .bind (quiet_on_service _ node) fun _ middle _ =>
    .bind (quiet_send_rpcs _ middle) fun _ queued _ => quiet_raise _ queued

/-- A membership change that waits, or none, is put in the place of another one. -/
theorem quiet_change (node : NodeService) (change : Option PendingMembershipChange) :
    ReflTransGen Quietly node { node with pendingMembershipChange := change } :=
  .single ⟨rfl, rfl⟩

/-- Proposing a membership change leaves the reads alone. -/
theorem quiet_start_membership_change (event : ClientRequestEvent) (node : NodeService) :
    Quiet (startMembershipChange event) node := by
  rw [startMembershipChange]
  split
  · refine .bind (quiet_on_service _ node) fun accepted middle _ => ?_
    split
    · exact quiet_send_client event _ middle
    · exact .modify (quiet_change middle _) trivial
  · refine .bind (quiet_on_service _ node) fun proposed middle _ => ?_
    split
    · exact quiet_send_client event _ middle
    · refine .bind (quiet_send_rpcs _ middle) fun _ queued _ => ?_
      exact .modify (quiet_change queued _) trivial

/-- The request for a membership change leaves the reads alone. -/
theorem quiet_request_membership_change (event : ClientRequestEvent) (node : NodeService) :
    Quiet (requestMembershipChange event) node := by
  rw [requestMembershipChange]
  refine .get_bind ?_
  dsimp only
  repeat' split
  all_goals first
    | exact quiet_send_client event _ node
    | exact .set (quiet_change node _) trivial
    | exact quiet_start_membership_change event node

/-- The request for a write leaves the reads alone. -/
theorem quiet_request_write (event : ClientRequestEvent) (command : KVCommand)
    (node : NodeService) : Quiet (requestWrite event command) node := by
  rw [requestWrite]
  refine .bind (quiet_on_service _ node) fun result middle _ => ?_
  refine .bind (quiet_send_rpcs _ middle) fun _ queued _ => ?_
  refine .bind (quiet_raise _ queued) fun _ raised _ => ?_
  split
  · exact .get_bind (quiet_send_client event _ raised)
  · exact quiet_send_client event _ raised
  · exact quiet_send_client event _ raised
  · exact .modify (.single ⟨rfl, rfl⟩) trivial

/-- Following up on a membership change leaves the reads alone. -/
theorem quiet_process_membership_change (node : NodeService) :
    Quiet processMembershipChange node := by
  rw [processMembershipChange]
  refine .get_bind ?_
  dsimp only
  repeat' split
  all_goals first
    | exact .pure trivial
    | exact .set_bind (quiet_change node _) (quiet_send_client _ _ _)
    | refine .bind (quiet_on_service _ node) fun proposed middle _ => ?_
  split
  · exact .modify_bind (quiet_change middle _) (quiet_send_client _ _ _)
  · exact .modify_bind (quiet_change middle _) (quiet_send_rpcs _ _)

/-- Publishing a snapshot leaves the reads alone. -/
theorem quiet_publish_snapshot (node : NodeService) : Quiet publishSnapshot node := by
  rw [publishSnapshot]
  refine .get_bind (.bind (quiet_on_service _ node) fun result middle _ => ?_)
  split
  · exact .throw .refl
  split
  · refine .get_bind ?_
    split
    · exact .throw .refl
    · exact .pure trivial
  · exact .pure trivial

/-! ## Steps -/

/-- A batch with an acknowledgement counted, if it is the one that is meant. -/
def counted (node : NodeService) (source : NodeId) (rpc : AppendEntriesResponse)
    (batch : Nat × PendingRead) : Nat × PendingRead :=
  if batch.1 = rpc.readContext ∧ batch.2.term = node.raftNode.currentTerm then
    (batch.1, { batch.2 with acknowledgements := insert source batch.2.acknowledgements })
  else batch

/-- The ways in which a step moves the waiting reads: the batches and the deferred reads after
it. -/
inductive ReadStep (node : NodeService) :
    LoopEvent → List (Nat × PendingRead) → List ClientRequestEvent → Prop where
  | quiet (event : LoopEvent) : ReadStep node event node.pendingReads node.deferredReads
  | acknowledge (source : NodeId) (rpc : AppendEntriesResponse) (hsuccess : rpc.success = true) :
      ReadStep node (.receive source (.appendEntriesResponse rpc))
        (node.pendingReads.map (node.counted source rpc)) node.deferredReads
  | defer (event : ClientRequestEvent) (now : Nat) (hread : event.request.type = .getRequest) :
      ReadStep node (.request event now) node.pendingReads (node.deferredReads ++ [event])
  | clear (now : Nat) : ReadStep node (.startReads now) node.pendingReads []
  | batch (now : Nat) (hcommitted : node.committedInTerm = true) :
      ReadStep node (.startReads now)
        (node.pendingReads ++ [(node.freshContext, node.readBatch now)]) []
  | complete (now : Nat) {left : List (Nat × PendingRead)} (hleft : left ⊆ node.pendingReads) :
      ReadStep node (.complete now) left node.deferredReads

/-- A step moves the waiting reads in one of the ways. -/
def Moves (node : NodeService) (event : LoopEvent) (final : NodeService) : Prop :=
  ReadStep node event final.pendingReads final.deferredReads

/-- A read is answered at once or deferred. -/
theorem request_read_moves {event : ClientRequestEvent} (hread : event.request.type = .getRequest)
    (now : Nat) : ∃ final, processClientRequest event now node = .ok () final ∧
      node.Moves (.request event now) final := by
  have hrun : processClientRequest event now node = requestRead event now node := by
    simp only [processClientRequest, get_bind, hread]
  rw [hrun, requestRead, get_bind]
  split
  · exact ⟨_, rfl, .quiet _⟩
  split
  · exact ⟨_, rfl, .quiet _⟩
  · exact ⟨_, rfl, .defer event now hread⟩

/-- The deferred reads are given up or become a batch, which waits for its confirmation. -/
theorem start_reads_moves (now : Nat) :
    ∃ final, startReadBatchIfReady now node = .ok () final ∧ node.Moves (.startReads now) final := by
  rw [startReadBatchIfReady, get_bind]
  cases node.readBatchStarted with
  | none => exact ⟨_, rfl, .quiet _⟩
  | some started =>
    dsimp only
    split_ifs with hearly hrole hcommitted
    · exact ⟨_, rfl, .quiet _⟩
    · exact ⟨_, rfl, .clear now⟩
    · exact ⟨_, rfl, .clear now⟩
    · refine ⟨_, rfl, ?_⟩
      show ReadStep node _ (node.withBatch now).pendingReads []
      rw [withBatch]
      dsimp only
      split_ifs
      · exact .clear now
      · exact .batch now (by simpa using hcommitted)

/-- A request that is no read leaves the reads alone. -/
theorem quiet_process_client_request {event : ClientRequestEvent}
    (hread : event.request.type ≠ .getRequest) (now : Nat) (node : NodeService) :
    Quiet (processClientRequest event now) node := by
  rw [processClientRequest]
  refine .get_bind ?_
  split
  · exact quiet_send_client event _ node
  · exact quiet_request_membership_change event node
  · exact quiet_request_membership_change event node
  · exact absurd ‹_› hread
  · split
    · exact quiet_request_write event _ node
    · exact quiet_send_client event _ node

/-! ## Completing what is pending -/

/-- A batch that may be answered from the applied state. -/
structure Confirmed (node : NodeService) (read : PendingRead) : Prop where
  role : node.raftNode.role = .leader
  term : node.raftNode.currentTerm = read.term
  quorum : node.readQuorumReached read = true
  applied : read.readIndex ≤ node.raftService.stateMachine.lastApplied

/-- An answer that is not taken from the applied state. -/
def Refuses (response : Response) : Prop :=
  response.status = .notLeader ∨ response.status = .unavailable

/-- What completing the pending requests may answer. -/
def Settles (node : NodeService) (answer : Answer) : Prop :=
  (∃ write ∈ node.pendingWrites, answer.event = write.2) ∨
    ∃ batch ∈ node.pendingReads, answer.event ∈ batch.2.requests ∧ (Refuses answer.response ∨
      node.Confirmed batch.2 ∧ answer.response = node.readResponse answer.event.request)

/-- A node while its pending requests are completed. -/
def during (node : NodeService) (results : Nat → Option ApplyResult)
    (writes : List (Nat × ClientRequestEvent)) (pending : List (Nat × PendingRead))
    (answers : List Answer) : NodeService :=
  { node with
    raftService := { node.raftService with completedLocal := results }
    pendingWrites := writes, pendingReads := pending, clientResponses := answers }

/-- Some of the pending requests of a node are completed. -/
def Attends (node state : NodeService) : Prop :=
  ∃ results writes pending answers, state = node.during results writes pending answers ∧
    pending ⊆ node.pendingReads ∧ ∀ answer ∈ answers, answer ∈ node.clientResponses ∨
      node.Settles answer

variable {state : NodeService}

/-- Finishing a write answers no read. -/
theorem Attends.write (h : node.Attends state) {write : Nat × ClientRequestEvent}
    (hwrite : write ∈ node.pendingWrites) : node.Attends (state.completeWrite write) := by
  obtain ⟨results, writes, pending, answers, rfl, hpending, hanswers⟩ := h
  have hanswered : ∀ results' rest response, node.Attends
      ((node.during results' rest pending answers).answered write.2 response) := by
    intro results' rest response
    refine ⟨results', rest, pending, _, rfl, hpending, fun answer hanswer => ?_⟩
    rcases mem_append.mp hanswer with hold | hnew
    · exact hanswers answer hold
    · rw [mem_singleton.mp hnew]
      exact .inr (.inl ⟨write, hwrite, rfl⟩)
  rw [completeWrite]
  split_ifs
  · exact hanswered results _ _
  · have htake : RaftKVService.takeResult write.1 (node.during results writes pending
        answers).raftService = .ok (results write.1)
        { node.raftService with completedLocal := Function.update results write.1 none } := rfl
    rw [htake]
    -- a write without a result goes on waiting
    cases results write.1 with
    | none => exact ⟨_, writes, pending, answers, rfl, hpending, hanswers⟩
    | some result => exact hanswered _ _ _

/-- The answer of a node that does not lead is a refusal. -/
theorem not_leader_refuses (node : NodeService) (requestId : UInt64) :
    Refuses (node.notLeaderResponse requestId) := by
  rw [notLeaderResponse]
  dsimp only
  split
  · exact .inl rfl
  · split <;> exact .inl rfl

/-- Finishing a batch answers it as a whole, by refusals or after its confirmation. -/
theorem Attends.finish (h : node.Attends state) {batch : Nat × PendingRead}
    (hbatch : batch ∈ node.pendingReads) (response : Request → Response)
    (hresponse : (∀ request, Refuses (response request)) ∨
      node.Confirmed batch.2 ∧ response = node.readResponse) :
    node.Attends (state.finishRead batch.1 batch.2 response) := by
  obtain ⟨results, writes, pending, answers, rfl, hpending, hanswers⟩ := h
  refine ⟨results, writes, _, _, rfl, ?_, fun answer hanswer => ?_⟩
  · exact fun other hother => hpending (mem_of_mem_filter hother)
  rcases mem_append.mp hanswer with hold | hnew
  · exact hanswers answer hold
  · obtain ⟨event, hevent, rfl⟩ := mem_map.mp hnew
    refine .inr (.inr ⟨batch, hbatch, hevent, hresponse.imp (fun h => h event.request) ?_⟩)
    rintro ⟨hconfirmed, rfl⟩
    exact ⟨hconfirmed, rfl⟩

/-- What the loop does with one batch. -/
theorem Attends.read (h : node.Attends state) (now : Nat) {batch : Nat × PendingRead}
    (hbatch : batch ∈ node.pendingReads) : node.Attends (completeRead now state batch) := by
  have hfinish := h.finish hbatch
  obtain ⟨results, writes, pending, answers, rfl, hpending, hanswers⟩ := id h
  rw [completeRead]
  split_ifs with hlost hlate hready
  · exact hfinish _ (.inl fun request => not_leader_refuses _ _)
  · exact hfinish _ (.inl fun request => .inr rfl)
  · obtain ⟨hrole, hterm⟩ := not_or.mp hlost
    exact hfinish _ (.inr ⟨⟨not_not.mp hrole, not_not.mp hterm, hready.1, hready.2⟩, rfl⟩)
  · exact h

/-- Finishing what is pending answers confirmed batches only. -/
theorem complete_pending (node : NodeService) (now : Nat) :
    node.Attends (node.completePending now) := by
  have hwrites : node.Attends (node.pendingWrites.foldl completeWrite node) :=
    foldlRecOn node.pendingWrites completeWrite
      ⟨_, _, _, _, rfl, List.Subset.refl _, fun _ => .inl⟩
      fun state hstate write hwrite => hstate.write hwrite
  -- the batches are those that are left after the writes, so they waited before
  refine foldlRecOn _ (completeRead now) hwrites fun state hstate batch hbatch => ?_
  obtain ⟨results, writes, pending, answers, hfold, hpending, -⟩ := hwrites
  rw [hfold] at hbatch
  exact hstate.read now (hpending hbatch)

/-! ## What a step does -/

/-- A handler that ends quietly makes the move of what came before. -/
theorem moves_of_quiet {event : LoopEvent} {program : NodeM Unit} {middle : NodeService}
    (hquiet : Quiet program middle) (hrun : event.handler node = program middle)
    (hmoves : node.Moves event middle) : node.Moves event (node.handled event) := by
  have hkeeps : ∀ final, ReflTransGen Quietly middle final → node.Moves event final := by
    intro final hsteps
    refine invariant_of_steps (fun first second hquietly hfirst => ?_) hsteps hmoves
    rwa [Moves, hquietly.1, hquietly.2]
  rw [handled, hrun]
  cases hresult : program middle with
  | ok _ final => exact hkeeps final (hquiet.1 _ _ hresult).1
  | error error final => exact hkeeps final (hquiet.2 _ _ hresult)

/-- Every step moves the waiting reads in one of the ways. -/
theorem moves_handled (node : NodeService) (event : LoopEvent) :
    node.Moves event (node.handled event) := by
  have hquiet : Quiet event.handler node → node.Moves event (node.handled event) :=
    fun hquiet => moves_of_quiet hquiet rfl (.quiet event)
  have hdone : ∀ {final}, event.handler node = .ok () final → node.Moves event final →
      node.Moves event (node.handled event) := by
    intro final hrun hmoves
    have hpure : Quiet (pure () : NodeM Unit) final := Chains.pure trivial
    exact moves_of_quiet hpure hrun hmoves
  cases event with
  | receive source payload =>
    cases payload with
    | appendEntriesResponse rpc =>
      -- the acknowledgement is counted before the service sees the response
      refine moves_of_quiet (quiet_serve (.handleAppendEntriesResponse source rpc)
        (node.acknowledge source rpc)) rfl ?_
      rw [Moves, acknowledge]
      split_ifs with hanswer
      · exact .acknowledge source rpc hanswer.1
      · exact .quiet _
    | requestVoteResponse rpc | installSnapshotResponse rpc => exact hquiet (quiet_serve _ node)
    | requestVote rpc | appendEntries rpc | installSnapshot rpc =>
      refine hquiet ?_
      simp only [LoopEvent.handler, processPeerMessage, peerCall]
      split_ifs
      · exact .pure trivial
      · exact quiet_serve _ node
  | peersDrained =>
    refine hquiet (.modify ?_ trivial)
    split
    · exact .refl
    · exact .single ⟨rfl, rfl⟩
  | request event now =>
    by_cases hread : event.request.type = .getRequest
    · obtain ⟨final, hrun, hmoves⟩ := request_read_moves hread now
      exact hdone hrun hmoves
    · exact hquiet (quiet_process_client_request hread now node)
  | requestsDrained => exact hquiet (.pure trivial)
  | startReads now =>
    obtain ⟨final, hrun, hmoves⟩ := start_reads_moves now
    exact hdone hrun hmoves
  | elapse elapsedMs =>
    refine hquiet ?_
    simp only [LoopEvent.handler, elapse]
    split_ifs
    · exact .pure trivial
    · exact quiet_serve _ node
  | complete now =>
    obtain ⟨results, writes, pending, answers, hstate, hsubset, -⟩ := complete_pending node now
    have hmoves : node.Moves (.complete now) (node.completePending now) := by
      rw [Moves, hstate]
      exact .complete now hsubset
    exact hdone rfl hmoves
  | changeMembership => exact hquiet (quiet_process_membership_change node)
  | publishSnapshot => exact hquiet (quiet_publish_snapshot node)

/-! ## Runs of a process -/

/-- A run of the loop from a start on. -/
abbrev Process (run : Nat → NodeService) (events : Nat → Option LoopEvent) : Prop :=
  EventRun.Trace (fun node => ∃ config files, start config files = .ok node) step run events

variable {run : Nat → NodeService} {events : Nat → Option LoopEvent} {k j : Nat}
  {batch : Nat × PendingRead}

/-- The GET was taken before a point of a run. -/
def TakenBefore (events : Nat → Option LoopEvent) (k : Nat) (event : ClientRequestEvent) : Prop :=
  event.request.type = .getRequest ∧ ∃ i < k, ∃ now, events i = some (.request event now)

/-- Where a batch that waits at a point of a run comes from: it was started before, out of GETs
taken before that, and has counted the answers to its barrier that came since then. -/
structure StartedAt (run : Nat → NodeService) (events : Nat → Option LoopEvent) (k : Nat)
    (batch : Nat × PendingRead) (j : Nat) : Prop where
  earlier : j < k
  event : ∃ now, events j = some (.startReads now)
  committed : (run j).committedInTerm = true
  context : batch.1 = (run j).freshContext
  term : batch.2.term = (run j).raftNode.currentTerm
  readIndex : batch.2.readIndex = (run j).raftNode.commitIndex
  requests : ∀ event ∈ batch.2.requests, TakenBefore events j event
  acknowledged : ∀ source ∈ batch.2.acknowledgements, source = (run j).config.nodeId ∨
    ∃ m rpc, j < m ∧ m < k ∧ events m = some (.receive source (.appendEntriesResponse rpc)) ∧
      rpc.success = true ∧ rpc.readContext = batch.1 ∧
      (run m).raftNode.currentTerm = batch.2.term

/-- A request that was taken stays taken. -/
theorem TakenBefore.succ {event : ClientRequestEvent} (h : TakenBefore events k event) :
    TakenBefore events (k + 1) event := by
  obtain ⟨hread, i, hi, htaken⟩ := h
  exact ⟨hread, i, hi.trans (Nat.lt_succ_self k), htaken⟩

/-- A batch stays started where it was. -/
theorem StartedAt.succ (h : StartedAt run events k batch j) :
    StartedAt run events (k + 1) batch j := by
  refine { h with earlier := h.earlier.trans (Nat.lt_succ_self k), acknowledged := ?_ }
  intro source hsource
  refine (h.acknowledged source hsource).imp_right ?_
  rintro ⟨m, rpc, hlater, hearlier, hrest⟩
  exact ⟨m, rpc, hlater, hearlier.trans (Nat.lt_succ_self k), hrest⟩

/-- An acknowledgement that comes in a step is counted. -/
theorem StartedAt.counted (h : StartedAt run events k batch j) {source : NodeId}
    {rpc : AppendEntriesResponse} (hsuccess : rpc.success = true)
    (hevent : events k = some (.receive source (.appendEntriesResponse rpc))) :
    StartedAt run events (k + 1) ((run k).counted source rpc batch) j := by
  rw [NodeService.counted]
  split_ifs with hmeant
  · refine { h.succ with acknowledged := ?_ }
    intro other hother
    -- the message of this step is the acknowledgement that is added
    rcases Finset.mem_insert.mp hother with rfl | hold
    · exact .inr ⟨k, rpc, h.earlier, Nat.lt_succ_self k, hevent, hsuccess, hmeant.1.symm,
        hmeant.2.symm⟩
    · exact h.succ.acknowledged other hold
  · exact h.succ

/-- A node starts without reads and without answers. -/
theorem start_fields {config : NodeServiceConfig} {files : Files} (h : start config files = .ok node) :
    node.deferredReads = [] ∧ node.pendingReads = [] ∧ node.clientResponses = [] := by
  rw [start] at h
  obtain ⟨snapshot, -, h⟩ := except_bind_eq_ok.mp h
  obtain ⟨raftService, -, h⟩ := except_bind_eq_ok.mp h
  split_ifs at h
  cases h
  exact ⟨rfl, rfl, rfl⟩

/-- In every run, waiting GETs were taken and waiting batches were started before. -/
theorem Process.provenance (hrun : Process run events) (k : Nat) :
    (∀ event ∈ (run k).deferredReads, TakenBefore events k event) ∧
      (∀ batch ∈ (run k).pendingReads, ∃ j, StartedAt run events k batch j) ∧
      (run k).clientResponses = [] := by
  induction k with
  | zero =>
    obtain ⟨config, files, hstart⟩ := hrun.initial
    obtain ⟨hdeferred, hpending, hresponses⟩ := start_fields hstart
    simp [hdeferred, hpending, hresponses]
  | succ k ih =>
    obtain ⟨hdeferred, hpending, hresponses⟩ := ih
    have htaken := fun event hevent => (hdeferred event hevent).succ
    -- what waits since before this step comes from where it came from
    have hold : ∀ batch ∈ (run k).pendingReads, ∃ j, StartedAt run events (k + 1) batch j := by
      intro batch hbatch
      obtain ⟨j, hstarted⟩ := hpending batch hbatch
      exact ⟨j, hstarted.succ⟩
    cases hevent : events k with
    | none =>
      rw [hrun.idle k hevent]
      exact ⟨htaken, hold, hresponses⟩
    | some event =>
      have hstep := hrun.next k event hevent
      rw [step] at hstep
      split_ifs at hstep
      have hmoves := moves_handled (run k) event
      rw [← Option.some.inj hstep, ← and_assoc]
      -- the answers are sent at the end of the step
      refine ⟨?_, rfl⟩
      show (∀ event ∈ ((run k).handled _).deferredReads, _) ∧
        ∀ batch ∈ ((run k).handled _).pendingReads, _
      rw [Moves] at hmoves
      generalize ((run k).handled event).pendingReads = pending at hmoves ⊢
      generalize ((run k).handled event).deferredReads = deferred at hmoves ⊢
      cases hmoves with
      | quiet => exact ⟨htaken, hold⟩
      | clear now => exact ⟨by simp, hold⟩
      | complete now hleft => exact ⟨htaken, fun batch hbatch => hold batch (hleft hbatch)⟩
      | defer event now hread =>
        refine ⟨fun other hother => ?_, hold⟩
        rcases mem_append.mp hother with hother | hother
        · exact htaken other hother
        · rw [mem_singleton.mp hother]
          exact ⟨hread, k, Nat.lt_succ_self k, now, hevent⟩
      | acknowledge source rpc hsuccess =>
        refine ⟨htaken, fun batch hbatch => ?_⟩
        obtain ⟨old, hmem, rfl⟩ := mem_map.mp hbatch
        obtain ⟨j, hstarted⟩ := hpending old hmem
        exact ⟨j, hstarted.counted hsuccess hevent⟩
      | batch now hcommitted =>
        refine ⟨by simp, fun batch hbatch => ?_⟩
        rcases mem_append.mp hbatch with hbatch | hbatch
        · exact hold batch hbatch
        · -- the new batch holds the reads that were deferred before this step
          rw [mem_singleton.mp hbatch]
          exact ⟨k, Nat.lt_succ_self k, ⟨now, hevent⟩, hcommitted, rfl, rfl, rfl, hdeferred,
            fun source hsource => .inl (Finset.mem_singleton.mp hsource)⟩

/-- In every run, an answer that is given when pending requests are completed is for a write, or
refuses a read, or is the applied value for a GET that was confirmed: its batch was started after it
was taken and in the term the node leads, a quorum has acknowledged the batch since then, and what
was committed at its start is applied. -/
theorem answered_reads_confirmed (hrun : Process run events) {now : Nat} {answer : Answer}
    (hanswer : answer ∈ (run k).answers (.complete now)) :
    (∃ write ∈ (run k).pendingWrites, answer.event = write.2) ∨ Refuses answer.response ∨
      ∃ batch j, StartedAt run events k batch j ∧ answer.event ∈ batch.2.requests ∧
        (run k).Confirmed batch.2 ∧
        answer.response = (run k).readResponse answer.event.request := by
  obtain ⟨-, hpending, hresponses⟩ := hrun.provenance k
  obtain ⟨results, writes, pending, answers, hstate, -, hanswers⟩ := complete_pending (run k) now
  have hmem : answer ∈ ((run k).completePending now).clientResponses := hanswer
  rw [hstate] at hmem
  have hsettles := (hanswers answer hmem).resolve_left (by simp [hresponses])
  rcases hsettles with hwrite | ⟨batch, hbatch, hrequest, hrefuses | ⟨hconfirmed, hresponse⟩⟩
  · exact .inl hwrite
  · exact .inr (.inl hrefuses)
  · obtain ⟨j, hstarted⟩ := hpending batch hbatch
    exact .inr (.inr ⟨batch, j, hstarted, hrequest, hconfirmed, hresponse⟩)

/-- Node 1 of three. -/
def ofThree : Except String NodeService :=
  start { nodeId := 1, members := [1, 2, 3].map RaftNode.plainMember }
    { journal := {}, snapshot := {} }

/-- Node 2 elects it and holds its first entry. Then it takes a GET and starts a batch, and in the
next round node 2 acknowledges the context of the batch. -/
def session : List LoopEvent :=
  [.peersDrained, .requestsDrained, .startReads 0, .elapse 600, .complete 0, .changeMembership,
    .publishSnapshot, .receive 2 (.requestVoteResponse (RaftNode.granted 1)),
    .receive 2 (.appendEntriesResponse (RaftNode.matchedUpTo 1 1)), .peersDrained,
    .request { connectionId := 1, request := {} } 0, .requestsDrained, .startReads 0, .elapse 1,
    .complete 0, .changeMembership, .publishSnapshot,
    .receive 2 (.appendEntriesResponse { RaftNode.matchedUpTo 1 1 with readContext := 1 }),
    .peersDrained, .requestsDrained, .startReads 0, .elapse 1]

/-- What a view shows of the node after the first events of the session. -/
def seen {α : Type} (count : Nat) (view : NodeService → α) : Option α :=
  ofThree.toOption.map fun node => view (execute step (session.take count) node)

/-- A majority of three nodes has another node than the first. -/
theorem other_of_acknowledged {read : PendingRead}
    (h : acknowledgedBy read (RaftNode.plainCluster 1 [1, 2, 3]) = true) :
    ∃ source ∈ read.acknowledgements, source ≠ 1 := by
  by_contra hnone
  have hself : ∀ id, id ≠ 1 → id ∉ read.acknowledgements :=
    fun id hid hmem => hnone ⟨id, hmem, hid⟩
  have htwo := hself 2 (by decide)
  have hthree := hself 3 (by decide)
  by_cases hone : 1 ∈ read.acknowledgements <;>
    simp [acknowledgedBy, RaftNode.countMembers, RaftNode.plainCluster, RaftNode.plainMember, hone,
      htwo, hthree] at h

/-- The GET is answered, and its batch was started and then acknowledged by a peer. -/
theorem answered_read_of_three : ∃ run events batch j answer, Process run events ∧
    answer ∈ (run 22).answers (.complete 0) ∧ answer.event ∈ batch.2.requests ∧
    StartedAt run events 22 batch j ∧ (run 22).Confirmed batch.2 ∧
    ∃ source m rpc, source ≠ 1 ∧ j < m ∧ m < 22 ∧
      events m = some (.receive source (.appendEntriesResponse rpc)) ∧ rpc.success = true ∧
      rpc.readContext = batch.1 := by
  have hconfig : ∀ k, k < 22 → seen k (·.config.nodeId) = some 1 := by decide +kernel
  have hlast : seen 22 (fun node => (node.raftNode.clusterConfig, node.raftNode.jointConfig,
      node.pendingWrites.length, (node.answers (.complete 0)).map (·.response.status))) =
      some (some (RaftNode.plainCluster 1 [1, 2, 3]), none, 0, [.notFound]) := by decide +kernel
  cases hstart : ofThree with
  | error error => simp [seen, hstart, Except.toOption] at hlast
  | ok node =>
    simp only [seen, hstart, Except.toOption, Option.map_some, Option.some.injEq,
      Prod.mk.injEq] at hconfig hlast
    obtain ⟨hcluster, hjoint, hwrites, hstatuses⟩ := hlast
    have hrun : Process _ _ := Trace.of_events ⟨_, _, hstart⟩ session
    obtain ⟨answer, hanswer, hstatus⟩ : ∃ answer ∈
        (execute step (session.take 22) node).answers (.complete 0),
        answer.response.status = .notFound :=
      mem_map.mp (hstatuses ▸ mem_singleton_self _)
    rcases answered_reads_confirmed hrun hanswer with ⟨write, hwrite, -⟩ | hrefuses | hconfirmed
    · rw [eq_nil_of_length_eq_zero hwrites] at hwrite
      cases hwrite
    · simp [Refuses, hstatus] at hrefuses
    · obtain ⟨batch, j, hstarted, hrequest, hconfirmed, -⟩ := hconfirmed
      have hquorum := hconfirmed.quorum
      rw [readQuorumReached, hcluster, hjoint] at hquorum
      obtain ⟨source, hsource, hother⟩ := other_of_acknowledged (Bool.and_eq_true_iff.mp hquorum).1
      obtain hsame | ⟨m, rpc, hafter, hbefore, hevent, hsuccess, hcontext, -⟩ :=
        hstarted.acknowledged source hsource
      · exact absurd (hsame.trans (hconfig j hstarted.earlier)) hother
      · exact ⟨_, _, batch, j, answer, hrun, hanswer, hrequest, hstarted, hconfirmed, source, m,
          rpc, hother, hafter, hbefore, hevent, hsuccess, hcontext⟩

end NodeService

end DistributedKV
