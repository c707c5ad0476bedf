import DistributedKV.Raft.LogVector
import DistributedKV.Raft.Node.LeaderLog
import DistributedKV.Raft.Node.Roster
import DistributedKV.Service.PublishCrash
import DistributedKV.Service.SnapshotCredit

/-!
# The results of submissions

The result of an applied entry is kept for the submission at its index. As long as the service
leads the term of a submission, the entries up to that index are those of the log at the submission,
so that the result is that of the submitted command, applied where the machine of the service gets
with the entries before it.
-/

namespace DistributedKV

open Barrier Relation

/-- The machine gets to another one by applying the entries of a log that come next. -/
def StateMachine.Reaches (log : RaftLog) : StateMachine → StateMachine → Prop :=
  ReflTransGen fun first second => ∃ entry result,
    log.entryAt (first.lastApplied + 1) = some entry ∧ first.apply entry = .ok (second, result)

namespace RaftKVService

variable {service final : RaftKVService} {entry : LogEntry} {call : ServiceCall} {log : RaftLog}
  {start : StateMachine}

/-- A machine that has not got to an entry of a log was reached from a start with this log, whose
entries up to that one are there. -/
structure Approaches (log : RaftLog) (start : StateMachine) (entry : LogEntry)
    (machine : StateMachine) (current : RaftLog) : Prop where
  reached : start.Reaches log machine
  holds : current.entryAt entry.index = some entry
  same : ∀ index other, machine.lastApplied < index → index ≤ entry.index →
    current.entryAt index = some other → log.entryAt index = some other

/-- Until the entry is applied the machine approaches it, and the result that is kept at its index,
if any, is what applying it then gave. -/
def Owns (log : RaftLog) (start : StateMachine) (entry : LogEntry) (service : RaftKVService)
    (current : RaftLog) : Prop :=
  (service.stateMachine.lastApplied < entry.index →
    Approaches log start entry service.stateMachine current) ∧
    ∀ result, service.completedLocal entry.index = some result →
      ∃ machine next, start.Reaches log machine ∧ machine.apply entry = .ok (next, some result)

/-- This holds as long as the service leads the term of the entry. -/
def Awaits (log : RaftLog) (start : StateMachine) (entry : LogEntry) (service : RaftKVService) :
    Prop :=
  service.raftNode.HasLed entry.term (service.Owns log start entry)

/-- A leader appends behind the entry. -/
theorem Approaches.append {machine : StateMachine} {current : RaftLog}
    (h : Approaches log start entry machine current) (term : Nat) (type : EntryType)
    (command : Bytes) : Approaches log start entry machine (current.append term type command) := by
  refine ⟨h.reached, current.entry_at_append_of_some h.holds _ _ _, fun index other hlow hhigh => ?_⟩
  intro hother
  rcases RaftNode.entry_at_append_cases current hother with hold | ⟨hindex, -⟩
  · exact h.same index other hlow hhigh hold
  · have hlast := ((current.entry_at_is_some entry.index).mp (by rw [h.holds]; rfl)).2
    omega

theorem Approaches.apply {machine next : StateMachine} {current : RaftLog} {other : LogEntry}
    {result : Option ApplyResult} (h : Approaches log start entry machine current)
    (hbefore : machine.lastApplied < entry.index)
    (hother : current.entryAt (machine.lastApplied + 1) = some other)
    (happly : machine.apply other = .ok (next, result)) :
    Approaches log start entry next current := by
  have happlied := StateMachine.apply_last_applied happly
  exact ⟨h.reached.tail ⟨other, result, h.same _ _ (Nat.lt_succ_self _) hbefore hother, happly⟩,
    h.holds, fun index found hlow => h.same index found (by omega)⟩

theorem kept_of_complete {index other : Nat} {result : Option ApplyResult} {kept : ApplyResult}
    (hkept : (service.complete index result).completedLocal other = some kept) :
    service.completedLocal other = some kept ∨ other = index ∧ result = some kept := by
  unfold complete at hkept
  split at hkept
  · exact .inl hkept
  split_ifs at hkept
  · rcases eq_or_ne other index with rfl | hne
    · exact .inr ⟨rfl, by simpa using hkept⟩
    · exact .inl (by simpa [hne] using hkept)
  · exact .inl hkept

/-- Applying the next entry gives its result. -/
theorem Awaits.apply_next (hnext : service.applyNext = .ok final)
    (h : service.Awaits log start entry) : final.Awaits log start entry := by
  rw [applyNext] at hnext
  split at hnext
  · cases hnext
  rename_i other hother
  split at hnext
  · cases hnext
  rename_i machine result happly
  cases hnext
  have happlied := StateMachine.apply_last_applied happly
  obtain ⟨hframed, hmachine⟩ := { service with stateMachine := machine }.complete_spec
    (service.stateMachine.lastApplied + 1) result
  rw [Awaits, hframed.raftNode]
  refine ⟨h.term_le, h.role, fun hterm hrole => ?_⟩
  obtain ⟨happroaches, hresult⟩ := h.log hterm hrole
  refine ⟨fun hlater => ?_, fun kept hkept => ?_⟩
  · rw [hmachine] at hlater ⊢
    dsimp only at hlater ⊢
    have hbefore : service.stateMachine.lastApplied < entry.index := by omega
    exact (happroaches hbefore).apply hbefore hother happly
  · rcases kept_of_complete hkept with hold | ⟨hindex, rfl⟩
    · exact hresult kept hold
    · -- the log still holds the awaited entry, so it is the one that was applied
      have hthen := happroaches (by omega)
      rw [← hindex, hthen.holds] at hother
      cases hother
      exact ⟨service.stateMachine, machine, hthen.reached, happly⟩

/-- Every change inside a call keeps this. -/
theorem Awaits.step (hmicro : Micro call service final) (h : service.Awaits log start entry) :
    final.Awaits log start entry := by
  cases hmicro with
  | node operation node hruns hmicro =>
    refine RaftNode.HasLed.step (fun current term type command howns => ?_) hruns.plain
      hmicro h
    exact ⟨fun hlater => (howns.1 hlater).append term type command, howns.2⟩
  | apply _ _ hnext => exact h.apply_next hnext
  | take index =>
    refine ⟨h.term_le, h.role, fun hterm hrole => ⟨(h.log hterm hrole).1, fun result hkept => ?_⟩⟩
    have hne : entry.index ≠ index := by
      rintro rfl
      simp at hkept
    exact (h.log hterm hrole).2 result (by simpa [hne] using hkept)
  | compact threshold boundaryTerm shorter _ _ hlog =>
    refine ⟨h.term_le, h.role, fun hterm hrole => ⟨fun hlater => ?_, (h.log hterm hrole).2⟩⟩
    -- the log is cut at what is applied, and the entry is not
    obtain ⟨hreached, hholds, hsame⟩ := (h.log hterm hrole).1 hlater
    refine ⟨hreached, ?_, fun index other hlow hhigh hother => hsame index other hlow hhigh ?_⟩
    · rw [LogVector.entry_at_compact_to hlog hlater]
      exact hholds
    · rwa [LogVector.entry_at_compact_to hlog hlow] at hother
  -- only a follower installs a snapshot
  | restore _ _ _ _ _ hrole | replace _ _ _ _ hrole => exact .of_follower h.term_le hrole
  | save after hsave =>
    cases hsave
    exact ⟨h.term_le, h.role, h.log⟩
  | pend | track | receive | publish | accept | record => exact h

theorem Awaits.steps (hsteps : ReflTransGen (Micro call) service final)
    (h : service.Awaits log start entry) : final.Awaits log start entry := by
  induction hsteps with
  | refl => exact h
  | tail _ hlast ih => exact ih.step hlast

/-- The service awaits the entry at an index from the state it is in. -/
def AwaitsAt (service : RaftKVService) (index : Nat) (encoded : Bytes) : Prop :=
  service.Awaits service.raftNode.log service.stateMachine
    { index, term := service.raftNode.currentTerm, type := .command, command := encoded }

theorem ensures_finalize_awaits {outbound : List OutboundRpc} {index : Nat} {encoded : Bytes}
    (h : service.AwaitsAt index encoded) :
    Ensures (finalizeOutbound outbound) service fun _ final => final.AwaitsAt index encoded := by
  intro sent final hrun
  obtain ⟨_, snapshotSends, hsent⟩ := finalize_outbound_run outbound service
  cases hrun.symm.trans hsent
  -- any call does here: what is finished touches the progress of transfers only
  have htrack : Micro (.tick 0) service { service with snapshotSends } := .track service _
  exact h.step htrack

/-- A pending submission awaits its entry. -/
theorem ensures_submit_awaits (command : KVCommand) :
    Ensures (submit command) service fun answer final => answer.1.status = .pending →
      ∃ encoded, KVCommandCodec.encode command = .ok encoded ∧
        final.AwaitsAt answer.1.logIndex encoded := by
  rw [submit]
  cases hencoded : KVCommandCodec.encode command with
  | error error => exact .pure fun hpending => by cases hpending
  | ok encoded =>
    refine .bind (ensures_on_node (RaftNode.ensures_propose_entry encoded)) ?_
    rintro proposal - ⟨node, hproposed, rfl⟩
    split_ifs with haccepted
    · obtain ⟨hrole, hentry⟩ := hproposed haccepted
      refine .modify_bind (.bind ensures_apply_committed ?_)
      intro answer caught hcaught
      have hnode : caught.raftNode = node := by rw [hcaught, caught_up_framed.raftNode]
      cases answer with
      | error error => exact .pure fun hpending => by cases hpending
      | ok _ =>
        -- a result of an earlier submission at this index is gone from here on
        have htake : Ensures (takeResult proposal.index) caught fun _ taken =>
            taken.AwaitsAt proposal.index encoded := by
          refine .get_bind (.set_bind (.pure ?_))
          rw [AwaitsAt, Awaits, hnode]
          exact ⟨le_rfl, fun _ => by simp [hrole], fun _ _ =>
            ⟨fun _ => ⟨.refl, hentry, fun _ _ _ _ h => h⟩, by simp⟩⟩
        refine .bind htake fun _ taken htaken => ?_
        refine .bind (ensures_finalize_awaits htaken) ?_
        intro sent final hfinal
        dsimp only
        split_ifs
        · exact .pure fun _ => ⟨encoded, rfl, hfinal⟩
        · split <;> exact .pure fun _ => ⟨encoded, rfl, hfinal⟩
    · exact .pure fun hpending => by cases hpending

/-- The result that is kept for a submission is that of the submitted command, applied to the
machine that the service gets to with the entries of its log before it, as long as the service leads
the term of the submission, whatever calls came in between. -/
theorem submitted_result_own {command : KVCommand} {answer : SubmitResult × String}
    (hsubmit : submit command service = .ok answer final) (hpending : answer.1.status = .pending)
    {calls : List ServiceCall}
    (hrole : (calls.foldl after final).raftNode.role = .leader)
    (hterm : (calls.foldl after final).raftNode.currentTerm = final.raftNode.currentTerm)
    {result : ApplyResult}
    (hkept : (calls.foldl after final).completedLocal answer.1.logIndex = some result) :
    ∃ machine, final.stateMachine.Reaches final.raftNode.log machine ∧
      machine.lastApplied + 1 = answer.1.logIndex ∧
      result = (machine.applyCommand answer.1.logIndex command).2 := by
  obtain ⟨encoded, hencoded, hawaits⟩ :=
    ensures_submit_awaits command answer final hsubmit hpending
  have hlater := List.foldlRecOn calls after hawaits fun state hstate call _ =>
    hstate.steps (steps_after call state)
  obtain ⟨machine, next, hreached, happly⟩ := (hlater.log hterm hrole).2 result hkept
  rw [StateMachine.apply] at happly
  split at happly
  · cases happly
  · rename_i hindex
    simp only [KVCommandCodec.decode_encode_command hencoded] at happly
    cases happly
    exact ⟨machine, hreached, (not_not.mp hindex).symm, rfl⟩

/-- A leader with a peer. -/
def leading : RaftKVService :=
  [.tick 300, .handleRequestVoteResponse 2 (RaftNode.granted 1)].foldl after
    { raftNode := .fresh { nodeId := 1, peers := [2] } none }

/-- It has taken a command. -/
def submitting : RaftKVService :=
  leading.after (.submit { clientId := 1, requestId := 1, key := [7] })

/-- Once the peer has acknowledged its entry, the result of the command is there, and it is that of
the machine after the no-op. -/
theorem submitted_result_own_acknowledged :
    ∃ machine, submitting.stateMachine.Reaches submitting.raftNode.log machine ∧
      machine.lastApplied + 1 = 2 ∧
      (submitting.after
        (.handleAppendEntriesResponse 2 (RaftNode.matchedUpTo 1 2))).completedLocal 2 =
        some (machine.applyCommand 2 { clientId := 1, requestId := 1, key := [7] }).2 := by
  have hsubmit : submit { clientId := 1, requestId := 1, key := [7] } leading =
    .ok _ submitting := rfl
  have hkept : ([.handleAppendEntriesResponse 2 (RaftNode.matchedUpTo 1 2)].foldl after
      submitting).completedLocal 2 =
      some { logIndex := 2, clientId := 1, requestId := 1, payload := payloadOk } := by
    decide +kernel
  obtain ⟨machine, hreached, hindex, hresult⟩ := submitted_result_own hsubmit rfl
    (by decide +kernel) (by decide +kernel) hkept
  exact ⟨machine, hreached, hindex, hkept.trans (congrArg some hresult)⟩

end RaftKVService

end DistributedKV
