import DistributedKV.Raft.Node.Durability
import DistributedKV.Raft.Node.MicroSteps

/-!
# The entries a node holds, saves and sends

A rule for log entries that holds of everything a leader writes and of what a node is given holds
of the log of the node, of every image it saves and of every entry it sends. The proof looks at
each change an operation is made of (`Micro`), so it covers operations that throw as well.
-/

namespace DistributedKV

open Barrier List

/-- Which entries may stand in the log of a node in a term: at least the sentinel, the no-op of a
new leader and encoded configuration changes. -/
structure EntryPolicy where
  legal : Nat → LogEntry → Prop
  mono : ∀ {term later : Nat} {entry : LogEntry}, term ≤ later → legal term entry →
    legal later entry
  sentinel : ∀ term, legal term RaftLog.empty.boundary
  noOp : ∀ term index, 0 < term → legal term { index, term, type := .noOp, command := [] }
  confChange : ∀ term index change command, 0 < term →
    encodeConfChangeEntry change = .ok command →
    legal term { index, term, type := .confChange, command }

variable {policy : EntryPolicy} {node : RaftNode} {operation : Operation}

/-- The entries of an image are legal in its term. -/
def RaftPersistentState.Obeys (policy : EntryPolicy) (image : RaftPersistentState) : Prop :=
  ∀ entry ∈ image.entries, policy.legal image.currentTerm entry

/-- The entries of a payload are legal in its term, and it has no part in a snapshot. -/
def RpcPayload.Obeys (policy : EntryPolicy) : RpcPayload → Prop
  | .appendEntries request => ∀ entry ∈ request.entries, policy.legal request.term entry
  | .installSnapshot _ | .installSnapshotResponse _ => False
  | _ => True

/-- The arguments of an operation bring legal entries only, and it does not cut the log. -/
def Operation.Obeys (policy : EntryPolicy) : Operation → Prop
  | .handleAppendEntries _ request => RpcPayload.Obeys policy (.appendEntries request)
  | .propose command => ∀ term index, 0 < term →
      policy.legal term { index, term, type := .command, command }
  | operation => ¬ operation.Snapshot

namespace RaftNode

/-- The log of a node and its images are legal, and its term is positive unless it follows. -/
structure Obeys (policy : EntryPolicy) (node : RaftNode) : Prop where
  entries : ∀ entry ∈ node.log.entries, policy.legal node.currentTerm entry
  images : ∀ image ∈ node.saved, image.Obeys policy
  term : node.role ≠ .follower → 0 < node.currentTerm

theorem Obeys.congr {after : RaftNode} (hobeys : node.Obeys policy) (hlog : after.log = node.log)
    (hpersistence : after.persistence = node.persistence) (hrole : after.role = node.role)
    (hterm : after.currentTerm = node.currentTerm) : after.Obeys policy where
  entries := by
    rw [hlog, hterm]
    exact hobeys.entries
  images := by
    rw [saved_congr hpersistence]
    exact hobeys.images
  term := by
    rw [hrole, hterm]
    exact hobeys.term

/-- A node may append a legal entry. -/
theorem Obeys.append {after : RaftNode} (hobeys : node.Obeys policy) {type : EntryType}
    {command : Bytes} (hlog : after.log = node.log.append node.currentTerm type command)
    (hentry : policy.legal node.currentTerm
      { index := node.log.lastIndex + 1, term := node.currentTerm, type, command })
    (hpersistence : after.persistence = node.persistence) (hrole : node.role ≠ .follower)
    (hterm : after.currentTerm = node.currentTerm) : after.Obeys policy where
  entries := by
    intro entry hmember
    rw [hlog, RaftLog.entries_append] at hmember
    rw [hterm]
    rcases mem_append.mp hmember with hold | hnew
    · exact hobeys.entries entry hold
    · rw [mem_singleton.mp hnew]
      exact hentry
  images := by
    rw [saved_congr hpersistence]
    exact hobeys.images
  term := by
    rw [hterm]
    exact fun _ => hobeys.term hrole

theorem Obeys.raise {after : RaftNode} (hobeys : node.Obeys policy) (hlog : after.log = node.log)
    (hpersistence : after.persistence = node.persistence)
    (hterm : node.currentTerm ≤ after.currentTerm)
    (hrole : after.role ≠ .follower → 0 < after.currentTerm) : after.Obeys policy where
  entries := by
    rw [hlog]
    exact fun entry hmember => policy.mono hterm (hobeys.entries entry hmember)
  images := by
    rw [saved_congr hpersistence]
    exact hobeys.images
  term := hrole

theorem mem_of_append_from {log merged : RaftLog} {previousIndex : Nat}
    {incoming : List LogEntry} (hrun : log.appendFrom previousIndex incoming = .ok merged)
    {entry : LogEntry} (hentry : entry ∈ merged.entries) :
    entry ∈ log.entries ∨ entry ∈ incoming := by
  obtain ⟨-, -, hboundary, -, hsuffix⟩ := RaftLog.append_from_spec hrun
  rw [RaftLog.entries, hboundary] at hentry
  rcases mem_cons.mp hentry with rfl | hmember
  · exact .inl mem_cons_self
  · rcases hsuffix with ⟨hsame, -⟩ | hreplaced
    · rw [hsame] at hmember
      exact .inl (mem_cons_of_mem _ hmember)
    · rw [hreplaced] at hmember
      rcases mem_append.mp hmember with hold | hnew
      · exact .inl (mem_cons_of_mem _ (mem_of_mem_take hold))
      · exact .inr hnew

theorem Obeys.rollback (hobeys : node.Obeys policy) (pending : Option (Bytes × Bool)) :
    (node.rollbackPending pending).1.Obeys policy := by
  unfold rollbackPending dropPending
  split
  · split_ifs <;> exact hobeys.congr rfl rfl rfl rfl
  · exact hobeys

theorem Obeys.save {saved : RaftNode} (hobeys : node.Obeys policy) (hsave : Save node saved) :
    saved.Obeys policy := by
  obtain ⟨persistence, hpersistence⟩ := hsave
  refine ⟨hobeys.entries, ?_, hobeys.term⟩
  intro image himage
  rcases mem_cons.mp himage with rfl | hold
  · exact hobeys.entries
  · refine hobeys.images image ?_
    rw [RaftNode.saved, hpersistence]
    exact hold

/-- Every change keeps a node obedient. -/
theorem Micro.obeys {first second : RaftNode} (hstep : Micro operation first second)
    (hoperation : operation.Obeys policy) (hobeys : first.Obeys policy) : second.Obeys policy := by
  have hleader : ∀ {node : RaftNode}, node.role = .leader → node.role ≠ .follower := by
    rintro node hrole
    rw [hrole]
    decide
  cases hstep with
  | prepare h =>
    cases h with
    | wait => exact hobeys.congr rfl rfl rfl rfl
    | stepDown term leader hmessage hterm =>
      refine hobeys.raise ?_ ?_ ?_ ?_
      · unfold becomeFollower resetElectionTimer
        split_ifs <;> rfl
      · unfold becomeFollower resetElectionTimer
        split_ifs <;> rfl
      · unfold becomeFollower resetElectionTimer
        split_ifs with hnewer
        · exact hterm
        · exact le_rfl
      · exact fun h => absurd rfl h
    | stand helapses hrole hlearner =>
      exact hobeys.raise rfl rfl (Nat.le_succ _) fun _ => Nat.succ_pos _
    | countVote source hrole hvoter => exact hobeys.congr rfl rfl rfl rfl
    | takeOver helects hrole hquorum =>
      have hcandidate : first.role ≠ .follower := by
        rw [hrole]
        decide
      exact hobeys.append rfl (policy.noOp _ _ (hobeys.term hcandidate)) rfl hcandidate rfl
    | castVote request hlearner hvoter hgrants => exact hobeys.congr rfl rfl rfl rfl
    | credit peer index => exact hobeys.congr rfl rfl rfl rfl
    | backUp source response => exact hobeys.congr rfl rfl rfl rfl
    | pendExit joint index => exact hobeys.congr rfl rfl rfl rfl
    | appendExit exit encoded helects hrole hfresh hexit hencoded =>
      exact hobeys.append rfl
        (policy.confChange _ _ exit encoded (hobeys.term (hleader hrole)) hencoded) rfl
        (hleader hrole) rfl
    | appendCommand command hrole hpropose =>
      subst hpropose
      exact hobeys.append rfl (hoperation _ _ (hobeys.term (hleader hrole))) rfl
        (hleader hrole) rfl
    | proposeUnencoded cluster change error => exact hobeys.congr rfl rfl rfl rfl
    | proposeChange cluster change encoded hpropose hproposable hencoded =>
      have hrole := hleader hproposable.role
      exact hobeys.append rfl
        (policy.confChange _ _ change encoded (hobeys.term hrole) hencoded) rfl hrole rfl
    | merge source request log hrequest hrole hterm hprevious hlog =>
      subst hrequest
      have hmerged : { first with log }.Obeys policy := by
        refine ⟨fun entry hentry => ?_, hobeys.images, hobeys.term⟩
        rcases mem_of_append_from hlog hentry with hold | hnew
        · exact hobeys.entries entry hold
        · show policy.legal first.currentTerm entry
          rw [hterm]
          exact hoperation entry hnew
      exact hmerged.rollback _
    | join cluster entry change => exact hobeys.congr rfl rfl rfl rfl
    | fault change hcluster _ => exact hobeys.congr rfl rfl rfl rfl
    | addLearner learner => exact hobeys.congr rfl rfl rfl rfl
    | cutLog log commit hsnapshot =>
      cases operation with
      | compactLogPrefix boundaryIndex boundaryTerm => exact absurd hsnapshot hoperation
      | applySnapshotBoundary boundaryIndex boundaryTerm => exact absurd hsnapshot hoperation
      | replaceLogWithSnapshotBoundary boundaryIndex boundaryTerm =>
        exact absurd hsnapshot hoperation
      | _ => exact hsnapshot.elim
    | save hsave => exact hobeys.save hsave
  | commit h => cases h <;> exact hobeys.congr rfl rfl rfl rfl
  | apply h =>
    cases h with
    | appendExit exit encoded hrole hbehind hexit hencoded =>
      exact hobeys.append rfl
        (policy.confChange _ _ exit encoded (hobeys.term (hleader hrole)) hencoded) rfl
        (hleader hrole) rfl
    | save hsave => exact hobeys.save hsave
    | _ => exact hobeys.congr rfl rfl rfl rfl

theorem Obeys.after (hobeys : node.Obeys policy) (hoperation : operation.Obeys policy) :
    (node.after operation).Obeys policy :=
  invariant_after (fun _ _ hstep => hstep.obeys hoperation) hobeys

/-! ## What is sent -/

/-- A replication request repeats entries of the log, in the term of the node, and no payload has
a part in a snapshot. -/
def SendsPayload (node : RaftNode) : RpcPayload → Prop
  | .appendEntries request =>
    request.term = node.currentTerm ∧ request.entries ⊆ node.log.entries
  | .installSnapshot _ | .installSnapshotResponse _ => False
  | _ => True

/-- All payloads are such. -/
def Sends (node : RaftNode) (outbound : List OutboundRpc) : Prop :=
  ∀ rpc ∈ outbound, node.SendsPayload rpc.payload

theorem sends_nil (node : RaftNode) : node.Sends [] := by simp [Sends]

theorem sends_singleton {rpc : OutboundRpc} (hrpc : node.SendsPayload rpc.payload) :
    node.Sends [rpc] := by
  intro other hother
  rw [mem_singleton.mp hother]
  exact hrpc

theorem sends_append_entries (node : RaftNode) (peer : NodeId) :
    node.Sends [node.makeAppendEntries peer] := by
  refine sends_singleton ⟨rfl, ?_⟩
  intro entry hentry
  simp only [RaftLog.entriesFrom] at hentry
  split at hentry
  · cases hentry
  · split_ifs at hentry
    · cases hentry
    · exact mem_of_mem_drop (mem_of_mem_take hentry)

theorem sends_replicate_to_all (node : RaftNode) : node.Sends node.replicateToAll := by
  intro rpc hrpc
  obtain ⟨peer, -, rfl⟩ := mem_map.mp hrpc
  exact node.sends_append_entries peer _ (mem_singleton_self _)

theorem sends_vote_requests (node : RaftNode) : node.Sends node.voteRequests := by
  intro rpc hrpc
  obtain ⟨peer, -, rfl⟩ := mem_map.mp hrpc
  trivial

theorem ensures_sends_become_leader :
    Ensures becomeLeader node fun outbound final => final.Sends outbound := by
  rw [becomeLeader]
  refine .modify_bind (.bind_last fun _ _ => .bind_last fun _ _ => ?_)
  exact .bind_last fun _ final =>
    .get_bind (.pure final.sends_replicate_to_all)

theorem ensures_sends_tick (elapsedMs : Nat) :
    Ensures (tick elapsedMs) node fun outbound final => final.Sends outbound := by
  rw [tick]
  refine .get_bind ?_
  dsimp only
  split_ifs
  · exact .pure node.sends_nil
  · exact .set_bind (.pure (sends_replicate_to_all _))
  · exact .set_bind (.pure (sends_nil _))
  · refine .set_bind ?_
    rw [startElection]
    refine .get_bind ?_
    split_ifs
    · exact .pure (sends_nil _)
    · refine .set_bind (.bind_last fun _ middle => .get_bind ?_)
      split_ifs
      · exact ensures_sends_become_leader
      · exact .pure middle.sends_vote_requests
  · exact .set_bind (.pure (sends_nil _))

theorem ensures_sends_request_vote_response (source : NodeId) (response : RequestVoteResponse) :
    Ensures (handleRequestVoteResponse source response) node
      fun outbound final => final.Sends outbound := by
  rw [handleRequestVoteResponse]
  refine .get_bind ?_
  dsimp only
  split_ifs
  · exact .pure node.sends_nil
  · exact .set_bind (.bind_last fun _ final => .pure final.sends_nil)
  · exact .pure node.sends_nil
  · exact .set_bind ensures_sends_become_leader
  · exact .set_bind (.pure (sends_nil _))

/-- What answers a response repeats the log. -/
theorem ensures_sends_append_entries_response (source : NodeId)
    (response : AppendEntriesResponse) :
    Ensures (handleAppendEntriesResponse source response) node
      fun outbound final => final.Sends outbound := by
  rw [handleAppendEntriesResponse]
  refine .get_bind ?_
  split
  · exact .pure node.sends_nil
  split
  · exact .set_bind (.bind_last fun _ final => .pure final.sends_nil)
  split
  · exact .pure node.sends_nil
  split
  · dsimp only
    split_ifs
    · refine .set_bind (.bind_last fun _ final => .get_bind ?_)
      split_ifs
      · exact .pure (final.sends_append_entries source)
      · exact .pure final.sends_nil
    · exact .pure node.sends_nil
    · exact .pure node.sends_nil
    · exact .set_bind (.pure (sends_append_entries _ source))
  · exact .pure node.sends_nil

theorem ensures_sends_publish (index : Nat) :
    Ensures (do
      persistOrThrow
      advanceCommitIndex
      let leader ← get
      pure { accepted := true, index, outbound := leader.replicateToAll : ProposeResult }) node
      fun result final => final.Sends result.outbound :=
  .bind_last fun _ _ => .bind_last fun _ final =>
    .get_bind (.pure final.sends_replicate_to_all)

theorem ensures_sends_propose (command : Bytes) :
    Ensures (propose command) node fun result final => final.Sends result.outbound := by
  rw [propose]
  refine .get_bind ?_
  split_ifs
  · exact .pure node.sends_nil
  · exact .set_bind (ensures_sends_publish _)

theorem ensures_sends_propose_conf_change (type : ConfChangeType) (member : ClusterMember)
    (operationId : UInt64) :
    Ensures (proposeConfChange type member operationId) node
      fun result final => final.Sends result.outbound := by
  rw [proposeConfChange]
  refine .get_bind ?_
  split
  · exact .pure node.sends_nil
  split
  · exact .pure node.sends_nil
  split
  · exact .pure node.sends_nil
  split
  · exact .pure node.sends_nil
  dsimp only
  refine .set_bind ?_
  split
  · exact .pure (sends_nil _)
  · exact .set_bind (ensures_sends_publish _)

/-- What an operation sends repeats the log it leaves. -/
theorem ensures_sends (operation : Operation) :
    Ensures (perform operation) node fun outbound final => final.Sends outbound := by
  have hnothing : ∀ {α : Type} (program : RaftM α),
      Ensures (do let _ ← program; pure []) node fun outbound final => final.Sends outbound :=
    fun _ => .bind_last fun _ final => .pure final.sends_nil
  cases operation with
  | tick elapsedMs => exact ensures_sends_tick elapsedMs
  | handleRequestVote source request =>
    exact .bind_last fun _ _ => .pure (sends_singleton trivial)
  | handleRequestVoteResponse source response =>
    exact ensures_sends_request_vote_response source response
  | handleAppendEntries source request =>
    exact .bind_last fun _ _ => .pure (sends_singleton trivial)
  | handleAppendEntriesResponse source response =>
    exact ensures_sends_append_entries_response source response
  | propose command => exact (ensures_sends_propose command).bind fun _ _ h => .pure h
  | proposeConfChange type member operationId =>
    exact (ensures_sends_propose_conf_change type member operationId).bind
      fun _ _ h => .pure h
  | addLearner learner => exact hnothing _
  | compactLogPrefix boundaryIndex boundaryTerm => exact hnothing _
  | acknowledgeLeader term leader => exact hnothing _
  | applySnapshotBoundary boundaryIndex boundaryTerm => exact hnothing _
  | replaceLogWithSnapshotBoundary boundaryIndex boundaryTerm => exact hnothing _
  | onInstallSnapshotSuccess peer lastIncludedIndex => exact hnothing _
  | observeHigherTerm term => exact hnothing _

/-- An obedient node sends legal entries. -/
theorem Obeys.sends (hobeys : node.Obeys policy) {outbound : List OutboundRpc}
    (hsends : node.Sends outbound) {rpc : OutboundRpc} (hrpc : rpc ∈ outbound) :
    rpc.payload.Obeys policy := by
  have hpayload := hsends rpc hrpc
  cases hkind : rpc.payload with
  | appendEntries request =>
    rw [hkind] at hpayload
    intro entry hentry
    rw [hpayload.1]
    exact hobeys.entries entry (hpayload.2 hentry)
  | requestVote request => trivial
  | requestVoteResponse response => trivial
  | appendEntriesResponse response => trivial
  | installSnapshot request =>
    rw [hkind] at hpayload
    exact hpayload
  | installSnapshotResponse response =>
    rw [hkind] at hpayload
    exact hpayload

end RaftNode

end DistributedKV
