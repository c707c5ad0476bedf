import DistributedKV.Cluster.Restart
import DistributedKV.Raft.Node.Durability
import DistributedKV.Raft.Node.MicroSteps
import DistributedKV.Service.Restart

/-!
# The committed history of a node

The entries a node has committed since it was new, from index one on, are a history of which its
log holds the part behind the boundary. The operations of a node with fixed membership extend the
history and never change it, as long as the entries it is given do not conflict with what is
committed; and every image they save carries a history that extends the one from before, also when
the operation throws (`Tracks.proceeds`).
-/

namespace DistributedKV

open Barrier List RaftLog
open TermLog (lastStamp last_stamp_take)

/-- The entry is the no-op of a new leader or carries a submitted command. -/
def LogEntry.Submitted (entry : LogEntry) : Prop :=
  (entry.type = .noOp ∧ entry.command = []) ∨
    (entry.type = .command ∧ ∃ command, KVCommandCodec.encode command = .ok entry.command)

namespace LogEntry.Submitted

variable {entry : LogEntry} (hentry : entry.Submitted)
include hentry

theorem applicable : entry.Applicable := by
  rw [Applicable]
  rcases hentry with ⟨htype, hcommand⟩ | ⟨htype, command, hencode⟩
  · rw [htype]
    exact hcommand
  · rw [htype]
    dsimp only
    rw [KVCommandCodec.decode_encode_command hencode]
    rfl

theorem not_conf_change : entry.type ≠ .confChange := by
  rcases hentry with ⟨htype, -⟩ | ⟨htype, -⟩ <;> simp [htype]

theorem valid (hterm : entry.term ≠ 0) : RaftLog.entryValid entry = true := by
  rcases hentry with ⟨htype, hcommand⟩ | ⟨htype, command, hencode⟩
  · simp [entryValid, htype, hcommand, hterm]
  · have hnonempty : entry.command ≠ [] := by
      intro hempty
      have hdecode := KVCommandCodec.decode_encode_command hencode
      rw [hempty] at hdecode
      cases hdecode
    simp [entryValid, htype, hnonempty, hterm]

end LogEntry.Submitted

namespace RaftLog

/-- The log is valid in a term, and behind its boundary, which is in the history, it starts with
the rest of the history. -/
structure Carries (history : List LogEntry) (term : Nat) (log : RaftLog) : Prop where
  boundaryValid : RaftLog.boundaryValid log.boundary = true
  positive : ∀ entry ∈ log.suffix, entry.term ≠ 0
  terms : ∀ entry ∈ log.entries, entry.term ≤ term
  submitted : ∀ entry ∈ log.suffix, entry.Submitted
  first : log.firstIndex ≤ history.length
  boundary : log.boundary.term = lastStamp LogEntry.term (history.take log.firstIndex)
  committed : history.drop log.firstIndex <+: log.suffix

/-- The history with the entries that a log has committed behind it. -/
def committedBy (history : List LogEntry) (log : RaftLog) (commit : Nat) : List LogEntry :=
  history ++ (log.suffix.drop (history.length - log.firstIndex)).take (commit - history.length)

namespace Carries

variable {history : List LogEntry} {term : Nat} {log : RaftLog}

theorem empty : RaftLog.empty.Carries [] 0 where
  boundaryValid := rfl
  positive := by simp [RaftLog.empty]
  terms := by simp [RaftLog.empty, entries]
  submitted := by simp [RaftLog.empty]
  first := le_rfl
  boundary := rfl
  committed := nil_prefix

variable (hlog : log.Carries history term)
include hlog

theorem restore : RaftLog.restore log.entries = .ok log := by
  have hall : log.suffix.all entryValid = true := by
    rw [all_eq_true]
    exact fun entry hentry => (hlog.submitted entry hentry).valid (hlog.positive entry hentry)
  rw [entries, RaftLog.restore, if_neg (by simp [hlog.boundaryValid]),
    dif_pos ⟨log.contiguous, hall⟩]

theorem length_le : history.length ≤ log.lastIndex := by
  have hlength := hlog.committed.length_le
  have hlast := log.last_index_eq
  have hfirst := hlog.first
  rw [length_drop] at hlength
  omega

theorem entry_at {k : Nat} (hfirst : log.firstIndex ≤ k) (hk : k < history.length) :
    log.entryAt (k + 1) = history[k]? := by
  obtain ⟨tail, htail⟩ := hlog.committed
  have hposition := log.entry_at_succ (k - log.firstIndex)
  rw [← htail, getElem?_append_left (by rw [length_drop]; omega),
    getElem?_drop] at hposition
  rwa [show log.firstIndex + (k - log.firstIndex + 1) = k + 1 by omega,
    show log.firstIndex + (k - log.firstIndex) = k by omega] at hposition

theorem term_at {index : Nat} (hfirst : log.firstIndex ≤ index) (hindex : index ≤ history.length) :
    log.termAt index = some (lastStamp LogEntry.term (history.take index)) := by
  rcases Nat.eq_or_lt_of_le hfirst with rfl | hlt
  · rw [termAt, log.entry_at_first, Option.map_some, hlog.boundary]
  · obtain ⟨k, rfl⟩ : ∃ k, index = k + 1 := ⟨index - 1, by omega⟩
    have hget := getElem?_eq_getElem (Nat.lt_of_succ_le hindex)
    rw [termAt, hlog.entry_at (by omega) (by omega), last_stamp_take hget, hget, Option.map_some]

theorem no_conf_change (index : Nat) (entry : LogEntry) (hentry : log.entryAt index = some entry) :
    entry.type ≠ .confChange := by
  rcases mem_cons.mp (log.entry_at_mem hentry) with rfl | hmember
  · have hvalid := hlog.boundaryValid
    intro htype
    simp [RaftLog.boundaryValid, htype] at hvalid
  · exact (hlog.submitted entry hmember).not_conf_change

theorem raise {later : Nat} (hterm : term ≤ later) : log.Carries history later :=
  { hlog with terms := fun entry hentry => (hlog.terms entry hentry).trans hterm }

/-- A submitted entry may be appended in the term. -/
theorem append (hpositive : 0 < term) {type : EntryType} {command : Bytes}
    (hentry : LogEntry.Submitted { index := log.lastIndex + 1, term, type, command }) :
    (log.append term type command).Carries history term := by
  have hsuffix : (log.append term type command).suffix =
      log.suffix ++ [{ index := log.lastIndex + 1, term, type, command }] := rfl
  refine ⟨hlog.boundaryValid, ?_, ?_, ?_, hlog.first, hlog.boundary, ?_⟩
  · rw [hsuffix]
    intro entry hmember
    rcases mem_append.mp hmember with hold | hnew
    · exact hlog.positive entry hold
    · rw [mem_singleton.mp hnew]
      exact hpositive.ne'
  · rw [entries_append]
    intro entry hmember
    rcases mem_append.mp hmember with hold | hnew
    · exact hlog.terms entry hold
    · rw [mem_singleton.mp hnew]
  · rw [hsuffix]
    intro entry hmember
    rcases mem_append.mp hmember with hold | hnew
    · exact hlog.submitted entry hold
    · rw [mem_singleton.mp hnew]
      exact hentry
  · exact hlog.committed.trans (prefix_append _ _)

/-- Entries that do not conflict may be merged. -/
theorem append_from {merged : RaftLog} {previousIndex : Nat} {incoming : List LogEntry}
    (hincoming : ∀ entry ∈ incoming, entry.Submitted ∧ entry.term ≤ term)
    (hagree : ∀ entry ∈ incoming, entry.index ≤ history.length →
      ∀ present, log.termAt entry.index = some present → present = entry.term)
    (hrun : log.appendFrom previousIndex incoming = .ok merged) :
    merged.boundary = log.boundary ∧ merged.Carries history term := by
  obtain ⟨-, -, hboundary, hvalid, -⟩ := append_from_spec hrun
  have hfirst : merged.firstIndex = log.firstIndex := by rw [firstIndex, hboundary, firstIndex]
  have hpositive := (incoming_valid_iff.mp hvalid).2
  have hsuffix : ∀ entry ∈ merged.suffix, entry ∈ log.suffix ∨ entry ∈ incoming := by
    obtain ⟨-, -, -, -, ⟨hsame, -⟩ | hreplaced⟩ := append_from_spec hrun
    · rw [hsame]
      exact fun entry hentry => .inl hentry
    · rw [hreplaced]
      intro entry hentry
      rcases mem_append.mp hentry with hold | hnew
      · exact .inl (mem_of_mem_take hold)
      · exact .inr hnew
  refine ⟨hboundary, hboundary ▸ hlog.boundaryValid, ?_, ?_, ?_, hfirst ▸ hlog.first, ?_, ?_⟩
  · intro entry hentry
    rcases hsuffix entry hentry with hold | hnew
    · exact hlog.positive entry hold
    · exact (hpositive entry hnew).2
  · intro entry hentry
    rcases mem_cons.mp hentry with rfl | hmember
    · exact hlog.terms _ (hboundary ▸ mem_cons_self)
    rcases hsuffix entry hmember with hold | hnew
    · exact hlog.terms entry (mem_cons_of_mem _ hold)
    · exact (hincoming entry hnew).2
  · intro entry hentry
    rcases hsuffix entry hentry with hold | hnew
    · exact hlog.submitted entry hold
    · exact (hincoming entry hnew).1
  · rw [hfirst, hboundary, hlog.boundary]
  · rw [hfirst]
    refine append_from_keeps hlog.committed (fun entry hentry hbehind present hpresent => ?_) hrun
    rw [getElem?_drop,
      show log.firstIndex + (entry.index - log.firstIndex - 1) = entry.index - 1 by omega]
      at hpresent
    obtain ⟨hlength, -⟩ := List.getElem?_eq_some_iff.mp hpresent
    refine hagree entry hentry (by omega) present.term ?_
    have hterm := hlog.term_at (show log.firstIndex ≤ entry.index by omega) (by omega)
    rwa [show entry.index = entry.index - 1 + 1 by omega, last_stamp_take hpresent,
      show entry.index - 1 + 1 = entry.index by omega] at hterm

/-- Committing more of the log extends the history. -/
theorem extend {commit : Nat} (hlater : history.length ≤ commit) (hlast : commit ≤ log.lastIndex) :
    ∃ longer, history <+: longer ∧ longer.length = commit ∧ log.Carries longer term := by
  obtain ⟨tail, htail⟩ := hlog.committed
  have hlength := congrArg length htail
  have hfirst := hlog.first
  have hend := log.last_index_eq
  rw [length_append, length_drop] at hlength
  refine ⟨history ++ tail.take (commit - history.length), prefix_append _ _, ?_, ?_⟩
  · rw [length_append, length_take]
    omega
  · refine { hlog with first := ?_, boundary := ?_, committed := ?_ }
    · rw [length_append]
      omega
    · rw [take_append_of_le_length hfirst]
      exact hlog.boundary
    · rw [drop_append_of_le_length hfirst, ← htail]
      exact prefix_append_right_inj _ |>.mpr (List.take_prefix _ _)

omit hlog in
theorem eq_committed_by {longer : List LogEntry} (hlog : log.Carries longer term)
    (hbegins : history <+: longer) (hfirst : log.firstIndex ≤ history.length) :
    longer = committedBy history log longer.length := by
  obtain ⟨more, rfl⟩ := hbegins
  obtain ⟨tail, htail⟩ := hlog.committed
  rw [drop_append_of_le_length hfirst, append_assoc] at htail
  have hdrop : log.suffix.drop (history.length - log.firstIndex) = more ++ tail := by
    rw [← htail]
    exact drop_left' (by rw [length_drop])
  rw [committedBy, hdrop, length_append, Nat.add_sub_cancel_left, take_left]

/-- Cutting at a committed index keeps the history. -/
theorem compact {compacted : RaftLog} {index boundaryTerm : Nat} (hindex : index ≤ history.length)
    (hrun : log.compactTo index boundaryTerm = .ok compacted) :
    compacted.Carries history term ∧ compacted.firstIndex = index := by
  rw [compactTo] at hrun
  split at hrun
  · cases hrun
  rename_i haccepted
  cases hrun
  simp only [compactionRefused, Bool.or_eq_true, not_or, bne_iff_ne, ne_eq, not_not,
    Bool.and_eq_true, beq_iff_eq] at haccepted
  obtain ⟨⟨hterm, hzero⟩, hnonzero⟩ := haccepted
  obtain ⟨entry, hentry, hstamp⟩ := Option.map_eq_some_iff.mp hterm
  have hrange := (log.entry_at_is_some index).mp (by simp [hentry])
  have hmember := log.entry_at_mem hentry
  refine ⟨⟨?_, ?_, ?_, ?_, hindex, ?_, ?_⟩, rfl⟩
  · simp only [RaftLog.boundaryValid, beq_self_eq_true, Bool.true_and, Bool.and_eq_true,
      Bool.not_eq_true', Bool.and_eq_false_iff, beq_eq_false_iff_ne, bne_eq_false_iff_eq]
    tauto
  · exact fun other hother => hlog.positive other (mem_of_mem_drop hother)
  · intro other hother
    rcases mem_cons.mp hother with rfl | hold
    · show boundaryTerm ≤ term
      rw [← hstamp]
      exact hlog.terms entry hmember
    · exact hlog.terms other (mem_cons_of_mem _ (mem_of_mem_drop hold))
  · exact fun other hother => hlog.submitted other (mem_of_mem_drop hother)
  · have hagree := hlog.term_at hrange.1 hindex
    rw [hterm] at hagree
    exact Option.some.inj hagree
  · have hcut := hlog.committed.drop (index - log.firstIndex)
    rwa [drop_drop, Nat.add_sub_cancel' hrange.1] at hcut

end Carries

end RaftLog

/-! ## Nodes and their images -/

namespace RaftNode

/-- The membership is that of the configuration, and nothing has ever changed it. -/
structure FixedBy (config : NodeConfig) (node : RaftNode) : Prop where
  nodeId : node.config.nodeId = config.nodeId
  peers : node.config.peers = config.effective.peers
  learners : node.config.learners = config.learners
  clusterConfig : node.clusterConfig = config.bootstrapCluster
  jointConfig : node.jointConfig = none
  active : node.activeMembershipOperation = none
  completed : node.completedMembershipOperation = none
  pending : node.pendingConfChangeIndex = none

/-- The committed entries of the node are the history. -/
structure Tracks (config : NodeConfig) (history : List LogEntry) (node : RaftNode) : Prop
    extends FixedBy config node where
  backed : node.Backed
  log : node.log.Carries history node.currentTerm
  commit : history.length = node.commitIndex
  term : node.role ≠ .follower → 0 < node.currentTerm
  vote : ∀ candidate, node.votedFor = some candidate → node.isMember candidate = true

/-- The node has kept the boundary of a log and committed more than a history. -/
def Continues (config : NodeConfig) (history : List LogEntry) (log : RaftLog) (node : RaftNode) :
    Prop :=
  node.log.boundary = log.boundary ∧ ∃ longer, history <+: longer ∧ node.Tracks config longer

end RaftNode

/-- The image is that of a node that has committed more than a history. -/
def RaftPersistentState.Continues (config : NodeConfig) (history : List LogEntry) (log : RaftLog)
    (image : RaftPersistentState) : Prop :=
  ∃ node : RaftNode, node.Continues config history log ∧ image = node.persistentState

namespace RaftNode

variable {config : NodeConfig} {history : List LogEntry} {log : RaftLog} {node : RaftNode}

theorem member_of_voting_member {id : NodeId} (hvoter : node.isVotingMember id = true) :
    node.isMember id = true := by
  rw [isVotingMember] at hvoter
  rw [isMember]
  split_ifs at hvoter with hself
  · simp [hself]
  · simp only [hvoter, Bool.or_true, Bool.true_or]

section Tracking

variable (hnode : node.Tracks config history)
include hnode

theorem Tracks.step_down {term : Nat} (hterm : node.currentTerm ≤ term) (leader : Option NodeId) :
    (node.becomeFollower term leader).Tracks config history := by
  rw [becomeFollower]
  split_ifs with hnewer
  · exact
      { hnode with
        log := hnode.log.raise hterm
        term := fun hrole => absurd rfl hrole
        vote := fun _ hvote => by cases hvote }
  · exact { hnode with term := fun hrole => absurd rfl hrole }

theorem Tracks.candidacy :
    node.candidacy.Tracks config history :=
  { hnode with
    log := hnode.log.raise (Nat.le_succ _)
    term := fun _ => Nat.succ_pos _
    vote := fun candidate hvote => by
      cases hvote
      show (node.config.nodeId == node.config.nodeId || _ || _) = true
      simp }

theorem Tracks.with_vote {candidate : NodeId} (hmember : node.isMember candidate = true) :
    (node.withVote candidate).Tracks config history :=
  { hnode with
    vote := fun voted hvote => by
      cases hvote
      exact hmember }

theorem Tracks.append (hrole : node.role ≠ .follower) {type : EntryType} {command : Bytes}
    (hentry : LogEntry.Submitted
      { index := node.log.lastIndex + 1, term := node.currentTerm, type, command }) :
    { node with log := node.log.append node.currentTerm type command }.Tracks config history :=
  { hnode with log := hnode.log.append (hnode.term hrole) hentry }

theorem Tracks.takeover (hrole : node.role ≠ .follower) :
    node.takeover.Tracks config history :=
  { hnode.append hrole (.inl ⟨rfl, rfl⟩) with term := fun _ => hnode.term hrole }

theorem Tracks.advance {commit : Nat}
    (hlater : node.commitIndex ≤ commit) (hlast : commit ≤ node.log.lastIndex) :
    ∃ longer, history <+: longer ∧ { node with commitIndex := commit }.Tracks config longer := by
  obtain ⟨longer, hbegins, hlength, hcarries⟩ :=
    hnode.log.extend (hnode.commit.trans_le hlater) hlast
  exact ⟨longer, hbegins, { hnode with log := hcarries, commit := hlength }⟩

end Tracking

/-! ## Operations -/

/-- The entries of a request are submitted ones, from its term or earlier ones, and in no conflict
with what the node has committed. -/
structure Agrees (node : RaftNode) (request : AppendEntriesRequest) : Prop where
  submitted : ∀ entry ∈ request.entries, entry.Submitted ∧ entry.term ≤ request.term
  committed : ∀ entry ∈ request.entries, entry.index ≤ node.commitIndex →
    ∀ present, node.log.termAt entry.index = some present → present = entry.term

/-- The operations of a run with fixed membership and without snapshots of other nodes; proposed
commands are encoded ones. -/
def Admits (node : RaftNode) : Operation → Prop
  | .tick _ | .handleRequestVote _ _ | .handleRequestVoteResponse _ _
  | .handleAppendEntriesResponse _ _ => True
  | .handleAppendEntries _ request => node.Agrees request
  | .propose command => ∃ submitted, KVCommandCodec.encode submitted = .ok command
  | _ => False

theorem term_at_eq_of_carries {other : RaftLog} {term otherTerm index : Nat}
    (hlog : log.Carries history term) (hother : other.Carries history otherTerm)
    (hboundary : other.boundary = log.boundary) (hindex : index ≤ history.length) :
    other.termAt index = log.termAt index := by
  have hfirst : other.firstIndex = log.firstIndex := congrArg LogEntry.index hboundary
  by_cases hbehind : log.firstIndex ≤ index
  · rw [hlog.term_at hbehind hindex, hother.term_at (hfirst ▸ hbehind) hindex]
  · have hnone : ∀ {some : RaftLog}, some.firstIndex = log.firstIndex →
        some.termAt index = none := by
      intro some hsome
      rw [termAt, Option.map_eq_none_iff, ← Option.not_isSome_iff_eq_none,
        some.entry_at_is_some]
      omega
    rw [hnone hfirst, hnone rfl]

section Phases

variable {start after : RaftNode} {operation : Operation}

/-- While an operation prepares, the history stays what it is. -/
structure Prepares (config : NodeConfig) (history : List LogEntry) (start node : RaftNode) :
    Prop where
  tracks : node.Tracks config history
  boundary : node.log.boundary = start.log.boundary
  adds : Adds saved (RaftPersistentState.Continues config history start.log) start node

theorem Prepares.continues (hnode : Prepares config history start node) :
    node.Continues config history start.log :=
  ⟨hnode.boundary, history, prefix_rfl, hnode.tracks⟩

/-- An image that is saved is that of the node. -/
theorem Continues.save {saved : RaftNode} (hnode : node.Continues config history log)
    (hsave : Save node saved) :
    saved.Continues config history log ∧
      Adds RaftNode.saved (RaftPersistentState.Continues config history log) node saved := by
  obtain ⟨persistence, hpersistence, -⟩ := hsave
  obtain ⟨hboundary, longer, hbegins, htracks⟩ := hnode
  refine ⟨⟨hboundary, longer, hbegins, { htracks with backed := ⟨_, rfl⟩ }⟩,
    [node.persistentState], ?_, ?_⟩
  · simp [RaftNode.saved, hpersistence]
  · intro image himage
    rw [mem_singleton.mp himage]
    exact ⟨node, ⟨hboundary, longer, hbegins, htracks⟩, rfl⟩

theorem Admits.not_appended (hadmits : start.Admits operation) {entry : LogEntry}
    {change : ConfChangeEntry} : ¬ Appended operation node entry change := by
  rintro ⟨source, request, rfl, hentry, -, -, hchange⟩
  rw [changeOf, if_neg (hadmits.submitted entry hentry).1.not_conf_change] at hchange
  cases hchange

/-- No committed entry of the history changes it. -/
theorem Tracks.not_committed (hnode : node.Tracks config history) (change : ConfChangeEntry) :
    ¬ node.Committed change := by
  rintro ⟨-, entry, hentry, hchange⟩
  rw [changeOf, if_neg (hnode.log.no_conf_change _ entry hentry)] at hchange
  cases hchange

theorem Tracks.no_exit (hnode : node.Tracks config history) : node.makeJointExitEntry = none := by
  rw [makeJointExitEntry, hnode.jointConfig]
  cases node.clusterConfig <;> rfl

theorem Prepares.merge (hnode : Prepares config history start node)
    (hstart : start.Tracks config history) {request : AppendEntriesRequest}
    (hagrees : start.Agrees request) {merged : RaftLog}
    (hterm : node.currentTerm = request.term)
    (hlog : node.log.appendFrom request.previousLogIndex request.entries = .ok merged) :
    Prepares config history start ({ node with log := merged }.rollbackPending
      node.pendingChange).1 := by
  have htracks := hnode.tracks
  have hpending : node.pendingChange = none := by rw [pendingChange, htracks.pending]
  obtain ⟨hboundary, hcarries⟩ := htracks.log.append_from (hterm ▸ hagrees.submitted)
    (fun entry hentry hindex present hpresent => hagrees.committed entry hentry
      (hstart.commit ▸ hindex) present (by
        rw [← hpresent]
        exact (term_at_eq_of_carries hstart.log htracks.log hnode.boundary hindex).symm)) hlog
  rw [hpending]
  exact ⟨{ htracks with log := hcarries }, hboundary.trans hnode.boundary, hnode.adds⟩

/-- Every change before a commit keeps the history. -/
theorem Prepares.prepare (hnode : Prepares config history start node)
    (hstart : start.Tracks config history) (hadmits : start.Admits operation)
    (hstep : Prepare operation node after) : Prepares config history start after := by
  obtain ⟨htracks, hboundary, hadds⟩ := hnode
  cases hstep with
  | wait => exact ⟨{ htracks with }, hboundary, hadds⟩
  | stepDown term leader hmessage hterm =>
    refine ⟨htracks.step_down hterm leader, ?_, ?_⟩
    · rw [becomeFollower]
      split_ifs <;> exact hboundary
    · rw [Adds, saved_congr (node.become_follower_spec term leader).1]
      exact hadds
  | stand => exact ⟨htracks.candidacy, hboundary, hadds⟩
  | countVote | credit | backUp => exact ⟨{ htracks with }, hboundary, hadds⟩
  | takeOver helects hrole => exact ⟨htracks.takeover (by simp [hrole]), hboundary, hadds⟩
  | castVote request hlearner hvoter =>
    exact ⟨htracks.with_vote (member_of_voting_member hvoter), hboundary, hadds⟩
  | pendExit joint index helects hrole hjoint =>
    rw [htracks.jointConfig] at hjoint
    cases hjoint
  | appendExit exit encoded helects hrole hfresh hexit =>
    rw [htracks.no_exit] at hexit
    cases hexit
  | appendCommand command hrole hoperation =>
    subst hoperation
    exact ⟨htracks.append (by simp [hrole]) (.inr ⟨rfl, hadmits⟩), hboundary, hadds⟩
  | proposeUnencoded cluster change error hoperation =>
    subst hoperation
    exact hadmits.elim
  | proposeChange cluster change encoded hoperation =>
    subst hoperation
    exact hadmits.elim
  | merge source request log hoperation hrole hterm hprevious hlog =>
    subst hoperation
    exact Prepares.merge ⟨htracks, hboundary, hadds⟩ hstart hadmits hterm hlog
  | join cluster entry change hrole happended => exact absurd happended hadmits.not_appended
  | fault change hcluster happended =>
    obtain ⟨entry, happended⟩ := happended
    exact absurd happended hadmits.not_appended
  | addLearner learner hoperation =>
    subst hoperation
    exact hadmits.elim
  | cutLog log commit hsnapshot =>
    cases operation with
    | compactLogPrefix | applySnapshotBoundary | replaceLogWithSnapshotBoundary =>
      exact hadmits.elim
    | _ => exact hsnapshot.elim
  | save hsave =>
    have hcontinues : node.Continues config history start.log :=
      ⟨hboundary, history, prefix_rfl, htracks⟩
    have hmore := (hcontinues.save hsave).2
    obtain ⟨persistence, hpersistence, -⟩ := hsave
    exact ⟨{ htracks with backed := ⟨_, rfl⟩ }, hboundary, hadds.trans hmore⟩

/-- A commit extends the history. -/
theorem Prepares.commit (hnode : Prepares config history start node)
    (hstep : Commit operation node after) :
    after.Continues config history start.log ∧
      Adds saved (RaftPersistentState.Continues config history start.log) start after := by
  have htracks := hnode.tracks
  cases hstep with
  | asLeader commit hcommits hrole hlater hterm =>
    obtain ⟨entry, hentry, -⟩ := Option.map_eq_some_iff.mp hterm
    have hlast := ((node.log.entry_at_is_some _).mp (Option.isSome_of_eq_some hentry)).2
    exact ⟨⟨hnode.boundary, htracks.advance hlater.le hlast⟩, hnode.adds⟩
  | asFollower source request hoperation hrole hlater =>
    have hreached : node.commitIndex ≤ node.log.lastIndex := by
      rw [← htracks.commit]
      exact htracks.log.length_le
    exact ⟨⟨hnode.boundary, htracks.advance (le_min hlater.le hreached) (Nat.min_le_right _ _)⟩,
      hnode.adds⟩

theorem Continues.apply (hnode : node.Continues config history log) (hstep : Apply node after) :
    after.Continues config history log ∧
      Adds saved (RaftPersistentState.Continues config history log) node after := by
  obtain ⟨hboundary, longer, hbegins, htracks⟩ := hnode
  cases hstep with
  | joint cluster change hcommitted => exact absurd hcommitted (htracks.not_committed change)
  | stable change hcommitted => exact absurd hcommitted (htracks.not_committed change)
  | fault change hcluster hcommitted => exact absurd hcommitted (htracks.not_committed change)
  | appendExit exit encoded hrole hbehind hexit =>
    rw [htracks.no_exit] at hexit
    cases hexit
  | advance => exact ⟨⟨hboundary, longer, hbegins, { htracks with }⟩, .of_eq rfl⟩
  | save hsave => exact Continues.save ⟨hboundary, longer, hbegins, htracks⟩ hsave

/-- The program extends the history of the node and of every image it saves, whether it returns or
throws; when it returns, what it has changed is saved. -/
abbrev Proceeds (config : NodeConfig) (history : List LogEntry) {α : Type} (program : RaftM α)
    (node : RaftNode) : Prop :=
  Barrier.Leaves saved program node
    (fun _ final => final.Continues config history node.log ∧ Kept node final) (fun _ => True)
    (RaftPersistentState.Continues config history node.log)

/-- The operations proceed. -/
theorem Tracks.proceeds (hnode : node.Tracks config history) (hadmits : node.Admits operation) :
    Proceeds config history (perform operation) node := by
  have hreaches : ∀ {final}, Phases (Prepare operation) (Commit operation) Apply node final →
      final.Continues config history node.log ∧
        Adds saved (RaftPersistentState.Continues config history node.log) node final := by
    intro final hphases
    refine hphases.reaches (I := Prepares config history node)
      (fun _ _ hstep hprepares => hprepares.prepare hnode hadmits hstep)
      (fun _ hprepares => ⟨hprepares.continues, hprepares.adds⟩)
      (fun _ _ hstep hprepares => hprepares.commit hstep) ?_ ⟨hnode, rfl, .of_eq rfl⟩
    rintro first second hstep ⟨hcontinues, hadds⟩
    exact (hcontinues.apply hstep).imp_right hadds.trans
  obtain ⟨hreturn, hthrow⟩ := phased_perform operation node
  refine ⟨fun result final hrun => ?_, fun error final hrun => ?_⟩
  · obtain ⟨hcontinues, hadds⟩ := hreaches (hreturn result final hrun).1
    exact ⟨⟨hcontinues, ensures_perform hnode.backed operation result final hrun⟩, hadds⟩
  · exact ⟨trivial, (hreaches (hthrow error final hrun)).2⟩

end Phases

/-! ## Starting again -/

theorem Tracks.sound (hnode : node.Tracks config history) (hpositive : 0 < node.currentTerm) :
    node.persistentState.Sound :=
  .of_restore hpositive.ne' hnode.log.restore (hnode.commit.symm.trans_le hnode.log.length_le)
    hnode.log.terms

theorem Tracks.restored_log (hnode : node.Tracks config history) :
    node.persistentState.restoredLog = node.log := by
  have hentries : node.persistentState.entries = node.log.entries := rfl
  rw [RaftPersistentState.restoredLog, hentries, hnode.log.restore]

/-- What a journal says of the membership when nothing has ever changed it: nothing, or what the
configuration says. -/
structure Unchanged (config : NodeConfig) (image : RaftPersistentState) : Prop where
  clusterConfig : image.clusterConfig = none ∨ image.clusterConfig = config.bootstrapCluster
  jointConfig : image.jointConfig = none
  active : image.activeMembershipOperation = none
  completed : image.completedMembershipOperation = none

theorem Tracks.unchanged (hnode : node.Tracks config history) :
    Unchanged config node.persistentState :=
  ⟨.inr hnode.clusterConfig, hnode.jointConfig, hnode.active, hnode.completed⟩

theorem Unchanged.fixed_by {image : RaftPersistentState} (himage : Unchanged config image)
    (barrier : Option RaftPersistence) : (loaded config barrier image).FixedBy config := by
  obtain ⟨hjoint, hcluster, hself, hpeers, hlearners⟩ :=
    started_of_unchanged himage.clusterConfig himage.jointConfig
  exact ⟨hself, hpeers, hlearners, hcluster, hjoint, himage.active, himage.completed, rfl⟩

/-- The membership of an image is valid. -/
theorem Tracks.membership_valid (hnode : node.Tracks config history)
    (hnew : MembershipValid config {}) : MembershipValid config node.persistentState := by
  have hfixed := hnode.unchanged.fixed_by none
  refine ⟨?_, ?_, ?_, ?_, fun candidate hvote => ?_⟩
  · have hconfiguration := hnew.configuration
    rw [ConfigurationValid] at hconfiguration ⊢
    rw [show node.persistentState.clusterConfig = config.bootstrapCluster from hnode.clusterConfig]
    cases hbootstrap : config.bootstrapCluster with
    | none => simp
    | some cluster => exact validate_cluster_of_member (hconfiguration cluster hbootstrap)
  · rw [hnode.unchanged.active]
    rfl
  · rw [hnode.unchanged.completed]
    rfl
  · rw [hnode.unchanged.active]
    simp
  · have hmember := hnode.vote candidate hvote
    rw [isMember, hnode.nodeId, hnode.peers, hnode.learners] at hmember
    rw [isMember, hfixed.nodeId, hfixed.peers, hfixed.learners]
    exact hmember

/-- The latest image of a journal: that of a node with a history, or none and no history. -/
def Latest (config : NodeConfig) (history : List LogEntry) (log : RaftLog)
    (image : RaftPersistentState) : Prop :=
  (image = {} ∧ history = [] ∧ log = .empty) ∨
    ∃ node : RaftNode, 0 < node.currentTerm ∧ node.Tracks config history ∧ node.log = log ∧
      image = node.persistentState

/-- A node is constructed with the history and the log. -/
theorem Latest.construct {barrier : RaftPersistence}
    (himage : Latest config history log barrier.latest) (hchecked : config.Checked)
    (hnew : MembershipValid config {}) (hload : barrier.loadAnswer = .ok ()) :
    RaftNode.construct config (some barrier) = .ok (reconstructed config barrier) ∧
      (reconstructed config barrier).Tracks config history ∧
      (reconstructed config barrier).log = log := by
  have hparts : (barrier.latest = {} ∨ barrier.latest.Sound) ∧
      MembershipValid config barrier.latest ∧ Unchanged config barrier.latest ∧
      barrier.latest.restoredLog = log ∧ log.Carries history barrier.latest.currentTerm ∧
      history.length = barrier.latest.commitIndex := by
    rcases himage with ⟨himage, rfl, rfl⟩ | ⟨node, hpositive, hnode, rfl, himage⟩
    · rw [himage]
      exact ⟨.inl rfl, hnew, ⟨.inl rfl, rfl, rfl, rfl⟩, rfl, .empty, rfl⟩
    · rw [himage]
      exact ⟨.inr (hnode.sound hpositive), hnode.membership_valid hnew, hnode.unchanged,
        hnode.restored_log, hnode.log, hnode.commit⟩
  obtain ⟨hsafety, hmembership, hunchanged, hlog, hcarries, hcommit⟩ := hparts
  have hfixed := hunchanged.fixed_by (some barrier)
  have hpending : (loaded config (some barrier) barrier.latest).recoverPending =
      loaded config (some barrier) barrier.latest := by
    rw [recoverPending, hfixed.jointConfig]
  have hconstructed : reconstructed config barrier =
      (loaded config (some barrier) barrier.latest).resetElectionTimer := by
    rw [reconstructed, hpending]
  refine ⟨(construct_eq_ok_iff hload).mpr ⟨⟨hchecked, hsafety, hmembership⟩, rfl⟩, ?_, ?_⟩
  · rw [hconstructed]
    exact
      { hfixed with
        backed := ⟨barrier, rfl⟩
        log := by
          show barrier.latest.restoredLog.Carries history barrier.latest.currentTerm
          rw [hlog]
          exact hcarries
        commit := hcommit
        term := fun hrole => absurd rfl hrole
        vote := fun candidate hvote => hmembership.vote candidate hvote }
  · rw [hconstructed]
    exact hlog

/-! ## The history a node or an image has reached -/

theorem Continues.tracks (hnode : node.Continues config history log)
    (hfirst : log.firstIndex ≤ history.length) :
    node.Tracks config (RaftLog.committedBy history node.log node.commitIndex) ∧
      history <+: RaftLog.committedBy history node.log node.commitIndex := by
  obtain ⟨hboundary, longer, hbegins, htracks⟩ := hnode
  have hlonger := htracks.log.eq_committed_by hbegins
    (by rw [firstIndex, hboundary]; exact hfirst)
  rw [htracks.commit] at hlonger
  rw [← hlonger]
  exact ⟨htracks, hbegins⟩

theorem Latest.of_continues {image : RaftPersistentState}
    (himage : image.Continues config history log) (hpositive : 0 < image.currentTerm)
    (hfirst : log.firstIndex ≤ history.length) :
    Latest config (RaftLog.committedBy history image.restoredLog image.commitIndex)
        image.restoredLog image ∧
      history <+: RaftLog.committedBy history image.restoredLog image.commitIndex ∧
      image.restoredLog.firstIndex = log.firstIndex := by
  obtain ⟨node, hnode, rfl⟩ := himage
  obtain ⟨htracks, hbegins⟩ := hnode.tracks hfirst
  rw [htracks.restored_log]
  refine ⟨.inr ⟨node, hpositive, htracks, rfl, rfl⟩, hbegins, ?_⟩
  rw [firstIndex, hnode.1, firstIndex]

/-- After an operation the latest image is current. -/
theorem Latest.after {final : RaftNode} (hlatest : Latest config history node.log node.latest)
    (hnode : node.Tracks config history) (hfinal : final.Continues config history node.log)
    (hkept : Kept node final)
    (himages : ∃ added, final.saved = added ++ node.saved ∧ ∀ image ∈ added,
      RaftPersistentState.Continues config history node.log image ∧ 0 < image.currentTerm) :
    Latest config (RaftLog.committedBy history final.log final.commitIndex) final.log
      final.latest := by
  rcases hkept with ⟨hpersistence, hsafety⟩ | hwritten
  · -- Nothing was saved, and nothing changed.
    have hlog : final.log = node.log := by
      have hentries := congrArg SafetyState.entries hsafety
      have hrestore := hnode.log.restore
      rw [← show final.log.entries = node.log.entries from hentries] at hrestore
      exact (restore_entries hrestore).symm
    have hcommit : final.commitIndex = history.length :=
      (congrArg SafetyState.commitIndex hsafety).trans hnode.commit.symm
    have hsame : committedBy history final.log final.commitIndex = history := by
      rw [committedBy, hcommit, Nat.sub_self, take_zero, append_nil]
    rw [hsame, hlog, latest, saved_congr hpersistence]
    exact hlatest
  · obtain ⟨newest, older, hsaved, hnewest, -⟩ := hwritten.journal
    obtain ⟨added, hadded, himages⟩ := himages
    have hmember : newest ∈ added := by
      cases added with
      | nil =>
        have hlength := congrArg length (hsaved.symm.trans hadded)
        simp at hlength
        omega
      | cons first rest =>
        rw [hsaved, cons_append] at hadded
        rw [(cons.inj hadded).1]
        exact mem_cons_self
    have hstart : final.latest = newest := by
      rw [latest, hsaved]
      rfl
    obtain ⟨hcontinued, hpositive⟩ := himages newest hmember
    obtain ⟨himage, -, -⟩ := Latest.of_continues hcontinued hpositive hnode.log.first
    -- The image has the log and the commit index of the node.
    obtain ⟨htracks, -⟩ := hfinal.tracks hnode.log.first
    have hlog : newest.restoredLog = final.log := by
      have hentries : newest.entries = final.log.entries := congrArg SafetyState.entries hnewest
      rw [RaftPersistentState.restoredLog, hentries, htracks.log.restore]
    have hcommit : newest.commitIndex = final.commitIndex :=
      congrArg SafetyState.commitIndex hnewest
    rw [hlog, hcommit] at himage
    rw [hstart]
    exact himage

end RaftNode

end DistributedKV
