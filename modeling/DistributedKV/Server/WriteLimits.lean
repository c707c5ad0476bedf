import DistributedKV.Network.PeerTransport
import DistributedKV.Raft.Node.Roster
import DistributedKV.Server.NodeService
import DistributedKV.Service.PublishCrash

/-!
# Size limits along the write path

A write passes the limits of the client protocol, of the command codec, of the journal and of the
peer protocol. The first two limit key and value, the other two the command that is encoded from
them, with its header of 32 bytes. So a write that the client protocol accepts is saved and sent
exactly when key, value and header together are not longer than a command may be
(`write_limits_iff`).
-/

namespace DistributedKV

open Barrier List RaftKVService KVCommandCodec FileRaftPersistence

namespace RaftJournal

variable {journal : FileRaftPersistence}

open ByteReader

/-! ## Appending one entry to a state -/

/-- The state with one more entry. -/
def appended (state : RaftPersistentState) (entry : LogEntry) : RaftPersistentState :=
  { state with entries := state.entries ++ [entry] }

/-- The entry continues a state that was encoded, and the state has room for it: the number of
entries, the indexes and the size of the image stay within their own limits. -/
structure Continues (state : RaftPersistentState) (entry : LogEntry) : Prop where
  encodable : Encodable state
  extensions : ∃ bytes, appendStateExtensions state = .ok bytes
  index : entry.index = firstIndex state.entries + state.entries.length
  range : entry.index ≤ uint64Max
  term : entry.term ≠ 0
  payload : isValidEntryPayload entry = true
  count : state.entries.length < maximumEntryCount
  room : fieldsSize state + 21 + entry.command.length ≤ maximumPayloadSize

section Entries

variable {entries : List LogEntry} {entry : LogEntry}

theorem entries_valid_append (base offset : Nat) (before after : List LogEntry) :
    entriesValid base offset (before ++ after) =
      (entriesValid base offset before && entriesValid base (offset + before.length) after) := by
  induction before generalizing offset with
  | nil => rfl
  | cons first rest ih =>
    rw [cons_append, entriesValid, entriesValid, ih, length_cons]
    split_ifs
    · rfl
    · rw [Nat.add_assoc, Nat.add_comm 1]

theorem ne_nil_of_validate (hvalid : validateEntries entries = .ok ()) : entries ≠ [] := by
  intro hempty
  rw [hempty] at hvalid
  cases hvalid

/-- A valid log stays valid with the next entry. -/
theorem validate_entries_concat (hvalid : validateEntries entries = .ok ())
    (hindex : entry.index = firstIndex entries + entries.length) (hrange : entry.index ≤ uint64Max)
    (hterm : entry.term ≠ 0) (hpayload : isValidEntryPayload entry = true) :
    validateEntries (entries ++ [entry]) = .ok () := by
  cases entries with
  | nil => cases hvalid
  | cons boundary rest =>
    rw [validateEntries] at hvalid
    rw [cons_append, validateEntries]
    split_ifs at hvalid with hboundary hentries
    rw [if_neg hboundary, if_pos]
    have hfirst : firstIndex (boundary :: rest) = boundary.index := rfl
    rw [hfirst, length_cons] at hindex
    rw [entries_valid_append, hentries, Bool.true_and, entriesValid, if_neg]
    · rfl
    · rw [hpayload]
      simp only [Bool.true_eq_false, or_false, not_or]
      exact ⟨by omega, by omega, hterm⟩

theorem contiguous_of_entries_valid {base offset : Nat}
    (hvalid : entriesValid base offset entries = true) :
    ContiguousFrom (base + offset) entries := by
  induction entries generalizing offset with
  | nil => trivial
  | cons first rest ih =>
    rw [entriesValid] at hvalid
    split_ifs at hvalid with hinvalid
    rw [not_or, not_or, not_ne_iff] at hinvalid
    exact ⟨hinvalid.2.1, ih hvalid⟩

theorem last_index_of_validate (hvalid : validateEntries entries = .ok ()) :
    lastIndex entries + 1 = firstIndex entries + entries.length := by
  cases entries with
  | nil => cases hvalid
  | cons boundary rest =>
    rw [validateEntries] at hvalid
    split_ifs at hvalid with hboundary hentries
    have hlast := RaftLog.last_index_eq
      { boundary, suffix := rest, contiguous := contiguous_of_entries_valid hentries }
    have hback : lastIndex (boundary :: rest) = (rest.getLast?.getD boundary).index := by
      rw [lastIndex, getLast?_cons]
      rfl
    have hfirst : firstIndex (boundary :: rest) = boundary.index := rfl
    simp only [RaftLog.lastIndex, RaftLog.back, RaftLog.firstIndex] at hlast
    rw [hback, hlast, hfirst, length_cons, Nat.add_assoc]

end Entries

namespace Continues

variable {state : RaftPersistentState} {entry : LogEntry}

section Continued

variable (hcontinues : Continues state entry)
include hcontinues

theorem validate :
    validateEntries (appended state entry).entries = .ok () :=
  validate_entries_concat hcontinues.encodable.entries hcontinues.index hcontinues.range
    hcontinues.term hcontinues.payload

theorem commit :
    isValidCommitIndex (appended state entry).commitIndex (appended state entry).entries =
      true := by
  have hcommit := hcontinues.encodable.commit
  have hlast := last_index_of_validate hcontinues.encodable.entries
  have hindex := hcontinues.index
  rw [isValidCommitIndex, Bool.and_eq_true, decide_eq_true_eq] at hcommit ⊢
  refine ⟨by simp [appended], ?_⟩
  have hend : lastIndex (appended state entry).entries = entry.index := by
    rw [appended, lastIndex, getLast?_concat]
    rfl
  have hsame : (appended state entry).commitIndex = state.commitIndex := rfl
  rw [hend, hsame]
  omega

/-- Only the size of the command is left to refuse. -/
theorem validate_entry_payload :
    validateEntryPayload entry state.entries.length (firstIndex state.entries) = .ok () ↔
      entry.command.length ≤ maximumCommandSize := by
  have hwidth : maximumCommandSize < 2 ^ 32 - 1 := by decide
  have hindex : entry.index =
      (firstIndex state.entries + state.entries.length) % 2 ^ 64 := by
    have hrange := hcontinues.range
    rw [uint64Max] at hrange
    rw [← hcontinues.index, Nat.mod_eq_of_lt (by omega)]
  rw [validateEntryPayload]
  split_ifs with hinvalid
  · rw [hcontinues.payload] at hinvalid
    refine iff_of_false (by simp) fun hshort => ?_
    rcases hinvalid with hother | hother | hother | hother | hother
    · exact hother hindex
    · exact hcontinues.term hother
    · cases hother
    · omega
    · omega
  · refine iff_of_true rfl ?_
    omega

/-- An image is written when the command is not too long. -/
theorem encode_state_iff : (∃ payload, encodeState (appended state entry) = .ok payload) ↔
      entry.command.length ≤ maximumCommandSize := by
  constructor
  · intro hencoded
    obtain ⟨payload, hencode⟩ := hencoded
    exact (encode_state_eq_ok.mp hencode).1.commands entry (by simp [appended])
  · intro hshort
    obtain ⟨extensions, hextensions⟩ := hcontinues.extensions
    have hroom := hcontinues.room
    have hcount := hcontinues.count
    refine ⟨_, encode_state_eq_ok.mpr ⟨⟨?_, hcontinues.validate, hcontinues.commit, ?_⟩, ?_,
      extensions, hextensions, rfl⟩⟩
    · rw [appended, length_append, length_singleton]
      omega
    · intro other hother
      rcases mem_append.mp hother with hother | hother
      · exact hcontinues.encodable.commands other hother
      · rw [mem_singleton.mp hother]
        exact hshort
    · rw [fieldsSize] at hroom ⊢
      rw [appended, entries_size_append, entries_size_cons, entries_size_nil]
      omega

/-- A delta consists of its metadata and the entry. -/
theorem encode_delta_eq :
    encodeDelta state (appended state entry) =
      appendDeltaEntries (firstIndex state.entries) state.entries.length [entry]
        (appendMetadata (appended state entry) ++ append64 state.entries.length ++ append32 1) := by
  have hnonempty := ne_nil_of_validate hcontinues.encodable.entries
  have hpositive : 0 < state.entries.length := length_pos_iff.mpr hnonempty
  have hcount := hcontinues.count
  have hcommon : commonPrefix state.entries (appended state entry).entries =
      state.entries.length := common_start_append ..
  have hlength : (appended state entry).entries.length = state.entries.length + 1 := by
    rw [appended, length_append, length_singleton]
  have hdrop : (appended state entry).entries.drop state.entries.length = [entry] :=
    drop_left
  have hfirst : firstIndex (appended state entry).entries = firstIndex state.entries := by
    obtain ⟨boundary, rest, hentries⟩ := exists_cons_of_ne_nil hnonempty
    rw [appended, firstIndex, firstIndex, hentries]
    rfl
  have hlater : ¬ ((appended state entry).currentTerm < state.currentTerm ∨
      (appended state entry).commitIndex < state.commitIndex) := by
    simp [appended]
  have hsizes : ¬ (maximumEntryCount < state.entries.length + 1 ∨
      isValidCommitIndex (appended state entry).commitIndex (appended state entry).entries =
        false) := by
    rw [hcontinues.commit]
    simp only [Bool.true_eq_false, or_false]
    omega
  have hshared : ¬ (state.entries.length = 0 ∨ uint64Max < state.entries.length) := by
    rw [maximumEntryCount] at hcount
    rw [uint64Max]
    omega
  rw [encodeDelta, if_neg hlater, hcontinues.validate, hcontinues.encodable.entries]
  simp only [bind, Except.bind, hcommon, hlength, hdrop, hfirst, Nat.add_sub_cancel_left]
  rw [if_neg hsizes, if_neg hshared, if_neg (by decide)]

/-- A delta is written when the command is not too long. -/
theorem encode_delta_iff : (∃ payload, encodeDelta state (appended state entry) = .ok payload) ↔
      entry.command.length ≤ maximumCommandSize := by
  rw [← hcontinues.validate_entry_payload, hcontinues.encode_delta_eq, appendDeltaEntries]
  cases hvalid : validateEntryPayload entry state.entries.length (firstIndex state.entries) with
  | error error => exact iff_of_false (by simp) (by simp)
  | ok _ =>
    -- the image with the boundary and this entry is longer than the delta
    have hroom := hcontinues.room
    have hboundary : 21 ≤ entriesSize state.entries := by
      obtain ⟨boundary, rest, hentries⟩ :=
        exists_cons_of_ne_nil (ne_nil_of_validate hcontinues.encodable.entries)
      rw [hentries, entries_size_cons]
      omega
    rw [fieldsSize] at hroom
    refine iff_of_true ⟨_, if_neg ?_⟩ rfl
    simp only [length_append, length_append_metadata, append64, append32,
      length_big_endian, length_append_entry]
    omega

/-- There is a record when the command is not too long. -/
theorem record_iff (hlast : ∀ previous, journal.lastState = some previous → previous = state) :
    (∃ record, journal.record (appended state entry) = .ok record) ↔
      entry.command.length ≤ maximumCommandSize := by
  have hfull : (∃ record, fullRecord (appended state entry) = .ok record) ↔
      entry.command.length ≤ maximumCommandSize := by
    rw [← hcontinues.encode_state_iff, fullRecord]
    cases encodeState (appended state entry) <;> simp [bind, Except.bind, pure, Except.pure]
  have hdelta : (∃ record, deltaRecord state (appended state entry) =
      .ok record) ↔ entry.command.length ≤ maximumCommandSize := by
    rw [← hcontinues.encode_delta_iff, deltaRecord]
    cases encodeDelta state (appended state entry) <;> simp [bind, Except.bind, pure, Except.pure]
  rw [record]
  cases hsaved : journal.lastState with
  | none => exact hfull
  | some previous =>
    rw [hlast previous hsaved]
    dsimp only
    split_ifs
    · exact hdelta
    · exact hfull

/-- The state is saved when the command is not too long. -/
theorem save_iff {opened : FileRaftPersistence} (hopened : journal.openLocked = .ok opened)
    (hlast : ∀ previous, opened.lastState = some previous → previous = state) :
    (∃ saved, journal.save (appended state entry) = .ok saved) ↔
      entry.command.length ≤ maximumCommandSize := by
  rw [← hcontinues.record_iff hlast]
  constructor
  · intro hsaved
    obtain ⟨saved, hsave⟩ := hsaved
    obtain ⟨longer, happend, -⟩ := except_bind_eq_ok.mp hsave
    obtain ⟨same, hsame, happend⟩ := except_bind_eq_ok.mp happend
    cases hopened.symm.trans hsame
    obtain ⟨record, hrecord, -⟩ := except_bind_eq_ok.mp happend
    exact ⟨record, hrecord⟩
  · intro hrecorded
    obtain ⟨record, hrecord⟩ := hrecorded
    -- a compaction writes the whole image, which the same limit admits
    obtain ⟨payload, hpayload⟩ :=
      hcontinues.encode_state_iff.mpr ((hcontinues.record_iff hlast).mp ⟨record, hrecord⟩)
    obtain ⟨-, saved, -, hsave⟩ :=
      save_of_record hopened hrecord hpayload
    exact ⟨saved, hsave⟩

end Continued

end Continues

end RaftJournal

open RaftJournal

/-! ## Proposing a command -/

namespace RaftNode

/-- The entry that a proposal appends. -/
def proposedEntry (node : RaftNode) (command : Bytes) : LogEntry where
  index := node.log.lastIndex + 1
  term := node.currentTerm
  type := .command
  command

/-- The node that has appended a command and has not saved yet. -/
def proposed (node : RaftNode) (command : Bytes) : RaftNode :=
  { node with log := node.log.append node.currentTerm .command command }

/-- A leader over a journal in which nothing but the size of one command can stand in the way of a
save: the journal opens and holds the state of the node, no change of the membership waits to be
applied, and the number of entries, the indexes and the size of the image leave room for a command
of some size. -/
structure Ready (node : RaftNode) (start : FileRaftPersistence) (size : Nat) : Prop where
  role : node.role = .leader
  nodeId : node.config.nodeId ≠ 0
  term : node.currentTerm ≠ 0
  filed : node.Filed start
  opened : ∃ opened, (node.file start).openLocked = .ok opened
  last : ∀ previous, (node.file start).lastState = some previous → previous = node.persistentState
  configured : ∀ index entry, node.configurationAppliedIndex < index →
    node.log.entryAt index = some entry → entry.type ≠ .confChange
  encodable : Encodable node.persistentState
  extensions : ∃ bytes, appendStateExtensions node.persistentState = .ok bytes
  range : node.log.lastIndex < uint64Max
  count : node.persistentState.entries.length < maximumEntryCount
  room : fieldsSize node.persistentState + 21 + size ≤ maximumPayloadSize

section Proposal

variable {node : RaftNode} {start : FileRaftPersistence} {command : Bytes}

theorem propose_leader (hrole : node.role = .leader) (command : Bytes) :
    propose command node =
      (do
        persistOrThrow
        advanceCommitIndex
        let leader ← get
        pure { accepted := true, index := node.log.lastIndex + 1
               outbound := leader.replicateToAll } : RaftM ProposeResult)
        (node.proposed command) := by
  rw [propose, get_bind, if_neg (not_not.mpr hrole), set_bind]
  rfl

theorem Ready.continues (hready : node.Ready start command.length) (hcommand : command ≠ []) :
    RaftJournal.Continues node.persistentState (node.proposedEntry command) := by
  refine ⟨hready.encodable, hready.extensions, ?_, hready.range, hready.term, ?_, hready.count,
    hready.room⟩
  · have hlast := node.log.last_index_eq
    have hlength : node.persistentState.entries.length = node.log.suffix.length + 1 := rfl
    have hfirst : RaftJournal.firstIndex node.persistentState.entries = node.log.firstIndex := rfl
    rw [hlength, hfirst, proposedEntry, hlast, Nat.add_assoc]
  · rw [isValidEntryPayload, proposedEntry]
    simpa using hcommand

theorem Ready.save_iff (hready : node.Ready start command.length) (hcommand : command ≠ []) :
    (∃ saved, (node.file start).save (node.proposed command).persistentState = .ok saved) ↔
      command.length ≤ maximumCommandSize := by
  obtain ⟨opened, hopened⟩ := hready.opened
  refine (hready.continues hcommand).save_iff hopened ?_
  rw [(open_locked_last hopened).1]
  exact hready.last

theorem propose_throws (hready : node.Ready start command.length) (hcommand : command ≠ [])
    (hlong : maximumCommandSize < command.length) :
    ∃ message final, propose command node = .error message final := by
  have hfiled : (node.proposed command).Filed start := hready.filed
  cases hsave : (node.file start).save (node.proposed command).persistentState with
  | ok saved => exact absurd ((hready.save_iff hcommand).mp ⟨saved, hsave⟩) (Nat.not_le.mpr hlong)
  | error error =>
    have hpersist := hfiled.persist_eq
    rw [show ((node.proposed command).file start).save _ = _ from hsave] at hpersist
    rw [propose_leader hready.role, bind_of_error hpersist]
    exact ⟨_, _, rfl⟩

/-- The node has a log, and its state is in its journal. -/
structure InFile (node : RaftNode) (log : RaftLog) (start : FileRaftPersistence) : Prop where
  log : node.log = log
  filed : node.Filed start
  saved : (node.file start).lastState = some node.persistentState

/-- What a leader commits it saves. -/
theorem InFile.advance {log : RaftLog} (hnode : node.InFile log start)
    (hopened : (node.file start).openLocked = .ok (node.file start))
    (hencodable : Encodable node.persistentState)
    (hsize : fieldsSize node.persistentState ≤ maximumPayloadSize)
    (hextensions : ∃ bytes, appendStateExtensions node.persistentState = .ok bytes)
    (hconfigured : ∀ index entry, node.configurationAppliedIndex < index →
      node.log.entryAt index = some entry → entry.type ≠ .confChange) :
    ∃ final, advanceCommitIndex node = .ok () final ∧ final.InFile log start := by
  rw [advanceCommitIndex, get_bind]
  split_ifs with hrole
  · exact ⟨node, rfl, hnode⟩
  dsimp only
  split_ifs with hsame
  case neg => exact ⟨node, rfl, hnode⟩
  generalize hcommit : node.committableIndex (node.log.lastIndex - node.commitIndex) = commit at *
  have hspec := node.committable_index_spec (node.log.lastIndex - node.commitIndex)
  rw [hcommit] at hspec
  obtain ⟨hlater, hterm, -⟩ := hspec.resolve_left hsame
  obtain ⟨cursor, hcursor⟩ : ∃ cursor, applyCommittedConfiguration
      { node with commitIndex := commit } =
        .ok () { node with commitIndex := commit, configurationAppliedIndex := cursor } := by
    rw [applyCommittedConfiguration, get_bind]
    exact apply_committed_loop_plain _ { node with commitIndex := commit } hconfigured
  let moved : RaftNode :=
    { node with commitIndex := commit, configurationAppliedIndex := cursor }
  have hmoved : moved.Filed start := hnode.filed
  have himage : Encodable moved.persistentState := by
    refine { hencodable with commit := ?_ }
    have hlast := last_index_of_validate hencodable.entries
    have hends := RaftLog.le_last_index_of_term_at hterm
    have hlog := node.log.last_index_eq
    have hlength : node.persistentState.entries.length = node.log.suffix.length + 1 := rfl
    have hfirst : RaftJournal.firstIndex node.persistentState.entries = node.log.firstIndex := rfl
    show isValidCommitIndex commit node.persistentState.entries = true
    rw [isValidCommitIndex, Bool.and_eq_true, decide_eq_true_eq]
    exact ⟨by simp [persistentState, RaftLog.persistentEntries, RaftLog.entries], by omega⟩
  obtain ⟨bytes, hbytes⟩ := hextensions
  have hlast : ∀ previous, (moved.file start).lastState = some previous →
      previous.entries ≠ [] → previous = node.persistentState := by
    intro previous hprevious _
    rw [show (moved.file start).lastState = _ from hnode.saved] at hprevious
    exact (Option.some.inj hprevious).symm
  obtain ⟨later, hsave⟩ : ∃ later, (moved.file start).save moved.persistentState = .ok later :=
    save_accepted hopened hlast
      ⟨_, encode_state_eq_ok.mpr ⟨himage, hsize, bytes, hbytes, rfl⟩⟩
      fun _ => encode_delta_same himage rfl le_rfl hlater.le
  have hpersist := hmoved.persist_eq
  rw [hsave] at hpersist
  obtain ⟨hfiled, hfile⟩ := hmoved.recorded hsave
  refine ⟨moved.recorded, ?_, hnode.log, hfiled, ?_⟩
  · rw [set_bind, bind_of_ok hcursor]
    exact hpersist
  · rw [hfile]
    exact (save_spec hsave).1

/-- A proposal that is not too long is taken and saved. -/
theorem Ready.propose_returns (hready : node.Ready start command.length) (hcommand : command ≠ [])
    (hshort : command.length ≤ maximumCommandSize) :
    ∃ result final, propose command node = .ok result final ∧ result.accepted = true ∧
      result.index = node.log.lastIndex + 1 ∧ final.InFile (node.proposed command).log start := by
  have hfiled : (node.proposed command).Filed start := hready.filed
  obtain ⟨saved, hsave⟩ := (hready.save_iff hcommand).mpr hshort
  change ((node.proposed command).file start).save _ = _ at hsave
  have hpersist := hfiled.persist_eq
  rw [hsave] at hpersist
  obtain ⟨hrecorded, hfile⟩ := hfiled.recorded hsave
  obtain ⟨hlast, hopened, -⟩ := save_spec hsave
  obtain ⟨payload, hencode⟩ := (hready.continues hcommand).encode_state_iff.mpr hshort
  obtain ⟨hencodable, hsize, bytes, hbytes, -⟩ := encode_state_eq_ok.mp hencode
  rw [← hfile] at hlast hopened
  have hnode : (node.proposed command).recorded.InFile (node.proposed command).log start :=
    ⟨rfl, hrecorded, hlast⟩
  have hconfigured : ∀ index entry, node.configurationAppliedIndex < index →
      (node.proposed command).log.entryAt index = some entry → entry.type ≠ .confChange := by
    intro index entry hindex hentry
    rcases entry_at_append_cases node.log hentry with hold | ⟨-, rfl⟩
    · exact hready.configured index entry hindex hold
    · exact EntryType.noConfusion
  obtain ⟨final, hadvance, hfinal⟩ :=
    hnode.advance hopened hencodable hsize ⟨bytes, hbytes⟩ hconfigured
  refine ⟨{ accepted := true, index := node.log.lastIndex + 1, outbound := final.replicateToAll },
    final, ?_, rfl, rfl, hfinal⟩
  rw [propose_leader hready.role, bind_of_ok hpersist, bind_of_ok hadvance]
  rfl

end Proposal

end RaftNode

/-! ## From the client to the journal and the peers -/

/-- The size of a command with its header. -/
def KVCommand.encodedSize (command : KVCommand) : Nat :=
  commandHeaderSize + command.key.length + command.value.length

/-- An accepted request is encoded as a command. -/
theorem encode_of_decode_request {error : String} {frame : Frame} {request : Request}
    {command : KVCommand} (hdecode : Protocol.decodeRequest error frame = .ok request)
    (hcommand : request.command = some command) :
    ∃ encoded, KVCommandCodec.encode command = .ok encoded ∧
      encoded.length = command.encodedSize := by
  obtain ⟨-, -, -, ⟨hclient, hrequest, hfields⟩, -⟩ := Protocol.decode_request_eq_ok.mp hdecode
  have hencodes : command.clientId ≠ 0 → command.requestId ≠ 0 →
      command.key.length ≤ maximumCommandKeySize →
      command.value.length ≤ maximumCommandValueSize →
      (command.type = .delete → command.value = []) →
      ∃ encoded, KVCommandCodec.encode command = .ok encoded ∧
        encoded.length = command.encodedSize := by
    intro hid hserial hkey hvalue hdelete
    refine ⟨header command ++ command.key ++ command.value, ?_, ?_⟩
    · rw [encode, if_neg (by simp [hid, hserial]), if_neg]
      intro hlimits
      rcases hlimits with hlong | hlong | ⟨htype, hnonempty⟩
      · omega
      · omega
      · exact hnonempty (hdelete htype)
    · rw [length_append, length_append, length_header,
        KVCommand.encodedSize]
  rw [Request.command] at hcommand
  rw [Protocol.FieldsAccepted] at hfields
  cases htype : request.type with
  | setRequest =>
    rw [htype] at hcommand hfields
    cases hcommand
    exact hencodes hclient hrequest hfields.2.1 hfields.2.2 fun h => by cases h
  | deleteRequest =>
    rw [htype] at hcommand hfields
    cases hcommand
    refine hencodes hclient hrequest hfields.2 ?_ fun _ => hfields.1.2
    dsimp only
    rw [hfields.1.2]
    exact Nat.zero_le _
  | _ =>
    rw [htype] at hcommand
    cases hcommand

/-- When a message with one entry is encoded. -/
theorem encode_single_entry_iff {source : NodeId} (hsource : source ≠ 0)
    (rpc : AppendEntriesRequest) (entry : LogEntry) :
    (∃ bytes, RaftProtocol.encode source (.appendEntries { rpc with entries := [entry] }) =
        .ok bytes) ↔ entry.command.length ≤ RaftProtocol.maximumCommandSize := by
  simp only [RaftProtocol.encode_eq_ok]
  constructor
  · intro hencoded
    obtain ⟨bytes, -, ⟨-, hcommands⟩, -⟩ := hencoded
    exact hcommands entry (mem_singleton_self entry)
  · intro hshort
    refine ⟨_, hsource, ⟨by simp [RaftProtocol.maximumEntriesPerFrame], fun other hother => ?_⟩, ?_,
      rfl⟩
    · rw [mem_singleton.mp hother]
      exact hshort
    · rw [RaftProtocol.length_append_entries_message, entries_size_cons, entries_size_nil,
        RaftProtocol.maximumFrameSize]
      rw [RaftProtocol.maximumCommandSize] at hshort
      omega

theorem submit_throws {command : KVCommand} {encoded : Bytes}
    (hencode : KVCommandCodec.encode command = .ok encoded)
    (hlong : maximumCommandSize < encoded.length) {service : RaftKVService}
    {start : FileRaftPersistence} (hready : service.raftNode.Ready start encoded.length) :
    ∃ message final, RaftKVService.submit command service = .error message final := by
  have hnonempty : encoded ≠ [] := by
    intro hempty
    rw [hempty] at hlong
    exact absurd hlong (by decide)
  obtain ⟨message, final, hthrows⟩ := RaftNode.propose_throws hready hnonempty hlong
  refine ⟨message, { service with raftNode := final }, ?_⟩
  rw [submit, hencode]
  refine bind_of_error ?_
  rw [onNode, hthrows]

/-- A submission that the node takes returns. -/
theorem submit_returns {command : KVCommand} {encoded : Bytes}
    (hencode : KVCommandCodec.encode command = .ok encoded) {service : RaftKVService}
    {proposal : ProposeResult} {node : RaftNode}
    (hpropose : RaftNode.propose encoded service.raftNode = .ok proposal node)
    (haccepted : proposal.accepted = true) :
    ∃ answer final, RaftKVService.submit command service = .ok answer final ∧
      answer.1.logIndex = proposal.index ∧ final.raftNode = node := by
  have hreturns : Returns journal
      (submitAccepted proposal.index proposal.outbound)
      { service with raftNode := node }
      (fun answer final => answer.1.logIndex = proposal.index ∧ final.raftNode = node)
      fun _ => True := by
    rw [submitAccepted]
    refine .modify_bind rfl ?_
    generalize hpended : ({ { service with raftNode := node } with
      pendingLocal := insert proposal.index service.pendingLocal } : RaftKVService) = pended
    have hnode : pended.caughtUp.1.raftNode = node := by
      rw [caught_up_framed.raftNode, ← hpended]
    have hjournal : pended.caughtUp.1.journal = pended.journal := by
      rw [journal, caught_up_framed.raftNode, journal]
    refine .bind_ok (show applyCommitted pended = .ok _ _ from rfl) hjournal ?_
    split
    · exact .pure ⟨rfl, hnode⟩
    have hsent : ∀ {taken : RaftKVService}, taken.raftNode = node →
        Returns journal (finalizeOutbound proposal.outbound) taken
          (fun _ final => final.raftNode = node) fun _ => True := by
      intro taken htaken
      obtain ⟨sent, sends, hrun⟩ := finalize_outbound_run proposal.outbound taken
      exact .of_ok hrun htaken (.of_eq rfl)
    refine .bind_ok rfl rfl (.bind (hsent hnode) fun sent final hfinal => ?_)
    dsimp only
    split_ifs
    · exact .pure ⟨rfl, hfinal⟩
    · split <;> exact .pure ⟨rfl, hfinal⟩
  obtain ⟨answer, final, hrun, hpost, -⟩ := hreturns.elim
  refine ⟨answer, final, ?_, hpost⟩
  rw [submit, hencode]
  dsimp only
  rw [bind_of_ok (on_node_of_ok hpropose), if_pos haccepted, hrun]

/-- A submission has put the encoded command into the log, the journal has saved it, and the
journal and the peer protocol accept it. -/
structure WriteAccepted (service : RaftKVService) (start : FileRaftPersistence) (encoded : Bytes)
    (rpc : AppendEntriesRequest) (answer : SubmitResult × String) (final : RaftKVService)
    (entry : LogEntry) : Prop where
  held : final.raftNode.log.entryAt answer.1.logIndex = some entry
  command : entry.command = encoded
  filed : final.raftNode.Filed start
  saved : (final.raftNode.file start).lastState = some final.raftNode.persistentState
  payload : validateEntryPayload entry service.raftNode.persistentState.entries.length
    (RaftJournal.firstIndex service.raftNode.persistentState.entries) = .ok ()
  image : ∃ payload,
    encodeState (appended service.raftNode.persistentState entry) = .ok payload
  message : ∃ bytes, RaftProtocol.encode service.raftNode.config.nodeId
    (.appendEntries { rpc with entries := [entry] }) = .ok bytes

/-- A node that leads two others in term 1, over a new journal. -/
def newLeader : RaftNode where
  config := { nodeId := 1, peers := [2, 3] }
  persistence := some (FileRaftPersistence.barrier {} {})
  role := .leader
  currentTerm := 1
  votedFor := some 1
  log := RaftLog.empty.append 1 .noOp []

theorem new_leader_ready {size : Nat} (hsize : size ≤ 2 * maximumCommandSize) :
    newLeader.Ready {} size := by
  refine ⟨rfl, by decide, by decide, ⟨{}, [], rfl, trivial⟩, ⟨_, rfl⟩,
    fun previous hprevious => (by cases hprevious), fun index entry _ hentry => ?_,
    ⟨by decide, rfl, by decide, ?_⟩, ⟨_, rfl⟩, by decide, by decide, ?_⟩
  · have hmember := newLeader.log.entry_at_mem hentry
    simp only [newLeader, RaftLog.entries, RaftLog.append, RaftLog.empty, nil_append,
      mem_cons, not_mem_nil, or_false] at hmember
    rcases hmember with rfl | rfl <;> decide
  · intro entry hentry
    simp only [newLeader, RaftNode.persistentState, RaftLog.persistentEntries, RaftLog.entries,
      RaftLog.append, RaftLog.empty, nil_append, mem_cons, not_mem_nil,
      or_false] at hentry
    rcases hentry with rfl | rfl <;> exact Nat.zero_le _
  · have hfields : fieldsSize newLeader.persistentState = 71 := rfl
    rw [hfields, maximumPayloadSize]
    rw [maximumCommandSize] at hsize
    omega

/-- A request to set a key of one byte. -/
def setRequest (value : Bytes) : Request where
  type := .setRequest
  requestId := 1
  clientId := 1
  key := [107]
  value

/-- The frame of such a request. -/
def setFrame (value : Bytes) : Frame where
  type := .setRequest
  flags := 0
  requestId := 1
  body := Protocol.requestBody (setRequest value)

theorem decode_set_frame {value : Bytes} (hvalue : value.length ≤ Protocol.maxValueSize) :
    Protocol.decodeRequest "" (setFrame value) = .ok (setRequest value) := by
  have hnonzero : (1 : UInt64) ≠ 0 := by decide
  have hkey : [(107 : UInt8)].length ≤ Protocol.maxKeySize := by decide
  exact Protocol.decode_request_eq_ok.mpr ⟨⟨rfl, rfl⟩, rfl, rfl,
    ⟨hnonzero, hnonzero, ⟨rfl, rfl, rfl, rfl, rfl, rfl⟩, hkey, hvalue⟩, rfl⟩

theorem command_set_request (value : Bytes) :
    (setRequest value).command = some (setCommand value) := rfl

theorem encoded_size_set_command (value : Bytes) :
    (setCommand value).encodedSize = 33 + value.length := rfl

/-- A value of 1 MiB. -/
def longestValue : Bytes := List.replicate Protocol.maxValueSize 0

end DistributedKV
