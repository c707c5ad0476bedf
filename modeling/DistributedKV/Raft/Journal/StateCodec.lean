import DistributedKV.Foundation.Crc
import DistributedKV.Raft.ClusterConfig
import DistributedKV.Raft.Node.State

/-!
# Images of the persistent state

The two payloads of the journal of `src/raft/file_raft_persistence.cpp`: a whole state, and the
changes from one state to a later one with the same boundary and the same configurations. A delta
keeps the entries that both logs share and carries the others. Values of fixed width are natural
numbers that are cut down when they are written.
-/

namespace DistributedKV

open ByteReader

namespace RaftJournal

/-- `kMaximumPayloadSize`. -/
def maximumPayloadSize : Nat := 64 * 1024 * 1024

/-- `kMaximumCommandSize`. -/
def maximumCommandSize : Nat := 1024 * 1024

/-- `kMaximumEntryCount`. -/
def maximumEntryCount : Nat := 1000000

/-- `kStateExtensionVersion`. -/
def stateExtensionVersion : Nat := 2

/-- The CRC-32C of a byte string. -/
def crc32c (bytes : Bytes) : UInt32 := Crc.checksum 0x82f63b78 bytes

/-! ## Validation -/

/-- The code of an entry type. -/
def typeCode : EntryType → UInt8
  | .noOp => 0
  | .command => 1
  | .confChange => 2

/-- The entry type with a code, if there is one. -/
def typeOfCode (code : Nat) : Option EntryType :=
  if code = 0 then some .noOp
  else if code = 1 then some .command
  else if code = 2 then some .confChange
  else none

/-- A no-op has no bytes, every other entry has some. -/
def isValidEntryPayload (entry : LogEntry) : Bool :=
  match entry.type with
  | .noOp => entry.command == []
  | .command | .confChange => entry.command != []

/-- The loop of `validateEntries` over the entries behind the boundary. -/
def entriesValid (base : Nat) : Nat → List LogEntry → Bool
  | _, [] => true
  | offset, entry :: rest =>
    if uint64Max - offset < base ∨ entry.index ≠ base + offset ∨ entry.term = 0 ∨
        isValidEntryPayload entry = false then false
    else entriesValid base (offset + 1) rest

/-- Validate a log with its boundary. -/
def validateEntries : List LogEntry → Except String Unit
  | [] => .error "Raft log has invalid boundary"
  | boundary :: rest =>
    if RaftLog.boundaryValid boundary = false then .error "Raft log has invalid boundary"
    else if entriesValid boundary.index 1 rest then .ok ()
    else .error "Raft log is not contiguous and valid"

/-- The index of the boundary. -/
def firstIndex (entries : List LogEntry) : Nat := (entries.head?.map LogEntry.index).getD 0

/-- The index of the last entry. -/
def lastIndex (entries : List LogEntry) : Nat := (entries.getLast?.map LogEntry.index).getD 0

/-- The commit index lies in the log. -/
def isValidCommitIndex (commitIndex : Nat) (entries : List LogEntry) : Bool :=
  entries != [] && decide (commitIndex ≤ lastIndex entries)

/-- Validate an entry of a delta at an offset behind the boundary. -/
def validateEntryPayload (entry : LogEntry) (offset base : Nat) : Except String Unit :=
  if entry.index ≠ (base + offset) % 2 ^ 64 ∨ entry.term = 0 ∨ isValidEntryPayload entry = false ∨
      maximumCommandSize < entry.command.length ∨ 2 ^ 32 - 1 < entry.command.length then
    .error "Raft entry is invalid"
  else .ok ()

/-! ## Writing -/

/-- A flag, and the length and bytes of an encoded value when there is one. -/
def appendOptional {α : Type} (encode : α → Except String Bytes) :
    Option α → Except String Bytes
  | none => .ok [0]
  | some value => do
      let encoded ← encode value
      pure ([1] ++ append32 encoded.length ++ encoded)

/-- An optional configuration. -/
def appendOptionalConfiguration (config : Option ClusterConfiguration) : Except String Bytes :=
  appendOptional encodeClusterConfiguration config

/-- An optional membership operation. -/
def appendOptionalMembershipOperation (operation : Option MembershipOperation) :
    Except String Bytes :=
  appendOptional encodeMembershipOperation operation

/-- The configurations and operations of a state. -/
def appendStateExtensions (state : RaftPersistentState) : Except String Bytes := do
  let cluster ← appendOptionalConfiguration state.clusterConfig
  let joint ← appendOptionalConfiguration state.jointConfig
  let active ← appendOptionalMembershipOperation state.activeMembershipOperation
  let completed ← appendOptionalMembershipOperation state.completedMembershipOperation
  pure (append32 stateExtensionVersion ++ cluster ++ joint ++ active ++ completed)

/-- One entry. -/
def appendEntry (entry : LogEntry) : Bytes :=
  append64 entry.index ++ append64 entry.term ++ [typeCode entry.type] ++
    append32 entry.command.length ++ entry.command

/-- The bytes that some entries take, in an image and in a message. -/
def entriesSize (entries : List LogEntry) : Nat :=
  (entries.map fun entry => 21 + entry.command.length).sum

@[simp] theorem entries_size_nil : entriesSize [] = 0 := rfl

@[simp] theorem entries_size_cons (entry : LogEntry) (rest : List LogEntry) :
    entriesSize (entry :: rest) = 21 + entry.command.length + entriesSize rest := rfl

@[simp] theorem entries_size_append (before after : List LogEntry) :
    entriesSize (before ++ after) = entriesSize before + entriesSize after := by
  rw [entriesSize, List.map_append, List.sum_append]
  rfl

/-- Term, vote and commit index, the common start of both payloads. -/
def appendMetadata (state : RaftPersistentState) : Bytes :=
  append64 state.currentTerm ++ [if state.votedFor.isSome then 1 else 0] ++
    append64 (state.votedFor.getD 0).toNat ++ append64 state.commitIndex

/-- The entry loop of `encodeState`. -/
def appendStateEntries : List LogEntry → Bytes → Except String Bytes
  | [], output => .ok output
  | entry :: rest, output =>
    if maximumCommandSize < entry.command.length ∨ 2 ^ 32 - 1 < entry.command.length then
      .error "Raft command exceeds persistent limit"
    else if maximumPayloadSize < (output ++ appendEntry entry).length then
      .error "Raft state image exceeds persistent limit"
    else appendStateEntries rest (output ++ appendEntry entry)

/-- The payload of a whole state. -/
def encodeState (state : RaftPersistentState) : Except String Bytes :=
  if maximumEntryCount < state.entries.length ∨ 2 ^ 32 - 1 < state.entries.length then
    .error "invalid Raft state image"
  else do
    validateEntries state.entries
    if isValidCommitIndex state.commitIndex state.entries = false then
      .error "invalid Raft state image"
    else
      let output ← appendStateEntries state.entries
        (appendMetadata state ++ append32 state.entries.length)
      let extensions ← appendStateExtensions state
      pure (output ++ extensions)

/-- The number of entries that two logs share at their start. -/
def commonPrefix : List LogEntry → List LogEntry → Nat
  | first :: previous, second :: entries =>
    if first = second then commonPrefix previous entries + 1 else 0
  | _, _ => 0

/-- The entry loop of `encodeDelta`. -/
def appendDeltaEntries (base : Nat) : Nat → List LogEntry → Bytes → Except String Bytes
  | _, [], output => .ok output
  | offset, entry :: rest, output =>
    match validateEntryPayload entry offset base with
    | .error _ => .error "incremental Raft suffix contains an invalid entry"
    | .ok () =>
      if maximumPayloadSize < (output ++ appendEntry entry).length then
        .error "incremental Raft state exceeds persistent limit"
      else appendDeltaEntries base (offset + 1) rest (output ++ appendEntry entry)

/-- The payload of the changes from one state to the next. -/
def encodeDelta (previous state : RaftPersistentState) : Except String Bytes :=
  if state.currentTerm < previous.currentTerm ∨ state.commitIndex < previous.commitIndex then
    .error "invalid incremental Raft state"
  else do
    validateEntries state.entries
    validateEntries previous.entries
    if maximumEntryCount < state.entries.length ∨
        isValidCommitIndex state.commitIndex state.entries = false then
      .error "invalid incremental Raft state"
    else
      let common := commonPrefix previous.entries state.entries
      let appendCount := state.entries.length - common
      if common = 0 ∨ uint64Max < common then
        .error "incremental Raft state changed the boundary"
      else if 2 ^ 32 - 1 < appendCount then .error "incremental Raft suffix is too large"
      else
        appendDeltaEntries (firstIndex state.entries) common (state.entries.drop common)
          (appendMetadata state ++ append64 common ++ append32 appendCount)

/-! ## Reading -/

/-- An entry as it is stored: its type is a byte that may not stand for any. -/
structure StoredEntry where
  index : Nat
  term : Nat
  code : Nat
  command : Bytes

/-- The entry that is stored, when its type exists. -/
def StoredEntry.entry (stored : StoredEntry) : Option LogEntry :=
  (typeOfCode stored.code).map fun type =>
    { index := stored.index, term := stored.term, type, command := stored.command }

/-- A value with the flag and the length before it. The length only has to fit. -/
def readOptional {α : Type} (flagTruncated flagInvalid sizeInvalid : String)
    (decode : Nat → Reader α) : Reader (Option α) := do
  let size ← remaining
  if size = 0 then refuse flagTruncated
  else
    let present ← takeWord 1
    if present = 0 then pure none
    else
      let rest ← remaining
      if present ≠ 1 ∨ rest < 4 then refuse flagInvalid
      else
        let encodedSize ← takeWord 4
        let rest ← remaining
        if encodedSize = 0 ∨ rest < encodedSize then refuse sizeInvalid
        else
          let value ← decode encodedSize
          pure (some value)

/-- An optional configuration. Its length is not compared with what was read. -/
def readOptionalConfiguration : Reader (Option ClusterConfiguration) :=
  readOptional "cluster configuration presence flag is truncated"
    "cluster configuration presence flag is invalid" "cluster configuration payload is invalid"
    fun _ => decodeClusterConfiguration

/-- An optional membership operation, which takes exactly its length. -/
def readOptionalMembershipOperation : Reader (Option MembershipOperation) :=
  readOptional "membership operation presence flag is truncated"
    "membership operation presence flag is invalid" "membership operation payload is invalid"
    fun encodedSize => do
      let before ← remaining
      let operation ← decodeMembershipOperation
      let after ← remaining
      if before ≠ after + encodedSize then refuse "membership operation payload is malformed"
      else pure operation

/-- The configurations and operations at the end of a state image. -/
structure StateExtensions where
  clusterConfig : Option ClusterConfiguration := none
  jointConfig : Option ClusterConfiguration := none
  activeMembershipOperation : Option MembershipOperation := none
  completedMembershipOperation : Option MembershipOperation := none

/-- The extensions of a version; the first one had no membership operations. -/
def readExtensionFields : Reader StateExtensions := do
  let size ← remaining
  if size < 4 then refuse "Raft state extension is truncated"
  else
    let version ← takeWord 4
    if version ≠ 1 ∧ version ≠ stateExtensionVersion then
      refuse "Raft state extension version is unsupported"
    else
      let clusterConfig ← readOptionalConfiguration
      let jointConfig ← readOptionalConfiguration
      if version = 1 then pure ⟨clusterConfig, jointConfig, none, none⟩
      else
        let activeMembershipOperation ← readOptionalMembershipOperation
        let completedMembershipOperation ← readOptionalMembershipOperation
        pure ⟨clusterConfig, jointConfig, activeMembershipOperation,
          completedMembershipOperation⟩

/-- The extensions up to the end of an image; older images have none. -/
def readStateExtensions : Reader StateExtensions := do
  let size ← remaining
  if size = 0 then pure {}
  else
    let extensions ← readExtensionFields
    let rest ← remaining
    if rest ≠ 0 then refuse "Raft state image has trailing bytes"
    else pure extensions

/-- One stored entry. -/
def readEntry (truncated invalid : String) : Reader StoredEntry := do
  let size ← remaining
  if size < 21 then refuse truncated
  else
    let index ← takeWord 8
    let term ← takeWord 8
    let code ← takeWord 1
    let commandSize ← takeWord 4
    let rest ← remaining
    if maximumCommandSize < commandSize ∨ rest < commandSize then refuse invalid
    else
      let command ← takeBytes commandSize
      pure { index, term, code, command }

/-- The entry loop of `decodeState`. -/
def readStateEntries : Nat → Reader (List StoredEntry)
  | 0 => pure []
  | count + 1 => do
      let entry ← readEntry "Raft entry metadata is truncated" "Raft entry command is invalid"
      let rest ← readStateEntries count
      pure (entry :: rest)

/-- `validateEntries` on stored entries. A type that does not exist is an error of the boundary
or of the entry that has it. -/
def checkedEntries : List StoredEntry → Except String (List LogEntry)
  | [] => .error "Raft log has invalid boundary"
  | boundary :: rest =>
    match boundary.entry with
    | none => .error "Raft log has invalid boundary"
    | some first =>
      match rest.mapM StoredEntry.entry with
      | none =>
        .error (if RaftLog.boundaryValid first then "Raft log is not contiguous and valid"
          else "Raft log has invalid boundary")
      | some others => (validateEntries (first :: others)).map fun _ => first :: others

/-- A vote is zero when there is none. -/
def voteInvalid (hasVote votedFor : Nat) : Prop := 1 < hasVote ∨ (hasVote = 0 ∧ votedFor ≠ 0)

instance (hasVote votedFor : Nat) : Decidable (voteInvalid hasVote votedFor) :=
  inferInstanceAs (Decidable (_ ∨ _))

/-- The vote that two fields stand for. -/
def voteOf (hasVote votedFor : Nat) : Option NodeId :=
  if hasVote = 1 then some (UInt64.ofNat votedFor) else none

/-- Term, vote, commit index and entries, as they stand before the extensions of an image. -/
def readStateFields : Reader (RaftPersistentState × List StoredEntry) := do
  let currentTerm ← takeWord 8
  let hasVote ← takeWord 1
  let votedFor ← takeWord 8
  if voteInvalid hasVote votedFor then refuse "Raft state has invalid vote encoding"
  else
    let commitIndex ← takeWord 8
    let count ← takeWord 4
    if count = 0 ∨ maximumEntryCount < count then refuse "Raft state has invalid entry count"
    else
      let stored ← readStateEntries count
      pure ({ currentTerm, votedFor := voteOf hasVote votedFor, commitIndex }, stored)

/-- The reader behind `decodeState`. -/
def readState : Reader RaftPersistentState := do
  let fields ← readStateFields
  let extensions ← readStateExtensions
  match checkedEntries fields.2 with
  | .error error => refuse error
  | .ok entries =>
    if isValidCommitIndex fields.1.commitIndex entries = false then
      refuse "Raft state image has invalid commit index"
    else
      pure { fields.1 with
        entries
        clusterConfig := extensions.clusterConfig
        jointConfig := extensions.jointConfig
        activeMembershipOperation := extensions.activeMembershipOperation
        completedMembershipOperation := extensions.completedMembershipOperation }

/-- Decode a whole state. -/
def decodeState (input : Bytes) : Except ReadError RaftPersistentState :=
  if input.length < 29 then .error (.refused "Raft state image is truncated")
  else (readState input).map (·.1)

/-- The entry loop of `decodeDelta`. The tests behind `validateEntryPayload` only repeat some of
its own. -/
def readDeltaEntries (base : Nat) : Nat → Nat → Reader (List LogEntry)
  | _, 0 => pure []
  | offset, count + 1 => do
      let stored ← readEntry "Raft journal delta entry is truncated"
        "Raft journal delta entry is invalid"
      match stored.entry with
      | none => refuse "Raft entry is invalid"
      | some entry =>
        refuseInvalid (validateEntryPayload entry offset base)
        let rest ← readDeltaEntries base (offset + 1) count
        pure (entry :: rest)

/-- The state with the changes of a delta, before it is validated. -/
def readDeltaFields (latest : RaftPersistentState) : Reader RaftPersistentState := do
  let currentTerm ← takeWord 8
  let hasVote ← takeWord 1
  let votedFor ← takeWord 8
  let commitIndex ← takeWord 8
  let truncateIndex ← takeWord 8
  let appendCount ← takeWord 4
  if voteInvalid hasVote votedFor ∨ currentTerm < latest.currentTerm ∨
      commitIndex < latest.commitIndex then
    refuse "Raft journal delta metadata is invalid"
  else
    refuseInvalid (validateEntries latest.entries)
    if truncateIndex = 0 ∨ latest.entries.length < truncateIndex ∨
        maximumEntryCount < truncateIndex ∨ maximumEntryCount - truncateIndex < appendCount then
      refuse "Raft journal delta metadata is invalid"
    else
      let suffix ← readDeltaEntries (firstIndex latest.entries) truncateIndex appendCount
      pure { latest with
        currentTerm, votedFor := voteOf hasVote votedFor, commitIndex
        entries := latest.entries.take truncateIndex ++ suffix }

/-- The reader behind `decodeDelta`. -/
def readDelta (latest : RaftPersistentState) : Reader RaftPersistentState := do
  let state ← readDeltaFields latest
  let rest ← remaining
  if rest ≠ 0 then refuse "Raft journal delta has invalid trailing data or commit index"
  else
    refuseInvalid (validateEntries state.entries)
    if isValidCommitIndex state.commitIndex state.entries = false then
      refuse "Raft journal delta has invalid trailing data or commit index"
    else pure state

/-- Apply a delta to the latest state. -/
def decodeDelta (input : Bytes) (latest : RaftPersistentState) :
    Except ReadError RaftPersistentState :=
  if latest.entries = [] then .error (.refused "Raft journal delta has no base image")
  else if input.length < 37 then .error (.refused "Raft journal delta is truncated")
  else (readDelta latest input).map (·.1)

end RaftJournal

end DistributedKV
