import DistributedKV.Raft.Journal.StateCodec

/-!
# The journal file

`FileRaftPersistence` of `src/raft/file_raft_persistence.cpp`, an append-only file of checksummed
records. A record is a whole state or a delta from the state before it. A save appends one record,
and replaces the file by one whole state when there are too many deltas or too many bytes. A load
replays the records and cuts off a last one that is not complete. System calls are taken to
succeed, so that only the tests of the code itself can fail; a save or load that fails has no
result.
-/

namespace DistributedKV

open ByteReader

namespace RaftJournal

/-- The bytes `DKVRAFT` and a zero. -/
def fileMagic : Bytes := [0x44, 0x4b, 0x56, 0x52, 0x41, 0x46, 0x54, 0x00]

/-- `kVersion`. -/
def version : Nat := 1

/-- `kFileHeaderSize`. -/
def fileHeaderSize : Nat := 16

/-- `kRecordHeaderSize`. -/
def recordHeaderSize : Nat := 12

/-- The header of every journal. -/
def fileHeader : Bytes := fileMagic ++ append32 version ++ append32 0

/-- The two kinds of record. -/
inductive RecordKind where
  | full
  | delta
  deriving DecidableEq, Repr

/-- `kRecordMagic` and `kDeltaRecordMagic`. -/
def RecordKind.magic : RecordKind → Bytes
  | .full => [0xd6, 0x52, 0x46, 0x54]
  | .delta => [0xd6, 0x52, 0x46, 0x44]

/-- The kind of record that starts with these bytes, if there is one. -/
def RecordKind.ofMagic (bytes : Bytes) : Option RecordKind :=
  if bytes = RecordKind.full.magic then some .full
  else if bytes = RecordKind.delta.magic then some .delta
  else none

/-- A record of the journal. -/
structure JournalRecord where
  kind : RecordKind
  payload : Bytes
  deriving DecidableEq, Repr

/-- A record in the file: magic, length, checksum and payload. -/
def JournalRecord.bytes (record : JournalRecord) : Bytes :=
  record.kind.magic ++ append32 record.payload.length ++
    append32 (crc32c record.payload).toNat ++ record.payload

/-- The state after a record of some kind. -/
def RecordKind.apply (kind : RecordKind) (payload : Bytes) (latest : RaftPersistentState) :
    Except ReadError RaftPersistentState :=
  match kind with
  | .full => decodeState payload
  | .delta => decodeDelta payload latest

/-- What the loop of `load` carries: the offset of the next record, the latest state, and the
number of deltas since the last whole state. -/
structure Replay where
  offset : Nat := fileHeaderSize
  latest : RaftPersistentState := {}
  deltaRecordCount : Nat := 0
  deriving DecidableEq

/-- The loop after one record. -/
def Replay.next (replay : Replay) (kind : RecordKind) (size : Nat) (latest : RaftPersistentState) :
    Replay where
  offset := replay.offset + (recordHeaderSize + size)
  latest
  deltaRecordCount :=
    match kind with
    | .full => 0
    | .delta => replay.deltaRecordCount + 1

/-- The loop of `load` over the bytes from the offset on. Where it stops before their end, the
rest is an incomplete record. Every record takes more than a byte, so that there are not more
rounds than bytes. -/
def replayLoop : Nat → Bytes → Replay → Except ReadError Replay
  | 0, _, replay => .ok replay
  | rounds + 1, rest, replay =>
    if rest.length < recordHeaderSize then .ok replay
    else
      match RecordKind.ofMagic (rest.take 4) with
      | none => .error (.refused "Raft journal record magic is invalid")
      | some kind =>
        let size := wordAt 4 4 rest
        if size = 0 ∨ maximumPayloadSize < size then
          .error (.refused "Raft journal record length is invalid")
        else if rest.length < recordHeaderSize + size then .ok replay
        else
          let payload := (rest.drop recordHeaderSize).take size
          if (crc32c payload).toNat ≠ wordAt 8 4 rest then
            .error (.refused "Raft journal checksum mismatch")
          else
            match kind.apply payload replay.latest with
            | .error error => .error error
            | .ok latest =>
              replayLoop rounds (rest.drop (recordHeaderSize + size))
                (replay.next kind size latest)

end RaftJournal

open RaftJournal

/-- The journal object with the file at its path. -/
structure FileRaftPersistence where
  maximumDeltaRecords : Nat := 1024
  maximumFileBytes : Nat := 64 * 1024 * 1024
  file : Bytes := []
  isOpen : Bool := false
  lastState : Option RaftPersistentState := none
  deltaRecordCount : Nat := 0
  fileSize : Nat := 0
  deriving DecidableEq

namespace FileRaftPersistence

/-- Open the file, with a new header when it is empty. -/
def openLocked (journal : FileRaftPersistence) : Except String FileRaftPersistence :=
  if journal.isOpen then .ok journal
  else if journal.maximumDeltaRecords = 0 ∨
      journal.maximumFileBytes < fileHeaderSize + recordHeaderSize then
    .error "invalid Raft journal path or compaction limits"
  else
    let file := if journal.file = [] then fileHeader else journal.file
    if file.length < fileHeaderSize then .error "Raft journal header is truncated"
    else if file.take 8 ≠ fileMagic ∨ wordAt 8 4 file ≠ version ∨ wordAt 12 4 file ≠ 0 then
      .error "Raft journal header is invalid"
    else .ok { journal with file, isOpen := true, fileSize := file.length }

/-- Replay the records of the file and cut off an incomplete one at its end. -/
def load (journal : FileRaftPersistence) :
    Except ReadError (RaftPersistentState × FileRaftPersistence) :=
  match journal.openLocked with
  | .error error => .error (.refused error)
  | .ok journal =>
    match replayLoop journal.file.length (journal.file.drop fileHeaderSize) {} with
    | .error error => .error error
    | .ok replay =>
      .ok (replay.latest,
        { journal with
          file := journal.file.take replay.offset
          fileSize := replay.offset
          deltaRecordCount := replay.deltaRecordCount
          lastState := if replay.latest.entries = [] then none else some replay.latest })

/-- Only the term, the vote, the commit index and the entries behind the boundary have changed. -/
def writesDelta (previous state : RaftPersistentState) : Prop :=
  previous.entries ≠ [] ∧ state.entries ≠ [] ∧ previous.entries.head? = state.entries.head? ∧
    previous.clusterConfig = state.clusterConfig ∧ previous.jointConfig = state.jointConfig ∧
    previous.activeMembershipOperation = state.activeMembershipOperation ∧
    previous.completedMembershipOperation = state.completedMembershipOperation

instance (previous state : RaftPersistentState) : Decidable (writesDelta previous state) :=
  inferInstanceAs (Decidable (_ ∧ _))

/-- A record with a whole state. -/
def fullRecord (state : RaftPersistentState) : Except String JournalRecord := do
  let payload ← encodeState state
  pure { kind := .full, payload }

/-- A record with the changes from another state. -/
def deltaRecord (previous state : RaftPersistentState) : Except String JournalRecord := do
  let payload ← encodeDelta previous state
  pure { kind := .delta, payload }

/-- The record that a save appends. -/
def record (journal : FileRaftPersistence) (state : RaftPersistentState) :
    Except String JournalRecord :=
  match journal.lastState with
  | none => fullRecord state
  | some previous =>
    if writesDelta previous state then deltaRecord previous state else fullRecord state

/-- Append the record of a state. -/
def appendRecord (journal : FileRaftPersistence) (state : RaftPersistentState) :
    Except String FileRaftPersistence := do
  let journal ← journal.openLocked
  let record ← journal.record state
  .ok { journal with
    file := journal.file ++ record.bytes
    lastState := some state
    fileSize := journal.file.length + record.bytes.length
    deltaRecordCount :=
      match record.kind with
      | .full => 0
      | .delta => journal.deltaRecordCount + 1 }

/-- There are too many deltas, or too many bytes. -/
def needsCompaction (journal : FileRaftPersistence) : Prop :=
  journal.maximumDeltaRecords ≤ journal.deltaRecordCount ∨
    journal.maximumFileBytes ≤ journal.fileSize

instance (journal : FileRaftPersistence) : Decidable journal.needsCompaction :=
  inferInstanceAs (Decidable (_ ∨ _))

/-- Replace the file by one that holds a whole state only. -/
def compactLocked (journal : FileRaftPersistence) (state : RaftPersistentState) :
    Except String FileRaftPersistence := do
  let payload ← encodeState state
  let image := fileHeader ++ JournalRecord.bytes { kind := .full, payload }
  .ok { journal with file := image, deltaRecordCount := 0, fileSize := image.length }

/-- Save a state. -/
def save (journal : FileRaftPersistence) (state : RaftPersistentState) :
    Except String FileRaftPersistence := do
  let journal ← journal.appendRecord state
  if journal.needsCompaction then journal.compactLocked state else .ok journal

/-- A new object for the file of another one. -/
def reopened (journal : FileRaftPersistence) : FileRaftPersistence where
  maximumDeltaRecords := journal.maximumDeltaRecords
  maximumFileBytes := journal.maximumFileBytes
  file := journal.file

end FileRaftPersistence

namespace RaftJournal

/-! ## Rounds of the loop -/

/-- More rounds than bytes make no difference. -/
theorem replay_loop_rounds {rounds more : Nat} {rest : Bytes} (replay : Replay)
    (hrounds : rest.length ≤ rounds) (hmore : rest.length ≤ more) :
    replayLoop rounds rest replay = replayLoop more rest replay := by
  induction rounds generalizing more rest replay with
  | zero =>
    rw [List.length_eq_zero_iff.mp (Nat.le_zero.mp hrounds)]
    cases more <;> rfl
  | succ rounds ih =>
    cases more with
    | zero =>
      rw [List.length_eq_zero_iff.mp (Nat.le_zero.mp hmore)]
      rfl
    | succ more =>
      rw [replayLoop, replayLoop]
      split_ifs with hshort
      · rfl
      have hnext : ∀ size (next : Replay),
          replayLoop rounds (rest.drop (recordHeaderSize + size)) next =
            replayLoop more (rest.drop (recordHeaderSize + size)) next := by
        intro size next
        have hlength : (rest.drop (recordHeaderSize + size)).length < rest.length := by
          simp only [List.length_drop, recordHeaderSize] at hshort ⊢
          omega
        exact ih next (by omega) (by omega)
      simp only [hnext]

/-- Replay the records of some bytes. -/
def replay (rest : Bytes) (start : Replay) : Except ReadError Replay :=
  replayLoop rest.length rest start

theorem replay_of_short {rest : Bytes} (hshort : rest.length < recordHeaderSize)
    (start : Replay) : replay rest start = .ok start := by
  rw [replay]
  cases hrounds : rest.length with
  | zero => rfl
  | succ rounds => rw [replayLoop, if_pos hshort]

/-- One round of the loop. -/
theorem replay_of_header {rest : Bytes} (hlong : recordHeaderSize ≤ rest.length) (start : Replay) :
    replay rest start =
      match RecordKind.ofMagic (rest.take 4) with
      | none => .error (.refused "Raft journal record magic is invalid")
      | some kind =>
        let size := wordAt 4 4 rest
        if size = 0 ∨ maximumPayloadSize < size then
          .error (.refused "Raft journal record length is invalid")
        else if rest.length < recordHeaderSize + size then .ok start
        else
          let payload := (rest.drop recordHeaderSize).take size
          if (crc32c payload).toNat ≠ wordAt 8 4 rest then
            .error (.refused "Raft journal checksum mismatch")
          else
            match kind.apply payload start.latest with
            | .error error => .error error
            | .ok latest =>
              replay (rest.drop (recordHeaderSize + size)) (start.next kind size latest) := by
  rw [replay]
  cases hrounds : rest.length with
  | zero =>
    rw [hrounds] at hlong
    exact absurd hlong (by decide)
  | succ rounds =>
    have hnext : ∀ size (next : Replay),
        replayLoop rounds (rest.drop (recordHeaderSize + size)) next =
          replay (rest.drop (recordHeaderSize + size)) next := by
      intro size next
      refine replay_loop_rounds next ?_ le_rfl
      simp only [List.length_drop, recordHeaderSize]
      omega
    rw [replayLoop, if_neg (not_lt.mpr hlong), hrounds]
    simp only [hnext]

end RaftJournal

end DistributedKV
