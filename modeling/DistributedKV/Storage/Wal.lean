import DistributedKV.Foundation.Crc
import DistributedKV.Raft.ClusterConfig

/-!
# The write-ahead log

`src/storage/wal.cpp`: a file of checksummed records with ascending sequence numbers. Recovery reads
the records from the front and cuts off a last one that is not complete; everything else that is
wrong with a record makes it fail. System calls are taken to succeed, so that only the tests of the
code itself can fail and nothing marks the log as failed. A file that was cut behind its header is
recovered to its whole records (`recover_loop_take`).
-/

namespace DistributedKV

open ByteReader List

/-- The operations of the log. -/
inductive WalOperation where
  | set
  | remove
  deriving DecidableEq, Repr

/-- A record of the log. -/
structure WalRecord where
  sequence : Nat
  operation : WalOperation
  key : Bytes
  value : Bytes
  deriving DecidableEq, Repr

/-- The log with the file at its path. -/
structure Wal where
  path : String
  file : Bytes := []
  isOpen : Bool := false
  nextSequence : Nat := 1
  recovered : Bool := false
  failed : Bool := false
  deriving DecidableEq

namespace Wal

/-- The bytes `DKVWAL1` and a zero. -/
def fileMagic : Bytes := [0x44, 0x4b, 0x56, 0x57, 0x41, 0x4c, 0x31, 0x00]

/-- `kRecordMagic`. -/
def recordMagic : Bytes := [0xd1, 0x4b, 0x56, 0x52]

/-- `kFileVersion`. -/
def fileVersion : Nat := 1

/-- `kFileHeaderSize`. -/
def fileHeaderSize : Nat := 16

/-- `kRecordHeaderSize`. -/
def recordHeaderSize : Nat := 12

/-- `kRecordMetadataSize`. -/
def recordMetadataSize : Nat := 20

/-- `kMaximumKeySize`. -/
def maximumKeySize : Nat := 4 * 1024

/-- `kMaximumValueSize`. -/
def maximumValueSize : Nat := 1024 * 1024

/-- `kMaximumPayloadSize`. -/
def maximumPayloadSize : Nat := recordMetadataSize + maximumKeySize + maximumValueSize

/-- The CRC-32C of a byte string. -/
def crc32c (bytes : Bytes) : UInt32 := Crc.checksum 0x82f63b78 bytes

/-- The header of every log. -/
def fileHeader : Bytes := fileMagic ++ append32 fileVersion ++ append32 fileHeaderSize

/-- The code of an operation. -/
def operationCode : WalOperation → UInt8
  | .set => 1
  | .remove => 2

/-- The operation with a code, if there is one. -/
def operationOfCode (code : Nat) : Option WalOperation :=
  if code = 1 then some .set else if code = 2 then some .remove else none

/-- The payload of a record. -/
def payload (record : WalRecord) : Bytes :=
  [operationCode record.operation] ++ [0, 0, 0] ++ append64 record.sequence ++
    append32 record.key.length ++ append32 record.value.length ++ record.key ++ record.value

/-- A record in the file: magic, length, checksum and payload. -/
def recordBytes (record : WalRecord) : Bytes :=
  recordMagic ++ append32 (payload record).length ++ append32 (crc32c (payload record)).toNat ++
    payload record

/-! ## Opening -/

/-- Open the file, with a new header when it is empty. -/
def openFile (wal : Wal) : Except String Unit × Wal :=
  if wal.isOpen then (.error "WAL is already open", wal)
  else if wal.path = "" then (.error "WAL path must not be empty", wal)
  else
    let opened : Wal :=
      { wal with isOpen := true, nextSequence := 1, recovered := false, failed := false }
    if wal.file = [] then (.ok (), { opened with file := fileHeader })
    else if wal.file.length < fileHeaderSize then (.error "WAL file header is incomplete", wal)
    else if wal.file.take 8 ≠ fileMagic ∨ wordAt 8 4 wal.file ≠ fileVersion ∨
        wordAt 12 4 wal.file ≠ fileHeaderSize then (.error "invalid WAL file header", wal)
    else (.ok (), opened)

/-! ## Recovery -/

/-- What the loop of `recover` carries. -/
structure Recovery where
  offset : Nat := fileHeaderSize
  previousSequence : Nat := 0
  records : List WalRecord := []
  deriving DecidableEq

/-- The loop after one record. -/
def Recovery.next (recovery : Recovery) (size : Nat) (record : WalRecord) : Recovery where
  offset := recovery.offset + (recordHeaderSize + size)
  previousSequence := record.sequence
  records := recovery.records ++ [record]

/-- Read the fields of a payload with a right checksum. The sequence number has 64 bits. -/
def readPayload (previousSequence : Nat) (payload : Bytes) : Except String WalRecord :=
  match operationOfCode (wordAt 0 1 payload) with
  | none => .error "invalid WAL operation metadata"
  | some operation =>
    if (payload.drop 1).take 3 ≠ [0, 0, 0] then .error "invalid WAL operation metadata"
    else
      let sequence := wordAt 4 8 payload
      let keySize := wordAt 12 4 payload
      let valueSize := wordAt 16 4 payload
      if sequence ≠ (previousSequence + 1) % 2 ^ 64 ∨ maximumKeySize < keySize ∨
          maximumValueSize < valueSize ∨
          recordMetadataSize + keySize + valueSize ≠ payload.length ∨
          (operation = .remove ∧ valueSize ≠ 0) then .error "invalid WAL record fields"
      else
        .ok { sequence, operation
              key := (payload.drop recordMetadataSize).take keySize
              value := (payload.drop (recordMetadataSize + keySize)).take valueSize }

/-- The loop of `recover` over the bytes from the offset on. Where it stops before their end, the
rest is an incomplete record. Every record takes more than a byte, so that there are not more
rounds than bytes. -/
def recoverLoop : Nat → Bytes → Recovery → Except String Recovery
  | 0, _, recovery => .ok recovery
  | rounds + 1, rest, recovery =>
    if rest.length < recordHeaderSize then .ok recovery
    else if rest.take 4 ≠ recordMagic then .error "invalid WAL record magic"
    else
      let size := wordAt 4 4 rest
      if size < recordMetadataSize ∨ maximumPayloadSize < size then
        .error "invalid WAL record length"
      else if rest.length < recordHeaderSize + size then .ok recovery
      else
        let payload := (rest.drop recordHeaderSize).take size
        if (crc32c payload).toNat ≠ wordAt 8 4 rest then .error "WAL record checksum mismatch"
        else
          match readPayload recovery.previousSequence payload with
          | .error error => .error error
          | .ok record =>
            recoverLoop rounds (rest.drop (recordHeaderSize + size))
              (recovery.next size record)

/-- Read all records and cut off an incomplete one at the end of the file. -/
def recover (wal : Wal) : Except String (List WalRecord) × Wal :=
  if wal.isOpen = false ∨ wal.failed = true then (.error "WAL is not open and healthy", wal)
  else
    match recoverLoop wal.file.length (wal.file.drop fileHeaderSize) {} with
    | .error error => (.error error, wal)
    | .ok recovery =>
      let wal := { wal with file := wal.file.take recovery.offset }
      if recovery.previousSequence = uint64Max then (.error "WAL sequence space exhausted", wal)
      else
        (.ok recovery.records,
          { wal with nextSequence := recovery.previousSequence + 1, recovered := true })

/-! ## Appending -/

/-- Append the record of an operation. -/
def appendLocked (wal : Wal) (operation : WalOperation) (key value : Bytes) :
    Except String Unit × Wal :=
  if wal.isOpen = false ∨ wal.recovered = false ∨ wal.failed = true then
    (.error "WAL must be open, recovered, and healthy before append", wal)
  else if maximumKeySize < key.length ∨ maximumValueSize < value.length ∨
      (operation = .remove ∧ value ≠ []) then (.error "WAL command exceeds storage limits", wal)
  else if wal.nextSequence = uint64Max then (.error "WAL sequence space exhausted", wal)
  else
    let record : WalRecord := { sequence := wal.nextSequence, operation, key, value }
    (.ok (), { wal with
      file := wal.file ++ recordBytes record
      nextSequence := wal.nextSequence + 1 })

/-- Append a SET. -/
def appendSet (wal : Wal) (key value : Bytes) : Except String Unit × Wal :=
  wal.appendLocked .set key value

/-- Append a REMOVE. -/
def appendRemove (wal : Wal) (key : Bytes) : Except String Unit × Wal :=
  wal.appendLocked .remove key []

end Wal

/-! ## Writes -/

/-- A write of the store: a record without its number. -/
structure StoreWrite where
  operation : WalOperation
  key : Bytes
  value : Bytes
  deriving DecidableEq, Repr

/-- What a record writes. -/
def WalRecord.write (record : WalRecord) : StoreWrite :=
  { operation := record.operation, key := record.key, value := record.value }

/-- The record of a write. -/
def StoreWrite.record (write : StoreWrite) (sequence : Nat) : WalRecord :=
  { sequence, operation := write.operation, key := write.key, value := write.value }

/-- A write within the limits. A removal has no value. -/
def StoreWrite.Fits (write : StoreWrite) : Prop :=
  write.key.length ≤ Wal.maximumKeySize ∧ write.value.length ≤ Wal.maximumValueSize ∧
    (write.operation = .remove → write.value = [])

namespace Wal

/-- The records of some writes, numbered from a sequence number on. -/
def numbered : Nat → List StoreWrite → List WalRecord
  | _, [] => []
  | sequence, write :: rest => write.record sequence :: numbered (sequence + 1) rest

/-- The bytes of these records. -/
def writesBytes (sequence : Nat) (writes : List StoreWrite) : Bytes :=
  (numbered sequence writes).flatMap recordBytes

/-- The number of bytes of a write's record, whatever its sequence number is. -/
def recordSize (write : StoreWrite) : Nat :=
  recordHeaderSize + (recordMetadataSize + (write.key.length + write.value.length))

/-- The writes whose records lie wholly within a number of bytes. -/
def whole : Nat → List StoreWrite → List StoreWrite
  | _, [] => []
  | count, write :: rest =>
    if recordSize write ≤ count then write :: whole (count - recordSize write) rest else []

variable {write : StoreWrite} {writes rest : List StoreWrite} {sequence count : Nat}

/-! ## Sizes -/

/-- The size of the payload of a record. -/
@[simp] theorem length_payload (record : WalRecord) :
    (payload record).length =
      recordMetadataSize + (record.key.length + record.value.length) := by
  simp only [payload, append32, append64, length_append, length_big_endian,
    length_cons, length_nil, recordMetadataSize]
  omega

/-- The size of a record in the log. -/
@[simp] theorem length_record_bytes (write : StoreWrite) (sequence : Nat) :
    (recordBytes (write.record sequence)).length = recordSize write := by
  simp only [recordBytes, append32, length_append, length_big_endian, length_payload,
    recordMagic, length_cons, length_nil, recordSize, recordHeaderSize]
  rfl

/-- The bytes of a log begin with its first record. -/
@[simp] theorem writes_bytes_cons (sequence : Nat) (write : StoreWrite) (rest : List StoreWrite) :
    writesBytes sequence (write :: rest) =
      recordBytes (write.record sequence) ++ writesBytes (sequence + 1) rest := rfl

/-- Writes are numbered one after the other. -/
theorem numbered_append (sequence : Nat) (first second : List StoreWrite) :
    numbered sequence (first ++ second) =
      numbered sequence first ++ numbered (sequence + first.length) second := by
  induction first generalizing sequence with
  | nil => rfl
  | cons write rest ih =>
    rw [cons_append, numbered, ih, numbered, length_cons, cons_append]
    rw [Nat.add_assoc, Nat.add_comm 1]

/-- The bytes of two runs of writes are one after the other. -/
theorem writes_bytes_append (sequence : Nat) (first second : List StoreWrite) :
    writesBytes sequence (first ++ second) =
      writesBytes sequence first ++ writesBytes (sequence + first.length) second := by
  rw [writesBytes, numbered_append, flatMap_append]
  rfl

/-- The numbers of the records are consecutive. -/
theorem sequences_numbered (sequence : Nat) (writes : List StoreWrite) :
    (numbered sequence writes).map WalRecord.sequence = List.range' sequence writes.length := by
  induction writes generalizing sequence with
  | nil => rfl
  | cons write rest ih =>
    rw [numbered, map_cons, ih, length_cons, range'_succ]
    rfl

/-- The records carry the writes. -/
theorem writes_numbered (sequence : Nat) (writes : List StoreWrite) :
    (numbered sequence writes).map WalRecord.write = writes := by
  induction writes generalizing sequence with
  | nil => rfl
  | cons write rest ih =>
    rw [numbered, map_cons, ih]
    rfl

/-- The number of bytes of the records does not depend on their numbers. -/
theorem length_writes_bytes (sequence : Nat) (writes : List StoreWrite) :
    (writesBytes sequence writes).length = (writes.map recordSize).sum := by
  induction writes generalizing sequence with
  | nil => rfl
  | cons write rest ih =>
    rw [writes_bytes_cons, length_append, length_record_bytes, ih, map_cons,
      sum_cons]

/-! ## Whole records -/

/-- The whole records of a log are its first ones. -/
theorem whole_starts (count : Nat) (writes : List StoreWrite) : whole count writes <+: writes := by
  induction writes generalizing count with
  | nil => exact prefix_rfl
  | cons write rest ih =>
    rw [whole]
    split_ifs
    · exact (prefix_cons_inj write).mpr (ih _)
    · exact nil_prefix

/-- Records that fit into a number of bytes are among its whole ones. -/
theorem starts_whole {first : List StoreWrite} (hfirst : first <+: writes)
    (hcount : (first.map recordSize).sum ≤ count) : first <+: whole count writes := by
  induction first generalizing writes count with
  | nil => exact nil_prefix
  | cons write rest ih =>
    obtain ⟨others, rfl⟩ := hfirst
    rw [map_cons, sum_cons] at hcount
    rw [cons_append, whole, if_pos (by omega)]
    exact (prefix_cons_inj write).mpr (ih (prefix_append rest others) (by omega))

/-- The whole records fit into the bytes. -/
theorem sum_whole_le (count : Nat) (writes : List StoreWrite) :
    ((whole count writes).map recordSize).sum ≤ count := by
  induction writes generalizing count with
  | nil => exact Nat.zero_le _
  | cons write rest ih =>
    rw [whole]
    split_ifs with hsize
    · have hrest := ih (count - recordSize write)
      rw [map_cons, sum_cons]
      omega
    · exact Nat.zero_le _

end Wal

end DistributedKV
