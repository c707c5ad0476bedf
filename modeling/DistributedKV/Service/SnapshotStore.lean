import DistributedKV.Raft.Node.State
import DistributedKV.Service.StateMachine

/-!
# Snapshot files

The checksummed snapshot file of `src/raft/file_snapshot_store.cpp`: the codec of its payload, the
published file, and the receiver that assembles a file from the chunks of a stream. System calls
are taken to succeed, so that only the checks of the code itself can fail, and the temporary file
of a receiver is the bytes it has taken so far.
-/

namespace DistributedKV

open ByteReader

namespace SnapshotFile

/-- The bytes `DKVSNAP` and a zero. -/
def magic : Bytes := [0x44, 0x4b, 0x56, 0x53, 0x4e, 0x41, 0x50, 0x00]

/-- `kVersion`. -/
def version : Nat := 1

/-- `kHeaderSize`. -/
def headerSize : Nat := 20

/-- `kMaximumPayloadSize`. -/
def maximumPayloadSize : Nat := 256 * 1024 * 1024

/-- `kMaximumItemCount`. -/
def maximumItemCount : Nat := 1000000

/-- `kMaximumKeySize`. -/
def maximumKeySize : Nat := 4096

/-- `kMaximumValueSize`. -/
def maximumValueSize : Nat := 1024 * 1024

/-- `kMaximumResponseSize`. -/
def maximumResponseSize : Nat := 1024 * 1024

/-- One bit of the checksum. -/
def crcBit (crc : UInt32) : UInt32 :=
  (crc >>> 1) ^^^ (0x82f63b78 &&& (0 - (crc &&& 1)))

/-- The CRC-32C of a byte string. -/
def crc32c (bytes : Bytes) : UInt32 :=
  ~~~ bytes.foldl (fun crc byte => crcBit^[8] (crc ^^^ byte.toUInt32)) 0xffffffff

/-- The code of a status. -/
def statusCode : ApplyStatus → UInt8
  | .ok => 0
  | .notFound => 1
  | .staleRequest => 2

/-- The status with a code, if there is one. -/
def statusOfCode (code : Nat) : Option ApplyStatus :=
  if code = 0 then some .ok
  else if code = 1 then some .notFound
  else if code = 2 then some .staleRequest
  else none

/-- Whether index and term are both zero or both not. -/
def boundaryConsistent (index term : Nat) : Bool := decide (index = 0) == decide (term = 0)

/-! ## Writing -/

/-- Append a string with its length. -/
def appendString (output value : Bytes) (maximum : Nat) : Except String Bytes :=
  if maximum < value.length ∨ 2 ^ 32 - 1 < value.length then
    .error "snapshot string exceeds persistent limit"
  else
    let output := output ++ bigEndian 4 value.length ++ value
    if maximumPayloadSize < output.length then .error "snapshot exceeds persistent size limit"
    else .ok output

/-- The entry loop of `encode`, with the keys seen so far. -/
def appendEntries : List (Bytes × Bytes) → List Bytes → Bytes → Except String Bytes
  | [], _, output => .ok output
  | (key, value) :: rest, keys, output =>
    if key ∈ keys then .error "snapshot contains duplicate KV key"
    else do
      let output ← appendString output key maximumKeySize
      let output ← appendString output value maximumValueSize
      appendEntries rest (key :: keys) output

/-- The session loop of `encode`, with the clients seen so far. -/
def appendSessions : List SnapshotSession → List UInt64 → Bytes → Except String Bytes
  | [], _, output => .ok output
  | session :: rest, clients, output =>
    if session.clientId = 0 ∨ session.requestId = 0 ∨ session.clientId ∈ clients then
      .error "invalid snapshot client session"
    else do
      let output := output ++ bigEndian 8 session.clientId.toNat ++
        bigEndian 8 session.requestId.toNat ++ [statusCode session.status]
      let output ← appendString output session.payload maximumResponseSize
      appendSessions rest (session.clientId :: clients) output

/-- The payload of a snapshot, or the reason it cannot be stored. -/
def encode (snapshot : StateMachineSnapshot) : Except String Bytes :=
  if boundaryConsistent snapshot.lastIncludedIndex snapshot.lastIncludedTerm = false ∨
      maximumItemCount < snapshot.entries.length ∨
      maximumItemCount < snapshot.sessions.length then
    .error "invalid state-machine snapshot metadata"
  else do
    let output ← appendEntries snapshot.entries []
      (bigEndian 8 snapshot.lastIncludedIndex ++ bigEndian 8 snapshot.lastIncludedTerm ++
        bigEndian 4 snapshot.entries.length)
    appendSessions snapshot.sessions [] (output ++ bigEndian 4 snapshot.sessions.length)

/-- The file of a payload. -/
def file (payload : Bytes) : Bytes :=
  magic ++ bigEndian 4 version ++ bigEndian 4 payload.length ++
    bigEndian 4 (crc32c payload).toNat ++ payload

/-! ## Reading -/

/-- A string of at most a given length. -/
def takeString (maximum : Nat) : Reader Bytes := do
  let size ← remaining
  if size < 4 then refuse "snapshot string length is truncated"
  else
    let length ← takeWord 4
    let rest ← remaining
    if maximum < length ∨ rest < length then refuse "snapshot string has invalid length"
    else takeBytes length

/-- The entry loop of `decode`, with the keys seen so far. -/
def readEntries : Nat → List Bytes → Reader (List (Bytes × Bytes))
  | 0, _ => pure []
  | count + 1, keys => do
      let key ← takeString maximumKeySize
      let value ← takeString maximumValueSize
      if key ∈ keys then refuse "snapshot contains duplicate KV key"
      else
        let rest ← readEntries count (key :: keys)
        pure ((key, value) :: rest)

/-- The session loop of `decode`, with the clients seen so far. -/
def readSessions : Nat → List UInt64 → Reader (List SnapshotSession)
  | 0, _ => pure []
  | count + 1, clients => do
      let size ← remaining
      if size < 17 then refuse "snapshot client session is truncated"
      else
        let clientWord ← takeWord 8
        let requestWord ← takeWord 8
        let code ← takeWord 1
        let clientId := UInt64.ofNat clientWord
        let requestId := UInt64.ofNat requestWord
        match statusOfCode code with
        | none => refuse "snapshot contains invalid client session"
        | some status =>
          if clientId = 0 ∨ requestId = 0 ∨ clientId ∈ clients then
            refuse "snapshot contains invalid client session"
          else
            let payload ← takeString maximumResponseSize
            let rest ← readSessions count (clientId :: clients)
            pure ({ clientId, requestId, status, payload } :: rest)

/-- The counted sessions at the end of a payload. -/
def readSessionTable : Reader (List SnapshotSession) := do
  let size ← remaining
  if size < 4 then refuse "snapshot session count is truncated"
  else
    let count ← takeWord 4
    if maximumItemCount < count then refuse "snapshot has too many client sessions"
    else
      let sessions ← readSessions count []
      let rest ← remaining
      if rest ≠ 0 then refuse "snapshot payload has trailing bytes"
      else pure sessions

/-- The reader behind `decode`. -/
def readSnapshot : Reader StateMachineSnapshot := do
  let lastIncludedIndex ← takeWord 8
  let lastIncludedTerm ← takeWord 8
  if boundaryConsistent lastIncludedIndex lastIncludedTerm = false then
    refuse "snapshot index and term are inconsistent"
  else
    let count ← takeWord 4
    if maximumItemCount < count then refuse "snapshot has too many KV entries"
    else
      let entries ← readEntries count []
      let sessions ← readSessionTable
      pure { lastIncludedIndex, lastIncludedTerm, entries, sessions }

/-- Decode a payload. -/
def decode (input : Bytes) : Except String StateMachineSnapshot :=
  if input.length < 20 then .error "snapshot payload is truncated"
  else
    match readSnapshot input with
    | .error error => .error (decodeErrorText error)
    | .ok (snapshot, _) => .ok snapshot

/-- The texts with which a file is refused. -/
structure RefusalTexts where
  size : String
  magic : String
  length : String
  checksum : String

/-- The snapshot in a file, or the text of the check that failed. -/
def parse (texts : RefusalTexts) (file : Bytes) : Except String StateMachineSnapshot :=
  if file.length < headerSize ∨ headerSize + maximumPayloadSize < file.length then
    .error texts.size
  else if file.take 8 ≠ magic ∨ wordAt 8 4 file ≠ version then .error texts.magic
  else if wordAt 12 4 file ≠ file.length - headerSize then .error texts.length
  else if wordAt 16 4 file ≠ (crc32c (file.drop headerSize)).toNat then .error texts.checksum
  else decode (file.drop headerSize)

/-- The texts of a file that is loaded. -/
def loadTexts : RefusalTexts where
  size := "snapshot file has invalid size"
  magic := "snapshot has invalid magic or version"
  length := "snapshot payload length does not match file"
  checksum := "snapshot checksum mismatch"

/-- The texts of a file that was received. -/
def receiveTexts : RefusalTexts where
  size := "snapshot receive file has invalid size"
  magic := "snapshot receive has invalid magic or version"
  length := "snapshot receive payload length does not match file"
  checksum := "snapshot receive checksum mismatch"

end SnapshotFile

/-! ## The published file -/

/-- The file at the store's path, if there is one. -/
structure FileSnapshotStore where
  file : Option Bytes := none
  deriving DecidableEq, Repr

namespace FileSnapshotStore

/-- Replace the file by a snapshot. -/
def save (snapshot : StateMachineSnapshot) : Except String FileSnapshotStore := do
  let payload ← SnapshotFile.encode snapshot
  pure { file := some (SnapshotFile.file payload) }

/-- The snapshot in the file; no file is no snapshot. -/
def load (store : FileSnapshotStore) : Except String (Option StateMachineSnapshot) :=
  match store.file with
  | none => .ok none
  | some file => (SnapshotFile.parse SnapshotFile.loadTexts file).map some

/-- The size of the file. -/
def fileSize (store : FileSnapshotStore) : Except String Nat :=
  match store.file with
  | none => .error "snapshot file is absent"
  | some file => .ok file.length

/-- The bytes from an offset on, at most a given number, and whether they reach the end. -/
def readBytes (store : FileSnapshotStore) (offset maxCount : Nat) : Except String (Bytes × Bool) :=
  if maxCount = 0 then .error "snapshot read size must be positive"
  else
    match store.file with
    | none => .error "snapshot open failed: No such file or directory"
    | some file =>
      if file.length < offset then .error "snapshot read offset is out of range"
      else
        let chunk := (file.drop offset).take maxCount
        .ok (chunk, decide (file.length ≤ offset + chunk.length))

end FileSnapshotStore

/-! ## Receiving a file -/

/-- A transfer: the boundary it announced and the bytes taken so far. -/
structure SnapshotFileReceiver where
  lastIncludedIndex : Nat := 0
  lastIncludedTerm : Nat := 0
  received : Bytes := []
  active : Bool := false
  deriving DecidableEq, Repr

namespace SnapshotFileReceiver

/-- Forget the transfer. -/
def cancel (_receiver : SnapshotFileReceiver) : SnapshotFileReceiver := {}

/-- Start a transfer. -/
def begin (receiver : SnapshotFileReceiver) (lastIncludedIndex lastIncludedTerm : Nat) :
    SnapshotFileReceiver × Except String Unit :=
  if SnapshotFile.boundaryConsistent lastIncludedIndex lastIncludedTerm = false then
    (receiver, .error "snapshot boundary index and term are inconsistent")
  else ({ lastIncludedIndex, lastIncludedTerm, received := [], active := true }, .ok ())

/-- Take a chunk into a transfer that is active, or refuse it. -/
def take (receiver : SnapshotFileReceiver) (lastIncludedIndex lastIncludedTerm offset : Nat)
    (data : Bytes) (done : Bool) : SnapshotFileReceiver × Except String Unit :=
  if receiver.active = false then (receiver, .error "snapshot receive has no active transfer")
  else if lastIncludedIndex ≠ receiver.lastIncludedIndex ∨
      lastIncludedTerm ≠ receiver.lastIncludedTerm then
    (receiver, .error "snapshot receive boundary changed mid-stream")
  else if offset ≠ receiver.received.length then
    (receiver, .error "snapshot receive offset is out of order")
  else if data = [] ∧ done = false then (receiver, .error "snapshot receive chunk is empty")
  else
    let receiver := { receiver with received := receiver.received ++ data }
    if done = true ∧ receiver.received = [] then
      (receiver.cancel, .error "snapshot receive completed without data")
    else (receiver, .ok ())

/-- Take a chunk; the one at offset zero starts the transfer if there is none. -/
def appendChunk (receiver : SnapshotFileReceiver)
    (lastIncludedIndex lastIncludedTerm offset : Nat) (data : Bytes) (done : Bool) :
    SnapshotFileReceiver × Except String Unit :=
  if offset = 0 ∧ receiver.active = false then
    match receiver.begin lastIncludedIndex lastIncludedTerm with
    | (receiver, .error error) => (receiver, .error error)
    | (receiver, .ok ()) =>
      receiver.take lastIncludedIndex lastIncludedTerm offset data done
  else receiver.take lastIncludedIndex lastIncludedTerm offset data done

/-- The snapshot of a complete transfer. -/
def assembled (receiver : SnapshotFileReceiver) : Except String StateMachineSnapshot :=
  if receiver.active = false ∨ receiver.received = [] then
    .error "snapshot receive has no completed transfer"
  else do
    let snapshot ← SnapshotFile.parse SnapshotFile.receiveTexts receiver.received
    if snapshot.lastIncludedIndex ≠ receiver.lastIncludedIndex ∨
        snapshot.lastIncludedTerm ≠ receiver.lastIncludedTerm then
      .error "snapshot receive boundary does not match payload"
    else pure snapshot

/-- Check a complete transfer and publish it as the store's file. -/
def finishAndLoad (receiver : SnapshotFileReceiver) :
    Except String (FileSnapshotStore × StateMachineSnapshot) :=
  receiver.assembled.map fun snapshot => ({ file := some receiver.received }, snapshot)

end SnapshotFileReceiver

end DistributedKV
