import DistributedKV.Foundation.ByteReader
import DistributedKV.Raft.Types

/-!
# Commands of the key-value service

The commands that clients submit and the binary codec of `src/raft/kv_command.cpp` under which
they are stored in log entries. What the writer accepts the reader returns
(`decode_encode_command`).
-/

namespace DistributedKV

open ByteReader

/-- The two kinds of command. -/
inductive KVCommandType where
  | set
  | delete
  deriving DecidableEq, Repr

/-- A client command. A delete carries no value. -/
structure KVCommand where
  type : KVCommandType := .set
  clientId : UInt64 := 0
  requestId : UInt64 := 0
  key : Bytes := []
  value : Bytes := []
  deriving DecidableEq, Repr

/-- The code of a kind on the wire. -/
def KVCommandType.code : KVCommandType → UInt8
  | .set => 1
  | .delete => 2

/-- The kind with a given code. -/
def KVCommandType.ofCode (code : UInt8) : Option KVCommandType :=
  if code = 1 then some .set else if code = 2 then some .delete else none

namespace KVCommandCodec

/-- `kMaximumCommandKeySize`. -/
def maximumCommandKeySize : Nat := 4 * 1024

/-- `kMaximumCommandValueSize`. -/
def maximumCommandValueSize : Nat := 1024 * 1024

/-- The bytes `KVC1`. -/
def commandMagic : Bytes := [0x4b, 0x56, 0x43, 0x31]

/-- `kCommandVersion`. -/
def commandVersion : UInt8 := 1

/-- `kCommandHeaderSize`. -/
def commandHeaderSize : Nat := 32

/-- The bytes in front of key and value. -/
def header (command : KVCommand) : Bytes :=
  commandMagic ++ ([commandVersion, command.type.code, 0, 0] ++
    (bigEndian 8 command.clientId.toNat ++ (bigEndian 8 command.requestId.toNat ++
      (bigEndian 4 command.key.length ++ (bigEndian 4 command.value.length ++ [])))))

/-- Encode a command, or refuse its fields. -/
def encode (command : KVCommand) : Except String Bytes :=
  if command.clientId = 0 ∨ command.requestId = 0 then .error "invalid KV command metadata"
  else if maximumCommandKeySize < command.key.length ∨
      maximumCommandValueSize < command.value.length ∨
      (command.type = .delete ∧ command.value ≠ []) then
    .error "KV command fields exceed limits"
  else .ok (header command ++ command.key ++ command.value)

/-- Whether a header has the magic, the version and the two zero bytes. -/
def headerValid (encoded : Bytes) : Bool :=
  decide (commandHeaderSize ≤ encoded.length) && encoded.take 4 == commandMagic &&
    encoded[4]? == some commandVersion && encoded[6]? == some 0 && encoded[7]? == some 0

/-- Decode a complete payload, or refuse it. -/
def decode (encoded : Bytes) : Except String KVCommand :=
  if headerValid encoded = false then .error "invalid KV command header"
  else
    let clientId := UInt64.ofNat (wordAt 8 8 encoded)
    let requestId := UInt64.ofNat (wordAt 16 8 encoded)
    let keySize := wordAt 24 4 encoded
    let valueSize := wordAt 28 4 encoded
    match encoded[5]? >>= KVCommandType.ofCode with
    | none => .error "invalid KV command fields"
    | some type =>
      if clientId = 0 ∨ requestId = 0 ∨ maximumCommandKeySize < keySize ∨
          maximumCommandValueSize < valueSize ∨
          keySize + valueSize ≠ encoded.length - commandHeaderSize ∨
          (type = .delete ∧ valueSize ≠ 0) then .error "invalid KV command fields"
      else
        .ok { type, clientId, requestId
              key := (encoded.drop commandHeaderSize).take keySize
              value := (encoded.drop (commandHeaderSize + keySize)).take valueSize }

/-! ## Reading back what was written -/

/-- The type is found from its code. -/
theorem of_code_code (type : KVCommandType) : KVCommandType.ofCode type.code = some type := by
  cases type <;> rfl

/-- The header has its fixed size. -/
theorem length_header (command : KVCommand) : (header command).length = commandHeaderSize := by
  simp [header, commandMagic, commandHeaderSize]

section Header

variable (command : KVCommand) (body : Bytes)

/-- The header of a command is accepted. -/
theorem header_valid : headerValid (header command ++ body) = true := by
  have hlength : commandHeaderSize ≤ (header command ++ body).length := by
    rw [List.length_append, length_header]
    omega
  rw [headerValid, decide_eq_true hlength]
  rfl

/-- The type is found in the header. -/
theorem type_header : ((header command ++ body)[5]? >>= KVCommandType.ofCode) = some command.type :=
  of_code_code command.type

/-- The first eight bytes. -/
def tag : Bytes := commandMagic ++ [commandVersion, command.type.code, 0, 0]

/-- The client is found in the header. -/
theorem client_header : UInt64.ofNat (wordAt 8 8 (header command ++ body)) = command.clientId := by
  have hbefore : (tag command).length = 8 := rfl
  have hsplit : header command ++ body =
      tag command ++ (bigEndian 8 command.clientId.toNat ++
        (bigEndian 8 command.requestId.toNat ++ bigEndian 4 command.key.length ++
          bigEndian 4 command.value.length ++ body)) := by
    simp [header, tag]
  rw [hsplit, word_at_append hbefore, uint64_of_nat_mod]

/-- The request is found in the header. -/
theorem request_header :
    UInt64.ofNat (wordAt 16 8 (header command ++ body)) = command.requestId := by
  have hbefore : (tag command ++ bigEndian 8 command.clientId.toNat).length = 16 := by
    simp [tag, commandMagic]
  have hsplit : header command ++ body =
      (tag command ++ bigEndian 8 command.clientId.toNat) ++
        (bigEndian 8 command.requestId.toNat ++
          (bigEndian 4 command.key.length ++ bigEndian 4 command.value.length ++ body)) := by
    simp [header, tag]
  rw [hsplit, word_at_append hbefore, uint64_of_nat_mod]

/-- The size of a key within the limit is found in the header. -/
theorem key_size_header (hkey : command.key.length ≤ maximumCommandKeySize) :
    wordAt 24 4 (header command ++ body) = command.key.length := by
  have hbefore : (tag command ++ bigEndian 8 command.clientId.toNat ++
      bigEndian 8 command.requestId.toNat).length = 24 := by
    simp [tag, commandMagic]
  have hsplit : header command ++ body =
      (tag command ++ bigEndian 8 command.clientId.toNat ++
        bigEndian 8 command.requestId.toNat) ++
        (bigEndian 4 command.key.length ++ (bigEndian 4 command.value.length ++ body)) := by
    simp [header, tag]
  rw [maximumCommandKeySize] at hkey
  rw [hsplit, word_at_append hbefore, Nat.mod_eq_of_lt (by omega)]

/-- The size of a value within the limit is found in the header. -/
theorem value_size_header (hvalue : command.value.length ≤ maximumCommandValueSize) :
    wordAt 28 4 (header command ++ body) = command.value.length := by
  have hbefore : (tag command ++ bigEndian 8 command.clientId.toNat ++
      bigEndian 8 command.requestId.toNat ++ bigEndian 4 command.key.length).length = 28 := by
    simp [tag, commandMagic]
  have hsplit : header command ++ body =
      (tag command ++ bigEndian 8 command.clientId.toNat ++
        bigEndian 8 command.requestId.toNat ++ bigEndian 4 command.key.length) ++
        (bigEndian 4 command.value.length ++ body) := by
    simp [header, tag]
  rw [maximumCommandValueSize] at hvalue
  rw [hsplit, word_at_append hbefore, Nat.mod_eq_of_lt (by omega)]

end Header

/-- A command that was encoded is decoded. -/
theorem decode_encode_command {command : KVCommand} {encoded : Bytes}
    (hencode : encode command = .ok encoded) : decode encoded = .ok command := by
  rw [encode] at hencode
  split_ifs at hencode with hmetadata hlimits
  cases hencode
  obtain ⟨hclient, hrequest⟩ := not_or.mp hmetadata
  simp only [not_or, not_lt] at hlimits
  obtain ⟨hkey, hvalue, hdelete⟩ := hlimits
  have hbody : (command.key ++ command.value).length =
      (header command ++ (command.key ++ command.value)).length - commandHeaderSize := by
    simp only [List.length_append, length_header]
    omega
  have hdrop : (header command ++ (command.key ++ command.value)).drop commandHeaderSize =
      command.key ++ command.value := by
    rw [← length_header command, List.drop_left]
  have hdropKey : (header command ++ (command.key ++ command.value)).drop
      (commandHeaderSize + command.key.length) = command.value := by
    rw [← List.drop_drop, hdrop, List.drop_left]
  rw [List.append_assoc, decode, header_valid, if_neg (by decide)]
  simp only [type_header, client_header, request_header, key_size_header _ _ hkey,
    value_size_header _ _ hvalue, ← hbody, hdrop, hdropKey]
  rw [if_neg, List.take_left, List.take_length]
  · simp only [List.length_append, hclient, hrequest, not_or, not_lt, not_false_eq_true, ne_eq,
      not_true_eq_false, true_and]
    refine ⟨hkey, hvalue, ?_⟩
    rintro ⟨htype, hlength⟩
    exact hdelete ⟨htype, fun h => hlength (by rw [h]; rfl)⟩

end KVCommandCodec

end DistributedKV
