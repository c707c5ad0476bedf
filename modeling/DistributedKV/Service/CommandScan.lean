import DistributedKV.Foundation.ByteScan
import DistributedKV.Raft.ClusterConfig
import DistributedKV.Service.KVCommand

/-!
# Decoding log commands, access by access

The decoders of configuration changes (`src/raft/cluster_config.cpp`) and of key-value commands
(`src/raft/kv_command.cpp`), with the offset of the source, its subtractions of sizes and its
accesses at an index. They commit no fault and come to the same result as the readers
(`scan_conf_change_entry`, `scan_command`).
-/

namespace DistributedKV

open ByteReader (refuse takeBytes takeWord takeMany)
open ByteScan

/-! ## Configuration changes -/

namespace ConfChangeScan

/-- A host name with its one-byte length. -/
def readHost : Scan Bytes := do
  let size ← size
  let offset ← position
  if size ≤ offset then refuse "cluster host length is truncated"
  else do
    let length ← takeWord 1
    let left ← left
    if length = 0 ∨ maximumHostSize < length ∨ left < length then
      refuse "cluster host has invalid length"
    else takeBytes length

/-- A member with both endpoints. -/
def readMember : Scan ClusterMember := do
  let size ← left
  if size < 8 then refuse "cluster member is truncated"
  else do
    let nodeId ← takeWord 8
    let clientHost ← readHost
    let peerHost ← readHost
    let rest ← left
    if rest < 8 then refuse "cluster member ports are truncated"
    else do
      let clientPort ← takeWord 4
      let peerPort ← takeWord 4
      let member : ClusterMember :=
        { nodeId := UInt64.ofNat nodeId, clientHost, clientPort := UInt16.ofNat clientPort,
          peerHost, peerPort := UInt16.ofNat peerPort }
      if member.nodeId = 0 ∨ member.clientPort = 0 ∨ member.peerPort = 0 then
        refuse "cluster member endpoint is invalid"
      else pure member

/-- The loop over the members. -/
def readMembers (count : Nat) : Scan (List ClusterMember) := takeMany readMember count

/-- A configuration, validated after it is read. -/
def decodeClusterConfiguration : Scan ClusterConfiguration := do
  let size ← left
  if size < 12 then refuse "cluster configuration is truncated"
  else do
    let configId ← takeWord 8
    let count ← takeWord 4
    if configId = 0 ∨ count = 0 ∨ maximumMemberCount < count then
      refuse "cluster configuration count is invalid"
    else do
      let members ← readMembers count
      let config : ClusterConfiguration := { configId := UInt64.ofNat configId, members }
      match validateClusterConfiguration config 0 with
      | .error message => refuse message
      | .ok () => pure config

/-- The member of a change. -/
def readChangedMember (type : ConfChangeType) : Scan ClusterMember :=
  match type with
  | .removeNode => do
      let size ← size
      let offset ← position
      if size < offset + 8 then refuse "remove conf change node id is truncated"
      else do
        let nodeId ← takeWord 8
        if nodeId = 0 then refuse "remove conf change node id is invalid"
        else pure { nodeId := UInt64.ofNat nodeId }
  | .addNode => readMember

/-- The operation id, recognised by the number of bytes left. -/
def readOperationId : Scan UInt64 := do
  let rest ← left
  if rest = 8 then do
    let operationId ← takeWord 8
    pure (UInt64.ofNat operationId)
  else do
    let size ← size
    let offset ← position
    if offset ≠ size then refuse "conf change entry has trailing bytes" else pure 0

/-- The fields of an entry whose size is within the limits. -/
def readConfChangeFields : Scan ConfChangeEntry := do
  let magic ← takeWord 4
  if magic ≠ confChangeMagic then refuse "conf change entry has invalid magic"
  else do
    let code ← takeWord 1
    let joint ← takeWord 1
    match ConfChangeType.ofCode code with
    | none => refuse "conf change entry has invalid type"
    | some type => do
        let member ← readChangedMember type
        let size ← size
        let offset ← position
        if size < offset + 4 then refuse "conf change target length is truncated"
        else do
          let targetSize ← takeWord 4
          let rest ← left
          if targetSize = 0 ∨ rest < targetSize then
            refuse "conf change target length is invalid"
          else do
            let targetConfig ← decodeClusterConfiguration
            let operationId ← readOperationId
            pure { type, joint := joint != 0, member, targetConfig, operationId }

/-- The body of `decodeConfChangeEntry`. -/
def readConfChangeEntry : Scan ConfChangeEntry := do
  let size ← size
  if size < 16 ∨ maximumConfChangeSize < size then refuse "conf change entry has invalid size"
  else readConfChangeFields

/-- `decodeConfChangeEntry` with its output parameter. -/
def decodeConfChangeEntry (input : Bytes) (entry : ConfChangeEntry) :
    Except Fault (Except String Unit × ConfChangeEntry) :=
  assign (scanAll readConfChangeEntry input) entry

/-! ### Following the readers -/

theorem follows_host : Follows anyLeft readHost DistributedKV.readHost := by
  refine .here_bind fun size offset hoffset _ => .test (by omega) fun hsome => ?_
  refine .word_bind (fun left hleft => by omega) fun length => ?_
  exact .left_bind fun rest hrest => .test Iff.rfl fun hvalid =>
    .bytes fun left hleft => by omega

theorem follows_member : Follows anyLeft readMember DistributedKV.readMember := by
  refine .left_bind fun size _ => .test Iff.rfl fun hroom => ?_
  refine .word_bind (fun left hleft => by omega) fun nodeId => ?_
  refine (follows_host.mono fun _ _ => trivial).bind fun clientHost => ?_
  refine follows_host.bind fun peerHost => ?_
  refine .left_bind fun rest _ => .test Iff.rfl fun hports => ?_
  refine .word_bind (fun left hleft => by omega) fun clientPort => ?_
  refine .word_bind (fun left hleft => by omega) fun peerPort => ?_
  exact .test Iff.rfl fun _ => .pure _

theorem follows_members (count : Nat) :
    Follows anyLeft (readMembers count) (DistributedKV.readMembers count) := by
  induction count with
  | zero => exact .pure []
  | succ count ih =>
    exact follows_member.bind fun member => ih.bind fun rest => .pure (member :: rest)

theorem follows_cluster_configuration :
    Follows anyLeft decodeClusterConfiguration DistributedKV.decodeClusterConfiguration := by
  refine .left_bind fun size _ => .test Iff.rfl fun hroom => ?_
  refine .word_bind (fun left hleft => by omega) fun configId => ?_
  refine .word_bind (fun left hleft => by omega) fun count => ?_
  refine .test Iff.rfl fun _ => ?_
  refine ((follows_members count).mono fun _ _ => trivial).bind fun members => ?_
  cases hvalid : validateClusterConfiguration { configId := UInt64.ofNat configId, members } 0 with
  | error message =>
    simp only [hvalid, refuseInvalid]
    exact .refuse message
  | ok _ =>
    simp only [hvalid, refuseInvalid]
    exact .pure _

theorem follows_changed_member (type : ConfChangeType) :
    Follows anyLeft (readChangedMember type) (DistributedKV.readChangedMember type) := by
  cases type with
  | addNode => exact follows_member
  | removeNode =>
    refine .here_bind fun size offset hoffset _ => .test (by omega) fun hroom => ?_
    refine .word_bind (fun left hleft => by omega) fun nodeId => ?_
    exact .test Iff.rfl fun _ => .pure _

theorem follows_operation_id : Follows anyLeft readOperationId DistributedKV.readOperationId := by
  refine .left_bind fun size _ => .ite (fun hid => ?_) fun hnone => ?_
  · exact .word_bind (fun left hleft => by omega) fun operationId => .pure _
  · exact .at_end fun _ => .pure _

theorem follows_conf_change_fields :
    Follows (atLeast 16) readConfChangeFields DistributedKV.readConfChangeEntry := by
  refine .word_bind (fun left hleft => le_trans (by decide) hleft) fun magic => ?_
  refine .test Iff.rfl fun _ => ?_
  refine .word_bind (fun left hleft => ?_) fun code => ?_
  · rw [atLeast] at hleft; omega
  refine .word_bind (fun left hleft => ?_) fun joint => ?_
  · rw [atLeast] at hleft; omega
  cases ConfChangeType.ofCode code with
  | none => exact .refuse _
  | some type =>
    refine ((follows_changed_member type).mono fun _ _ => trivial).bind fun member => ?_
    refine .here_bind fun size offset hoffset _ => .test (by omega) fun hroom => ?_
    refine .word_bind (fun left hleft => by omega) fun targetSize => ?_
    refine .left_bind fun rest _ => .test Iff.rfl fun _ => ?_
    refine (follows_cluster_configuration.mono fun _ _ => trivial).bind fun targetConfig => ?_
    exact follows_operation_id.bind fun operationId => .pure _

/-- The decoder of changes commits no fault. -/
theorem scan_conf_change_entry (input : Bytes) :
    (∃ change, scanAll readConfChangeEntry input = .ok change ∧
      DistributedKV.decodeConfChangeEntry input = .ok change) ∨
    ∃ message, scanAll readConfChangeEntry input = .error (.refused message) ∧
      DistributedKV.decodeConfChangeEntry input = .error (.refused message) := by
  by_cases hsize : input.length < 16 ∨ maximumConfChangeSize < input.length
  · refine .inr ⟨"conf change entry has invalid size", ?_, if_pos hsize⟩
    show Except.map _ ((if input.length < 16 ∨ maximumConfChangeSize < input.length then _
      else _ : Scan ConfChangeEntry) input 0) = _
    rw [if_pos hsize]
    rfl
  · have hscan : scanAll readConfChangeEntry input = scanAll readConfChangeFields input := by
      show Except.map _ ((if input.length < 16 ∨ maximumConfChangeSize < input.length then _
        else _ : Scan ConfChangeEntry) input 0) = _
      rw [if_neg hsize]
      rfl
    have hknown : atLeast 16 input.length := Nat.not_lt.mp (not_or.mp hsize).1
    rw [hscan, DistributedKV.decodeConfChangeEntry, if_neg hsize]
    exact follows_conf_change_fields.scan_all hknown

end ConfChangeScan

/-! ## Key-value commands -/

namespace KVCommandScan

open KVCommandCodec

/-- The body of `KVCommandCodec::decode`. -/
def readCommand : Scan KVCommand := do
  let size ← size
  if size < commandHeaderSize then refuse "invalid KV command header"
  else do
    let magic ← bytesAt 0 4
    let version ← byteAt 4
    let first ← byteAt 6
    let second ← byteAt 7
    if magic ≠ commandMagic ∨ version ≠ commandVersion ∨ first ≠ 0 ∨ second ≠ 0 then
      refuse "invalid KV command header"
    else do
      let code ← byteAt 5
      let clientId ← UInt64.ofNat <$> wordAt 8 8
      let requestId ← UInt64.ofNat <$> wordAt 16 8
      let keySize ← wordAt 24 4
      let valueSize ← wordAt 28 4
      let bodySize ← minus size commandHeaderSize
      match KVCommandType.ofCode code with
      | none => refuse "invalid KV command fields"
      | some type =>
        if clientId = 0 ∨ requestId = 0 ∨ maximumCommandKeySize < keySize ∨
            maximumCommandValueSize < valueSize ∨ keySize + valueSize ≠ bodySize ∨
            (type = .delete ∧ valueSize ≠ 0) then
          refuse "invalid KV command fields"
        else do
          let key ← substring commandHeaderSize keySize
          let value ← substring (commandHeaderSize + keySize) valueSize
          pure { type, clientId, requestId, key, value }

/-- `KVCommandCodec::decode` with its output parameter. -/
def decode (encoded : Bytes) (command : KVCommand) :
    Except Fault (Except String Unit × KVCommand) :=
  assign (scanAll readCommand encoded) command

/-- The decoder of commands commits no fault. -/
theorem scan_command (encoded : Bytes) :
    (∃ command, scanAll readCommand encoded = .ok command ∧
      KVCommandCodec.decode encoded = .ok command) ∨
    ∃ message, scanAll readCommand encoded = .error (.refused message) ∧
      KVCommandCodec.decode encoded = .error message := by
  have hsize : ∀ next : Nat → Scan KVCommand,
      (size >>= next) encoded 0 = next encoded.length encoded 0 := fun next => rfl
  rw [scanAll, readCommand, hsize]
  by_cases hshort : encoded.length < commandHeaderSize
  · refine .inr ⟨"invalid KV command header", ?_, ?_⟩
    · rw [if_pos hshort]
      rfl
    · have hheader : headerValid encoded = false := by
        rw [headerValid, decide_eq_false (Nat.not_le.mpr hshort)]
        rfl
      rw [KVCommandCodec.decode, if_pos hheader]
  rw [if_neg hshort]
  have hroom : commandHeaderSize ≤ encoded.length := Nat.not_lt.mp hshort
  have hlong : 32 ≤ encoded.length := hroom
  -- the header is there, so that every access to it is in range
  have hbyte : ∀ index, index < 32 → ∃ byte, encoded[index]? = some byte := fun index hindex =>
    ⟨_, List.getElem?_eq_getElem (hindex.trans_le hlong)⟩
  obtain ⟨version, hversion⟩ := hbyte 4 (by decide)
  obtain ⟨first, hfirst⟩ := hbyte 6 (by decide)
  obtain ⟨second, hsecond⟩ := hbyte 7 (by decide)
  obtain ⟨code, hcode⟩ := hbyte 5 (by decide)
  have hword : ∀ index width, index + width ≤ 32 →
      wordAt index width encoded 0 = .ok (ByteReader.wordAt index width encoded, 0) :=
    fun index width hrange => word_at_eq_ok 0 (hrange.trans hlong)
  have hmapped : ∀ index, index + 8 ≤ 32 → (UInt64.ofNat <$> wordAt index 8) encoded 0 =
      .ok (UInt64.ofNat (ByteReader.wordAt index 8 encoded), 0) := by
    intro index hrange
    rw [map_eq_pure_bind, bind_ok (hword index 8 hrange)]
    rfl
  rw [bind_ok (bytes_at_eq_ok 0 (by omega)), bind_ok (byte_at_eq_ok 0 hversion),
    bind_ok (byte_at_eq_ok 0 hfirst), bind_ok (byte_at_eq_ok 0 hsecond)]
  have hheader : headerValid encoded = false ↔
      (encoded.drop 0).take 4 ≠ commandMagic ∨ version ≠ commandVersion ∨ first ≠ 0 ∨ second ≠ 0 := by
    rw [headerValid, decide_eq_true hroom, hversion,
      hfirst, hsecond, List.drop_zero, Bool.true_and]
    simp only [Bool.and_eq_false_iff, beq_eq_false_iff_ne, ne_eq, Option.some.injEq, or_assoc]
  rw [KVCommandCodec.decode]
  by_cases hinvalid : headerValid encoded = false
  · rw [if_pos (hheader.mp hinvalid), if_pos hinvalid]
    exact .inr ⟨_, rfl, rfl⟩
  rw [if_neg (mt hheader.mpr hinvalid), if_neg hinvalid, bind_ok (byte_at_eq_ok 0 hcode),
    bind_ok (hmapped 8 (by decide)), bind_ok (hmapped 16 (by decide)),
    bind_ok (hword 24 4 (by decide)), bind_ok (hword 28 4 (by decide)),
    bind_ok (minus_eq_ok hroom encoded 0), hcode]
  dsimp only [Option.bind_eq_bind, Option.bind_some]
  cases KVCommandType.ofCode code with
  | none => exact .inr ⟨_, rfl, rfl⟩
  | some type =>
    dsimp only
    split_ifs with hfields
    · exact .inr ⟨_, rfl, rfl⟩
    · simp only [not_or, ne_eq, not_not] at hfields
      have hkey := hfields.2.2.2.2.1
      rw [bind_ok (substring_eq_ok _ 0 hroom), bind_ok (substring_eq_ok _ 0 (by omega))]
      exact .inl ⟨_, rfl, rfl⟩

end KVCommandScan

end DistributedKV
