import DistributedKV.Foundation.ByteReader
import DistributedKV.Raft.Types

/-!
# Cluster configurations and membership changes

The configurations of `src/raft/cluster_config.cpp`, their validation, and the codec of the
configuration-change entries that travel in the log. `decodeConfChangeEntry` follows the
source in reading the target's length without limiting the target to it, and in accepting
entries without an operation id.
-/

namespace DistributedKV

open ByteReader

/-- `kMaximumMemberCount`. -/
def maximumMemberCount : Nat := 64

/-- `kMaximumHostSize`. -/
def maximumHostSize : Nat := 255

/-- `kMaximumConfChangeSize`. -/
def maximumConfChangeSize : Nat := 64 * 1024

/-- `kConfChangeMagic`. -/
def confChangeMagic : Nat := 0x43434647

/-- One cluster member with its client and peer endpoints. -/
structure ClusterMember where
  nodeId : NodeId := 0
  clientHost : Bytes := []
  clientPort : UInt16 := 0
  peerHost : Bytes := []
  peerPort : UInt16 := 0
  deriving DecidableEq, Repr

/-- A numbered set of voters, listed by increasing node id. -/
structure ClusterConfiguration where
  configId : UInt64 := 0
  members : List ClusterMember := []
  deriving DecidableEq, Repr

/-- The two membership changes. -/
inductive ConfChangeType where
  | addNode
  | removeNode
  deriving DecidableEq, Repr

/-- An administrator's membership request, with the id that makes it idempotent. -/
structure MembershipOperation where
  operationId : UInt64 := 0
  type : ConfChangeType := .addNode
  member : ClusterMember := {}
  deriving DecidableEq, Repr

/-- A configuration change in the log. A joint entry opens the change to `targetConfig`, an
entry that is not joint closes it. -/
structure ConfChangeEntry where
  type : ConfChangeType := .addNode
  joint : Bool := false
  member : ClusterMember := {}
  targetConfig : ClusterConfiguration := {}
  operationId : UInt64 := 0
  deriving DecidableEq, Repr

/-- The member ids of a configuration, in its order. -/
def configurationMemberIds (config : ClusterConfiguration) : List NodeId :=
  config.members.map (·.nodeId)

/-! ## Validation -/

/-- The member loop of `validateClusterConfiguration`: increasing nonzero ids and complete
endpoints. -/
def membersValid : NodeId → List ClusterMember → Bool
  | _, [] => true
  | previousId, member :: rest =>
    if member.nodeId = 0 ∨ member.nodeId ≤ previousId ∨ member.clientHost = [] ∨
        member.peerHost = [] ∨ member.clientPort = 0 ∨ member.peerPort = 0 then false
    else membersValid member.nodeId rest

/-- Validate a configuration. A nonzero local id must be among the members. -/
def validateClusterConfiguration (config : ClusterConfiguration) (localNodeId : NodeId) :
    Except String Unit :=
  if config.configId = 0 ∨ config.members = [] ∨
      maximumMemberCount < config.members.length then
    .error "cluster configuration metadata is invalid"
  else if membersValid 0 config.members = false then
    .error "cluster member is invalid or out of order"
  else if localNodeId = 0 ∨ localNodeId ∈ configurationMemberIds config then .ok ()
  else .error "cluster configuration does not include local node"

/-- Validate a membership operation: an added member has both endpoints, a removed one none. -/
def validateMembershipOperation (operation : MembershipOperation) : Except String Unit :=
  if operation.operationId = 0 ∨ operation.member.nodeId = 0 then
    .error "membership operation metadata is invalid"
  else
    match operation.type with
    | .addNode =>
      if operation.member.clientHost = [] ∨
          maximumHostSize < operation.member.clientHost.length ∨
          operation.member.clientPort = 0 ∨ operation.member.peerHost = [] ∨
          maximumHostSize < operation.member.peerHost.length ∨
          operation.member.peerPort = 0 then
        .error "add membership operation endpoint is invalid"
      else .ok ()
    | .removeNode =>
      if operation.member.clientHost ≠ [] ∨ operation.member.clientPort ≠ 0 ∨
          operation.member.peerHost ≠ [] ∨ operation.member.peerPort ≠ 0 then
        .error "remove membership operation contains an endpoint"
      else .ok ()

/-! ## Writing -/

/-- Four bytes, most significant first. -/
def append32 (value : Nat) : Bytes := bigEndian 4 value

/-- Eight bytes, most significant first. -/
def append64 (value : Nat) : Bytes := bigEndian 8 value

/-- A host name with its one-byte length. -/
def appendHost (host : Bytes) : Except String Bytes :=
  if host = [] ∨ maximumHostSize < host.length then .error "cluster host is invalid"
  else .ok (UInt8.ofNat host.length :: host)

/-- A member with both endpoints. -/
def appendMember (member : ClusterMember) : Except String Bytes := do
  let clientHost ← appendHost member.clientHost
  let peerHost ← appendHost member.peerHost
  pure (append64 member.nodeId.toNat ++ clientHost ++ peerHost ++
    append32 member.clientPort.toNat ++ append32 member.peerPort.toNat)

/-- The members one after the other. -/
def appendMembers : List ClusterMember → Except String Bytes
  | [] => .ok []
  | member :: rest => do
      let bytes ← appendMember member
      let more ← appendMembers rest
      pure (bytes ++ more)

/-- A configuration: its id, the member count and the members. -/
def encodeClusterConfiguration (config : ClusterConfiguration) : Except String Bytes := do
  validateClusterConfiguration config 0
  let members ← appendMembers config.members
  pure (append64 config.configId.toNat ++ append32 config.members.length ++ members)

/-- The code of a change on the wire. -/
def ConfChangeType.code : ConfChangeType → UInt8
  | .addNode => 1
  | .removeNode => 2

/-- The byte of the joint flag. -/
def jointCode (joint : Bool) : UInt8 := if joint then 1 else 0

/-- The member of a change: its whole record when added, its id when removed. -/
def appendChangedMember (type : ConfChangeType) (member : ClusterMember) :
    Except String Bytes :=
  match type with
  | .removeNode => .ok (append64 member.nodeId.toNat)
  | .addNode => appendMember member

/-- The log command of a configuration change. -/
def encodeConfChangeEntry (entry : ConfChangeEntry) : Except String Bytes := do
  validateClusterConfiguration entry.targetConfig 0
  if entry.type = .removeNode ∧ entry.member.nodeId = 0 then
    .error "remove conf change must carry node id"
  else
    let member ← appendChangedMember entry.type entry.member
    let target ← encodeClusterConfiguration entry.targetConfig
    let bytes := append32 confChangeMagic ++ [entry.type.code, jointCode entry.joint] ++
      member ++ append32 target.length ++ target ++ append64 entry.operationId.toNat
    if maximumConfChangeSize < bytes.length then
      .error "conf change entry exceeds size limit"
    else .ok bytes

/-- The bytes of a membership operation. -/
def encodeMembershipOperation (operation : MembershipOperation) : Except String Bytes := do
  validateMembershipOperation operation
  let member ← appendChangedMember operation.type operation.member
  pure (append64 operation.operationId.toNat ++ [operation.type.code] ++ member)

/-! ## Reading -/

/-- A host name with its one-byte length. -/
def readHost : Reader Bytes := do
  let size ← remaining
  if size = 0 then refuse "cluster host length is truncated"
  else
    let length ← takeWord 1
    let rest ← remaining
    if length = 0 ∨ maximumHostSize < length ∨ rest < length then
      refuse "cluster host has invalid length"
    else takeBytes length

/-- A member with both endpoints. The ports are words cut down to sixteen bits. -/
def readMember : Reader ClusterMember := do
  let size ← remaining
  if size < 8 then refuse "cluster member is truncated"
  else
    let nodeId ← takeWord 8
    let clientHost ← readHost
    let peerHost ← readHost
    let rest ← remaining
    if rest < 8 then refuse "cluster member ports are truncated"
    else
      let clientPort ← takeWord 4
      let peerPort ← takeWord 4
      let member : ClusterMember :=
        { nodeId := UInt64.ofNat nodeId, clientHost, clientPort := UInt16.ofNat clientPort,
          peerHost, peerPort := UInt16.ofNat peerPort }
      if member.nodeId = 0 ∨ member.clientPort = 0 ∨ member.peerPort = 0 then
        refuse "cluster member endpoint is invalid"
      else pure member

/-- A given number of members. -/
def readMembers : Nat → Reader (List ClusterMember)
  | 0 => pure []
  | count + 1 => do
      let member ← readMember
      let rest ← readMembers count
      pure (member :: rest)

/-- Turn a validation error into a refusal. -/
def refuseInvalid : Except String Unit → Reader Unit
  | .ok () => pure ()
  | .error message => refuse message

/-- A configuration, validated after it is read. -/
def decodeClusterConfiguration : Reader ClusterConfiguration := do
  let size ← remaining
  if size < 12 then refuse "cluster configuration is truncated"
  else
    let configId ← takeWord 8
    let count ← takeWord 4
    if configId = 0 ∨ count = 0 ∨ maximumMemberCount < count then
      refuse "cluster configuration count is invalid"
    else
      let members ← readMembers count
      let config : ClusterConfiguration := { configId := UInt64.ofNat configId, members }
      refuseInvalid (validateClusterConfiguration config 0)
      pure config

/-- The change with a code, if there is one. -/
def ConfChangeType.ofCode (code : Nat) : Option ConfChangeType :=
  if code = 1 then some .addNode else if code = 2 then some .removeNode else none

/-- The member of a change. -/
def readChangedMember (type : ConfChangeType) : Reader ClusterMember :=
  match type with
  | .removeNode => do
      let size ← remaining
      if size < 8 then refuse "remove conf change node id is truncated"
      else
        let nodeId ← takeWord 8
        if nodeId = 0 then refuse "remove conf change node id is invalid"
        else pure { nodeId := UInt64.ofNat nodeId }
  | .addNode => readMember

/-- The operation id at the end of an entry; older entries have none. -/
def readOperationId : Reader UInt64 := do
  let size ← remaining
  if size = 8 then
    let operationId ← takeWord 8
    pure (UInt64.ofNat operationId)
  else if size ≠ 0 then refuse "conf change entry has trailing bytes"
  else pure 0

/-- The reader behind `decodeConfChangeEntry`. -/
def readConfChangeEntry : Reader ConfChangeEntry := do
  let magic ← takeWord 4
  if magic ≠ confChangeMagic then refuse "conf change entry has invalid magic"
  else
    let code ← takeWord 1
    let joint ← takeWord 1
    match ConfChangeType.ofCode code with
    | none => refuse "conf change entry has invalid type"
    | some type =>
      let member ← readChangedMember type
      let size ← remaining
      if size < 4 then refuse "conf change target length is truncated"
      else
        let targetSize ← takeWord 4
        let rest ← remaining
        if targetSize = 0 ∨ rest < targetSize then
          refuse "conf change target length is invalid"
        else
          let targetConfig ← decodeClusterConfiguration
          let operationId ← readOperationId
          pure { type, joint := joint != 0, member, targetConfig, operationId }

/-- Decode a log command as a configuration change. -/
def decodeConfChangeEntry (input : Bytes) : Except ReadError ConfChangeEntry :=
  if input.length < 16 ∨ maximumConfChangeSize < input.length then
    .error (.refused "conf change entry has invalid size")
  else (readConfChangeEntry input).map (·.1)

/-- The member of a membership operation. -/
def readOperationMember (type : ConfChangeType) : Reader ClusterMember :=
  match type with
  | .addNode => readMember
  | .removeNode => do
      let size ← remaining
      if size < 8 then refuse "remove membership operation is truncated"
      else
        let nodeId ← takeWord 8
        pure { nodeId := UInt64.ofNat nodeId }

/-- A membership operation, validated after it is read. A type that does not exist is refused by
the validation. -/
def decodeMembershipOperation : Reader MembershipOperation := do
  let size ← remaining
  if size < 9 then refuse "membership operation is truncated"
  else
    let operationId ← takeWord 8
    let code ← takeWord 1
    match ConfChangeType.ofCode code with
    | none => refuse "membership operation metadata is invalid"
    | some type =>
      let member ← readOperationMember type
      let operation : MembershipOperation :=
        { operationId := UInt64.ofNat operationId, type, member }
      refuseInvalid (validateMembershipOperation operation)
      pure operation

end DistributedKV
