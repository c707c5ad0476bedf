import DistributedKV.Foundation.Framing
import DistributedKV.Raft.ClusterConfig

/-!
# The wire protocol of clients

The frames of `src/network/protocol.cpp`: a header of twenty bytes with the type, the flags, the
size of the body and the request id, and a body with the fields of a request or a response. The
framing knows nothing of the fields; `decodeRequest` and `decodeResponse` read them from the body of
a frame and check them again. `decode_request_eq_ok` and `decode_response_eq_ok` say that they
accept exactly the bodies that the encoders write.
-/

namespace DistributedKV

open ByteReader Framing List

/-! ## Requests and responses -/

/-- The types of client frames. -/
inductive MessageType where
  | setRequest
  | getRequest
  | deleteRequest
  | addNodeRequest
  | removeNodeRequest
  | listMembersRequest
  | response
  deriving DecidableEq, Repr

/-- How a request came out. -/
inductive StatusCode where
  | ok
  | notFound
  | invalidRequest
  | internalError
  | notLeader
  | serverBusy
  | unavailable
  deriving DecidableEq, Repr

/-- A client's request. -/
@[ext] structure Request where
  type : MessageType := .getRequest
  requestId : UInt64 := 0
  key : Bytes := []
  value : Bytes := []
  clientId : UInt64 := 1
  operationId : UInt64 := 0
  nodeId : NodeId := 0
  clientHost : Bytes := []
  clientPort : UInt16 := 0
  peerHost : Bytes := []
  peerPort : UInt16 := 0
  deriving DecidableEq, Repr

/-- The answer to a request. The endpoint of a member is the same record on the wire as in a
cluster configuration. -/
structure Response where
  requestId : UInt64
  status : StatusCode
  payload : Bytes
  leaderHost : Bytes := []
  leaderPort : UInt16 := 0
  members : List ClusterMember := []
  deriving DecidableEq, Repr

/-- The bytes of an ASCII text. -/
def asciiBytes (text : String) : Bytes := text.toList.map fun letter => UInt8.ofNat letter.toNat

/-- A complete frame. -/
structure Frame where
  type : MessageType := .getRequest
  flags : UInt16 := 0
  requestId : UInt64 := 0
  body : Bytes := []
  deriving DecidableEq, Repr

namespace Protocol

/-- `kProtocolHeaderSize`. -/
def protocolHeaderSize : Nat := 20

/-- `kMaxKeySize`. -/
def maxKeySize : Nat := 4 * 1024

/-- `kMaxValueSize`. -/
def maxValueSize : Nat := 1024 * 1024

/-- `kMaxHostSize`. -/
def maxHostSize : Nat := 255

/-- `kMaxBodySize`. -/
def maxBodySize : Nat := maxKeySize + maxValueSize + maxHostSize + 16

/-- The bytes `DKV1`. -/
def magic : Bytes := [0x44, 0x4b, 0x56, 0x31]

/-- `kVersion`. -/
def version : Nat := 3

/-- `kResponseFlag`. -/
def responseFlag : UInt16 := 1

/-- The largest number of members in a response. -/
def maxMemberCount : Nat := 64

/-- The code of a message type. -/
def typeCode : MessageType → Nat
  | .setRequest => 1
  | .getRequest => 2
  | .deleteRequest => 3
  | .addNodeRequest => 4
  | .removeNodeRequest => 5
  | .listMembersRequest => 6
  | .response => 128

/-- The message type with a code. -/
def typeOfCode (code : Nat) : Option MessageType :=
  [.setRequest, .getRequest, .deleteRequest, .addNodeRequest, .removeNodeRequest,
    .listMembersRequest, .response].find? fun type => typeCode type == code

/-- The code of a status. -/
def statusCode : StatusCode → Nat
  | .ok => 0
  | .notFound => 1
  | .invalidRequest => 2
  | .internalError => 3
  | .notLeader => 4
  | .serverBusy => 5
  | .unavailable => 6

/-- The status with a code. -/
def statusOfCode (code : Nat) : Option StatusCode :=
  [.ok, .notFound, .invalidRequest, .internalError, .notLeader, .serverBusy, .unavailable].find?
    fun status => statusCode status == code

/-- Whether a type is a supported request. -/
def isRequestType (type : MessageType) : Bool :=
  type == .setRequest || type == .getRequest || type == .deleteRequest ||
    type == .addNodeRequest || type == .removeNodeRequest || type == .listMembersRequest

/-- Whether a type is a request for a key. -/
def isKvRequestType (type : MessageType) : Bool :=
  type == .setRequest || type == .getRequest || type == .deleteRequest

/-- Whether both endpoints of a member are given. -/
def validEndpoint (nodeId : NodeId) (clientHost : Bytes) (clientPort : UInt16) (peerHost : Bytes)
    (peerPort : UInt16) : Bool :=
  nodeId != 0 && clientHost != [] && decide (clientHost.length ≤ maxHostSize) && clientPort != 0 &&
    peerHost != [] && decide (peerHost.length ≤ maxHostSize) && peerPort != 0

/-! ## Writing -/

/-- Two bytes, most significant first. -/
def appendUint16 (value : UInt16) : Bytes := bigEndian 2 value.toNat

/-- Four bytes, most significant first. -/
def appendUint32 (value : Nat) : Bytes := bigEndian 4 value

/-- Eight bytes, most significant first. -/
def appendUint64 (value : UInt64) : Bytes := bigEndian 8 value.toNat

/-- A string with its length. -/
def appendString (value : Bytes) : Bytes := appendUint32 value.length ++ value

/-- The bytes of a frame. -/
def frameBytes (frame : Frame) : Bytes :=
  magic ++ bigEndian 1 version ++ bigEndian 1 (typeCode frame.type) ++ appendUint16 frame.flags ++
    appendUint32 frame.body.length ++ appendUint64 frame.requestId ++ frame.body

/-- Encode a frame, or refuse its size. -/
def encodeFrame (type : MessageType) (flags : UInt16) (requestId : UInt64) (body : Bytes) :
    Except String Bytes :=
  if maxBodySize < body.length ∨ 2 ^ 32 - 1 < body.length then
    .error "message body exceeds protocol limit"
  else .ok (frameBytes { type, flags, requestId, body })

/-- The fields behind the client of a request. -/
def requestFields (request : Request) : Bytes :=
  if isKvRequestType request.type then
    appendString request.key ++
      if request.type = .setRequest then appendString request.value else []
  else if request.type = .addNodeRequest then
    appendUint64 request.operationId ++ appendUint64 request.nodeId ++
      appendString request.clientHost ++ appendUint16 request.clientPort ++
      appendString request.peerHost ++ appendUint16 request.peerPort
  else if request.type = .removeNodeRequest then
    appendUint64 request.operationId ++ appendUint64 request.nodeId
  else []

/-- The body of a request. -/
def requestBody (request : Request) : Bytes :=
  appendUint64 request.clientId ++ requestFields request

/-- Encode a request, or refuse its fields. -/
def encodeRequest (request : Request) : Except String Bytes :=
  let isMembershipRequest :=
    request.type == .addNodeRequest || request.type == .removeNodeRequest
  if isRequestType request.type = false then .error "unsupported request type"
  else if request.clientId = 0 ∨ request.requestId = 0 then
    .error "client and request ids must be nonzero"
  else if maxKeySize < request.key.length then .error "key exceeds protocol limit"
  else if request.type ≠ .setRequest ∧ request.value ≠ [] then
    .error "GET/DELETE request must not contain a value"
  else if maxValueSize < request.value.length then .error "value exceeds protocol limit"
  else if isKvRequestType request.type = false ∧ (request.key ≠ [] ∨ request.value ≠ []) then
    .error "admin request must not contain KV fields"
  else if (isMembershipRequest = true ∧ request.operationId = 0) ∨
      (isMembershipRequest = false ∧ request.operationId ≠ 0) then
    .error "membership operation id is invalid"
  else if isKvRequestType request.type = true ∧
      (request.nodeId ≠ 0 ∨ request.clientHost ≠ [] ∨ request.clientPort ≠ 0 ∨
        request.peerHost ≠ [] ∨ request.peerPort ≠ 0) then
    .error "KV request must not contain member fields"
  else if request.type = .addNodeRequest ∧
      validEndpoint request.nodeId request.clientHost request.clientPort request.peerHost
        request.peerPort = false then
    .error "ADD_NODE endpoint is invalid"
  else if request.type = .removeNodeRequest ∧ request.nodeId = 0 then
    .error "REMOVE_NODE id is invalid"
  else if (request.type = .removeNodeRequest ∨ request.type = .listMembersRequest) ∧
      (request.clientHost ≠ [] ∨ request.clientPort ≠ 0 ∨ request.peerHost ≠ [] ∨
        request.peerPort ≠ 0) then
    .error "admin request contains unexpected endpoint"
  else if request.type = .listMembersRequest ∧ request.nodeId ≠ 0 then
    .error "LIST_MEMBERS must not contain a node id"
  else encodeFrame request.type 0 request.requestId (requestBody request)

/-- A member of a response. -/
def memberBytes (member : ClusterMember) : Bytes :=
  appendUint64 member.nodeId ++ appendString member.clientHost ++
    appendUint16 member.clientPort ++ appendString member.peerHost ++ appendUint16 member.peerPort

/-- Whether both endpoints of a member are given. -/
def validMember (member : ClusterMember) : Bool :=
  validEndpoint member.nodeId member.clientHost member.clientPort member.peerHost member.peerPort

/-- The body of a response. The number of members is cut down to sixteen bits. -/
def responseBody (response : Response) : Bytes :=
  bigEndian 1 (statusCode response.status) ++ appendString response.payload ++
    appendString response.leaderHost ++ appendUint16 response.leaderPort ++
    bigEndian 2 response.members.length ++ response.members.flatMap memberBytes

/-- The leader of a response is given by a host and a port, or not at all. -/
def leaderInvalid (host : Bytes) (port : UInt16) : Prop :=
  (host = [] ∧ port ≠ 0) ∨ (host ≠ [] ∧ port = 0)

instance (host : Bytes) (port : UInt16) : Decidable (leaderInvalid host port) :=
  inferInstanceAs (Decidable (_ ∨ _))

/-- Encode a response, or refuse its fields. -/
def encodeResponse (response : Response) : Except String Bytes :=
  if maxValueSize < response.payload.length then .error "response payload exceeds protocol limit"
  else if maxHostSize < response.leaderHost.length ∨
      leaderInvalid response.leaderHost response.leaderPort then
    .error "response leader endpoint is invalid"
  else if maxMemberCount < response.members.length ∨
      (response.members.any fun member => !validMember member) = true then
    .error "response member list is invalid"
  else encodeFrame .response responseFlag response.requestId (responseBody response)

/-! ## Reading -/

section Readers

variable {m : Type → Type} [Monad m] [Parser m]

/-- Two bytes, most significant first. -/
def readUint16 : m UInt16 := UInt16.ofNat <$> takeWord 2

/-- Eight bytes, most significant first. -/
def readUint64 : m UInt64 := UInt64.ofNat <$> takeWord 8

/-- A string with its length. -/
def readString (maximumSize : Nat) : m Bytes := do
  let behind ← beyond
  if behind then refuse "missing string length"
  else do
    let size ← remaining
    if size < 4 then refuse "missing string length"
    else do
      let length ← takeWord 4
      let left ← remaining
      if maximumSize < length ∨ left < length then refuse "invalid string length"
      else takeBytes length

/-- A port. When it is missing no text is set, so that the caller's stays. -/
def readPort (error : String) : m UInt16 := do
  let size ← remaining
  if size < 2 then refuse error else readUint16

/-- What the header of a frame says. -/
structure Header where
  type : MessageType
  flags : UInt16
  bodySize : Nat
  requestId : UInt64
  deriving DecidableEq, Repr

/-- Requests have no flag, responses have theirs. -/
def flagsValid (type : MessageType) (flags : UInt16) : Prop :=
  (isRequestType type = true ∧ flags = 0) ∨ (type = .response ∧ flags = responseFlag)

instance (type : MessageType) (flags : UInt16) : Decidable (flagsValid type flags) :=
  inferInstanceAs (Decidable (_ ∨ _))

/-- The checks of a header, in their order. -/
def readHeader : Reader Header := do
  let foundMagic ← takeBytes 4
  let foundVersion ← takeWord 1
  let rawType ← takeWord 1
  let flags ← readUint16
  let bodySize ← takeWord 4
  let requestId ← readUint64
  if foundMagic ≠ magic then refuse "invalid protocol magic"
  else if foundVersion ≠ version then refuse "unsupported protocol version"
  else do
    let type ← orRefuse "invalid message type or flags" (typeOfCode rawType)
    if ¬ flagsValid type flags then refuse "invalid message type or flags"
    else if maxBodySize < bodySize then refuse "message body exceeds protocol limit"
    else pure { type, flags, bodySize, requestId }

/-- The frames of the protocol. A complete frame is not looked into. -/
def format : FrameFormat Header Frame where
  headerSize := protocolHeaderSize
  header_pos := by decide
  readHeader := readHeader
  bodySize := Header.bodySize
  readBody header := do
    let size ← remaining
    let body ← takeBytes size
    pure { type := header.type, flags := header.flags, requestId := header.requestId, body }

/-- Take a complete frame off the front of a buffer. -/
def tryDecode (buffer : Bytes) : DecodeStatus Frame × Bytes := format.tryDecode buffer

/-- The key of a request, and the value of a SET. -/
def readKvFields (decoded : Request) : m Request := do
  let key ← readString maxKeySize
  if decoded.type = .setRequest then do
    let value ← readString maxValueSize
    pure { decoded with key, value }
  else pure { decoded with key }

/-- The operation and the member of an ADD_NODE. -/
def readAddNodeFields (error : String) (decoded : Request) : m Request := do
  let size ← remaining
  if size < 16 then refuse "ADD_NODE id is truncated"
  else do
    let operationId ← readUint64
    let nodeId ← readUint64
    let clientHost ← readString maxHostSize
    let clientPort ← readPort error
    let peerHost ← readString maxHostSize
    let peerPort ← readPort error
    if validEndpoint nodeId clientHost clientPort peerHost peerPort = false then
      refuse "ADD_NODE endpoint is invalid"
    else pure { decoded with operationId, nodeId, clientHost, clientPort, peerHost, peerPort }

/-- The operation and the node of a REMOVE_NODE. -/
def readRemoveNodeFields (decoded : Request) : m Request := do
  let size ← remaining
  if size ≠ 16 then refuse "REMOVE_NODE id is malformed"
  else do
    let operationId ← readUint64
    let nodeId ← readUint64
    if operationId = 0 ∨ nodeId = 0 then refuse "REMOVE_NODE id is invalid"
    else pure { decoded with operationId, nodeId }

/-- The fields behind the client of a request. -/
def readRequestFields (error : String) (decoded : Request) : m Request :=
  if isKvRequestType decoded.type then readKvFields decoded
  else if decoded.type = .addNodeRequest then readAddNodeFields error decoded
  else if decoded.type = .removeNodeRequest then readRemoveNodeFields decoded
  else pure decoded

/-- The test of the operation id behind the fields. -/
def operationInvalid (decoded : Request) : Prop :=
  (decoded.type = .addNodeRequest ∧ decoded.operationId = 0) ∨
    (isKvRequestType decoded.type = false ∧ decoded.type ≠ .addNodeRequest ∧
      decoded.type ≠ .removeNodeRequest ∧ decoded.operationId ≠ 0)

instance : DecidablePred operationInvalid := fun _ => inferInstanceAs (Decidable (_ ∨ _))

/-- The body of a request. -/
def readRequest (error : String) (frame : Frame) : m Request :=
  if isRequestType frame.type = false ∨ frame.flags ≠ 0 then refuse "frame is not a request"
  else do
    let size ← remaining
    if size < 8 then refuse "request is missing client id"
    else do
      let clientId ← readUint64
      if clientId = 0 ∨ frame.requestId = 0 then
        refuse "client and request ids must be nonzero"
      else do
        let decoded ← readRequestFields error
          { type := frame.type, requestId := frame.requestId, clientId }
        if operationInvalid decoded then refuse "membership operation id is invalid"
        else pure decoded

/-- Convert a frame into a request. -/
def decodeRequest (error : String) (frame : Frame) : Except ReadError Request :=
  parse (ended "request contains trailing bytes" (readRequest error frame)) frame.body

/-- A member of a response. -/
def readMember (error : String) : m ClusterMember := do
  let size ← remaining
  if size < 8 then refuse "response member id is truncated"
  else do
    let nodeId ← readUint64
    let clientHost ← readString maxHostSize
    let clientPort ← readPort error
    let peerHost ← readString maxHostSize
    let peerPort ← readPort error
    if validEndpoint nodeId clientHost clientPort peerHost peerPort = false then
      refuse "response member endpoint is invalid"
    else pure { nodeId, clientHost, clientPort, peerHost, peerPort }

/-- The body of a response. -/
def readResponse (error : String) (frame : Frame) : m Response := do
  let size ← remaining
  if frame.type ≠ .response ∨ frame.flags ≠ responseFlag ∨ size = 0 then
    refuse "frame is not a valid response"
  else do
    let code ← takeWord 1
    let status ← orRefuse "unknown response status" (statusOfCode code)
    let payload ← readString maxValueSize
    let leaderHost ← readString maxHostSize
    let left ← remaining
    if left < 4 then
      refuse (if error = "" then "response contains trailing bytes" else error)
    else do
      let leaderPort ← readUint16
      if leaderInvalid leaderHost leaderPort then refuse "response leader endpoint is invalid"
      else do
        let memberCount ← takeWord 2
        if maxMemberCount < memberCount then refuse "response member count is invalid"
        else do
          let members ← takeMany (readMember error) memberCount
          pure { requestId := frame.requestId, status, payload, leaderHost, leaderPort, members }

/-- Convert a frame into a response. -/
def decodeResponse (error : String) (frame : Frame) : Except ReadError Response :=
  parse (ended "response contains trailing bytes" (readResponse error frame)) frame.body

end Readers

/-! ## What the readers accept -/

theorem reads_uint16 : Reads readUint16 (fun _ => True) appendUint16 := by
  have hback : ∀ value, value < 256 ^ 2 → (UInt16.ofNat value).toNat = value :=
    fun value hvalue => UInt16.toNat_ofNat_of_lt' hvalue
  have hmap := (Reads.word 2).map hback fun port => UInt16.ofNat_toNat
  exact hmap.congr (fun port => iff_of_true port.toNat_lt trivial) fun _ => rfl

theorem reads_uint64 : Reads readUint64 (fun _ => True) appendUint64 := by
  have hback : ∀ value, value < 256 ^ 8 → (UInt64.ofNat value).toNat = value :=
    fun value hvalue => UInt64.toNat_ofNat_of_lt' hvalue
  have hmap := (Reads.word 8).map hback fun word => UInt64.ofNat_toNat
  exact hmap.congr (fun word => iff_of_true word.toNat_lt trivial) fun _ => rfl

theorem reads_port (error : String) : Reads (readPort error) (fun _ => True) appendUint16 :=
  reads_uint16.room fun port _ => (length_big_endian 2 port.toNat).ge

/-- A string with its length. -/
theorem reads_string {maximumSize : Nat} (hmaximum : maximumSize < 2 ^ 32) :
    Reads (readString maximumSize) (fun text => text.length ≤ maximumSize) appendString := by
  intro input text rest
  rw [readString, beyond_bind, if_neg Bool.false_ne_true, remaining_bind]
  have hword : ∀ value, (appendUint32 value).length = 4 := length_big_endian 4
  split_ifs with hshort
  · refine iff_of_false nofun ?_
    rintro ⟨-, rfl⟩
    rw [appendString, length_append, length_append, hword] at hshort
    omega
  rw [bind_eq_ok]
  constructor
  · rintro ⟨length, between, hlength, hread⟩
    obtain ⟨-, rfl⟩ := (Reads.word 4 _ _ _).mp hlength
    rw [remaining_bind] at hread
    split_ifs at hread with hinvalid
    obtain ⟨rfl, rfl⟩ := (Reads.bytes length _ _ _).mp hread
    exact ⟨by omega, (append_assoc _ _ _).symm⟩
  · rintro ⟨hlength, rfl⟩
    refine ⟨text.length, text ++ rest, (Reads.word 4 _ _ _).mpr ⟨by omega, ?_⟩, ?_⟩
    · exact append_assoc _ _ _
    · rw [remaining_bind, if_neg (by rw [length_append]; omega)]
      exact (Reads.bytes _ _ _ _).mpr ⟨rfl, rfl⟩

theorem reads_key : Reads (readString maxKeySize) (fun key => key.length ≤ maxKeySize) appendString :=
  reads_string (by decide)

theorem reads_value :
    Reads (readString maxValueSize) (fun value => value.length ≤ maxValueSize) appendString :=
  reads_string (by decide)

theorem reads_host :
    Reads (readString maxHostSize) (fun host => host.length ≤ maxHostSize) appendString :=
  reads_string (by decide)

/-! ## Requests -/

/-- No endpoint is given. -/
def NoEndpoint (request : Request) : Prop :=
  request.clientHost = [] ∧ request.clientPort = 0 ∧ request.peerHost = [] ∧ request.peerPort = 0

/-- Neither an operation nor a member is given. -/
def NoMember (request : Request) : Prop :=
  request.operationId = 0 ∧ request.nodeId = 0 ∧ NoEndpoint request

/-- Neither a key nor a value is given. -/
def NoPair (request : Request) : Prop := request.key = [] ∧ request.value = []

/-- A request has the fields that belong to its type, and no others. -/
def FieldsAccepted (request : Request) : Prop :=
  match request.type with
  | .setRequest =>
    NoMember request ∧ request.key.length ≤ maxKeySize ∧ request.value.length ≤ maxValueSize
  | .getRequest | .deleteRequest =>
    (NoMember request ∧ request.value = []) ∧ request.key.length ≤ maxKeySize
  | .addNodeRequest =>
    NoPair request ∧ request.operationId ≠ 0 ∧
      validEndpoint request.nodeId request.clientHost request.clientPort request.peerHost
        request.peerPort = true
  | .removeNodeRequest =>
    (NoPair request ∧ NoEndpoint request) ∧ request.operationId ≠ 0 ∧ request.nodeId ≠ 0
  | .listMembersRequest => NoPair request ∧ NoMember request
  | .response => False

/-- The requests that can be encoded. -/
def Accepted (request : Request) : Prop :=
  request.clientId ≠ 0 ∧ request.requestId ≠ 0 ∧ FieldsAccepted request

variable {type : MessageType} {bytes : Bytes}

theorem encode_frame_eq_ok {flags : UInt16} {requestId : UInt64} {body : Bytes} :
    encodeFrame type flags requestId body = .ok bytes ↔
      body.length ≤ maxBodySize ∧ bytes = frameBytes { type, flags, requestId, body } := by
  rw [encodeFrame]
  split_ifs with hsize
  · refine iff_of_false nofun ?_
    simp only [maxBodySize, maxKeySize, maxValueSize, maxHostSize] at hsize ⊢
    omega
  · rw [not_or, Nat.not_lt] at hsize
    rw [and_iff_right hsize.1, Except.ok.injEq, eq_comm]

theorem encode_request_eq_ok {request : Request} :
    encodeRequest request = .ok bytes ↔
      Accepted request ∧ (requestBody request).length ≤ maxBodySize ∧
        bytes = frameBytes
          { type := request.type, flags := 0, requestId := request.requestId
            body := requestBody request } := by
  rw [← encode_frame_eq_ok, encodeRequest]
  cases htype : request.type <;>
    simp only [isRequestType, isKvRequestType, Accepted, FieldsAccepted, NoMember, NoPair,
      NoEndpoint, htype] <;>
    grind

/-- What is known of a request before its fields are read. -/
def Begun (decoded request : Request) : Prop :=
  request.clientId = decoded.clientId ∧ request.type = decoded.type ∧
    request.requestId = decoded.requestId

section Fields

variable {behind : List UInt8 → Prop} (error : String) (requestId clientId : UInt64)

/-- The fields of a set request. -/
theorem fills_set :
    Fills behind (readKvFields { type := .setRequest, requestId, clientId })
      (Begun { type := .setRequest, requestId, clientId }) FieldsAccepted requestFields := by
  apply Fills.congr
  · apply Fills.given NoMember
    apply Fills.field Request.key reads_key
    intro key _
    rw [if_pos rfl]
    apply Fills.field Request.value reads_value
    intro value _
    apply Fills.done ⟨rfl, rfl, ⟨rfl, rfl, rfl, rfl, rfl, rfl⟩, rfl, rfl, rfl⟩
    rintro request ⟨hvalue, hkey, ⟨hoperation, hnode, hhost, hport, hpeer, hpeerPort⟩, hclient, htype,
      hid⟩
    exact Request.ext htype hid hkey hvalue hclient hoperation hnode hhost hport hpeer hpeerPort
  · rintro request ⟨-, htype, -⟩
    rw [FieldsAccepted, htype, and_true]
  · rintro request ⟨-, htype, -⟩
    rw [requestFields, htype, append_nil]
    rfl

/-- The fields of a request with a key only. -/
theorem fills_key (htype : type = .getRequest ∨ type = .deleteRequest) :
    Fills behind (readKvFields { type, requestId, clientId })
      (Begun { type, requestId, clientId }) FieldsAccepted requestFields := by
  have hset : type ≠ .setRequest := by rintro rfl; simp at htype
  apply Fills.congr
  · apply Fills.given fun request => NoMember request ∧ request.value = []
    apply Fills.field Request.key reads_key
    intro key _
    rw [if_neg hset]
    apply Fills.done ⟨rfl, ⟨⟨rfl, rfl, rfl, rfl, rfl, rfl⟩, rfl⟩, rfl, rfl, rfl⟩
    rintro request ⟨hkey, ⟨⟨hoperation, hnode, hhost, hport, hpeer, hpeerPort⟩, hvalue⟩, hclient,
      htype, hid⟩
    exact Request.ext htype hid hkey hvalue hclient hoperation hnode hhost hport hpeer hpeerPort
  · rintro request ⟨-, hrequest, -⟩
    rw [FieldsAccepted, hrequest]
    rcases htype with rfl | rfl <;> rw [and_true]
  · rintro request ⟨-, hrequest, -⟩
    rw [requestFields, hrequest]
    rcases htype with rfl | rfl <;> rfl

/-- The operation and the member of an ADD_NODE. -/
theorem fills_add_node :
    Fills behind (readAddNodeFields error { type := .addNodeRequest, requestId, clientId })
      (Begun { type := .addNodeRequest, requestId, clientId })
      (fun request => NoPair request ∧
        validEndpoint request.nodeId request.clientHost request.clientPort request.peerHost
          request.peerPort = true)
      requestFields := by
  apply Fills.congr
  · apply Fills.given NoPair
    apply Fills.room
    · apply Fills.sized Request.operationId reads_uint64 fun _ _ => trivial
      intro operationId _
      apply Fills.sized Request.nodeId reads_uint64 fun _ _ => trivial
      intro nodeId _
      apply Fills.field Request.clientHost reads_host
      intro clientHost _
      apply Fills.sized Request.clientPort (reads_port error) fun _ _ => trivial
      intro clientPort _
      apply Fills.field Request.peerHost reads_host
      intro peerHost _
      apply Fills.sized Request.peerPort (reads_port error) fun _ _ => trivial
      intro peerPort _
      apply Fills.guard fun request : Request => validEndpoint request.nodeId request.clientHost
        request.clientPort request.peerHost request.peerPort = true
      · rintro request ⟨rfl, rfl, rfl, rfl, rfl, -⟩
        rw [Bool.not_eq_false]
      intro _
      apply Fills.done ⟨rfl, rfl, rfl, rfl, rfl, rfl, ⟨rfl, rfl⟩, rfl, rfl, rfl⟩
      rintro request ⟨hpeerPort, hpeer, hport, hhost, hnode, hoperation, ⟨hkey, hvalue⟩, hclient, htype,
        hid⟩
      exact Request.ext htype hid hkey hvalue hclient hoperation hnode hhost hport hpeer hpeerPort
    · intro request _ _
      simp only [length_append, appendUint64, length_big_endian]
      omega
  · intro request _
    simp only [validEndpoint, Bool.and_eq_true, decide_eq_true_eq]
    tauto
  · rintro request ⟨-, htype, -⟩
    rw [requestFields, htype]
    simp only [append_assoc, append_nil]
    rfl

/-- The operation and the node of a REMOVE_NODE. -/
theorem fills_remove_node :
    Fills (· = []) (readRemoveNodeFields { type := .removeNodeRequest, requestId, clientId })
      (Begun { type := .removeNodeRequest, requestId, clientId }) FieldsAccepted requestFields := by
  apply Fills.congr
  · apply Fills.given fun request => NoPair request ∧ NoEndpoint request
    apply Fills.exactly
    · apply Fills.sized Request.operationId reads_uint64 fun _ _ => trivial
      intro operationId _
      apply Fills.sized Request.nodeId reads_uint64 fun _ _ => trivial
      intro nodeId _
      apply Fills.guard fun request : Request => request.operationId ≠ 0 ∧ request.nodeId ≠ 0
      · rintro request ⟨rfl, rfl, -⟩
        exact not_or.symm
      intro _
      apply Fills.done ⟨rfl, rfl, ⟨⟨rfl, rfl⟩, rfl, rfl, rfl, rfl⟩, rfl, rfl, rfl⟩
      rintro request ⟨hnode, hoperation, ⟨⟨hkey, hvalue⟩, hhost, hport, hpeer, hpeerPort⟩, hclient,
        htype, hid⟩
      exact Request.ext htype hid hkey hvalue hclient hoperation hnode hhost hport hpeer hpeerPort
    · intro request _ _
      simp only [length_append, appendUint64, length_big_endian, length_nil]
  · rintro request ⟨-, htype, -⟩
    rw [FieldsAccepted, htype, and_true]
  · rintro request ⟨-, htype, -⟩
    rw [requestFields, htype, append_nil]
    rfl

theorem fills_list_members :
    Fills behind (pure { type := .listMembersRequest, requestId, clientId })
      (Begun { type := .listMembersRequest, requestId, clientId }) FieldsAccepted
      requestFields := by
  apply Fills.congr
  · apply Fills.given fun request => NoPair request ∧ NoMember request
    apply Fills.done ⟨⟨⟨rfl, rfl⟩, rfl, rfl, rfl, rfl, rfl, rfl⟩, rfl, rfl, rfl⟩
    rintro request ⟨⟨⟨hkey, hvalue⟩, hoperation, hnode, hhost, hport, hpeer, hpeerPort⟩, hclient,
      htype, hid⟩
    exact Request.ext htype hid hkey hvalue hclient hoperation hnode hhost hport hpeer hpeerPort
  · rintro request ⟨-, htype, -⟩
    rw [FieldsAccepted, htype, and_true]
  · rintro request ⟨-, htype, -⟩
    rw [requestFields, htype]
    rfl

/-- The fields of every request. -/
theorem fills_request_fields (htype : isRequestType type = true) :
    Fills (· = []) (do
        let decoded ← readRequestFields error { type, requestId, clientId }
        if operationInvalid decoded then refuse "membership operation id is invalid"
        else pure decoded)
      (Begun { type, requestId, clientId }) FieldsAccepted requestFields := by
  cases type with
  | setRequest =>
    refine (fills_set requestId clientId).check.congr ?_ fun _ _ => rfl
    rintro request ⟨-, hrequest, -⟩
    simp [operationInvalid, hrequest, isKvRequestType]
  | getRequest =>
    refine (fills_key requestId clientId (.inl rfl)).check.congr ?_ fun _ _ => rfl
    rintro request ⟨-, hrequest, -⟩
    simp [operationInvalid, hrequest, isKvRequestType]
  | deleteRequest =>
    refine (fills_key requestId clientId (.inr rfl)).check.congr ?_ fun _ _ => rfl
    rintro request ⟨-, hrequest, -⟩
    simp [operationInvalid, hrequest, isKvRequestType]
  | addNodeRequest =>
    refine (fills_add_node error requestId clientId).check.congr ?_ fun _ _ => rfl
    rintro request ⟨-, hrequest, -⟩
    simp [operationInvalid, hrequest, FieldsAccepted, and_left_comm]
  | removeNodeRequest =>
    refine (fills_remove_node requestId clientId).check.congr ?_ fun _ _ => rfl
    rintro request ⟨-, hrequest, -⟩
    simp [operationInvalid, hrequest]
  | listMembersRequest =>
    refine (fills_list_members requestId clientId).check.congr ?_ fun _ _ => rfl
    rintro request ⟨-, hrequest, -⟩
    rw [FieldsAccepted, hrequest]
    refine and_iff_right_of_imp fun haccepted => ?_
    simp [operationInvalid, hrequest, isKvRequestType, haccepted.2.1]
  | response => cases htype

end Fields

/-- A frame is decoded to a request exactly when its body was written for it. -/
theorem decode_request_eq_ok {error : String} {frame : Frame} {request : Request} :
    decodeRequest error frame = .ok request ↔
      (isRequestType frame.type = true ∧ frame.flags = 0) ∧ request.type = frame.type ∧
        request.requestId = frame.requestId ∧ Accepted request ∧
        frame.body = requestBody request := by
  rw [decodeRequest]
  by_cases hframe : isRequestType frame.type = false ∨ frame.flags ≠ 0
  · rw [readRequest, if_pos hframe]
    refine iff_of_false nofun ?_
    rintro ⟨⟨htype, hflags⟩, -⟩
    simp [htype, hflags] at hframe
  rw [not_or, Bool.not_eq_false, not_ne_iff] at hframe
  rw [and_iff_right hframe]
  have hfills : Fills (· = []) (readRequest error frame)
      (fun request => request.type = frame.type ∧ request.requestId = frame.requestId)
      Accepted requestBody := by
    rw [readRequest, if_neg (by simp [hframe])]
    apply Fills.congr
    · apply Fills.room
      · apply Fills.sized Request.clientId reads_uint64 fun _ _ => trivial
        intro clientId _
        apply Fills.guard fun request : Request => request.clientId ≠ 0 ∧ request.requestId ≠ 0
        · rintro request ⟨rfl, -, hid⟩
          rw [hid]
          exact not_or.symm
        intro _
        exact fills_request_fields error frame.requestId clientId hframe.1
      · intro request _ _
        rw [length_append, appendUint64, length_big_endian]
        exact Nat.le_add_right 8 _
    · intro request _
      exact and_assoc
    · intro request _
      rfl
  rw [hfills.parse_ended, and_assoc, and_assoc]

/-! ## Responses -/

/-- A member. -/
theorem reads_member (error : String) :
    Reads (readMember error) (fun member => validMember member = true) memberBytes := by
  apply Reads.congr
  · apply Fills.reads
    apply Fills.room
    · apply Fills.sized ClusterMember.nodeId reads_uint64 fun _ _ => trivial
      intro nodeId _
      apply Fills.field ClusterMember.clientHost reads_host
      intro clientHost _
      apply Fills.sized ClusterMember.clientPort (reads_port error) fun _ _ => trivial
      intro clientPort _
      apply Fills.field ClusterMember.peerHost reads_host
      intro peerHost _
      apply Fills.sized ClusterMember.peerPort (reads_port error) fun _ _ => trivial
      intro peerPort _
      apply Fills.guard fun member : ClusterMember => validMember member = true
      · rintro member ⟨rfl, rfl, rfl, rfl, rfl, -⟩
        rw [validMember, Bool.not_eq_false]
      intro _
      apply Fills.done ⟨rfl, rfl, rfl, rfl, rfl, trivial⟩
      rintro member ⟨rfl, rfl, rfl, rfl, rfl, -⟩
      rfl
    · intro member _ _
      rw [length_append, appendUint64, length_big_endian]
      exact Nat.le_add_right 8 _
  · intro member
    simp only [validMember, validEndpoint, Bool.and_eq_true, decide_eq_true_eq]
    tauto
  · intro member
    simp only [memberBytes, append_assoc, append_nil]

/-- The responses that can be encoded. -/
def AcceptedResponse (response : Response) : Prop :=
  response.payload.length ≤ maxValueSize ∧ response.leaderHost.length ≤ maxHostSize ∧
    ¬ leaderInvalid response.leaderHost response.leaderPort ∧
    response.members.length ≤ maxMemberCount ∧
    ∀ member ∈ response.members, validMember member = true

/-- The encoder takes the accepted responses that are not too large. -/
theorem encode_response_eq_ok {response : Response} :
    encodeResponse response = .ok bytes ↔
      AcceptedResponse response ∧ (responseBody response).length ≤ maxBodySize ∧
        bytes = frameBytes
          { type := .response, flags := responseFlag, requestId := response.requestId
            body := responseBody response } := by
  rw [← encode_frame_eq_ok, encodeResponse, AcceptedResponse]
  split_ifs with hpayload hleader hmembers
  · refine iff_of_false nofun ?_
    rintro ⟨⟨hlength, -⟩, -⟩
    omega
  · refine iff_of_false nofun ?_
    rintro ⟨⟨-, hlength, hvalid, -⟩, -⟩
    exact hleader.elim (Nat.not_lt.mpr hlength) hvalid
  · refine iff_of_false nofun ?_
    rintro ⟨⟨-, -, -, hlength, hvalid⟩, -⟩
    refine hmembers.elim (Nat.not_lt.mpr hlength) fun hany => ?_
    obtain ⟨member, hmember, hinvalid⟩ := any_eq_true.mp hany
    rw [hvalid member hmember] at hinvalid
    cases hinvalid
  · rw [not_or, Nat.not_lt] at hleader hmembers
    refine (and_iff_right ⟨Nat.not_lt.mp hpayload, hleader.1, hleader.2, hmembers.1, ?_⟩).symm
    intro member hmember
    by_contra hinvalid
    refine hmembers.2 (any_eq_true.mpr ⟨member, hmember, ?_⟩)
    rw [Bool.not_eq_true] at hinvalid
    rw [hinvalid, Bool.not_false]

theorem status_of_code_eq_some {code : Nat} {status : StatusCode} :
    statusOfCode code = some status ↔ statusCode status = code := by
  constructor
  · intro hfound
    have hcode := find?_some hfound
    exact beq_iff_eq.mp hcode
  · rintro rfl
    cases status <;> rfl

/-- A frame is decoded to a response exactly when its body was written for it. -/
theorem decode_response_eq_ok {error : String} {frame : Frame} {response : Response} :
    decodeResponse error frame = .ok response ↔
      (frame.type = .response ∧ frame.flags = responseFlag) ∧
        response.requestId = frame.requestId ∧ AcceptedResponse response ∧
        frame.body = responseBody response := by
  rw [decodeResponse]
  by_cases hframe : frame.type = .response ∧ frame.flags = responseFlag
  case neg =>
    refine iff_of_false ?_ fun hresponse => hframe hresponse.1
    rw [parse_eq_ok]
    rintro ⟨rest, hread⟩
    obtain ⟨hread, -⟩ := ended_eq_ok.mp hread
    rw [readResponse, remaining_bind, if_pos (by tauto)] at hread
    cases hread
  rw [and_iff_right hframe]
  have hfills : Fills (· = []) (readResponse error frame)
      (fun response => response.requestId = frame.requestId) AcceptedResponse responseBody := by
    apply Fills.congr
    · apply Fills.size
      · apply Fills.field (fun response : Response => statusCode response.status) (.word 1)
        intro code _
        apply Fills.lookup Response.status
        · rintro response ⟨hcode, -⟩
          exact status_of_code_eq_some.mpr hcode
        intro status hstatus
        apply Fills.field Response.payload reads_value
        intro payload _
        apply Fills.field Response.leaderHost reads_host
        intro leaderHost _
        apply Fills.room
        · apply Fills.sized Response.leaderPort reads_uint16 fun _ _ => trivial
          intro leaderPort _
          apply Fills.guard fun response : Response =>
            ¬ leaderInvalid response.leaderHost response.leaderPort
          · rintro response ⟨rfl, rfl, -⟩
            exact Iff.rfl
          intro _
          apply Fills.field (fun response : Response => response.members.length) (.word 2)
          intro memberCount _
          apply Fills.guard fun response : Response => response.members.length ≤ maxMemberCount
          · rintro response ⟨rfl, -⟩
            exact Nat.not_lt.symm
          intro _
          apply Fills.part Response.members
            (fun response : Response => ∀ member ∈ response.members, validMember member = true)
            ((reads_member error).many memberCount)
          · rintro response ⟨hcount, -⟩
            exact (and_iff_right hcount).symm
          intro members hmembers
          apply Fills.done
            ⟨rfl, hmembers.1, rfl, rfl, rfl, status_of_code_eq_some.mp hstatus, rfl⟩
          rintro response ⟨rfl, -, rfl, rfl, rfl, hcode, hid⟩
          rw [status_of_code_eq_some.mpr hcode] at hstatus
          cases hstatus
          rw [← hid]
        · intro response _ _
          simp only [length_append, appendUint16, length_big_endian]
          omega
      · intro response rest _ _ _
        simp only [length_append, length_big_endian, hframe.1, hframe.2, ne_eq, not_true,
          false_or]
        omega
    · intro response _
      have hcode : statusCode response.status < 256 ^ 1 := by cases response.status <;> decide
      rw [AcceptedResponse, maxMemberCount]
      constructor
      · rintro ⟨-, hpayload, hhost, hleader, -, hcount, hmembers, -⟩
        exact ⟨hpayload, hhost, hleader, hcount, hmembers⟩
      · rintro ⟨hpayload, hhost, hleader, hcount, hmembers⟩
        exact ⟨hcode, hpayload, hhost, hleader, by omega, hcount, hmembers, trivial⟩
    · intro response _
      simp only [responseBody, append_assoc, append_nil]
  rw [hfills.parse_ended, and_assoc]

/-! ## Frames -/

theorem type_of_code_eq_some {code : Nat} : typeOfCode code = some type ↔ typeCode type = code := by
  constructor
  · intro hfound
    have hcode := find?_some hfound
    exact beq_iff_eq.mp hcode
  · rintro rfl
    cases type <;> rfl

/-- The header of a frame. -/
def headerBytes (header : Header) : Bytes :=
  magic ++ bigEndian 1 version ++ bigEndian 1 (typeCode header.type) ++
    appendUint16 header.flags ++ appendUint32 header.bodySize ++ appendUint64 header.requestId

/-- The header of a frame. -/
def frameHeader (frame : Frame) : Header where
  type := frame.type
  flags := frame.flags
  bodySize := frame.body.length
  requestId := frame.requestId

theorem frame_bytes_eq (frame : Frame) :
    frameBytes frame = headerBytes (frameHeader frame) ++ frame.body := rfl

theorem length_header_bytes (header : Header) :
    (headerBytes header).length = protocolHeaderSize := by
  simp [headerBytes, magic, appendUint16, appendUint32, appendUint64, protocolHeaderSize]

/-- A header. -/
theorem reads_header :
    Reads readHeader
      (fun header => flagsValid header.type header.flags ∧ header.bodySize ≤ maxBodySize)
      headerBytes := by
  apply Reads.congr
  · apply Fills.reads
    apply Fills.sized (fun _ : Header => magic) (.bytes 4) fun _ _ => rfl
    intro foundMagic _
    apply Fills.sized (fun _ : Header => version) (.word 1) fun _ _ => by decide
    intro foundVersion _
    apply Fills.field (fun header : Header => typeCode header.type) (.word 1)
    intro rawType _
    apply Fills.sized Header.flags reads_uint16 fun _ _ => trivial
    intro flags _
    apply Fills.field Header.bodySize (.word 4)
    intro bodySize _
    apply Fills.sized Header.requestId reads_uint64 fun _ _ => trivial
    intro requestId _
    -- The fixed fields are written with the values that are expected.
    apply Fills.pass
    · rintro header ⟨-, -, -, -, -, rfl, -⟩
      exact not_ne_iff.mpr rfl
    intro hmagic
    apply Fills.pass
    · rintro header ⟨-, -, -, -, rfl, -⟩
      exact not_ne_iff.mpr rfl
    intro hversion
    rw [not_ne_iff] at hmagic hversion
    subst hmagic hversion
    apply Fills.lookup Header.type
    · rintro header ⟨-, -, -, hcode, -⟩
      exact type_of_code_eq_some.mpr hcode
    intro type htype
    apply Fills.guard fun header : Header => flagsValid header.type header.flags
    · rintro header ⟨-, -, rfl, hcode, -⟩
      rw [type_of_code_eq_some.mpr hcode] at htype
      cases htype
      exact not_not.symm
    intro _
    apply Fills.guard fun header : Header => header.bodySize ≤ maxBodySize
    · rintro header ⟨-, rfl, -⟩
      exact Nat.not_lt.symm
    intro _
    apply Fills.done ⟨rfl, rfl, rfl, type_of_code_eq_some.mp htype, rfl, rfl, trivial⟩
    rintro header ⟨rfl, rfl, rfl, hcode, -⟩
    rw [type_of_code_eq_some.mpr hcode] at htype
    cases htype
    rfl
  · intro header
    have hcode : typeCode header.type < 256 ^ 1 := by cases header.type <;> decide
    simp only [maxBodySize, maxKeySize, maxValueSize, maxHostSize, and_true]
    constructor
    · rintro ⟨-, -, hflags, hsize⟩
      exact ⟨hflags, hsize⟩
    · rintro ⟨hflags, hsize⟩
      exact ⟨hcode, by omega, hflags, hsize⟩
  · intro header
    simp only [headerBytes, appendUint32, append_assoc, append_nil, id]

/-- A frame is found when its flags and its size are valid. -/
theorem frame_iff {frame : Frame} :
    format.Frame frame bytes ↔
      flagsValid frame.type frame.flags ∧ frame.body.length ≤ maxBodySize ∧
        bytes = frameBytes frame := by
  have hbody : ∀ (header : Header) (body : Bytes),
      parse (format.readBody header) body =
        .ok { type := header.type, flags := header.flags, requestId := header.requestId, body } := by
    intro header body
    refine parse_eq_ok.mpr ⟨[], bind_eq_ok.mpr ⟨_, _, rfl, bind_eq_ok.mpr ⟨body, [], ?_, rfl⟩⟩⟩
    exact (Reads.bytes _).whole.mpr ⟨rfl, rfl⟩
  constructor
  · rintro ⟨header, start, body, hstart, hheader, hsize, hframe, rfl⟩
    have hlength : ∀ header : Header, (headerBytes header).length = start.length :=
      fun header => (length_header_bytes header).trans hstart.symm
    obtain ⟨⟨hflags, hlimit⟩, rfl⟩ :=
      (reads_header.parse_of_length fun other _ => hlength other).mp hheader
    rw [hbody] at hframe
    cases hframe
    obtain ⟨type, flags, bodySize, requestId⟩ := header
    dsimp only [format] at hsize hlimit hflags
    subst hsize
    exact ⟨hflags, hlimit, (frame_bytes_eq { type, flags, requestId, body }).symm⟩
  · rintro ⟨hflags, hsize, rfl⟩
    refine ⟨frameHeader frame, headerBytes (frameHeader frame), frame.body,
      length_header_bytes _, ?_, rfl, hbody _ _, frame_bytes_eq frame⟩
    refine (reads_header.parse_of_length fun other _ => ?_).mpr ⟨⟨hflags, hsize⟩, rfl⟩
    rw [length_header_bytes, length_header_bytes]

/-- What a client and a server send each other. -/
inductive ClientMessage where
  | request (request : Request)
  | response (response : Response)
  deriving DecidableEq, Repr

/-- Encode a message. -/
def ClientMessage.encode : ClientMessage → Except String Bytes
  | .request message => encodeRequest message
  | .response message => encodeResponse message

/-- Convert a frame into a message of the kind that is expected. -/
def ClientMessage.DecodedFrom (error : String) (frame : Frame) : ClientMessage → Prop
  | .request message => decodeRequest error frame = .ok message
  | .response message => decodeResponse error frame = .ok message

/-- An encoded message is one frame that decodes to it. -/
theorem encode_iff {message : ClientMessage} :
    message.encode = .ok bytes ↔
      ∃ frame, format.Frame frame bytes ∧ ∀ error, message.DecodedFrom error frame := by
  cases message with
  | request request =>
    rw [ClientMessage.encode, encode_request_eq_ok]
    constructor
    · rintro ⟨haccepted, hsize, rfl⟩
      have htype : isRequestType request.type = true := by
        obtain ⟨-, -, hfields⟩ := haccepted
        rw [FieldsAccepted] at hfields
        cases hkind : request.type with
        | response => rw [hkind] at hfields; cases hfields
        | _ => rfl
      refine ⟨_, frame_iff.mpr ⟨.inl ⟨htype, rfl⟩, hsize, rfl⟩, fun error => ?_⟩
      exact decode_request_eq_ok.mpr ⟨⟨htype, rfl⟩, rfl, rfl, haccepted, rfl⟩
    · rintro ⟨⟨type, flags, requestId, body⟩, hframe, hdecoded⟩
      obtain ⟨-, hsize, rfl⟩ := frame_iff.mp hframe
      obtain ⟨⟨-, hflags⟩, htype, hid, haccepted, hbody⟩ := decode_request_eq_ok.mp (hdecoded "")
      dsimp only at hflags htype hid hbody hsize
      subst hflags htype hid hbody
      exact ⟨haccepted, hsize, rfl⟩
  | response response =>
    rw [ClientMessage.encode, encode_response_eq_ok]
    constructor
    · rintro ⟨haccepted, hsize, rfl⟩
      refine ⟨_, frame_iff.mpr ⟨.inr ⟨rfl, rfl⟩, hsize, rfl⟩, fun error => ?_⟩
      exact decode_response_eq_ok.mpr ⟨⟨rfl, rfl⟩, rfl, haccepted, rfl⟩
    · rintro ⟨⟨type, flags, requestId, body⟩, hframe, hdecoded⟩
      obtain ⟨-, hsize, rfl⟩ := frame_iff.mp hframe
      obtain ⟨⟨htype, hflags⟩, hid, haccepted, hbody⟩ := decode_response_eq_ok.mp (hdecoded "")
      dsimp only at hflags htype hid hbody hsize
      subst hflags htype hid hbody
      exact ⟨haccepted, hsize, rfl⟩

theorem ClientMessage.DecodedFrom.any {message : ClientMessage} {frame : Frame} {error : String}
    (hdecoded : message.DecodedFrom error frame) (other : String) :
    message.DecodedFrom other frame := by
  cases message with
  | request request => exact decode_request_eq_ok.mpr (decode_request_eq_ok.mp hdecoded)
  | response response => exact decode_response_eq_ok.mpr (decode_response_eq_ok.mp hdecoded)

/-- The client protocol is a bijection whose framing does not depend on chunks. An encoded message,
whatever follows it, is taken off the buffer as a frame that is decoded to the message; a frame that
was taken off and is decoded encodes to the bytes that it took; the frames of encoded messages come
out in order however the stream is cut, and without a frame the buffer stays as it is. -/
theorem client_protocol_bijective :
    (∀ (message : ClientMessage) bytes, message.encode = .ok bytes →
      ∃ frame, (∀ rest, tryDecode (bytes ++ rest) = (.complete frame, rest)) ∧
        ∀ error, message.DecodedFrom error frame) ∧
    (∀ buffer frame rest (message : ClientMessage) error,
      tryDecode buffer = (.complete frame, rest) → message.DecodedFrom error frame →
      ∃ bytes, message.encode = .ok bytes ∧ buffer = bytes ++ rest) ∧
    (∀ (messages : List ClientMessage) encoded,
      List.Forall₂ (fun message bytes => message.encode = .ok bytes) messages encoded →
      ∀ chunks, chunks.flatten = encoded.flatten →
        ∃ frames, format.receiveAll chunks = { messages := frames } ∧
          frames.map frameBytes = encoded ∧
          List.Forall₂ (fun message frame => ∀ error, message.DecodedFrom error frame)
            messages frames) ∧
    (∀ buffer status after, tryDecode buffer = (status, after) →
      (∀ frame, status ≠ .complete frame) → after = buffer) := by
  refine ⟨?_, ?_, ?_, ?_⟩
  · intro message bytes hencode
    obtain ⟨frame, hframe, hdecoded⟩ := encode_iff.mp hencode
    exact ⟨frame, FrameFormat.try_decode_frame hframe, hdecoded⟩
  · intro buffer frame rest message error hdecode hdecoded
    obtain ⟨bytes, hframe, hbuffer⟩ := FrameFormat.try_decode_complete_iff.mp hdecode
    exact ⟨bytes, encode_iff.mpr ⟨frame, hframe, hdecoded.any⟩, hbuffer⟩
  · intro messages encoded hencoded chunks hchunks
    have hframes : ∃ frames, List.Forall₂ format.Frame frames encoded ∧
        List.Forall₂ (fun message frame => ∀ error, message.DecodedFrom error frame)
          messages frames := by
      clear hchunks
      induction hencoded with
      | nil => exact ⟨[], .nil, .nil⟩
      | cons hencode hencoded ih =>
        obtain ⟨frame, hframe, hdecoded⟩ := encode_iff.mp hencode
        obtain ⟨frames, hframes, hall⟩ := ih
        exact ⟨frame :: frames, .cons hframe hframes, .cons hdecoded hall⟩
    obtain ⟨frames, hframes, hdecoded⟩ := hframes
    refine ⟨frames, FrameFormat.receive_all_frames hframes hchunks, ?_, hdecoded⟩
    clear hdecoded hchunks hencoded
    induction hframes with
    | nil => rfl
    | cons hframe hframes ih => rw [map_cons, ih, (frame_iff.mp hframe).2.2]
  · intro buffer status after hdecode hstatus
    exact FrameFormat.try_decode_unchanged hdecode hstatus

/-- A GET is taken off the buffer with whatever follows it left there. -/
theorem client_protocol_bijective_get :
    ∃ bytes, encodeRequest { requestId := 7, key := [1] } = .ok bytes ∧
      ∃ frame, (∀ rest, tryDecode (bytes ++ rest) = (.complete frame, rest)) ∧
        ∀ error, decodeRequest error frame = .ok { requestId := 7, key := [1] } :=
  ⟨_, rfl, client_protocol_bijective.1 (.request { requestId := 7, key := [1] }) _ rfl⟩

end Protocol

end DistributedKV
