import DistributedKV.Foundation.Barrier
import DistributedKV.Service.KVCommand
import Mathlib.Data.Finmap
import Mathlib.Data.Finset.Sort

/-!
# The replicated state machine

The in-memory store of `src/storage/kv_store.cpp` and the state machine of
`src/raft/state_machine.cpp`, which applies committed entries in strict index order and remembers
the last response of every client. A hash map of the source is a finite map. What the machine
holds is a function of the entries it has applied (`StateMachine.replay`).
-/

namespace DistributedKV

open Barrier

/-! ## The store -/

/-- The keys and their values. -/
structure KVStore where
  entries : Finmap fun _ : Bytes => Bytes := ∅
  deriving DecidableEq

namespace KVStore

/-- Insert or replace a value; whether the key is new. -/
def put (store : KVStore) (key value : Bytes) : KVStore × Bool :=
  ({ entries := store.entries.insert key value }, !decide (key ∈ store.entries))

/-- The value of a key. -/
def get (store : KVStore) (key : Bytes) : Option Bytes := store.entries.lookup key

/-- Remove a key; whether it was there. -/
def remove (store : KVStore) (key : Bytes) : KVStore × Bool :=
  ({ entries := store.entries.erase key }, decide (key ∈ store.entries))

/-- All entries in key order. -/
def snapshotEntries (store : KVStore) : List (Bytes × Bytes) :=
  (store.entries.keys.sort (· ≤ ·)).filterMap fun key =>
    (store.entries.lookup key).map fun value => (key, value)

/-- The map of a list of entries, refused when a key occurs twice. -/
def ofEntries : List (Bytes × Bytes) → Except String (Finmap fun _ : Bytes => Bytes)
  | [] => .ok ∅
  | (key, value) :: rest => do
      let entries ← ofEntries rest
      if key ∈ entries then .error "snapshot contains duplicate KV key"
      else .ok (entries.insert key value)

/-- Replace everything by the entries of a snapshot. -/
def replaceAll (entries : List (Bytes × Bytes)) : Except String KVStore := do
  let entries ← ofEntries entries
  pure { entries }

end KVStore

/-! ## Results and snapshots -/

/-- How a command came out. -/
inductive ApplyStatus where
  | ok
  | notFound
  | staleRequest
  deriving DecidableEq, Repr

/-- What a client is told about its command. -/
structure ApplyResult where
  logIndex : Nat := 0
  clientId : UInt64 := 0
  requestId : UInt64 := 0
  status : ApplyStatus := .ok
  payload : Bytes := []
  duplicate : Bool := false
  deriving DecidableEq, Repr

/-- The response remembered for a client. -/
structure CachedResponse where
  requestId : UInt64 := 0
  status : ApplyStatus := .ok
  payload : Bytes := []
  deriving DecidableEq, Repr

/-- A client's response in a snapshot. -/
structure SnapshotSession where
  clientId : UInt64 := 0
  requestId : UInt64 := 0
  status : ApplyStatus := .ok
  payload : Bytes := []
  deriving DecidableEq, Repr

/-- An image of the state machine at an index. -/
structure StateMachineSnapshot where
  lastIncludedIndex : Nat := 0
  lastIncludedTerm : Nat := 0
  entries : List (Bytes × Bytes) := []
  sessions : List SnapshotSession := []
  deriving DecidableEq, Repr

/-- The bytes `OK`. -/
def payloadOk : Bytes := [0x4f, 0x4b]

/-- The bytes `NOT_FOUND`. -/
def payloadNotFound : Bytes := [0x4e, 0x4f, 0x54, 0x5f, 0x46, 0x4f, 0x55, 0x4e, 0x44]

/-- The bytes `STALE_REQUEST`. -/
def payloadStaleRequest : Bytes :=
  [0x53, 0x54, 0x41, 0x4c, 0x45, 0x5f, 0x52, 0x45, 0x51, 0x55, 0x45, 0x53, 0x54]

/-! ## The machine -/

/-- The store, the highest applied index and the last response of every client. -/
structure StateMachine where
  store : KVStore := {}
  lastApplied : Nat := 0
  sessions : Finmap fun _ : UInt64 => CachedResponse := ∅
  deriving DecidableEq

namespace StateMachine

/-- The store after a new command, with the status and the payload of its response. -/
def execute (store : KVStore) (command : KVCommand) : KVStore × ApplyStatus × Bytes :=
  match command.type with
  | .set => ((store.put command.key command.value).1, .ok, payloadOk)
  | .delete =>
    let (store, removed) := store.remove command.key
    if removed then (store, .ok, payloadOk) else (store, .notFound, payloadNotFound)

/-- Apply a decoded command at an index. A request that is not newer than the client's last one
is answered from the session and changes nothing. -/
def applyCommand (machine : StateMachine) (index : Nat) (command : KVCommand) :
    StateMachine × ApplyResult :=
  let fresh :=
    let (store, status, payload) := execute machine.store command
    ({ store
       lastApplied := index
       sessions := machine.sessions.insert command.clientId
         { requestId := command.requestId, status, payload } },
      { logIndex := index, clientId := command.clientId, requestId := command.requestId
        status, payload, duplicate := false })
  match machine.sessions.lookup command.clientId with
  | none => fresh
  | some existing =>
    if command.requestId ≤ existing.requestId then
      ({ machine with lastApplied := index },
        if command.requestId = existing.requestId then
          { logIndex := index, clientId := command.clientId, requestId := command.requestId
            status := existing.status, payload := existing.payload, duplicate := true }
        else
          { logIndex := index, clientId := command.clientId, requestId := command.requestId
            status := .staleRequest, payload := payloadStaleRequest, duplicate := true })
    else fresh

/-- Apply exactly the next entry, or refuse it. -/
def apply (machine : StateMachine) (entry : LogEntry) :
    Except String (StateMachine × Option ApplyResult) :=
  if entry.index ≠ machine.lastApplied + 1 then
    .error "state machine entry is not the next committed index"
  else
    match entry.type with
    | .noOp =>
      if entry.command ≠ [] then .error "Raft no-op entry contains command bytes"
      else .ok ({ machine with lastApplied := entry.index }, none)
    | .confChange =>
      if entry.command = [] then .error "Raft conf-change entry is empty"
      else .ok ({ machine with lastApplied := entry.index }, none)
    | .command =>
      match KVCommandCodec.decode entry.command with
      | .error error => .error error
      | .ok command =>
        let (machine, result) := machine.applyCommand entry.index command
        .ok (machine, some result)

/-- The image at the highest applied index, with the sessions in client order. -/
def snapshot (machine : StateMachine) (lastIncludedTerm : Nat) : StateMachineSnapshot where
  lastIncludedIndex := machine.lastApplied
  lastIncludedTerm
  entries := machine.store.snapshotEntries
  sessions := (machine.sessions.keys.sort (· ≤ ·)).filterMap fun clientId =>
    (machine.sessions.lookup clientId).map fun response =>
      { clientId, requestId := response.requestId, status := response.status
        payload := response.payload }

/-- The session table of an image, refused when a client is zero, occurs twice or has no
request. -/
def restoreSessions :
    List SnapshotSession → Except String (Finmap fun _ : UInt64 => CachedResponse)
  | [] => .ok ∅
  | session :: rest => do
      let sessions ← restoreSessions rest
      if session.clientId = 0 ∨ session.requestId = 0 ∨ session.clientId ∈ sessions then
        .error "snapshot contains an invalid or duplicate client session"
      else
        .ok (sessions.insert session.clientId
          { requestId := session.requestId, status := session.status
            payload := session.payload })

/-- The machine an image describes, whatever was there before. -/
def restore (snapshot : StateMachineSnapshot) : Except String StateMachine :=
  if decide (snapshot.lastIncludedIndex = 0) ≠ decide (snapshot.lastIncludedTerm = 0) then
    .error "snapshot index and term must both be zero or nonzero"
  else do
    let sessions ← restoreSessions snapshot.sessions
    let store ← KVStore.replaceAll snapshot.entries
    pure { store, lastApplied := snapshot.lastIncludedIndex, sessions }

/-- `restore` with the machine it is called on, which a refused image leaves as it was. -/
def restoreInto (machine : StateMachine) (snapshot : StateMachineSnapshot) :
    StateMachine × Except String Unit :=
  match restore snapshot with
  | .error error => (machine, .error error)
  | .ok restored => (restored, .ok ())

/-! ## Replaying a log -/

/-- Apply entries one after the other from the empty machine. -/
def replay (entries : List LogEntry) : Except String StateMachine :=
  entries.foldlM (fun machine entry => (machine.apply entry).map Prod.fst) {}

theorem apply_command_last_applied (machine : StateMachine) (index : Nat) (command : KVCommand) :
    (machine.applyCommand index command).1.lastApplied = index := by
  unfold applyCommand
  dsimp only
  split
  · rfl
  · split_ifs <;> rfl

/-- Applying an entry moves to its index. -/
theorem apply_last_applied {machine next : StateMachine} {entry : LogEntry}
    {result : Option ApplyResult} (happly : machine.apply entry = .ok (next, result)) :
    next.lastApplied = machine.lastApplied + 1 := by
  rw [apply] at happly
  split at happly
  · cases happly
  rename_i hindex
  have hnext : entry.index = machine.lastApplied + 1 := not_not.mp hindex
  split at happly
  · split at happly
    · cases happly
    · cases happly
      exact hnext
  · split at happly
    · cases happly
    · cases happly
      exact hnext
  · split at happly
    · cases happly
    · cases happly
      exact (machine.apply_command_last_applied entry.index _).trans hnext

theorem replay_concat (entries : List LogEntry) (entry : LogEntry) {machine next : StateMachine}
    {result : Option ApplyResult} (hreplay : replay entries = .ok machine)
    (happly : machine.apply entry = .ok (next, result)) :
    replay (entries ++ [entry]) = .ok next := by
  rw [replay] at hreplay
  rw [replay, List.foldlM_append, except_bind_eq_ok]
  refine ⟨machine, hreplay, ?_⟩
  rw [List.foldlM_cons, happly]
  rfl

theorem replay_last_applied {entries : List LogEntry} {machine : StateMachine}
    (hreplay : replay entries = .ok machine) : machine.lastApplied = entries.length := by
  induction entries using List.reverseRecOn generalizing machine with
  | nil =>
    cases hreplay
    rfl
  | append_singleton entries entry ih =>
    rw [replay, List.foldlM_append, except_bind_eq_ok] at hreplay
    obtain ⟨before, hbefore, happly⟩ := hreplay
    simp only [List.foldlM_cons, List.foldlM_nil, except_bind_eq_ok, except_map_eq_ok]
      at happly
    obtain ⟨-, ⟨⟨next, result⟩, happly, rfl⟩, ⟨⟩⟩ := happly
    rw [apply_last_applied happly, ih hbefore, List.length_append]
    rfl

end StateMachine

end DistributedKV
