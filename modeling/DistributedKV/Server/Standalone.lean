import DistributedKV.Network.Protocol
import DistributedKV.Service.StateMachine
import DistributedKV.Storage.WalRecovery

/-!
# The standalone server

A server without consensus: `Server::dispatch` of `src/network/server.cpp` writes ahead to the log
and then changes the store, and `src/server/main.cpp` rebuilds the store from the log when it starts.
A run is a sequence of lives, each of which ends in a crash that leaves the file of the log cut
somewhere behind the last record that was acknowledged. After every crash the server starts with the
store of all acknowledged writes, and of at most the one write of each crash that was in progress.
-/

namespace DistributedKV

open Wal

/-- A server with what it dispatches requests to. -/
structure Server where
  requestHandler : Option (Request → Response) := none
  store : Option KVStore := none
  wal : Option Wal := none

namespace Server

/-- Append to the log, when there is one. -/
def persist (server : Server) (append : Wal → Except String Unit × Wal) :
    Except String Unit × Server :=
  match server.wal with
  | none => (.ok (), server)
  | some wal => ((append wal).1, { server with wal := some (append wal).2 })

/-- Answer a request. A write is appended to the log before the store changes. -/
def dispatch (server : Server) (request : Request) : Response × Server :=
  let answer (status : StatusCode) (payload : Bytes) : Response :=
    { requestId := request.requestId, status, payload }
  match server.requestHandler with
  | some handler => (handler request, server)
  | none =>
    match server.store with
    | none => (answer .internalError (asciiBytes "request handler is unavailable"), server)
    | some store =>
      match request.type with
      | .setRequest =>
        match server.persist (·.appendSet request.key request.value) with
        | (.error _, server) =>
          (answer .internalError (asciiBytes "persistence failed"), server)
        | (.ok (), server) =>
          (answer .ok (asciiBytes "OK"),
            { server with store := some (store.put request.key request.value).1 })
      | .deleteRequest =>
        match server.persist (·.appendRemove request.key) with
        | (.error _, server) =>
          (answer .internalError (asciiBytes "persistence failed"), server)
        | (.ok (), server) =>
          let removed := (store.remove request.key).2
          (answer (if removed then .ok else .notFound)
              (asciiBytes (if removed then "OK" else "NOT_FOUND")),
            { server with store := some (store.remove request.key).1 })
      | .getRequest =>
        match store.get request.key with
        | none => (answer .notFound (asciiBytes "NOT_FOUND"), server)
        | some value => (answer .ok value, server)
      | _ => (answer .invalidRequest (asciiBytes "unsupported request"), server)

/-- Apply the records of a log. -/
def replayRecords (records : List WalRecord) (store : KVStore) : KVStore :=
  records.foldl (fun store record =>
    match record.operation with
    | .set => (store.put record.key record.value).1
    | .remove => (store.remove record.key).1) store

/-- Start a server on the file of a log, with the records it recovers. -/
def start (path : String) (file : Bytes) : Except String (List WalRecord × Server) :=
  let opened := Wal.openFile { path, file }
  match opened.1 with
  | .error error => .error error
  | .ok () =>
    match opened.2.recover with
    | (.error error, _) => .error error
    | (.ok records, wal) =>
      .ok (records, { store := some (replayRecords records {}), wal := some wal })

/-- The file of the log. -/
def file (server : Server) : Bytes := (server.wal.map (·.file)).getD []

end Server

/-! ## Runs with crashes -/

/-- The write a request asks for, if it is one. -/
def writeOf (request : Request) : Option StoreWrite :=
  match request.type with
  | .setRequest => some { operation := .set, key := request.key, value := request.value }
  | .deleteRequest => some { operation := .remove, key := request.key, value := [] }
  | _ => none

/-- The life of a server process: the requests it answers, the one it is at when it crashes, and
where the crash cuts the file. -/
structure ServerLife where
  requests : List Request
  inProgress : Option Request := none
  cut : Nat

/-- A server that answers requests: where its last acknowledged record ends, and the writes it has
acknowledged. -/
structure Serving where
  server : Server
  acknowledgedEnd : Nat
  acknowledged : List StoreWrite := []

/-- Answer one request. A write is acknowledged by the statuses for found and not found. -/
def Serving.handle (serving : Serving) (request : Request) : Serving :=
  let answered := serving.server.dispatch request
  match writeOf request with
  | none => { serving with server := answered.2 }
  | some write =>
    if answered.1.status = .ok ∨ answered.1.status = .notFound then
      { server := answered.2
        acknowledgedEnd := answered.2.file.length
        acknowledged := serving.acknowledged ++ [write] }
    else { serving with server := answered.2 }

/-- What a crash leaves of the file. A request in progress may have written its record, or the
start of it. -/
def Serving.crash (serving : Serving) (life : ServerLife) : Bytes :=
  match life.inProgress with
  | none => serving.server.file.take life.cut
  | some request => (serving.server.dispatch request).2.file.take life.cut

/-- A server that has started: the records it has recovered, where the last acknowledged record
ends, and the writes acknowledged in every life before, the latest first. -/
structure Started where
  records : List WalRecord
  server : Server
  acknowledgedEnd : Nat
  acknowledged : List (List StoreWrite)

/-- Answer requests after the start. -/
def Started.serve (started : Started) (requests : List Request) : Serving :=
  requests.foldl Serving.handle
    { server := started.server, acknowledgedEnd := started.acknowledgedEnd }

/-- The server after some lives, the latest first. The first one starts without a file. -/
def startedAfter (path : String) : List ServerLife → Except String Started
  | [] => do
      let started ← Server.start path []
      pure { records := started.1, server := started.2, acknowledgedEnd := fileHeaderSize
             acknowledged := [] }
  | life :: earlier => do
      let before ← startedAfter path earlier
      let serving := before.serve life.requests
      let started ← Server.start path (serving.crash life)
      pure { records := started.1, server := started.2
             acknowledgedEnd := serving.acknowledgedEnd
             acknowledged := serving.acknowledged :: before.acknowledged }

/-- No crash cuts the file before the end of its header or of the last acknowledged record. -/
def KeepsAcknowledged (path : String) : List ServerLife → Prop
  | [] => True
  | life :: earlier => KeepsAcknowledged path earlier ∧
      ∀ before, startedAfter path earlier = .ok before →
        fileHeaderSize ≤ life.cut ∧ (before.serve life.requests).acknowledgedEnd ≤ life.cut

/-! ## Writes and the store -/

/-- The store after a write. -/
def StoreWrite.apply (store : KVStore) (write : StoreWrite) : KVStore :=
  match write.operation with
  | .set => (store.put write.key write.value).1
  | .remove => (store.remove write.key).1

/-- The store after some writes, from the empty one on. -/
def storeAfter (writes : List StoreWrite) : KVStore := writes.foldl StoreWrite.apply {}

theorem replay_records_eq (records : List WalRecord) :
    Server.replayRecords records {} = storeAfter (records.map WalRecord.write) := by
  rw [storeAfter, List.foldl_map]
  rfl

end DistributedKV
