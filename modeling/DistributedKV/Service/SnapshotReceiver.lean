import DistributedKV.Foundation.Barrier
import DistributedKV.Service.SnapshotStore

/-!
# Which chunks a receiver takes

A receiver takes the chunk that starts a transfer when none is active, and the one that goes on
where the active one ends (`append_chunk_eq_ok`). It publishes a transfer exactly when the bytes are
a valid file of the announced boundary (`finish_and_load_eq_ok`).
-/

namespace DistributedKV

open Barrier

theorem SnapshotFile.decode_of_parse {texts : RefusalTexts} {file : Bytes}
    {snapshot : StateMachineSnapshot} (hparse : parse texts file = .ok snapshot) :
    decode (file.drop headerSize) = .ok snapshot ∧ file ≠ [] := by
  rw [parse] at hparse
  split_ifs at hparse with hsize
  refine ⟨hparse, ?_⟩
  rintro rfl
  simp [headerSize] at hsize

namespace SnapshotFileReceiver

variable {receiver after : SnapshotFileReceiver} {index term offset : Nat} {data : Bytes}
  {done : Bool}

/-- The bytes of the transfer that is active. -/
def held (receiver : SnapshotFileReceiver) : Bytes :=
  if receiver.active then receiver.received else []

/-- The chunk starts a transfer when none is active, or goes on with the active one where it is. -/
def Fits (receiver : SnapshotFileReceiver) (index term offset : Nat) (data : Bytes) (done : Bool) :
    Prop :=
  (receiver.active = false ∧ offset = 0 ∧ SnapshotFile.boundaryConsistent index term = true ∧
      data ≠ []) ∨
    (receiver.active = true ∧ index = receiver.lastIncludedIndex ∧
      term = receiver.lastIncludedTerm ∧ offset = receiver.received.length ∧
      (data ≠ [] ∨ (done = true ∧ receiver.received ≠ [])))

/-- The receiver with a chunk of a transfer. -/
def extended (receiver : SnapshotFileReceiver) (index term : Nat) (data : Bytes) :
    SnapshotFileReceiver where
  lastIncludedIndex := index
  lastIncludedTerm := term
  received := receiver.held ++ data
  active := true

/-- What an active transfer takes. -/
theorem take_eq_ok (hactive : receiver.active = true) :
    receiver.take index term offset data done = (after, .ok ()) ↔
      (index = receiver.lastIncludedIndex ∧ term = receiver.lastIncludedTerm ∧
        offset = receiver.received.length ∧
        (data ≠ [] ∨ (done = true ∧ receiver.received ≠ []))) ∧
      after = { receiver with received := receiver.received ++ data } := by
  dsimp only [take]
  rw [if_neg (by simp [hactive])]
  by_cases hboundary : index ≠ receiver.lastIncludedIndex ∨ term ≠ receiver.lastIncludedTerm
  · rw [if_pos hboundary]
    exact iff_of_false (by rintro ⟨⟩) (by tauto)
  rw [if_neg hboundary]
  by_cases hoffset : offset ≠ receiver.received.length
  · rw [if_pos hoffset]
    exact iff_of_false (by rintro ⟨⟩) (by tauto)
  rw [if_neg hoffset]
  by_cases hempty : data = [] ∧ done = false
  · rw [if_pos hempty]
    exact iff_of_false (by rintro ⟨⟩) (by simp [hempty])
  rw [if_neg hempty]
  by_cases hnothing : done = true ∧ receiver.received ++ data = []
  · rw [if_pos hnothing]
    refine iff_of_false (by rintro ⟨⟩) ?_
    rw [List.append_eq_nil_iff] at hnothing
    tauto
  · rw [if_neg hnothing, Prod.mk.injEq, and_iff_left rfl]
    rw [List.append_eq_nil_iff] at hnothing
    have hsame := not_or.mp hboundary
    have hmore : data ≠ [] ∨ (done = true ∧ receiver.received ≠ []) := by
      cases done <;> tauto
    exact ⟨fun h => ⟨⟨not_ne_iff.mp hsame.1, not_ne_iff.mp hsame.2, not_ne_iff.mp hoffset, hmore⟩,
      h.symm⟩, fun h => h.2.symm⟩

/-- A receiver takes the chunks that fit. -/
theorem append_chunk_eq_ok :
    receiver.appendChunk index term offset data done = (after, .ok ()) ↔
      receiver.Fits index term offset data done ∧ after = receiver.extended index term data := by
  obtain ⟨boundary, boundaryTerm, received, active⟩ := receiver
  rw [appendChunk, Fits, extended, held]
  cases active with
  | true =>
    rw [if_neg (by simp), take_eq_ok rfl]
    constructor
    · rintro ⟨⟨rfl, rfl, hoffset, hmore⟩, hafter⟩
      exact ⟨.inr ⟨rfl, rfl, rfl, hoffset, hmore⟩, hafter⟩
    · rintro ⟨⟨hactive, -⟩ | ⟨-, rfl, rfl, hoffset, hmore⟩, hafter⟩
      · cases hactive
      · exact ⟨⟨rfl, rfl, hoffset, hmore⟩, hafter⟩
  | false =>
    by_cases hoffset : offset = 0
    · rw [if_pos ⟨hoffset, rfl⟩, begin]
      cases hconsistent : SnapshotFile.boundaryConsistent index term with
      | false => simp
      | true =>
        simp only [Bool.true_eq_false, if_false]
        rw [take_eq_ok rfl]
        simp [hoffset]
    · rw [if_neg (by simp [hoffset]), take, if_pos rfl]
      simp [hoffset]

/-- A transfer is published when it is a valid file. -/
theorem finish_and_load_eq_ok {store : FileSnapshotStore} {snapshot : StateMachineSnapshot} :
    receiver.finishAndLoad = .ok (store, snapshot) ↔
      (receiver.active = true ∧
        SnapshotFile.parse SnapshotFile.receiveTexts receiver.received = .ok snapshot ∧
        snapshot.lastIncludedIndex = receiver.lastIncludedIndex ∧
        snapshot.lastIncludedTerm = receiver.lastIncludedTerm) ∧
      store = { file := some receiver.received } := by
  rw [finishAndLoad, except_map_eq_ok, assembled]
  constructor
  · rintro ⟨read, hassembled, hstore⟩
    split_ifs at hassembled with hmissing
    obtain ⟨parsed, hparse, hboundary⟩ := except_bind_eq_ok.mp hassembled
    split_ifs at hboundary with hother
    cases hboundary
    cases hstore
    have hsame := not_or.mp hother
    exact ⟨⟨by simpa using (not_or.mp hmissing).1, hparse, not_ne_iff.mp hsame.1,
      not_ne_iff.mp hsame.2⟩, rfl⟩
  · rintro ⟨⟨hactive, hparse, hindex, hterm⟩, rfl⟩
    have hnonempty := (SnapshotFile.decode_of_parse hparse).2
    refine ⟨snapshot, ?_, rfl⟩
    rw [if_neg (by simp [hactive, hnonempty])]
    exact except_bind_eq_ok.mpr ⟨snapshot, hparse, if_neg (by simp [hindex, hterm])⟩

end SnapshotFileReceiver

end DistributedKV
