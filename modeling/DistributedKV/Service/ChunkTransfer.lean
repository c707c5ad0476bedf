import DistributedKV.Service.InstallSnapshot

/-!
# Sending a snapshot file in chunks

A sender reads its snapshot file in chunks, and the receiver assembles what reaches it. Chunks may be
lost, repeated and reordered. The receiver takes a chunk only where the last one ended, so that it
always holds a start of the file. Of a valid file no proper start is valid, since the header says how
long the payload is (`parse_part`). So what is published is the file (`chunked_transfer`).
-/

namespace DistributedKV

variable {file : Bytes}

namespace SnapshotFile

open ByteReader

theorem length_of_parse {texts : RefusalTexts} {snapshot : StateMachineSnapshot}
    (hparse : parse texts file = .ok snapshot) :
    headerSize ≤ file.length ∧ file.length = headerSize + wordAt 12 4 file := by
  rw [parse] at hparse
  split_ifs at hparse with hsize hmagic hlength
  rw [not_or, not_lt, not_lt] at hsize
  rw [not_ne_iff] at hlength
  omega

theorem parse_part {texts others : RefusalTexts} {part : Bytes}
    {snapshot loaded : StateMachineSnapshot} (hparse : parse texts file = .ok snapshot)
    (hpart : part <+: file) (hloaded : parse others part = .ok loaded) : part = file := by
  obtain ⟨-, hlength⟩ := length_of_parse hparse
  obtain ⟨hheader, hpartial⟩ := length_of_parse hloaded
  -- both have the same header, and with it the same length
  have htake : part = file.take part.length := List.prefix_iff_eq_take.mp hpart
  have hword : wordAt 12 4 part = wordAt 12 4 file := by
    rw [htake]
    exact word_at_take (le_trans (by decide) hheader)
  exact hpart.eq_of_length (by rw [hlength, hpartial, hword])

end SnapshotFile

namespace SnapshotFileReceiver

/-- Hand a chunk to a receiver; the one at offset zero starts a new receiver. -/
def receive (receiver : SnapshotFileReceiver) (lastIncludedIndex lastIncludedTerm offset : Nat)
    (data : Bytes) (done : Bool) : SnapshotFileReceiver × Except String Unit :=
  (if offset = 0 then {} else receiver).appendChunk lastIncludedIndex lastIncludedTerm offset data
    done

/-- The receivers that chunks of a file can lead to, whichever of them arrive, in whatever order and
size, under whatever boundary, and whether they are taken or not. -/
inductive Assembles (file : Bytes) : SnapshotFileReceiver → Prop where
  | new : Assembles file {}
  | chunk {receiver : SnapshotFileReceiver} (h : Assembles file receiver)
      (lastIncludedIndex lastIncludedTerm offset maxCount : Nat) {data : Bytes} {eof : Bool}
      (hread : FileSnapshotStore.readBytes { file := some file } offset maxCount = .ok (data, eof)) :
      Assembles file
        (receiver.receive lastIncludedIndex lastIncludedTerm offset data eof).1

theorem take_received (receiver : SnapshotFileReceiver)
    (lastIncludedIndex lastIncludedTerm offset : Nat) (data : Bytes) (done : Bool) :
    let after := (receiver.take lastIncludedIndex lastIncludedTerm offset data done).1
    after.received = receiver.received ∨ after.received = [] ∨
      (offset = receiver.received.length ∧ after.received = receiver.received ++ data) := by
  dsimp only [take]
  split_ifs with hactive hboundary hoffset hempty hnothing
  · exact .inl rfl
  · exact .inl rfl
  · exact .inl rfl
  · exact .inl rfl
  · exact .inr (.inl rfl)
  · exact .inr (.inr ⟨not_ne_iff.mp hoffset, rfl⟩)

variable {receiver : SnapshotFileReceiver}

/-- Chunks of a file go on where a start of it ends. -/
theorem take_received_part {data : Bytes} {eof : Bool} (hpart : receiver.received <+: file)
    (lastIncludedIndex lastIncludedTerm : Nat) {offset maxCount : Nat}
    (hread : FileSnapshotStore.readBytes { file := some file } offset maxCount = .ok (data, eof)) :
    (receiver.take lastIncludedIndex lastIncludedTerm offset data eof).1.received <+: file := by
  rcases receiver.take_received lastIncludedIndex lastIncludedTerm offset data eof with
    hsame | hnone | ⟨hoffset, hmore⟩
  · rw [hsame]
    exact hpart
  · rw [hnone]
    exact List.nil_prefix
  · rw [FileSnapshotStore.readBytes] at hread
    split_ifs at hread with hcount
    dsimp only at hread
    split_ifs at hread with hrange
    cases hread
    rw [hmore, hoffset]
    obtain ⟨rest, rfl⟩ := hpart
    rw [List.drop_left]
    exact (List.prefix_append_right_inj _).mpr (List.take_prefix _ _)

theorem append_chunk_part {data : Bytes} {eof : Bool} (hpart : receiver.received <+: file)
    (lastIncludedIndex lastIncludedTerm : Nat) {offset maxCount : Nat}
    (hread : FileSnapshotStore.readBytes { file := some file } offset maxCount = .ok (data, eof)) :
    (receiver.appendChunk lastIncludedIndex lastIncludedTerm offset data eof).1.received <+: file := by
  by_cases hstart : offset = 0 ∧ receiver.active = false
  · rw [appendChunk, if_pos hstart, begin]
    by_cases hconsistent :
        SnapshotFile.boundaryConsistent lastIncludedIndex lastIncludedTerm = false
    · rw [if_pos hconsistent]
      exact hpart
    · rw [if_neg hconsistent]
      have hnew : ({ lastIncludedIndex, lastIncludedTerm, received := [], active := true } :
          SnapshotFileReceiver).received <+: file := List.nil_prefix
      exact take_received_part hnew lastIncludedIndex lastIncludedTerm hread
  · rw [appendChunk, if_neg hstart]
    exact take_received_part hpart lastIncludedIndex lastIncludedTerm hread

theorem Assembles.part (h : Assembles file receiver) : receiver.received <+: file := by
  induction h with
  | new => exact List.nil_prefix
  | chunk _ lastIncludedIndex lastIncludedTerm offset maxCount hread ih =>
    refine append_chunk_part ?_ lastIncludedIndex lastIncludedTerm hread
    split_ifs
    · exact List.nil_prefix
    · exact ih

/-! ### In order -/

/-- The number of chunks of a file. -/
def chunkCount (size chunkSize : Nat) : Nat := (size + chunkSize - 1) / chunkSize

/-- Read the chunk with a number and hand it over. -/
def deliver (store : FileSnapshotStore) (chunkSize lastIncludedIndex lastIncludedTerm : Nat)
    (receiver : SnapshotFileReceiver) (number : Nat) : Except String SnapshotFileReceiver := do
  let (data, eof) ← store.readBytes (number * chunkSize) chunkSize
  match receiver.receive lastIncludedIndex lastIncludedTerm (number * chunkSize) data eof with
  | (receiver, .ok ()) => .ok receiver
  | (_, .error error) => .error error

/-- Deliver some chunks one after the other. -/
def deliverAll (store : FileSnapshotStore) (chunkSize lastIncludedIndex lastIncludedTerm : Nat)
    (receiver : SnapshotFileReceiver) (numbers : List Nat) : Except String SnapshotFileReceiver :=
  numbers.foldlM (deliver store chunkSize lastIncludedIndex lastIncludedTerm) receiver

section InOrder

variable {file : Bytes} {snapshot : StateMachineSnapshot} {chunkSize : Nat}

/-- A file as a stream of one chunk, for its boundary. -/
def wholeStream (file : Bytes) (snapshot : StateMachineSnapshot) : SnapshotStream where
  term := 0
  leaderId := 0
  lastIncludedIndex := snapshot.lastIncludedIndex
  lastIncludedTerm := snapshot.lastIncludedTerm
  chunks := [file]

/-- The next chunk of a file is taken. -/
theorem deliver_next (hconsistent : SnapshotFile.boundaryConsistent snapshot.lastIncludedIndex
      snapshot.lastIncludedTerm = true) (hsize : 0 < chunkSize) {number : Nat}
    (hnumber : number * chunkSize < file.length) (hreceiver : number ≠ 0 →
      receiver = (wholeStream file snapshot).receiver (file.take (number * chunkSize))) :
    deliver { file := some file } chunkSize snapshot.lastIncludedIndex snapshot.lastIncludedTerm
      receiver number =
        .ok ((wholeStream file snapshot).receiver (file.take ((number + 1) * chunkSize))) := by
  let offset := number * chunkSize
  let data := (file.drop offset).take chunkSize
  let eof := decide (file.length ≤ offset + data.length)
  have hread : FileSnapshotStore.readBytes { file := some file } offset chunkSize =
      .ok (data, eof) := by
    rw [FileSnapshotStore.readBytes, if_neg hsize.ne']
    exact if_neg (Nat.not_lt.mpr hnumber.le)
  have hdata : data ≠ [] := by
    intro hnone
    have hlength := congrArg List.length hnone
    rw [List.length_take, List.length_drop, List.length_nil] at hlength
    omega
  have hstart : (if offset = 0 then {} else receiver : SnapshotFileReceiver) =
      (wholeStream file snapshot).receiver (file.take offset) := by
    by_cases hfirst : number = 0
    · have hzero : offset = 0 := by rw [show offset = number * chunkSize from rfl, hfirst, zero_mul]
      rw [if_pos hzero, hzero]
      rfl
    · rw [if_neg (Nat.mul_ne_zero hfirst hsize.ne'), hreceiver hfirst]
  have hall : file.take offset ++ data = file.take ((number + 1) * chunkSize) := by
    rw [Nat.succ_mul, List.take_add]
  have hchunk : ((wholeStream file snapshot).receiver (file.take offset)).appendChunk
      snapshot.lastIncludedIndex snapshot.lastIncludedTerm (file.take offset).length data eof =
        ((wholeStream file snapshot).receiver (file.take offset ++ data), .ok ()) :=
    append_chunk_ok hconsistent (fun hnone => absurd hnone hdata)
      (List.append_ne_nil_of_right_ne_nil _ hdata)
  rw [List.length_take_of_le hnumber.le, hall] at hchunk
  rw [deliver, hread]
  show (match receiver.receive snapshot.lastIncludedIndex snapshot.lastIncludedTerm offset data eof with
    | (receiver, .ok ()) => .ok receiver
    | (_, .error error) => .error error : Except String SnapshotFileReceiver) = _
  rw [receive, hstart, hchunk]

/-- The first chunks of a file are taken in order. -/
theorem deliver_all_part
    (hconsistent : SnapshotFile.boundaryConsistent snapshot.lastIncludedIndex
      snapshot.lastIncludedTerm = true) (hsize : 0 < chunkSize) (receiver : SnapshotFileReceiver)
    (count : Nat) (hcount : count * chunkSize < file.length) :
    deliverAll { file := some file } chunkSize snapshot.lastIncludedIndex
      snapshot.lastIncludedTerm receiver (List.range (count + 1)) =
        .ok ((wholeStream file snapshot).receiver (file.take ((count + 1) * chunkSize))) := by
  induction count with
  | zero =>
    show (deliver _ _ _ _ receiver 0 >>= pure) = _
    rw [deliver_next hconsistent hsize hcount (fun hfirst => absurd rfl hfirst)]
    rfl
  | succ count ih =>
    have hbefore : count * chunkSize < file.length := by
      rw [Nat.succ_mul] at hcount
      omega
    rw [List.range_succ, deliverAll, List.foldlM_append]
    show (deliverAll _ _ _ _ receiver (List.range (count + 1)) >>= _) = _
    rw [ih hbefore]
    show (deliver _ _ _ _ _ (count + 1) >>= pure) = _
    rw [deliver_next hconsistent hsize hcount fun _ => rfl]
    rfl

theorem chunk_count_spec {size : Nat} (hsize : 0 < chunkSize) (hnonempty : 0 < size) :
    ∃ last, chunkCount size chunkSize = last + 1 ∧ last * chunkSize < size ∧
      size ≤ (last + 1) * chunkSize := by
  refine ⟨(size - 1) / chunkSize, ?_, ?_, ?_⟩
  · rw [chunkCount, ← Nat.add_div_right _ hsize]
    congr 1
    omega
  · have hbelow := Nat.div_mul_le_self (size - 1) chunkSize
    omega
  · have habove := Nat.lt_mul_div_succ (size - 1) hsize
    rw [Nat.mul_comm] at habove
    omega

end InOrder

/-- The chunks of a valid file. If a receiver of any of them publishes a snapshot, it has assembled
the file, and the snapshot is the one that is loaded from it; if each is delivered once and in order,
the file is published. -/
theorem chunked_transfer {file : Bytes} {snapshot : StateMachineSnapshot}
    (hload : FileSnapshotStore.load { file := some file } = .ok (some snapshot)) :
    (∀ receiver, Assembles file receiver → ∀ store loaded,
      receiver.finishAndLoad = .ok (store, loaded) →
        receiver.received = file ∧ store.file = some file ∧ loaded = snapshot) ∧
    ∀ chunkSize, 0 < chunkSize → ∀ receiver, ∃ complete,
      deliverAll { file := some file } chunkSize snapshot.lastIncludedIndex
        snapshot.lastIncludedTerm receiver (List.range (chunkCount file.length chunkSize)) =
          .ok complete ∧
      complete.finishAndLoad = .ok ({ file := some file }, snapshot) := by
  obtain ⟨parsed, hparsed, hsame⟩ := Barrier.except_map_eq_ok.mp hload
  cases hsame
  constructor
  · intro receiver hassembles store loaded hfinish
    obtain ⟨⟨-, hloaded, -⟩, rfl⟩ := finish_and_load_eq_ok.mp hfinish
    have hwhole : receiver.received = file :=
      SnapshotFile.parse_part hparsed hassembles.part hloaded
    rw [hwhole] at hloaded ⊢
    exact ⟨rfl, rfl, Except.ok.inj (hloaded.symm.trans (SnapshotFile.parse_texts hparsed))⟩
  · intro chunkSize hsize receiver
    obtain ⟨hdecode, hnonempty⟩ := SnapshotFile.decode_of_parse hparsed
    obtain ⟨hconsistent, -⟩ := StateMachine.restore_decoded hdecode
    obtain ⟨last, hcount, hlast, hall⟩ :=
      chunk_count_spec hsize (List.length_pos_iff.mpr hnonempty)
    have hvalid : (wholeStream file snapshot).Valid snapshot :=
      ⟨by simpa [wholeStream] using SnapshotFile.parse_texts hparsed, rfl, rfl, by simp [wholeStream]⟩
    refine ⟨(wholeStream file snapshot).receiver file, ?_, ?_⟩
    · rw [hcount, deliver_all_part hconsistent hsize receiver last hlast, List.take_of_length_le hall]
    · have hfinish := finish_and_load_ok hvalid
      rwa [show (wholeStream file snapshot).chunks.flatten = file by simp [wholeStream]] at hfinish

/-- A file of 44 bytes, sent in chunks of seven. -/
theorem chunked_transfer_sevens :
    ∃ file complete, FileSnapshotStore.load { file := some file } = .ok (some (emptySnapshot 1)) ∧
      deliverAll { file := some file } 7 1 1 {} (List.range (chunkCount file.length 7)) =
        .ok complete ∧
      complete.finishAndLoad = .ok ({ file := some file }, emptySnapshot 1) := by
  let file := (emptyStream 1).chunks.flatten
  have hload : FileSnapshotStore.load { file := some file } = .ok (some (emptySnapshot 1)) := by
    decide +kernel
  obtain ⟨complete, hdelivered, hfinish⟩ := (chunked_transfer hload).2 7 (by decide) {}
  exact ⟨file, complete, hload, hdelivered, hfinish⟩

end SnapshotFileReceiver

end DistributedKV
