import DistributedKV.Storage.Wal

/-!
# Recovering the write-ahead log

The records of a log that was cut are read back up to the first one that is not whole. The writes
they stand for are the first ones that were appended, with their numbers.
-/

namespace DistributedKV

open ByteReader List

namespace Wal

variable {write : StoreWrite} {writes : List StoreWrite} {previous sequence count : Nat}

/-! ## One record -/

/-- A payload within the limits is read back. -/
theorem read_payload_record (hfits : write.Fits) (hsequence : previous + 1 < 2 ^ 64) :
    readPayload previous (payload (write.record (previous + 1))) =
      .ok (write.record (previous + 1)) := by
  obtain ⟨hkey, hvalue, hremove⟩ := hfits
  have hkeySize : write.key.length < 256 ^ 4 := by
    simp only [maximumKeySize] at hkey
    omega
  have hvalueSize : write.value.length < 256 ^ 4 := by
    simp only [maximumValueSize] at hvalue
    omega
  have hlength := length_payload (write.record (previous + 1))
  obtain ⟨bytes, hbytes⟩ : ∃ bytes, payload (write.record (previous + 1)) = bytes := ⟨_, rfl⟩
  have hshape : bytes = [operationCode write.operation, 0, 0, 0] ++ (append64 (previous + 1) ++
      (append32 write.key.length ++ (append32 write.value.length ++
        (write.key ++ write.value)))) := by
    rw [← hbytes]
    simp only [payload, StoreWrite.record, append_assoc, cons_append, nil_append]
  have hcode : operationOfCode (wordAt 0 1 bytes) = some write.operation := by
    rw [hshape]
    cases write.operation <;> rfl
  have hzeros : (bytes.drop 1).take 3 = [0, 0, 0] := by
    rw [hshape]
    rfl
  have hnumber : wordAt 4 8 bytes = previous + 1 := by
    have hstart : [operationCode write.operation, 0, 0, 0].length = 4 := rfl
    rw [hshape, append64, word_at_append hstart, Nat.mod_eq_of_lt (by simpa using hsequence)]
  have hkeyWord : wordAt 12 4 bytes = write.key.length := by
    rw [hshape, ← append_assoc, append32, word_at_append (by simp [append64]),
      Nat.mod_eq_of_lt hkeySize]
  have hvalueWord : wordAt 16 4 bytes = write.value.length := by
    rw [hshape, ← append_assoc, ← append_assoc, append32, append32,
      word_at_append (by simp [append64]), Nat.mod_eq_of_lt hvalueSize]
  have hrest : bytes.drop recordMetadataSize = write.key ++ write.value := by
    rw [hshape, ← append_assoc, ← append_assoc, ← append_assoc]
    exact drop_left' (by simp [append64, append32, recordMetadataSize])
  have htail : bytes.drop (recordMetadataSize + write.key.length) = write.value := by
    rw [← drop_drop, hrest, drop_left]
  have hallowed : ¬ (previous + 1 ≠ (previous + 1) % 2 ^ 64 ∨
      maximumKeySize < write.key.length ∨ maximumValueSize < write.value.length ∨
      recordMetadataSize + write.key.length + write.value.length ≠ bytes.length ∨
      (write.operation = .remove ∧ write.value.length ≠ 0)) := by
    rw [hbytes] at hlength
    simp only [StoreWrite.record] at hlength
    rintro (h | h | h | h | ⟨hoperation, h⟩)
    · exact h (Nat.mod_eq_of_lt hsequence).symm
    · omega
    · omega
    · exact h (by rw [hlength, Nat.add_assoc])
    · exact h (by rw [hremove hoperation, length_nil])
  rw [hbytes, readPayload, hcode]
  dsimp only
  rw [if_neg (by rw [hzeros]; simp), hnumber, hkeyWord, hvalueWord, if_neg hallowed, hrest, htail,
    take_left, take_length]
  rfl

/-- The fields of a record at the start of some bytes. -/
structure StartsWith (bytes : Bytes) (record : WalRecord) (tail : Bytes) : Prop where
  magic : bytes.take 4 = recordMagic
  size : wordAt 4 4 bytes = (payload record).length
  checksum : wordAt 8 4 bytes = (crc32c (payload record)).toNat
  payload : (bytes.drop recordHeaderSize).take (payload record).length = payload record
  tail : bytes.drop (recordHeaderSize + (Wal.payload record).length) = tail

theorem payload_length_of_fits (hfits : write.Fits) (sequence : Nat) :
    recordMetadataSize ≤ (payload (write.record sequence)).length ∧
      (payload (write.record sequence)).length ≤ maximumPayloadSize ∧
      recordSize write = recordHeaderSize + (payload (write.record sequence)).length := by
  obtain ⟨hkey, hvalue, -⟩ := hfits
  rw [length_payload]
  refine ⟨by omega, ?_, rfl⟩
  simp only [StoreWrite.record, maximumPayloadSize]
  omega

/-- A record that was written is found again. -/
theorem starts_with_record (hfits : write.Fits) (sequence : Nat) (tail : Bytes) :
    StartsWith (recordBytes (write.record sequence) ++ tail) (write.record sequence) tail := by
  obtain ⟨-, hshort, -⟩ := payload_length_of_fits hfits sequence
  have hlength : (payload (write.record sequence)).length < 256 ^ 4 := by
    simp only [maximumPayloadSize, recordMetadataSize, maximumKeySize, maximumValueSize] at hshort
    omega
  generalize write.record sequence = record at hlength
  have hbytes : recordBytes record ++ tail = recordMagic ++ (append32 (payload record).length ++
      (append32 (crc32c (payload record)).toNat ++ (payload record ++ tail))) := by
    simp only [recordBytes, append_assoc]
  have hrest : (recordBytes record ++ tail).drop recordHeaderSize = payload record ++ tail := by
    rw [hbytes, ← append_assoc, ← append_assoc]
    exact drop_left' (by simp [append32, recordMagic, recordHeaderSize])
  refine ⟨?_, ?_, ?_, ?_, ?_⟩
  · rw [hbytes]
    rfl
  · rw [hbytes, append32, word_at_append (show recordMagic.length = 4 from rfl),
      Nat.mod_eq_of_lt hlength]
  · rw [hbytes, ← append_assoc, append32, append32, word_at_append (by simp [recordMagic])]
    exact Nat.mod_eq_of_lt (crc32c (payload record)).toNat_lt
  · rw [hrest, take_left]
  · rw [← drop_drop, hrest, drop_left]

theorem recover_loop_record {recovery : Recovery} (hfits : write.Fits)
    (hsequence : recovery.previousSequence + 1 < 2 ^ 64) (rounds : Nat) (tail : Bytes) :
    recoverLoop (rounds + 1)
        (recordBytes (write.record (recovery.previousSequence + 1)) ++ tail) recovery =
      recoverLoop rounds tail (recovery.next
        (payload (write.record (recovery.previousSequence + 1))).length
        (write.record (recovery.previousSequence + 1))) := by
  obtain ⟨hlong, hshort, hsize⟩ := payload_length_of_fits hfits (recovery.previousSequence + 1)
  have hfields := starts_with_record hfits (recovery.previousSequence + 1) tail
  have hlength : (recordBytes (write.record (recovery.previousSequence + 1)) ++ tail).length =
      recordSize write + tail.length := by
    rw [length_append, length_record_bytes]
  rw [recoverLoop, if_neg (by omega), if_neg (by rw [hfields.magic]; simp)]
  dsimp only
  rw [hfields.size, if_neg (by omega), if_neg (by omega), hfields.payload, hfields.checksum,
    if_neg (by simp), read_payload_record hfits hsequence, hfields.tail]

/-- A torn record is skipped. -/
theorem recover_loop_torn {recovery : Recovery} (hfits : write.Fits)
    (htorn : count < recordSize write) (rounds : Nat) :
    recoverLoop rounds ((recordBytes (write.record sequence)).take count) recovery =
      .ok recovery := by
  cases rounds with
  | zero => rfl
  | succ rounds =>
    have hcount : ((recordBytes (write.record sequence)).take count).length = count := by
      rw [length_take, length_record_bytes, min_eq_left htorn.le]
    rw [recoverLoop, hcount]
    by_cases hheader : count < recordHeaderSize
    · rw [if_pos hheader]
    obtain ⟨hlong, hshort, hsize⟩ := payload_length_of_fits hfits sequence
    have hfields := starts_with_record hfits sequence []
    rw [append_nil] at hfields
    have hmagic : ((recordBytes (write.record sequence)).take count).take 4 = recordMagic := by
      rw [take_take, min_eq_left (by simp only [recordHeaderSize] at hheader; omega),
        hfields.magic]
    have hword : wordAt 4 4 ((recordBytes (write.record sequence)).take count) =
        (payload (write.record sequence)).length := by
      rw [word_at_take (by simp only [recordHeaderSize] at hheader; omega), hfields.size]
    rw [if_neg hheader, if_neg (by rw [hmagic]; simp)]
    dsimp only
    rw [hword, if_neg (by omega), if_pos (by omega)]

/-! ## Logs that were cut -/

/-- The loop after some writes. -/
def Recovery.after (recovery : Recovery) (writes : List StoreWrite) : Recovery where
  offset := recovery.offset + (writes.map recordSize).sum
  previousSequence := recovery.previousSequence + writes.length
  records := recovery.records ++ numbered (recovery.previousSequence + 1) writes

theorem Recovery.after_nil (recovery : Recovery) : recovery.after [] = recovery := by
  simp [Recovery.after, numbered]

theorem Recovery.after_cons (recovery : Recovery) (write : StoreWrite) (rest : List StoreWrite) :
    (recovery.next (payload (write.record (recovery.previousSequence + 1))).length
      (write.record (recovery.previousSequence + 1))).after rest =
      recovery.after (write :: rest) := by
  rw [length_payload]
  simp only [Recovery.after, Recovery.next, StoreWrite.record, numbered, map_cons,
    sum_cons, length_cons, append_assoc, singleton_append, recordSize]
  rw [Nat.add_assoc recovery.offset, Nat.add_assoc recovery.previousSequence, Nat.add_comm 1]

/-- The loop reads the whole records after a cut. -/
theorem recover_loop_take (recovery : Recovery) (count : Nat) {rounds : Nat}
    (hfits : ∀ write ∈ writes, write.Fits)
    (hsequence : recovery.previousSequence + writes.length < 2 ^ 64)
    (hrounds : ((writesBytes (recovery.previousSequence + 1) writes).take count).length ≤ rounds) :
    recoverLoop rounds ((writesBytes (recovery.previousSequence + 1) writes).take count) recovery =
      .ok (recovery.after (whole count writes)) := by
  induction writes generalizing recovery rounds count with
  | nil =>
    rw [whole, recovery.after_nil]
    cases rounds with
    | zero => rfl
    | succ rounds => simp [recoverLoop, writesBytes, numbered, recordHeaderSize]
  | cons write rest ih =>
    have hwrite := hfits write (by simp)
    rw [length_cons] at hsequence
    rw [writes_bytes_cons] at hrounds ⊢
    by_cases hwhole : recordSize write ≤ count
    · have htake : (recordBytes (write.record (recovery.previousSequence + 1)) ++
          writesBytes (recovery.previousSequence + 1 + 1) rest).take count =
          recordBytes (write.record (recovery.previousSequence + 1)) ++
            (writesBytes (recovery.previousSequence + 1 + 1) rest).take
              (count - recordSize write) := by
        rw [take_append, length_record_bytes,
          take_of_length_le (by rw [length_record_bytes]; exact hwhole)]
      rw [htake, length_append, length_record_bytes] at hrounds
      rw [htake, whole, if_pos hwhole]
      cases rounds with
      | zero =>
        simp only [recordSize, recordHeaderSize] at hrounds
        omega
      | succ rounds =>
        have hsize : 1 ≤ recordSize write := by
          simp only [recordSize, recordHeaderSize]
          omega
        rw [recover_loop_record hwrite (by omega), ← recovery.after_cons]
        have hnumber : recovery.previousSequence + 1 = (recovery.next
            (payload (write.record (recovery.previousSequence + 1))).length
            (write.record (recovery.previousSequence + 1))).previousSequence := rfl
        generalize recovery.next _ _ = next at hnumber ⊢
        rw [hnumber] at hrounds ⊢
        exact ih next _ (fun other hother => hfits other (by simp [hother])) (by omega) (by omega)
    · rw [whole, if_neg hwhole, recovery.after_nil,
        take_append_of_le_length (by rw [length_record_bytes]; omega)]
      exact recover_loop_torn hwrite (by omega) rounds

end Wal

end DistributedKV
