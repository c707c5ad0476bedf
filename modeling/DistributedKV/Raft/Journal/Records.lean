import DistributedKV.Raft.Journal.FileRaftPersistence
import DistributedKV.Raft.Journal.StateRoundTrip

/-!
# Chains of records

The records of a journal form a chain of states, each of which is written whole or as a delta from
the one before. Replaying a chain leads to its last state (`replay_chain`), and replaying a chain
that was cut leads to the last state whose record is still complete (`Cut.replay`). A record with
too long a payload is refused.
-/

namespace DistributedKV

open ByteReader List

namespace RaftJournal

/-! ## Records -/

/-- A record that a save writes for a state when the journal holds another one last. -/
inductive RecordOf (latest : RaftPersistentState) : JournalRecord → RaftPersistentState → Prop
  | full {state : RaftPersistentState} {payload : Bytes} (hfits : Fits state)
      (hencode : encodeState state = .ok payload) :
      RecordOf latest { kind := .full, payload } state
  | delta {state : RaftPersistentState} {payload : Bytes} (hfits : Fits state)
      (hsame : SameExtensions latest state) (hencode : encodeDelta latest state = .ok payload) :
      RecordOf latest { kind := .delta, payload } state

section Record

variable {latest state : RaftPersistentState} {record : JournalRecord}

theorem RecordOf.apply (hrecord : RecordOf latest record state) :
    record.kind.apply record.payload latest = .ok state := by
  cases hrecord with
  | full hfits hencode => exact decode_encode_state hfits hencode
  | delta hfits hsame hencode => exact decode_encode_delta hfits hsame hencode

/-- The length of a payload fits its field and is not zero. -/
theorem RecordOf.length (hrecord : RecordOf latest record state) :
    0 < record.payload.length ∧ record.payload.length < 256 ^ 4 := by
  cases hrecord with
  | full hfits hencode =>
    obtain ⟨body, extensions, himage⟩ := encode_state_ok hfits hencode
    have hextensions := append_state_extensions_length himage.extended
    have hshort := himage.short
    have hlong := congrArg length himage.bytes
    simp only [length_append] at hlong
    simp only [maximumPayloadSize] at hshort
    dsimp only
    omega
  | delta hfits hsame hencode =>
    obtain ⟨body, himage⟩ := encode_delta_ok hfits hencode
    have hshort := himage.short
    have hlong := congrArg length himage.bytes
    simp only [append32, length_append, length_big_endian] at hlong
    simp only [maximumPayloadSize] at hshort
    dsimp only
    omega

@[simp] theorem length_magic (kind : RecordKind) : kind.magic.length = 4 := by
  cases kind <;> rfl

@[simp] theorem of_magic_magic (kind : RecordKind) : RecordKind.ofMagic kind.magic = some kind := by
  cases kind <;> rfl

@[simp] theorem length_bytes (record : JournalRecord) :
    record.bytes.length = recordHeaderSize + record.payload.length := by
  simp only [JournalRecord.bytes, append32, length_append, length_big_endian, length_magic,
    recordHeaderSize]

/-- The fields of a record at the start of some bytes. -/
structure StartsWith (rest : Bytes) (record : JournalRecord) (tail : Bytes) : Prop where
  long : recordHeaderSize ≤ rest.length
  magic : rest.take 4 = record.kind.magic
  size : wordAt 4 4 rest = record.payload.length
  checksum : wordAt 8 4 rest = (crc32c record.payload).toNat
  payload : (rest.drop recordHeaderSize).take record.payload.length = record.payload
  tail : rest.drop (recordHeaderSize + record.payload.length) = tail

/-- A record is found where its bytes start. -/
theorem starts_with_bytes (hlength : record.payload.length < 256 ^ 4) (tail : Bytes) :
    StartsWith (record.bytes ++ tail) record tail := by
  have hbytes : record.bytes ++ tail = record.kind.magic ++ (append32 record.payload.length ++
      (append32 (crc32c record.payload).toNat ++ (record.payload ++ tail))) := by
    simp only [JournalRecord.bytes, append_assoc]
  have hheader : ∀ rest, record.bytes ++ tail = rest →
      rest.drop recordHeaderSize = record.payload ++ tail := by
    rintro rest rfl
    have hsplit : record.bytes ++ tail =
        (record.kind.magic ++ append32 record.payload.length ++
          append32 (crc32c record.payload).toNat) ++ (record.payload ++ tail) := by
      simp only [JournalRecord.bytes, append_assoc]
    rw [hsplit, drop_left' (by simp [append32, recordHeaderSize])]
  refine ⟨by rw [length_append, length_bytes]; omega, ?_, ?_, ?_, ?_, ?_⟩
  · rw [hbytes, take_left' (length_magic _)]
  · rw [hbytes, append32, word_at_append (length_magic _), Nat.mod_eq_of_lt hlength]
  · rw [hbytes, ← append_assoc, append32, append32, word_at_append (by simp)]
    exact Nat.mod_eq_of_lt (crc32c record.payload).toNat_lt
  · rw [hheader _ rfl, take_left]
  · rw [← drop_drop, hheader _ rfl, drop_left]

theorem replay_record (hrecord : RecordOf latest record state)
    (hsmall : record.payload.length ≤ maximumPayloadSize) {start : Replay}
    (hstart : start.latest = latest) (tail : Bytes) :
    replay (record.bytes ++ tail) start =
      replay tail (start.next record.kind record.payload.length state) := by
  obtain ⟨hpositive, hlength⟩ := hrecord.length
  have hfields := starts_with_bytes hlength tail
  rw [replay_of_header hfields.long, hfields.magic, of_magic_magic]
  dsimp only
  rw [hfields.size, if_neg (by omega), if_neg (by simp), hfields.payload, hfields.checksum,
    if_neg (by simp), hstart, hrecord.apply, hfields.tail]

theorem replay_oversize (hrecord : RecordOf latest record state)
    (hlarge : maximumPayloadSize < record.payload.length) (start : Replay) (tail : Bytes) :
    ∃ error, replay (record.bytes ++ tail) start = .error error := by
  have hfields := starts_with_bytes hrecord.length.2 tail
  rw [replay_of_header hfields.long, hfields.magic, of_magic_magic]
  dsimp only
  rw [hfields.size, if_pos (.inr hlarge)]
  exact ⟨_, rfl⟩

/-- A torn record is skipped, or refused when too long. -/
theorem replay_torn (hrecord : RecordOf latest record state) {count : Nat}
    (htorn : count < record.bytes.length) (start : Replay) :
    replay (record.bytes.take count) start = .ok start ∨
      (maximumPayloadSize < record.payload.length ∧
        ∃ error, replay (record.bytes.take count) start = .error error) := by
  obtain ⟨hpositive, hlength⟩ := hrecord.length
  have hcount : (record.bytes.take count).length = count := by
    rw [length_take, min_eq_left htorn.le]
  by_cases hshort : count < recordHeaderSize
  · exact .inl (replay_of_short (by rw [hcount]; exact hshort) start)
  rw [not_lt] at hshort
  have hfields := starts_with_bytes hlength []
  rw [append_nil] at hfields
  have hfour : 4 ≤ recordHeaderSize := by decide
  have hmagic : (record.bytes.take count).take 4 = record.kind.magic := by
    rw [take_take, min_eq_left (by omega), hfields.magic]
  have hsize : wordAt 4 4 (record.bytes.take count) = record.payload.length := by
    rw [← hfields.size, wordAt, wordAt, drop_take, take_take,
      min_eq_left (by simp only [recordHeaderSize] at hshort; omega)]
  rw [replay_of_header (by rw [hcount]; exact hshort), hmagic, of_magic_magic]
  dsimp only
  rw [hsize, hcount]
  by_cases hlarge : maximumPayloadSize < record.payload.length
  · rw [if_pos (.inr hlarge)]
    exact .inr ⟨hlarge, _, rfl⟩
  · rw [length_bytes] at htorn
    rw [if_neg (by omega), if_pos htorn]
    exact .inl rfl

end Record

/-! ## Chains of records -/

/-- Records with the states after them. -/
abbrev Written := List (JournalRecord × RaftPersistentState)

/-- Each record was written when the journal held the state before it last. -/
def Chain : RaftPersistentState → Written → Prop
  | _, [] => True
  | latest, (record, state) :: rest => RecordOf latest record state ∧ Chain state rest

/-- The bytes of some records. -/
def recordsBytes (written : Written) : Bytes := written.flatMap fun item => item.1.bytes

/-- The last state of a chain. -/
def lastOf (latest : RaftPersistentState) (written : Written) : RaftPersistentState :=
  (written.getLast?.map Prod.snd).getD latest

/-- No payload is too long. -/
def Small (written : Written) : Prop :=
  ∀ item ∈ written, item.1.payload.length ≤ maximumPayloadSize

/-- The loop after some records. -/
def Replay.after (start : Replay) : Written → Replay
  | [] => start
  | (record, state) :: rest => (start.next record.kind record.payload.length state).after rest

theorem replay_nil (start : Replay) : replay [] start = .ok start := rfl

section Chain

variable {latest : RaftPersistentState} {written before after : Written} {start : Replay}

@[simp] theorem records_bytes_cons (item : JournalRecord × RaftPersistentState) (rest : Written) :
    recordsBytes (item :: rest) = item.1.bytes ++ recordsBytes rest := rfl

@[simp] theorem records_bytes_append (before after : Written) :
    recordsBytes (before ++ after) = recordsBytes before ++ recordsBytes after := by
  simp [recordsBytes]

@[simp] theorem last_of_cons (item : JournalRecord × RaftPersistentState) (rest : Written) :
    lastOf latest (item :: rest) = lastOf item.2 rest := by
  cases rest with
  | nil => rfl
  | cons next others => simp [lastOf, getLast?_cons]

@[simp] theorem last_of_concat (before : Written) (item : JournalRecord × RaftPersistentState) :
    lastOf latest (before ++ [item]) = item.2 := by
  simp [lastOf]

theorem chain_append :
    Chain latest (before ++ after) ↔ Chain latest before ∧ Chain (lastOf latest before) after := by
  induction before generalizing latest with
  | nil => simp [Chain, lastOf]
  | cons item rest ih => simp [Chain, ih, and_assoc]

theorem after_offset (start : Replay) (written : Written) :
    (start.after written).offset = start.offset + (recordsBytes written).length := by
  induction written generalizing start with
  | nil => rfl
  | cons item rest ih =>
    rw [Replay.after, ih, records_bytes_cons, length_append, length_bytes, ← Nat.add_assoc]
    rfl

theorem after_latest (start : Replay) (written : Written) :
    (start.after written).latest = lastOf start.latest written := by
  induction written generalizing start with
  | nil => rfl
  | cons item rest ih =>
    rw [Replay.after, ih, last_of_cons]
    rfl

theorem replay_chain (hchain : Chain latest written) (hsmall : Small written)
    (hstart : start.latest = latest) (tail : Bytes) :
    replay (recordsBytes written ++ tail) start = replay tail (start.after written) := by
  induction written generalizing latest start with
  | nil => rfl
  | cons item rest ih =>
    obtain ⟨record, state⟩ := item
    obtain ⟨hrecord, hrest⟩ := hchain
    rw [records_bytes_cons, append_assoc,
      replay_record hrecord (hsmall (record, state) (by simp)) hstart]
    exact ih hrest (fun other hother => hsmall other (by simp [hother])) rfl

/-- Only a chain without too long a payload is replayed. -/
theorem small_of_replay (hchain : Chain latest written) (hstart : start.latest = latest)
    {tail : Bytes} {result : Replay}
    (hreplay : replay (recordsBytes written ++ tail) start = .ok result) : Small written := by
  induction written generalizing latest start with
  | nil => exact fun item hitem => absurd hitem not_mem_nil
  | cons item rest ih =>
    obtain ⟨record, state⟩ := item
    obtain ⟨hrecord, hrest⟩ := hchain
    rw [records_bytes_cons, append_assoc] at hreplay
    by_cases hlarge : maximumPayloadSize < record.payload.length
    · obtain ⟨error, herror⟩ := replay_oversize hrecord hlarge start (recordsBytes rest ++ tail)
      rw [herror] at hreplay
      cases hreplay
    · rw [not_lt] at hlarge
      rw [replay_record hrecord hlarge hstart] at hreplay
      have hothers := ih hrest rfl hreplay
      intro other hother
      rcases mem_cons.mp hother with rfl | hother
      · exact hlarge
      · exact hothers other hother

/-- The records that a cut leaves whole, and the others. -/
structure Cut (written : Written) (count : Nat) (before after : Written) : Prop where
  split : written = before ++ after
  whole : (recordsBytes before).length ≤ count
  torn : ∀ record state rest, after = (record, state) :: rest →
    count < (recordsBytes before).length + record.bytes.length

theorem exists_cut (written : Written) (count : Nat) :
    ∃ before after, Cut written count before after := by
  induction written generalizing count with
  | nil => exact ⟨[], [], rfl, Nat.zero_le _, by simp⟩
  | cons item rest ih =>
    by_cases hwhole : item.1.bytes.length ≤ count
    · obtain ⟨before, after, hsplit, hbefore, htorn⟩ := ih (count - item.1.bytes.length)
      refine ⟨item :: before, after, by rw [hsplit]; rfl, ?_, fun record state others hafter => ?_⟩
      · rw [records_bytes_cons, length_append]
        omega
      · have := htorn record state others hafter
        rw [records_bytes_cons, length_append]
        omega
    · refine ⟨[], item :: rest, rfl, Nat.zero_le _, fun record state others hafter => ?_⟩
      cases hafter
      rw [not_le] at hwhole
      simpa [recordsBytes] using hwhole

/-- A cut leaves whole records and the start of the next. -/
theorem Cut.take {count : Nat} (hcut : Cut written count before after) :
    (recordsBytes written).take count = recordsBytes before ∨
      ∃ record state rest, after = (record, state) :: rest ∧
        count - (recordsBytes before).length < record.bytes.length ∧
        (recordsBytes written).take count = recordsBytes before ++
          record.bytes.take (count - (recordsBytes before).length) := by
  rw [hcut.split, records_bytes_append, take_append]
  rw [take_of_length_le hcut.whole]
  cases after with
  | nil =>
    left
    simp [recordsBytes]
  | cons item rest =>
    obtain ⟨record, state⟩ := item
    have htorn := hcut.torn record state rest rfl
    have hwhole := hcut.whole
    refine .inr ⟨record, state, rest, rfl, by omega, ?_⟩
    rw [records_bytes_cons, take_append_of_le_length (by dsimp only; omega)]

theorem Cut.starts {count : Nat} (hcut : Cut written count before after) :
    recordsBytes before <+: (recordsBytes written).take count := by
  rcases hcut.take with htake | ⟨record, state, rest, -, -, htake⟩
  · rw [htake]
  · rw [htake]
    exact prefix_append ..

theorem Cut.replay {count : Nat} (hcut : Cut written count before after)
    (hchain : Chain latest written) (hstart : start.latest = latest) (hsmall : Small before) :
    replay ((recordsBytes written).take count) start = .ok (start.after before) ∨
      (¬ Small written ∧ ∃ error, replay ((recordsBytes written).take count) start =
        .error error) := by
  rw [hcut.split, chain_append] at hchain
  rcases hcut.take with htake | ⟨record, state, rest, rfl, hless, htake⟩
  · have hreplay := replay_chain hchain.1 hsmall hstart []
    rw [append_nil, replay_nil] at hreplay
    exact .inl (htake ▸ hreplay)
  · rw [htake, replay_chain hchain.1 hsmall hstart]
    rcases replay_torn hchain.2.1 hless (start.after before) with hskipped | ⟨hlarge, hrefused⟩
    · exact .inl hskipped
    · refine .inr ⟨fun hall => ?_, hrefused⟩
      have hitem := hall (record, state) (by rw [hcut.split]; simp)
      exact absurd hlarge (not_lt.mpr hitem)

end Chain

end RaftJournal

end DistributedKV
