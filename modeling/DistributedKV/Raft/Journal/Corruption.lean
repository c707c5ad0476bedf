import DistributedKV.Raft.Journal.Replay
import DistributedKV.Raft.Journal.WrongPayload

/-!
# Damaged journals

One byte of a journal is changed. The magic, the checksum and the payload of a record are
protected: the two kinds of payload do not pass for each other, and a checksum tells payloads that
differ in one byte apart. The length of a record is not. When it is changed to one that reaches
behind the end of the file, the record is taken for incomplete and cut off, although it was written
completely; when it is changed to one that ends where the entries of a whole state end, the rest of
the record is cut off in the same way if the checksum happens to agree. In all other cases the load
fails (`corruption_iff`).
-/

namespace DistributedKV

open ByteReader RaftJournal List

namespace RaftJournal

/-! ## Damaged fields -/

theorem length_append32 (value : Nat) : (append32 value).length = 4 := length_big_endian 4 value

/-- One round of the loop on the four fields of a record. -/
theorem replay_fields {magic size checksum : Bytes} (hmagic : magic.length = 4)
    (hsize : size.length = 4) (hchecksum : checksum.length = 4) (rest : Bytes) (start : Replay) :
    replay (magic ++ (size ++ (checksum ++ rest))) start =
      match RecordKind.ofMagic magic with
      | none => .error (.refused "Raft journal record magic is invalid")
      | some kind =>
        if fromBigEndian size = 0 ∨ maximumPayloadSize < fromBigEndian size then
          .error (.refused "Raft journal record length is invalid")
        else if rest.length < fromBigEndian size then .ok start
        else if (crc32c (rest.take (fromBigEndian size))).toNat ≠ fromBigEndian checksum then
          .error (.refused "Raft journal checksum mismatch")
        else
          match kind.apply (rest.take (fromBigEndian size)) start.latest with
          | .error error => .error error
          | .ok latest =>
            replay (rest.drop (fromBigEndian size))
              (start.next kind (fromBigEndian size) latest) := by
  have hlength : (magic ++ (size ++ (checksum ++ rest))).length =
      recordHeaderSize + rest.length := by
    simp only [length_append, recordHeaderSize]
    omega
  have hfirst : (magic ++ (size ++ (checksum ++ rest))).take 4 = magic := take_left' hmagic
  have hsecond : wordAt 4 4 (magic ++ (size ++ (checksum ++ rest))) = fromBigEndian size := by
    rw [wordAt, drop_left' hmagic, take_left' hsize]
  have hthird : wordAt 8 4 (magic ++ (size ++ (checksum ++ rest))) = fromBigEndian checksum := by
    rw [wordAt, ← append_assoc, drop_left' (by rw [length_append]; omega),
      take_left' hchecksum]
  have hrest : (magic ++ (size ++ (checksum ++ rest))).drop recordHeaderSize = rest := by
    have hheader : (magic ++ (size ++ checksum)).length = recordHeaderSize := by
      simp only [length_append, recordHeaderSize]
      omega
    rw [← append_assoc size, ← append_assoc magic, drop_left' hheader]
  rw [replay_of_header (by omega), hfirst]
  cases RecordKind.ofMagic magic with
  | none => rfl
  | some kind =>
    dsimp only
    rw [hsecond, hthird, hlength, ← drop_drop, hrest]
    exact if_congr Iff.rfl rfl (if_congr Nat.add_lt_add_iff_left rfl rfl)

section Damage

variable {latest state : RaftPersistentState} {record : JournalRecord} {start : Replay}

theorem RecordOf.other_kind (hrecord : RecordOf latest record state) {kind : RecordKind}
    (hkind : kind ≠ record.kind) (other decoded : RaftPersistentState) :
    kind.apply record.payload other ≠ .ok decoded := by
  cases hrecord with
  | full hfits hencode =>
    obtain ⟨body, extensions, himage⟩ := encode_state_ok hfits hencode
    cases kind with
    | full => exact absurd rfl hkind
    | delta => exact decode_delta_of_state hfits himage other
  | delta hfits hsame hencode =>
    obtain ⟨body, himage⟩ := encode_delta_ok hfits hencode
    cases kind with
    | full => exact decode_state_of_delta hfits himage
    | delta => exact absurd rfl hkind

theorem RecordOf.size_field (hrecord : RecordOf latest record state) :
    fromBigEndian (append32 record.payload.length) = record.payload.length := by
  rw [append32, from_big_endian_big_endian, Nat.mod_eq_of_lt hrecord.length.2]

theorem checksum_field (payload : Bytes) :
    fromBigEndian (append32 (crc32c payload).toNat) = (crc32c payload).toNat := by
  rw [append32, from_big_endian_big_endian]
  exact Nat.mod_eq_of_lt (crc32c payload).toNat_lt

/-- A changed magic is refused. -/
theorem replay_damaged_magic (hrecord : RecordOf latest record state) {magic : Bytes}
    (hlength : magic.length = 4) (hchanged : magic ≠ record.kind.magic) (tail : Bytes)
    (start : Replay) :
    ∃ error, replay (magic ++ (append32 record.payload.length ++
      (append32 (crc32c record.payload).toNat ++ (record.payload ++ tail)))) start =
        .error error := by
  rw [replay_fields hlength (length_append32 _) (length_append32 _), hrecord.size_field,
    take_left]
  cases hkind : RecordKind.ofMagic magic with
  | none => exact ⟨_, rfl⟩
  | some kind =>
    have hother : kind ≠ record.kind := by
      rintro rfl
      rw [RecordKind.ofMagic] at hkind
      split_ifs at hkind with hfull hdelta
      · exact hchanged (by rw [hfull, ← Option.some.inj hkind])
      · exact hchanged (by rw [hdelta, ← Option.some.inj hkind])
    dsimp only
    split_ifs with hsize hshort hmismatch
    · exact ⟨_, rfl⟩
    · rw [length_append] at hshort
      omega
    · exact ⟨_, rfl⟩
    · cases happly : kind.apply record.payload start.latest with
      | error error => exact ⟨error, rfl⟩
      | ok decoded => exact absurd happly (hrecord.other_kind hother start.latest decoded)

/-- A changed checksum is refused. -/
theorem replay_damaged_checksum (hrecord : RecordOf latest record state) {checksum : Bytes}
    (hlength : checksum.length = 4)
    (hchanged : checksum ≠ append32 (crc32c record.payload).toNat) (tail : Bytes)
    (start : Replay) :
    ∃ error, replay (record.kind.magic ++ (append32 record.payload.length ++
      (checksum ++ (record.payload ++ tail)))) start = .error error := by
  have hmismatch : (crc32c record.payload).toNat ≠ fromBigEndian checksum := by
    intro hsame
    refine hchanged (from_big_endian_injective (hlength.trans (length_append32 _).symm) ?_)
    rw [← hsame, checksum_field]
  rw [replay_fields (length_magic _) (length_append32 _) hlength, hrecord.size_field,
    take_left, of_magic_magic]
  dsimp only
  split_ifs with hsize hshort
  · exact ⟨_, rfl⟩
  · rw [length_append] at hshort
    omega
  · exact ⟨_, rfl⟩

/-- A payload with a changed byte is refused. -/
theorem replay_damaged_payload (hrecord : RecordOf latest record state) {position : Nat}
    (hposition : position < record.payload.length) {value : UInt8}
    (hchanged : record.payload[position]? ≠ some value) (tail : Bytes) (start : Replay) :
    ∃ error, replay (record.kind.magic ++ (append32 record.payload.length ++
      (append32 (crc32c record.payload).toNat ++ (record.payload.set position value ++ tail))))
        start = .error error := by
  have hmismatch : crc32c (record.payload.set position value) ≠ crc32c record.payload := by
    intro hsame
    rw [set_eq_take_append_cons_drop, if_pos hposition] at hsame
    have hpayload : record.payload = record.payload.take position ++
        record.payload[position] :: record.payload.drop (position + 1) := by
      rw [cons_getElem_drop_succ, take_append_drop]
    have hne : value ≠ record.payload[position] := by
      intro heq
      exact hchanged (by rw [getElem?_eq_getElem hposition, heq])
    have hhighest : (0x82f63b78 : UInt32).toBitVec.getLsbD 31 = true := by decide
    refine Crc.checksum_ne_of_byte hhighest _ _ hne (hsame.trans ?_)
    rw [← hpayload]
    rfl
  have hword : (crc32c (record.payload.set position value)).toNat ≠
      fromBigEndian (append32 (crc32c record.payload).toNat) := by
    rw [checksum_field]
    exact fun hsame => hmismatch (UInt32.toNat_inj.mp hsame)
  have htake : (record.payload.set position value ++ tail).take record.payload.length =
      record.payload.set position value := take_left' (length_set ..)
  rw [replay_fields (length_magic _) (length_append32 _) (length_append32 _),
    hrecord.size_field, htake, of_magic_magic]
  dsimp only
  split_ifs with hsize hshort
  · exact ⟨_, rfl⟩
  · rw [length_append, length_set] at hshort
    omega
  · exact ⟨_, rfl⟩

end Damage

/-! ## A damaged length -/

/-- A state without configurations and operations. -/
def NoExtensions (state : RaftPersistentState) : Prop :=
  state.clusterConfig = none ∧ state.jointConfig = none ∧
    state.activeMembershipOperation = none ∧ state.completedMembershipOperation = none

instance (state : RaftPersistentState) : Decidable (NoExtensions state) :=
  inferInstanceAs (Decidable (_ ∧ _))

/-- Only empty extensions are too short for a header. -/
theorem append_state_extensions_cases {state : RaftPersistentState} {bytes : Bytes}
    (hbytes : appendStateExtensions state = .ok bytes) :
    bytes.take 4 = append32 stateExtensionVersion ∧
      ((NoExtensions state ∧ bytes.length = 8) ∨
        (¬ NoExtensions state ∧ recordHeaderSize ≤ bytes.length)) := by
  obtain ⟨cluster, joint, active, completed, hcluster, hjoint, hactive, hcompleted, rfl⟩ :=
    append_state_extensions_ok hbytes
  have hcluster := append_optional_cases (fun _ _ => encode_cluster_configuration_length) hcluster
  have hjoint := append_optional_cases (fun _ _ => encode_cluster_configuration_length) hjoint
  have hactive := append_optional_cases (fun _ _ => encode_membership_operation_length) hactive
  have hcompleted :=
    append_optional_cases (fun _ _ => encode_membership_operation_length) hcompleted
  refine ⟨take_left' (length_big_endian 4 _), ?_⟩
  simp only [append32, length_append, length_big_endian, recordHeaderSize]
  by_cases hnone : NoExtensions state
  · have := (hcluster.resolve_right fun h => h.1 hnone.1).2
    have := (hjoint.resolve_right fun h => h.1 hnone.2.1).2
    have := (hactive.resolve_right fun h => h.1 hnone.2.2.1).2
    have := (hcompleted.resolve_right fun h => h.1 hnone.2.2.2).2
    exact .inl ⟨hnone, by omega⟩
  · refine .inr ⟨hnone, ?_⟩
    by_contra hshort
    exact hnone ⟨(hcluster.resolve_right fun h => by omega).1,
      (hjoint.resolve_right fun h => by omega).1, (hactive.resolve_right fun h => by omega).1,
      (hcompleted.resolve_right fun h => by omega).1⟩

/-- A length that a load does not notice. It reaches behind the end of the file, or it ends where
the entries of a last state without extensions end, and the checksum of what is left is the same. -/
def Misreads (record : JournalRecord) (state : RaftPersistentState) (tail : Bytes) (size : Nat) :
    Prop :=
  0 < size ∧ size ≤ maximumPayloadSize ∧
    (record.payload.length + tail.length < size ∨
      (tail = [] ∧ record.kind = .full ∧ NoExtensions state ∧
        size + 8 = record.payload.length ∧
        crc32c (record.payload.take size) = crc32c record.payload))

theorem replay_extensions {state : RaftPersistentState} {extensions : Bytes}
    (hextensions : appendStateExtensions state = .ok extensions) (tail : Bytes) (start : Replay)
    (hlong : recordHeaderSize ≤ (extensions ++ tail).length) :
    ∃ error, replay (extensions ++ tail) start = .error error := by
  have hfour := (append_state_extensions_length hextensions).1
  have htake : (extensions ++ tail).take 4 = append32 stateExtensionVersion := by
    rw [take_append_of_le_length (by omega),
      (append_state_extensions_cases hextensions).1]
  have hnone : RecordKind.ofMagic (append32 stateExtensionVersion) = none := by decide
  rw [replay_of_header hlong, htake, hnone]
  exact ⟨_, rfl⟩

section Length

variable {latest state : RaftPersistentState} {record : JournalRecord} {start : Replay}

/-- A change that is not noticed cuts the record off. -/
theorem replay_misread (hrecord : RecordOf latest record state) {size : Bytes}
    (hlength : size.length = 4) {tail : Bytes} (start : Replay)
    (hmisreads : Misreads record state tail (fromBigEndian size)) :
    ∃ result, replay (record.kind.magic ++ (size ++ (append32 (crc32c record.payload).toNat ++
        (record.payload ++ tail)))) start = .ok result ∧
      result.offset < start.offset + (record.bytes ++ tail).length := by
  obtain ⟨hpositive, hsmall, hcase⟩ := hmisreads
  rw [replay_fields (length_magic _) hlength (length_append32 _), of_magic_magic]
  dsimp only
  rw [if_neg (by omega), length_append]
  rcases hcase with hbehind | ⟨rfl, hkind, hnone, hend, hsame⟩
  · rw [if_pos hbehind]
    refine ⟨start, rfl, ?_⟩
    rw [length_append, length_bytes, recordHeaderSize]
    omega
  · cases hrecord with
    | delta hfits hsame hencode => cases hkind
    | full hfits hencode =>
      rename_i payload
      dsimp only at hend hsame ⊢
      obtain ⟨body, extensions, himage⟩ := encode_state_ok hfits hencode
      have height : extensions.length = 8 := by
        rcases (append_state_extensions_cases himage.extended).2 with ⟨-, h⟩ | ⟨h, -⟩
        · exact h
        · exact absurd hnone h
      have hpayload := congrArg length himage.bytes
      rw [length_append] at hpayload
      have hfields : payload.take (fromBigEndian size) = stateFields state body := by
        rw [himage.bytes]
        exact take_left' (by omega)
      have hrest : payload.drop (fromBigEndian size) = extensions := by
        rw [himage.bytes]
        exact drop_left' (by omega)
      rw [append_nil, if_neg (by rw [length_nil]; omega), hsame, checksum_field,
        if_neg (by simp), hfields, hrest]
      have happly : RecordKind.full.apply (stateFields state body) start.latest =
          .ok (withExtensions state {}) := decode_state_without_extensions hfits himage
      rw [happly]
      dsimp only
      rw [replay_of_short (by rw [height]; decide)]
      refine ⟨_, rfl, ?_⟩
      rw [append_nil, length_bytes]
      dsimp only [Replay.next]
      omega

/-- Every other change of the length is refused. -/
theorem replay_damaged_size (hrecord : RecordOf latest record state)
    (hstart : start.latest = latest) {size : Bytes} (hlength : size.length = 4)
    (hchanged : size ≠ append32 record.payload.length) {tail : Bytes}
    (htail : tail = [] ∨ recordHeaderSize ≤ tail.length)
    (hmisreads : ¬ Misreads record state tail (fromBigEndian size)) :
    ∃ error, replay (record.kind.magic ++ (size ++ (append32 (crc32c record.payload).toNat ++
      (record.payload ++ tail)))) start = .error error := by
  have hother : fromBigEndian size ≠ record.payload.length := by
    intro hsame
    refine hchanged (from_big_endian_injective (hlength.trans (length_append32 _).symm) ?_)
    rw [hsame, hrecord.size_field]
  rw [replay_fields (length_magic _) hlength (length_append32 _), of_magic_magic]
  dsimp only
  split_ifs with hsize hbehind hmismatch
  · exact ⟨_, rfl⟩
  · rw [length_append] at hbehind
    exact absurd ⟨by omega, by omega, .inl hbehind⟩ hmisreads
  · exact ⟨_, rfl⟩
  rw [length_append, not_lt] at hbehind
  rw [not_not, checksum_field, UInt32.toNat_inj] at hmismatch
  rcases Nat.lt_or_ge (fromBigEndian size) record.payload.length with hcut | hlonger
  · rw [take_append_of_le_length hcut.le] at hmismatch ⊢
    rw [drop_append_of_le_length hcut.le]
    cases happly : record.kind.apply (record.payload.take (fromBigEndian size)) start.latest with
    | error error => exact ⟨error, rfl⟩
    | ok decoded =>
      -- only the end of the entries of a whole state is left
      cases hrecord with
      | delta hfits hsame hencode =>
        obtain ⟨body, himage⟩ := encode_delta_ok hfits hencode
        rw [hstart] at happly
        exact absurd happly (decode_delta_cut hfits hsame himage hcut)
      | full hfits hencode =>
        rename_i payload
        obtain ⟨body, extensions, himage⟩ := encode_state_ok hfits hencode
        have hend := decode_state_cut hfits himage hcut happly
        have hpayload := congrArg length himage.bytes
        rw [length_append] at hpayload
        have hrest : payload.drop (fromBigEndian size) = extensions := by
          rw [himage.bytes]
          exact drop_left' (by omega)
        dsimp only
        rw [hrest]
        refine replay_extensions himage.extended tail _ ?_
        rw [length_append]
        rcases htail with rfl | htail
        · rcases (append_state_extensions_cases himage.extended).2 with
            ⟨hnone, height⟩ | ⟨-, hlong⟩
          · refine absurd ⟨by omega, by omega, .inr ⟨rfl, rfl, hnone, ?_, hmismatch⟩⟩ hmisreads
            dsimp only
            omega
          · omega
        · omega
  · -- the payload goes on with bytes of the next record
    have hmore : tail.take (fromBigEndian size - record.payload.length) ≠ [] := by
      intro hnothing
      have hnone := congrArg length hnothing
      rw [length_take, length_nil] at hnone
      omega
    rw [take_append, take_of_length_le hlonger]
    cases happly : record.kind.apply (record.payload ++
        tail.take (fromBigEndian size - record.payload.length)) start.latest with
    | error error => exact ⟨error, rfl⟩
    | ok decoded =>
      cases hrecord with
      | full hfits hencode =>
        obtain ⟨body, extensions, himage⟩ := encode_state_ok hfits hencode
        exact absurd happly (decode_state_extended hfits himage hmore)
      | delta hfits hsame hencode =>
        obtain ⟨body, himage⟩ := encode_delta_ok hfits hencode
        rw [hstart] at happly
        exact absurd happly (decode_delta_extended hfits hsame himage hmore)

end Length

end RaftJournal

/-! ## One changed byte -/

namespace FileRaftPersistence

/-- The journal after one byte of its file was changed, opened again. -/
def damaged (journal : FileRaftPersistence) (position : Nat) (value : UInt8) :
    FileRaftPersistence :=
  { journal.reopened with file := journal.file.set position value }

end FileRaftPersistence

namespace RaftJournal

theorem set_ne_self {bytes : Bytes} {position : Nat} {value : UInt8}
    (hposition : position < bytes.length) (hchanged : bytes[position]? ≠ some value) :
    bytes.set position value ≠ bytes := by
  intro hsame
  refine hchanged ?_
  rw [← hsame, getElem?_set_self hposition]

section Byte

variable {latest state : RaftPersistentState} {record : JournalRecord} {start : Replay}
  {position : Nat} {value : UInt8} {tail : Bytes}

theorem bytes_eq (record : JournalRecord) :
    record.bytes = record.kind.magic ++ (append32 record.payload.length ++
      (append32 (crc32c record.payload).toNat ++ record.payload)) := by
  simp only [JournalRecord.bytes, append_assoc]

theorem set_size (record : JournalRecord) (hlow : 4 ≤ position) (hhigh : position < 8)
    (value : UInt8) :
    record.bytes.set position value = record.kind.magic ++
      ((append32 record.payload.length).set (position - 4) value ++
        (append32 (crc32c record.payload).toNat ++ record.payload)) := by
  rw [bytes_eq, set_append, if_neg (by rw [length_magic]; omega), length_magic,
    set_append, if_pos (by rw [length_append32]; omega)]

/-- A changed byte is refused, unless it belongs to the length. -/
theorem replay_damaged (hrecord : RecordOf latest record state) (hstart : start.latest = latest)
    (hposition : position < record.bytes.length) (hchanged : record.bytes[position]? ≠ some value)
    (htail : tail = [] ∨ recordHeaderSize ≤ tail.length) :
    (∃ error, replay (record.bytes.set position value ++ tail) start = .error error) ∨
      (4 ≤ position ∧ position < 8 ∧ Misreads record state tail
        (fromBigEndian ((append32 record.payload.length).set (position - 4) value))) := by
  rw [bytes_eq] at hchanged
  rcases Nat.lt_or_ge position 4 with hmagic | hmagic
  · rw [getElem?_append_left (by rw [length_magic]; exact hmagic)] at hchanged
    have hset := set_ne_self (by rw [length_magic]; exact hmagic) hchanged
    rw [bytes_eq, set_append, if_pos (by rw [length_magic]; exact hmagic)]
    simp only [append_assoc]
    exact .inl (replay_damaged_magic hrecord (by rw [length_set, length_magic]) hset tail start)
  rw [getElem?_append_right (by rw [length_magic]; exact hmagic), length_magic] at hchanged
  rcases Nat.lt_or_ge position 8 with hsize | hsize
  · rw [getElem?_append_left (by rw [length_append32]; omega)] at hchanged
    have hset := set_ne_self (by rw [length_append32]; omega) hchanged
    by_cases hmisreads : Misreads record state tail
        (fromBigEndian ((append32 record.payload.length).set (position - 4) value))
    · exact .inr ⟨hmagic, hsize, hmisreads⟩
    · rw [set_size record hmagic hsize]
      simp only [append_assoc]
      exact .inl (replay_damaged_size hrecord hstart (by rw [length_set, length_append32])
        hset htail hmisreads)
  rw [getElem?_append_right (by rw [length_append32]; omega), length_append32] at hchanged
  rw [bytes_eq, set_append, if_neg (by rw [length_magic]; omega), length_magic,
    set_append, if_neg (by rw [length_append32]; omega), length_append32, set_append,
    length_append32]
  rcases Nat.lt_or_ge position recordHeaderSize with hheader | hheader
  · have hfield : position - 4 - 4 < 4 := by
      simp only [recordHeaderSize] at hheader
      omega
    rw [getElem?_append_left (by rw [length_append32]; exact hfield)] at hchanged
    have hset := set_ne_self (by rw [length_append32]; exact hfield) hchanged
    rw [if_pos hfield]
    simp only [append_assoc]
    exact .inl (replay_damaged_checksum hrecord (by rw [length_set, length_append32]) hset tail
      start)
  · have hfield : ¬ position - 4 - 4 < 4 := by
      simp only [recordHeaderSize] at hheader
      omega
    rw [getElem?_append_right (by rw [length_append32]; omega), length_append32] at hchanged
    rw [if_neg hfield]
    simp only [append_assoc]
    refine .inl (replay_damaged_payload hrecord ?_ hchanged tail start)
    rw [length_bytes, recordHeaderSize] at hposition
    omega

end Byte

/-- The records before and behind a mark. -/
theorem marks_of_split {start : Nat} {written : Written} {earlier later : List JournalMark}
    {mark : JournalMark} (hmarks : marksOf start written = earlier ++ mark :: later) :
    ∃ before record after, written = before ++ (record, mark.state) :: after ∧
      earlier = marksOf start before ∧ mark.start = start + (recordsBytes before).length ∧
      mark.finish = mark.start + record.bytes.length ∧
      later = marksOf mark.finish after := by
  induction earlier generalizing start written with
  | nil =>
    cases written with
    | nil => cases hmarks
    | cons item rest =>
      obtain ⟨record, state⟩ := item
      cases hmarks
      exact ⟨[], record, rest, rfl, rfl, rfl, rfl, rfl⟩
  | cons first others ih =>
    cases written with
    | nil => cases hmarks
    | cons item rest =>
      obtain ⟨record, state⟩ := item
      rw [marksOf, cons_append, cons.injEq] at hmarks
      obtain ⟨hfirst, hrest⟩ := hmarks
      obtain ⟨before, found, after, rfl, hearlier, hstart, hfinish, hlater⟩ := ih hrest
      refine ⟨(record, state) :: before, found, after, rfl, ?_, ?_, hfinish, hlater⟩
      · rw [marksOf, hearlier, hfirst]
      · rw [hstart, records_bytes_cons, length_append, Nat.add_assoc]

theorem records_bytes_cases (written : Written) :
    recordsBytes written = [] ∨ recordHeaderSize ≤ (recordsBytes written).length := by
  cases written with
  | nil => exact .inl rfl
  | cons item rest =>
    right
    rw [records_bytes_cons, length_append, length_bytes]
    omega

end RaftJournal

namespace Logged

/-- After the change of one byte, a load fails, or it returns what was saved last and leaves the
file as it is. -/
def Detects (logged : Logged) (position : Nat) (value : UInt8) : Prop :=
  ∀ state journal, (logged.journal.damaged position value).load = .ok (state, journal) →
    state = lastSaved logged.marks ∧ journal.file = logged.journal.file.set position value

/-- The byte belongs to the length of a record that is reached by a load, and the new length
reaches behind the end of the file, or ends where the entries of a last state without extensions
end, with the same checksum. -/
def Misread (logged : Logged) (position : Nat) (value : UInt8) : Prop :=
  ∃ earlier mark later, logged.marks = earlier ++ mark :: later ∧
    (∀ other ∈ earlier, other.finish ≤ other.start + (recordHeaderSize + maximumPayloadSize)) ∧
    mark.start + 4 ≤ position ∧ position < mark.start + 8 ∧
    let size := wordAt (mark.start + 4) 4 (logged.journal.file.set position value)
    let payload := logged.journal.file.drop (mark.start + recordHeaderSize)
    0 < size ∧ size ≤ maximumPayloadSize ∧
      (logged.journal.file.length < mark.start + recordHeaderSize + size ∨
        (later = [] ∧ (logged.journal.file.drop mark.start).take 4 = RecordKind.full.magic ∧
          NoExtensions mark.state ∧ mark.start + recordHeaderSize + size + 8 = mark.finish ∧
          crc32c (payload.take size) = crc32c payload))

section Damaged

variable {logged : Logged} {before after : Written} {record : JournalRecord}
  {state : RaftPersistentState} {position : Nat} {value : UInt8}

section Damage

variable (hrepresents : logged.Represents (before ++ (record, state) :: after))
  (hfile : logged.journal.file ≠ [])
include hrepresents hfile

theorem Represents.file_eq :
    logged.journal.file = (fileHeader ++ recordsBytes before) ++
      (record.bytes ++ recordsBytes after) := by
  rcases hrepresents.holds.file with hheld | ⟨hempty, -, -⟩
  · rw [hheld, records_bytes_append, records_bytes_cons, append_assoc]
  · exact absurd hempty hfile

theorem Represents.set_file (hposition : position < record.bytes.length) (value : UInt8) :
    logged.journal.file.set (fileHeaderSize + (recordsBytes before).length + position) value =
      (fileHeader ++ recordsBytes before) ++
        (record.bytes.set position value ++ recordsBytes after) := by
  have hstart : (fileHeader ++ recordsBytes before).length =
      fileHeaderSize + (recordsBytes before).length := by
    rw [length_append]
    rfl
  rw [hrepresents.file_eq hfile, set_append, if_neg (by omega), hstart,
    Nat.add_sub_cancel_left, set_append, if_pos hposition]

/-- Loading replays the changed record among the others. -/
theorem Represents.load_damaged (hposition : position < record.bytes.length) (value : UInt8) :
    (logged.journal.damaged (fileHeaderSize + (recordsBytes before).length + position) value).load =
      match replay (recordsBytes before ++
        (record.bytes.set position value ++ recordsBytes after)) {} with
      | .error error => .error error
      | .ok replay => .ok (replay.latest, (logged.journal.damaged
          (fileHeaderSize + (recordsBytes before).length + position) value).loaded replay) := by
  have hset := hrepresents.set_file hfile hposition value
  have hlimits := hrepresents.holds.limits hfile
  have hheld : (logged.journal.damaged (fileHeaderSize + (recordsBytes before).length + position)
      value).Holds (recordsBytes before ++
        (record.bytes.set position value ++ recordsBytes after)) := by
    refine ⟨fun _ => hlimits, .inl ?_⟩
    rw [FileRaftPersistence.damaged]
    dsimp only
    rw [hset, append_assoc]
  rw [hheld.load hlimits]
  have hsame : fileHeader ++ (recordsBytes before ++
      (record.bytes.set position value ++ recordsBytes after)) =
        (logged.journal.damaged (fileHeaderSize + (recordsBytes before).length + position)
          value).file := by
    rw [FileRaftPersistence.damaged]
    dsimp only
    rw [hset, append_assoc]
  cases replay (recordsBytes before ++
      (record.bytes.set position value ++ recordsBytes after)) {} with
  | error error => rfl
  | ok replay => rw [hsame]

theorem Represents.word_at_size (hlow : 4 ≤ position) (hhigh : position < 8) :
    wordAt (fileHeaderSize + (recordsBytes before).length + 4) 4 (logged.journal.file.set
        (fileHeaderSize + (recordsBytes before).length + position) value) =
      fromBigEndian ((append32 record.payload.length).set (position - 4) value) := by
  have hstart : (fileHeader ++ recordsBytes before).length =
      fileHeaderSize + (recordsBytes before).length := by
    rw [length_append]
    rfl
  have hposition : position < record.bytes.length := by
    rw [length_bytes, recordHeaderSize]
    omega
  rw [hrepresents.set_file hfile hposition value, set_size record hlow hhigh, wordAt, ← hstart,
    ← drop_drop, drop_left, append_assoc, drop_left' (length_magic _),
    append_assoc, take_left' (by rw [length_set, length_append32])]

/-- Where a changed byte is not noticed, the marks say so. -/
theorem Represents.misread_iff (hrecord : RecordOf (lastOf {} before) record state)
    (hlow : 4 ≤ position) (hhigh : position < 8) {mark : JournalMark} {later : List JournalMark}
    (hstart : mark.start = fileHeaderSize + (recordsBytes before).length)
    (hfinish : mark.finish = mark.start + record.bytes.length) (hstate : mark.state = state)
    (hlater : later = marksOf mark.finish after) :
    Misreads record state (recordsBytes after)
        (fromBigEndian ((append32 record.payload.length).set (position - 4) value)) ↔
      let size := wordAt (mark.start + 4) 4
        (logged.journal.file.set (mark.start + position) value)
      let payload := logged.journal.file.drop (mark.start + recordHeaderSize)
      0 < size ∧ size ≤ maximumPayloadSize ∧
        (logged.journal.file.length < mark.start + recordHeaderSize + size ∨
          (later = [] ∧ (logged.journal.file.drop mark.start).take 4 = RecordKind.full.magic ∧
            NoExtensions mark.state ∧ mark.start + recordHeaderSize + size + 8 = mark.finish ∧
            crc32c (payload.take size) = crc32c payload)) := by
  have hheader : (fileHeader ++ recordsBytes before).length = mark.start := by
    rw [hstart, length_append]
    rfl
  have hlength : logged.journal.file.length =
      mark.start + (recordHeaderSize + record.payload.length + (recordsBytes after).length) := by
    rw [hrepresents.file_eq hfile, length_append, hheader, length_append, length_bytes]
  have hdrop : logged.journal.file.drop mark.start = record.bytes ++ recordsBytes after := by
    rw [hrepresents.file_eq hfile, drop_left' hheader]
  have hfields := starts_with_bytes hrecord.length.2 (recordsBytes after)
  have hkind : (logged.journal.file.drop mark.start).take 4 = RecordKind.full.magic ↔
      record.kind = .full := by
    rw [hdrop, hfields.magic]
    cases record.kind <;> decide
  have hnothing : later = [] ↔ recordsBytes after = [] := by
    rw [hlater]
    cases after with
    | nil => simp [marksOf, recordsBytes]
    | cons item rest =>
      have hlong := length_bytes item.1
      refine iff_of_false (cons_ne_nil _ _) fun hempty => ?_
      rw [records_bytes_cons, append_eq_nil_iff] at hempty
      rw [hempty.1, length_nil, recordHeaderSize] at hlong
      omega
  dsimp only
  rw [hstart, hrepresents.word_at_size hfile hlow hhigh, ← hstart, Misreads, hkind, hnothing, hstate,
    hfinish, length_bytes, hlength]
  refine and_congr_right fun _ => and_congr_right fun _ => or_congr ?_ ?_
  · omega
  · refine and_congr_right fun htail => and_congr_right fun _ => and_congr_right fun _ =>
      and_congr ?_ ?_
    · omega
    · have hpayload : logged.journal.file.drop (mark.start + recordHeaderSize) = record.payload := by
        have hrest := hfields.payload
        rw [← drop_drop, hdrop, htail, append_nil] at *
        rw [← hrest, take_of_length_le]
        rw [length_drop, length_bytes]
        omega
      rw [hpayload]

end Damage

end Damaged

/-- In every run, when one byte of the file is changed, a load fails or returns what was saved last
without cutting anything off, unless the byte belongs to a length and the new length is one that a
load does not notice. -/
theorem corruption_iff {run : Nat → Logged} (hrun : Run run) (k : Nat) {position : Nat}
    {value : UInt8} (hheader : fileHeaderSize ≤ position)
    (hposition : position < (run k).journal.file.length)
    (hchanged : (run k).journal.file[position]? ≠ some value) :
    (run k).Detects position value ↔ ¬ (run k).Misread position value := by
  obtain ⟨written, hrepresents⟩ := hrun.represents k
  have hfile : (run k).journal.file ≠ [] := by
    intro hempty
    rw [hempty] at hposition
    cases hposition
  constructor
  · rintro hdetects ⟨earlier, mark, later, hmarks, hsmall, hlow, hhigh, hsizes⟩
    obtain ⟨before, record, after, rfl, hearlier, hstart, hfinish, hlater⟩ :=
      marks_of_split (hrepresents.marks.symm.trans hmarks)
    obtain ⟨hchain, hrecord, -⟩ := chain_append.mp hrepresents.chain
    obtain ⟨offset, rfl⟩ : ∃ offset, position = mark.start + offset :=
      ⟨position - mark.start, by omega⟩
    have hmisreads := (hrepresents.misread_iff hfile hrecord (by omega) (by omega) hstart hfinish
      rfl hlater).mpr hsizes
    rw [hearlier] at hsmall
    have hbefore := (small_iff fileHeaderSize before).mpr hsmall
    have hoffset : offset < record.bytes.length := by
      rw [length_bytes, recordHeaderSize]
      omega
    obtain ⟨result, hreplay, hless⟩ := replay_misread hrecord
      (by rw [length_set, length_append32]) (({} : Replay).after before) hmisreads
    have hload := hrepresents.load_damaged hfile hoffset value
    have hset : record.bytes.set offset value = _ := set_size record (by omega) (by omega) value
    rw [replay_chain hchain hbefore start_latest, hset] at hload
    simp only [append_assoc] at hload
    rw [hreplay, ← hstart] at hload
    -- what is left of the file is shorter than the file
    have hleft : ((run k).journal.file.set (mark.start + offset) value).take result.offset =
        (run k).journal.file.set (mark.start + offset) value := (hdetects _ _ hload).2
    have hlengths := congrArg length hleft
    have hlength := congrArg length (hrepresents.file_eq hfile)
    have hsixteen : fileHeader.length = fileHeaderSize := rfl
    rw [after_offset] at hless
    have hbase : ({} : Replay).offset = fileHeaderSize := rfl
    rw [length_take, length_set] at hlengths
    rw [length_append, length_append] at hlength
    omega
  · intro hmisread state journal hload
    exfalso
    have hlength : (run k).journal.file.length = fileHeaderSize + (recordsBytes written).length := by
      rcases hrepresents.holds.file with hheld | ⟨hempty, -⟩
      · rw [hheld, length_append]
        rfl
      · exact absurd hempty hfile
    obtain ⟨before, after, hcut⟩ := exists_cut written (position - fileHeaderSize)
    have hwhole := hcut.whole
    cases after with
    | nil =>
      have hall := hcut.split
      rw [append_nil] at hall
      rw [hall] at hlength
      omega
    | cons item after =>
      obtain ⟨record, last⟩ := item
      have htorn := hcut.torn record last after rfl
      have hsplit := hcut.split
      subst hsplit
      obtain ⟨hchain, hrecord, -⟩ := chain_append.mp hrepresents.chain
      obtain ⟨offset, rfl⟩ : ∃ offset,
          position = fileHeaderSize + (recordsBytes before).length + offset :=
        ⟨position - (fileHeaderSize + (recordsBytes before).length), by omega⟩
      have hoffset : offset < record.bytes.length := by omega
      rw [hrepresents.load_damaged hfile hoffset] at hload
      cases hreplay : replay (recordsBytes before ++
          (record.bytes.set offset value ++ recordsBytes after)) {} with
      | error error =>
        rw [hreplay] at hload
        cases hload
      | ok result =>
        have hbefore := small_of_replay hchain start_latest hreplay
        rw [replay_chain hchain hbefore start_latest] at hreplay
        have hbyte : record.bytes[offset]? ≠ some value := by
          rw [hrepresents.file_eq hfile, getElem?_append_right, getElem?_append_left]
            at hchanged
          · rwa [length_append, show fileHeader.length = fileHeaderSize from rfl,
              Nat.add_sub_cancel_left] at hchanged
          · rw [length_append, show fileHeader.length = fileHeaderSize from rfl]
            omega
          · rw [length_append, show fileHeader.length = fileHeaderSize from rfl]
            omega
        have hreached : (({} : Replay).after before).latest = lastOf {} before :=
          after_latest _ _
        rcases replay_damaged hrecord hreached hoffset hbyte
          (records_bytes_cases after) with ⟨error, herror⟩ | ⟨hlow, hhigh, hmisreads⟩
        · rw [hreplay] at herror
          cases herror
        · refine hmisread ⟨marksOf fileHeaderSize before,
            ⟨fileHeaderSize + (recordsBytes before).length,
              fileHeaderSize + (recordsBytes before).length + record.bytes.length, last⟩,
            marksOf (fileHeaderSize + (recordsBytes before).length + record.bytes.length) after,
            ?_, (small_iff _ _).mp hbefore, by dsimp only; omega, by dsimp only; omega, ?_⟩
          · rw [hrepresents.marks, marks_of_append, marksOf]
          · exact (hrepresents.misread_iff hfile hrecord hlow hhigh rfl rfl rfl rfl).mp hmisreads

end Logged

/-! ### A length that reaches behind the end -/

/-- After a byte of the length of the last record was changed, a load returns the image before it,
and the last record is gone. -/
theorem length_misread :
    Logged.Run twoSaves ∧ (twoSaves 2).journal.file[91]? = some 0 ∧
      lastSaved (twoSaves 2).marks = secondImage ∧
      (((twoSaves 2).journal.damaged 91 1).load.toOption.map fun loaded =>
        (loaded.1, loaded.2.file.length)) = some (firstImage, 86) ∧
      (twoSaves 2).journal.file.length = 156 ∧ ¬ (twoSaves 2).Detects 91 1 := by
  have hloaded : (((twoSaves 2).journal.damaged 91 1).load.toOption.map fun loaded =>
      (loaded.1, loaded.2.file.length)) = some (firstImage, 86) := by decide +kernel
  have hsaved : lastSaved (twoSaves 2).marks = secondImage := by decide +kernel
  refine ⟨two_saves_run, by decide +kernel, hsaved, hloaded, by decide +kernel, fun hdetects => ?_⟩
  cases hload : ((twoSaves 2).journal.damaged 91 1).load with
  | error error =>
    rw [hload] at hloaded
    cases hloaded
  | ok loaded =>
    rw [hload] at hloaded
    have hfirst : loaded.1 = firstImage := congrArg Prod.fst (Option.some.inj hloaded)
    have hlast := (hdetects loaded.1 loaded.2 hload).1
    rw [hfirst, hsaved] at hlast
    exact absurd hlast (by decide)

/-- A change in the payload of the last record is detected. -/
theorem corruption_iff_payload : (twoSaves 2).Detects 120 7 := by
  refine (Logged.corruption_iff two_saves_run 2 (by decide) (by decide +kernel)
    (by decide +kernel)).mpr ?_
  rintro ⟨earlier, mark, later, hmarks, -, hlow, hhigh, -⟩
  have hmark : mark ∈ (twoSaves 2).marks := by
    rw [hmarks]
    simp
  have helsewhere : ∀ mark ∈ (twoSaves 2).marks,
      ¬ (mark.start + 4 ≤ 120 ∧ 120 < mark.start + 8) := by decide +kernel
  exact helsewhere mark hmark ⟨hlow, hhigh⟩

end DistributedKV
