import DistributedKV.Raft.Journal.StateRoundTrip

/-!
# Payloads that were not written

A reader of a payload yields the same on more bytes, and nothing on fewer (`Stable`,
`Takes.not_part`). So a payload that was extended is refused, and one that was cut as well, unless
it is that of a whole state and was cut where its entries end. An image is not a delta, and a delta
is not an image.
-/

namespace DistributedKV

open ByteReader List

namespace RaftJournal

/-! ## What comes behind -/

theorem stable_read_optional {α : Type} (flagTruncated flagInvalid sizeInvalid : String)
    {decode : Nat → Reader α} (hdecode : ∀ size, Stable (decode size)) :
    Stable (readOptional flagTruncated flagInvalid sizeInvalid decode) := by
  refine Stable.room (fun size more h => by omega) ((Stable.word 1).bind fun present => ?_)
  refine Stable.ite (Stable.pure _) (Stable.room (fun size more h => by omega) ?_)
  refine (Stable.word 4).bind fun encodedSize => Stable.room (fun size more h => by omega) ?_
  exact (hdecode encodedSize).bind fun value => Stable.pure _

theorem stable_read_optional_configuration : Stable readOptionalConfiguration :=
  stable_read_optional _ _ _ fun _ => stable_decode_cluster_configuration

theorem stable_read_optional_membership_operation : Stable readOptionalMembershipOperation := by
  refine stable_read_optional _ _ _ fun encodedSize => ?_
  intro input value rest hread more
  rw [remaining_bind] at hread ⊢
  obtain ⟨operation, between, hoperation, hread⟩ := bind_eq_ok.mp hread
  rw [bind_ok (stable_decode_membership_operation _ _ _ hoperation more)]
  rw [remaining_bind] at hread ⊢
  split at hread
  · cases hread
  rename_i hsize
  cases hread
  rw [if_neg (by simp only [length_append]; omega)]
  rfl

theorem stable_read_extension_fields : Stable readExtensionFields := by
  refine Stable.room (fun size more h => by omega) ((Stable.word 4).bind fun version => ?_)
  refine Stable.ite (Stable.refuse _) (stable_read_optional_configuration.bind fun cluster =>
    stable_read_optional_configuration.bind fun joint => ?_)
  refine Stable.ite (Stable.pure _) (stable_read_optional_membership_operation.bind fun active =>
    stable_read_optional_membership_operation.bind fun completed => .pure _)

theorem stable_read_entry (truncated invalid : String) : Stable (readEntry truncated invalid) := by
  refine Stable.room (fun size more h => by omega) ((Stable.word 8).bind fun index =>
    (Stable.word 8).bind fun term => (Stable.word 1).bind fun code =>
      (Stable.word 4).bind fun commandSize => ?_)
  exact Stable.room (fun size more h => by omega)
    ((Stable.bytes commandSize).bind fun command => Stable.pure _)

theorem stable_read_state_entries (count : Nat) : Stable (readStateEntries count) := by
  induction count with
  | zero => exact .pure _
  | succ count ih =>
    exact (stable_read_entry _ _).bind fun entry => ih.bind fun rest => .pure _

theorem stable_read_state_fields : Stable readStateFields := by
  refine (Stable.word 8).bind fun currentTerm => (Stable.word 1).bind fun hasVote =>
    (Stable.word 8).bind fun votedFor => Stable.ite (Stable.refuse _) ?_
  refine (Stable.word 8).bind fun commitIndex => (Stable.word 4).bind fun count =>
    Stable.ite (Stable.refuse _) ?_
  exact (stable_read_state_entries count).bind fun stored => Stable.pure _

theorem stable_read_delta_entries (base offset count : Nat) :
    Stable (readDeltaEntries base offset count) := by
  induction count generalizing offset with
  | zero => exact .pure _
  | succ count ih =>
    refine (stable_read_entry _ _).bind fun stored => ?_
    split
    · exact .refuse _
    · exact (stable_refuse_invalid _).bind fun _ => (ih _).bind fun rest => Stable.pure _

theorem stable_read_delta_fields (latest : RaftPersistentState) :
    Stable (readDeltaFields latest) := by
  refine (Stable.word 8).bind fun currentTerm => (Stable.word 1).bind fun hasVote =>
    (Stable.word 8).bind fun votedFor => (Stable.word 8).bind fun commitIndex =>
      (Stable.word 8).bind fun truncateIndex => (Stable.word 4).bind fun appendCount => ?_
  refine Stable.ite (Stable.refuse _) ((stable_refuse_invalid _).bind fun _ => ?_)
  refine Stable.ite (Stable.refuse _) ?_
  exact (stable_read_delta_entries _ _ _).bind fun suffix => Stable.pure _

/-! ## Payloads of the wrong length -/

theorem decode_state_eq_ok {input : Bytes} {state : RaftPersistentState}
    (hdecode : decodeState input = .ok state) :
    ∃ rest, readState input = .ok (state, rest) := by
  rw [decodeState] at hdecode
  split_ifs at hdecode
  cases hread : readState input with
  | error error =>
    rw [hread] at hdecode
    cases hdecode
  | ok outcome =>
    rw [hread] at hdecode
    cases hdecode
    exact ⟨outcome.2, rfl⟩

theorem decode_delta_eq_ok {input : Bytes} {latest state : RaftPersistentState}
    (hdecode : decodeDelta input latest = .ok state) :
    ∃ rest, readDelta latest input = .ok (state, rest) := by
  rw [decodeDelta] at hdecode
  split_ifs at hdecode
  cases hread : readDelta latest input with
  | error error =>
    rw [hread] at hdecode
    cases hdecode
  | ok outcome =>
    rw [hread] at hdecode
    cases hdecode
    exact ⟨outcome.2, rfl⟩

section Payload

variable {previous state decoded : RaftPersistentState} {payload body extensions more : Bytes}

section Decoding

variable (hfits : Fits state) (himage : StateImage state payload body extensions)
include hfits himage

theorem decode_state_extended (hmore : more ≠ []) :
    decodeState (payload ++ more) ≠ .ok decoded := by
  intro hdecode
  obtain ⟨rest, hread⟩ := decode_state_eq_ok hdecode
  have hextensions := takes_extension_fields himage.extended
  have hlong := append_state_extensions_length himage.extended
  have hrefused : readStateExtensions (extensions ++ more) =
      .error (.refused "Raft state image has trailing bytes") := by
    rw [readStateExtensions, remaining_bind, if_neg (by rw [length_append]; omega),
      bind_ok (hextensions more), remaining_bind,
      if_pos fun h => hmore (length_eq_zero_iff.mp h)]
    rfl
  rw [himage.bytes, append_assoc, himage.read hfits] at hread
  obtain ⟨value, between, hvalue, -⟩ := bind_eq_ok.mp hread
  rw [hrefused] at hvalue
  cases hvalue

/-- A cut image is refused, unless cut where the entries end. -/
theorem decode_state_cut {count : Nat} (hcount : count < payload.length)
    (hdecode : decodeState (payload.take count) = .ok decoded) :
    count + extensions.length = payload.length := by
  obtain ⟨rest, hread⟩ := decode_state_eq_ok hdecode
  rw [himage.bytes] at hread hcount ⊢
  rw [length_append] at hcount ⊢
  rcases Nat.lt_or_ge count (stateFields state body).length with hless | hreached
  · -- cut before the end of the entries
    rw [take_append_of_le_length hless.le] at hread
    obtain ⟨fields, between, hfields, -⟩ := bind_eq_ok.mp hread
    exact absurd hfields ((himage.takes hfits).not_part stable_read_state_fields hless)
  · rw [take_append, take_of_length_le hreached, himage.read hfits] at hread
    obtain ⟨value, between, hvalue, -⟩ := bind_eq_ok.mp hread
    by_cases hend : count = (stateFields state body).length
    · rw [hend]
    · -- cut inside the extensions
      exfalso
      rw [readStateExtensions, remaining_bind, if_neg (by rw [length_take]; omega)] at hvalue
      obtain ⟨fields, between, hfields, -⟩ := bind_eq_ok.mp hvalue
      exact absurd hfields ((takes_extension_fields himage.extended).not_part
        stable_read_extension_fields (by omega))

theorem decode_state_without_extensions :
    decodeState (stateFields state body) = .ok (withExtensions state {}) := by
  have hread := himage.read hfits []
  have hlong : ¬ (stateFields state body).length < 29 := by
    simp only [stateFields, appendMetadata, append64, append32, length_append,
      length_big_endian, length_cons, length_nil]
    omega
  have hnothing : readStateExtensions [] = .ok ({}, []) := rfl
  rw [append_nil, bind_ok hnothing] at hread
  rw [decodeState, if_neg hlong, hread]
  rfl

end Decoding

theorem decode_delta_extended (hfits : Fits state) (hsame : SameExtensions previous state)
    (himage : DeltaImage previous state payload body) (hmore : more ≠ []) :
    decodeDelta (payload ++ more) previous ≠ .ok decoded := by
  intro hdecode
  obtain ⟨rest, hread⟩ := decode_delta_eq_ok hdecode
  rw [himage.read hfits hsame, if_pos fun h => hmore (length_eq_zero_iff.mp h)] at hread
  cases hread

theorem decode_delta_cut (hfits : Fits state) (hsame : SameExtensions previous state)
    (himage : DeltaImage previous state payload body) {count : Nat}
    (hcount : count < payload.length) :
    decodeDelta (payload.take count) previous ≠ .ok decoded := by
  intro hdecode
  obtain ⟨rest, hread⟩ := decode_delta_eq_ok hdecode
  obtain ⟨fields, between, hfields, -⟩ := bind_eq_ok.mp hread
  exact absurd hfields ((himage.takes hfits hsame).not_part (stable_read_delta_fields _) hcount)

/-! ## Payloads of the wrong kind -/

theorem read_metadata {β : Type} (hfits : Fits state) (next : Nat → Nat → Nat → Nat → Reader β)
    (rest : Bytes) :
    (do let currentTerm ← takeWord 8
        let hasVote ← takeWord 1
        let votedFor ← takeWord 8
        let commitIndex ← takeWord 8
        next currentTerm hasVote votedFor commitIndex) (appendMetadata state ++ rest) =
      next state.currentTerm (if state.votedFor.isSome then (1 : UInt8) else 0).toNat
        (state.votedFor.getD 0).toNat state.commitIndex rest := by
  rw [metadata_append, append64, bind_ok (Takes.word_of_lt (by simpa using hfits.term) _),
    bind_ok (Takes.byte _ _), append64, bind_ok (Takes.word_of_lt (vote_lt state) _), append64,
    bind_ok (Takes.word_of_lt (by simpa using hfits.commit) _)]

/-- An image is not a delta: it shares too many entries. -/
theorem decode_delta_of_state (hfits : Fits state)
    (himage : StateImage state payload body extensions) (latest : RaftPersistentState) :
    decodeDelta payload latest ≠ .ok decoded := by
  intro hdecode
  obtain ⟨rest, hread⟩ := decode_delta_eq_ok hdecode
  obtain ⟨fields, between, hfields, -⟩ := bind_eq_ok.mp hread
  rw [readDeltaFields, himage.bytes, stateFields, append_assoc, read_metadata hfits] at hfields
  obtain ⟨truncateIndex, afterTruncate, htruncate, hfields⟩ := bind_eq_ok.mp hfields
  obtain ⟨appendCount, afterCount, -, hfields⟩ := bind_eq_ok.mp hfields
  have hlarge : maximumEntryCount < truncateIndex := by
    obtain ⟨digits, afterDigits, hdigits, hvalue⟩ := bind_eq_ok.mp htruncate
    cases hvalue
    rw [frontBytes] at hdigits
    split_ifs at hdigits with hshort
    cases hdigits
    have hcount := himage.count
    have hfour : (append32 state.entries.length).length = 4 := length_big_endian 4 _
    simp only [maximumEntryCount] at hcount ⊢
    rw [append_assoc, take_append, take_of_length_le (by omega), hfour,
      from_big_endian_append, append32, from_big_endian_big_endian, length_take]
    rw [append_assoc, length_append, hfour] at hshort
    rw [min_eq_left (by omega), Nat.mod_eq_of_lt (by omega)]
    omega
  generalize (if state.votedFor.isSome then (1 : UInt8) else 0).toNat = hasVote at hfields
  split at hfields
  · cases hfields
  obtain ⟨_, afterCheck, -, hfields⟩ := bind_eq_ok.mp hfields
  rw [if_pos (.inr (.inr (.inl hlarge)))] at hfields
  cases hfields

/-- A delta is not an image: its entry count is zero. -/
theorem decode_state_of_delta (hfits : Fits state)
    (himage : DeltaImage previous state payload body) : decodeState payload ≠ .ok decoded := by
  intro hdecode
  obtain ⟨rest, hread⟩ := decode_state_eq_ok hdecode
  obtain ⟨fields, between, hfields, -⟩ := bind_eq_ok.mp hread
  obtain ⟨hvote, -⟩ := vote_of_append state.votedFor
  have hcommon : commonPrefix previous.entries state.entries < 256 ^ 4 := by
    have := (common_prefix_le previous.entries state.entries).2
    have := himage.count
    simp only [maximumEntryCount] at this
    omega
  have hsplit : bigEndian 8 (commonPrefix previous.entries state.entries) =
      bigEndian 4 0 ++ bigEndian 4 (commonPrefix previous.entries state.entries) := by
    rw [big_endian_add 4 4, Nat.div_eq_of_lt hcommon]
  rw [readStateFields, himage.bytes, metadata_append, append64,
    bind_ok (Takes.word_of_lt (by simpa using hfits.term) _), bind_ok (Takes.byte _ _), append64,
    bind_ok (Takes.word_of_lt (vote_lt state) _), if_neg hvote, append64,
    bind_ok (Takes.word_of_lt (by simpa using hfits.commit) _), append64, hsplit,
    append_assoc, bind_ok (Takes.word 4 0 _), if_pos (.inl rfl)] at hfields
  cases hfields

end Payload

end RaftJournal

end DistributedKV
