import DistributedKV.Raft.ConfChangeCodec
import DistributedKV.Raft.Journal.StateCodec

/-!
# Round trip of the persistent state

What the journal writes is read back: a state by itself (`decode_encode_state`), a delta on top of
the state it starts from (`decode_encode_delta`). The pieces of both payloads are kept apart
(`StateImage`, `DeltaImage`), so that what happens to a payload that was cut or extended can be
read off them.
-/

namespace DistributedKV

open ByteReader List

namespace RaftJournal

/-! ## Entries are read back -/

/-- The words of a state fit into 64 bits, as the types of the source have it. -/
structure Fits (state : RaftPersistentState) : Prop where
  term : state.currentTerm < 2 ^ 64
  commit : state.commitIndex < 2 ^ 64
  entries : ∀ entry ∈ state.entries, entry.index < 2 ^ 64 ∧ entry.term < 2 ^ 64

/-- How an entry is stored. -/
def storedOf (entry : LogEntry) : StoredEntry :=
  { index := entry.index, term := entry.term, code := (typeCode entry.type).toNat
    command := entry.command }

@[simp] theorem entry_stored_of (entry : LogEntry) : (storedOf entry).entry = some entry := by
  obtain ⟨index, term, type, command⟩ := entry
  cases type <;> rfl

theorem map_m_entry_stored_of (entries : List LogEntry) :
    (entries.map storedOf).mapM StoredEntry.entry = some entries := by
  induction entries with
  | nil => rfl
  | cons entry rest ih => simp [ih]

variable {state previous : RaftPersistentState} {entries : List LogEntry}
  {bytes payload body output written extensions : Bytes}

theorem checked_entries_stored_of (hvalid : validateEntries entries = .ok ()) :
    checkedEntries (entries.map storedOf) = .ok entries := by
  cases entries with
  | nil => cases hvalid
  | cons boundary rest =>
    simp only [map_cons, checkedEntries, entry_stored_of, map_m_entry_stored_of, hvalid]
    rfl

/-- An entry is read back. -/
theorem takes_entry {entry : LogEntry} (hfits : entry.index < 2 ^ 64 ∧ entry.term < 2 ^ 64)
    (hcommand : entry.command.length ≤ maximumCommandSize) (truncated invalid : String) :
    Takes (readEntry truncated invalid) (appendEntry entry) (storedOf entry) := by
  have hsize : entry.command.length < 256 ^ 4 := by
    simp only [maximumCommandSize] at hcommand
    omega
  have hbytes : appendEntry entry = append64 entry.index ++ (append64 entry.term ++
      ([typeCode entry.type] ++ (append32 entry.command.length ++ entry.command))) := by
    simp only [appendEntry, append_assoc]
  rw [hbytes]
  refine Takes.room (by simp [append64, append32]; omega) ?_
  refine (Takes.word_of_lt (by simpa using hfits.1)).bind ((Takes.word_of_lt
    (by simpa using hfits.2)).bind ((Takes.byte _).bind ((Takes.word_of_lt hsize).bind ?_)))
  intro rest
  have hroom : ¬ (maximumCommandSize < entry.command.length ∨
      (entry.command ++ rest).length < entry.command.length) := by
    simp only [length_append]
    omega
  rw [remaining_bind, if_neg hroom, bind_ok (Takes.string entry.command rest)]
  rfl

/-- The entries of an image are read back. -/
theorem append_state_entries_ok
    (hfits : ∀ entry ∈ entries, entry.index < 2 ^ 64 ∧ entry.term < 2 ^ 64)
    (hwritten : appendStateEntries entries output = .ok written) :
    ∃ body, written = output ++ body ∧
      Takes (readStateEntries entries.length) body (entries.map storedOf) ∧
      (entries ≠ [] → written.length ≤ maximumPayloadSize) := by
  induction entries generalizing output with
  | nil =>
    cases hwritten
    exact ⟨[], (append_nil _).symm, .pure _, fun h => absurd rfl h⟩
  | cons entry rest ih =>
    rw [appendStateEntries] at hwritten
    split_ifs at hwritten with hcommand hlong
    obtain ⟨body, rfl, hbody, hshort⟩ := ih (fun other hother => hfits other (by simp [hother]))
      hwritten
    refine ⟨appendEntry entry ++ body, append_assoc .., ?_, fun _ => ?_⟩
    · have hentry := takes_entry (hfits entry (by simp)) (not_lt.mp (not_or.mp hcommand).1)
        "Raft entry metadata is truncated" "Raft entry command is invalid"
      exact hentry.bind (hbody.map (.pure _))
    · cases rest with
      | nil =>
        rw [← Except.ok.inj hwritten]
        exact not_lt.mp hlong
      | cons next others => exact hshort (by simp)

/-- The entries of a delta are read back. -/
theorem append_delta_entries_ok {base offset : Nat}
    (hfits : ∀ entry ∈ entries, entry.index < 2 ^ 64 ∧ entry.term < 2 ^ 64)
    (hwritten : appendDeltaEntries base offset entries output = .ok written) :
    ∃ body, written = output ++ body ∧
      Takes (readDeltaEntries base offset entries.length) body entries ∧
      (entries ≠ [] → written.length ≤ maximumPayloadSize) := by
  induction entries generalizing offset output with
  | nil =>
    cases hwritten
    exact ⟨[], (append_nil _).symm, .pure _, fun h => absurd rfl h⟩
  | cons entry rest ih =>
    rw [appendDeltaEntries] at hwritten
    split at hwritten
    · cases hwritten
    rename_i hvalid
    split_ifs at hwritten with hlong
    obtain ⟨body, rfl, hbody, hshort⟩ := ih (fun other hother => hfits other (by simp [hother]))
      hwritten
    have hcommand : entry.command.length ≤ maximumCommandSize := by
      rw [validateEntryPayload] at hvalid
      split_ifs at hvalid with hinvalid
      simp only [not_or, not_lt] at hinvalid
      exact hinvalid.2.2.2.1
    refine ⟨appendEntry entry ++ body, append_assoc .., ?_, fun _ => ?_⟩
    · have hentry := takes_entry (hfits entry (by simp)) hcommand
        "Raft journal delta entry is truncated" "Raft journal delta entry is invalid"
      have hrefuse : Takes (refuseInvalid (validateEntryPayload entry offset base)) [] () := by
        rw [hvalid]
        exact .pure ()
      refine hentry.bind ?_
      simp only [entry_stored_of]
      exact hrefuse.bind (hbody.map (.pure _))
    · cases rest with
      | nil =>
        rw [← Except.ok.inj hwritten]
        exact not_lt.mp hlong
      | cons next others => exact hshort (by simp)

/-! ## Extensions are read back -/

/-- An optional value is read back when its encoding is. -/
theorem takes_optional {α : Type} {encode : α → Except String Bytes} {decode : Nat → Reader α}
    {value : Option α} (flagTruncated flagInvalid sizeInvalid : String)
    (hdecode : ∀ value encoded, encode value = .ok encoded →
      Takes (decode encoded.length) encoded value ∧ encoded.length ≠ 0 ∧
        encoded.length < 256 ^ 4) (hbytes : appendOptional encode value = .ok bytes) :
    Takes (readOptional flagTruncated flagInvalid sizeInvalid decode) bytes value := by
  cases value with
  | none =>
    cases hbytes
    intro rest
    rw [readOptional, remaining_bind, if_neg (by simp), bind_ok (Takes.byte 0 rest),
      if_pos (by decide)]
    rfl
  | some value =>
    obtain ⟨encoded, hencoded, hbytes⟩ := Barrier.except_bind_eq_ok.mp hbytes
    cases hbytes
    obtain ⟨htakes, hzero, hsize⟩ := hdecode value encoded hencoded
    intro rest
    have hflag : ¬ ((1 : UInt8).toNat ≠ 1 ∨
        (append32 encoded.length ++ (encoded ++ rest)).length < 4) := by
      simp [append32]
    have hroom : ¬ (encoded.length = 0 ∨ (encoded ++ rest).length < encoded.length) := by
      simp only [length_append]
      omega
    simp only [append_assoc]
    rw [readOptional, remaining_bind, if_neg (by simp), bind_ok (Takes.byte 1 _),
      if_neg (by decide), remaining_bind, if_neg hflag, append32,
      bind_ok (Takes.word_of_lt hsize _), remaining_bind, if_neg hroom, bind_ok (htakes rest)]
    rfl

theorem takes_optional_configuration {config : Option ClusterConfiguration}
    (hbytes : appendOptionalConfiguration config = .ok bytes) :
    Takes readOptionalConfiguration bytes config := by
  refine takes_optional _ _ _ (fun value encoded hencoded => ?_) hbytes
  obtain ⟨hlow, hhigh⟩ := encode_cluster_configuration_length hencoded
  exact ⟨takes_cluster_configuration hencoded, by omega, by omega⟩

theorem takes_optional_membership_operation {operation : Option MembershipOperation}
    (hbytes : appendOptionalMembershipOperation operation = .ok bytes) :
    Takes readOptionalMembershipOperation bytes operation := by
  refine takes_optional _ _ _ (fun value encoded hencoded => ?_) hbytes
  obtain ⟨hlow, hhigh⟩ := encode_membership_operation_length hencoded
  refine ⟨fun rest => ?_, by omega, by omega⟩
  have htaken : ¬ (encoded ++ rest).length ≠ rest.length + encoded.length := by
    simp [Nat.add_comm]
  rw [remaining_bind, bind_ok (takes_membership_operation hencoded rest), remaining_bind,
    if_neg htaken]
  rfl

/-- The extensions of a state. -/
def extensionsOf (state : RaftPersistentState) : StateExtensions where
  clusterConfig := state.clusterConfig
  jointConfig := state.jointConfig
  activeMembershipOperation := state.activeMembershipOperation
  completedMembershipOperation := state.completedMembershipOperation

theorem append_state_extensions_ok (hbytes : appendStateExtensions state = .ok bytes) :
    ∃ cluster joint active completed,
      appendOptionalConfiguration state.clusterConfig = .ok cluster ∧
      appendOptionalConfiguration state.jointConfig = .ok joint ∧
      appendOptionalMembershipOperation state.activeMembershipOperation = .ok active ∧
      appendOptionalMembershipOperation state.completedMembershipOperation = .ok completed ∧
      bytes = append32 stateExtensionVersion ++ (cluster ++ (joint ++ (active ++ completed))) := by
  obtain ⟨cluster, hcluster, hbytes⟩ := Barrier.except_bind_eq_ok.mp hbytes
  obtain ⟨joint, hjoint, hbytes⟩ := Barrier.except_bind_eq_ok.mp hbytes
  obtain ⟨active, hactive, hbytes⟩ := Barrier.except_bind_eq_ok.mp hbytes
  obtain ⟨completed, hcompleted, hbytes⟩ := Barrier.except_bind_eq_ok.mp hbytes
  cases hbytes
  exact ⟨cluster, joint, active, completed, hcluster, hjoint, hactive, hcompleted,
    by simp only [append_assoc]⟩

theorem takes_extension_fields (hbytes : appendStateExtensions state = .ok bytes) :
    Takes readExtensionFields bytes (extensionsOf state) := by
  obtain ⟨cluster, joint, active, completed, hcluster, hjoint, hactive, hcompleted, rfl⟩ :=
    append_state_extensions_ok hbytes
  have hversion : stateExtensionVersion < 256 ^ 4 := by decide
  refine Takes.room (by simp [append32]) ((Takes.word_of_lt hversion).bind ?_)
  rw [if_neg (by decide)]
  refine (takes_optional_configuration hcluster).bind
    ((takes_optional_configuration hjoint).bind ?_)
  rw [if_neg (by decide)]
  exact (takes_optional_membership_operation hactive).bind
    ((takes_optional_membership_operation hcompleted).map (.pure _))

/-- The size of an optional value. -/
theorem append_optional_cases {α : Type} {encode : α → Except String Bytes} {low high : Nat}
    {value : Option α}
    (hbounds : ∀ value encoded, encode value = .ok encoded →
      low ≤ encoded.length ∧ encoded.length ≤ high)
    (hbytes : appendOptional encode value = .ok bytes) :
    (value = none ∧ bytes.length = 1) ∨
      (value ≠ none ∧ 5 + low ≤ bytes.length ∧ bytes.length ≤ 5 + high) := by
  cases value with
  | none =>
    cases hbytes
    exact .inl ⟨rfl, rfl⟩
  | some value =>
    obtain ⟨encoded, hencoded, hbytes⟩ := Barrier.except_bind_eq_ok.mp hbytes
    cases hbytes
    have hlength := hbounds value encoded hencoded
    refine .inr ⟨by simp, ?_⟩
    simp only [append32, length_append, length_big_endian, length_cons,
      length_nil]
    omega

theorem append_state_extensions_length (hbytes : appendStateExtensions state = .ok bytes) :
    8 ≤ bytes.length ∧ bytes.length < 2 ^ 20 := by
  obtain ⟨cluster, joint, active, completed, hcluster, hjoint, hactive, hcompleted, rfl⟩ :=
    append_state_extensions_ok hbytes
  have := append_optional_cases (fun _ _ => encode_cluster_configuration_length) hcluster
  have := append_optional_cases (fun _ _ => encode_cluster_configuration_length) hjoint
  have := append_optional_cases (fun _ _ => encode_membership_operation_length) hactive
  have := append_optional_cases (fun _ _ => encode_membership_operation_length) hcompleted
  simp only [append32, length_append, length_big_endian]
  omega

/-! ## Whole states are read back -/

theorem vote_of_append (votedFor : Option NodeId) :
    ¬ voteInvalid (if votedFor.isSome then (1 : UInt8) else 0).toNat (votedFor.getD 0).toNat ∧
      voteOf (if votedFor.isSome then (1 : UInt8) else 0).toNat (votedFor.getD 0).toNat =
        votedFor := by
  cases votedFor with
  | none => exact ⟨by simp [voteInvalid], rfl⟩
  | some candidate =>
    refine ⟨by simp [voteInvalid], ?_⟩
    simp [voteOf]

/-- A state with other configurations and operations. -/
def withExtensions (state : RaftPersistentState) (extensions : StateExtensions) :
    RaftPersistentState :=
  { state with
    clusterConfig := extensions.clusterConfig
    jointConfig := extensions.jointConfig
    activeMembershipOperation := extensions.activeMembershipOperation
    completedMembershipOperation := extensions.completedMembershipOperation }

/-- What stands before the extensions of an image. -/
def stateFields (state : RaftPersistentState) (body : Bytes) : Bytes :=
  appendMetadata state ++ (append32 state.entries.length ++ body)

/-- The pieces of the payload of a state. -/
structure StateImage (state : RaftPersistentState) (payload body extensions : Bytes) : Prop where
  bytes : payload = stateFields state body ++ extensions
  count : 0 < state.entries.length ∧ state.entries.length ≤ maximumEntryCount
  taken : Takes (readStateEntries state.entries.length) body (state.entries.map storedOf)
  extended : appendStateExtensions state = .ok extensions
  entries : validateEntries state.entries = .ok ()
  commit : isValidCommitIndex state.commitIndex state.entries = true
  short : payload.length ≤ maximumPayloadSize + extensions.length

/-- What `encodeState` puts together. -/
theorem encode_state_ok (hfits : Fits state) (hencode : encodeState state = .ok payload) :
    ∃ body extensions, StateImage state payload body extensions := by
  rw [encodeState] at hencode
  split at hencode
  · cases hencode
  rename_i hcount
  obtain ⟨_, hvalid, hencode⟩ := Barrier.except_bind_eq_ok.mp hencode
  split at hencode
  · cases hencode
  rename_i hcommit
  obtain ⟨output, houtput, hencode⟩ := Barrier.except_bind_eq_ok.mp hencode
  obtain ⟨extensions, hextensions, hencode⟩ := Barrier.except_bind_eq_ok.mp hencode
  cases hencode
  obtain ⟨body, rfl, hbody, hshort⟩ := append_state_entries_ok hfits.entries houtput
  have hentries : state.entries ≠ [] := by
    intro hempty
    rw [hempty] at hvalid
    cases hvalid
  refine ⟨body, extensions, by simp only [stateFields, append_assoc],
    ⟨length_pos_iff.mpr hentries, not_lt.mp (not_or.mp hcount).1⟩, hbody, hextensions, hvalid,
    by simpa using hcommit, ?_⟩
  have hlength := hshort hentries
  rw [length_append]
  omega

theorem vote_lt (state : RaftPersistentState) : (state.votedFor.getD 0).toNat < 256 ^ 8 := by
  simpa using (state.votedFor.getD 0).toNat_lt

theorem metadata_append (state : RaftPersistentState) (rest : Bytes) :
    appendMetadata state ++ rest = append64 state.currentTerm ++
      ([if state.votedFor.isSome then (1 : UInt8) else 0] ++
        (append64 (state.votedFor.getD 0).toNat ++ (append64 state.commitIndex ++ rest))) := by
  simp only [appendMetadata, append_assoc]

/-- The fields of an image are read back. -/
theorem StateImage.takes (himage : StateImage state payload body extensions) (hfits : Fits state) :
    Takes readStateFields (stateFields state body)
      ({ currentTerm := state.currentTerm, votedFor := state.votedFor
         commitIndex := state.commitIndex }, state.entries.map storedOf) := by
  obtain ⟨hvote, hvoted⟩ := vote_of_append state.votedFor
  have hcount : ¬ (state.entries.length = 0 ∨ maximumEntryCount < state.entries.length) := by
    have := himage.count
    omega
  have hsize : state.entries.length < 256 ^ 4 := by
    have := himage.count
    simp only [maximumEntryCount] at this
    omega
  rw [stateFields, metadata_append]
  refine (Takes.word_of_lt (by simpa using hfits.term)).bind ((Takes.byte _).bind
    ((Takes.word_of_lt (vote_lt state)).bind ?_))
  rw [if_neg hvote, hvoted]
  refine (Takes.word_of_lt (by simpa using hfits.commit)).bind ((Takes.word_of_lt hsize).bind ?_)
  rw [if_neg hcount]
  exact himage.taken.map (.pure _)

theorem StateImage.read (himage : StateImage state payload body extensions) (hfits : Fits state)
    (rest : Bytes) :
    readState (stateFields state body ++ rest) =
      (readStateExtensions >>= fun extensions => pure (withExtensions state extensions)) rest := by
  rw [readState, bind_ok (himage.takes hfits rest)]
  simp only [checked_entries_stored_of himage.entries, himage.commit, Bool.true_eq_false, if_false]
  rfl

/-- An image that was written is read back. -/
theorem decode_encode_state (hfits : Fits state) (hencode : encodeState state = .ok payload) :
    decodeState payload = .ok state := by
  obtain ⟨body, extensions, himage⟩ := encode_state_ok hfits hencode
  have hextensions := takes_extension_fields himage.extended
  have hnonempty : ¬ extensions.length = 0 := by
    have := append_state_extensions_length himage.extended
    omega
  have hrest : readStateExtensions extensions = .ok (extensionsOf state, []) := by
    rw [readStateExtensions, remaining_bind, if_neg hnonempty, bind_ok hextensions.all,
      remaining_bind, if_neg (by simp)]
    rfl
  have hlong : ¬ payload.length < 29 := by
    rw [himage.bytes]
    simp only [stateFields, appendMetadata, append64, append32, length_append, length_big_endian,
      length_cons, length_nil]
    omega
  rw [decodeState, if_neg hlong, himage.bytes, himage.read hfits, bind_ok hrest]
  rfl

/-! ## Deltas are read back -/

theorem take_common_start (previous entries : List LogEntry) :
    previous.take (commonPrefix previous entries) =
      entries.take (commonPrefix previous entries) := by
  induction previous generalizing entries with
  | nil => cases entries <;> simp [commonPrefix]
  | cons first rest ih =>
    cases entries with
    | nil => simp [commonPrefix]
    | cons second others =>
      rw [commonPrefix]
      split_ifs with hsame
      · rw [take_succ_cons, take_succ_cons, hsame, ih]
      · rfl

theorem common_prefix_le (previous entries : List LogEntry) :
    commonPrefix previous entries ≤ previous.length ∧
      commonPrefix previous entries ≤ entries.length := by
  induction previous generalizing entries with
  | nil => cases entries <;> simp [commonPrefix]
  | cons first rest ih =>
    cases entries with
    | nil => simp [commonPrefix]
    | cons second others =>
      have := ih others
      rw [commonPrefix]
      split_ifs
      · simpa using this
      · simp

theorem first_index_common {previous : List LogEntry}
    (hcommon : commonPrefix previous entries ≠ 0) :
    firstIndex previous = firstIndex entries := by
  cases previous with
  | nil => exact absurd (by cases entries <;> rfl) hcommon
  | cons first rest =>
    cases entries with
    | nil => exact absurd rfl hcommon
    | cons second others =>
      rw [commonPrefix] at hcommon
      split_ifs at hcommon with hsame
      · rw [hsame]
        rfl
      · exact absurd rfl hcommon

/-- Two states have the same configurations and operations. -/
def SameExtensions (previous state : RaftPersistentState) : Prop :=
  previous.clusterConfig = state.clusterConfig ∧ previous.jointConfig = state.jointConfig ∧
    previous.activeMembershipOperation = state.activeMembershipOperation ∧
    previous.completedMembershipOperation = state.completedMembershipOperation

/-- The pieces of the payload of a delta. -/
structure DeltaImage (previous state : RaftPersistentState) (payload body : Bytes) : Prop where
  bytes : payload = appendMetadata state ++
    (append64 (commonPrefix previous.entries state.entries) ++
      (append32 (state.entries.length - commonPrefix previous.entries state.entries) ++ body))
  later : previous.currentTerm ≤ state.currentTerm ∧ previous.commitIndex ≤ state.commitIndex
  shared : commonPrefix previous.entries state.entries ≠ 0
  count : state.entries.length ≤ maximumEntryCount
  taken : Takes (readDeltaEntries (firstIndex state.entries)
    (commonPrefix previous.entries state.entries)
    (state.entries.length - commonPrefix previous.entries state.entries)) body
    (state.entries.drop (commonPrefix previous.entries state.entries))
  base : validateEntries previous.entries = .ok ()
  entries : validateEntries state.entries = .ok ()
  commit : isValidCommitIndex state.commitIndex state.entries = true
  short : payload.length ≤ maximumPayloadSize

/-- What `encodeDelta` puts together. -/
theorem encode_delta_ok (hfits : Fits state) (hencode : encodeDelta previous state = .ok payload) :
    ∃ body, DeltaImage previous state payload body := by
  rw [encodeDelta] at hencode
  split at hencode
  · cases hencode
  rename_i hlater
  obtain ⟨_, hvalid, hencode⟩ := Barrier.except_bind_eq_ok.mp hencode
  obtain ⟨_, hprevious, hencode⟩ := Barrier.except_bind_eq_ok.mp hencode
  split at hencode
  · cases hencode
  rename_i hcount
  dsimp only at hencode
  split at hencode
  · cases hencode
  rename_i hshared
  split at hencode
  · cases hencode
  simp only [not_or, not_lt, Bool.not_eq_false] at hlater hcount hshared
  have hdropped : ∀ entry ∈ state.entries.drop (commonPrefix previous.entries state.entries),
      entry.index < 2 ^ 64 ∧ entry.term < 2 ^ 64 := fun entry hentry =>
    hfits.entries entry (mem_of_mem_drop hentry)
  obtain ⟨body, rfl, hbody, hshort⟩ := append_delta_entries_ok hdropped hencode
  rw [length_drop] at hbody
  refine ⟨body, by simp only [append_assoc], hlater, hshared.1, hcount.1, hbody, hprevious,
    hvalid, hcount.2, ?_⟩
  by_cases hnothing : state.entries.drop (commonPrefix previous.entries state.entries) = []
  · -- without entries there are only the 37 bytes of the metadata
    rw [hnothing] at hencode
    rw [← Except.ok.inj hencode]
    simp only [appendMetadata, append64, append32, length_append, length_big_endian,
      length_cons, length_nil, maximumPayloadSize]
    omega
  · exact hshort hnothing

/-- A delta is read back on top of the previous state. -/
theorem DeltaImage.takes (himage : DeltaImage previous state payload body) (hfits : Fits state)
    (hsame : SameExtensions previous state) : Takes (readDeltaFields previous) payload state := by
  obtain ⟨hvote, hvoted⟩ := vote_of_append state.votedFor
  obtain ⟨hcommonPrevious, hcommonState⟩ := common_prefix_le previous.entries state.entries
  have hcount := himage.count
  have hcommon : commonPrefix previous.entries state.entries < 256 ^ 8 := by
    simp only [maximumEntryCount] at hcount
    omega
  have hsize : state.entries.length - commonPrefix previous.entries state.entries < 256 ^ 4 := by
    simp only [maximumEntryCount] at hcount
    omega
  have hmetadata : ¬ (voteInvalid (if state.votedFor.isSome then (1 : UInt8) else 0).toNat
      (state.votedFor.getD 0).toNat ∨ state.currentTerm < previous.currentTerm ∨
      state.commitIndex < previous.commitIndex) := by
    have := himage.later
    simp only [hvote, false_or]
    omega
  have hbounds : ¬ (commonPrefix previous.entries state.entries = 0 ∨
      previous.entries.length < commonPrefix previous.entries state.entries ∨
      maximumEntryCount < commonPrefix previous.entries state.entries ∨
      maximumEntryCount - commonPrefix previous.entries state.entries <
        state.entries.length - commonPrefix previous.entries state.entries) := by
    have := himage.shared
    omega
  have hentries : previous.entries.take (commonPrefix previous.entries state.entries) ++
      state.entries.drop (commonPrefix previous.entries state.entries) = state.entries := by
    rw [take_common_start, take_append_drop]
  have hrefuse : Takes (refuseInvalid (validateEntries previous.entries)) [] () := by
    rw [himage.base]
    exact .pure ()
  have hbody := himage.taken
  rw [← first_index_common himage.shared] at hbody
  rw [himage.bytes, metadata_append]
  refine (Takes.word_of_lt (by simpa using hfits.term)).bind ((Takes.byte _).bind
    ((Takes.word_of_lt (vote_lt state)).bind ((Takes.word_of_lt (by simpa using hfits.commit)).bind
      ((Takes.word_of_lt hcommon).bind ((Takes.word_of_lt hsize).bind ?_)))))
  rw [if_neg hmetadata]
  refine hrefuse.bind ?_
  rw [if_neg hbounds]
  refine hbody.map ?_
  obtain ⟨hcluster, hjoint, hactive, hcompleted⟩ := hsame
  rw [hentries, hvoted, hcluster, hjoint, hactive, hcompleted]
  exact .pure _

theorem DeltaImage.read (himage : DeltaImage previous state payload body) (hfits : Fits state)
    (hsame : SameExtensions previous state) (rest : Bytes) :
    readDelta previous (payload ++ rest) =
      if rest.length ≠ 0 then
        .error (.refused "Raft journal delta has invalid trailing data or commit index")
      else .ok (state, rest) := by
  rw [readDelta, bind_ok (himage.takes hfits hsame rest), remaining_bind]
  by_cases hrest : rest.length ≠ 0
  · rw [if_pos hrest, if_pos hrest]
    rfl
  · have hvalid : refuseInvalid (validateEntries state.entries) rest = .ok ((), rest) := by
      rw [himage.entries]
      rfl
    rw [if_neg hrest, if_neg hrest, bind_ok hvalid, if_neg (by simp [himage.commit])]
    rfl

/-- A delta that was written is read back. -/
theorem decode_encode_delta (hfits : Fits state) (hsame : SameExtensions previous state)
    (hencode : encodeDelta previous state = .ok payload) :
    decodeDelta payload previous = .ok state := by
  obtain ⟨body, himage⟩ := encode_delta_ok hfits hencode
  have hbase : previous.entries ≠ [] := by
    intro hempty
    have hprevious := himage.base
    rw [hempty] at hprevious
    cases hprevious
  have hlong : ¬ payload.length < 37 := by
    rw [himage.bytes]
    simp only [appendMetadata, append64, append32, length_append, length_big_endian,
      length_cons, length_nil]
    omega
  have hread := himage.read hfits hsame []
  rw [append_nil] at hread
  rw [decodeDelta, if_neg hbase, if_neg hlong, hread]
  rfl

end RaftJournal

end DistributedKV
