import DistributedKV.Raft.Journal.Replay

/-!
# The size of a state image

`encodeState` compares the size of the image with the limit after every entry, and then appends
the configurations and operations without another look at it. Here is what it accepts, in sizes
alone (`encode_state_eq_ok`), and what follows for the journal: a save of a state whose entries
fit and whose whole image does not is the only one after which the file cannot be loaded
(`save_readable_iff`).
-/

namespace DistributedKV

open ByteReader List

namespace RaftJournal

/-! ## What `encodeState` accepts -/

/-- The bytes of an image before its extensions. -/
def fieldsSize (state : RaftPersistentState) : Nat := 29 + entriesSize state.entries

/-- No command is longer than one may be. -/
def CommandsFit (entries : List LogEntry) : Prop :=
  ∀ entry ∈ entries, entry.command.length ≤ maximumCommandSize

/-- What `encodeState` asks of a state apart from its size. -/
structure Encodable (state : RaftPersistentState) : Prop where
  count : state.entries.length ≤ maximumEntryCount
  entries : validateEntries state.entries = .ok ()
  commit : isValidCommitIndex state.commitIndex state.entries = true
  commands : CommandsFit state.entries

section Sizes

variable {entry : LogEntry} {entries rest : List LogEntry} {output written : Bytes}

@[simp] theorem length_append_entry (entry : LogEntry) :
    (appendEntry entry).length = 21 + entry.command.length := by
  simp only [appendEntry, append64, append32, length_append, length_big_endian,
    length_cons, length_nil]

@[simp] theorem length_append_metadata (state : RaftPersistentState) :
    (appendMetadata state).length = 25 := by
  simp only [appendMetadata, append64, length_append, length_big_endian, length_cons,
    length_nil]

@[simp] theorem length_entries_bytes (entries : List LogEntry) :
    (entries.flatMap appendEntry).length = entriesSize entries := by
  induction entries with
  | nil => rfl
  | cons entry rest ih =>
    rw [flatMap_cons, length_append, length_append_entry, ih, entries_size_cons]

@[simp] theorem commands_fit_cons :
    CommandsFit (entry :: rest) ↔
      entry.command.length ≤ maximumCommandSize ∧ CommandsFit rest :=
  forall_mem_cons

/-- When the entry loop accepts, and what it writes. -/
theorem append_state_entries_eq_ok (houtput : output.length ≤ maximumPayloadSize) :
    appendStateEntries entries output = .ok written ↔
      CommandsFit entries ∧ output.length + entriesSize entries ≤ maximumPayloadSize ∧
        written = output ++ entries.flatMap appendEntry := by
  induction entries generalizing output with
  | nil => simp [appendStateEntries, CommandsFit, houtput, eq_comm]
  | cons entry rest ih =>
    have hwidth : maximumCommandSize < 2 ^ 32 - 1 := by decide
    rw [appendStateEntries, commands_fit_cons, entries_size_cons, flatMap_cons]
    split_ifs with hcommand hlong
    · -- the command is too long
      refine iff_of_false (by simp) fun haccepted => ?_
      have := haccepted.1.1
      omega
    · -- the limit is passed here, so also with the entries behind this one
      rw [length_append, length_append_entry] at hlong
      refine iff_of_false (by simp) fun haccepted => ?_
      have := haccepted.2.1
      omega
    · rw [ih (not_lt.mp hlong), length_append, length_append_entry, append_assoc,
        Nat.add_assoc]
      have hshort : entry.command.length ≤ maximumCommandSize := by omega
      simp only [hshort, true_and]

end Sizes

section State

variable {state : RaftPersistentState} {payload extensions : Bytes}

/-- What `encodeState` writes; it does not count the extensions. -/
theorem encode_state_eq_ok :
    encodeState state = .ok payload ↔
      Encodable state ∧ fieldsSize state ≤ maximumPayloadSize ∧
        ∃ extensions, appendStateExtensions state = .ok extensions ∧
          payload = appendMetadata state ++ append32 state.entries.length ++
            state.entries.flatMap appendEntry ++ extensions := by
  have hwidth : maximumEntryCount < 2 ^ 32 - 1 := by decide
  have hstart : (appendMetadata state ++ append32 state.entries.length).length = 29 := by
    rw [length_append, length_append_metadata, append32, length_big_endian]
  have hroom : (appendMetadata state ++ append32 state.entries.length).length ≤
      maximumPayloadSize := by
    rw [hstart]
    decide
  rw [encodeState]
  by_cases hcount : maximumEntryCount < state.entries.length ∨ 2 ^ 32 - 1 < state.entries.length
  · rw [if_pos hcount]
    refine iff_of_false (by simp) fun haccepted => ?_
    have := haccepted.1.count
    omega
  rw [if_neg hcount]
  constructor
  · intro hencode
    obtain ⟨_, hvalid, hencode⟩ := Barrier.except_bind_eq_ok.mp hencode
    split at hencode
    · cases hencode
    rename_i hcommit
    obtain ⟨output, houtput, hencode⟩ := Barrier.except_bind_eq_ok.mp hencode
    obtain ⟨extensions, hextensions, hencode⟩ := Barrier.except_bind_eq_ok.mp hencode
    cases hencode
    obtain ⟨hcommands, hsize, rfl⟩ := (append_state_entries_eq_ok hroom).mp houtput
    rw [hstart] at hsize
    exact ⟨⟨by omega, hvalid, by simpa using hcommit, hcommands⟩, hsize, extensions, hextensions,
      rfl⟩
  · intro haccepted
    obtain ⟨hencodable, hsize, extensions, hextensions, rfl⟩ := haccepted
    refine Barrier.except_bind_eq_ok.mpr ⟨(), hencodable.entries, ?_⟩
    rw [if_neg (by rw [hencodable.commit]; simp)]
    refine Barrier.except_bind_eq_ok.mpr ⟨_, (append_state_entries_eq_ok hroom).mpr
      ⟨hencodable.commands, ?_, rfl⟩, Barrier.except_bind_eq_ok.mpr ⟨_, hextensions, rfl⟩⟩
    rw [hstart]
    exact hsize

/-- The entries of the state fit into an image, and its configurations and operations do not fit
behind them. -/
def Overflows (state : RaftPersistentState) : Prop :=
  Encodable state ∧ fieldsSize state ≤ maximumPayloadSize ∧
    ∃ extensions, appendStateExtensions state = .ok extensions ∧
      maximumPayloadSize < fieldsSize state + extensions.length

/-- A state overflows when it is written but may not be read. -/
theorem overflows_iff :
    Overflows state ↔
      ∃ payload, encodeState state = .ok payload ∧ maximumPayloadSize < payload.length := by
  have hlength : ∀ extensions : Bytes,
      (appendMetadata state ++ append32 state.entries.length ++
        state.entries.flatMap appendEntry ++ extensions).length =
          fieldsSize state + extensions.length := by
    intro extensions
    rw [length_append, length_append, length_append, length_append_metadata,
      append32, length_big_endian, length_entries_bytes, fieldsSize]
  constructor
  · intro hoverflows
    obtain ⟨hencodable, hsize, extensions, hextensions, hlarge⟩ := hoverflows
    refine ⟨_, encode_state_eq_ok.mpr ⟨hencodable, hsize, extensions, hextensions, rfl⟩, ?_⟩
    rw [hlength]
    exact hlarge
  · intro hwritten
    obtain ⟨payload, hencode, hlarge⟩ := hwritten
    obtain ⟨hencodable, hsize, extensions, hextensions, rfl⟩ := encode_state_eq_ok.mp hencode
    rw [hlength] at hlarge
    exact ⟨hencodable, hsize, extensions, hextensions, hlarge⟩

theorem RecordOf.small {latest : RaftPersistentState} {record : JournalRecord}
    (hrecord : RecordOf latest record state) (hfits : ¬ Overflows state) :
    record.payload.length ≤ maximumPayloadSize := by
  cases hrecord with
  | full _ hencode => exact not_lt.mp fun hlarge => hfits (overflows_iff.mpr ⟨_, hencode, hlarge⟩)
  | delta hstate _ hencode =>
    obtain ⟨body, himage⟩ := encode_delta_ok hstate hencode
    exact himage.short

end State

end RaftJournal

open RaftJournal

/-- A save succeeds with a record and a whole image. -/
theorem FileRaftPersistence.save_of_record {journal opened : FileRaftPersistence}
    {state : RaftPersistentState} {record : JournalRecord} {payload : Bytes}
    (hopened : journal.openLocked = .ok opened) (hrecord : opened.record state = .ok record)
    (hencode : encodeState state = .ok payload) :
    ∃ appended saved, journal.appendRecord state = .ok appended ∧
      journal.save state = .ok saved := by
  have happend : ∃ appended, journal.appendRecord state = .ok appended :=
    ⟨_, Barrier.except_bind_eq_ok.mpr ⟨opened, hopened,
      Barrier.except_bind_eq_ok.mpr ⟨record, hrecord, rfl⟩⟩⟩
  obtain ⟨appended, happend⟩ := happend
  have hwhole : ∃ saved, appended.compactLocked state = .ok saved :=
    ⟨_, Barrier.except_bind_eq_ok.mpr ⟨payload, hencode, rfl⟩⟩
  obtain ⟨compacted, hwhole⟩ := hwhole
  by_cases hcompact : appended.needsCompaction
  · refine ⟨appended, compacted, happend,
      Barrier.except_bind_eq_ok.mpr ⟨appended, happend, ?_⟩⟩
    rw [if_pos hcompact, hwhole]
  · refine ⟨appended, appended, happend,
      Barrier.except_bind_eq_ok.mpr ⟨appended, happend, ?_⟩⟩
    rw [if_neg hcompact]

namespace Logged

/-! ## Saving and loading -/

/-- The file does not exist yet, or it can be loaded. -/
def Readable (logged : Logged) : Prop :=
  logged.journal.file = [] ∨ ∃ result, logged.journal.load = .ok result

section Step

variable {logged following : Logged} {written : Written} {state : RaftPersistentState}

theorem Represents.file_ne_nil (hrepresents : logged.Represents written)
    (hwritten : written ≠ []) : logged.journal.file ≠ [] := by
  intro hempty
  rcases hrepresents.holds.file with hfile | ⟨-, -, hnothing⟩
  · exact FileRaftPersistence.header_ne_nil _ (hfile.symm.trans hempty)
  · obtain ⟨item, rest, rfl⟩ := exists_cons_of_ne_nil hwritten
    have hlength := congrArg length hnothing
    rw [records_bytes_cons, length_append, length_bytes, recordHeaderSize,
      length_nil] at hlength
    omega

theorem Represents.readable_iff (hrepresents : logged.Represents written) :
    logged.Readable ↔ Small written := by
  constructor
  · intro hreadable
    rcases hreadable with hempty | ⟨result, hload⟩
    · have hnothing : written = [] := by
        by_contra hwritten
        exact hrepresents.file_ne_nil hwritten hempty
      intro item hitem
      rw [hnothing] at hitem
      cases hitem
    · exact hrepresents.small_of_load hload
  · intro hsmall
    by_cases hfile : logged.journal.file = []
    · exact .inl hfile
    · exact .inr ⟨_, hrepresents.load (hrepresents.holds.limits hfile) hsmall⟩

/-- A save can be loaded when its record is not too long. -/
theorem Represents.load_save_iff (hrepresents : logged.Represents written) (hfits : Fits state)
    (hreadable : logged.Readable) (hstep : logged.step (.save state) = some following) :
    ∃ before record, following.Represents (before ++ [(record, state)]) ∧
      ((∃ result, following.journal.load = .ok result) ↔
        record.payload.length ≤ maximumPayloadSize) := by
  obtain ⟨before, record, hbefore, hnext⟩ := hrepresents.step_save hfits hstep
  have hkept : Small before := by
    rcases hbefore with rfl | rfl
    · exact hrepresents.readable_iff.mp hreadable
    · intro item hitem
      cases hitem
  refine ⟨before, record, hnext, ?_, fun hrecord => ?_⟩
  · rintro ⟨result, hload⟩
    exact hnext.small_of_load hload (record, state) (by simp)
  · have hsmall : Small (before ++ [(record, state)]) := by
      intro item hitem
      rcases mem_append.mp hitem with hitem | hitem
      · exact hkept item hitem
      · rw [mem_singleton.mp hitem]
        exact hrecord
    exact ⟨_, hnext.load (hnext.holds.limits (hnext.file_ne_nil (by simp))) hsmall⟩

theorem Represents.load_save (hrepresents : logged.Represents written) (hfits : Fits state)
    (hshort : ¬ Overflows state) (hreadable : logged.Readable)
    (hstep : logged.step (.save state) = some following) :
    ∃ result, following.journal.load = .ok result := by
  obtain ⟨before, record, hnext, hiff⟩ := hrepresents.load_save_iff hfits hreadable hstep
  exact hiff.mpr ((chain_append.mp hnext.chain).2.1.small hshort)

/-- A journal without a file yet, with the limits it has by default. -/
def fresh : Logged := { journal := {}, marks := [] }

theorem fresh_represents : fresh.Represents [] :=
  ⟨⟨fun hfile => absurd rfl hfile, .inr ⟨rfl, rfl, rfl⟩⟩, rfl, trivial,
    fun saved hsaved => by cases hsaved⟩

/-- A fresh journal saves every state that can be encoded. -/
theorem fresh_save {payload : Bytes} (hencode : encodeState state = .ok payload) :
    ∃ following, fresh.step (.save state) = some following := by
  have hopen : fresh.journal.openLocked =
      .ok { file := fileHeader, isOpen := true, fileSize := fileHeader.length } := rfl
  have hrecord : FileRaftPersistence.record
      { file := fileHeader, isOpen := true, fileSize := fileHeader.length } state =
        .ok { kind := .full, payload } := by
    show FileRaftPersistence.fullRecord state = _
    rw [FileRaftPersistence.fullRecord, hencode]
    rfl
  obtain ⟨appended, journal, happend, hsave⟩ :=
    FileRaftPersistence.save_of_record hopen hrecord hencode
  rw [step, happend, hsave]
  dsimp only
  split_ifs
  · exact ⟨_, rfl⟩
  · exact ⟨_, rfl⟩

/-- A state that overflows leaves an unreadable file. -/
theorem fresh_save_overflows (hfits : Fits state) (hoverflows : Overflows state) :
    ∃ following, fresh.step (.save state) = some following ∧ ¬ following.Readable := by
  obtain ⟨payload, hencode, hlarge⟩ := overflows_iff.mp hoverflows
  obtain ⟨following, hstep⟩ := fresh_save hencode
  refine ⟨following, hstep, fun hreadable => ?_⟩
  obtain ⟨before, record, hbefore, hnext⟩ := fresh_represents.step_save hfits hstep
  have hempty : before = [] := hbefore.elim id id
  subst hempty
  have hsmall := hnext.readable_iff.mp hreadable (record, state) (by simp)
  -- the first record is a whole image: there is no state yet that a delta could start from
  cases hnext.chain.1 with
  | full _ hwritten =>
    rw [hencode] at hwritten
    cases hwritten
    exact absurd hsmall (not_le.mpr hlarge)
  | delta _ _ hwritten =>
    rw [encodeDelta] at hwritten
    split at hwritten
    · cases hwritten
    · obtain ⟨_, -, hwritten⟩ := Barrier.except_bind_eq_ok.mp hwritten
      obtain ⟨_, hinvalid, -⟩ := Barrier.except_bind_eq_ok.mp hwritten
      cases hinvalid

theorem step_save_journal (hstep : logged.step (.save state) = some following) :
    logged.journal.save state = .ok following.journal := by
  rw [step] at hstep
  split at hstep
  · rename_i hsave
    split_ifs at hstep
    · cases hstep
      exact hsave
    · cases hstep
      exact hsave
  · cases hstep

end Step

theorem fresh_run : Run fun _ => fresh := ⟨⟨_, _, rfl⟩, fun _ => .inl rfl⟩

/-- The file stays readable while no saved state overflows. -/
theorem Run.readable {run : Nat → Logged} (hrun : Run run)
    (hsaves : ∀ k state, (run k).step (.save state) = some (run (k + 1)) → ¬ Overflows state)
    (k : Nat) : (run k).Readable := by
  induction k with
  | zero =>
    obtain ⟨deltas, bytes, hinitial⟩ := hrun.initial
    rw [hinitial]
    exact .inl rfl
  | succ k ih =>
    obtain ⟨written, hrepresents⟩ := hrun.represents k
    rcases hrun.next k with hsame | ⟨action, hfits, hstep⟩
    · rw [hsame]
      exact ih
    by_cases hsave : ∃ state, action = .save state
    · obtain ⟨state, rfl⟩ := hsave
      exact .inr (hrepresents.load_save (hfits state rfl) (hsaves k state hstep) ih hstep)
    · obtain ⟨next, hnext, hsmall⟩ := hrepresents.step_other (not_exists.mp hsave) hstep
      exact hnext.readable_iff.mpr (hsmall (hrepresents.readable_iff.mp ih))

/-- Saving a state leaves a file that can be loaded, whatever has been saved before, exactly when
the state does not overflow. -/
theorem save_readable_iff {state : RaftPersistentState} (hfits : Fits state) :
    (∀ run k following, Run run → (run k).Readable →
        (run k).step (.save state) = some following →
        ∃ result, following.journal.load = .ok result) ↔
      ¬ Overflows state := by
  constructor
  · intro hloads hoverflows
    obtain ⟨following, hstep, hunreadable⟩ := fresh_save_overflows hfits hoverflows
    exact hunreadable (.inr (hloads _ 0 following fresh_run (.inl rfl) hstep))
  · intro hshort run k following hrun hreadable hstep
    obtain ⟨written, hrepresents⟩ := hrun.represents k
    exact hrepresents.load_save hfits hshort hreadable hstep

/-- The image of a node of term 1 with an empty log does not overflow, so that it can be loaded
after every save. -/
theorem save_readable_first_image :
    Fits firstImage ∧ ∀ run k following, Run run → (run k).Readable →
      (run k).step (.save firstImage) = some following →
      ∃ result, following.journal.load = .ok result := by
  have hfits : Fits firstImage := ⟨by decide, by decide, by decide⟩
  refine ⟨hfits, (save_readable_iff hfits).mpr fun hoverflows => ?_⟩
  obtain ⟨-, -, extensions, hextensions, hlarge⟩ := hoverflows
  have hlength := (append_state_extensions_length hextensions).2
  have hfields : fieldsSize firstImage = 50 := rfl
  rw [hfields, maximumPayloadSize] at hlarge
  omega

/-! ### A full log -/

/-- An entry of term 1 whose command has some length. -/
def sizedEntry (index size : Nat) : LogEntry where
  index
  term := 1
  type := .command
  command := List.replicate size 0

/-- A log whose image ends at the limit: 63 commands of the greatest length, and one that fills
what is left. -/
def fullEntries : List LogEntry :=
  { index := 0, term := 0, type := .noOp, command := [] } ::
    ((List.range' 1 63).map fun index => sizedEntry index maximumCommandSize) ++
      [sizedEntry 64 1047182]

/-- The image of a node with a full log and nothing else. -/
def fullImage : RaftPersistentState where
  currentTerm := 1
  entries := fullEntries

theorem sized_entry_valid {index size : Nat} (hsize : 0 < size) :
    isValidEntryPayload (sizedEntry index size) = true := by
  obtain ⟨size, rfl⟩ := Nat.exists_eq_succ_of_ne_zero hsize.ne'
  rfl

theorem sized_entries_valid {size : Nat} (hsize : 0 < size) (count start : Nat)
    {rest : List LogEntry} (hindexes : start + count ≤ uint64Max)
    (hrest : entriesValid 0 (start + count) rest = true) :
    entriesValid 0 start
      ((List.range' start count).map (fun index => sizedEntry index size) ++ rest) = true := by
  induction count generalizing start with
  | zero => exact hrest
  | succ count ih =>
    rw [range'_succ, map_cons, cons_append, entriesValid, if_neg]
    · exact ih (start + 1) (by omega) (by rw [Nat.add_right_comm]; exact hrest)
    · intro hinvalid
      rcases hinvalid with hrange | hindex | hterm | hpayload
      · omega
      · exact hindex (Nat.zero_add start).symm
      · cases hterm
      · rw [sized_entry_valid hsize] at hpayload
        cases hpayload

theorem full_entries_valid : validateEntries fullEntries = .ok () := by
  have hlast : entriesValid 0 64 [sizedEntry 64 1047182] = true :=
    sized_entries_valid (by decide) 1 64 (by decide) rfl
  rw [fullEntries, cons_append, validateEntries, if_neg (by decide),
    if_pos (sized_entries_valid (by decide) 63 1 (by decide) hlast)]

theorem full_entries_forall {P : LogEntry → Prop}
    (hboundary : P { index := 0, term := 0, type := .noOp, command := [] })
    (hentry : ∀ index size, index ≤ 64 → size ≤ maximumCommandSize → P (sizedEntry index size)) :
    ∀ entry ∈ fullEntries, P entry := by
  intro entry hmem
  rw [fullEntries, cons_append, mem_cons, mem_append, mem_map,
    mem_singleton] at hmem
  rcases hmem with rfl | ⟨index, hindex, rfl⟩ | rfl
  · exact hboundary
  · exact hentry index _ (by rw [mem_range'_1] at hindex; omega) le_rfl
  · exact hentry 64 _ le_rfl (by decide)

theorem full_image_encodable : Encodable fullImage := by
  refine ⟨by decide, full_entries_valid, ?_, ?_⟩
  · show (fullEntries != [] && decide (0 ≤ lastIndex fullEntries)) = true
    simp [fullEntries]
  · refine full_entries_forall (Nat.zero_le _) fun index size _ hsize => ?_
    show (replicate size 0).length ≤ maximumCommandSize
    rw [length_replicate]
    exact hsize

theorem entries_size_sized (size : Nat) (indexes : List Nat) :
    entriesSize (indexes.map fun index => sizedEntry index size) =
      indexes.length * (21 + size) := by
  induction indexes with
  | nil => simp
  | cons index rest ih =>
    rw [map_cons, entries_size_cons, ih, length_cons, Nat.succ_mul]
    simp only [sizedEntry, length_replicate]
    omega

theorem fields_size_full_image : fieldsSize fullImage = maximumPayloadSize := by
  have hlast := entries_size_sized 1047182 [64]
  rw [map_singleton, length_singleton] at hlast
  have hentries : fullImage.entries = fullEntries := rfl
  rw [fieldsSize, hentries, fullEntries, entries_size_append, entries_size_cons,
    entries_size_sized, hlast, length_range']
  decide

theorem full_image_overflows : Overflows fullImage := by
  refine ⟨full_image_encodable, fields_size_full_image.le, _, rfl, ?_⟩
  rw [fields_size_full_image]
  decide

theorem full_image_fits : Fits fullImage := by
  refine ⟨by decide, by decide, full_entries_forall (by decide) fun index size hindex _ => ?_⟩
  exact ⟨lt_of_le_of_lt hindex (by decide), (by decide : 1 < 2 ^ 64)⟩

/-- A save of a full log succeeds, and the file cannot be loaded afterwards. -/
theorem full_image_unreadable :
    ∃ journal error, ({} : FileRaftPersistence).save fullImage = .ok journal ∧
      journal.load = .error error := by
  obtain ⟨following, hstep, hunreadable⟩ :=
    fresh_save_overflows full_image_fits full_image_overflows
  have hsave := step_save_journal hstep
  have hjournal : fresh.journal = {} := rfl
  rw [hjournal] at hsave
  cases hload : following.journal.load with
  | ok result => exact absurd (.inr ⟨result, hload⟩) hunreadable
  | error error => exact ⟨following.journal, error, hsave, hload⟩

end Logged

end DistributedKV
