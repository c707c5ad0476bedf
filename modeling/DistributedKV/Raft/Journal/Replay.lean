import DistributedKV.Foundation.EventRun
import DistributedKV.Raft.Journal.Records

/-!
# Replaying the journal

The file of a journal is a header and the records of a chain of states, whatever saves, loads and
cuts have led to it (`Logged.Run.represents`). So a load returns what was saved last, and a journal
that was cut is the one of the records before the cut (`journal_replay`).
-/

namespace DistributedKV

open ByteReader RaftJournal List

/-- A record in the file: where it starts and ends, and the state it was written for. -/
structure JournalMark where
  start : Nat
  finish : Nat
  state : RaftPersistentState
  deriving DecidableEq

namespace RaftJournal

/-! ## Marks -/

/-- Where the last record ends. -/
def lastFinish (marks : List JournalMark) : Nat :=
  (marks.getLast?.map JournalMark.finish).getD fileHeaderSize

/-- The state of the last record; it is empty when there is none. -/
def lastSaved (marks : List JournalMark) : RaftPersistentState :=
  (marks.getLast?.map JournalMark.state).getD {}

/-- The records that lie wholly before a cut. -/
def kept (size : Nat) (marks : List JournalMark) : List JournalMark :=
  marks.filter fun mark => decide (mark.finish ≤ size)

/-- The marks of records that stand one behind the other. -/
def marksOf : Nat → Written → List JournalMark
  | _, [] => []
  | start, (record, state) :: rest =>
    { start, finish := start + record.bytes.length, state } ::
      marksOf (start + record.bytes.length) rest

section Marks

variable {written before after : Written} {start size : Nat}

theorem marks_of_append (start : Nat) (before after : Written) :
    marksOf start (before ++ after) =
      marksOf start before ++ marksOf (start + (recordsBytes before).length) after := by
  induction before generalizing start with
  | nil => rfl
  | cons item rest ih =>
    rw [cons_append, marksOf, ih, marksOf, records_bytes_cons, length_append,
      ← Nat.add_assoc]
    rfl

theorem last_saved_marks_of (start : Nat) (written : Written) :
    lastSaved (marksOf start written) = lastOf {} written := by
  induction written using reverseRecOn with
  | nil => rfl
  | append_singleton before item =>
    rw [marks_of_append, last_of_concat]
    simp [marksOf, lastSaved]

theorem last_finish_marks_of (written : Written) :
    lastFinish (marksOf fileHeaderSize written) =
      fileHeaderSize + (recordsBytes written).length := by
  induction written using reverseRecOn with
  | nil => rfl
  | append_singleton before item =>
    rw [marks_of_append, records_bytes_append, length_append, ← Nat.add_assoc]
    simp [marksOf, lastFinish, recordsBytes]

theorem start_lt_finish {mark : JournalMark} (hmark : mark ∈ marksOf start written) :
    start < mark.finish := by
  induction written generalizing start with
  | nil => cases hmark
  | cons item rest ih =>
    have hlength := length_bytes item.1
    rcases mem_cons.mp hmark with rfl | hrest
    · simp only [recordHeaderSize] at hlength
      dsimp only
      omega
    · have := ih hrest
      omega

/-- The marks that are kept are those of the whole records. -/
theorem Cut.kept (hcut : Cut written (size - start) before after) (hsize : start ≤ size) :
    kept size (marksOf start written) = marksOf start before := by
  rw [hcut.split, marks_of_append, RaftJournal.kept, filter_append]
  have hwhole := hcut.whole
  have hbefore : ∀ mark ∈ marksOf start before, mark.finish ≤ size := by
    clear hcut
    induction before generalizing start with
    | nil => intro mark hmark; cases hmark
    | cons item rest ih =>
      rw [records_bytes_cons, length_append] at hwhole
      intro mark hmark
      rcases mem_cons.mp hmark with rfl | hrest
      · dsimp only
        omega
      · exact ih (by omega) (by omega) mark hrest
  have hafter : ∀ mark ∈ marksOf (start + (recordsBytes before).length) after,
      ¬ mark.finish ≤ size := by
    intro mark hmark
    cases after with
    | nil => cases hmark
    | cons item rest =>
      have htorn := hcut.torn item.1 item.2 rest rfl
      rcases mem_cons.mp hmark with rfl | hrest
      · dsimp only
        omega
      · have := start_lt_finish hrest
        omega
  rw [filter_eq_self.mpr (by simpa using hbefore),
    filter_eq_nil_iff.mpr (by simpa using hafter), append_nil]

theorem small_iff (start : Nat) (written : Written) :
    Small written ↔ ∀ mark ∈ marksOf start written,
      mark.finish ≤ mark.start + (recordHeaderSize + maximumPayloadSize) := by
  induction written generalizing start with
  | nil => simp [Small, marksOf]
  | cons item rest ih =>
    obtain ⟨record, state⟩ := item
    have hrest := ih (start + record.bytes.length)
    simp only [Small, marksOf, mem_cons, forall_eq_or_imp, length_bytes] at hrest ⊢
    rw [hrest]
    refine and_congr_left fun _ => ?_
    omega

end Marks

end RaftJournal

/-! ## Loading and saving -/

namespace FileRaftPersistence

/-- The limits with which the journal opens. -/
def Limits (journal : FileRaftPersistence) : Prop :=
  journal.maximumDeltaRecords ≠ 0 ∧
    fileHeaderSize + recordHeaderSize ≤ journal.maximumFileBytes

/-- Cut the file and open it again. -/
def cut (journal : FileRaftPersistence) (size : Nat) : FileRaftPersistence :=
  { journal.reopened with file := journal.file.take size }

/-- The journal after a load. -/
def loaded (journal : FileRaftPersistence) (replay : Replay) : FileRaftPersistence :=
  { journal with
    isOpen := true
    file := journal.file.take replay.offset
    fileSize := replay.offset
    deltaRecordCount := replay.deltaRecordCount
    lastState := if replay.latest.entries = [] then none else some replay.latest }

/-- The file is a header with some bytes behind it, or it does not exist yet. -/
structure Holds (journal : FileRaftPersistence) (bytes : Bytes) : Prop where
  limits : journal.file ≠ [] → journal.Limits
  file : journal.file = fileHeader ++ bytes ∨
    (journal.file = [] ∧ journal.isOpen = false ∧ bytes = [])

variable {journal opened : FileRaftPersistence} {bytes : Bytes}

theorem header_valid (bytes : Bytes) :
    ¬ (fileHeader ++ bytes).length < fileHeaderSize ∧
      ¬ ((fileHeader ++ bytes).take 8 ≠ fileMagic ∨ wordAt 8 4 (fileHeader ++ bytes) ≠ version ∨
        wordAt 12 4 (fileHeader ++ bytes) ≠ 0) := by
  constructor
  · rw [length_append, show fileHeader.length = fileHeaderSize from rfl]
    omega
  · rintro (h | h | h) <;> exact h rfl

theorem header_ne_nil (bytes : Bytes) : fileHeader ++ bytes ≠ [] := List.cons_ne_nil _ _

/-- Opening checks limits and header, and changes nothing else. -/
theorem Holds.open_locked (hholds : journal.Holds bytes) :
    (¬ journal.Limits ∧ ∃ error, journal.openLocked = .error error) ∨
      (journal.Limits ∧ ∃ size, journal.openLocked = .ok { journal with
        file := fileHeader ++ bytes, isOpen := true, fileSize := size }) := by
  rw [openLocked]
  by_cases hopen : journal.isOpen = true
  · rcases hholds.file with hfile | ⟨-, hclosed, -⟩
    · refine .inr ⟨hholds.limits (by rw [hfile]; exact header_ne_nil bytes), journal.fileSize, ?_⟩
      rw [if_pos hopen, ← hfile, ← hopen]
    · rw [hclosed] at hopen
      cases hopen
  rw [if_neg hopen]
  by_cases hlimits : journal.Limits
  · refine .inr ⟨hlimits, (fileHeader ++ bytes).length, ?_⟩
    have hfile : (if journal.file = [] then fileHeader else journal.file) = fileHeader ++ bytes := by
      rcases hholds.file with hfile | ⟨hempty, -, rfl⟩
      · rw [hfile, if_neg (header_ne_nil bytes)]
      · rw [if_pos hempty, append_nil]
    obtain ⟨hlong, hheader⟩ := header_valid bytes
    have hallowed : ¬ (journal.maximumDeltaRecords = 0 ∨
        journal.maximumFileBytes < fileHeaderSize + recordHeaderSize) := by
      obtain ⟨hdeltas, hbytes⟩ := hlimits
      omega
    rw [if_neg hallowed]
    dsimp only
    rw [hfile, if_neg hlong, if_neg hheader]
  · refine .inl ⟨hlimits, "invalid Raft journal path or compaction limits", if_pos ?_⟩
    rw [Limits, not_and_or, not_not, not_le] at hlimits
    exact hlimits

theorem Holds.load (hholds : journal.Holds bytes) (hlimits : journal.Limits) :
    journal.load =
      match replay bytes {} with
      | .error error => .error error
      | .ok replay =>
        .ok (replay.latest, { journal with file := fileHeader ++ bytes }.loaded replay) := by
  rcases hholds.open_locked with ⟨hnot, -⟩ | ⟨-, size, hopen⟩
  · exact absurd hlimits hnot
  rw [FileRaftPersistence.load, hopen]
  dsimp only
  have hdrop : (fileHeader ++ bytes).drop fileHeaderSize = bytes := drop_left' rfl
  have hrounds : replayLoop (fileHeader ++ bytes).length bytes {} = replay bytes {} :=
    replay_loop_rounds {} (by rw [length_append]; omega) le_rfl
  rw [hdrop, hrounds]
  cases replay bytes {} with
  | error error => rfl
  | ok replay => rfl

theorem Holds.limits_of_load (hholds : journal.Holds bytes)
    {result : RaftPersistentState × FileRaftPersistence} (hload : journal.load = .ok result) :
    journal.Limits := by
  rcases hholds.open_locked with ⟨-, error, hopen⟩ | ⟨hlimits, -⟩
  · rw [FileRaftPersistence.load, hopen] at hload
    cases hload
  · exact hlimits

theorem Holds.cut (hholds : journal.Holds bytes) {size : Nat} (hsize : fileHeaderSize ≤ size) :
    (journal.cut size).Holds (bytes.take (size - fileHeaderSize)) := by
  refine ⟨fun hfile => hholds.limits fun hempty => hfile ?_, ?_⟩
  · show journal.file.take size = []
    rw [hempty, take_nil]
  · rcases hholds.file with hfile | ⟨hempty, -, rfl⟩
    · left
      show journal.file.take size = _
      rw [hfile, take_append, take_of_length_le hsize]
      rfl
    · exact .inr ⟨by show journal.file.take size = []; rw [hempty, take_nil], rfl, take_nil⟩

end FileRaftPersistence

/-! ## Runs of a journal -/

/-- A journal with the records in its file. -/
structure Logged where
  journal : FileRaftPersistence
  marks : List JournalMark

/-- What happens to a journal: a save, a load, a new object for the file, or a cut after which the
file is opened and loaded again. -/
inductive JournalAction where
  | save (state : RaftPersistentState)
  | load
  | reopen
  | cut (size : Nat)

namespace Logged

/-- One action, when it succeeds. A save that compacts leaves its own record only. -/
def step (logged : Logged) : JournalAction → Option Logged
  | .save state =>
    match logged.journal.appendRecord state, logged.journal.save state with
    | .ok appended, .ok journal =>
      if appended.needsCompaction then
        some { journal, marks := [⟨fileHeaderSize, journal.file.length, state⟩] }
      else
        some { journal, marks := logged.marks ++
          [⟨lastFinish logged.marks, journal.file.length, state⟩] }
    | _, _ => none
  | .load =>
    match logged.journal.load with
    | .error _ => none
    | .ok (_, journal) => some { logged with journal }
  | .reopen => some { logged with journal := logged.journal.reopened }
  | .cut size =>
    if size < fileHeaderSize then none
    else
      match (logged.journal.cut size).load with
      | .error _ => none
      | .ok (_, journal) => some { journal, marks := kept size logged.marks }

/-- A new journal for a file that does not exist yet. -/
def Initial (logged : Logged) : Prop :=
  ∃ maximumDeltaRecords maximumFileBytes,
    logged = { journal := { maximumDeltaRecords, maximumFileBytes }, marks := [] }

/-- One action; the words of a state that is saved fit into 64 bits. -/
def Next (logged following : Logged) : Prop :=
  ∃ action, (∀ state, action = .save state → Fits state) ∧ logged.step action = some following

/-- A run of a journal in which all saves and loads succeed. -/
abbrev Run (run : Nat → Logged) : Prop := EventRun.Run Initial Next run

/-- The file holds a chain of records, and the marks are theirs. -/
structure Represents (logged : Logged) (written : Written) : Prop where
  holds : logged.journal.Holds (recordsBytes written)
  marks : logged.marks = marksOf fileHeaderSize written
  chain : Chain {} written
  last : ∀ state, logged.journal.lastState = some state → state = lastOf {} written

variable {logged following : Logged} {written : Written}

theorem start_latest : ({} : Replay).latest = {} := rfl

/-- A journal after replaying a chain represents it. -/
theorem represents_loaded {journal : FileRaftPersistence} {bytes : Bytes}
    (hlimits : journal.Limits) (hfile : journal.file = fileHeader ++ bytes)
    (hbegins : recordsBytes written <+: bytes) (hchain : Chain {} written) :
    Represents
      { journal := journal.loaded (({} : Replay).after written)
        marks := marksOf fileHeaderSize written } written := by
  obtain ⟨rest, rfl⟩ := hbegins
  have hoffset : (({} : Replay).after written).offset =
      (fileHeader ++ recordsBytes written).length := by
    rw [after_offset, length_append]
    rfl
  refine ⟨⟨fun _ => hlimits, .inl ?_⟩, rfl, hchain, fun state hstate => ?_⟩
  · show journal.file.take _ = _
    rw [hfile, ← append_assoc, hoffset, take_left]
  · have hlast : (if (({} : Replay).after written).latest.entries = [] then none
        else some (({} : Replay).after written).latest) = some state := hstate
    split_ifs at hlast
    rw [← Option.some.inj hlast, after_latest]

theorem Represents.load (hrepresents : logged.Represents written)
    (hlimits : logged.journal.Limits) (hsmall : Small written) :
    logged.journal.load = .ok (lastOf {} written,
      { logged.journal with file := fileHeader ++ recordsBytes written }.loaded
        (({} : Replay).after written)) := by
  have hreplay := replay_chain hrepresents.chain hsmall start_latest []
  rw [append_nil, replay_nil] at hreplay
  rw [hrepresents.holds.load hlimits, hreplay]
  dsimp only
  rw [after_latest]

variable {result : RaftPersistentState × FileRaftPersistence} {state : RaftPersistentState}

theorem Represents.small_of_load (hrepresents : logged.Represents written)
    (hload : logged.journal.load = .ok result) : Small written := by
  rw [hrepresents.holds.load (hrepresents.holds.limits_of_load hload)] at hload
  cases hreplay : replay (recordsBytes written) {} with
  | error error =>
    rw [hreplay] at hload
    cases hload
  | ok reached =>
    rw [← append_nil (recordsBytes written)] at hreplay
    exact small_of_replay hrepresents.chain start_latest hreplay

theorem Represents.step_load (hrepresents : logged.Represents written)
    (hload : logged.journal.load = .ok result) :
    Represents { logged with journal := result.2 } written := by
  have hlimits := hrepresents.holds.limits_of_load hload
  have hsmall := hrepresents.small_of_load hload
  rw [hrepresents.load hlimits hsmall] at hload
  cases hload
  rw [hrepresents.marks]
  exact represents_loaded hlimits rfl prefix_rfl hrepresents.chain

/-- Loading a cut file leads to the whole records. -/
theorem Represents.load_cut (hrepresents : logged.Represents written)
    (hlimits : logged.journal.Limits) {size : Nat} (hsize : fileHeaderSize ≤ size)
    {before after : Written} (hcut : Cut written (size - fileHeaderSize) before after)
    (hreplay : replay ((recordsBytes written).take (size - fileHeaderSize)) {} =
      .ok (({} : Replay).after before)) :
    (logged.journal.cut size).load = .ok (lastOf {} before,
      { logged.journal.reopened with file := fileHeader ++ recordsBytes before }.loaded
        (({} : Replay).after before)) := by
  rw [(hrepresents.holds.cut hsize).load hlimits, hreplay]
  dsimp only
  rw [after_latest]
  have hoffset : (({} : Replay).after before).offset =
      (fileHeader ++ recordsBytes before).length := by
    rw [after_offset, length_append]
    rfl
  obtain ⟨rest, hrest⟩ := hcut.starts
  simp only [FileRaftPersistence.loaded, FileRaftPersistence.cut]
  rw [← hrest, ← append_assoc, hoffset, take_left, take_length]

/-- A load after a cut leaves a journal of whole records. -/
theorem Represents.step_cut (hrepresents : logged.Represents written) {size : Nat}
    (hsize : fileHeaderSize ≤ size) (hload : (logged.journal.cut size).load = .ok result) :
    ∃ before : Written, Small before ∧
      Represents { journal := result.2, marks := kept size logged.marks } before := by
  have hholds := hrepresents.holds.cut hsize
  have hlimits : logged.journal.Limits := hholds.limits_of_load hload
  obtain ⟨before, after, hcut⟩ := exists_cut written (size - fileHeaderSize)
  have hchain := hrepresents.chain
  rw [hcut.split, chain_append] at hchain
  have hloaded := hload
  rw [hholds.load hlimits] at hloaded
  cases hreplay : replay ((recordsBytes written).take (size - fileHeaderSize)) {} with
  | error error =>
    rw [hreplay] at hloaded
    cases hloaded
  | ok reached =>
    have hsmall : Small before := by
      obtain ⟨rest, hrest⟩ := hcut.starts
      rw [← hrest] at hreplay
      exact small_of_replay hchain.1 start_latest hreplay
    rcases hcut.replay hrepresents.chain start_latest hsmall with hafter | ⟨-, error, herror⟩
    · rw [hrepresents.load_cut hlimits hsize hcut hafter] at hload
      cases hload
      rw [hrepresents.marks, hcut.kept hsize]
      exact ⟨before, hsmall, represents_loaded hlimits rfl prefix_rfl hchain.1⟩
    · rw [hreplay] at herror
      cases herror

/-- The record of a save continues the last state. -/
theorem record_of {journal : FileRaftPersistence} {latest : RaftPersistentState}
    {record : JournalRecord} (hfits : Fits state)
    (hlast : ∀ state, journal.lastState = some state → state = latest)
    (hrecord : journal.record state = .ok record) : RecordOf latest record state := by
  have hfull : FileRaftPersistence.fullRecord state = .ok record →
      RecordOf latest record state := by
    intro hfull
    obtain ⟨payload, hencode, hfull⟩ := Barrier.except_bind_eq_ok.mp hfull
    cases hfull
    exact .full hfits hencode
  rw [FileRaftPersistence.record] at hrecord
  split at hrecord
  · exact hfull hrecord
  rename_i previous hprevious
  rw [hlast previous hprevious] at hrecord
  split at hrecord
  · rename_i hdelta
    obtain ⟨-, -, -, hsame⟩ := hdelta
    obtain ⟨payload, hencode, hrecord⟩ := Barrier.except_bind_eq_ok.mp hrecord
    cases hrecord
    exact .delta hfits hsame hencode
  · exact hfull hrecord

section Appending

variable (hrepresents : logged.Represents written)
include hrepresents

theorem Represents.append_record (hfits : Fits state)
    {appended : FileRaftPersistence} (happend : logged.journal.appendRecord state = .ok appended) :
    ∃ record, appended.Limits ∧ RecordOf (lastOf {} written) record state ∧
      appended.file = fileHeader ++ recordsBytes (written ++ [(record, state)]) ∧
      appended.lastState = some state := by
  obtain ⟨opened, hopen, happend⟩ := Barrier.except_bind_eq_ok.mp happend
  obtain ⟨record, hrecord, happend⟩ := Barrier.except_bind_eq_ok.mp happend
  rcases hrepresents.holds.open_locked with ⟨-, error, herror⟩ | ⟨hlimits, size, hopened⟩
  · rw [hopen] at herror
    cases herror
  · rw [hopen] at hopened
    cases hopened
    cases happend
    refine ⟨record, hlimits, record_of hfits hrepresents.last hrecord, ?_, rfl⟩
    rw [records_bytes_append, ← append_assoc]
    simp [recordsBytes]

/-- A save continues the chain or starts it again. -/
theorem Represents.step_save (hfits : Fits state)
    (hstep : logged.step (.save state) = some following) :
    ∃ before record, (before = written ∨ before = []) ∧
      following.Represents (before ++ [(record, state)]) := by
  rw [step] at hstep
  split at hstep
  · rename_i appended journal happend hsave
    obtain ⟨record, hlimits, hrecord, hfile, hlast⟩ := hrepresents.append_record hfits happend
    rw [FileRaftPersistence.save] at hsave
    obtain ⟨same, hsame, hsave⟩ := Barrier.except_bind_eq_ok.mp hsave
    cases happend.symm.trans hsame
    split at hstep
    · rename_i hcompact
      cases hstep
      rw [if_pos hcompact] at hsave
      obtain ⟨payload, hencode, hsave⟩ := Barrier.except_bind_eq_ok.mp hsave
      cases hsave
      have hbytes : JournalRecord.bytes { kind := .full, payload } =
          recordsBytes [({ kind := .full, payload }, state)] := by
        simp [recordsBytes]
      refine ⟨[], { kind := .full, payload }, .inr rfl, ⟨fun _ => hlimits, .inl ?_⟩, ?_,
        ⟨.full hfits hencode, trivial⟩, fun saved hsaved => ?_⟩
      · exact congrArg (fileHeader ++ ·) hbytes
      · rw [nil_append, marksOf, marksOf, length_append]
        rfl
      · dsimp only at hsaved
        rw [hlast] at hsaved
        exact (Option.some.inj hsaved).symm
    · rename_i hcompact
      cases hstep
      rw [if_neg hcompact] at hsave
      cases hsave
      refine ⟨written, record, .inl rfl, ⟨fun _ => hlimits, .inl hfile⟩, ?_,
        chain_append.mpr ⟨hrepresents.chain, hrecord, trivial⟩, fun saved hsaved => ?_⟩
      · dsimp only
        rw [hfile, hrepresents.marks, marks_of_append, last_finish_marks_of, marksOf, marksOf,
          length_append, records_bytes_append, length_append, Nat.add_assoc]
        simp [recordsBytes]
        rfl
      · dsimp only at hsaved
        rw [hlast] at hsaved
        rw [last_of_concat]
        exact (Option.some.inj hsaved).symm
  · cases hstep

theorem Represents.step_reopen :
    Represents { logged with journal := logged.journal.reopened } written := by
  refine ⟨⟨hrepresents.holds.limits, ?_⟩, hrepresents.marks, hrepresents.chain,
    fun state hstate => by cases hstate⟩
  rcases hrepresents.holds.file with hfile | ⟨hempty, -, hnothing⟩
  · exact .inl hfile
  · exact .inr ⟨hempty, rfl, hnothing⟩

/-- The other actions keep the payloads readable. -/
theorem Represents.step_other {action : JournalAction}
    (hother : ∀ state, action ≠ .save state) (hstep : logged.step action = some following) :
    ∃ next, following.Represents next ∧ (Small written → Small next) := by
  cases action with
  | save state => exact absurd rfl (hother state)
  | load =>
    rw [Logged.step] at hstep
    split at hstep
    · cases hstep
    · rename_i state journal hload
      cases hstep
      exact ⟨written, hrepresents.step_load hload, id⟩
  | reopen =>
    cases hstep
    exact ⟨written, hrepresents.step_reopen, id⟩
  | cut size =>
    rw [Logged.step] at hstep
    split at hstep
    · cases hstep
    rename_i hsize
    split at hstep
    · cases hstep
    · rename_i state journal hload
      cases hstep
      obtain ⟨before, hsmall, hbefore⟩ := hrepresents.step_cut (not_lt.mp hsize) hload
      exact ⟨before, hbefore, fun _ => hsmall⟩

theorem Represents.step (hnext : Next logged following) : ∃ next, following.Represents next := by
  obtain ⟨action, hfits, hstep⟩ := hnext
  by_cases hsave : ∃ state, action = .save state
  · obtain ⟨state, rfl⟩ := hsave
    obtain ⟨before, record, -, hnext⟩ := hrepresents.step_save (hfits state rfl) hstep
    exact ⟨_, hnext⟩
  · obtain ⟨next, hnext, -⟩ := hrepresents.step_other (not_exists.mp hsave) hstep
    exact ⟨next, hnext⟩

end Appending

theorem Run.represents {run : Nat → Logged} (hrun : Run run) (k : Nat) :
    ∃ written, (run k).Represents written := by
  have hinitial : ∀ logged, Initial logged → ∃ written, logged.Represents written := by
    rintro logged ⟨deltas, bytes, rfl⟩
    exact ⟨[], ⟨fun hfile => absurd rfl hfile, .inr ⟨rfl, rfl, rfl⟩⟩, rfl, trivial,
      fun state hstate => by cases hstate⟩
  have hnext : ∀ logged following, Next logged following →
      (∃ written, logged.Represents written) → ∃ written, following.Represents written := by
    rintro logged following hnext ⟨written, hwritten⟩
    exact hwritten.step hnext
  exact hrun.invariant hinitial hnext k

/-- In every run, when no record in the file is too long, a load returns what was saved last. When
the file is cut behind its header, a load returns what was saved last before the cut, and leaves
the journal that has only the records before it. -/
theorem journal_replay {run : Nat → Logged} (hrun : Run run) (k : Nat)
    (hfile : (run k).journal.file ≠ [])
    (hsizes : ∀ mark ∈ (run k).marks,
      mark.finish ≤ mark.start + (recordHeaderSize + maximumPayloadSize)) :
    (∃ journal, (run k).journal.load = .ok (lastSaved (run k).marks, journal)) ∧
      ∀ size, fileHeaderSize ≤ size →
        (∃ journal, ((run k).journal.cut size).load =
          .ok (lastSaved (kept size (run k).marks), journal)) ∧
        ((run k).journal.cut size).load =
          ((run k).journal.cut (lastFinish (kept size (run k).marks))).load := by
  obtain ⟨written, hrepresents⟩ := hrun.represents k
  have hlimits := hrepresents.holds.limits hfile
  rw [hrepresents.marks] at hsizes ⊢
  have hsmall : Small written := (small_iff fileHeaderSize written).mpr hsizes
  refine ⟨⟨_, by rw [hrepresents.load hlimits hsmall, last_saved_marks_of]⟩, fun size hsize => ?_⟩
  have hloads : ∀ size before after, fileHeaderSize ≤ size →
      Cut written (size - fileHeaderSize) before after →
      ((run k).journal.cut size).load = .ok (lastOf {} before,
        { (run k).journal.reopened with file := fileHeader ++ recordsBytes before }.loaded
          (({} : Replay).after before)) := by
    intro size before after hsize hcut
    have hbefore : Small before := fun item hitem =>
      hsmall item (by rw [hcut.split]; exact mem_append_left _ hitem)
    rcases hcut.replay hrepresents.chain start_latest hbefore with hreplay | ⟨hlarge, -⟩
    · exact hrepresents.load_cut hlimits hsize hcut hreplay
    · exact absurd hsmall hlarge
  obtain ⟨before, after, hcut⟩ := exists_cut written (size - fileHeaderSize)
  rw [hcut.kept hsize, last_saved_marks_of, last_finish_marks_of]
  refine ⟨⟨_, hloads size before after hsize hcut⟩, ?_⟩
  -- cutting where the last whole record ends leaves the same records whole
  have hsame : Cut written (fileHeaderSize + (recordsBytes before).length - fileHeaderSize)
      before after := by
    rw [Nat.add_sub_cancel_left]
    refine ⟨hcut.split, le_rfl, fun record state rest hafter => ?_⟩
    rw [length_bytes, recordHeaderSize]
    omega
  rw [hloads size before after hsize hcut, hloads _ before after (by omega) hsame]

end Logged

/-! ### A whole state and a delta -/

/-- The image of a node of term 1 with an empty log. -/
def firstImage : RaftPersistentState where
  currentTerm := 1
  entries := [{ index := 0, term := 0, type := .noOp, command := [] }]

/-- The image of the node after it has voted and committed a no-op. -/
def secondImage : RaftPersistentState where
  currentTerm := 1
  votedFor := some 1
  entries := [{ index := 0, term := 0, type := .noOp, command := [] },
    { index := 1, term := 1, type := .noOp, command := [] }]
  commitIndex := 1

/-- The journal after saving the first image and then the second one. -/
def twoSaves (k : Nat) : Logged :=
  EventRun.execute Logged.step ([.save firstImage, .save secondImage].take k)
    { journal := {}, marks := [] }

theorem two_saves_run : Logged.Run twoSaves := by
  refine EventRun.Run.of_events ⟨_, _, rfl⟩ ?_
  have hfirst : Fits firstImage := ⟨by decide, by decide, by decide⟩
  have hsecond : Fits secondImage := ⟨by decide, by decide, by decide⟩
  intro action haction state hstate
  subst hstate
  simp only [mem_cons, JournalAction.save.injEq, not_mem_nil, or_false] at haction
  rcases haction with rfl | rfl
  · exact hfirst
  · exact hsecond

/-- A load returns the second image; when the file has lost a byte, it returns the first one. -/
theorem journal_replay_two_saves :
    (∃ journal, (twoSaves 2).journal.load = .ok (secondImage, journal)) ∧
      ∃ journal, ((twoSaves 2).journal.cut ((twoSaves 2).journal.file.length - 1)).load =
        .ok (firstImage, journal) := by
  obtain ⟨hload, hcut⟩ := Logged.journal_replay two_saves_run 2 (by decide +kernel)
    (by decide +kernel)
  have hsaved : lastSaved (twoSaves 2).marks = secondImage := by decide +kernel
  have hkept : lastSaved (kept ((twoSaves 2).journal.file.length - 1) (twoSaves 2).marks) =
      firstImage := by decide +kernel
  rw [hsaved] at hload
  obtain ⟨journal, hbefore⟩ :=
    (hcut ((twoSaves 2).journal.file.length - 1) (by decide +kernel)).1
  rw [hkept] at hbefore
  exact ⟨hload, journal, hbefore⟩

end DistributedKV
