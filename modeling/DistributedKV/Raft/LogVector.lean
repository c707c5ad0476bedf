import DistributedKV.Foundation.Barrier
import DistributedKV.Raft.RaftLogFacts

/-!
# The vector behind the log

`RaftLog` is a type of logs whose entries are contiguous. Here is the vector `entries_` of
`src/raft/raft_log.cpp` without that knowledge: indexes are words that wrap around, offsets are
differences of indexes, and an operation that fails leaves the vector as it is where it fails. The
vectors that the operations lead to are the entries of a `RaftLog` (`Reached.log`), and the
operations do to them what those of `RaftLog` do.
-/

namespace DistributedKV

open Barrier List RaftLog

namespace LogVector

/-! ## The operations -/

/-- Operations on the vector. -/
abbrev VectorM := EStateM String (List LogEntry)

/-- The index of the front. -/
def firstIndex (entries : List LogEntry) : Nat := (entries.head?.map LogEntry.index).getD 0

/-- The index of the back. -/
def lastIndex (entries : List LogEntry) : Nat := (entries.getLast?.map LogEntry.index).getD 0

/-- The position of an index. -/
def offsetOf (entries : List LogEntry) (index : Nat) : Option Nat :=
  if index < firstIndex entries ∨ lastIndex entries < index then none
  else
    let offset := index - firstIndex entries
    if entries.length ≤ offset then none else some offset

/-- The entry at an index. -/
def entryAt (entries : List LogEntry) (index : Nat) : Option LogEntry :=
  offsetOf entries index >>= fun offset => entries[offset]?

/-- The term at an index. -/
def termAt (entries : List LogEntry) (index : Nat) : Option Nat :=
  (entryAt entries index).map LogEntry.term

/-- The vector of a new log. -/
def initial : List LogEntry := [{ index := 0, term := 0, type := .noOp, command := [] }]

/-- Append an entry at the next index, which is a word. -/
def append (term : Nat) (type : EntryType) (command : Bytes) : VectorM Nat := do
  let entries ← get
  let entry : LogEntry := { index := (lastIndex entries + 1) % 2 ^ 64, term, type, command }
  set (entries ++ [entry])
  pure entry.index

/-- Erase everything from an index on. The source dereferences the offset, so that there has to be
one. -/
def truncateFrom (index : Nat) : VectorM Unit := do
  let entries ← get
  match offsetOf entries index with
  | none => throw "undefined: no offset"
  | some offset => set (entries.take offset)

/-- The validation loop of `appendFrom`, with an expected index that wraps around. -/
def incomingValid : Nat → List LogEntry → Bool
  | _, [] => true
  | expected, entry :: rest =>
    if entry.index ≠ expected ∨ entry.index = 0 ∨ entry.term = 0 then false
    else incomingValid ((expected + 1) % 2 ^ 64) rest

/-- The second loop of `appendFrom` and the insertion behind it. -/
def mergeFrom : List LogEntry → VectorM Unit
  | [] => pure ()
  | entry :: rest => do
      let entries ← get
      if lastIndex entries < entry.index then set (entries ++ entry :: rest)
      else
        match entryAt entries entry.index with
        | none => throw "undefined: no offset"
        | some present =>
          if present.term ≠ entry.term then do
            truncateFrom entry.index
            modify fun kept => kept ++ entry :: rest
          else if present ≠ entry then
            throw "same Raft index and term contain different payloads"
          else mergeFrom rest

/-- Replace what stands behind an index by the incoming entries, keeping what is there already. -/
def appendFrom (previousIndex : Nat) (incoming : List LogEntry) : VectorM Unit := do
  let entries ← get
  if (offsetOf entries previousIndex).isNone then throw "previous log index is absent"
  else if incoming = [] then pure ()
  else if previousIndex = uint64Max then throw "log index space exhausted"
  else if incomingValid (previousIndex + 1) incoming = false then
    throw "incoming Raft entries are not contiguous and valid"
  else mergeFrom incoming

/-- Drop everything before an index and make it the boundary. -/
def compactTo (boundaryIndex boundaryTerm : Nat) : VectorM Unit := do
  let entries ← get
  match offsetOf entries boundaryIndex with
  | none => throw "compaction boundary is absent or has a different term"
  | some offset =>
    if (entries[offset]?.map LogEntry.term) ≠ some boundaryTerm ∨
        (boundaryIndex = 0 ∧ boundaryTerm ≠ 0) ∨ (boundaryIndex ≠ 0 ∧ boundaryTerm = 0) then
      throw "compaction boundary is absent or has a different term"
    else
      let boundary : LogEntry :=
        { index := boundaryIndex, term := boundaryTerm, type := .noOp, command := [] }
      set (boundary :: entries.drop (offset + 1))

/-- The loop of `restore` over the entries behind the front. -/
def restoreValid (base : Nat) : Nat → List LogEntry → Bool
  | _, [] => true
  | position, entry :: rest =>
    if uint64Max - position < base ∨ entry.index ≠ base + position ∨
        RaftLog.entryValid entry = false then false
    else restoreValid base (position + 1) rest

/-- Replace the vector by a persistent one. -/
def restore (persistent : List LogEntry) : VectorM Unit :=
  match persistent with
  | [] => throw "persistent Raft log has invalid boundary"
  | boundary :: rest =>
    if RaftLog.boundaryValid boundary = false then
      throw "persistent Raft log has invalid boundary"
    else if restoreValid boundary.index 1 rest = false then
      throw "persistent Raft log is not contiguous and valid"
    else set persistent

/-- The operations that change the vector. -/
inductive Action where
  | append (term : Nat) (type : EntryType) (command : Bytes)
  | appendFrom (previousIndex : Nat) (incoming : List LogEntry)
  | compactTo (boundaryIndex boundaryTerm : Nat)
  | restore (persistent : List LogEntry)

/-- Perform an operation. -/
def perform : Action → VectorM Unit
  | .append term type command => do
      let _ ← append term type command
      pure ()
  | .appendFrom previousIndex incoming => appendFrom previousIndex incoming
  | .compactTo boundaryIndex boundaryTerm => compactTo boundaryIndex boundaryTerm
  | .restore persistent => restore persistent

/-- The vector after an operation, whether it has succeeded or not. -/
def after (entries : List LogEntry) (action : Action) : List LogEntry :=
  match perform action entries with
  | .ok _ final => final
  | .error _ final => final

/-- The indexes of some entries are words. -/
def Words (entries : List LogEntry) : Prop := ∀ entry ∈ entries, entry.index ≤ uint64Max

/-- The vectors that operations lead to, when nothing is appended behind the greatest index. -/
inductive Reached : List LogEntry → Prop where
  | initial : Reached initial
  | step {entries : List LogEntry} (action : Action) (hreached : Reached entries)
      (hroom : ∀ term type command, action = .append term type command →
        lastIndex entries < uint64Max)
      (hwords : ∀ persistent, action = .restore persistent → Words persistent) :
      Reached (after entries action)

/-! ## What they do to the entries of a log -/

section Entries

variable (log : RaftLog) {index : Nat}

@[simp] theorem first_index_entries : firstIndex log.entries = log.firstIndex := rfl

@[simp] theorem last_index_entries : lastIndex log.entries = log.lastIndex := by
  rw [lastIndex, entries, getLast?_cons]
  rfl

@[simp] theorem offset_of_entries (index : Nat) :
    offsetOf log.entries index = log.offsetOf index := by
  rw [offsetOf, RaftLog.offsetOf, first_index_entries, last_index_entries]

@[simp] theorem entry_at_entries (index : Nat) : entryAt log.entries index = log.entryAt index := by
  rw [entryAt, RaftLog.entryAt, offset_of_entries]

@[simp] theorem term_at_entries (index : Nat) : termAt log.entries index = log.termAt index := by
  rw [termAt, RaftLog.termAt, entry_at_entries]

theorem contiguous_entries : ContiguousFrom log.firstIndex log.entries := ⟨rfl, log.contiguous⟩

theorem Words.last_index_le {log : RaftLog} (hwords : Words log.entries) :
    log.lastIndex ≤ uint64Max := by
  have hsome : (log.entryAt log.lastIndex).isSome :=
    (log.entry_at_is_some log.lastIndex).mpr ⟨by have := log.last_index_eq; omega, le_rfl⟩
  obtain ⟨entry, hentry⟩ := Option.isSome_iff_exists.mp hsome
  rw [← log.entry_at_index hentry]
  exact hwords entry (log.entry_at_mem hentry)

theorem append_entries (hroom : log.lastIndex < uint64Max) (term : Nat) (type : EntryType)
    (command : Bytes) :
    append term type command log.entries =
      .ok (log.lastIndex + 1) (log.append term type command).entries := by
  have hword : (lastIndex log.entries + 1) % 2 ^ 64 = log.lastIndex + 1 := by
    rw [uint64Max] at hroom
    rw [last_index_entries, Nat.mod_eq_of_lt (by omega)]
  rw [append, get_bind, hword]
  rfl

end Entries

/-! ## Merging -/

variable {entries : List LogEntry}

section Merge

variable {log : RaftLog} {incoming : List LogEntry}

/-- Wrapping around, the validation accepts words only. -/
theorem incoming_valid_iff {expected : Nat} (hexpected : expected ≤ uint64Max) :
    incomingValid expected incoming = true ↔
      RaftLog.incomingValid expected incoming = true ∧ Words incoming := by
  induction incoming generalizing expected with
  | nil => simp [incomingValid, RaftLog.incomingValid, Words]
  | cons entry rest ih =>
    rw [Words, incomingValid, RaftLog.incomingValid, forall_mem_cons]
    by_cases hinvalid : entry.index ≠ expected ∨ entry.index = 0 ∨ entry.term = 0
    · rw [if_pos hinvalid, if_pos hinvalid]
      simp
    rw [if_neg hinvalid, if_neg hinvalid]
    have hindex : entry.index = expected := by
      by_contra hother
      exact hinvalid (.inl hother)
    rcases Nat.lt_or_ge expected uint64Max with hless | hlast
    · have hword : (expected + 1) % 2 ^ 64 = expected + 1 := by
        rw [uint64Max] at hless
        exact Nat.mod_eq_of_lt (by omega)
      rw [hword, ih (by omega), hindex]
      simp only [hexpected, true_and, Words]
    · -- nothing can stand behind the greatest index
      have hword : (expected + 1) % 2 ^ 64 = 0 := by
        rw [uint64Max] at hlast hexpected
        omega
      rw [hword]
      cases rest with
      | nil => simp [incomingValid, RaftLog.incomingValid, hindex, hexpected]
      | cons next others =>
        refine iff_of_false ?_ ?_
        · rw [incomingValid, if_pos (by omega)]
          simp
        · intro haccepted
          obtain ⟨hvalid, -, hwords⟩ := haccepted
          have hnext := (RaftLog.incoming_valid_iff.mp hvalid).1.1
          have := hwords next mem_cons_self
          omega

/-- The loop does to the vector what it does to the log. -/
theorem merge_from_entries {offset : Nat} (hoffset : offset ≤ log.suffix.length)
    (hincoming : ContiguousFrom (log.firstIndex + 1 + offset) incoming) :
    mergeFrom incoming log.entries =
      match RaftLog.mergeFrom log.suffix offset incoming with
      | .ok suffix => .ok () (log.boundary :: suffix)
      | .error message => .error message log.entries := by
  have hlast := log.last_index_eq
  induction incoming generalizing offset with
  | nil => rfl
  | cons entry rest ih =>
    obtain ⟨hindex, hrest⟩ := hincoming
    have hentry : log.entryAt entry.index = log.suffix[offset]? := by
      rw [hindex, ← log.entry_at_succ offset]
      congr 1
      omega
    rw [mergeFrom, RaftLog.mergeFrom, get_bind, last_index_entries, entry_at_entries, hentry]
    cases hpresent : log.suffix[offset]? with
    | none =>
      have hlength := getElem?_eq_none_iff.mp hpresent
      rw [if_pos (by omega)]
      rfl
    | some present =>
      obtain ⟨hless, -⟩ := List.getElem?_eq_some_iff.mp hpresent
      rw [if_neg (by omega)]
      dsimp only
      by_cases hterm : present.term ≠ entry.term
      · have hcut : offsetOf log.entries entry.index = some (offset + 1) := by
          rw [offset_of_entries, offset_of_eq, if_pos (by omega), hindex]
          congr 1
          omega
        rw [if_pos hterm, if_pos hterm, truncateFrom, bind_assoc, get_bind, hcut]
        rfl
      · rw [if_neg hterm, if_neg hterm]
        by_cases hsame : present ≠ entry
        · rw [if_pos hsame, if_pos hsame]
          rfl
        · rw [if_neg hsame, if_neg hsame]
          exact ih hless (by rwa [← Nat.add_assoc])

/-- `appendFrom` fails without effect, or acts as on the log. -/
theorem append_from_entries (hwords : Words log.entries) (previousIndex : Nat)
    (incoming : List LogEntry) :
    (∃ message, appendFrom previousIndex incoming log.entries = .error message log.entries) ∨
      ∃ merged, log.appendFrom previousIndex incoming = .ok merged ∧ Words incoming ∧
        appendFrom previousIndex incoming log.entries = .ok () merged.entries := by
  have hlast := log.last_index_eq
  have hgreatest := hwords.last_index_le
  rw [appendFrom, get_bind, offset_of_entries, offset_of_eq]
  by_cases hprevious : log.firstIndex ≤ previousIndex ∧ previousIndex ≤ log.lastIndex
  swap
  · rw [if_neg hprevious]
    exact .inl ⟨_, rfl⟩
  rw [if_pos hprevious, if_neg (by simp)]
  by_cases hempty : incoming = []
  · rw [if_pos hempty]
    refine .inr ⟨log, ?_, by simp [hempty, Words], rfl⟩
    rw [RaftLog.appendFrom, dif_neg (not_not.mpr hprevious), if_pos hempty]
  rw [if_neg hempty]
  by_cases hexhausted : previousIndex = uint64Max
  · rw [if_pos hexhausted]
    exact .inl ⟨_, rfl⟩
  rw [if_neg hexhausted]
  by_cases hvalid : incomingValid (previousIndex + 1) incoming = false
  · rw [if_pos hvalid]
    exact .inl ⟨_, rfl⟩
  rw [if_neg hvalid]
  rw [Bool.not_eq_false] at hvalid
  have hnext : previousIndex + 1 ≤ uint64Max := by omega
  obtain ⟨haccepted, hincoming⟩ := (incoming_valid_iff hnext).mp hvalid
  have hoffset : previousIndex - log.firstIndex ≤ log.suffix.length := by omega
  have hcontiguous : ContiguousFrom (log.firstIndex + 1 + (previousIndex - log.firstIndex))
      incoming := by
    rw [show log.firstIndex + 1 + (previousIndex - log.firstIndex) = previousIndex + 1 by omega]
    exact (RaftLog.incoming_valid_iff.mp haccepted).1
  have hmerge := merge_from_entries hoffset hcontiguous
  rcases append_from_of_valid hprevious hempty hexhausted haccepted with
    ⟨merged, hmerged, hboundary, hsuffix⟩ | ⟨message, -, hfailed⟩
  · refine .inr ⟨merged, hmerged, hincoming, ?_⟩
    rw [hmerge, hsuffix, ← hboundary]
    rfl
  · refine .inl ⟨message, ?_⟩
    rw [hmerge, hfailed]

/-- Entries before an index are a start of the list. -/
theorem filter_index_lt {next : Nat} (hcontiguous : ContiguousFrom next entries) (count : Nat) :
    (entries.filter fun entry => decide (entry.index < next + count)) = entries.take count := by
  induction entries generalizing next count with
  | nil => simp
  | cons entry rest ih =>
    obtain ⟨hindex, hrest⟩ := hcontiguous
    cases count with
    | zero =>
      rw [Nat.add_zero, take_zero, filter_eq_nil_iff]
      intro other hother
      obtain ⟨k, hk⟩ := mem_iff_getElem?.mp hother
      have hlater := (show ContiguousFrom next (entry :: rest) from ⟨hindex, hrest⟩).index_eq hk
      rw [decide_eq_true_eq]
      omega
    | succ count =>
      rw [filter_cons_of_pos (by simp; omega), take_succ_cons]
      have hnext := ih hrest count
      rw [show next + 1 + count = next + (count + 1) by omega] at hnext
      rw [hnext]

/-- What merging is to do: nothing when every incoming entry is there already; otherwise the first
one that is missing or has another term replaces, together with those behind it, what stands at its
index and behind. -/
def Merged (entries incoming final : List LogEntry) : Prop :=
  ((∀ entry ∈ incoming, entryAt entries entry.index = some entry) ∧ final = entries) ∨
    ∃ before first rest, incoming = before ++ first :: rest ∧
      (∀ entry ∈ before, entryAt entries entry.index = some entry) ∧
      (∀ present, entryAt entries first.index = some present → present.term ≠ first.term) ∧
      final = (entries.filter fun entry => decide (entry.index < first.index)) ++ first :: rest

theorem Merged.cons {final : List LogEntry} {entry : LogEntry}
    (hpresent : entryAt entries entry.index = some entry) (hmerged : Merged entries incoming final) :
    Merged entries (entry :: incoming) final := by
  rcases hmerged with ⟨hall, hsame⟩ | ⟨before, first, rest, hsplit, hbefore, hfirst, hfinal⟩
  · exact .inl ⟨forall_mem_cons.mpr ⟨hpresent, hall⟩, hsame⟩
  · refine .inr ⟨entry :: before, first, rest, ?_, ?_, hfirst, hfinal⟩
    · rw [hsplit, cons_append]
    · exact forall_mem_cons.mpr ⟨hpresent, hbefore⟩

/-- The loop merges. -/
theorem merge_from_merged {offset : Nat} {suffix : List LogEntry}
    (hoffset : offset ≤ log.suffix.length)
    (hincoming : ContiguousFrom (log.firstIndex + 1 + offset) incoming)
    (hmerge : RaftLog.mergeFrom log.suffix offset incoming = .ok suffix) :
    Merged log.entries incoming (log.boundary :: suffix) := by
  induction incoming generalizing offset with
  | nil =>
    cases hmerge
    exact .inl ⟨by simp, rfl⟩
  | cons entry rest ih =>
    obtain ⟨hindex, hrest⟩ := hincoming
    have hentry : entryAt log.entries entry.index = log.suffix[offset]? := by
      rw [entry_at_entries, hindex, ← log.entry_at_succ offset]
      congr 1
      omega
    have hkept : (log.entries.filter fun other => decide (other.index < entry.index)) =
        log.boundary :: log.suffix.take offset := by
      have hfilter := filter_index_lt (contiguous_entries log) (offset + 1)
      rw [show log.firstIndex + (offset + 1) = entry.index by omega] at hfilter
      rw [hfilter]
      rfl
    rw [RaftLog.mergeFrom] at hmerge
    cases hpresent : log.suffix[offset]? with
    | none =>
      rw [hpresent] at hmerge hentry
      cases hmerge
      refine .inr ⟨[], entry, rest, rfl, by simp, by simp [hentry], ?_⟩
      rw [hkept, take_of_length_le (getElem?_eq_none_iff.mp hpresent)]
      rfl
    | some present =>
      obtain ⟨hless, -⟩ := List.getElem?_eq_some_iff.mp hpresent
      rw [hpresent] at hmerge hentry
      dsimp only at hmerge
      split_ifs at hmerge with hterm hsame
      · cases hmerge
        refine .inr ⟨[], entry, rest, rfl, by simp, fun other hother => ?_, ?_⟩
        · rw [hentry] at hother
          cases hother
          exact hterm
        · rw [hkept]
          rfl
      · rw [not_ne_iff] at hsame
        subst hsame
        exact (ih hless hrest hmerge).cons hentry

/-- A successful `appendFrom` merges. -/
theorem append_from_merged {previousIndex : Nat} {merged : RaftLog}
    (hrun : log.appendFrom previousIndex incoming = .ok merged) :
    Merged log.entries incoming merged.entries := by
  obtain ⟨hfirst, hlast, -, hvalid, -⟩ := append_from_spec hrun
  have hprevious : ¬ ¬ (log.firstIndex ≤ previousIndex ∧ previousIndex ≤ log.lastIndex) :=
    not_not.mpr ⟨hfirst, hlast⟩
  by_cases hempty : incoming = []
  · rw [RaftLog.appendFrom, dif_neg hprevious, if_pos hempty] at hrun
    cases hrun
    subst hempty
    exact .inl ⟨by simp, rfl⟩
  have hexhausted : previousIndex ≠ uint64Max := by
    intro hexhausted
    rw [RaftLog.appendFrom, dif_neg hprevious, if_neg hempty, if_pos hexhausted] at hrun
    cases hrun
  rcases append_from_of_valid ⟨hfirst, hlast⟩ hempty hexhausted hvalid with
    ⟨same, hsame, hboundary, hmerge⟩ | ⟨message, hfailed, -⟩
  · cases hsame.symm.trans hrun
    have hlength := log.last_index_eq
    have hentries : merged.entries = log.boundary :: merged.suffix := by
      rw [entries, hboundary]
    rw [hentries]
    refine merge_from_merged (by omega) ?_ hmerge
    rw [show log.firstIndex + 1 + (previousIndex - log.firstIndex) = previousIndex + 1 by omega]
    exact (RaftLog.incoming_valid_iff.mp hvalid).1
  · rw [hfailed] at hrun
    cases hrun

end Merge

/-! ## Compaction and restoration -/

section Compaction

variable {log : RaftLog}

/-- `compactTo` fails without effect, or acts as on the log. -/
theorem compact_to_entries (log : RaftLog) (boundaryIndex boundaryTerm : Nat) :
    (∃ message, compactTo boundaryIndex boundaryTerm log.entries = .error message log.entries) ∨
      ∃ compacted, log.compactTo boundaryIndex boundaryTerm = .ok compacted ∧
        compactTo boundaryIndex boundaryTerm log.entries = .ok () compacted.entries := by
  rw [compactTo, get_bind, offset_of_entries]
  cases hoffset : log.offsetOf boundaryIndex with
  | none => exact .inl ⟨_, rfl⟩
  | some offset =>
    dsimp only
    have hterm : log.entries[offset]?.map LogEntry.term = log.termAt boundaryIndex := by
      rw [RaftLog.termAt, RaftLog.entryAt, hoffset]
      rfl
    rw [hterm]
    split_ifs with hrefused
    · exact .inl ⟨_, rfl⟩
    · have haccepted : log.compactionRefused boundaryIndex boundaryTerm = false := by
        simp only [not_or, not_ne_iff] at hrefused
        obtain ⟨hsame, hzero, hnonzero⟩ := hrefused
        simp only [compactionRefused, hsame, bne_self_eq_false, Bool.false_or,
          Bool.or_eq_false_iff, Bool.and_eq_false_iff, beq_eq_false_iff_ne, bne_eq_false_iff_eq]
        omega
      have hposition : offset = boundaryIndex - log.firstIndex := by
        rw [offset_of_eq] at hoffset
        split_ifs at hoffset
        exact (Option.some.inj hoffset).symm
      have hcompacts : ∃ compacted, log.compactTo boundaryIndex boundaryTerm = .ok compacted :=
        ⟨_, dif_neg (by rw [haccepted]; simp)⟩
      obtain ⟨compacted, hrun⟩ := hcompacts
      obtain ⟨-, hboundary, hsuffix⟩ := compact_to_spec hrun
      refine .inr ⟨compacted, hrun, ?_⟩
      have hentries : compacted.entries =
          { index := boundaryIndex, term := boundaryTerm, type := .noOp, command := [] } ::
            log.suffix.drop (boundaryIndex - log.firstIndex) := by
        rw [entries, hboundary, hsuffix]
      rw [hentries, hposition]
      rfl

theorem entry_at_compact_to {boundaryIndex boundaryTerm : Nat} {compacted : RaftLog}
    (hrun : log.compactTo boundaryIndex boundaryTerm = .ok compacted) {index : Nat}
    (hindex : boundaryIndex < index) : compacted.entryAt index = log.entryAt index := by
  obtain ⟨haccepted, hboundary, hsuffix⟩ := compact_to_spec hrun
  have hrange := log.retained_of_accepted haccepted
  have hfirst : compacted.firstIndex = boundaryIndex := by rw [RaftLog.firstIndex, hboundary]
  have hshort := compacted.entry_at_succ (index - boundaryIndex - 1)
  have hlong := log.entry_at_succ (index - log.firstIndex - 1)
  rw [hfirst, show boundaryIndex + (index - boundaryIndex - 1 + 1) = index by omega, hsuffix,
    getElem?_drop] at hshort
  rw [show log.firstIndex + (index - log.firstIndex - 1 + 1) = index by omega] at hlong
  rw [hshort, hlong]
  congr 1
  omega

theorem contiguous_of_restore_valid {base position : Nat}
    (hvalid : restoreValid base position entries = true) :
    ContiguousFrom (base + position) entries ∧ entries.all RaftLog.entryValid = true := by
  induction entries generalizing position with
  | nil => exact ⟨trivial, rfl⟩
  | cons entry rest ih =>
    rw [restoreValid] at hvalid
    split_ifs at hvalid with hinvalid
    simp only [not_or, not_ne_iff, Bool.not_eq_false] at hinvalid
    obtain ⟨hrest, hall⟩ := ih hvalid
    exact ⟨⟨hinvalid.2.1, hrest⟩, by rw [all_cons, hinvalid.2.2, hall]; rfl⟩

/-- `restore` fails without effect, or puts a log in place. -/
theorem restore_entries (entries persistent : List LogEntry) :
    (∃ message, restore persistent entries = .error message entries) ∨
      ∃ log, RaftLog.restore persistent = .ok log ∧
        restore persistent entries = .ok () log.entries ∧ log.entries = persistent := by
  cases persistent with
  | nil => exact .inl ⟨_, rfl⟩
  | cons boundary rest =>
    rw [restore, RaftLog.restore]
    by_cases hboundary : RaftLog.boundaryValid boundary = false
    · rw [if_pos hboundary]
      exact .inl ⟨_, rfl⟩
    rw [if_neg hboundary, if_neg hboundary]
    by_cases hvalid : restoreValid boundary.index 1 rest = false
    · rw [if_pos hvalid]
      exact .inl ⟨_, rfl⟩
    rw [if_neg hvalid, dif_pos (contiguous_of_restore_valid (by simpa using hvalid))]
    exact .inr ⟨_, rfl, rfl, rfl⟩

end Compaction

/-! ## Reached vectors -/

section Step

variable {log : RaftLog}

theorem Words.append (hwords : Words log.entries) (hroom : log.lastIndex < uint64Max) (term : Nat)
    (type : EntryType) (command : Bytes) : Words (log.append term type command).entries := by
  intro entry hentry
  rw [entries_append] at hentry
  rcases mem_append.mp hentry with hold | hnew
  · exact hwords entry hold
  · rw [mem_singleton.mp hnew]
    exact hroom

theorem Words.append_from {previousIndex : Nat} {incoming : List LogEntry} {merged : RaftLog}
    (hwords : Words log.entries) (hincoming : Words incoming)
    (hrun : log.appendFrom previousIndex incoming = .ok merged) : Words merged.entries := by
  obtain ⟨-, -, hboundary, -, hsuffix⟩ := append_from_spec hrun
  intro entry hentry
  rw [entries, hboundary] at hentry
  rcases mem_cons.mp hentry with rfl | hentry
  · exact hwords _ mem_cons_self
  rcases hsuffix with ⟨hsame, -⟩ | hreplaced
  · rw [hsame] at hentry
    exact hwords entry (mem_cons_of_mem _ hentry)
  · rw [hreplaced] at hentry
    rcases mem_append.mp hentry with hold | hnew
    · exact hwords entry (mem_cons_of_mem _ (mem_of_mem_take hold))
    · exact hincoming entry hnew

theorem Words.compact_to {boundaryIndex boundaryTerm : Nat} {compacted : RaftLog}
    (hwords : Words log.entries)
    (hrun : log.compactTo boundaryIndex boundaryTerm = .ok compacted) :
    Words compacted.entries := by
  obtain ⟨haccepted, hboundary, hsuffix⟩ := compact_to_spec hrun
  intro entry hentry
  rw [entries, hboundary, hsuffix] at hentry
  rcases mem_cons.mp hentry with rfl | hentry
  · exact (log.retained_of_accepted haccepted).2.trans hwords.last_index_le
  · exact hwords entry (mem_cons_of_mem _ (mem_of_mem_drop hentry))

/-- An operation leads from the vector of a log to another. -/
theorem after_entries {action : Action} (hwords : Words log.entries)
    (hroom : ∀ term type command, action = .append term type command → log.lastIndex < uint64Max)
    (hpersistent : ∀ persistent, action = .restore persistent → Words persistent) :
    ∃ next : RaftLog, after log.entries action = next.entries ∧ Words next.entries := by
  have hfailed : ∀ {message}, perform action log.entries = .error message log.entries →
      ∃ next : RaftLog, after log.entries action = next.entries ∧ Words next.entries := by
    intro message hrun
    exact ⟨log, by rw [after, hrun], hwords⟩
  have hdone : ∀ {next : RaftLog}, perform action log.entries = .ok () next.entries →
      Words next.entries →
      ∃ next : RaftLog, after log.entries action = next.entries ∧ Words next.entries := by
    intro next hrun hnext
    exact ⟨next, by rw [after, hrun], hnext⟩
  cases action with
  | append term type command =>
    have hlast := hroom term type command rfl
    refine hdone ?_ (hwords.append hlast term type command)
    rw [perform, bind_of_ok (append_entries log hlast term type command)]
    rfl
  | appendFrom previousIndex incoming =>
    rcases append_from_entries hwords previousIndex incoming with
      ⟨message, hrun⟩ | ⟨merged, hmerged, hincoming, hrun⟩
    · exact hfailed hrun
    · exact hdone hrun (hwords.append_from hincoming hmerged)
  | compactTo boundaryIndex boundaryTerm =>
    rcases compact_to_entries log boundaryIndex boundaryTerm with
      ⟨message, hrun⟩ | ⟨compacted, hcompacted, hrun⟩
    · exact hfailed hrun
    · exact hdone hrun (hwords.compact_to hcompacted)
  | restore persistent =>
    rcases restore_entries log.entries persistent with
      ⟨message, hrun⟩ | ⟨restored, -, hrun, hentries⟩
    · exact hfailed hrun
    · refine hdone hrun ?_
      rw [hentries]
      exact hpersistent persistent rfl

end Step

theorem Reached.log (hreached : Reached entries) :
    ∃ log : RaftLog, log.entries = entries ∧ Words log.entries := by
  induction hreached with
  | initial => exact ⟨RaftLog.empty, rfl, by simp [RaftLog.entries, RaftLog.empty, Words]⟩
  | step action _ hroom hpersistent ih =>
    obtain ⟨log, rfl, hwords⟩ := ih
    rw [last_index_entries] at hroom
    obtain ⟨next, hafter, hnext⟩ := after_entries hwords hroom hpersistent
    exact ⟨next, hafter.symm, hnext⟩

/-- Every vector that is reached is contiguous; `appendFrom` fails and leaves it alone, or merges;
and `compactTo` leaves what stands above its boundary. -/
theorem log_vector_shape {entries : List LogEntry} (hreached : Reached entries) :
    (∀ k entry, entries[k]? = some entry → entry.index = firstIndex entries + k) ∧
      (∀ previousIndex incoming,
        (∃ message, appendFrom previousIndex incoming entries = .error message entries) ∨
          ∃ final, appendFrom previousIndex incoming entries = .ok () final ∧
            Merged entries incoming final) ∧
      ∀ boundaryIndex boundaryTerm compacted,
        compactTo boundaryIndex boundaryTerm entries = .ok () compacted →
        ∀ index, boundaryIndex < index →
          termAt compacted index = termAt entries index ∧
            entryAt compacted index = entryAt entries index := by
  obtain ⟨log, rfl, hwords⟩ := hreached.log
  refine ⟨fun k entry hentry => (contiguous_entries log).index_eq hentry,
    fun previousIndex incoming => ?_, fun boundaryIndex boundaryTerm compacted hrun => ?_⟩
  · rcases append_from_entries hwords previousIndex incoming with
      hfailed | ⟨merged, hmerged, -, hrun⟩
    · exact .inl hfailed
    · exact .inr ⟨merged.entries, hrun, append_from_merged hmerged⟩
  · intro index hindex
    rcases compact_to_entries log boundaryIndex boundaryTerm with
      ⟨message, hfailed⟩ | ⟨result, hresult, hvector⟩
    · rw [hfailed] at hrun
      cases hrun
    · rw [hvector] at hrun
      cases hrun
      have hentry := entry_at_compact_to hresult hindex
      rw [entry_at_entries, entry_at_entries, term_at_entries, term_at_entries, RaftLog.termAt,
        RaftLog.termAt, hentry]
      exact ⟨rfl, rfl⟩

/-- After one entry was appended, an entry of another term at its index is merged. -/
theorem log_vector_shape_conflict :
    Reached (after initial (.append 1 .command [97])) ∧
      ∃ final, appendFrom 0 [{ index := 1, term := 2, type := .command, command := [98] }]
          (after initial (.append 1 .command [97])) = .ok () final ∧
        Merged (after initial (.append 1 .command [97]))
          [{ index := 1, term := 2, type := .command, command := [98] }] final := by
  have hreached : Reached (after initial (.append 1 .command [97])) :=
    .step _ .initial (fun _ _ _ _ => by decide) nofun
  refine ⟨hreached, ?_⟩
  rcases (log_vector_shape hreached).2.1 0
    [{ index := 1, term := 2, type := .command, command := [98] }] with ⟨message, hfailed⟩ | hmerged
  · cases hfailed
  · exact hmerged

end LogVector

end DistributedKV
