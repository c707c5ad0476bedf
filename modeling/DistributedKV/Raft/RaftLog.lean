import DistributedKV.Raft.Types

/-!
# The replicated log

The in-memory log of `src/raft/raft_log.cpp`. The source keeps one vector whose front is
the snapshot boundary (initially the sentinel at index zero) and whose other elements carry
consecutive indexes. Here the boundary and the rest are separate fields, and the
contiguity the source relies on for its offset arithmetic is a field of the structure.
Fallible operations return the error text of the source.
-/

namespace DistributedKV

open List

/-- The entries carry the indexes `next`, `next + 1`, and so on. -/
def ContiguousFrom : Nat → List LogEntry → Prop
  | _, [] => True
  | next, entry :: rest => entry.index = next ∧ ContiguousFrom (next + 1) rest

/-- Contiguity is decidable entry by entry. -/
instance decidableContiguousFrom :
    (next : Nat) → (entries : List LogEntry) → Decidable (ContiguousFrom next entries)
  | _, [] => inferInstanceAs (Decidable True)
  | next, entry :: rest =>
    have := decidableContiguousFrom (next + 1) rest
    inferInstanceAs (Decidable (entry.index = next ∧ ContiguousFrom (next + 1) rest))

theorem contiguous_from_append {next : Nat} {left right : List LogEntry} :
    ContiguousFrom next (left ++ right) ↔
      ContiguousFrom next left ∧ ContiguousFrom (next + left.length) right := by
  induction left generalizing next with
  | nil => simp [ContiguousFrom]
  | cons entry rest ih =>
    simp only [cons_append, ContiguousFrom, ih, length_cons, and_assoc]
    rw [show next + 1 + rest.length = next + (rest.length + 1) by omega]

theorem ContiguousFrom.index_eq {next : Nat} {entries : List LogEntry}
    (h : ContiguousFrom next entries) {k : Nat} {entry : LogEntry}
    (hk : entries[k]? = some entry) : entry.index = next + k := by
  induction entries generalizing next k with
  | nil => simp at hk
  | cons first rest ih =>
    obtain ⟨hfirst, hrest⟩ := h
    cases k with
    | zero =>
      simp only [getElem?_cons_zero, Option.some.injEq] at hk
      subst hk
      simpa using hfirst
    | succ k =>
      simp only [getElem?_cons_succ] at hk
      have := ih hrest hk
      omega

theorem contiguous_from_of_index {next : Nat} {entries : List LogEntry}
    (hindex : ∀ (k : Nat) (entry : LogEntry), entries[k]? = some entry → entry.index = next + k) :
    ContiguousFrom next entries := by
  induction entries generalizing next with
  | nil => trivial
  | cons entry rest ih =>
    refine ⟨by simpa using hindex 0 entry rfl, ih fun k other hother => ?_⟩
    have h := hindex (k + 1) other (by simpa using hother)
    omega

theorem ContiguousFrom.take {next : Nat} {entries : List LogEntry}
    (h : ContiguousFrom next entries) (count : Nat) :
    ContiguousFrom next (entries.take count) := by
  rw [← take_append_drop count entries, contiguous_from_append] at h
  exact h.1

theorem ContiguousFrom.drop {next : Nat} {entries : List LogEntry}
    (h : ContiguousFrom next entries) (count : Nat) (hcount : count ≤ entries.length) :
    ContiguousFrom (next + count) (entries.drop count) := by
  rw [← take_append_drop count entries, contiguous_from_append,
    length_take_of_le hcount] at h
  exact h.2

/-- The log: a boundary entry followed by contiguously numbered entries. -/
structure RaftLog where
  boundary : LogEntry
  suffix : List LogEntry
  contiguous : ContiguousFrom (boundary.index + 1) suffix

namespace RaftLog

@[ext] theorem ext {left right : RaftLog} (hboundary : left.boundary = right.boundary)
    (hsuffix : left.suffix = right.suffix) : left = right := by
  cases left
  cases right
  cases hboundary
  cases hsuffix
  rfl

/-- Equality of logs is decided on the boundary and the suffix. -/
instance : DecidableEq RaftLog := fun left right =>
  decidable_of_iff (left.boundary = right.boundary ∧ left.suffix = right.suffix)
    ⟨fun h => RaftLog.ext h.1 h.2, fun h => by simp [h]⟩

/-- The log of a new node: the sentinel at index zero. -/
def empty : RaftLog where
  boundary := { index := 0, term := 0, type := .noOp, command := [] }
  suffix := []
  contiguous := trivial

/-- The vector `entries_` of the source. -/
def entries (log : RaftLog) : List LogEntry := log.boundary :: log.suffix

/-- `entries_.back()`. -/
def back (log : RaftLog) : LogEntry := log.suffix.getLast?.getD log.boundary

/-- Index of the boundary. -/
def firstIndex (log : RaftLog) : Nat := log.boundary.index

/-- Index of the last entry. -/
def lastIndex (log : RaftLog) : Nat := log.back.index

/-- Term of the last entry. -/
def lastTerm (log : RaftLog) : Nat := log.back.term

/-- Position of an index in `entries_`, when the index is retained. -/
def offsetOf (log : RaftLog) (index : Nat) : Option Nat :=
  if index < log.firstIndex ∨ log.lastIndex < index then none
  else
    let offset := index - log.firstIndex
    if log.entries.length ≤ offset then none else some offset

/-- The entry retained at an index. -/
def entryAt (log : RaftLog) (index : Nat) : Option LogEntry :=
  log.offsetOf index >>= fun offset => log.entries[offset]?

/-- The term retained at an index. -/
def termAt (log : RaftLog) (index : Nat) : Option Nat :=
  (log.entryAt index).map (·.term)

theorem last_index_eq (log : RaftLog) :
    log.lastIndex = log.firstIndex + log.suffix.length := by
  rcases eq_nil_or_concat log.suffix with h | ⟨init, last, h⟩
  · simp [lastIndex, back, firstIndex, h]
  · have hlast : log.suffix[init.length]? = some last := by simp [h]
    have hindex := log.contiguous.index_eq hlast
    simp only [lastIndex, back, firstIndex, h, concat_eq_append,
      getLast?_append, getLast?_singleton, Option.some_or, Option.getD_some,
      length_append, length_singleton]
    omega

theorem offset_of_eq (log : RaftLog) (index : Nat) :
    log.offsetOf index =
      if log.firstIndex ≤ index ∧ index ≤ log.lastIndex then some (index - log.firstIndex)
      else none := by
  have hlast := log.last_index_eq
  by_cases hrange : log.firstIndex ≤ index ∧ index ≤ log.lastIndex
  · have houtside : ¬ (index < log.firstIndex ∨ log.lastIndex < index) := by omega
    have hlength : ¬ log.entries.length ≤ index - log.firstIndex := by
      simp only [entries, length_cons]
      omega
    rw [offsetOf, if_neg houtside, if_pos hrange]
    exact if_neg hlength
  · have houtside : index < log.firstIndex ∨ log.lastIndex < index := by omega
    rw [offsetOf, if_pos houtside, if_neg hrange]

theorem entry_at_first (log : RaftLog) : log.entryAt log.firstIndex = some log.boundary := by
  have hlast := log.last_index_eq
  have hrange : log.firstIndex ≤ log.firstIndex ∧ log.firstIndex ≤ log.lastIndex := by omega
  simp [entryAt, offset_of_eq, hrange, entries]

theorem entry_at_succ (log : RaftLog) (k : Nat) :
    log.entryAt (log.firstIndex + (k + 1)) = log.suffix[k]? := by
  have hlast := log.last_index_eq
  by_cases hk : k < log.suffix.length
  · have hrange : log.firstIndex ≤ log.firstIndex + (k + 1) ∧
        log.firstIndex + (k + 1) ≤ log.lastIndex := by omega
    simp [entryAt, offset_of_eq, hrange, entries]
  · have hrange : ¬ (log.firstIndex ≤ log.firstIndex + (k + 1) ∧
        log.firstIndex + (k + 1) ≤ log.lastIndex) := by omega
    have hnone : log.suffix[k]? = none := getElem?_eq_none (by omega)
    rw [entryAt, offset_of_eq, if_neg hrange, hnone]
    rfl

theorem entry_at_below (log : RaftLog) {index : Nat} (h : index < log.firstIndex) :
    log.entryAt index = none := by
  have hrange : ¬ (log.firstIndex ≤ index ∧ index ≤ log.lastIndex) := by omega
  simp [entryAt, offset_of_eq, hrange]

theorem entry_at_is_some (log : RaftLog) (index : Nat) :
    (log.entryAt index).isSome ↔ log.firstIndex ≤ index ∧ index ≤ log.lastIndex := by
  have hlast := log.last_index_eq
  rcases Nat.lt_trichotomy index log.firstIndex with h | h | h
  · simp [log.entry_at_below h]
    omega
  · subst h
    simp [log.entry_at_first]
    omega
  · obtain ⟨k, rfl⟩ : ∃ k, index = log.firstIndex + (k + 1) :=
      ⟨index - log.firstIndex - 1, by omega⟩
    rw [log.entry_at_succ, Option.isSome_iff_ne_none, ne_eq, getElem?_eq_none_iff]
    omega

theorem entry_at_index (log : RaftLog) {index : Nat} {entry : LogEntry}
    (h : log.entryAt index = some entry) : entry.index = index := by
  have hrange := (log.entry_at_is_some index).mp (by simp [h])
  rcases Nat.eq_or_lt_of_le hrange.1 with heq | hlt
  · rw [← heq, log.entry_at_first] at h
    cases h
    exact heq
  · obtain ⟨k, rfl⟩ : ∃ k, index = log.firstIndex + (k + 1) :=
      ⟨index - log.firstIndex - 1, by omega⟩
    rw [log.entry_at_succ] at h
    have := log.contiguous.index_eq h
    simp only [firstIndex]
    omega

theorem entry_at_mem (log : RaftLog) {index : Nat} {entry : LogEntry}
    (h : log.entryAt index = some entry) : entry ∈ log.entries := by
  obtain ⟨offset, -, hget⟩ := Option.bind_eq_some_iff.mp h
  exact mem_of_getElem? hget

theorem entry_at_of_mem (log : RaftLog) {entry : LogEntry} (h : entry ∈ log.suffix) :
    log.entryAt entry.index = some entry := by
  obtain ⟨k, hk⟩ := mem_iff_getElem?.mp h
  have hindex := log.contiguous.index_eq hk
  rw [show entry.index = log.firstIndex + (k + 1) by simp only [firstIndex]; omega,
    log.entry_at_succ, hk]

/-- Append an entry at the next index; the result also gives that index. -/
def append (log : RaftLog) (term : Nat) (type : EntryType) (command : Bytes) : RaftLog where
  boundary := log.boundary
  suffix := log.suffix ++ [{ index := log.lastIndex + 1, term, type, command }]
  contiguous := by
    rw [contiguous_from_append]
    refine ⟨log.contiguous, ?_, trivial⟩
    have := log.last_index_eq
    simp only [firstIndex] at this
    simp only
    omega

/-- Up to `maximumCount` entries from an index on, none when the index is not retained. -/
def entriesFrom (log : RaftLog) (first : Nat) (maximumCount : Nat) : List LogEntry :=
  match log.offsetOf first with
  | none => []
  | some start => if maximumCount = 0 then [] else (log.entries.drop start).take maximumCount

/-- The validation loop of `appendFrom`: consecutive indexes from `expected`, no zero index or
term. -/
def incomingValid : Nat → List LogEntry → Bool
  | _, [] => true
  | expected, entry :: rest =>
    if entry.index ≠ expected ∨ entry.index = 0 ∨ entry.term = 0 then false
    else incomingValid (expected + 1) rest

/-- The merge loop of `appendFrom`. It skips incoming entries that are present, cuts the log at
the first one with another term and adds the rest; an entry with the same term and another
payload is an error. `offset` is the position in `suffix` of the next incoming entry. -/
def mergeFrom (suffix : List LogEntry) : Nat → List LogEntry → Except String (List LogEntry)
  | _, [] => .ok suffix
  | offset, entry :: rest =>
    match suffix[offset]? with
    | none => .ok (suffix ++ entry :: rest)
    | some present =>
      if present.term ≠ entry.term then .ok (suffix.take offset ++ entry :: rest)
      else if present ≠ entry then
        .error "same Raft index and term contain different payloads"
      else mergeFrom suffix (offset + 1) rest

theorem incoming_valid_iff {expected : Nat} {incoming : List LogEntry} :
    incomingValid expected incoming = true ↔
      ContiguousFrom expected incoming ∧
        ∀ entry ∈ incoming, entry.index ≠ 0 ∧ entry.term ≠ 0 := by
  induction incoming generalizing expected with
  | nil => simp [incomingValid, ContiguousFrom]
  | cons entry rest ih =>
    simp only [incomingValid, ContiguousFrom, mem_cons, forall_eq_or_imp]
    split_ifs with h
    · simp only [false_iff]
      tauto
    · rw [ih]
      tauto

/-- A successful merge keeps the numbering. -/
theorem merge_from_contiguous {next : Nat} {suffix incoming merged : List LogEntry}
    {offset : Nat} (hsuffix : ContiguousFrom next suffix) (hoffset : offset ≤ suffix.length)
    (hincoming : ContiguousFrom (next + offset) incoming)
    (h : mergeFrom suffix offset incoming = .ok merged) : ContiguousFrom next merged := by
  induction incoming generalizing offset with
  | nil =>
    cases h
    exact hsuffix
  | cons entry rest ih =>
    simp only [mergeFrom] at h
    split at h
    · rename_i hnone
      have hlength : suffix.length ≤ offset := getElem?_eq_none_iff.mp hnone
      obtain rfl : offset = suffix.length := by omega
      cases h
      exact contiguous_from_append.mpr ⟨hsuffix, hincoming⟩
    · rename_i present hpresent
      have hlt : offset < suffix.length :=
        (List.getElem?_eq_some_iff.mp hpresent).1
      split_ifs at h with hterm hentry
      · cases h
        refine contiguous_from_append.mpr ⟨hsuffix.take offset, ?_⟩
        rwa [length_take_of_le hoffset]
      · refine ih (by omega) ?_ h
        rw [show next + (offset + 1) = next + offset + 1 by omega]
        exact hincoming.2

/-- Replace the suffix after `previousIndex` by the incoming entries, keeping what is already
there. The log is unchanged on failure. -/
def appendFrom (log : RaftLog) (previousIndex : Nat) (incoming : List LogEntry) :
    Except String RaftLog :=
  if hprevious : ¬ (log.firstIndex ≤ previousIndex ∧ previousIndex ≤ log.lastIndex) then
    .error "previous log index is absent"
  else if incoming = [] then .ok log
  else if previousIndex = uint64Max then .error "log index space exhausted"
  else if hvalid : incomingValid (previousIndex + 1) incoming = true then
    match hmerge : mergeFrom log.suffix (previousIndex - log.firstIndex) incoming with
    | .ok suffix =>
      .ok {
        boundary := log.boundary
        suffix
        contiguous := by
          have hlast := log.last_index_eq
          refine merge_from_contiguous log.contiguous (by omega) ?_ hmerge
          have hincoming := (incoming_valid_iff.mp hvalid).1
          simp only [firstIndex] at hprevious ⊢
          rwa [show log.boundary.index + 1 + (previousIndex - log.boundary.index) =
            previousIndex + 1 by omega] }
    | .error message => .error message
  else .error "incoming Raft entries are not contiguous and valid"

/-- Whether the entry at an index has a given term. -/
def «matches» (log : RaftLog) (index : Nat) (term : Nat) : Bool :=
  log.termAt index == some term

/-- Index of the first retained entry of a term. -/
def firstIndexOfTerm (log : RaftLog) (term : Nat) : Option Nat :=
  (log.entries.find? (·.term == term)).map (·.index)

/-- Index of the last retained entry of a term. -/
def lastIndexOfTerm (log : RaftLog) (term : Nat) : Option Nat :=
  (log.entries.reverse.find? (·.term == term)).map (·.index)

/-- The image handed to persistence. -/
def persistentEntries (log : RaftLog) : List LogEntry := log.entries

/-- The conditions under which `compactTo` refuses a boundary. -/
def compactionRefused (log : RaftLog) (boundaryIndex : Nat) (boundaryTerm : Nat) : Bool :=
  log.termAt boundaryIndex != some boundaryTerm ||
    (boundaryIndex == 0 && boundaryTerm != 0) || (boundaryIndex != 0 && boundaryTerm == 0)

/-- Drop everything before a retained index and make it the boundary. -/
def compactTo (log : RaftLog) (boundaryIndex : Nat) (boundaryTerm : Nat) :
    Except String RaftLog :=
  if hrefused : log.compactionRefused boundaryIndex boundaryTerm = true then
    .error "compaction boundary is absent or has a different term"
  else
    .ok {
      boundary := { index := boundaryIndex, term := boundaryTerm, type := .noOp, command := [] }
      suffix := log.suffix.drop (boundaryIndex - log.firstIndex)
      contiguous := by
        have hterm : log.termAt boundaryIndex = some boundaryTerm := by
          simp only [compactionRefused, Bool.or_eq_true, not_or, bne_iff_ne, ne_eq,
            Decidable.not_not] at hrefused
          exact hrefused.1.1
        have hsome : (log.entryAt boundaryIndex).isSome := by
          simp only [termAt, Option.map_eq_some_iff] at hterm
          obtain ⟨entry, hentry, _⟩ := hterm
          simp [hentry]
        have hrange := (log.entry_at_is_some boundaryIndex).mp hsome
        have hlast := log.last_index_eq
        have hdrop := log.contiguous.drop (boundaryIndex - log.firstIndex) (by omega)
        simp only [firstIndex] at hrange hdrop ⊢
        rwa [show log.boundary.index + 1 + (boundaryIndex - log.boundary.index) =
          boundaryIndex + 1 by omega] at hdrop }

/-- The boundary conditions of `restore`. -/
def boundaryValid (boundary : LogEntry) : Bool :=
  boundary.type == .noOp && boundary.command == [] &&
    !(boundary.index == 0 && boundary.term != 0) &&
    !(boundary.index != 0 && boundary.term == 0)

/-- The per-entry conditions of `restore` other than the index: a nonzero term, no bytes in a
no-op and some bytes in every other entry. -/
def entryValid (entry : LogEntry) : Bool :=
  entry.term != 0 &&
    match entry.type with
    | .noOp => entry.command == []
    | .command => entry.command != []
    | .confChange => entry.command != []

/-- Rebuild a log from a persistent image. The source also rejects a boundary whose successors
would overflow a 64-bit index; no entry can carry such a successor's index, so contiguity
over the natural numbers already rejects it. -/
def restore : List LogEntry → Except String RaftLog
  | [] => .error "persistent Raft log has invalid boundary"
  | boundary :: suffix =>
    if boundaryValid boundary = false then
      .error "persistent Raft log has invalid boundary"
    else if h : ContiguousFrom (boundary.index + 1) suffix ∧ suffix.all entryValid = true then
      .ok { boundary, suffix, contiguous := h.1 }
    else .error "persistent Raft log is not contiguous and valid"

end RaftLog

end DistributedKV
