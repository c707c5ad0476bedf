import DistributedKV.Raft.RaftLog
import DistributedKV.Foundation.StampedLog

/-!
# Uncompacted logs as lists of stamped entries

A log that was never compacted starts at the sentinel, so index `k + 1` is position `k` of its
suffix, and what the log answers is a statement about the suffix as a list stamped with terms.
The central fact is `merge_from_take`: entries of a leader's log, merged after a point up to
which the follower agrees with the leader, either are there already or leave exactly that start
of the leader's log.
-/

namespace DistributedKV

open List

open TermLog (lastStamp)

/-- A backward search finds the last match. -/
theorem exists_last_position_of_find {log : List LogEntry} {test : LogEntry → Bool}
    {entry : LogEntry} (hfind : log.reverse.find? test = some entry) :
    ∃ position : Nat, log[position]? = some entry ∧ test entry = true ∧
      ∀ later other, position < later → log[later]? = some other → test other = false := by
  obtain ⟨htest, after, before, hsplit, hafter⟩ := find?_eq_some_iff_append.mp hfind
  have hlog : log = before.reverse ++ entry :: after.reverse := by
    have h := congrArg reverse hsplit
    simpa using h
  refine ⟨before.length, by simp [hlog], htest, ?_⟩
  intro later other hlater hother
  have hmem : other ∈ after := by
    rw [hlog, getElem?_append_right (by simpa using hlater.le)] at hother
    obtain ⟨k, hk⟩ : ∃ k, later - before.reverse.length = k + 1 :=
      ⟨later - before.length - 1, by rw [length_reverse]; omega⟩
    rw [hk, getElem?_cons_succ] at hother
    simpa using mem_of_getElem? hother
  simpa using hafter other hmem

namespace RaftLog

/-- The log starts at the sentinel. -/
def Uncompacted (log : RaftLog) : Prop := log.boundary = RaftLog.empty.boundary

theorem entries_from_of_start {log : RaftLog} (hstart : log.firstIndex = 0) (k maximum : Nat) :
    log.entriesFrom (k + 1) maximum = (log.suffix.drop k).take maximum := by
  have hlast := log.last_index_eq
  rw [entriesFrom, log.offset_of_eq, hstart]
  by_cases hk : k + 1 ≤ log.lastIndex
  · rw [if_pos ⟨Nat.zero_le _, hk⟩]
    dsimp only
    by_cases hmaximum : maximum = 0
    · rw [if_pos hmaximum, hmaximum, take_zero]
    · rw [if_neg hmaximum]
      rfl
  · rw [if_neg (by omega), drop_eq_nil_of_le (by omega), take_nil]

section Uncompacted

variable {log : RaftLog} (hlog : log.Uncompacted)
include hlog

theorem Uncompacted.first_index : log.firstIndex = 0 := by
  rw [firstIndex, hlog]
  rfl

theorem Uncompacted.last_index : log.lastIndex = log.suffix.length := by
  rw [log.last_index_eq, hlog.first_index, Nat.zero_add]

theorem Uncompacted.last_term : log.lastTerm = lastStamp LogEntry.term log.suffix := by
  rw [lastTerm, back, lastStamp, hlog]
  cases log.suffix.getLast? with
  | none => rfl
  | some last => rfl

theorem Uncompacted.entry_at_succ (k : Nat) : log.entryAt (k + 1) = log.suffix[k]? := by
  have h := log.entry_at_succ k
  rwa [hlog.first_index, Nat.zero_add] at h

theorem Uncompacted.term_at_zero : log.termAt 0 = some 0 := by
  have h := log.entry_at_first
  rw [hlog.first_index, hlog] at h
  rw [termAt, h]
  rfl

theorem Uncompacted.term_at_succ (k : Nat) :
    log.termAt (k + 1) = log.suffix[k]?.map LogEntry.term := by
  rw [termAt, hlog.entry_at_succ]

theorem Uncompacted.term_at_eq {index : Nat} (hindex : index ≤ log.suffix.length) :
    log.termAt index = some (lastStamp LogEntry.term (log.suffix.take index)) := by
  cases index with
  | zero =>
    rw [hlog.term_at_zero]
    rfl
  | succ k =>
    have hentry := getElem?_eq_getElem (Nat.lt_of_succ_le hindex)
    rw [hlog.term_at_succ, TermLog.last_stamp_take hentry, hentry]
    rfl

theorem Uncompacted.last_index_of_term {term : Nat} (hterm : 0 < term) :
    log.lastIndexOfTerm term =
      (log.suffix.reverse.find? (·.term == term)).map (·.index) := by
  have hboundary : (log.boundary.term == term) = false := by
    rw [hlog]
    exact beq_false_of_ne (by simp only [RaftLog.empty]; omega)
  rw [lastIndexOfTerm, entries, reverse_cons, find?_append]
  cases log.suffix.reverse.find? (·.term == term) with
  | none => simp [hboundary]
  | some entry => simp

theorem Uncompacted.first_index_of_term {term : Nat} (hterm : 0 < term) :
    log.firstIndexOfTerm term = (log.suffix.find? (·.term == term)).map (·.index) := by
  have hboundary : (log.boundary.term == term) = false := by
    rw [hlog]
    exact beq_false_of_ne (by simp only [RaftLog.empty]; omega)
  rw [firstIndexOfTerm, entries, find?_cons, hboundary]

end Uncompacted

theorem entries_append (log : RaftLog) (term : Nat) (type : EntryType) (command : Bytes) :
    (log.append term type command).entries =
      log.entries ++ [{ index := log.lastIndex + 1, term, type, command }] := rfl

theorem last_index_append (log : RaftLog) (term : Nat) (type : EntryType) (command : Bytes) :
    (log.append term type command).lastIndex = log.lastIndex + 1 := by
  rw [last_index_eq, log.last_index_eq]
  show log.firstIndex + (log.suffix ++ [_]).length = _
  rw [List.length_append, List.length_singleton, Nat.add_assoc]

theorem le_last_index_of_term_at {log : RaftLog} {index term : Nat}
    (hterm : log.termAt index = some term) : index ≤ log.lastIndex := by
  obtain ⟨entry, hentry, -⟩ := Option.map_eq_some_iff.mp hterm
  exact ((log.entry_at_is_some index).mp (by simp [hentry])).2

theorem entry_at_entries (log : RaftLog) {index : Nat} (h : log.firstIndex ≤ index) :
    log.entryAt index = log.entries[index - log.firstIndex]? := by
  rcases Nat.eq_or_lt_of_le h with heq | hlt
  · rw [← heq, log.entry_at_first, Nat.sub_self]
    rfl
  · obtain ⟨k, rfl⟩ : ∃ k, index = log.firstIndex + (k + 1) :=
      ⟨index - log.firstIndex - 1, by omega⟩
    rw [log.entry_at_succ, Nat.add_sub_cancel_left]
    rfl

theorem entry_at_append_of_some (log : RaftLog) {index : Nat} {entry : LogEntry}
    (hentry : log.entryAt index = some entry) (term : Nat) (type : EntryType) (command : Bytes) :
    (log.append term type command).entryAt index = some entry := by
  have hrange := (log.entry_at_is_some index).mp (by simp [hentry])
  have hfirst : (log.append term type command).firstIndex ≤ index := hrange.1
  rw [log.entry_at_entries hrange.1] at hentry
  have hlength := (List.getElem?_eq_some_iff.mp hentry).1
  rw [RaftLog.entry_at_entries _ hfirst, entries_append]
  exact (getElem?_append_left hlength).trans hentry

theorem entry_at_append_last (log : RaftLog) (term : Nat) (type : EntryType) (command : Bytes) :
    (log.append term type command).entryAt (log.lastIndex + 1) =
      some { index := log.lastIndex + 1, term, type, command } := by
  have hlast := log.last_index_eq
  have hoffset : log.lastIndex + 1 - (log.append term type command).firstIndex =
      log.entries.length := by
    show log.lastIndex + 1 - log.firstIndex = _
    rw [entries, length_cons]
    omega
  have hfirst : (log.append term type command).firstIndex ≤ log.lastIndex + 1 := by
    show log.firstIndex ≤ log.lastIndex + 1
    omega
  rw [RaftLog.entry_at_entries _ hfirst, hoffset, entries_append]
  simp

variable {log merged : RaftLog} {suffix incoming : List LogEntry} {entry : LogEntry}
  {previousIndex index offset : Nat}

/-- Merging a leader's entries leaves the log, or makes it the leader's. -/
theorem merge_from_take {leaderLog : List LogEntry}
    (hmatching : ∀ (i : Nat) (present entry : LogEntry), suffix[i]? = some present →
      leaderLog[i]? = some entry → present.term = entry.term → present = entry) :
    ∀ (incoming : List LogEntry) (offset : Nat),
      incoming <+: leaderLog.drop offset → offset ≤ suffix.length →
      suffix.take offset = leaderLog.take offset →
      (leaderLog.take (offset + incoming.length) <+: suffix ∧
          mergeFrom suffix offset incoming = .ok suffix) ∨
        (¬ leaderLog.take (offset + incoming.length) <+: suffix ∧
          mergeFrom suffix offset incoming =
            .ok (leaderLog.take (offset + incoming.length))) := by
  intro incoming
  induction incoming with
  | nil =>
    intro offset _ _ htake
    refine .inl ⟨?_, rfl⟩
    rw [length_nil, Nat.add_zero, ← htake]
    exact take_prefix _ _
  | cons entry rest ih =>
    intro offset hincoming hoffset htake
    obtain ⟨others, hothers⟩ := hincoming
    have hentry : leaderLog[offset]? = some entry := by
      have h := congrArg (·[0]?) hothers
      simpa [getElem?_drop] using h.symm
    have hrest : rest <+: leaderLog.drop (offset + 1) := by
      refine ⟨others, ?_⟩
      have h := congrArg tail hothers
      rwa [tail_drop, cons_append, tail_cons] at h
    -- The merged log, once the entries are put in place of what follows the offset.
    have hstart : leaderLog.take (offset + (entry :: rest).length) =
        suffix.take offset ++ entry :: rest := by
      have h : entry :: rest = (leaderLog.drop offset).take (entry :: rest).length := by
        rw [← hothers, take_left]
      rw [take_add, ← h, htake]
    rw [mergeFrom]
    cases hpresent : suffix[offset]? with
    | none =>
      have hlength : suffix.length ≤ offset := getElem?_eq_none_iff.mp hpresent
      rw [hstart, take_of_length_le hlength]
      refine .inr ⟨?_, rfl⟩
      intro hpre
      have hle := hpre.length_le
      simp only [length_append, length_cons] at hle
      omega
    | some present =>
      have hlt := (List.getElem?_eq_some_iff.mp hpresent).1
      by_cases hterm : present.term = entry.term
      · have heq := hmatching offset present entry hpresent hentry hterm
        have hnext : suffix.take (offset + 1) = leaderLog.take (offset + 1) := by
          rw [take_add_one, take_add_one, htake, hpresent, hentry, heq]
        have hlength : offset + 1 + rest.length = offset + (entry :: rest).length := by
          rw [length_cons]
          omega
        have h := ih (offset + 1) hrest hlt hnext
        rw [hlength] at h
        simpa [hterm, heq] using h
      · refine .inr ⟨?_, by rw [hstart]; simp [hterm]⟩
        -- The entry at the offset has another term, so the start is not in the log.
        rw [hstart]
        rintro ⟨tail, htail⟩
        have hat : suffix[offset]? = some entry := by
          rw [← htail, append_assoc, getElem?_append_right (by simp),
            length_take, Nat.min_eq_left hoffset]
          simp
        rw [hpresent] at hat
        exact hterm (congrArg LogEntry.term (Option.some.inj hat))

/-! ## Arbitrary merges -/

/-- A merge leaves the log, or replaces what is behind the offset. -/
theorem merge_from_spec {merged : List LogEntry} (hoffset : offset ≤ suffix.length)
    (hmerge : mergeFrom suffix offset incoming = .ok merged) :
    (merged = suffix ∧ incoming <+: suffix.drop offset) ∨
      merged = suffix.take offset ++ incoming := by
  induction incoming generalizing offset with
  | nil =>
    cases hmerge
    exact .inl ⟨rfl, nil_prefix⟩
  | cons entry rest ih =>
    rw [mergeFrom] at hmerge
    cases hpresent : suffix[offset]? with
    | none =>
      have hlength : suffix.length ≤ offset := getElem?_eq_none_iff.mp hpresent
      rw [hpresent] at hmerge
      cases hmerge
      rw [take_of_length_le hlength]
      exact .inr rfl
    | some present =>
      obtain ⟨hlt, hget⟩ := List.getElem?_eq_some_iff.mp hpresent
      simp only [hpresent] at hmerge
      split_ifs at hmerge with hterm hentry
      · cases hmerge
        exact .inr rfl
      · have heq : present = entry := not_not.mp hentry
        have hdrop : suffix.drop offset = entry :: suffix.drop (offset + 1) := by
          rw [drop_eq_getElem_cons hlt, hget, heq]
        rcases ih hlt hmerge with ⟨hsame, hbegins⟩ | hreplaced
        · rw [hdrop]
          exact .inl ⟨hsame, cons_prefix_cons.mpr ⟨rfl, hbegins⟩⟩
        · refine .inr ?_
          rw [hreplaced, take_succ_eq_append_getElem hlt, hget, heq,
            append_assoc, singleton_append]

/-- A merge keeps a start that the entries agree with. -/
theorem merge_from_keeps {merged kept : List LogEntry} (hkept : kept <+: suffix)
    (hagree : ∀ (i : Nat) (entry present : LogEntry), incoming[i]? = some entry →
      kept[offset + i]? = some present → present.term = entry.term)
    (hmerge : mergeFrom suffix offset incoming = .ok merged) : kept <+: merged := by
  induction incoming generalizing offset with
  | nil =>
    cases hmerge
    exact hkept
  | cons entry rest ih =>
    rw [mergeFrom] at hmerge
    split at hmerge
    · cases hmerge
      exact hkept.trans (prefix_append _ _)
    rename_i present hpresent
    split at hmerge
    · rename_i hterm
      cases hmerge
      -- The log is cut at an entry with another term, which is not among those kept.
      have hbehind : kept.length ≤ offset := by
        by_contra hinside
        have hget := getElem?_eq_getElem (not_le.mp hinside)
        obtain ⟨tail, rfl⟩ := hkept
        rw [getElem?_append_left (not_le.mp hinside), hget] at hpresent
        cases hpresent
        exact hterm (hagree 0 entry _ rfl hget)
      have hcut : kept <+: suffix.take offset :=
        prefix_take_iff.mpr ⟨hkept, hbehind⟩
      exact hcut.trans (prefix_append _ _)
    split at hmerge
    · cases hmerge
    refine ih (fun i other held hother hheld => ?_) hmerge
    refine hagree (i + 1) other held (by simpa using hother) ?_
    rwa [show offset + (i + 1) = offset + 1 + i by omega]

/-- A merge succeeds when equal terms mean equal entries. -/
theorem merge_from_total
    (hsame : ∀ (i : Nat) (present entry : LogEntry), suffix[offset + i]? = some present →
      incoming[i]? = some entry → present.term = entry.term → present = entry) :
    ∃ merged, mergeFrom suffix offset incoming = .ok merged := by
  induction incoming generalizing offset with
  | nil => exact ⟨suffix, rfl⟩
  | cons entry rest ih =>
    rw [mergeFrom]
    cases hpresent : suffix[offset]? with
    | none => exact ⟨_, rfl⟩
    | some present =>
      dsimp only
      by_cases hterm : present.term ≠ entry.term
      · exact ⟨_, if_pos hterm⟩
      have hequal : present = entry := hsame 0 present entry hpresent rfl (not_ne_iff.mp hterm)
      rw [if_neg hterm, if_neg (not_ne_iff.mpr hequal)]
      refine ih fun i other later hother hlater => hsame (i + 1) other later ?_ ?_
      · rwa [show offset + (i + 1) = offset + 1 + i by omega]
      · simpa using hlater

theorem append_from_of_valid
    (hprevious : log.firstIndex ≤ previousIndex ∧ previousIndex ≤ log.lastIndex)
    (hempty : incoming ≠ []) (hexhausted : previousIndex ≠ uint64Max)
    (hvalid : incomingValid (previousIndex + 1) incoming = true) :
    (∃ merged, log.appendFrom previousIndex incoming = .ok merged ∧
        merged.boundary = log.boundary ∧
        mergeFrom log.suffix (previousIndex - log.firstIndex) incoming = .ok merged.suffix) ∨
      ∃ message, log.appendFrom previousIndex incoming = .error message ∧
        mergeFrom log.suffix (previousIndex - log.firstIndex) incoming = .error message := by
  rw [appendFrom, dif_neg (not_not.mpr hprevious), if_neg hempty, if_neg hexhausted,
    dif_pos hvalid]
  split
  · rename_i suffix hmerge
    exact .inl ⟨_, rfl, rfl, hmerge⟩
  · rename_i message hmerge
    exact .inr ⟨message, rfl, hmerge⟩

/-- What a successful `appendFrom` does to a log. -/
theorem append_from_spec (hrun : log.appendFrom previousIndex incoming = .ok merged) :
    log.firstIndex ≤ previousIndex ∧ previousIndex ≤ log.lastIndex ∧
      merged.boundary = log.boundary ∧ incomingValid (previousIndex + 1) incoming = true ∧
      ((merged.suffix = log.suffix ∧
          incoming <+: log.suffix.drop (previousIndex - log.firstIndex)) ∨
        merged.suffix = log.suffix.take (previousIndex - log.firstIndex) ++ incoming) := by
  rw [appendFrom] at hrun
  split at hrun
  · cases hrun
  rename_i hprevious
  obtain ⟨hfirst, hlast⟩ := not_not.mp hprevious
  refine ⟨hfirst, hlast, ?_⟩
  split at hrun
  · rename_i hempty
    cases hrun
    rw [hempty]
    exact ⟨rfl, rfl, .inl ⟨rfl, nil_prefix⟩⟩
  split at hrun
  · cases hrun
  split at hrun
  · rename_i hvalid
    split at hrun
    · rename_i suffix hmerge
      cases hrun
      have hlength := log.last_index_eq
      exact ⟨rfl, hvalid, merge_from_spec (by omega) hmerge⟩
    · cases hrun
  · cases hrun

/-- Entries that agree with a start leave it there. -/
theorem append_from_keeps {kept : List LogEntry} (hkept : kept <+: log.suffix)
    (hagree : ∀ entry ∈ incoming, log.firstIndex < entry.index → ∀ present : LogEntry,
      kept[entry.index - log.firstIndex - 1]? = some present → present.term = entry.term)
    (hrun : log.appendFrom previousIndex incoming = .ok merged) : kept <+: merged.suffix := by
  rw [appendFrom] at hrun
  split at hrun
  · cases hrun
  rename_i hprevious
  obtain ⟨hfirst, hlast⟩ := not_not.mp hprevious
  split at hrun
  · cases hrun
    exact hkept
  split at hrun
  · cases hrun
  split at hrun
  · rename_i hvalid
    split at hrun
    · rename_i suffix hmerge
      cases hrun
      have hcontiguous := (incoming_valid_iff.mp hvalid).1
      refine merge_from_keeps hkept (fun i entry present hentry hpresent => ?_) hmerge
      have hindex := hcontiguous.index_eq hentry
      refine hagree entry (mem_of_getElem? hentry) (by omega) present ?_
      rwa [show entry.index - log.firstIndex - 1 = previousIndex - log.firstIndex + i by omega]
    · cases hrun
  · cases hrun

theorem append_from_mem (hrun : log.appendFrom previousIndex incoming = .ok merged)
    (hentry : entry ∈ incoming) : entry ∈ merged.suffix := by
  obtain ⟨-, -, -, -, ⟨hsame, hbegins⟩ | hreplaced⟩ := append_from_spec hrun
  · rw [hsame]
    exact mem_of_mem_drop (hbegins.subset hentry)
  · rw [hreplaced]
    exact mem_append_right _ hentry

theorem entry_at_of_begins {longer : RaftLog} (hboundary : longer.boundary = log.boundary)
    (hbegins : log.suffix <+: longer.suffix) (hentry : log.entryAt index = some entry) :
    longer.entryAt index = some entry := by
  have hrange := (log.entry_at_is_some index).mp (by simp [hentry])
  have hfirst : longer.firstIndex = log.firstIndex := by rw [firstIndex, firstIndex, hboundary]
  have hentries : log.entries <+: longer.entries := by
    rw [entries, entries, hboundary]
    exact cons_prefix_cons.mpr ⟨rfl, hbegins⟩
  rw [log.entry_at_entries hrange.1] at hentry
  rw [longer.entry_at_entries (hfirst ▸ hrange.1), hfirst]
  obtain ⟨tail, htail⟩ := hentries
  rw [← htail, List.getElem?_append_left (List.getElem?_eq_some_iff.mp hentry).1]
  exact hentry

theorem append_from_again {again : RaftLog}
    (hrun : log.appendFrom previousIndex incoming = .ok merged)
    (hagain : merged.appendFrom previousIndex incoming = .ok again)
    (hentry : merged.entryAt index = some entry) : again.entryAt index = some entry := by
  refine entry_at_of_begins (append_from_spec hagain).2.2.1 ?_ hentry
  refine append_from_keeps prefix_rfl (fun new hnew hlater present hpresent => ?_) hagain
  have hheld := merged.entry_at_of_mem (append_from_mem hrun hnew)
  have hat := merged.entry_at_succ (new.index - merged.firstIndex - 1)
  rw [show merged.firstIndex + (new.index - merged.firstIndex - 1 + 1) = new.index by omega,
    hheld, hpresent] at hat
  rw [Option.some.inj hat]

/-! ## Compaction -/

theorem compact_to_spec {compacted : RaftLog} {boundaryIndex boundaryTerm : Nat}
    (hrun : log.compactTo boundaryIndex boundaryTerm = .ok compacted) :
    log.compactionRefused boundaryIndex boundaryTerm = false ∧
      compacted.boundary =
        { index := boundaryIndex, term := boundaryTerm, type := .noOp, command := [] } ∧
      compacted.suffix = log.suffix.drop (boundaryIndex - log.firstIndex) := by
  rw [compactTo] at hrun
  split_ifs at hrun with hrefused
  cases hrun
  exact ⟨by simpa using hrefused, rfl, rfl⟩

theorem retained_of_accepted (log : RaftLog) {boundaryIndex boundaryTerm : Nat}
    (haccepted : log.compactionRefused boundaryIndex boundaryTerm = false) :
    log.firstIndex ≤ boundaryIndex ∧ boundaryIndex ≤ log.lastIndex := by
  simp only [compactionRefused, Bool.or_eq_false_iff, bne_eq_false_iff_eq] at haccepted
  obtain ⟨entry, hentry, -⟩ := Option.map_eq_some_iff.mp haccepted.1.1
  exact (log.entry_at_is_some boundaryIndex).mp (by rw [hentry]; rfl)

theorem compact_to_ends {compacted : RaftLog} {boundaryIndex boundaryTerm : Nat}
    (hrun : log.compactTo boundaryIndex boundaryTerm = .ok compacted) :
    compacted.firstIndex = boundaryIndex ∧ compacted.lastIndex = log.lastIndex := by
  obtain ⟨haccepted, hboundary, hsuffix⟩ := compact_to_spec hrun
  have hrange := log.retained_of_accepted haccepted
  have hfirst : compacted.firstIndex = boundaryIndex := by rw [firstIndex, hboundary]
  have hlast := log.last_index_eq
  refine ⟨hfirst, ?_⟩
  rw [compacted.last_index_eq, hfirst, hsuffix, length_drop]
  omega

end RaftLog

end DistributedKV
