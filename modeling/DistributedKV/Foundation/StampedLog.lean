import Mathlib.Data.List.Infix
import Mathlib.Data.List.Pairwise

/-!
# Logs of stamped entries

A log is a list of entries, each stamped with the term that created it. Every term has one
origin log, the log of the leader of that term. A log is well stamped when its stamps are
positive, bounded and nondecreasing and when every entry, with all entries before it, comes from
the origin log of its stamp. Two well stamped logs that share a stamp at an index are equal up to
it (`WellStamped.take_eq_take`), and a prefix acknowledged in one term is carried into a log that
is at least as up to date (`carried_of_up_to_date`).
-/

namespace TermLog

open List

variable {E : Type*} (stamp : E → Nat)

/-- The stamp of the last entry, zero for the empty log. -/
def lastStamp (log : List E) : Nat := (log.getLast?.map stamp).getD 0

/-- The candidate's last stamp is larger, or equal with a log at least as long. -/
def UpToDate (candidate voter : List E) : Prop :=
  lastStamp stamp voter < lastStamp stamp candidate ∨
    (lastStamp stamp candidate = lastStamp stamp voter ∧ voter.length ≤ candidate.length)

/-- Stamps are positive, at most the bound and nondecreasing, and every entry comes with its
whole past from the origin log of its stamp. -/
structure WellStamped (origin : Nat → List E) (bound : Nat) (log : List E) : Prop where
  positive : ∀ entry ∈ log, 0 < stamp entry
  bounded : ∀ entry ∈ log, stamp entry ≤ bound
  sorted : log.Pairwise fun earlier later => stamp earlier ≤ stamp later
  sourced : ∀ i entry, log[i]? = some entry → log.take (i + 1) <+: origin (stamp entry)

variable {stamp}

theorem last_stamp_of_get_last {log : List E} {last : E} (hlast : log.getLast? = some last) :
    lastStamp stamp log = stamp last := by
  simp [lastStamp, hlast]

theorem last_stamp_take {log : List E} {i : Nat} {entry : E} (hentry : log[i]? = some entry) :
    lastStamp stamp (log.take (i + 1)) = stamp entry := by
  apply last_stamp_of_get_last
  rw [getLast?_take, if_neg (Nat.succ_ne_zero i), Nat.add_sub_cancel, hentry, Option.some_or]

theorem exists_last_of_pos {log : List E} (hpos : 0 < lastStamp stamp log) :
    ∃ last, log.getLast? = some last ∧ stamp last = lastStamp stamp log := by
  cases hlast : log.getLast? with
  | none => simp [lastStamp, hlast] at hpos
  | some last => exact ⟨last, rfl, (last_stamp_of_get_last hlast).symm⟩

namespace WellStamped

variable {origin grown : Nat → List E} {bound larger : Nat} {log other : List E}

theorem nil : WellStamped stamp origin bound [] where
  positive := by simp
  bounded := by simp
  sorted := List.Pairwise.nil
  sourced := by simp

section Stamped

variable (hlog : WellStamped stamp origin bound log)
include hlog

theorem of_isPrefix (hother : other <+: log) :
    WellStamped stamp origin bound other where
  positive entry hentry := hlog.positive entry (hother.subset hentry)
  bounded entry hentry := hlog.bounded entry (hother.subset hentry)
  sorted := hlog.sorted.sublist hother.sublist
  sourced i entry hentry := by
    obtain ⟨rest, rfl⟩ := hother
    have hi : i < other.length := (List.getElem?_eq_some_iff.mp hentry).1
    have hsource := hlog.sourced i entry (by rw [List.getElem?_append_left hi, hentry])
    rwa [take_append_of_le_length (Nat.succ_le_of_lt hi)] at hsource

theorem mono (hbound : bound ≤ larger)
    (hgrown : ∀ term, origin term <+: grown term) : WellStamped stamp grown larger log where
  positive := hlog.positive
  bounded entry hentry := (hlog.bounded entry hentry).trans hbound
  sorted := hlog.sorted
  sourced i entry hentry := (hlog.sourced i entry hentry).trans (hgrown _)

theorem with_bound
    (hbound : ∀ entry ∈ log, stamp entry ≤ larger) : WellStamped stamp origin larger log :=
  { hlog with bounded := hbound }

theorem stamp_le_last {entry : E} (hentry : entry ∈ log) : stamp entry ≤ lastStamp stamp log := by
  cases hlast : log.getLast? with
  | none => simp_all
  | some last =>
    obtain ⟨front, rfl⟩ := getLast?_eq_some_iff.mp hlast
    rw [last_stamp_of_get_last hlast]
    rcases mem_append.mp hentry with hfront | hsingle
    · exact (pairwise_append.mp hlog.sorted).2.2 entry hfront last (by simp)
    · simp_all

theorem prefix_origin_last {last : E}
    (hlast : log.getLast? = some last) : log <+: origin (stamp last) := by
  rw [List.getLast?_eq_getElem?] at hlast
  have hlength := (List.getElem?_eq_some_iff.mp hlast).1
  have hsource := hlog.sourced _ _ hlast
  rwa [List.take_of_length_le (by omega)] at hsource

theorem take_eq_take {secondBound : Nat}
    (hother : WellStamped stamp origin secondBound other) {i : Nat} {first second : E}
    (hfirst : log[i]? = some first) (hsecond : other[i]? = some second)
    (hstamp : stamp first = stamp second) : log.take (i + 1) = other.take (i + 1) := by
  have hleft := hlog.sourced i first hfirst
  have hright := hother.sourced i second hsecond
  rw [← hstamp] at hright
  have hi := (List.getElem?_eq_some_iff.mp hfirst).1
  have hj := (List.getElem?_eq_some_iff.mp hsecond).1
  have hlength : (log.take (i + 1)).length = (other.take (i + 1)).length := by
    simp only [length_take]
    omega
  exact (prefix_of_prefix_length_le hleft hright hlength.le).eq_of_length hlength

/-- Appending an entry of the bounding term keeps a log well stamped. -/
theorem append {entry : E} (hstamp : stamp entry = bound) (hpos : 0 < bound)
    (horigin : log ++ [entry] <+: origin bound) :
    WellStamped stamp origin bound (log ++ [entry]) where
  positive e he := by
    rcases mem_append.mp he with hold | hnew
    · exact hlog.positive e hold
    · simp_all
  bounded e he := by
    rcases mem_append.mp he with hold | hnew
    · exact hlog.bounded e hold
    · simp_all
  sorted := by
    refine pairwise_append.mpr ⟨hlog.sorted, pairwise_singleton _ _, ?_⟩
    intro earlier hearlier later hlater
    rw [mem_singleton.mp hlater, hstamp]
    exact hlog.bounded earlier hearlier
  sourced i e he := by
    rcases Nat.lt_or_ge i log.length with hi | hi
    · rw [getElem?_append_left hi] at he
      rw [take_append_of_le_length (Nat.succ_le_of_lt hi)]
      exact hlog.sourced i e he
    · have hmem : e = entry := by
        rw [getElem?_append_right hi] at he
        exact mem_singleton.mp (mem_of_getElem? he)
      rw [hmem, hstamp]
      exact (List.take_prefix _ _).trans horigin

end Stamped

end WellStamped

/-- What a voter holds is held by every log that is as up to date. -/
theorem carried_of_up_to_date {origin : Nat → List E} {candidateBound voterBound term : Nat}
    {held candidate voter : List E}
    (hcandidate : WellStamped stamp origin candidateBound candidate)
    (hvoter : WellStamped stamp origin voterBound voter)
    (hterm : 0 < term) (hheld : held <+: origin term) (hlast : lastStamp stamp held = term)
    (horigin : ∀ entry ∈ origin term, stamp entry ≤ term)
    (hvoterHeld : held <+: voter) (hfresh : UpToDate stamp candidate voter)
    (hlater : ∀ entry ∈ candidate, term < stamp entry → held <+: origin (stamp entry)) :
    held <+: candidate := by
  have hheldPos : 0 < lastStamp stamp held := by omega
  obtain ⟨final, hfinal, hfinalStamp⟩ := exists_last_of_pos hheldPos
  have hvoterLast : term ≤ lastStamp stamp voter := by
    have hmem := hvoterHeld.subset (mem_of_getLast? hfinal)
    have hle := hvoter.stamp_le_last hmem
    omega
  have hcandidatePos : 0 < lastStamp stamp candidate := by
    rcases hfresh with h | h <;> omega
  obtain ⟨last, hlastEntry, hlastStamp⟩ := exists_last_of_pos hcandidatePos
  have hcandidateOrigin := hcandidate.prefix_origin_last hlastEntry
  have hmem : last ∈ candidate := mem_of_getLast? hlastEntry
  rcases Nat.lt_or_ge term (stamp last) with hnewer | hsame
  · -- The candidate's log ends in a later term, whose origin log holds the prefix.
    rcases prefix_or_prefix_of_prefix (hlater last hmem hnewer) hcandidateOrigin with h | h
    · exact h
    · have hle := horigin last (hheld.subset (h.subset hmem))
      omega
  · -- Both logs end in the term itself, and the candidate's is at least as long.
    have hlength : voter.length ≤ candidate.length := by
      rcases hfresh with h | h
      · omega
      · exact h.2
    have heq : stamp last = term := by
      rcases hfresh with h | h <;> omega
    rw [heq] at hcandidateOrigin
    exact prefix_of_prefix_length_le hheld hcandidateOrigin
      (hvoterHeld.length_le.trans hlength)

end TermLog
