import DistributedKV.Raft.Node.Saves

/-!
# Backtracking after a conflict

A leader that replicates to a follower looks for the point where the two logs part. A rejection
carries a hint, and the leader moves its cursor there. With logs of one cluster every rejection
lowers the cursor, except that one may move it right behind the boundary of a compacted follower,
and then the next request is accepted (`backtracks`). That two logs match where they have the same
index and term is not enough: the entries of a term must also start at the same index in both
(`oscillation`).
-/

namespace DistributedKV

open Barrier List RaftNode RaftLog

namespace RaftLog

/-! ## Terms in a log -/

theorem entry_at_position (log : RaftLog) (position : Nat) :
    log.entryAt (log.firstIndex + position) = log.entries[position]? := by
  rw [log.entry_at_entries (Nat.le_add_right _ _), Nat.add_sub_cancel_left]

variable {log : RaftLog} {index term : Nat}

theorem exists_position_of_term (hterm : log.termAt index = some term) :
    ∃ position entry, index = log.firstIndex + position ∧ log.entries[position]? = some entry ∧
      entry.term = term := by
  obtain ⟨entry, hentry, hsame⟩ := Option.map_eq_some_iff.mp hterm
  have hrange := (log.entry_at_is_some index).mp (by simp [hentry])
  have hindex : index = log.firstIndex + (index - log.firstIndex) := by omega
  refine ⟨index - log.firstIndex, entry, hindex, ?_, hsame⟩
  rwa [← log.entry_at_position, ← hindex]

/-- The first entry of a term is found. -/
theorem first_index_of_term_spec (hterm : log.termAt index = some term) :
    ∃ first, log.firstIndexOfTerm term = some first ∧ first ≤ index ∧
      log.termAt first = some term := by
  obtain ⟨position, entry, rfl, hentry, hsame⟩ := exists_position_of_term hterm
  cases hfind : log.entries.find? (·.term == term) with
  | none =>
    have hnone := find?_eq_none.mp hfind entry (mem_of_getElem? hentry)
    exact absurd (beq_iff_eq.mpr hsame) hnone
  | some found =>
    obtain ⟨htest, place, hplace, hget, hearlier⟩ := find?_eq_some_iff_getElem.mp hfind
    have hfound : log.entryAt (log.firstIndex + place) = some found := by
      rw [log.entry_at_position, getElem?_eq_getElem hplace, hget]
    have hle : place ≤ position := by
      by_contra hlt
      have hother := hearlier position (not_le.mp hlt)
      obtain ⟨hposition, hat⟩ := List.getElem?_eq_some_iff.mp hentry
      rw [hat, hsame] at hother
      simp at hother
    refine ⟨log.firstIndex + place, ?_, by omega, ?_⟩
    · rw [firstIndexOfTerm, hfind, Option.map_some, log.entry_at_index hfound]
    · rw [termAt, hfound, Option.map_some, beq_iff_eq.mp htest]

theorem last_index_of_term_spec {last : Nat} (hlast : log.lastIndexOfTerm term = some last) :
    log.termAt last = some term ∧ ∀ index, log.termAt index = some term → index ≤ last := by
  obtain ⟨found, hfind, rfl⟩ := Option.map_eq_some_iff.mp hlast
  obtain ⟨place, hplace, htest, hlater⟩ := exists_last_position_of_find hfind
  have hfound : log.entryAt (log.firstIndex + place) = some found := by
    rw [log.entry_at_position, hplace]
  rw [log.entry_at_index hfound]
  refine ⟨by rw [termAt, hfound, Option.map_some, beq_iff_eq.mp htest], fun index hterm => ?_⟩
  obtain ⟨position, entry, rfl, hentry, hsame⟩ := exists_position_of_term hterm
  by_contra hlt
  have hother := hlater position entry (by omega) hentry
  rw [hsame] at hother
  simp at hother

theorem not_term_at_of_last_none (hlast : log.lastIndexOfTerm term = none) (index : Nat) :
    log.termAt index ≠ some term := by
  intro hterm
  obtain ⟨position, entry, -, hentry, hsame⟩ := exists_position_of_term hterm
  have hnone := find?_eq_none.mp (Option.map_eq_none_iff.mp hlast) entry
    (mem_reverse.mpr (mem_of_getElem? hentry))
  exact hnone (beq_iff_eq.mpr hsame)

/-! ## Logs of a leader and a follower -/

/-- The terms do not decrease. -/
def Sorted (log : RaftLog) : Prop :=
  ∀ {earlier later first second : Nat}, earlier ≤ later → log.termAt earlier = some first →
    log.termAt later = some second → first ≤ second

/-- The log of a leader that starts at index zero and that of a follower, compacted where the
leader agrees or not at all. Where they have the same index and term they have the same entries
up to there. -/
structure Comparable (leader follower : RaftLog) : Prop where
  start : leader.firstIndex = 0
  boundary : leader.termAt follower.firstIndex = some follower.boundary.term
  same : ∀ {index entry present}, leader.entryAt index = some entry →
    follower.entryAt index = some present → entry.term = present.term →
    ∀ earlier, follower.firstIndex < earlier → earlier ≤ index →
      leader.entryAt earlier = follower.entryAt earlier
  leaderSorted : leader.Sorted
  followerSorted : follower.Sorted
  positive : ∀ entry ∈ leader.suffix, entry.term ≠ 0

/-- A term that both logs have starts where the follower has it: the leader has it there too if
it has it later. -/
def Aligned (leader follower : RaftLog) : Prop :=
  ∀ {earlier later term : Nat}, earlier ≤ later → follower.termAt earlier = some term →
    leader.termAt later = some term → leader.termAt earlier = some term

/-- The logs have the same term at the index, or the follower has compacted it. -/
def AgreesAt (leader follower : RaftLog) (index : Nat) : Prop :=
  index ≤ follower.firstIndex ∨
    ∃ term, leader.termAt index = some term ∧ follower.termAt index = some term

section Comparable

variable {leader follower : RaftLog}

theorem term_at_first (log : RaftLog) : log.termAt log.firstIndex = some log.boundary.term := by
  rw [termAt, log.entry_at_first, Option.map_some]

theorem first_index_le_of_term_at (hterm : log.termAt index = some term) :
    log.firstIndex ≤ index := by
  obtain ⟨position, -, rfl, -⟩ := exists_position_of_term hterm
  exact Nat.le_add_right _ _

/-- Below an index of agreement the logs agree. -/
theorem Comparable.agree_below (hcomparable : Comparable leader follower) {earlier : Nat}
    (hagrees : AgreesAt leader follower index) (hfirst : follower.firstIndex ≤ earlier)
    (hearlier : earlier ≤ index) :
    ∃ term, leader.termAt earlier = some term ∧ follower.termAt earlier = some term := by
  rcases hfirst.eq_or_lt with rfl | hlater
  · exact ⟨_, hcomparable.boundary, follower.term_at_first⟩
  obtain hcompacted | ⟨term, hleader, hfollower⟩ := hagrees
  · omega
  obtain ⟨entry, hentry, hterm⟩ := Option.map_eq_some_iff.mp hleader
  obtain ⟨present, hpresent, hsame⟩ := Option.map_eq_some_iff.mp hfollower
  have heq := hcomparable.same hentry hpresent (hterm.trans hsame.symm) earlier hlater hearlier
  have hlast := le_last_index_of_term_at hfollower
  obtain ⟨held, hheld⟩ := Option.isSome_iff_exists.mp
    ((follower.entry_at_is_some earlier).mpr ⟨hfirst, hearlier.trans hlast⟩)
  refine ⟨held.term, ?_, by rw [termAt, hheld, Option.map_some]⟩
  rw [termAt, heq, hheld, Option.map_some]

theorem AgreesAt.le_last (hagrees : AgreesAt leader follower index) :
    index ≤ follower.lastIndex := by
  obtain hcompacted | ⟨term, -, hfollower⟩ := hagrees
  · have hlast := follower.last_index_eq
    omega
  · exact le_last_index_of_term_at hfollower

theorem Comparable.exists_term (hcomparable : Comparable leader follower)
    (hindex : index ≤ leader.lastIndex) : ∃ term, leader.termAt index = some term := by
  obtain ⟨entry, hentry⟩ := Option.isSome_iff_exists.mp
    ((leader.entry_at_is_some index).mpr ⟨hcomparable.start ▸ Nat.zero_le index, hindex⟩)
  exact ⟨entry.term, by rw [termAt, hentry, Option.map_some]⟩

theorem Comparable.first_le_last (hcomparable : Comparable leader follower) :
    follower.firstIndex ≤ leader.lastIndex :=
  le_last_index_of_term_at hcomparable.boundary

theorem Comparable.incoming_valid (hcomparable : Comparable leader follower) {previous : Nat}
    (hprevious : previous ≤ leader.lastIndex) (maximum : Nat) :
    incomingValid (previous + 1) (leader.entriesFrom (previous + 1) maximum) = true := by
  have hlast := leader.last_index_eq
  have hcontiguous := leader.contiguous
  rw [show leader.boundary.index = 0 from hcomparable.start] at hcontiguous
  rw [hcomparable.start] at hlast
  rw [entries_from_of_start hcomparable.start, incoming_valid_iff]
  have hsent : ContiguousFrom (previous + 1) ((leader.suffix.drop previous).take maximum) := by
    have hdrop := hcontiguous.drop previous (by omega)
    rw [Nat.zero_add, Nat.add_comm] at hdrop
    exact hdrop.take maximum
  refine ⟨hsent, fun entry hentry => ⟨?_, ?_⟩⟩
  · obtain ⟨k, hk⟩ := mem_iff_getElem?.mp hentry
    have hindex := hsent.index_eq hk
    omega
  · exact hcomparable.positive entry (mem_of_mem_drop (mem_of_mem_take hentry))

/-- A follower that agrees at an index takes what follows. -/
theorem Comparable.append_from (hcomparable : Comparable leader follower)
    (hwords : leader.lastIndex < uint64Max) {previous : Nat}
    (hleader : leader.termAt previous = some term)
    (hfollower : follower.termAt previous = some term) (maximum : Nat) :
    ∃ merged, follower.appendFrom previous (leader.entriesFrom (previous + 1) maximum) =
      .ok merged := by
  have hprevious := And.intro (first_index_le_of_term_at hfollower)
    (le_last_index_of_term_at hfollower)
  have hinside := le_last_index_of_term_at hleader
  by_cases hnothing : leader.entriesFrom (previous + 1) maximum = []
  · rw [hnothing, appendFrom, dif_neg (not_not.mpr hprevious), if_pos rfl]
    exact ⟨follower, rfl⟩
  rcases append_from_of_valid hprevious hnothing (by omega)
      (hcomparable.incoming_valid hinside maximum) with ⟨merged, hmerged, -⟩ | ⟨message, -, hfailed⟩
  · exact ⟨merged, hmerged⟩
  -- An entry of the leader's log with the term of a present one is the same entry.
  have htotal : ∃ merged, mergeFrom follower.suffix (previous - follower.firstIndex)
      (leader.entriesFrom (previous + 1) maximum) = .ok merged := by
    rw [entries_from_of_start hcomparable.start]
    refine merge_from_total fun i present entry hpresent hentry hterm => ?_
    have hheld : follower.entryAt (previous + i + 1) = some present := by
      rw [← hpresent, ← follower.entry_at_succ]
      congr 1
      omega
    have hsent : leader.entryAt (previous + i + 1) = some entry := by
      have hget := leader.entry_at_succ (previous + i)
      rw [hcomparable.start, Nat.zero_add] at hget
      rw [hget]
      rw [getElem?_take] at hentry
      split_ifs at hentry
      rwa [getElem?_drop] at hentry
    have hsame := hcomparable.same hsent hheld hterm.symm (previous + i + 1) (by omega) le_rfl
    rw [hsent, hheld] at hsame
    exact (Option.some.inj hsame).symm
  obtain ⟨merged, hmerged⟩ := htotal
  rw [hmerged] at hfailed
  cases hfailed

end Comparable

end RaftLog

open RaftLog (Comparable Aligned AgreesAt)

namespace LogReplication

variable {leader follower : RaftLog}

/-- The bounds do not move a cursor inside the log. -/
theorem next_index_of_hint (hstart : leader.firstIndex = 0) {conflictIndex : Nat}
    {conflictTerm : Option Nat} {hint : Nat}
    (hhint : (match conflictTerm with
      | none => conflictIndex
      | some term =>
        match leader.lastIndexOfTerm term with
        | some last => last + 1
        | none => conflictIndex) = hint)
    (hpositive : 1 ≤ hint) (hinside : hint ≤ leader.lastIndex + 1) :
    nextIndexAfterConflict leader conflictIndex conflictTerm = hint := by
  have hbounded : nextIndexAfterConflict leader conflictIndex conflictTerm =
      min (max 1 hint) (leader.lastIndex + 1) := by
    subst hhint
    unfold nextIndexAfterConflict
    rw [hstart]
    rfl
  rw [hbounded]
  omega

end LogReplication

namespace RaftNode

variable {leader follower : RaftLog} {request : AppendEntriesRequest}
  {response rejection : AppendEntriesResponse}

/-- Where the hint of a conflicting term leads. -/
theorem term_hint (hcomparable : Comparable leader follower) (haligned : Aligned leader follower)
    {previous expected present : Nat} (hleader : leader.termAt previous = some expected)
    (hfollower : follower.termAt previous = some present) (hconflict : present ≠ expected) :
    ∃ next, LogReplication.nextIndexAfterConflict leader
        ((follower.firstIndexOfTerm present).getD (follower.firstIndex + 1)) (some present) =
          next ∧
      next ≤ previous ∧ ∀ index, AgreesAt leader follower index → index ≤ previous →
        index < next := by
  have hinside := le_last_index_of_term_at hleader
  have hstarted := first_index_le_of_term_at hfollower
  obtain ⟨first, hfirst, hfirstLe, hfirstTerm⟩ := first_index_of_term_spec hfollower
  rw [hfirst, Option.getD_some]
  cases hlast : leader.lastIndexOfTerm present with
  | none =>
    have hbehind : ∀ index, AgreesAt leader follower index → index < first := by
      intro index hagrees
      by_contra hle
      obtain ⟨term, htheirs, hown⟩ := hcomparable.agree_below hagrees
        (first_index_le_of_term_at hfirstTerm) (not_lt.mp hle)
      rw [hfirstTerm] at hown
      cases hown
      exact not_term_at_of_last_none hlast first htheirs
    have hpositive : follower.firstIndex < first := hbehind _ (.inl le_rfl)
    refine ⟨first, ?_, hfirstLe, fun index hagrees _ => hbehind index hagrees⟩
    exact LogReplication.next_index_of_hint hcomparable.start (by simp only [hlast]) (by omega)
      (by omega)
  | some last =>
    obtain ⟨hlastTerm, hlatest⟩ := last_index_of_term_spec hlast
    have hbefore : last < previous := by
      by_contra hle
      have hsame := haligned (not_lt.mp hle) hfollower hlastTerm
      rw [hleader] at hsame
      exact hconflict (Option.some.inj hsame).symm
    -- Between the leader's last entry of the term and the conflict the logs cannot agree.
    have happart : ∀ index, AgreesAt leader follower index → follower.firstIndex ≤ index →
        index ≤ previous → index ≤ last := by
      intro index hagrees hretained hle
      by_contra hlater
      obtain ⟨term, htheirs, hown⟩ := hcomparable.agree_below hagrees hretained le_rfl
      have hupper := hcomparable.followerSorted hle hown hfollower
      have hlower := hcomparable.leaderSorted (not_le.mp hlater).le hlastTerm htheirs
      obtain rfl : term = present := Nat.le_antisymm hupper hlower
      exact hlater (hlatest index htheirs)
    refine ⟨last + 1, ?_, hbefore, fun index hagrees hle => ?_⟩
    · exact LogReplication.next_index_of_hint hcomparable.start (by simp only [hlast]) (by omega)
        (by omega)
    · rcases Nat.le_total index follower.firstIndex with hcompacted | hretained
      · have := happart _ (.inl le_rfl) le_rfl hstarted
        omega
      · have := happart index hagrees hretained hle
        omega

/-- Where the hint of a rejection leads. -/
theorem conflict_hint (hcomparable : Comparable leader follower) (haligned : Aligned leader follower)
    (hprevious : leader.termAt request.previousLogIndex = some request.previousLogTerm)
    (hresponse : response.conflictTerm = none)
    (hreject : appendConflict follower request response = some rejection) :
    ∃ next, LogReplication.nextIndexAfterConflict leader rejection.conflictIndex
        rejection.conflictTerm = next ∧
      (request.previousLogIndex < follower.firstIndex ∧ next = follower.firstIndex + 1 ∨
        next ≤ request.previousLogIndex ∧ ∀ index, AgreesAt leader follower index →
          index ≤ request.previousLogIndex → index < next) := by
  have hinside := le_last_index_of_term_at hprevious
  have hlast := follower.last_index_eq
  rw [appendConflict] at hreject
  by_cases hshort : follower.lastIndex < request.previousLogIndex
  · rw [if_pos hshort] at hreject
    cases hreject
    refine ⟨follower.lastIndex + 1, ?_, .inr ⟨hshort, fun index hagrees _ => ?_⟩⟩
    · exact LogReplication.next_index_of_hint hcomparable.start (by simp only [hresponse]) (by omega)
        (by omega)
    · exact Nat.lt_succ_of_le hagrees.le_last
  rw [if_neg hshort] at hreject
  cases hterm : follower.termAt request.previousLogIndex with
  | none =>
    rw [hterm] at hreject
    cases hreject
    have hbelow : request.previousLogIndex < follower.firstIndex := by
      by_contra hretained
      have hsome := (follower.entry_at_is_some request.previousLogIndex).mpr
        ⟨not_lt.mp hretained, not_lt.mp hshort⟩
      rw [Option.map_eq_none_iff.mp hterm] at hsome
      cases hsome
    have hfirst := hcomparable.first_le_last
    refine ⟨follower.firstIndex + 1, ?_, .inl ⟨hbelow, rfl⟩⟩
    exact LogReplication.next_index_of_hint hcomparable.start (if_pos hbelow) (by omega) (by omega)
  | some present =>
    rw [hterm] at hreject
    dsimp only at hreject
    split_ifs at hreject with hconflict
    cases hreject
    obtain ⟨next, hnext, hle, hbehind⟩ := term_hint hcomparable haligned hprevious hterm hconflict
    exact ⟨next, hnext, .inr ⟨hle, hbehind⟩⟩

/-! ## Handlers -/

variable {node : RaftNode}

/-- The answer to a request before anything was compared. -/
def answerTo (node : RaftNode) (request : AppendEntriesRequest) : AppendEntriesResponse where
  term := node.currentTerm
  success := false
  requestPreviousLogIndex := request.previousLogIndex
  requestEntryCount := request.entries.length
  matchIndex := 0
  conflictIndex := node.log.lastIndex + 1
  conflictTerm := none
  readContext := request.readContext

theorem append_conflict_none
    (hprevious : follower.termAt request.previousLogIndex = some request.previousLogTerm) :
    appendConflict follower request response = none := by
  rw [appendConflict, if_neg (not_lt.mpr (le_last_index_of_term_at hprevious)), hprevious]
  exact if_neg (not_not.mpr rfl)

theorem append_conflict_fields (hreject : appendConflict follower request response =
    some rejection) :
    rejection.success = response.success ∧
      rejection.requestPreviousLogIndex = response.requestPreviousLogIndex := by
  rw [appendConflict] at hreject
  by_cases hshort : follower.lastIndex < request.previousLogIndex
  · rw [if_pos hshort] at hreject
    cases hreject
    exact ⟨rfl, rfl⟩
  rw [if_neg hshort] at hreject
  split at hreject
  · split_ifs at hreject
    cases hreject
    exact ⟨rfl, rfl⟩
  · cases hreject
    exact ⟨rfl, rfl⟩

section Handler

variable (hvoter : node.isVotingMember request.leaderId = true)
  (hterm : node.currentTerm ≤ request.term)
include hvoter hterm

theorem handle_append_followed :
    handleAppendEntries request node =
      (match appendConflict node.log request (node.answerTo request) with
        | some rejection => finishAppend rejection (decide (node.currentTerm < request.term))
        | none => appendMatched request (node.answerTo request)
            (decide (node.currentTerm < request.term)))
        (node.followLeader request.term request.leaderId) := by
  rw [handleAppendEntries, get_bind]
  dsimp only
  rw [if_neg (by simp [hvoter, not_lt.mpr hterm])]
  rfl

theorem handle_append_rejected (hsaves : node.SavesSucceed)
    (hreject : appendConflict node.log request (node.answerTo request) = some rejection) :
    handleAppendEntries request node =
      .ok { rejection with term := request.term }
        (node.acknowledged request.term request.leaderId) := by
  have hfollowed := (follow_leader_fields hterm request.leaderId).2.1
  rw [handle_append_followed hvoter hterm, hreject]
  dsimp only
  rw [finishAppend, get_bind, hfollowed, persistIf, acknowledged]
  by_cases hnewer : node.currentTerm < request.term
  · rw [if_pos (by simpa using hnewer), if_pos hnewer,
      bind_of_ok (hsaves.follow_leader request.term request.leaderId).persist_or_throw]
    rfl
  · rw [if_neg (by simpa using hnewer), if_neg hnewer]
    rfl

end Handler

/-! ## Changes that come with a request -/

/-- The configuration changes among the entries can be put into force. -/
def Interprets (node : RaftNode) (entries : List LogEntry) : Prop :=
  ∀ entry ∈ entries, entry.type = .confChange →
    node.clusterConfig.isSome = true ∧ (decodeConfChangeEntry entry.command).isOk = true

/-- A follower that can put everything in its log into force and whose saves succeed. -/
structure Serving (node : RaftNode) (log : RaftLog) : Prop where
  role : node.role = .follower
  holds : node.log = log
  saves : node.SavesSucceed
  interprets : node.Interprets log.entries

variable {log : RaftLog}

theorem Serving.congr {after : RaftNode} (hserving : node.Serving log)
    (hrole : after.role = node.role) (hlog : after.log = node.log)
    (hpersistence : after.persistence = node.persistence)
    (hcluster : node.clusterConfig.isSome = true → after.clusterConfig.isSome = true) :
    after.Serving log where
  role := hrole.trans hserving.role
  holds := hlog.trans hserving.holds
  saves := by
    rw [SavesSucceed, hpersistence]
    exact hserving.saves
  interprets := fun entry hentry htype =>
    (hserving.interprets entry hentry htype).imp_left hcluster

/-- A serving follower applies a change. -/
theorem Serving.apply_configuration_entry (hserving : node.Serving log)
    (hcluster : node.clusterConfig.isSome = true) (change : ConfChangeEntry) :
    ∃ final, applyConfigurationEntry change node = .ok () final ∧ final.Serving log := by
  obtain ⟨cluster, hsome⟩ := Option.isSome_iff_exists.mp hcluster
  rw [applyConfigurationEntry]
  by_cases hjoint : change.joint = true
  · rw [if_pos hjoint, modify_bind, get_bind]
    have hentered : (node.enterJoint change).clusterConfig = some cluster := hsome
    have hrole : ((node.enterJoint change).adoptJointPeers cluster change.targetConfig).role ≠
        .leader := by
      show node.role ≠ .leader
      rw [hserving.role]
      decide
    rw [hentered]
    dsimp only
    rw [set_bind, if_neg hrole]
    exact ⟨_, rfl, hserving.congr rfl rfl rfl fun h => h⟩
  · rw [if_neg hjoint]
    exact ⟨_, rfl, hserving.congr rfl rfl rfl fun _ => rfl⟩

/-- The uncommitted changes of a request are put into force. -/
theorem Serving.apply_appended {entries : List LogEntry}
    (hentries : ∀ entry ∈ entries, entry ∈ log.entries) (hserving : node.Serving log) :
    ∃ joined final, applyAppended entries node = .ok joined final ∧ final.Serving log := by
  induction entries generalizing node with
  | nil => exact ⟨false, node, rfl, hserving⟩
  | cons entry rest ih =>
    have hrest : ∀ other ∈ rest, other ∈ log.entries :=
      fun other hother => hentries other (mem_cons_of_mem _ hother)
    rw [applyAppended, get_bind]
    cases hchange : (if node.commitIndex < entry.index then changeOf entry else none) with
    | none => exact ih hrest hserving
    | some change =>
      dsimp only
      by_cases hjoint : change.joint = true
      · have htype : entry.type = .confChange := by
          split_ifs at hchange
          rw [changeOf] at hchange
          split_ifs at hchange with htype
          exact htype
        obtain ⟨hcluster, -⟩ :=
          hserving.interprets entry (hentries entry mem_cons_self) htype
        obtain ⟨entered, hentered, hnext⟩ :=
          hserving.apply_configuration_entry hcluster change
        have hpending :
            { entered with pendingConfChangeIndex := some entry.index }.Serving log :=
          hnext.congr rfl rfl rfl fun h => h
        obtain ⟨joined, final, hfinal, hlast⟩ := ih hrest hpending
        refine ⟨true, final, ?_, hlast⟩
        rw [if_pos hjoint, bind_of_ok hentered, modify_bind, bind_of_ok hfinal]
        rfl
      · rw [if_neg hjoint]
        exact ih hrest hserving

/-- Committed changes are put into force. -/
theorem Serving.apply_committed_loop (count : Nat) (hserving : node.Serving log) :
    ∃ final, applyCommittedLoop count node = .ok () final ∧ final.Serving log := by
  induction count generalizing node with
  | zero => exact ⟨node, rfl, hserving⟩
  | succ count ih =>
    rw [applyCommittedLoop, get_bind]
    cases hentry : node.log.entryAt (node.configurationAppliedIndex + 1) with
    | none => exact ⟨node, rfl, hserving⟩
    | some entry =>
      have hmember : entry ∈ log.entries := by
        rw [hserving.holds] at hentry
        exact log.entry_at_mem hentry
      have happlied : ∃ applied, applyCommittedEntry entry node = .ok () applied ∧
          applied.Serving log := by
        rw [applyCommittedEntry]
        by_cases htype : entry.type = .confChange
        · obtain ⟨hcluster, hdecodes⟩ := hserving.interprets entry hmember htype
          rw [if_pos htype]
          cases hdecode : decodeConfChangeEntry entry.command with
          | error error => simp [hdecode, Except.isOk, Except.toBool] at hdecodes
          | ok change => exact hserving.apply_configuration_entry hcluster change
        · rw [if_neg htype]
          exact ⟨node, rfl, hserving⟩
      obtain ⟨applied, hrun, hnext⟩ := happlied
      have hadvanced : { applied with
          configurationAppliedIndex := node.configurationAppliedIndex + 1 }.Serving log :=
        hnext.congr rfl rfl rfl fun h => h
      obtain ⟨final, hfinal, hlast⟩ := ih hadvanced
      refine ⟨final, ?_, hlast⟩
      dsimp only
      rw [bind_of_ok hrun, modify_bind, hfinal]

/-- The commit index follows the leader's. -/
theorem Serving.follow_commit (hserving : node.Serving log) (leaderCommit : Nat) :
    ∃ moved final, followCommit leaderCommit node = .ok moved final ∧ final.Serving log := by
  rw [followCommit, get_bind]
  by_cases hlater : node.commitIndex < leaderCommit
  · rw [if_pos hlater]
    by_cases hmoves : min leaderCommit node.log.lastIndex ≠ node.commitIndex
    · have hmoved : { node with commitIndex := min leaderCommit node.log.lastIndex }.Serving log :=
        hserving.congr rfl rfl rfl fun h => h
      obtain ⟨final, hfinal, hlast⟩ := hmoved.apply_committed_loop
        (min leaderCommit node.log.lastIndex - node.configurationAppliedIndex)
      refine ⟨true, final, ?_, hlast⟩
      rw [if_pos hmoves, set_bind]
      have happly : applyCommittedConfiguration
          { node with commitIndex := min leaderCommit node.log.lastIndex } = .ok () final := by
        rw [applyCommittedConfiguration, get_bind]
        exact hfinal
      rw [bind_of_ok happly]
      rfl
    · rw [if_neg hmoves]
      exact ⟨false, node, rfl, hserving⟩
  · rw [if_neg hlater]
    exact ⟨false, node, rfl, hserving⟩

theorem Serving.rollback_pending (hserving : node.Serving log) (pending : Option (Bytes × Bool)) :
    (node.rollbackPending pending).1.Serving log := by
  unfold rollbackPending dropPending
  split
  · split_ifs
    · exact hserving
    · exact hserving.congr rfl rfl rfl fun h => h
    · exact hserving.congr rfl rfl rfl fun h => h
  · exact hserving

theorem ensures_finish_append_success (response : AppendEntriesResponse) (changed : Bool) :
    Ensures (finishAppend response changed) node fun answer _ =>
      answer.success = response.success := by
  rw [finishAppend]
  exact .get_bind (.bind_last fun _ _ => .pure rfl)

theorem SavesSucceed.finish_append (hsaves : node.SavesSucceed) (response : AppendEntriesResponse)
    (changed : Bool) : Succeeds (finishAppend response changed) node := by
  rw [finishAppend]
  refine .get_bind (.bind_any ?_ fun _ _ => .pure)
  rw [persistIf]
  split_ifs
  · exact ⟨_, _, hsaves.persist_or_throw⟩
  · exact .pure

section Merged

variable {merged : RaftLog}
  (hmerged : node.log.appendFrom request.previousLogIndex request.entries = .ok merged)
include hmerged

theorem ensures_append_matched_success (response : AppendEntriesResponse) (termIncreased : Bool) :
    Ensures (appendMatched request response termIncreased) node fun answer _ =>
      answer.success = true := by
  rw [appendMatched]
  refine .get_bind ?_
  rw [hmerged]
  exact .set_bind (.bind_last fun _ _ => .bind_last fun _ _ =>
    ensures_finish_append_success _ _)

theorem append_matched_succeeds (hserving : { node with log := merged }.Serving merged)
    (response : AppendEntriesResponse) (termIncreased : Bool) :
    Succeeds (appendMatched request response termIncreased) node := by
  have hentries : ∀ entry ∈ request.entries, entry ∈ merged.entries :=
    fun entry hentry => mem_cons_of_mem _ (append_from_mem hmerged hentry)
  obtain ⟨joined, entered, hentered, hafter⟩ :=
    (hserving.rollback_pending node.pendingChange).apply_appended hentries
  obtain ⟨moved, final, hfinal, hlast⟩ := hafter.follow_commit request.leaderCommit
  rw [appendMatched]
  refine .get_bind ?_
  rw [hmerged]
  refine .set_bind (.bind_ok hentered (.bind_ok hfinal ?_))
  exact hlast.saves.finish_append _ _

end Merged

/-- A request that the log takes is answered with success. -/
theorem handle_append_taken (hvoter : node.isVotingMember request.leaderId = true)
    (hterm : node.currentTerm ≤ request.term) {merged : RaftLog}
    (hpass : appendConflict node.log request (node.answerTo request) = none)
    (hmerged : node.log.appendFrom request.previousLogIndex request.entries = .ok merged) :
    Ensures (handleAppendEntries request) node (fun answer _ => answer.success = true) ∧
      (node.SavesSucceed → node.Interprets merged.entries →
        Succeeds (handleAppendEntries request) node) := by
  obtain ⟨hrole, -, hlog⟩ := follow_leader_fields hterm request.leaderId
  obtain ⟨-, -, hcluster⟩ := node.follow_leader_config request.term request.leaderId
  have hfollowing : (node.followLeader request.term request.leaderId).log.appendFrom
      request.previousLogIndex request.entries = .ok merged := by rw [hlog, hmerged]
  have hhandle := handle_append_followed hvoter hterm
  rw [hpass] at hhandle
  constructor
  · intro answer final hrun
    rw [hhandle] at hrun
    exact ensures_append_matched_success hfollowing _ _ answer final hrun
  · intro hsaves hinterprets
    rw [Succeeds, hhandle]
    refine append_matched_succeeds hfollowing ⟨hrole, rfl, ?_, ?_⟩ _ _
    · exact hsaves.follow_leader request.term request.leaderId
    · rw [Interprets] at hinterprets ⊢
      rwa [← hcluster] at hinterprets

end RaftNode

/-! ## The exchange -/

/-- A leader and the follower it replicates to. -/
structure Exchange where
  leader : RaftNode
  follower : RaftNode

namespace Exchange

/-- The id of the follower. -/
def peer (exchange : Exchange) : NodeId := exchange.follower.config.nodeId

/-- The leader's cursor for the follower. -/
def cursor (exchange : Exchange) : Option Nat := exchange.leader.nextIndex exchange.peer

/-- The request that the leader makes. -/
def Sends (exchange : Exchange) (request : AppendEntriesRequest) : Prop :=
  exchange.leader.makeAppendEntries exchange.peer =
    { destination := exchange.peer, payload := .appendEntries request }

/-- The follower rejects the request, and the leader takes the rejection. -/
def Rejected (before after : Exchange) : Prop :=
  ∃ request response outbound, before.Sends request ∧
    RaftNode.handleAppendEntries request before.follower = .ok response after.follower ∧
    response.success = false ∧
    RaftNode.handleAppendEntriesResponse before.peer response before.leader =
      .ok outbound after.leader

/-- The follower's log takes the request. Every answer is a success, and there is one unless a
configuration change that cannot be put into force stops the follower. -/
def Accepted (exchange : Exchange) : Prop :=
  ∃ request merged, exchange.Sends request ∧
    exchange.follower.log.appendFrom request.previousLogIndex request.entries = .ok merged ∧
    Ensures (RaftNode.handleAppendEntries request) exchange.follower
      (fun response _ => response.success = true) ∧
    (exchange.follower.Interprets merged.entries →
      Succeeds (RaftNode.handleAppendEntries request) exchange.follower)

/-- The exchange comes to an accepted request. Every rejection on the way lowers the cursor, except
that the last one may move it right behind the boundary of the follower. -/
inductive Backtracks : Exchange → Prop where
  | accepted {exchange : Exchange} (haccepted : exchange.Accepted) : Backtracks exchange
  | jumped {before after : Exchange} (hrejected : before.Rejected after)
      (hjump : after.cursor = some (before.follower.log.firstIndex + 1))
      (haccepted : after.Accepted) : Backtracks before
  | lowered {before after : Exchange} {next lower : Nat} (hrejected : before.Rejected after)
      (hnext : before.cursor = some next) (hlower : after.cursor = some lower)
      (hless : lower < next) (hrest : Backtracks after) : Backtracks before

/-- The exchange comes to an accepted request after some rejections. -/
inductive Concludes : Exchange → Prop where
  | accepted {exchange : Exchange} (haccepted : exchange.Accepted) : Concludes exchange
  | rejected {before after : Exchange} (hrejected : before.Rejected after)
      (hrest : Concludes after) : Concludes before

theorem Backtracks.concludes {exchange : Exchange} (h : exchange.Backtracks) :
    exchange.Concludes := by
  induction h with
  | accepted haccepted => exact .accepted haccepted
  | jumped hrejected _ haccepted => exact .rejected hrejected (.accepted haccepted)
  | lowered hrejected _ _ _ _ ih => exact .rejected hrejected ih

theorem Rejected.unique {before after other : Exchange} (hrejected : before.Rejected after)
    (hother : before.Rejected other) : after = other := by
  obtain ⟨request, response, outbound, hsends, hhandle, -, htake⟩ := hrejected
  obtain ⟨request', response', outbound', hsends', hhandle', -, htake'⟩ := hother
  obtain ⟨leader, follower⟩ := after
  obtain ⟨leader', follower'⟩ := other
  cases hsends.symm.trans hsends'
  cases hhandle.symm.trans hhandle'
  cases htake.symm.trans htake'
  rfl

theorem Rejected.not_accepted {before after : Exchange} (hrejected : before.Rejected after) :
    ¬ before.Accepted := by
  obtain ⟨request, response, outbound, hsends, hhandle, hfailed, -⟩ := hrejected
  rintro ⟨request', merged, hsends', -, hensures, -⟩
  cases hsends.symm.trans hsends'
  have hsuccess : response.success = true := hensures response _ hhandle
  rw [hfailed] at hsuccess
  cases hsuccess

/-- The two nodes talk to each other: the leader has cursors for the follower, and the follower
takes the leader for one of a term that is not older than its own. Its saves succeed. -/
structure Paired (exchange : Exchange) (next matched : Nat) : Prop where
  role : exchange.leader.role = .leader
  member : exchange.leader.isMember exchange.peer = true
  other : exchange.peer ≠ exchange.leader.config.nodeId
  next : exchange.leader.nextIndex exchange.peer = some next
  matched : exchange.leader.matchIndex exchange.peer = some matched
  voter : exchange.follower.isVotingMember exchange.leader.config.nodeId = true
  term : exchange.follower.currentTerm ≤ exchange.leader.currentTerm
  saves : exchange.follower.SavesSucceed

/-- The request for the entries from an index on. -/
def requestFrom (leader : RaftNode) (next : Nat) : AppendEntriesRequest where
  term := leader.currentTerm
  leaderId := leader.config.nodeId
  previousLogIndex := next - 1
  previousLogTerm := (leader.log.termAt (next - 1)).getD 0
  entries := leader.log.entriesFrom next leader.config.maximumEntriesPerAppend
  leaderCommit := leader.commitIndex

variable {exchange : Exchange} {next matched : Nat}

theorem Paired.sends (hpaired : exchange.Paired next matched) :
    exchange.Sends (requestFrom exchange.leader next) := by
  rw [Sends, makeAppendEntries, hpaired.next]
  rfl

/-- The exchange after a rejection: the follower has accepted the leader, and the cursor is where
the hint leads. -/
def rejectedWith (exchange : Exchange) (rejection : AppendEntriesResponse) : Exchange where
  leader := { exchange.leader with
    nextIndex := Function.update exchange.leader.nextIndex exchange.peer
      (some (LogReplication.nextIndexAfterConflict exchange.leader.log rejection.conflictIndex
        rejection.conflictTerm)) }
  follower := exchange.follower.acknowledged exchange.leader.currentTerm
    exchange.leader.config.nodeId

section Rounds

variable (hpaired : exchange.Paired next matched)
include hpaired

theorem Paired.rejected_follower (rejection : AppendEntriesResponse) :
    (exchange.rejectedWith rejection).follower.log = exchange.follower.log ∧
      (exchange.rejectedWith rejection).peer = exchange.peer := by
  obtain ⟨hlog, -, hconfig, -⟩ :=
    exchange.follower.acknowledged_fields exchange.leader.config.nodeId hpaired.term
  exact ⟨hlog, congrArg NodeConfig.nodeId hconfig⟩

/-- The two stay paired after a rejection. -/
theorem Paired.rejectedWith {rejection : AppendEntriesResponse} {lower : Nat}
    (hlower : LogReplication.nextIndexAfterConflict exchange.leader.log rejection.conflictIndex
      rejection.conflictTerm = lower) :
    (exchange.rejectedWith rejection).Paired lower matched := by
  obtain ⟨-, -, hconfig, hterm⟩ :=
    exchange.follower.acknowledged_fields exchange.leader.config.nodeId hpaired.term
  have hpeer := (hpaired.rejected_follower rejection).2
  refine ⟨hpaired.role, ?_, ?_, ?_, ?_, ?_, hterm.le, hpaired.saves.acknowledged _ _⟩
  · rw [hpeer]
    exact hpaired.member
  · rw [hpeer]
    exact hpaired.other
  · rw [hpeer, ← hlower]
    exact Function.update_self _ _ _
  · rw [hpeer]
    exact hpaired.matched
  · show (exchange.follower.acknowledged _ _).isVotingMember _ = true
    rw [isVotingMember, hconfig]
    exact hpaired.voter

theorem Paired.follow_hint (hacked : matched < next)
    {response : AppendEntriesResponse} (hsuccess : response.success = false)
    (hterm : response.term = exchange.leader.currentTerm)
    (hprevious : response.requestPreviousLogIndex = next - 1) :
    ∃ outbound, RaftNode.handleAppendEntriesResponse exchange.peer response exchange.leader =
      .ok outbound (exchange.rejectedWith response).leader := by
  have hfresh : ¬ (next = 0 ∨ response.requestPreviousLogIndex ≠ next - 1 ∨
      response.requestPreviousLogIndex < matched) := by
    rw [hprevious]
    omega
  rw [handleAppendEntriesResponse, get_bind,
    if_neg (by simp [hpaired.member, hpaired.other]), if_neg (by omega),
    if_neg (by simp [hpaired.role, hterm]), hpaired.next, hpaired.matched]
  dsimp only
  rw [hsuccess, if_neg (by decide), if_neg hfresh]
  exact ⟨_, rfl⟩

theorem Paired.rejected (hacked : matched < next) {rejection : AppendEntriesResponse}
    (hreject : RaftNode.appendConflict exchange.follower.log (requestFrom exchange.leader next)
      (exchange.follower.answerTo (requestFrom exchange.leader next)) = some rejection) :
    exchange.Rejected (exchange.rejectedWith rejection) := by
  obtain ⟨hsuccess, hprevious⟩ := append_conflict_fields hreject
  have hanswer : handleAppendEntries (requestFrom exchange.leader next)
      exchange.follower = .ok { rejection with term := exchange.leader.currentTerm }
        (exchange.rejectedWith rejection).follower :=
    handle_append_rejected hpaired.voter hpaired.term hpaired.saves hreject
  have hfailed : { rejection with term := exchange.leader.currentTerm }.success = false := hsuccess
  obtain ⟨outbound, hhint⟩ := hpaired.follow_hint hacked hfailed rfl hprevious
  exact ⟨_, _, outbound, hpaired.sends, hanswer, hsuccess, hhint⟩

theorem Paired.accepted (hcomparable : Comparable exchange.leader.log exchange.follower.log)
    (hwords : exchange.leader.log.lastIndex < uint64Max) (hpositive : 1 ≤ next) {term : Nat}
    (hleader : exchange.leader.log.termAt (next - 1) = some term)
    (hfollower : exchange.follower.log.termAt (next - 1) = some term) : exchange.Accepted := by
  obtain ⟨merged, hmerged⟩ := hcomparable.append_from hwords hleader hfollower
    exchange.leader.config.maximumEntriesPerAppend
  rw [Nat.sub_add_cancel hpositive] at hmerged
  have hpass : appendConflict exchange.follower.log (requestFrom exchange.leader next)
      (exchange.follower.answerTo (requestFrom exchange.leader next)) = none := by
    refine append_conflict_none ?_
    show exchange.follower.log.termAt (next - 1) =
      some ((exchange.leader.log.termAt (next - 1)).getD 0)
    rw [hleader, hfollower, Option.getD_some]
  have htaken := handle_append_taken hpaired.voter hpaired.term hpass hmerged
  exact ⟨_, merged, hpaired.sends, hmerged, htaken.1, htaken.2 hpaired.saves⟩

end Rounds

/-- With logs of one cluster the exchange backtracks from every cursor, whatever the follower has
acknowledged. -/
theorem backtracks {exchange : Exchange} {next matched : Nat}
    (hpaired : exchange.Paired next matched)
    (hcomparable : Comparable exchange.leader.log exchange.follower.log)
    (haligned : Aligned exchange.leader.log exchange.follower.log)
    (hwords : exchange.leader.log.lastIndex < uint64Max) (hpositive : 1 ≤ next)
    (hinside : next ≤ exchange.leader.log.lastIndex + 1) (hacked : matched < next)
    (hagrees : AgreesAt exchange.leader.log exchange.follower.log matched) :
    exchange.Backtracks := by
  -- The cursor is what decreases, so the induction is on it.
  induction next using Nat.strong_induction_on generalizing exchange with
  | _ next ih =>
  obtain ⟨expected, hexpected⟩ := hcomparable.exists_term (show next - 1 ≤ _ by omega)
  have hprevious : exchange.leader.log.termAt (requestFrom exchange.leader next).previousLogIndex =
      some (requestFrom exchange.leader next).previousLogTerm := by
    show exchange.leader.log.termAt (next - 1) =
      some ((exchange.leader.log.termAt (next - 1)).getD 0)
    rw [hexpected, Option.getD_some]
  cases hconflict : appendConflict exchange.follower.log
      (requestFrom exchange.leader next)
      (exchange.follower.answerTo (requestFrom exchange.leader next)) with
  | none =>
    have hfollower := term_at_of_no_conflict hconflict
    exact .accepted (hpaired.accepted hcomparable hwords hpositive hprevious hfollower)
  | some rejection =>
    have hrejected := hpaired.rejected hacked hconflict
    obtain ⟨hlog, -⟩ := hpaired.rejected_follower rejection
    obtain ⟨lower, hlower, hplace⟩ :=
      conflict_hint hcomparable haligned hprevious rfl hconflict
    have hafter := hpaired.rejectedWith hlower
    have hstill : Comparable (exchange.rejectedWith rejection).leader.log
        (exchange.rejectedWith rejection).follower.log := by
      rw [hlog]
      exact hcomparable
    obtain ⟨-, rfl⟩ | ⟨hle, hbehind⟩ := hplace
    · refine .jumped hrejected hafter.next ?_
      refine hafter.accepted hstill hwords (by omega) hcomparable.boundary ?_
      rw [hlog]
      exact exchange.follower.log.term_at_first
    · have hleast : 0 < lower := hbehind 0 (.inl (Nat.zero_le _)) (Nat.zero_le _)
      have hless : lower < next := lt_of_le_of_lt hle (Nat.sub_one_lt (by omega))
      have hbelow : matched < lower := hbehind matched hagrees (Nat.le_sub_one_of_lt hacked)
      refine .lowered hrejected hpaired.next hafter.next hless ?_
      refine ih lower hless hafter hstill ?_ hwords hleast (hless.le.trans hinside) hbelow ?_
      · rw [hlog]
        exact haligned
      · rw [hlog]
        exact hagrees

/-! ### Logs that share a start -/

/-- The log of no-ops with these terms. -/
def logOfTerms (terms : List Nat) : RaftLog where
  boundary := RaftLog.empty.boundary
  suffix := terms.zipIdx.map fun (term, position) =>
    { index := position + 1, term, type := .noOp, command := [] }
  contiguous := by
    refine contiguous_from_of_index fun k entry hentry => ?_
    obtain ⟨⟨term, position⟩, hget, rfl⟩ := Option.map_eq_some_iff.mp
      ((List.getElem?_map).symm.trans hentry)
    rw [List.getElem?_zipIdx] at hget
    obtain ⟨_, -, heq⟩ := Option.map_eq_some_iff.mp hget
    cases heq
    show 0 + k + 1 = 0 + 1 + k
    omega

theorem sorted_of_pairwise {log : RaftLog}
    (hpairwise : log.entries.Pairwise fun first second => first.term ≤ second.term) :
    log.Sorted := by
  intro earlier later first second hle hfirst hsecond
  obtain ⟨i, entry, rfl, hentry, rfl⟩ := exists_position_of_term hfirst
  obtain ⟨j, other, rfl, hother, rfl⟩ := exists_position_of_term hsecond
  rcases hle.lt_or_eq with hlt | heq
  · obtain ⟨hi, rfl⟩ := List.getElem?_eq_some_iff.mp hentry
    obtain ⟨hj, rfl⟩ := List.getElem?_eq_some_iff.mp hother
    exact pairwise_iff_getElem.mp hpairwise i j hi hj (by omega)
  · obtain rfl : i = j := by omega
    rw [Option.some.inj (hentry.symm.trans hother)]

/-- Logs that part for good at an index match. -/
theorem comparable_of_fork {leader follower : RaftLog} (shared : Nat)
    (hstart : leader.firstIndex = 0)
    (hboundary : leader.termAt follower.firstIndex = some follower.boundary.term)
    (hshared : ∀ index ≤ shared, leader.entryAt index = follower.entryAt index)
    (hapart : ∀ index ≤ leader.lastIndex, shared < index →
      leader.termAt index ≠ follower.termAt index)
    (hleader : leader.entries.Pairwise fun first second => first.term ≤ second.term)
    (hfollower : follower.entries.Pairwise fun first second => first.term ≤ second.term)
    (hpositive : ∀ entry ∈ leader.suffix, entry.term ≠ 0) : Comparable leader follower where
  start := hstart
  boundary := hboundary
  same := by
    intro index entry present hentry hpresent hterm earlier _ hle
    have hinside := ((leader.entry_at_is_some index).mp (by simp [hentry])).2
    have hindex : index ≤ shared := by
      by_contra hlater
      refine hapart index hinside (not_le.mp hlater) ?_
      rw [termAt, termAt, hentry, hpresent, Option.map_some, Option.map_some, hterm]
    exact hshared earlier (hle.trans hindex)
  leaderSorted := sorted_of_pairwise hleader
  followerSorted := sorted_of_pairwise hfollower
  positive := hpositive

/-- A leader of term 4 and a follower of term 2 with logs of these terms, in a cluster of three
nodes. -/
def ofTerms (leaderTerms followerTerms : List Nat) (next : Nat) : Exchange where
  leader := { RaftNode.fresh { nodeId := 1, peers := [2, 3] } none with
    role := .leader
    currentTerm := 4
    log := logOfTerms leaderTerms
    nextIndex := fun _ => some next
    matchIndex := fun _ => some 0 }
  follower := { RaftNode.fresh { nodeId := 2, peers := [1, 3] } none with
    currentTerm := 2
    log := logOfTerms followerTerms }

theorem paired_of_terms (leaderTerms followerTerms : List Nat) (next : Nat) :
    (ofTerms leaderTerms followerTerms next).Paired next 0 where
  role := rfl
  member := rfl
  other := show (2 : NodeId) ≠ 1 by decide
  next := rfl
  matched := rfl
  voter := rfl
  term := show 2 ≤ 4 by decide
  saves := by
    rintro persistence ⟨⟩

theorem forked_logs_match : Comparable (logOfTerms [1, 3]) (logOfTerms [1, 2]) :=
  comparable_of_fork 1 rfl rfl (by decide) (by decide) (by decide) (by decide) (by decide)

/-- The exchange of these backtracks from the end of the leader's log. -/
theorem forked_logs_backtrack :
    Aligned (logOfTerms [1, 3]) (logOfTerms [1, 2]) ∧ (ofTerms [1, 3] [1, 2] 3).Backtracks := by
  have haligned : Aligned (logOfTerms [1, 3]) (logOfTerms [1, 2]) := by
    have hcheck : ∀ earlier ≤ 2, ∀ later ≤ 2, earlier ≤ later →
        (logOfTerms [1, 2]).termAt earlier = (logOfTerms [1, 3]).termAt later →
        (logOfTerms [1, 3]).termAt earlier = (logOfTerms [1, 3]).termAt later := by decide
    intro earlier later term hle hfollower hleader
    rw [← hleader]
    exact hcheck earlier (le_last_index_of_term_at hfollower) later
      (le_last_index_of_term_at hleader) hle (hfollower.trans hleader.symm)
  exact ⟨haligned, backtracks (paired_of_terms [1, 3] [1, 2] 3) forked_logs_match haligned
    (by decide) (by decide) (by decide) (by decide) (.inl (Nat.zero_le _))⟩

/-- The cursor goes from 3 to 4 and back. -/
structure Oscillates (exchange : Exchange) : Prop where
  leader : exchange.leader.log = logOfTerms [1, 1, 2]
  follower : exchange.follower.log = logOfTerms [1, 2]
  paired : exchange.Paired 3 0 ∨ exchange.Paired 4 0

/-- Every request is rejected, and the cursor keeps going. -/
theorem Oscillates.rejected {exchange : Exchange} (h : exchange.Oscillates) :
    ∃ after, exchange.Rejected after ∧ after.Oscillates := by
  obtain ⟨hleader, hfollower, hpaired | hpaired⟩ := h
  · -- The follower has term 2 at index 2, and the leader's last entry of that term has index 3.
    have hexpected : (requestFrom exchange.leader 3).previousLogTerm = 1 := by
      show (exchange.leader.log.termAt 2).getD 0 = 1
      rw [hleader]
      rfl
    have hconflict : appendConflict exchange.follower.log (requestFrom exchange.leader 3)
        (exchange.follower.answerTo (requestFrom exchange.leader 3)) =
          some { exchange.follower.answerTo (requestFrom exchange.leader 3) with
            conflictTerm := some 2, conflictIndex := 2 } := by
      rw [hfollower]
      show (if (2 : Nat) ≠ (requestFrom exchange.leader 3).previousLogTerm then some _ else none) = _
      rw [hexpected]
      rfl
    have hforward : LogReplication.nextIndexAfterConflict exchange.leader.log 2 (some 2) = 4 := by
      rw [hleader]
      decide
    refine ⟨_, hpaired.rejected (by decide) hconflict, hleader, ?_, .inr ?_⟩
    · exact (hpaired.rejected_follower _).1.trans hfollower
    · exact hpaired.rejectedWith hforward
  · -- The follower ends before index 3.
    have hconflict : appendConflict exchange.follower.log (requestFrom exchange.leader 4)
        (exchange.follower.answerTo (requestFrom exchange.leader 4)) =
          some { exchange.follower.answerTo (requestFrom exchange.leader 4) with
            conflictIndex := 3 } := by
      rw [hfollower]
      rfl
    have hback : LogReplication.nextIndexAfterConflict exchange.leader.log 3 none = 3 := by
      rw [hleader]
      decide
    refine ⟨_, hpaired.rejected (by decide) hconflict, hleader, ?_, .inl ?_⟩
    · exact (hpaired.rejected_follower _).1.trans hfollower
    · exact hpaired.rejectedWith hback

theorem Oscillates.not_concludes {exchange : Exchange} (hconcludes : exchange.Concludes) :
    ¬ exchange.Oscillates := by
  induction hconcludes with
  | accepted haccepted =>
    intro h
    obtain ⟨after, hrejected, -⟩ := h.rejected
    exact hrejected.not_accepted haccepted
  | rejected hrejected _ ih =>
    intro h
    obtain ⟨other, hother, hnext⟩ := h.rejected
    exact ih (hrejected.unique hother ▸ hnext)

/-- Two logs that match, where the leader has the term of the conflicting entry at a later index
only: the leader skips to the end of the term, finds the follower too short, and goes back. -/
theorem oscillation :
    Comparable (logOfTerms [1, 1, 2]) (logOfTerms [1, 2]) ∧
      (ofTerms [1, 1, 2] [1, 2] 3).Paired 3 0 ∧ ¬ (ofTerms [1, 1, 2] [1, 2] 3).Concludes ∧
      ¬ (ofTerms [1, 1, 2] [1, 2] 3).Backtracks := by
  have hpaired := paired_of_terms [1, 1, 2] [1, 2] 3
  have hnot : ¬ (ofTerms [1, 1, 2] [1, 2] 3).Concludes :=
    fun hconcludes => Oscillates.not_concludes hconcludes ⟨rfl, rfl, .inl hpaired⟩
  refine ⟨?_, hpaired, hnot, fun h => hnot h.concludes⟩
  exact comparable_of_fork 1 rfl rfl (by decide) (by decide) (by decide) (by decide) (by decide)

end Exchange

end DistributedKV
