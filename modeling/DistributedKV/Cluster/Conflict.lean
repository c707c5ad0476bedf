import DistributedKV.Cluster.Elections

/-!
# Rejected requests

A follower that rejects a replication request sends a hint where the leader's cursor should go.
The hint is safe: following it, the leader does not skip an entry that the two logs share. With a
conflicting term, the logs part at the latest behind the leader's last entry of that term, or, if
the leader has none, before the follower's first.
-/

namespace DistributedKV

open TermLog Barrier List Option

variable {voters : Finset NodeId} {config : NodeConfig} {H K : RaftHistory} {n v c : NodeId}
  {node : RaftNode}

theorem exists_position_of_find {log : List LogEntry} {test : LogEntry → Bool} {entry : LogEntry}
    (hfind : log.find? test = some entry) :
    ∃ position : Nat, log[position]? = some entry ∧ test entry = true := by
  obtain ⟨htest, before, after, rfl, -⟩ := find?_eq_some_iff_append.mp hfind
  exact ⟨before.length, by simp, htest⟩

theorem stamp_le_of_position {origin : Nat → List LogEntry} {bound : Nat} {log : List LogEntry}
    (hlog : WellStamped LogEntry.term origin bound log) {i j : Nat} {first second : LogEntry}
    (hle : i ≤ j) (hfirst : log[i]? = some first) (hsecond : log[j]? = some second) :
    first.term ≤ second.term := by
  rcases hle.lt_or_eq with hlt | rfl
  · obtain ⟨hi, rfl⟩ := List.getElem?_eq_some_iff.mp hfirst
    obtain ⟨hj, rfl⟩ := List.getElem?_eq_some_iff.mp hsecond
    exact pairwise_iff_getElem.mp hlog.sorted i j hi hj hlt
  · rw [some.inj (hfirst.symm.trans hsecond)]

theorem getElem_of_isPrefix {short long : List LogEntry} (hbegins : short <+: long) {i : Nat}
    (hi : i < short.length) : short[i]? = long[i]? := by
  obtain ⟨rest, rfl⟩ := hbegins
  rw [getElem?_append_left hi]

/-- Older entries of a leader are in the log it stood with. -/
theorem stood_position (hinv : Invariant LogEntry.term H) {t : Nat} {stood : List LogEntry}
    (hleader : H.leader t = some c) (hstood : H.stood t c = some stood) {i : Nat}
    {entry : LogEntry} (hentry : (H.leaderLog t)[i]? = some entry) (hterm : entry.term < t) :
    stood[i]? = some entry := by
  obtain ⟨log, hlog, hbegins, hown⟩ := hinv.leaderStood hleader
  have heq : stood = log := some.inj (hstood.symm.trans hlog)
  subst heq
  by_contra hne
  have hi : stood.length ≤ i := by
    by_contra hlt
    exact hne ((getElem_of_isPrefix hbegins (by omega)).trans hentry)
  have hmem : entry ∈ (H.leaderLog t).drop stood.length := by
    refine mem_of_getElem? (i := i - stood.length) ?_
    rw [getElem?_drop, Nat.add_sub_cancel' hi, hentry]
  have heq := hown entry hmem
  omega

section Hint

variable {t position : Nat} {stood : List LogEntry} {present expected : LogEntry}
  (hsound : Sound voters H) (hterm : H.term v = t) (hacked : H.acked t v = 0)
  (hleader : H.leader t = some c) (hstood : H.stood t c = some stood)
  (hpresent : (H.log v)[position]? = some present)
  (hexpected : (H.leaderLog t)[position]? = some expected)
  (hconflict : present.term ≠ expected.term)
include hpresent hexpected hconflict

theorem common_length_le_position {common : List LogEntry} (hown : common <+: H.log v)
    (htheirs : common <+: H.leaderLog t) : common.length ≤ position := by
  by_contra hlt
  have hi : position < common.length := by omega
  have h := (getElem_of_isPrefix hown hi).symm.trans (getElem_of_isPrefix htheirs hi)
  rw [hpresent, hexpected] at h
  exact hconflict (congrArg LogEntry.term (some.inj h))

include hsound hterm hacked hleader hstood

/-- The logs part behind the last entry of the conflicting term. -/
theorem common_length_le_last {last : LogEntry} {index : Nat}
    (hlast : stood[index]? = some last) (hlastTerm : last.term = present.term)
    (hlatest : ∀ later other, index < later → stood[later]? = some other →
      other.term ≠ present.term)
    {common : List LogEntry} (hown : common <+: H.log v) (htheirs : common <+: H.leaderLog t) :
    common.length ≤ index + 1 := by
  have hinv := hsound.invariant
  have hshort := common_length_le_position hpresent hexpected hconflict hown htheirs
  obtain ⟨log, hlog, hbegins, -⟩ := hinv.leaderStood hleader
  have heq : stood = log := some.inj (hstood.symm.trans hlog)
  subst heq
  by_contra hlong
  have hi : index + 1 < common.length := by omega
  -- The entry after the last one of the conflicting term would be of that term too.
  obtain ⟨next, hnext⟩ : ∃ next, common[index + 1]? = some next :=
    ⟨_, getElem?_eq_getElem hi⟩
  have hnextOwn := (getElem_of_isPrefix hown hi).symm.trans hnext
  have hnextTheirs := (getElem_of_isPrefix htheirs hi).symm.trans hnext
  have hlastTheirs : (H.leaderLog t)[index]? = some last :=
    (getElem_of_isPrefix hbegins (List.getElem?_eq_some_iff.mp hlast).1).symm.trans hlast
  have hbelow := stamp_le_of_position (hinv.stamped v) (by omega) hnextOwn hpresent
  have habove := stamp_le_of_position (hinv.leaderStamped t) (Nat.le_succ index) hlastTheirs
    hnextTheirs
  have hsame : next.term = present.term := by omega
  have hold : present.term < t :=
    hterm ▸ hinv.unacked (by rw [hterm]; exact hacked) present (mem_of_getElem? hpresent)
  have hnextStood := stood_position hinv hleader hstood hnextTheirs (by omega)
  exact hlatest _ next (Nat.lt_succ_self index) hnextStood hsame

omit hexpected hconflict in
theorem common_length_le_first {first : LogEntry} {index : Nat}
    (hfirst : (H.log v)[index]? = some first) (hfirstTerm : first.term = present.term)
    (hnone : ∀ entry ∈ stood, entry.term ≠ present.term)
    {common : List LogEntry} (hown : common <+: H.log v) (htheirs : common <+: H.leaderLog t) :
    common.length ≤ index := by
  have hinv := hsound.invariant
  by_contra hlong
  have hi : index < common.length := by omega
  have htheirsFirst : (H.leaderLog t)[index]? = some first :=
    (getElem_of_isPrefix htheirs hi).symm.trans ((getElem_of_isPrefix hown hi).trans hfirst)
  have hold : present.term < t :=
    hterm ▸ hinv.unacked (by rw [hterm]; exact hacked) present (mem_of_getElem? hpresent)
  have hstoodFirst := stood_position hinv hleader hstood htheirsFirst (by omega)
  exact hnone first (mem_of_getElem? hstoodFirst) hfirstTerm

end Hint

/-- The hint of a conflict is safe while nothing is acknowledged. -/
theorem cursor_safe_of_conflict {t position : Nat} {stood : List LogEntry}
    {present expected first : LogEntry} (hsound : Sound voters H) (hterm : H.term v = t)
    (hacked : H.acked t v = 0) (hleader : H.leader t = some c)
    (hstood : H.stood t c = some stood)
    (hpresent : (H.log v)[position]? = some present)
    (hexpected : (H.leaderLog t)[position]? = some expected)
    (hconflict : present.term ≠ expected.term)
    (hfirst : (H.log v).find? (·.term == present.term) = some first) :
    CursorSafe H t v (((stood.reverse.find? (·.term == present.term)).map (·.index)).getD
      (first.index - 1)) := by
  have hinv := hsound.invariant
  refine ⟨fun _ _ common hown htheirs => ?_, fun hlt => by omega⟩
  cases hlast : stood.reverse.find? (·.term == present.term) with
  | some last =>
    obtain ⟨index, hindex, hlastTerm, hlatest⟩ := exists_last_position_of_find hlast
    have hvalid := (hsound.valid.of_stamped (hinv.stoodStamped hstood) hindex).1
    simp only [map_some, getD_some, hvalid]
    exact common_length_le_last hsound hterm hacked hleader hstood hpresent hexpected hconflict
      hindex (by simpa using hlastTerm)
      (fun later other hlater hother => by simpa using hlatest later other hlater hother)
      hown htheirs
  | none =>
    obtain ⟨index, hindex, hfirstTerm⟩ := exists_position_of_find hfirst
    have hvalid := (hsound.valid.of_stamped (hinv.stamped v) hindex).1
    simp only [map_none, getD_none, hvalid, Nat.add_sub_cancel]
    refine common_length_le_first hsound hterm hacked hleader hstood hpresent
      hindex (by simpa using hfirstTerm) ?_ hown htheirs
    intro entry hentry
    simpa using find?_eq_none.mp hlast entry (mem_reverse.mpr hentry)

/-! ## The follower's test -/

variable {source : NodeId} {request : AppendEntriesRequest}
  {response rejection : AppendEntriesResponse}

/-- A request that passes the test agrees up to its previous index. -/
theorem NodeCore.agree_of_no_conflict (hcore : NodeCore voters config H n node)
    (hsound : Sound voters H) (hfacts : AppendFacts voters H source n request)
    (hpass : RaftNode.appendConflict node.log request response = none) :
    request.previousLogIndex ≤ (H.log n).length ∧
      (H.log n).take request.previousLogIndex =
        H.start request.term request.previousLogIndex := by
  have hinv := hsound.invariant
  rw [RaftNode.appendConflict, hcore.uncompacted.last_index, hcore.log] at hpass
  by_cases hlong : (H.log n).length < request.previousLogIndex
  · simp [hlong] at hpass
  rw [if_neg hlong, hcore.uncompacted.term_at_eq (by rw [hcore.log]; omega), hcore.log] at hpass
  have hle : request.previousLogIndex ≤ (H.log n).length := by omega
  have hsame : lastStamp LogEntry.term ((H.log n).take request.previousLogIndex) =
      request.previousLogTerm := by
    by_contra hne
    simp [hne] at hpass
  refine ⟨hle, ?_⟩
  rw [hfacts.previousTerm] at hsame
  cases hprevious : request.previousLogIndex with
  | zero => simp [History.start]
  | succ position =>
    have hbegins := hfacts.previous
    rw [hprevious] at hsame hle hbegins
    have howned := getElem?_eq_getElem (Nat.lt_of_succ_le hle)
    have htheirs := List.getElem?_eq_getElem (Nat.lt_of_succ_le hbegins)
    rw [last_stamp_take howned, History.start, last_stamp_take htheirs] at hsame
    exact (hinv.stamped n).take_eq_take (hinv.leaderStamped _) howned htheirs hsame

theorem unacked_of_conflict (hinv : Invariant LogEntry.term H) {t position : Nat}
    {present expected : LogEntry} (hterm : H.term n = t)
    (hpresent : (H.log n)[position]? = some present)
    (hexpected : (H.leaderLog t)[position]? = some expected)
    (hconflict : present.term ≠ expected.term) : H.acked t n = 0 := by
  subst hterm
  by_contra hne
  have hheld := hinv.ackedHeld (Nat.pos_of_ne_zero hne)
  have hi := (List.getElem?_eq_some_iff.mp hpresent).1
  have h := (getElem_of_isPrefix hheld hi).symm.trans hpresent
  rw [hexpected] at h
  exact hconflict (congrArg LogEntry.term (some.inj h)).symm

/-- The rejection of a request carries a safe hint. -/
theorem NodeCore.reject_facts (hcore : NodeCore voters config H n node) (hsound : Sound voters H)
    (hfacts : AppendFacts voters H source n request) (hterm : request.term = H.term n)
    (hresponse : response.conflictTerm = none)
    (hreject : RaftNode.appendConflict node.log request response = some rejection) :
    rejection.success = response.success ∧
      RejectFacts H (H.term n) n rejection.conflictIndex rejection.conflictTerm := by
  have hinv := hsound.invariant
  rw [RaftNode.appendConflict, hcore.uncompacted.last_index, hcore.log] at hreject
  by_cases hlong : (H.log n).length < request.previousLogIndex
  · rw [if_pos hlong] at hreject
    cases hreject
    exact ⟨rfl, le_rfl, fun _ _ _ => Nat.lt_succ_self _, by simp [hresponse]⟩
  have hle : request.previousLogIndex ≤ (H.log n).length := by omega
  have hbegins := hfacts.previous
  rw [if_neg hlong, hcore.uncompacted.term_at_eq (by rw [hcore.log]; exact hle), hcore.log,
    hfacts.previousTerm] at hreject
  cases hprevious : request.previousLogIndex with
  | zero => simp [hprevious, History.start] at hreject
  | succ position =>
    rw [hprevious] at hreject hle hbegins
    have hpresent := getElem?_eq_getElem (Nat.lt_of_succ_le hle)
    have hexpected := getElem?_eq_getElem (Nat.lt_of_succ_le hbegins)
    rw [last_stamp_take hpresent, History.start, last_stamp_take hexpected] at hreject
    generalize hp : (H.log n)[position] = present at hpresent hreject
    generalize he : (H.leaderLog request.term)[position] = expected at hexpected hreject
    by_cases hconflict : present.term = expected.term
    · simp [hconflict] at hreject
    have hmem := mem_of_getElem? hpresent
    have hpositive : 0 < present.term := (hinv.stamped n).positive present hmem
    have hacked := unacked_of_conflict hinv hterm.symm hpresent hexpected hconflict
    obtain ⟨stood, hstood, -⟩ := hinv.leaderStood hfacts.leads
    obtain ⟨first, hfirst⟩ : ∃ first,
        (H.log n).find? (·.term == present.term) = some first :=
      isSome_iff_exists.mp (find?_isSome.mpr ⟨present, hmem, by simp⟩)
    simp only [ne_eq, hconflict, not_false_eq_true, if_true,
      hcore.uncompacted.first_index_of_term hpositive, hcore.log, hfirst, map_some,
      getD_some] at hreject
    cases hreject
    refine ⟨rfl, le_rfl, by simp, ?_⟩
    intro term hsome
    obtain rfl : present.term = term := some.inj hsome
    have hold := hinv.unacked (by rw [← hterm]; exact hacked) present hmem
    refine ⟨hpositive, hold, source, stood, hterm ▸ hfacts.leads, hterm ▸ hstood, ?_⟩
    exact hterm ▸ cursor_safe_of_conflict hsound hterm.symm hacked hfacts.leads hstood hpresent
      hexpected hconflict hfirst

end DistributedKV
