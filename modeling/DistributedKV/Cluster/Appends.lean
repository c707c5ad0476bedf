import DistributedKV.Cluster.Conflict

/-!
# Accepted requests

A follower that takes over the entries of a request has a start of the leader's log afterwards,
with everything that the two logs shared before. It may therefore commit up to the end of its
log, not only up to the entries it was sent.
-/

namespace DistributedKV

open TermLog Barrier List

variable {voters : Finset NodeId} {config : NodeConfig} {H K : RaftHistory} {n source : NodeId}
  {node : RaftNode} {request : AppendEntriesRequest}

/-- A log that results from a request: a start of the leader's log that keeps what was shared
and reaches the end of the request. -/
structure Accepted (H : RaftHistory) (n : NodeId) (request : AppendEntriesRequest)
    (log : List LogEntry) : Prop where
  start : log <+: H.leaderLog request.term
  kept : ∀ common, common <+: H.log n → common <+: H.leaderLog request.term → common <+: log
  length : request.previousLogIndex + request.entries.length ≤ log.length
  unchanged : request.entries = [] → log = H.log n

theorem AppendFacts.end_le (hfacts : AppendFacts voters H source n request) :
    request.previousLogIndex + request.entries.length ≤
      (H.leaderLog request.term).length := by
  have hle := hfacts.entries.length_le
  rw [length_drop] at hle
  have hprevious := hfacts.previous
  omega

theorem AppendFacts.end_pos (hfacts : AppendFacts voters H source n request)
    (hinv : Invariant LogEntry.term H) :
    0 < request.previousLogIndex + request.entries.length := by
  cases hentries : request.entries with
  | cons entry rest => simp
  | nil =>
    obtain ⟨stood, hstood, -⟩ := hinv.leaderStood hfacts.leads
    have hlt := hfacts.opened hentries stood hstood
    rw [length_nil]
    omega

/-- The entries of a request are numbered and stamped as `appendFrom` requires. -/
theorem AppendFacts.incoming_valid (hfacts : AppendFacts voters H source n request)
    (hsound : Sound voters H) :
    RaftLog.incomingValid (request.previousLogIndex + 1) request.entries = true := by
  have hlog : ContiguousFrom 1 (H.leaderLog request.term) := by
    refine contiguous_from_of_index fun i entry hentry => ?_
    have h := (hsound.valid request.term i entry hentry).1
    omega
  rw [RaftLog.incoming_valid_iff]
  obtain ⟨rest, hrest⟩ := hfacts.entries
  have hdrop := hlog.drop request.previousLogIndex hfacts.previous
  rw [← hrest, contiguous_from_append, Nat.add_comm] at hdrop
  refine ⟨hdrop.1, fun entry hentry => ?_⟩
  have hmem : entry ∈ H.leaderLog request.term :=
    mem_of_mem_drop (hfacts.entries.subset hentry)
  obtain ⟨i, hi⟩ := getElem?_of_mem hmem
  have hindex := (hsound.valid request.term i entry hi).1
  have hpositive : 0 < entry.term :=
    (hsound.invariant.leaderStamped request.term).positive entry hmem
  omega

section Merge

variable (hsound : Sound voters H) (hfacts : AppendFacts voters H source n request)
  (hterm : request.term = H.term n) (hle : request.previousLogIndex ≤ (H.log n).length)
  (hagree : (H.log n).take request.previousLogIndex =
    H.start request.term request.previousLogIndex)
include hsound hfacts hterm hle hagree

omit hle in
/-- A follower that matches an empty request has a start of the leader's log. -/
theorem held_of_empty (hempty : request.entries = []) :
    H.log n <+: H.leaderLog request.term := by
  have hinv := hsound.invariant
  obtain ⟨stood, hstood, hbegins, hown⟩ := hinv.leaderStood hfacts.leads
  have hopened := hfacts.opened hempty stood hstood
  obtain ⟨position, hposition⟩ : ∃ position, request.previousLogIndex = position + 1 :=
    ⟨request.previousLogIndex - 1, by omega⟩
  have hlength := hfacts.previous
  rw [hposition] at hagree hopened hlength
  -- The last matched entry is one of the leader's own, so something is acknowledged.
  have hentry := getElem?_eq_getElem (Nat.lt_of_succ_le hlength)
  generalize (H.leaderLog request.term)[position] = entry at hentry
  have hstamp : entry.term = request.term := by
    refine hown entry (mem_of_getElem? (i := position - stood.length) ?_)
    rw [getElem?_drop, Nat.add_sub_cancel' (by omega), hentry]
  have hmine : (H.log n)[position]? = some entry := by
    have h := congrArg (·[position]?) hagree
    simp only [History.start, getElem?_take_of_lt (Nat.lt_succ_self position)] at h
    rw [h, hentry]
  have hacked : 0 < H.acked (H.term n) n := by
    by_contra hzero
    have hlt := hinv.unacked (by omega) entry (mem_of_getElem? hmine)
    have hlt' : entry.term < H.term n := hlt
    omega
  rw [hterm]
  exact hinv.ackedHeld hacked

omit hle hagree in
/-- What the follower shares with its leader ends within the request. -/
theorem common_within_request {common : List LogEntry}
    (hnew : ¬ (H.leaderLog request.term).take
      (request.previousLogIndex + request.entries.length) <+: H.log n)
    (hown : common <+: H.log n) (htheirs : common <+: H.leaderLog request.term) :
    common.length ≤ request.previousLogIndex + request.entries.length := by
  have hinv := hsound.invariant
  rcases Nat.eq_zero_or_pos (H.acked request.term n) with hzero | hpos
  · have h := hfacts.cursor.reached hterm.symm hzero common hown htheirs
    omega
  · have hheld := hinv.ackedHeld (v := n) (by rw [← hterm]; exact hpos)
    rw [← hterm] at hheld
    by_contra hlong
    refine hnew (prefix_of_prefix_length_le (List.take_prefix _ _) hheld ?_)
    have hlength := hown.length_le
    rw [length_take]
    omega

/-- Merging the entries of a request gives an accepted log. -/
theorem merge_accepted (hentries : request.entries ≠ []) :
    ∃ merged, RaftLog.mergeFrom (H.log n) request.previousLogIndex request.entries = .ok merged ∧
      Accepted H n request merged := by
  have hinv := hsound.invariant
  have hend := hfacts.end_le
  have hcount : 0 < request.entries.length := length_pos_iff.mpr hentries
  have hmatching : ∀ (i : Nat) (present entry : LogEntry), (H.log n)[i]? = some present →
      (H.leaderLog request.term)[i]? = some entry → present.term = entry.term →
      present = entry := by
    intro i present entry hpresent hentry hsame
    have h := (hinv.stamped n).take_eq_take (hinv.leaderStamped _) hpresent hentry hsame
    have hat := congrArg (·[i]?) h
    simp only [getElem?_take_of_lt (Nat.lt_succ_self i), hpresent, hentry] at hat
    exact Option.some.inj hat
  have hlength : ((H.leaderLog request.term).take
      (request.previousLogIndex + request.entries.length)).length =
      request.previousLogIndex + request.entries.length := by
    rw [length_take]
    omega
  rcases RaftLog.merge_from_take hmatching _ _ hfacts.entries hle hagree with
    ⟨hpresent, hmerge⟩ | ⟨hnew, hmerge⟩
  · refine ⟨_, hmerge, ?_, fun _ hown _ => hown, ?_, fun h => absurd h hentries⟩
    · -- The follower has the entries already, so it has acknowledged something.
      have hacked : 0 < H.acked request.term n := by
        by_contra hzero
        have h := hfacts.cursor.reached hterm.symm (by omega) _ hpresent (List.take_prefix _ _)
        omega
      have hheld := hinv.ackedHeld (v := n) (by rw [← hterm]; exact hacked)
      rwa [← hterm] at hheld
    · have h := hpresent.length_le
      omega
  · refine ⟨_, hmerge, take_prefix _ _, ?_, hlength.ge, fun h => absurd h hentries⟩
    intro common hown htheirs
    refine prefix_of_prefix_length_le htheirs (List.take_prefix _ _) ?_
    rw [hlength]
    exact common_within_request hsound hfacts hterm hnew hown htheirs

end Merge

/-- A request that passes the test is merged, unless the indexes are exhausted. -/
theorem NodeCore.append_from (hcore : NodeCore voters config H n node) (hsound : Sound voters H)
    (hfacts : AppendFacts voters H source n request) (hterm : request.term = H.term n)
    (hle : request.previousLogIndex ≤ (H.log n).length)
    (hagree : (H.log n).take request.previousLogIndex =
      H.start request.term request.previousLogIndex) :
    node.log.appendFrom request.previousLogIndex request.entries =
        .error "log index space exhausted" ∨
      ∃ log, node.log.appendFrom request.previousLogIndex request.entries = .ok log ∧
        log.Uncompacted ∧ Accepted H n request log.suffix := by
  have hfirst := hcore.uncompacted.first_index
  have hrange : ¬ ¬ (node.log.firstIndex ≤ request.previousLogIndex ∧
      request.previousLogIndex ≤ node.log.lastIndex) := by
    rw [hfirst, hcore.uncompacted.last_index, hcore.log]
    omega
  unfold RaftLog.appendFrom
  rw [dif_neg hrange]
  by_cases hempty : request.entries = []
  · rw [if_pos hempty]
    refine .inr ⟨node.log, rfl, hcore.uncompacted, ?_, ?_, ?_, fun _ => hcore.log⟩
    · rw [hcore.log]
      exact held_of_empty hsound hfacts hterm hagree hempty
    · rw [hcore.log]
      exact fun _ hown _ => hown
    · rw [hcore.log, hempty]
      exact hle
  rw [if_neg hempty]
  by_cases hexhausted : request.previousLogIndex = uint64Max
  · rw [if_pos hexhausted]
    exact .inl rfl
  rw [if_neg hexhausted, dif_pos (hfacts.incoming_valid hsound)]
  obtain ⟨merged, hmerged, haccepted⟩ := merge_accepted hsound hfacts hterm hle hagree hempty
  right
  split
  · rename_i suffix hsuffix
    rw [hfirst, Nat.sub_zero, hcore.log, hmerged] at hsuffix
    cases hsuffix
    exact ⟨_, rfl, hcore.uncompacted, haccepted⟩
  · rename_i message hmessage
    rw [hfirst, Nat.sub_zero, hcore.log, hmerged] at hmessage
    cases hmessage

/-! ## Taking over the entries -/

theorem AppendFacts.accept_step (hfacts : AppendFacts voters H source n request)
    (hinv : Invariant LogEntry.term H) (hterm : request.term = H.term n) {log : List LogEntry}
    (haccepted : Accepted H n request log) :
    Step (majorityRules voters) n H (H.accept n (H.term n) log
      (request.previousLogIndex + request.entries.length)) :=
  .accept log _ ⟨source, hterm ▸ hfacts.leads, hfacts.other.symm⟩ (hterm ▸ haccepted.start)
    (hterm ▸ haccepted.kept) (hfacts.end_pos hinv) haccepted.length

/-- Settled entries survive taking over an accepted log. -/
theorem AppendFacts.settled_accept (hfacts : AppendFacts voters H source n request)
    (hsound : Sound voters H) (hterm : request.term = H.term n) {log : List LogEntry}
    (haccepted : Accepted H n request log) {commit : Nat}
    (hcommit : Settled (majorityRules voters) H (H.term n) commit (H.log n)) :
    Settled (majorityRules voters) H (H.term n) commit log := by
  have hled : H.Led request.term := by simp [History.Led, hfacts.leads]
  have htake := hcommit.take_eq_leaderLog hsound.invariant (majorities_meet voters)
    hsound.elected hterm.ge hled
  -- The settled entries are shared with the leader, so they are kept.
  have hkept := haccepted.kept ((H.log n).take commit) (List.take_prefix _ _)
    (htake ▸ take_prefix _ _)
  refine hcommit.congr ?_
  have h := prefix_iff_eq_take.mp hkept
  rw [length_take, Nat.min_eq_left hcommit.le_length] at h
  exact h.symm

/-- A follower that takes over an accepted log stays related. -/
theorem NodeCore.accept (hcore : NodeCore voters config H n node) (hsound : Sound voters H)
    (hfacts : AppendFacts voters H source n request) (hterm : request.term = H.term n)
    (hrole : node.role = .follower) {log : RaftLog} (hlog : log.Uncompacted)
    (haccepted : Accepted H n request log.suffix) :
    NodeCore voters config (H.accept n (H.term n) log.suffix
      (request.previousLogIndex + request.entries.length)) n { node with log } := by
  have hgrows := (hfacts.accept_step hsound.invariant hterm haccepted).grows hsound.invariant
  have hself : (H.accept n (H.term n) log.suffix
      (request.previousLogIndex + request.entries.length)).log n = log.suffix := by
    simp [History.accept]
  exact
    { hcore with
      uncompacted := hlog
      log := hself.symm
      commit := by
        rw [hself]
        exact (hfacts.settled_accept hsound hterm haccepted hcore.commit).grows hgrows le_rfl
      candidate := fun h => by simp [hrole] at h
      leader := fun h => by simp [hrole] at h }

end DistributedKV
