import DistributedKV.Cluster.Appends

/-!
# Replication is simulated

The two sides of a replication request. The follower follows the leader of the request's term,
rejects with a safe hint or takes over the entries and the commit index, and saves before it
answers. The leader moves its cursors by what was acknowledged or by the hint, and commits.
-/

namespace DistributedKV

open TermLog Barrier List RaftNode Function

variable {voters : Finset NodeId} {config : NodeConfig} {H K : RaftHistory} {n source : NodeId}
  {node : RaftNode} {request : AppendEntriesRequest}

/-! ## The follower -/

/-- Following the leader of a term that is not older is simulated. -/
theorem NodeCore.follow (hcore : NodeCore voters config H n node) (hsound : Sound voters H)
    {t : Nat} (hterm : H.term n ≤ t) (leader : NodeId) :
    ∃ K, Steps (majorityRules voters) n H K ∧
      NodeCore voters config K n (node.followLeader t leader) ∧ K.term n = t ∧
      (node.followLeader t leader).role = .follower ∧
      (node.followLeader t leader).log = node.log ∧
      (node.followLeader t leader).saved = node.saved ∧ (t = H.term n → K = H) := by
  rw [followLeader]
  rcases hterm.lt_or_eq with hlt | rfl
  · have hnewer : node.currentTerm < t := hcore.term ▸ hlt
    rw [if_pos (Or.inl hnewer)]
    refine ⟨H.raise n t, Steps.single (.raise t hlt), hcore.raise hsound hlt _,
      by simp [History.raise], ?_, ?_, ?_, fun h => by omega⟩
    all_goals
      rw [becomeFollower, if_pos hnewer]
      rfl
  · have hsame : ¬ node.currentTerm < H.term n := by rw [hcore.term]; omega
    refine ⟨H, Steps.refl H, ?_, rfl, ?_, ?_, ?_, fun _ => rfl⟩
    all_goals split_ifs with hdown
    · exact hcore.step_down le_rfl _
    · exact { hcore with }
    · rfl
    · have hrole : node.role = .follower := by
        by_contra h
        exact hdown (.inr h)
      exact hrole
    · rw [becomeFollower, if_neg hsame]
      rfl
    · rfl
    · rw [becomeFollower, if_neg hsame]
      rfl
    · rfl

theorem RaftNode.apply_appended_plain (node : RaftNode) (entries : List LogEntry)
    (hplain : ∀ entry ∈ entries, entry.type ≠ .confChange) :
    RaftNode.applyAppended entries node = .ok false node := by
  induction entries with
  | nil => rfl
  | cons entry rest ih =>
    have hchange : changeOf entry = none := by
      rw [changeOf, if_neg (hplain entry (by simp))]
    rw [applyAppended, get_bind, hchange, ite_self]
    exact ih fun other hother => hplain other (mem_cons_of_mem _ hother)

section Following

variable (hcore : NodeCore voters config H n node)
include hcore

theorem NodeCore.rollback_eq (log : RaftLog) :
    { node with log }.rollbackPending node.pendingChange = ({ node with log }, false) := by
  have hpending : node.pendingChange = none := by rw [pendingChange, hcore.pending]
  rw [hpending]
  rfl

/-- Moving the commit index to a settled one keeps a node related. -/
theorem NodeCore.follow_commit (hsound : Sound voters H) (leaderCommit : Nat)
    (hsettled : Settled (majorityRules voters) H (H.term n)
      (min leaderCommit node.log.lastIndex) (H.log n)) :
    ∃ moved final, RaftNode.followCommit leaderCommit node = .ok moved final ∧
      NodeCore voters config H n final ∧ final.saved = node.saved ∧
      final.currentTerm = node.currentTerm := by
  rw [followCommit, get_bind]
  split_ifs with hbehind
  · dsimp only
    split_ifs with hmoved
    · obtain ⟨cursor, hcursor⟩ :=
        hcore.apply_committed hsound (min leaderCommit node.log.lastIndex)
      rw [set_bind, bind_of_ok hcursor]
      exact ⟨true, _, rfl, hcore.with_commit hsettled cursor, rfl, rfl⟩
    · exact ⟨false, node, rfl, hcore, rfl, rfl⟩
  · exact ⟨false, node, rfl, hcore, rfl, rfl⟩

/-- The node and the answer a replication request leaves. -/
def AppendOutcome (voters : Finset NodeId) (config : NodeConfig) (H : RaftHistory)
    (n source : NodeId) (response : AppendEntriesResponse) (final : RaftNode) : Prop :=
  ∃ K, Steps (majorityRules voters) n H K ∧ NodeFacts voters config K n final ∧
    PacketFacts voters K
      { source := n, destination := source, payload := .appendEntriesResponse response }

theorem NodeCore.returns_finish (source : NodeId)
    (response : AppendEntriesResponse) (changed : Bool)
    (hsame : changed = false → DurableHead voters config H n node.saved)
    (hpacket : PacketFacts voters H
      { source := n, destination := source
        payload := .appendEntriesResponse { response with term := node.currentTerm } }) :
    Returns saved (finishAppend response changed) node
      (AppendOutcome voters config H n source) (Left voters config H n) := by
  rw [finishAppend]
  refine .get_bind (.bind (hcore.returns_persist_if changed hsame) ?_)
  rintro _ final ⟨hfinal, -⟩
  exact .pure ⟨H, Steps.refl H, hfinal, hpacket⟩

theorem NodeCore.reject_packet
    {response : AppendEntriesResponse} (hfailure : response.success = false)
    (hreject : RejectFacts H (H.term n) n response.conflictIndex response.conflictTerm) :
    PacketFacts voters H
      { source := n, destination := source
        payload := .appendEntriesResponse { response with term := node.currentTerm } } := by
  refine ⟨fun hsuccess => by simp [hfailure] at hsuccess, fun _ => ?_⟩
  rw [hcore.term]
  exact hreject

theorem NodeCore.reject_behind :
    RejectFacts H (H.term n) n (node.log.lastIndex + 1) none := by
  refine ⟨le_rfl, fun _ _ _ => ?_, by simp⟩
  rw [hcore.uncompacted.last_index, hcore.log]
  exact Nat.lt_succ_self _

end Following

/-- Saved states stay current when term, log and vote stay. -/
theorem DurableHead.same {saved : List RaftPersistentState}
    (hhead : DurableHead voters config H n saved) (hgrows : Grows H K)
    (hterm : K.term n = H.term n) (hlog : K.log n = H.log n) (hvote : K.vote n = H.vote n) :
    DurableHead voters config K n saved := by
  cases saved with
  | nil => exact ⟨hterm.trans hhead.1, hlog.trans hhead.2⟩
  | cons image rest =>
    have hfacts : DurableFacts voters config H n image := hhead
    exact
      { hfacts with
        term := hfacts.term.trans hterm.symm
        vote := by rw [hfacts.vote, hvote, hterm]
        entries := by rw [hfacts.entries, hlog]
        commit := by
          rw [hterm, hlog]
          exact hfacts.commit.grows hgrows le_rfl }

/-- The index a follower acknowledges is the end of the request. -/
theorem AppendFacts.match_index (hfacts : AppendFacts voters H source n request)
    (hsound : Sound voters H) :
    RaftNode.lastIndexSent request = request.previousLogIndex + request.entries.length := by
  rw [lastIndexSent]
  cases hlast : request.entries.getLast? with
  | none =>
    rw [getLast?_eq_none_iff.mp hlast]
    rfl
  | some last =>
    have hcontiguous := (RaftLog.incoming_valid_iff.mp (hfacts.incoming_valid hsound)).1
    rw [getLast?_eq_getElem?] at hlast
    have hindex := hcontiguous.index_eq hlast
    have hlength := (List.getElem?_eq_some_iff.mp hlast).1
    simp only [hindex]
    omega

theorem AppendFacts.settled_commit (hfacts : AppendFacts voters H source n request)
    {log : List LogEntry} (haccepted : Accepted H n request log) :
    Settled (majorityRules voters) H request.term (min request.leaderCommit log.length) log := by
  refine (hfacts.commit.of_le (Nat.min_le_left _ _)).congr ?_
  obtain ⟨rest, hrest⟩ := haccepted.start
  rw [← hrest, take_append_of_le_length (Nat.min_le_right _ _)]

/-- A replication request after the follower's test is simulated. -/
theorem NodeCore.returns_matched (hcore : NodeCore voters config H n node)
    (hsound : Sound voters H) (hfacts : AppendFacts voters H source n request)
    (hterm : request.term = H.term n) (hrole : node.role = .follower)
    {response : AppendEntriesResponse} (hfailure : response.success = false)
    (hnone : response.conflictTerm = none)
    (hpass : RaftNode.appendConflict node.log request response = none) (termIncreased : Bool)
    (hsame : termIncreased = false → DurableHead voters config H n node.saved) :
    Returns RaftNode.saved (RaftNode.appendMatched request response termIncreased) node
      (AppendOutcome voters config H n source) (Left voters config H n) := by
  obtain ⟨hle, hagree⟩ := hcore.agree_of_no_conflict hsound hfacts hpass
  rw [appendMatched]
  refine .get_bind ?_
  rcases hcore.append_from hsound hfacts hterm hle hagree with herror | ⟨log, hok, hlog, haccepted⟩
  · rw [herror]
    refine hcore.returns_finish source _ termIncreased hsame (hcore.reject_packet hfailure ?_)
    simp only [hnone]
    exact hcore.reject_behind
  · rw [hok]
    have hstep := hfacts.accept_step hsound.invariant hterm haccepted
    have hgrows := hstep.grows hsound.invariant
    have hsteps := Steps.single hstep
    have hnew := hcore.accept hsound hfacts hterm hrole hlog haccepted
    have hplain : ∀ entry ∈ request.entries, entry.type ≠ .confChange := by
      intro entry hentry
      obtain ⟨i, hi⟩ := getElem?_of_mem
        (mem_of_mem_drop (hfacts.entries.subset hentry))
      exact (hsound.valid _ i entry hi).2
    have hsettled : Settled (majorityRules voters) H (H.term n)
        (min request.leaderCommit log.lastIndex) log.suffix := by
      rw [← hterm, hlog.last_index]
      exact hfacts.settled_commit haccepted
    have hself : (H.accept n (H.term n) log.suffix
        (request.previousLogIndex + request.entries.length)).log n = log.suffix := by
      simp [History.accept]
    obtain ⟨moved, final, hfollow, hfinal, hsaved, hcurrent⟩ :=
      hnew.follow_commit (hsound.steps hsteps) request.leaderCommit
        (by rw [hself]; exact hsettled.grows hgrows le_rfl)
    simp only [hcore.rollback_eq]
    refine .set_bind rfl ?_
    refine .bind_ok (apply_appended_plain _ _ hplain) rfl ?_
    refine .bind_ok hfollow hsaved ?_
    refine (hfinal.returns_finish source _ _ ?_ ?_).mono ?_ fun _ h => h.after hsteps
    · -- Nothing is saved only if the log is unchanged.
      intro hunchanged
      obtain ⟨⟨hold, hempty⟩, -⟩ : (termIncreased = false ∧ request.entries = []) ∧
          moved = false := by simpa using hunchanged
      rw [hsaved]
      exact (hsame hold).same hgrows rfl (by rw [hself]; exact haccepted.unchanged hempty) rfl
    · refine ⟨fun _ => ?_, fun h => by simp at h⟩
      simp only [hfacts.match_index hsound, hfinal.term]
      show _ ≤ updatePair H.acked (H.term n) n _ (H.term n) n
      simp [updatePair]
    · rintro answer last ⟨K, hmore, hrest⟩
      exact ⟨K, hsteps.trans hmore, hrest⟩

/-- Answering a replication request is simulated. -/
theorem NodeFacts.returns_handle_append_entries (hnode : NodeFacts voters config H n node)
    (hsound : Sound voters H) (hfacts : AppendFacts voters H source n request) :
    Returns RaftNode.saved (RaftNode.handleAppendEntries request) node
      (AppendOutcome voters config H n source) (Left voters config H n) := by
  have hcore := hnode.core
  rw [handleAppendEntries]
  refine .get_bind ?_
  dsimp only
  by_cases hrefused : node.isVotingMember request.leaderId = false ∨
      request.term < node.currentTerm
  · rw [if_pos hrefused]
    exact hcore.returns_finish source _ false (fun _ => hnode.durable)
      (hcore.reject_packet rfl hcore.reject_behind)
  rw [if_neg hrefused]
  have hreached : H.term n ≤ request.term := by
    rw [← hcore.term]
    by_contra hlt
    exact hrefused (.inr (by omega))
  obtain ⟨K, hsteps, hfollower, hterm, hrole, hlog, hsaved, hunmoved⟩ :=
    hcore.follow hsound hreached request.leaderId
  have hsound' := hsound.steps hsteps
  have hfacts' := hfacts.steps hsteps hsound.invariant
  have hsame : decide (node.currentTerm < request.term) = false →
      DurableHead voters config K n (node.followLeader request.term request.leaderId).saved := by
    intro hold
    have heq : request.term = H.term n := by
      have h : ¬ node.currentTerm < request.term := by simpa using hold
      rw [hcore.term] at h
      omega
    rw [hunmoved heq, hsaved]
    exact hnode.durable
  have hafter : ∀ {program : RaftM AppendEntriesResponse},
      Returns saved program (node.followLeader request.term request.leaderId)
        (AppendOutcome voters config K n source) (Left voters config K n) →
      Returns saved program (node.followLeader request.term request.leaderId)
        (AppendOutcome voters config H n source) (Left voters config H n) := by
    intro program hprogram
    refine hprogram.mono ?_ fun _ h => h.after hsteps
    rintro answer final ⟨M, hmore, hrest⟩
    exact ⟨M, hsteps.trans hmore, hrest⟩
  refine .set_bind hsaved (hafter ?_)
  rw [← hlog]
  split
  · rename_i rejection hrejection
    obtain ⟨hfailure, hreject⟩ :=
      hfollower.reject_facts hsound' hfacts' hterm.symm rfl hrejection
    exact hfollower.returns_finish source _ _ hsame (hfollower.reject_packet hfailure hreject)
  · rename_i hpass
    exact hfollower.returns_matched hsound' hfacts' hterm.symm hrole rfl rfl hpass _ hsame

/-! ## The leader -/

section Conflicts

variable (hleader : LeaderFacts H n node.config.peers node.nextIndex node.matchIndex)
  (hcore : NodeCore voters config H n node) (hsound : Sound voters H)
include hleader hcore hsound

/-- The leader's last entry of an earlier term is in the log it stood with. -/
theorem LeaderFacts.last_of_term {stood : List LogEntry}
    (hstood : H.stood (H.term n) n = some stood) {term : Nat} (hpos : 0 < term)
    (hold : term < H.term n) :
    node.log.lastIndexOfTerm term =
      (stood.reverse.find? (·.term == term)).map (·.index) := by
  have hinv := hsound.invariant
  obtain ⟨log, hlog, ⟨own, hsplit⟩, hown⟩ := hinv.leaderStood hleader.leads
  have heq : stood = log := Option.some.inj (hstood.symm.trans hlog)
  subst heq
  rw [← hsplit, drop_left] at hown
  have hnone : own.reverse.find? (·.term == term) = none := by
    refine find?_eq_none.mpr fun entry hentry => ?_
    have hterm := hown entry (mem_reverse.mp hentry)
    have hterm' : entry.term = H.term n := hterm
    simp only [beq_iff_eq]
    omega
  rw [hcore.uncompacted.last_index_of_term hpos, hcore.log,
    hinv.leaderHolds hleader.leads rfl, ← hsplit, reverse_append, find?_append, hnone,
    Option.none_or]

/-- The cursor after a rejection is inside the log and safe. -/
theorem LeaderFacts.next_after_conflict {v : NodeId}
    {conflictIndex : Nat} {conflictTerm : Option Nat}
    (hreject : RejectFacts H (H.term n) v conflictIndex conflictTerm) :
    1 ≤ LogReplication.nextIndexAfterConflict node.log conflictIndex conflictTerm ∧
      LogReplication.nextIndexAfterConflict node.log conflictIndex conflictTerm ≤
        (H.log n).length + 1 ∧
      CursorSafe H (H.term n) v
        (LogReplication.nextIndexAfterConflict node.log conflictIndex conflictTerm - 1) := by
  have hinv := hsound.invariant
  have hholds := hinv.leaderHolds hleader.leads rfl
  have hlast : node.log.lastIndex = (H.log n).length := by
    rw [hcore.uncompacted.last_index, hcore.log]
  -- The cursor is the hint, kept inside the log; it suffices that the hint is not too small.
  have hclamp : ∀ hint, (H.term v = H.term n → H.acked (H.term n) v = 0 →
      ∀ common, common <+: H.log v → common <+: H.leaderLog (H.term n) →
        common.length ≤ hint - 1) →
      1 ≤ min (max 1 hint) (node.log.lastIndex + 1) ∧
        min (max 1 hint) (node.log.lastIndex + 1) ≤ (H.log n).length + 1 ∧
        CursorSafe H (H.term n) v (min (max 1 hint) (node.log.lastIndex + 1) - 1) := by
    intro hint hsafe
    rw [hlast]
    refine ⟨by omega, by omega, ?_, fun hlt => absurd hreject.reached (by omega)⟩
    intro hterm hacked common hown htheirs
    have hshort := hsafe hterm hacked common hown htheirs
    have hinside := htheirs.length_le
    rw [← hholds] at hinside
    omega
  have hminimum : (if node.log.firstIndex = uint64Max then node.log.firstIndex
      else node.log.firstIndex + 1) = 1 := by
    rw [hcore.uncompacted.first_index]
    decide
  simp only [LogReplication.nextIndexAfterConflict, hminimum]
  cases hconflict : conflictTerm with
  | none =>
    refine hclamp conflictIndex fun hterm hacked common hown _ => ?_
    have hlength := hreject.length hconflict hterm hacked
    have hshort := hown.length_le
    omega
  | some term =>
    obtain ⟨hpos, hold, c, stood, hc, hstood, hsafe⟩ := hreject.hint term hconflict
    have hcn : n = c := Option.some.inj (hleader.leads.symm.trans hc)
    subst hcn
    simp only [hleader.last_of_term hcore hsound hstood hpos hold]
    cases hfind : stood.reverse.find? (·.term == term) with
    | none =>
      simp only [hfind, Option.map_none, Option.getD_none] at hsafe ⊢
      exact hclamp conflictIndex hsafe.reached
    | some last =>
      simp only [hfind, Option.map_some, Option.getD_some] at hsafe ⊢
      exact hclamp (last.index + 1) hsafe.reached

end Conflicts

/-- A leader that moves a cursor to a safe place stays related. -/
theorem NodeFacts.with_cursors (hfacts : NodeFacts voters config H n node)
    (hrole : node.role = .leader) {v : NodeId} {next : Nat}
    {matchIndex : NodeId → Option Nat}
    (hnext : 1 ≤ next ∧ next ≤ (H.log n).length + 1 ∧ CursorSafe H (H.term n) v (next - 1))
    (hmatched : ∀ w ∈ node.config.peers, ∀ index, matchIndex w = some index →
      index ≤ H.acked (H.term n) w) :
    NodeFacts voters config H n
      { node with
        matchIndex
        nextIndex := update node.nextIndex v (some next) } where
  core :=
    { hfacts.core with
      candidate := fun hcandidate => by simp [hrole] at hcandidate
      leader := fun _ =>
        { hfacts.core.leader hrole with
          cursor := by
            intro w hw other (hother : update node.nextIndex v (some next) w = some other)
            rcases eq_or_ne w v with rfl | hne
            · rw [update_self] at hother
              exact Option.some.inj hother ▸ hnext
            · rw [update_of_ne hne] at hother
              exact (hfacts.core.leader hrole).cursor w hw other hother
          matched := hmatched } }
  durable := hfacts.durable

theorem NodeCore.member_peer (hcore : NodeCore voters config H n node) {source : NodeId}
    (hmember : ¬ (node.isMember source = false ∨ source = node.config.nodeId)) :
    source ∈ node.config.peers := by
  rw [not_or] at hmember
  simpa [isMember, hmember.2, hcore.fixed.learners] using hmember.1

/-- A success moves the cursors to what the follower acknowledged. -/
theorem NodeFacts.acknowledge (hfacts : NodeFacts voters config H n node)
    (hrole : node.role = .leader) {source : NodeId} (hpeer : source ∈ node.config.peers)
    {next matched index : Nat} (hnext : node.nextIndex source = some next)
    (hmatched : node.matchIndex source = some matched) (hindex : index ≤ node.log.lastIndex)
    (hacked : index ≤ H.acked (H.term n) source) :
    NodeFacts voters config H n
      { node with
        matchIndex := update node.matchIndex source (some (max matched index))
        nextIndex := update node.nextIndex source (some (max next (index + 1))) } := by
  have hcore := hfacts.core
  have hleader := hcore.leader hrole
  rw [hcore.uncompacted.last_index, hcore.log] at hindex
  obtain ⟨hone, hinside, hsafe⟩ := hleader.cursor source hpeer next hnext
  refine hfacts.with_cursors hrole ⟨by omega, by omega, hsafe.mono (by omega)⟩ ?_
  intro w hw other hother
  rcases eq_or_ne w source with rfl | hne
  · rw [update_self] at hother
    have hbefore := hleader.matched w hw matched hmatched
    have hmax := Option.some.inj hother
    omega
  · rw [update_of_ne hne] at hother
    exact hleader.matched w hw other hother

/-- Handling an `AppendEntries` response is simulated. -/
theorem NodeFacts.returns_append_entries_response (hfacts : NodeFacts voters config H n node)
    (hsound : Sound voters H) {source : NodeId} {response : AppendEntriesResponse}
    (hsuccess : response.success = true → response.matchIndex ≤ H.acked response.term source)
    (hreject : response.success = false →
      RejectFacts H response.term source response.conflictIndex response.conflictTerm) :
    Returns RaftNode.saved (RaftNode.handleAppendEntriesResponse source response) node
      (Outcome voters config H n) (Left voters config H n) := by
  have hcore := hfacts.core
  rw [handleAppendEntriesResponse]
  refine .get_bind ?_
  by_cases hmember : node.isMember source = false ∨ source = node.config.nodeId
  · rw [if_pos hmember]
    exact .pure hfacts.outcome
  rw [if_neg hmember]
  by_cases hnewer : node.currentTerm < response.term
  · rw [if_pos hnewer]
    exact hfacts.returns_newer_term hsound (hcore.term ▸ hnewer)
  rw [if_neg hnewer]
  by_cases hstale : node.role ≠ .leader ∨ response.term ≠ node.currentTerm
  · rw [if_pos hstale]
    exact .pure hfacts.outcome
  rw [if_neg hstale]
  simp only [not_or, not_not] at hstale
  obtain ⟨hrole, hterm⟩ := hstale
  rw [hterm, hcore.term] at hsuccess hreject
  have hpeer := hcore.member_peer hmember
  cases hnext : node.nextIndex source with
  | none => exact .pure hfacts.outcome
  | some next =>
    cases hmatched : node.matchIndex source with
    | none => exact .pure hfacts.outcome
    | some matched =>
      dsimp only
      split_ifs with hanswer hvalid hirrelevant
      · have hindex : response.matchIndex ≤ node.log.lastIndex := by
          simp only [acknowledgementValid, Bool.and_eq_true, Bool.not_eq_true',
            decide_eq_false_iff_not, not_lt] at hvalid
          exact hvalid.1.1.2
        have hmoved := hfacts.acknowledge hrole hpeer hnext hmatched hindex (hsuccess hanswer)
        refine .set_bind rfl (.bind (hmoved.returns_advance hsound) ?_)
        rintro - final ⟨hfinal, hfinalRole⟩
        refine .get_bind ?_
        split_ifs
        · refine .pure ⟨H, Steps.refl H, hfinal, ?_⟩
          simp only [mem_singleton, forall_eq]
          exact (hfinal.core.leader (hfinalRole.trans hrole)).append_facts hfinal.core hsound
            (by rw [hfinal.core.fixed.mem_peers_iff, ← hcore.fixed.mem_peers_iff]; exact hpeer)
        · exact .pure hfinal.outcome
      · exact .pure hfacts.outcome
      · exact .pure hfacts.outcome
      · have hsafe := (hcore.leader hrole).next_after_conflict hcore hsound
          (hreject (Bool.eq_false_iff.mpr hanswer))
        have hmoved := hfacts.with_cursors hrole hsafe (hcore.leader hrole).matched
        refine .set_bind rfl (.pure ⟨H, Steps.refl H, hmoved, ?_⟩)
        simp only [mem_singleton, forall_eq]
        exact (hmoved.core.leader hrole).append_facts hmoved.core hsound hpeer

end DistributedKV
