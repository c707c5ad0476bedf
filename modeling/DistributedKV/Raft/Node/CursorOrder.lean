import DistributedKV.Raft.Node.Saves
import Mathlib.Data.Option.Basic

/-!
# The order of a leader's cursors

The match index of a peer lies inside the leader's log, and the next index is at most one past it.
Every change of a node keeps this, and no match index falls while a node leads one term
(`Micro.tends`). The match index also lies below the next index, with one exception. A rejection
passes the leader's filter when the request it answers is the one the leader would send next, and
this can be a request from before the peer acknowledged its previous entry. What then counts is
where the hint leads (`not_fresh_iff`, `ordered_after_rejection_iff`).
-/

namespace DistributedKV

open Barrier Relation Function

/-- A match index inside the log and a next index at most one past the log; in the strict sense the
next index also lies above the match index. -/
def RaftLog.Orders (log : RaftLog) (strict : Prop) (next matched : Nat) : Prop :=
  matched ≤ log.lastIndex ∧ (strict → matched < next) ∧ next ≤ log.lastIndex + 1

theorem RaftLog.orders_of_longer {log longer : RaftLog} {strict : Prop} {next matched : Option Nat}
    (hlast : log.lastIndex ≤ longer.lastIndex)
    (hordered : Option.Rel (log.Orders strict) next matched) :
    Option.Rel (longer.Orders strict) next matched := by
  cases hordered with
  | some horders =>
    obtain ⟨hheld, hbelow, hwithin⟩ := horders
    exact .some ⟨hheld.trans hlast, hbelow, hwithin.trans (Nat.succ_le_succ hlast)⟩
  | none => exact .none

namespace RaftNode

variable {operation : Operation} {strict : Prop} {before middle after node : RaftNode}

/-- The two cursors a leader has for a peer are in order. -/
def CursorsOrdered (strict : Prop) (node : RaftNode) : Prop :=
  node.role = .leader → ∀ peer,
    Option.Rel (node.log.Orders strict) (node.nextIndex peer) (node.matchIndex peer)

/-- No match index has fallen. -/
def MatchGrown (before after : RaftNode) : Prop :=
  ∀ peer matched, before.matchIndex peer = some matched →
    ∃ later, after.matchIndex peer = some later ∧ matched ≤ later

theorem MatchGrown.trans (hfirst : MatchGrown before middle) (hsecond : MatchGrown middle after) :
    MatchGrown before after := by
  intro peer matched hmatched
  obtain ⟨later, hlater, hle⟩ := hfirst peer matched hmatched
  obtain ⟨last, hlast, hmore⟩ := hsecond peer later hlater
  exact ⟨last, hlast, hle.trans hmore⟩

/-- Terms do not fall, a term has one candidacy and one leadership, no match index falls during a
leadership, and cursors stay in order. -/
structure Tends (strict : Prop) (before after : RaftNode) : Prop where
  term : before.currentTerm ≤ after.currentTerm
  stands : after.role = .candidate → after.currentTerm = before.currentTerm →
    before.role = .candidate
  leads : after.role = .leader → after.currentTerm = before.currentTerm →
    before.role = .candidate ∨ before.role = .leader ∧ MatchGrown before after
  ordered : before.CursorsOrdered strict → after.CursorsOrdered strict

namespace Tends

theorem refl (node : RaftNode) : Tends strict node node where
  term := le_rfl
  stands hrole _ := hrole
  leads hrole _ := .inr ⟨hrole, fun _ matched hmatched => ⟨matched, hmatched, le_rfl⟩⟩
  ordered := id

theorem trans (hfirst : Tends strict before middle) (hsecond : Tends strict middle after) :
    Tends strict before after := by
  have hterm := hfirst.term
  have hlater := hsecond.term
  refine ⟨hterm.trans hlater, fun hrole hsame => ?_, fun hrole hsame => ?_,
    fun h => hsecond.ordered (hfirst.ordered h)⟩
  · exact hfirst.stands (hsecond.stands hrole (by omega)) (by omega)
  · rcases hsecond.leads hrole (by omega) with hcandidate | ⟨hleader, hgrown⟩
    · exact .inl (hfirst.stands hcandidate (by omega))
    · exact (hfirst.leads hleader (by omega)).imp_right fun h => ⟨h.1, h.2.trans hgrown⟩

theorem of_follower (hterm : before.currentTerm ≤ after.currentTerm)
    (hrole : after.role = .follower) : Tends strict before after := by
  refine ⟨hterm, fun h => ?_, fun h => ?_, fun _ h => ?_⟩
  all_goals
    rw [hrole] at h
    cases h

theorem of_steady (hrole : after.role = before.role)
    (hterm : after.currentTerm = before.currentTerm) (hnext : after.nextIndex = before.nextIndex)
    (hmatch : after.matchIndex = before.matchIndex)
    (hlast : before.log.lastIndex ≤ after.log.lastIndex) : Tends strict before after := by
  refine ⟨hterm.ge, fun h _ => hrole ▸ h, fun h _ => .inr ⟨hrole ▸ h, ?_⟩, fun hordered h peer => ?_⟩
  · intro peer matched hmatched
    exact ⟨matched, hmatch ▸ hmatched, le_rfl⟩
  · rw [hnext, hmatch]
    exact RaftLog.orders_of_longer hlast (hordered (hrole ▸ h) peer)

theorem takeover (hrole : node.role = .candidate) : Tends strict node node.takeover := by
  refine ⟨le_rfl, fun h => (by cases h), fun _ _ => .inl hrole, fun _ _ peer => ?_⟩
  have hlast : node.takeover.log.lastIndex = node.log.lastIndex + 1 :=
    node.log.last_index_append _ _ _
  show Option.Rel _ (node.initialCursors (node.log.lastIndex + 1) peer) (node.initialCursors 0 peer)
  rw [initialCursors, initialCursors]
  split_ifs
  · exact .some ⟨by omega, by omega, by omega⟩
  · exact .none

/-- A peer is credited with an entry of the log. -/
theorem credit {peer : NodeId} {index next matched : Nat} (hrole : node.role = .leader)
    (hnext : node.nextIndex peer = some next) (hmatch : node.matchIndex peer = some matched)
    (hindex : index ≤ node.log.lastIndex) :
    Tends strict node { node with
      nextIndex := update node.nextIndex peer (some (max next (index + 1)))
      matchIndex := update node.matchIndex peer (some (max matched index)) } := by
  refine ⟨le_rfl, fun h _ => h, fun _ _ => .inr ⟨hrole, fun other held hheld => ?_⟩,
    fun hordered _ other => ?_⟩
  · by_cases hother : other = peer
    · subst hother
      cases hmatch.symm.trans hheld
      exact ⟨max matched index, update_self .., Nat.le_max_left _ _⟩
    · exact ⟨held, (update_of_ne hother ..).trans hheld, le_rfl⟩
  · have hbefore := hordered hrole other
    dsimp only
    by_cases hother : other = peer
    · subst hother
      rw [hnext, hmatch] at hbefore
      cases hbefore with
      | some horders =>
        obtain ⟨hheld, hbelow, hwithin⟩ := horders
        rw [update_self, update_self]
        refine .some ⟨by omega, fun hstrict => ?_, by omega⟩
        have hlower := hbelow hstrict
        omega
    · rw [update_of_ne hother, update_of_ne hother]
      exact hbefore

end Tends

end RaftNode

/-- The operations that keep the cursors in order in both senses. -/
def Operation.Orderly : Operation → Prop
  | .handleAppendEntriesResponse _ response => response.success = true
  | .addLearner _ | .compactLogPrefix _ _ | .applySnapshotBoundary _ _
  | .replaceLogWithSnapshotBoundary _ _ => False
  | _ => True

namespace RaftNode

variable {operation : Operation} {strict : Prop} {first second node : RaftNode}

/-- What comes before a commit keeps the cursors in order. -/
theorem Prepare.tends (hstep : Prepare operation first second) (horderly : operation.Orderly) :
    Tends strict first second := by
  have hlonger : ∀ type command,
      first.log.lastIndex ≤ (first.log.append first.currentTerm type command).lastIndex := by
    intro type command
    rw [RaftLog.last_index_append]
    exact Nat.le_succ _
  cases hstep with
  | stepDown term leader hmessage hterm =>
    refine Tends.of_follower ?_ rfl
    rw [becomeFollower, resetElectionTimer]
    split_ifs
    · exact hterm
    · exact le_rfl
  | stand helapses hrole hlearner =>
    refine ⟨Nat.le_succ _, fun _ hsame => ?_, fun h => (by cases h), fun _ h => (by cases h)⟩
    exact absurd hsame (Nat.succ_ne_self _)
  | takeOver helects hrole hquorum => exact Tends.takeover hrole
  | credit peer index next matched hcredits hrole hnext hmatch hindex =>
    exact Tends.credit hrole hnext hmatch hindex
  | backUp source response next hresponse hrejected =>
    subst hresponse
    exact absurd horderly (by simp [Operation.Orderly, hrejected])
  | appendExit exit encoded => exact Tends.of_steady rfl rfl rfl rfl (hlonger _ _)
  | appendCommand command => exact Tends.of_steady rfl rfl rfl rfl (hlonger _ _)
  | proposeChange cluster change encoded => exact Tends.of_steady rfl rfl rfl rfl (hlonger _ _)
  | merge source request log hrequest hrole hterm hprevious hlog =>
    -- the log may become shorter, but the node follows
    obtain ⟨-, hkept, hsame, -⟩ := { first with log }.rollback_pending_frame first.pendingChange
    exact Tends.of_follower hsame.ge (hkept.trans hrole)
  | addLearner learner hlearner =>
    subst hlearner
    exact horderly.elim
  | cutLog log commit hsnapshot =>
    cases operation <;> first | exact horderly.elim | exact hsnapshot.elim
  | save hsave =>
    cases hsave
    exact Tends.of_steady rfl rfl rfl rfl le_rfl
  | _ => exact Tends.of_steady rfl rfl rfl rfl le_rfl

theorem Micro.tends (hmicro : Micro operation first second) (horderly : operation.Orderly) :
    Tends strict first second := by
  cases hmicro with
  | prepare h => exact h.tends horderly
  | commit h => cases h <;> exact Tends.of_steady rfl rfl rfl rfl le_rfl
  | apply h =>
    cases h with
    | appendExit exit encoded =>
      refine Tends.of_steady rfl rfl rfl rfl ?_
      rw [RaftLog.last_index_append]
      exact Nat.le_succ _
    | save hsave =>
      cases hsave
      exact Tends.of_steady rfl rfl rfl rfl le_rfl
    | _ => exact Tends.of_steady rfl rfl rfl rfl le_rfl

/-! ## Rejections -/

/-- The lowest index a cursor is moved back to. -/
def lowestCursor (log : RaftLog) : Nat :=
  if log.firstIndex = uint64Max then log.firstIndex else log.firstIndex + 1

/-- Where a rejection leads: behind the leader's own last entry of the conflicting term, or to the
index the follower gives. -/
def rejectionHint (log : RaftLog) (response : AppendEntriesResponse) : Nat :=
  match response.conflictTerm.bind log.lastIndexOfTerm with
  | some last => last + 1
  | none => response.conflictIndex

/-- The answer is no rejection that passes the leader's filter, or its hint lies above what the
peer has acknowledged. -/
def freshRejection (node : RaftNode) (source : NodeId) (response : AppendEntriesResponse) : Bool :=
  match node.nextIndex source, node.matchIndex source with
  | some next, some matched =>
    response.success || node.role != .leader || response.term != node.currentTerm ||
      response.requestPreviousLogIndex != next - 1 ||
      decide (response.requestPreviousLogIndex < matched) ||
      decide (matched < max (lowestCursor node.log) (rejectionHint node.log response))
  | _, _ => true

theorem next_index_after_conflict_eq (log : RaftLog) (response : AppendEntriesResponse) :
    LogReplication.nextIndexAfterConflict log response.conflictIndex response.conflictTerm =
      min (max (lowestCursor log) (rejectionHint log response)) (log.lastIndex + 1) := by
  unfold LogReplication.nextIndexAfterConflict rejectionHint lowestCursor
  cases response.conflictTerm with
  | none => rfl
  | some term => cases log.lastIndexOfTerm term <;> rfl

theorem ordered_after_rejection_iff {log : RaftLog} {response : AppendEntriesResponse}
    {matched : Nat} (hheld : matched ≤ log.lastIndex) :
    log.Orders strict (LogReplication.nextIndexAfterConflict log response.conflictIndex
        response.conflictTerm) matched ↔
      (strict → matched < max (lowestCursor log) (rejectionHint log response)) := by
  rw [next_index_after_conflict_eq, RaftLog.Orders]
  constructor
  · rintro ⟨-, habove, -⟩ hstrict
    exact (lt_min_iff.mp (habove hstrict)).1
  · intro habove
    refine ⟨hheld, fun hstrict => ?_, min_le_right _ _⟩
    exact lt_min (habove hstrict) (Nat.lt_succ_of_le hheld)

theorem not_fresh_iff {source : NodeId} {response : AppendEntriesResponse} :
    node.freshRejection source response = false ↔
      node.role = .leader ∧ response.success = false ∧ response.term = node.currentTerm ∧
        ∃ next matched, node.nextIndex source = some next ∧
          node.matchIndex source = some matched ∧
          response.requestPreviousLogIndex = next - 1 ∧
          matched ≤ response.requestPreviousLogIndex ∧
          lowestCursor node.log ≤ matched ∧ rejectionHint node.log response ≤ matched := by
  cases hnext : node.nextIndex source with
  | none => simp [freshRejection, hnext]
  | some next =>
    cases hmatch : node.matchIndex source with
    | none => simp [freshRejection, hmatch]
    | some matched =>
      simp [freshRejection, hnext, hmatch]
      tauto

/-- A rejection keeps the order, strictly if it is fresh. -/
theorem ensures_rejection {source : NodeId} {response : AppendEntriesResponse}
    (hrejected : response.success = false)
    (hfresh : strict → node.freshRejection source response = true) :
    Ensures (handleAppendEntriesResponse source response) node
      fun _ final => Tends strict node final := by
  rw [handleAppendEntriesResponse]
  refine .get_bind ?_
  split
  · exact .pure (Tends.refl node)
  split
  · rename_i hterm
    refine .set_bind (.bind ensures_recorded ?_)
    rintro - final rfl
    refine .pure (Tends.of_follower ?_ rfl)
    show node.currentTerm ≤ (node.becomeFollower response.term none).currentTerm
    rw [becomeFollower, resetElectionTimer, if_pos hterm]
    exact hterm.le
  split
  · exact .pure (Tends.refl node)
  rename_i hidle
  obtain ⟨hrole, hterm⟩ := not_or.mp hidle
  rw [not_not] at hrole hterm
  split
  · rename_i next matched hnext hmatch
    rw [if_neg (by simp [hrejected])]
    split
    · exact .pure (Tends.refl node)
    rename_i hcounts
    simp only [not_or, not_not, not_lt] at hcounts
    obtain ⟨-, hprevious, hle⟩ := hcounts
    -- the filter let the rejection pass, so the hint lies above the match index
    have habove : strict →
        matched < max (lowestCursor node.log) (rejectionHint node.log response) := by
      simpa [freshRejection, hnext, hmatch, hrejected, hrole, hterm, hprevious,
        Nat.not_lt.mpr (hprevious ▸ hle)] using hfresh
    refine .set_bind (.pure ?_)
    refine ⟨le_rfl, fun h _ => h, fun _ _ => .inr ⟨hrole, fun _ held hheld => ⟨held, hheld, le_rfl⟩⟩,
      fun hordered _ other => ?_⟩
    have hbefore := hordered hrole other
    dsimp only
    by_cases hother : other = source
    · subst hother
      rw [hnext, hmatch] at hbefore
      cases hbefore with
      | some horders =>
        rw [update_self, hmatch]
        exact .some ((ordered_after_rejection_iff horders.1).mpr habove)
    · rw [update_of_ne hother]
      exact hbefore
  · exact .pure (Tends.refl node)

end RaftNode

end DistributedKV
