import DistributedKV.Raft.Node.Lifetime
import DistributedKV.Raft.Node.MicroSteps

/-!
# The log of a leader

A leader only appends to its log. A node that has led a term and leads it still has led it all the
time, since a candidate always stands for a later term, so that it has every entry it had, whatever
operations came in between, those on snapshot boundaries apart.
-/

namespace DistributedKV

namespace RaftNode

variable {node final : RaftNode} {term : Nat} {keeps : RaftLog → Prop} {operation : Operation}

/-- The node has led a term, and if it leads it still its log is as described. -/
structure HasLed (term : Nat) (keeps : RaftLog → Prop) (node : RaftNode) : Prop where
  term_le : term ≤ node.currentTerm
  role : node.currentTerm = term → node.role ≠ .candidate
  log : node.currentTerm = term → node.role = .leader → keeps node.log

theorem HasLed.of_follower (hterm : term ≤ node.currentTerm) (hrole : node.role = .follower) :
    node.HasLed term keeps :=
  ⟨hterm, fun _ => by simp [hrole], fun _ hleads => by simp [hrole] at hleads⟩

theorem HasLed.of_lt (hterm : term < node.currentTerm) : node.HasLed term keeps :=
  ⟨hterm.le, fun h => absurd h hterm.ne', fun h => absurd h hterm.ne'⟩

theorem HasLed.lt_of_candidate (h : node.HasLed term keeps) (hrole : node.role = .candidate) :
    term < node.currentTerm :=
  lt_of_le_of_ne h.term_le fun hterm => h.role hterm.symm hrole

variable (hkeeps : ∀ log term type command, keeps log → keeps (log.append term type command))
include hkeeps

/-- Every change inside an operation keeps this. -/
theorem HasLed.step (hplain : ¬ operation.Snapshot) (hmicro : Micro operation node final)
    (h : node.HasLed term keeps) : final.HasLed term keeps := by
  have happends : ∀ type command, node.currentTerm = term → node.role = .leader →
      keeps (node.log.append node.currentTerm type command) :=
    fun type command hterm hrole => hkeeps _ _ type command (h.log hterm hrole)
  rcases hmicro with hprepare | hcommit | happly
  · cases hprepare with
    | wait | castVote | credit | backUp | pendExit | proposeUnencoded | join | fault
    | addLearner => exact ⟨h.term_le, h.role, h.log⟩
    | appendExit | appendCommand | proposeChange => exact ⟨h.term_le, h.role, happends _ _⟩
    | stepDown term leader _ hterm =>
      refine .of_follower ?_ rfl
      simp only [becomeFollower, resetElectionTimer]
      split_ifs
      · exact h.term_le.trans hterm
      · exact h.term_le
    | stand => exact .of_lt (Nat.lt_succ_of_le h.term_le)
    -- a candidate stands for a later term, so that what it does with its votes is not about this one
    | countVote source hrole | takeOver _ hrole => exact .of_lt (h.lt_of_candidate hrole)
    -- the entries of a request are merged by a follower only
    | merge source request log _ hrole =>
      obtain ⟨-, hfollower, hterm, -⟩ :=
        { node with log }.rollback_pending_frame node.pendingChange
      exact .of_follower (h.term_le.trans_eq hterm.symm) (hfollower.trans hrole)
    | cutLog log commit hsnapshot => exact absurd hsnapshot hplain
    | save hsave => cases hsave; exact ⟨h.term_le, h.role, h.log⟩
  · cases hcommit <;> exact ⟨h.term_le, h.role, h.log⟩
  · cases happly with
    | joint | stable | fault | advance => exact ⟨h.term_le, h.role, h.log⟩
    | appendExit => exact ⟨h.term_le, h.role, happends _ _⟩
    | save hsave => cases hsave; exact ⟨h.term_le, h.role, h.log⟩

omit hkeeps

/-- Whatever operations come, those on snapshot boundaries apart, a node that leads the term it has
led before still has every entry it had then. -/
theorem leader_append_only (hrole : node.role = .leader) {operations : List Operation}
    (hplain : ∀ operation ∈ operations, ¬ operation.Snapshot)
    (hleads : (node.afterAll operations).role = .leader)
    (hterm : (node.afterAll operations).currentTerm = node.currentTerm) {index : Nat}
    {entry : LogEntry} (hentry : node.log.entryAt index = some entry) :
    (node.afterAll operations).log.entryAt index = some entry := by
  have hled : (node.afterAll operations).HasLed node.currentTerm
      (fun log => log.entryAt index = some entry) := by
    -- by induction on the operations, for the property of having this entry
    refine List.foldlRecOn operations after ⟨le_rfl, fun _ => by simp [hrole], fun _ _ => hentry⟩ ?_
    intro state hstate operation hmem
    refine invariant_after (fun first second => HasLed.step ?_ (hplain operation hmem)) hstate
    exact fun log term type command hkept => log.entry_at_append_of_some hkept term type command
  exact hled.log hterm hleads

/-- Node 1 is elected with the vote of node 2 and takes a command, which it still has after another
one and a heartbeat. -/
theorem leader_append_only_two_commands :
    (((fresh { nodeId := 1, peers := [2] } none).afterAll
      [.tick 300, .handleRequestVoteResponse 2 (granted 1), .propose [7]]).afterAll
      [.propose [8], .tick 50]).log.entryAt 2 =
        some { index := 2, term := 1, type := .command, command := [7] } :=
  leader_append_only (by decide +kernel) (by simp [Operation.Snapshot]) (by decide +kernel)
    (by decide +kernel) (by decide +kernel)

end RaftNode

end DistributedKV
