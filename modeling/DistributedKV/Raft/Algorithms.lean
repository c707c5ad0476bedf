import DistributedKV.Raft.RaftLog

/-!
# Election and replication arithmetic

The stateless helpers of `src/raft/leader_election.cpp` and `src/raft/log_replication.cpp`:
the log-freshness comparison of a vote, strict majorities, the leader's cursor after a
rejected append, and the largest index a leader may commit.
-/

namespace DistributedKV

namespace LeaderElection

/-- A candidate's log is fresh enough when its last term is larger, or equal with a log at
least as long. -/
def isCandidateLogUpToDate (candidateLastIndex candidateLastTerm : Nat) (localLog : RaftLog) :
    Bool :=
  localLog.lastTerm < candidateLastTerm ||
    (candidateLastTerm == localLog.lastTerm && localLog.lastIndex ≤ candidateLastIndex)

/-- The size of a strict majority. -/
def quorumSize (memberCount : Nat) : Nat := memberCount / 2 + 1

/-- Whether a count reaches a strict majority. -/
def hasQuorum (grantedCount memberCount : Nat) : Bool := quorumSize memberCount ≤ grantedCount

end LeaderElection

namespace LogReplication

/-- The leader's next cursor after a rejection: past its own last entry of the conflicting term
when it has one, else the follower's hint, kept inside the leader's log. -/
def nextIndexAfterConflict (leaderLog : RaftLog) (conflictIndex : Nat)
    (conflictTerm : Option Nat) : Nat :=
  let candidate :=
    match conflictTerm with
    | none => conflictIndex
    | some term =>
      match leaderLog.lastIndexOfTerm term with
      | some last => last + 1
      | none => conflictIndex
  let minimum :=
    if leaderLog.firstIndex = uint64Max then leaderLog.firstIndex else leaderLog.firstIndex + 1
  min (max minimum candidate) (leaderLog.lastIndex + 1)

/-- The scan of `calculateCommitIndex`, downwards from `currentCommit + count`. -/
def commitScan (leaderLog : RaftLog) (currentTerm currentCommit : Nat)
    (followerMatchIndexes : List Nat) (memberCount : Nat) : Nat → Nat
  | 0 => currentCommit
  | count + 1 =>
    let candidate := currentCommit + (count + 1)
    let replicated := 1 + (followerMatchIndexes.filter (candidate ≤ ·)).length
    if leaderLog.termAt candidate = some currentTerm ∧
        LeaderElection.hasQuorum replicated memberCount = true then candidate
    else commitScan leaderLog currentTerm currentCommit followerMatchIndexes memberCount count

/-- The largest index above the commit index that has the current term and is held by a
majority, else the commit index. -/
def calculateCommitIndex (leaderLog : RaftLog) (currentTerm currentCommit : Nat)
    (followerMatchIndexes : List Nat) (memberCount : Nat) : Nat :=
  commitScan leaderLog currentTerm currentCommit followerMatchIndexes memberCount
    (leaderLog.lastIndex - currentCommit)

end LogReplication

end DistributedKV
