import DistributedKV.Foundation.Barrier
import DistributedKV.Foundation.Cursor
import DistributedKV.Network.FrameScan
import DistributedKV.Raft.Journal.Corruption
import DistributedKV.Raft.LogVector
import DistributedKV.Raft.Node.Backtracking
import DistributedKV.Raft.Node.ChangeEntries
import DistributedKV.Raft.Node.ChangePhases
import DistributedKV.Raft.Node.CommitRule
import DistributedKV.Raft.Node.FollowerCommit
import DistributedKV.Raft.Node.LeaderLog
import DistributedKV.Raft.Node.Leadership
import DistributedKV.Raft.Node.Learners
import DistributedKV.Raft.Node.VoterStatus
import DistributedKV.Server.CrashRecovery
import DistributedKV.Server.ReadBarrier
import DistributedKV.Server.WriteLimits
import DistributedKV.Service.ChunkTransfer
import DistributedKV.Service.CursorRuns
import DistributedKV.Service.InstallCrash
import DistributedKV.Service.PublishCrash
import DistributedKV.Service.Safety
import DistributedKV.Service.SnapshotCodec
import DistributedKV.Service.SnapshotCredit
import DistributedKV.Service.StrayChunks
import DistributedKV.Service.Submissions
