import RaftLog.Lib.Ledger
import RaftLog.Core.New
import RaftLog.Core.Steps
import RaftLog.Core.Placement
import RaftLog.Core.StepDown
import RaftLog.Core.Responses
import RaftLog.Core.Retries
import RaftLog.Core.Leadership
import RaftLog.Core.Duplicates
import RaftLog.Core.Candidates
import RaftLog.Core.Terms
import RaftLog.Core.Progress
import RaftLog.Core.Learners
import RaftLog.Election.HardState
import RaftLog.Election.Storage
import RaftLog.Election.RoundTrip
import RaftLog.Election.Safety
import RaftLog.Replication.Safety
import RaftLog.Replication.Completion
import RaftLog.Replication.Deletion
import RaftLog.Replication.Answers
import RaftLog.SegmentLog.ShortWrites
import RaftLog.SegmentLog.Recovery
import RaftLog.SegmentLog.Crashes
import RaftLog.SegmentLog.Rotation
import RaftLog.SegmentLog.Limits
import RaftLog.SegmentLog.Truncating
import RaftLog.SegmentLog.Trimming
import RaftLog.SegmentLog.Faults
import RaftLog.SegmentLog.Failures
import RaftLog.Grpc.ClientTransport
import RaftLog.Runtime.Applying
import RaftLog.Runtime.Writing
import RaftLog.Runtime.Wrapping
import RaftLog.Runtime.Offsets
import RaftLog.Election.Reboots
import RaftLog.Replication.Permanence
import RaftLog.Replication.OneLog
import RaftLog.Runtime.Restarts
import RaftLog.Runtime.Waiting
import RaftLog.Grpc.Calls
import RaftLog.SegmentLog.Sequence
import RaftLog.Core.Iteration
import RaftLog.Core.Tally
import RaftLog.SegmentLog.Scanning
import RaftLog.Runtime.Feeding
import RaftLog.SegmentLog.Damage
import RaftLog.Election.Loading
