import Mathlib

set_option autoImplicit false

namespace RaftLog

structure NodeId where
  name : String
deriving DecidableEq, Repr

structure OperationId where
  id : Nat
deriving DecidableEq, Repr

inductive Role where
  | candidate
  | follower
  | leader
deriving DecidableEq, Repr

structure Progress where
  nextIndex : Nat
  matchIndex : Nat
deriving DecidableEq, Repr

-- A HashMap from node ids: one entry per key, in some iteration order.
abbrev ProgressMap := AList fun _ : NodeId => Progress

structure State where
  currentTerm : Nat
  votedFor : Option NodeId
deriving DecidableEq, Repr

structure VoteRequest where
  term : Nat
  candidateId : NodeId
  lastLogIndex : Nat
  lastLogTerm : Nat
deriving DecidableEq, Repr

structure HeartbeatRequest where
  term : Nat
  leaderId : NodeId
  logIndex : Nat
  logTerm : Nat
  leaderCommitIndex : Nat
deriving DecidableEq, Repr

structure VoteResponse where
  term : Nat
  voteGranted : Bool
deriving DecidableEq, Repr

structure AppendEntriesRequest where
  term : Nat
  leaderId : NodeId
  prevLogIndex : Nat
  prevLogTerm : Nat
  commitIndex : Nat
deriving DecidableEq, Repr

structure AppendEntriesResponse where
  term : Nat
  success : Bool
  lastLogIndex : Nat
  lastLogTerm : Nat
  leaderId : Option NodeId
deriving DecidableEq, Repr

structure PersistedEntries where
  operationId : OperationId
  lastLogIndex : Nat
  lastLogTerm : Nat
  leaderCommitIndex : Nat
deriving DecidableEq, Repr

structure AppliedEntries where
  operationId : OperationId
  through : Nat
deriving DecidableEq, Repr

-- The source's field `from` of the three received responses is `sender` here.
structure ReceivedVoteResponse where
  sender : NodeId
  response : VoteResponse
deriving DecidableEq, Repr

structure ReceivedHeartbeatResponse where
  sender : NodeId
  response : AppendEntriesResponse
deriving DecidableEq, Repr

structure LocalEntry where
  operationId : OperationId
  index : Nat
  term : Nat
deriving DecidableEq, Repr

structure ReplicationTarget where
  peer : NodeId
  lastLogIndex : Nat
  lastLogTerm : Nat
  leaderId : NodeId
  leaderCommitIndex : Nat
deriving DecidableEq, Repr

structure ReceivedAppendEntriesResponse where
  operationId : OperationId
  sender : NodeId
  response : AppendEntriesResponse
deriving DecidableEq, Repr

structure ReceivedAppendEntries where
  operationId : OperationId
  request : AppendEntriesRequest
  localPrevLogTerm : Option Nat
deriving DecidableEq, Repr

inductive Event where
  | electionTimeout
  | heartbeatTimeout
  | heartbeat (request : HeartbeatRequest)
  | requestVote (request : VoteRequest)
  | appendEntries (received : ReceivedAppendEntries)
  | appendEntriesResponse (received : ReceivedAppendEntriesResponse)
  | entriesPersisted (entries : PersistedEntries)
  | entriesApplied (entries : AppliedEntries)
  | voteResponse (received : ReceivedVoteResponse)
  | heartbeatResponse (received : ReceivedHeartbeatResponse)
  | localEntriesAppended (entry : LocalEntry)
  | write (operationId : OperationId)
deriving DecidableEq, Repr

inductive Effect where
  | sendRequestVotes (hardState : State) (peers : List NodeId) (request : VoteRequest)
  | sendAppendEntries (operationId : OperationId) (targets : List ReplicationTarget)
  | sendRequestVoteResponse (hardState : Option State) (peer : NodeId) (response : VoteResponse)
  | sendHeartbeat (peers : List NodeId) (request : HeartbeatRequest)
  | sendHeartbeatResponse (peer : NodeId) (response : AppendEntriesResponse) (resetElectionTimer : Bool)
      (applyThrough : Option Nat)
  | persistEntries (operationId : OperationId) (peer : NodeId) (response : AppendEntriesResponse)
      (truncateAfter : Option Nat) (leaderCommitIndex : Nat)
  | applyCommitted (operationId : OperationId) (through : Nat)
  | rejectAppendEntries (operationId : OperationId) (peer : NodeId) (response : AppendEntriesResponse)
  | appendLocal (operationId : OperationId) (term lastLogIndex : Nat)
  | completeOperation (operationId : OperationId)
deriving DecidableEq, Repr

inductive Error where
  | notLeader (leaderId : Option NodeId)
  | notCandidate
deriving DecidableEq, Repr

structure Raft where
  id : NodeId
  voters : ProgressMap
  learners : ProgressMap
  role : Role
  currentTerm : Nat
  leaderId : Option NodeId
  votedFor : Option NodeId
  lastApplied : Nat
  commitIndex : Nat
  lastLogIndex : Nat
  lastLogTerm : Nat
  grantedVotes : Finset NodeId

-- An unwinding thread: its message is the one the source or the language gives.
structure Panic where
  message : String
deriving DecidableEq, Repr

def u64Max : Nat := 2 ^ 64 - 1

-- Plain `+` of u64, with the overflow check of the profile the tests run in.
def addU64 (left right : Nat) : Except Panic Nat :=
  if left + right ≤ u64Max then .ok (left + right) else .error ⟨"attempt to add with overflow"⟩

def saturatingAdd (left right : Nat) : Nat := min (left + right) u64Max

end RaftLog
