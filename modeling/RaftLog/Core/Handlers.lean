import RaftLog.Core.Types

set_option autoImplicit false

namespace RaftLog

-- What `&mut self -> Result<Option<Effect>>` leaves behind: an unwinding thread,
-- or the mutated state together with the returned result. An error keeps the
-- mutations made before it was returned.
abbrev Handled := Except Panic (Raft × Except Error (Option Effect))

def Raft.hardState (raft : Raft) : State := ⟨raft.currentTerm, raft.votedFor⟩

def Raft.peers (raft : Raft) : List NodeId := raft.voters.keys.filter (· ≠ raft.id)

-- `get_mut` followed by an assignment through the reference.
def assign (map : ProgressMap) (node : NodeId) (progress : Progress) : ProgressMap := map.replace node progress

def handleElectionTimeout (raft : Raft) : Handled := do
  let term ← addU64 raft.currentTerm 1
  let raft := { raft with
    currentTerm := term, votedFor := some raft.id, grantedVotes := {raft.id}, role := .candidate }
  return (raft, .ok (some (.sendRequestVotes raft.hardState raft.peers
    ⟨raft.currentTerm, raft.id, raft.lastLogIndex, raft.lastLogTerm⟩)))

-- The up-to-date test of a vote request against the local log's end.
def candidateLogIsUpToDate (raft : Raft) (request : VoteRequest) : Bool :=
  request.lastLogTerm > raft.lastLogTerm ||
    (request.lastLogTerm == raft.lastLogTerm && request.lastLogIndex ≥ raft.lastLogIndex)

def handleRequestVote (raft : Raft) (request : VoteRequest) : Handled :=
  let newer := decide (request.term > raft.currentTerm)
  let raft := if newer then
      { raft with currentTerm := request.term, votedFor := none, role := .follower, leaderId := none, grantedVotes := ∅ }
    else raft
  let canVote := raft.votedFor.isNone || raft.votedFor == some request.candidateId
  let voteGranted := request.term == raft.currentTerm && candidateLogIsUpToDate raft request && canVote
  let records := voteGranted && raft.votedFor != some request.candidateId
  let raft := if records then { raft with votedFor := some request.candidateId } else raft
  let hardStateChanged := newer || records
  .ok (raft, .ok (some (.sendRequestVoteResponse (if hardStateChanged then some raft.hardState else none)
    request.candidateId ⟨raft.currentTerm, voteGranted⟩)))

def Raft.heartbeatRequest (raft : Raft) : HeartbeatRequest :=
  ⟨raft.currentTerm, raft.id, raft.lastLogIndex, raft.lastLogTerm, raft.commitIndex⟩

def handleHeartbeatTimeout (raft : Raft) : Handled :=
  if raft.role ≠ .leader then .ok (raft, .error (.notLeader raft.leaderId))
  else .ok (raft, .ok (some (.sendHeartbeat raft.peers raft.heartbeatRequest)))

-- The response every append and heartbeat handler builds from the local log's end.
def Raft.appendResponse (raft : Raft) (success : Bool) : AppendEntriesResponse :=
  ⟨raft.currentTerm, success, raft.lastLogIndex, raft.lastLogTerm, raft.leaderId⟩

def handleHeartbeat (raft : Raft) (request : HeartbeatRequest) : Handled :=
  if request.term < raft.currentTerm then
    .ok (raft, .ok (some (.sendHeartbeatResponse request.leaderId (raft.appendResponse false) false none)))
  else
    let raft := if request.term > raft.currentTerm then { raft with currentTerm := request.term, votedFor := none } else raft
    let raft := { raft with role := .follower, grantedVotes := ∅, leaderId := some request.leaderId }
    let logMatches := request.logIndex == raft.lastLogIndex && request.logTerm == raft.lastLogTerm
    if !logMatches then
      .ok (raft, .ok (some (.sendHeartbeatResponse request.leaderId (raft.appendResponse false) true none)))
    else
      let newCommitIndex := min request.leaderCommitIndex raft.lastLogIndex
      if newCommitIndex > raft.commitIndex then
        let raft := { raft with commitIndex := newCommitIndex }
        .ok (raft, .ok (some (.sendHeartbeatResponse request.leaderId (raft.appendResponse true) true (some newCommitIndex))))
      else .ok (raft, .ok (some (.sendHeartbeatResponse request.leaderId (raft.appendResponse true) true none)))

def previousEntryMatches (received : ReceivedAppendEntries) : Bool :=
  received.request.prevLogIndex == 0 || received.localPrevLogTerm == some received.request.prevLogTerm

-- The prefix check; the stale-term check stands before it.
def prefixRejected (raft : Raft) (received : ReceivedAppendEntries) : Bool :=
  received.request.prevLogIndex > raft.lastLogIndex || !previousEntryMatches received

def handleAppendEntries (raft : Raft) (received : ReceivedAppendEntries) : Handled :=
  let request := received.request
  if request.term < raft.currentTerm then
    .ok (raft, .ok (some (.rejectAppendEntries received.operationId request.leaderId (raft.appendResponse false))))
  else if prefixRejected raft received then
    -- the term is taken over, but neither the role nor the vote is given up
    let raft := { raft with currentTerm := request.term, leaderId := some request.leaderId }
    .ok (raft, .ok (some (.rejectAppendEntries received.operationId request.leaderId (raft.appendResponse false))))
  else if request.term > raft.currentTerm ∧ request.prevLogIndex < raft.lastLogIndex then
    let raft := { raft with
      votedFor := none, role := .follower, currentTerm := request.term, leaderId := some request.leaderId }
    .ok (raft, .ok (some (.persistEntries received.operationId request.leaderId
      ⟨raft.currentTerm, true, request.prevLogIndex, request.prevLogTerm, raft.leaderId⟩
      (some request.prevLogIndex) request.commitIndex)))
  else
    let raft := if request.term > raft.currentTerm then { raft with votedFor := none } else raft
    let raft := { raft with currentTerm := request.term, role := .follower, leaderId := some request.leaderId }
    .ok (raft, .ok (some (.persistEntries received.operationId request.leaderId (raft.appendResponse true)
      none request.commitIndex)))

def handleEntriesPersisted (raft : Raft) (entries : PersistedEntries) : Handled :=
  let raft := { raft with lastLogIndex := entries.lastLogIndex, lastLogTerm := entries.lastLogTerm }
  let newCommitIndex := min entries.leaderCommitIndex raft.lastLogIndex
  if newCommitIndex > raft.commitIndex then
    .ok ({ raft with commitIndex := newCommitIndex }, .ok (some (.applyCommitted entries.operationId newCommitIndex)))
  else .ok (raft, .ok none)

def handleEntriesApplied (raft : Raft) (entries : AppliedEntries) : Handled :=
  let raft := { raft with lastApplied := entries.through }
  if raft.role = .leader then .ok (raft, .ok (some (.completeOperation entries.operationId)))
  else .ok (raft, .ok none)

def Raft.target (raft : Raft) (peer : NodeId) (lastLogIndex lastLogTerm : Nat) : ReplicationTarget :=
  ⟨peer, lastLogIndex, lastLogTerm, raft.id, raft.commitIndex⟩

def Raft.replicationTargets (raft : Raft) : List ReplicationTarget :=
  ((raft.voters.entries ++ raft.learners.entries).filter fun entry => entry.1 ≠ raft.id).map fun entry =>
    raft.target entry.1 (min entry.2.matchIndex raft.lastLogIndex) raft.lastLogTerm

def handleLocalEntryAppended (raft : Raft) (entry : LocalEntry) : Handled :=
  if raft.role ≠ .leader then .ok (raft, .error (.notLeader raft.leaderId))
  else
    let targets := raft.replicationTargets
    let raft := { raft with lastLogIndex := entry.index, lastLogTerm := entry.term }
    if raft.id ∉ raft.voters then .error ⟨"leader mut be present in voters"⟩
    else do
      let nextIndex ← addU64 raft.lastLogIndex 1
      let raft := { raft with voters := assign raft.voters raft.id ⟨nextIndex, raft.lastLogIndex⟩ }
      if targets.isEmpty then
        let raft := { raft with commitIndex := raft.lastLogIndex }
        return (raft, .ok (some (.applyCommitted entry.operationId raft.commitIndex)))
      return (raft, .ok (some (.sendAppendEntries entry.operationId targets)))

def handleVoteResponse (raft : Raft) (received : ReceivedVoteResponse) : Handled :=
  let response := received.response
  if response.term > raft.currentTerm then
    .ok ({ raft with
      currentTerm := response.term, role := .follower, votedFor := none, leaderId := none, grantedVotes := ∅ }, .ok none)
  else if raft.role ≠ .candidate then .ok (raft, .error .notCandidate)
  else if response.term < raft.currentTerm ∨ received.sender ∉ raft.voters ∨ response.voteGranted = false ∨
      received.sender ∈ raft.grantedVotes then .ok (raft, .ok none)
  else
    let raft := { raft with grantedVotes := insert received.sender raft.grantedVotes }
    if raft.grantedVotes.card > raft.voters.keys.length / 2 then
      let raft := { raft with role := .leader }
      .ok (raft, .ok (some (.sendHeartbeat raft.peers raft.heartbeatRequest)))
    else .ok (raft, .ok none)

-- How a heartbeat response moves one peer's progress.
def heartbeatProgress (lastLogIndex : Nat) (progress : Progress) (response : AppendEntriesResponse) : Progress :=
  if response.success then
    let matchIndex := max progress.matchIndex (min response.lastLogIndex lastLogIndex)
    ⟨max progress.nextIndex (saturatingAdd matchIndex 1), matchIndex⟩
  else
    ⟨min (progress.nextIndex - 1) (saturatingAdd response.lastLogIndex 1), progress.matchIndex⟩

def handleHeartbeatResponse (raft : Raft) (received : ReceivedHeartbeatResponse) : Handled :=
  let response := received.response
  if response.term > raft.currentTerm then
    .ok ({ raft with
      currentTerm := response.term, role := .follower, votedFor := none, leaderId := response.leaderId,
      grantedVotes := ∅ }, .ok none)
  else if raft.role ≠ .leader then .ok (raft, .error (.notLeader raft.leaderId))
  else if response.term < raft.currentTerm then .ok (raft, .ok none)
  else
    match raft.voters.lookup received.sender with
    | some progress =>
        .ok ({ raft with
          voters := assign raft.voters received.sender (heartbeatProgress raft.lastLogIndex progress response) }, .ok none)
    | none =>
        match raft.learners.lookup received.sender with
        | some progress =>
            .ok ({ raft with
              learners := assign raft.learners received.sender (heartbeatProgress raft.lastLogIndex progress response) },
              .ok none)
        | none => .ok (raft, .ok none)

def handleWrite (raft : Raft) (operationId : OperationId) : Handled :=
  if raft.role ≠ .leader then .ok (raft, .error (.notLeader raft.leaderId))
  else .ok (raft, .ok (some (.appendLocal operationId raft.currentTerm raft.lastLogIndex)))

def Raft.caughtUp (raft : Raft) : Nat :=
  (raft.voters.entries.filter fun entry => entry.2.matchIndex ≥ raft.lastLogIndex).length

-- The retry of one follower from the position it reported.
def Raft.retry (raft : Raft) (received : ReceivedAppendEntriesResponse) : Effect :=
  .sendAppendEntries received.operationId
    [raft.target received.sender received.response.lastLogIndex received.response.lastLogTerm]

def handleAppendEntriesResponse (raft : Raft) (received : ReceivedAppendEntriesResponse) : Handled :=
  let response := received.response
  if raft.role ≠ .leader then .ok (raft, .error (.notLeader response.leaderId))
  else if response.term > raft.currentTerm then
    .ok ({ raft with
      currentTerm := response.term, leaderId := response.leaderId, role := .follower, votedFor := none,
      grantedVotes := ∅ }, .error (.notLeader response.leaderId))
  else if response.success = false ∧ response.lastLogIndex > raft.lastLogIndex then
    .error ⟨"follower last log index cannot be greater than leader's index"⟩
  else if response.success = false ∧ response.lastLogIndex < raft.lastLogIndex then
    .ok (raft, .ok (some (raft.retry received)))
  -- a rejection that reports the leader's own last index goes on as an acceptance does
  else if response.lastLogIndex > raft.lastLogIndex then
    .error ⟨"follower's last log index cannot be greater than leader's index"⟩
  else if received.sender ∈ raft.learners then do
    let nextIndex ← addU64 response.lastLogIndex 1
    let raft := { raft with learners := assign raft.learners received.sender ⟨nextIndex, response.lastLogIndex⟩ }
    if response.lastLogIndex < raft.lastLogIndex then return (raft, .ok (some (raft.retry received)))
    return (raft, .ok none)
  else if received.sender ∈ raft.voters then do
    let nextIndex ← addU64 response.lastLogIndex 1
    let raft := { raft with voters := assign raft.voters received.sender ⟨nextIndex, response.lastLogIndex⟩ }
    if response.lastLogIndex < raft.lastLogIndex then return (raft, .ok (some (raft.retry received)))
    if raft.caughtUp > raft.voters.keys.length / 2 ∧ raft.commitIndex < raft.lastLogIndex then
      let raft := { raft with commitIndex := raft.lastLogIndex }
      return (raft, .ok (some (.applyCommitted received.operationId raft.commitIndex)))
    return (raft, .ok none)
  else .ok (raft, .ok none)

def handle (raft : Raft) : Event → Handled
  | .write operationId => handleWrite raft operationId
  | .localEntriesAppended entry => handleLocalEntryAppended raft entry
  | .entriesPersisted entries => handleEntriesPersisted raft entries
  | .entriesApplied entries => handleEntriesApplied raft entries
  | .requestVote request => handleRequestVote raft request
  | .appendEntries received => handleAppendEntries raft received
  | .voteResponse received => handleVoteResponse raft received
  | .heartbeat request => handleHeartbeat raft request
  | .heartbeatResponse received => handleHeartbeatResponse raft received
  | .electionTimeout => handleElectionTimeout raft
  | .heartbeatTimeout => handleHeartbeatTimeout raft
  | .appendEntriesResponse received => handleAppendEntriesResponse raft received

end RaftLog
