import RaftLog.Replication.Driven

set_option autoImplicit false

namespace RaftLog.Replication

section Votes

variable (operation : Operation) (node final : Node) (packets : List Packet)

theorem timeout_driven (drives : Drives operation node .electionTimeout final packets) :
    final = { node with raft := campaignRaft node.raft } ∧
      packets = (campaignRaft node.raft).peers.map fun peer =>
        .vote (.voteRequest peer ⟨node.raft.currentTerm + 1, node.raft.id, node.raft.lastLogIndex, node.raft.lastLogTerm⟩) := by
  obtain ⟨raft, result, handled⟩ := drives_handled _ _ _ _ _ drives
  obtain ⟨rfl, rfl⟩ := election_timeout_step node.raft raft result handled
  exact drives_ended operation node final _ _ _ _ _ _ handled rfl drives

theorem vote_response_driven (received : ReceivedVoteResponse)
    (drives : Drives operation node (.voteResponse received) final packets) :
    ∃ next result, handleVoteResponse node.raft received = .ok (next, result) ∧ final = { node with raft := next } ∧
      (packets = [] ∨ (node.raft.role = .candidate ∧ next.role = .leader) ∧
        packets = node.raft.peers.map fun peer => .heartbeat peer node.raft.heartbeatRequest) := by
  obtain ⟨raft, result, handled⟩ := drives_handled _ _ _ _ _ drives
  refine ⟨raft, result, handled, ?_⟩
  cases vote_response_step node.raft raft received result handled with
  | stepsDown | notCandidate | ignored | tallied =>
      exact (drives_idle operation node final _ packets _ _ handled (by simp) drives).imp id .inl
  | elected counts =>
      exact (drives_ended operation node final _ _ packets _ _ _ handled rfl drives).imp id
        fun sent => .inr ⟨⟨counts.candidate, rfl⟩, sent⟩

end Votes

section Heartbeats

variable (operation : Operation) (node final : Node) (packets : List Packet)

theorem heartbeat_timeout_driven (drives : Drives operation node .heartbeatTimeout final packets) :
    final = node ∧ (packets = [] ∨ node.raft.role = .leader ∧
      packets = node.raft.peers.map fun peer => .heartbeat peer node.raft.heartbeatRequest) := by
  obtain ⟨raft, result, handled⟩ := drives_handled _ _ _ _ _ drives
  have same := handled
  simp only [handle, handleHeartbeatTimeout] at same
  split at same
  · cases same
    exact (drives_idle operation node final _ packets _ _ handled (by simp) drives).imp id .inl
  · rename_i leader
    cases same
    exact (drives_ended operation node final _ _ packets _ _ _ handled rfl drives).imp id
      fun sent => .inr ⟨not_not.mp leader, sent⟩

theorem heartbeat_driven (request : HeartbeatRequest) (drives : Drives operation node (.heartbeat request) final packets) :
    ∃ next response, HeartbeatStep node.raft request next response ∧ final = { node with raft := next } ∧
      packets = [.heartbeatResponse request.leaderId ⟨next.id, response⟩] := by
  obtain ⟨raft, result, handled⟩ := drives_handled _ _ _ _ _ drives
  obtain ⟨response, reset, applyThrough, step, rfl⟩ := heartbeat_step node.raft raft request result handled
  exact ⟨raft, response, step, drives_ended operation node final _ _ _ _ _ _ handled rfl drives⟩

theorem heartbeat_response_driven (received : ReceivedHeartbeatResponse)
    (drives : Drives operation node (.heartbeatResponse received) final packets) :
    ∃ next, HeartbeatResponseStep node.raft received next ∧ final = { node with raft := next } ∧ packets = [] := by
  obtain ⟨raft, result, handled⟩ := drives_handled _ _ _ _ _ drives
  obtain ⟨step, idle⟩ := heartbeat_response_step node.raft raft received result handled
  exact ⟨raft, step, drives_idle operation node final _ packets _ _ handled idle drives⟩

end Heartbeats

section Entries

-- The node after its log became `log`: EntriesPersisted, and EntriesApplied when it commits.
def persistedRaft (raft : Raft) (log : List LogEntry) (leaderCommitIndex : Nat) : Raft :=
  { raft with
    lastLogIndex := log.length, lastLogTerm := lastTerm log
    commitIndex := max raft.commitIndex (min leaderCommitIndex log.length)
    lastApplied :=
      if min leaderCommitIndex log.length > raft.commitIndex then min leaderCommitIndex log.length else raft.lastApplied }

theorem applied_driven (operation : Operation) (node final : Node) (packets : List Packet) (entries : AppliedEntries)
    (drives : Drives operation node (.entriesApplied entries) final packets) :
    packets = [] ∧ final = { node with
      raft := { node.raft with lastApplied := entries.through },
      completed := if node.raft.role = .leader then entries.operationId :: node.completed else node.completed } := by
  obtain ⟨raft, result, handled⟩ := drives_handled _ _ _ _ _ drives
  have same := handled
  simp only [handle, handleEntriesApplied] at same
  split at same
  · rename_i leader
    cases same
    rw [if_pos leader]
    exact (drives_ended operation node final _ _ packets _ _ _ handled rfl drives).symm
  · rename_i follower
    cases same
    rw [if_neg follower]
    exact (drives_idle operation node final _ packets _ _ handled (by simp) drives).symm

theorem persisted_driven (operation : Operation) (node final : Node) (packets : List Packet) (operationId : OperationId)
    (leaderCommitIndex : Nat) (follower : node.raft.role = .follower)
    (drives : Drives operation node
      (.entriesPersisted ⟨operationId, node.log.length, lastTerm node.log, leaderCommitIndex⟩) final packets) :
    final = { node with raft := persistedRaft node.raft node.log leaderCommitIndex } ∧ packets = [] := by
  obtain ⟨raft, result, handled⟩ := drives_handled _ _ _ _ _ drives
  have same := handled
  simp only [handle, handleEntriesPersisted] at same
  split at same
  · rename_i raised
    cases same
    obtain ⟨more, applied, rfl⟩ := drives_following operation node final _ _ _ packets _ _ _ handled rfl drives
    obtain ⟨rfl, rfl⟩ := applied_driven operation _ final packets _ applied
    refine ⟨?_, rfl⟩
    simp [persistedRaft, raised, Nat.max_eq_right (Nat.le_of_lt raised), follower]
  · rename_i kept
    cases same
    obtain ⟨rfl, rfl⟩ := drives_idle operation node final _ packets _ _ handled (by simp) drives
    refine ⟨?_, rfl⟩
    simp only [persistedRaft, if_neg kept, Nat.max_eq_left (Nat.le_of_not_lt kept)]

inductive AppendOutcome (node : Node) (received : ReceivedAppendEntries) (entries : List LogEntry) :
    Node → AppendEntriesResponse → Prop where
  | stale (less : received.request.term < node.raft.currentTerm) :
      AppendOutcome node received entries node (node.raft.appendResponse false)
  | rejected (fresh : node.raft.currentTerm ≤ received.request.term)
      (mismatch : prefixRejected node.raft received = true) :
      AppendOutcome node received entries { node with raft := rejectedRaft node.raft received.request }
        ((rejectedRaft node.raft received.request).appendResponse false)
  | accepted (fresh : node.raft.currentTerm ≤ received.request.term)
      (matching : prefixRejected node.raft received = false) (log : List LogEntry)
      (appended : log = truncate node.log (truncation node.raft received.request) ++ entries)
      (leaderId : Option NodeId) :
      AppendOutcome node received entries
        { node with
          raft := persistedRaft (acceptedRaft node.raft received.request) log received.request.commitIndex, log := log }
        ⟨received.request.term, true, log.length, lastTerm log, leaderId⟩

theorem append_driven (node final : Node) (packets : List Packet) (received : ReceivedAppendEntries)
    (entries : List LogEntry) (drives : Drives (.appendEntries entries) node (.appendEntries received) final packets) :
    ∃ response, AppendOutcome node received entries final response ∧
      packets = [.appendEntriesResponse received.request.leaderId ⟨received.operationId, node.raft.id, response⟩] := by
  obtain ⟨raft, result, handled⟩ := drives_handled _ _ _ _ _ drives
  cases append_entries_step node.raft raft received result handled with
  | stale less =>
      obtain ⟨rfl, rfl⟩ := drives_ended _ node final _ _ packets _ _ _ handled rfl drives
      exact ⟨_, .stale less, rfl⟩
  | rejected fresh mismatch =>
      obtain ⟨rfl, rfl⟩ := drives_ended _ node final _ _ packets _ _ _ handled rfl drives
      exact ⟨_, .rejected fresh mismatch, rfl⟩
  | accepted fresh matching response success term =>
      obtain ⟨more, persisted, rfl⟩ := drives_following _ node final _ _ _ packets _ _ _ handled rfl drives
      obtain ⟨rfl, rfl⟩ := persisted_driven _ _ final more _ _ rfl persisted
      refine ⟨_, .accepted fresh matching _ rfl response.leaderId, ?_⟩
      rw [← success, ← term, List.append_nil]
      rfl

-- A turn of a leader that ends in no event of its own: its followers are sent what the
-- effect asks for, or what it committed is applied and one operation completed.
def Node.finish (node : Node) (raft : Raft) : Except Error (Option Effect) → Node × List Packet
  | .ok (some (.applyCommitted operationId through)) =>
      (⟨{ raft with lastApplied := through }, node.log, operationId :: node.completed⟩, [])
  | .ok (some (.sendAppendEntries operationId targets)) =>
      ({ node with raft := raft }, targets.map fun target => .appendEntries target.peer operationId
        ({ node with raft := raft : Node }.appendRequest target) (node.log.drop target.lastLogIndex))
  | _ => ({ node with raft := raft }, [])

theorem apply_driven (operation : Operation) (node final : Node) (event : Event) (packets : List Packet) (raft : Raft)
    (operationId : OperationId) (through : Nat) (leader : raft.role = .leader)
    (handled : handle node.raft event = .ok (raft, .ok (some (.applyCommitted operationId through))))
    (drives : Drives operation node event final packets) :
    (final, packets) = node.finish raft (.ok (some (.applyCommitted operationId through))) := by
  obtain ⟨more, applied, rfl⟩ := drives_following operation node final _ _ _ packets _ _ _ handled rfl drives
  obtain ⟨rfl, rfl⟩ := applied_driven operation _ final packets _ applied
  simp [Node.finish, leader]

theorem append_response_driven (operation : Operation) (node final : Node) (packets : List Packet)
    (received : ReceivedAppendEntriesResponse)
    (drives : Drives operation node (.appendEntriesResponse received) final packets) :
    ∃ raft result, AppendResponseStep node.raft received raft result ∧ (final, packets) = node.finish raft result := by
  obtain ⟨raft, result, handled⟩ := drives_handled _ _ _ _ _ drives
  have step := append_response_step node.raft raft received result handled
  refine ⟨raft, result, step, ?_⟩
  cases step with
  | notLeader | stepsDown | counted | stranger =>
      obtain ⟨rfl, rfl⟩ := drives_idle operation node final _ packets _ _ handled (by simp) drives
      rfl
  | retries | behind =>
      obtain ⟨rfl, rfl⟩ := drives_ended operation node final _ _ packets _ _ _ handled rfl drives
      rfl
  | learner _ _ _ _ learners effect retry =>
      rcases retry with rfl | ⟨rfl, _⟩
      · obtain ⟨rfl, rfl⟩ := drives_idle operation node final _ packets _ _ handled (by simp) drives
        rfl
      · obtain ⟨rfl, rfl⟩ := drives_ended operation node final _ _ packets _ _ _ handled rfl drives
        rfl
  | commits counts => exact apply_driven operation node final _ packets _ _ _ counts.leader handled drives

-- The node that has appended a command of its own.
def Node.written (node : Node) (command : List UInt8) : Node :=
  { node with log := node.log ++ [⟨node.raft.currentTerm, command⟩] }

theorem write_driven (node final : Node) (packets : List Packet) (operationId : OperationId) (command : List UInt8)
    (drives : Drives (.write command) node (.write operationId) final packets) :
    (node.raft.role ≠ .leader ∧ final = node ∧ packets = []) ∨
      node.raft.role = .leader ∧ ∃ raft result,
        LocalEntryStep node.raft ⟨operationId, node.log.length + 1, node.raft.currentTerm⟩ raft result ∧
          (final, packets) = (node.written command).finish raft result := by
  obtain ⟨raft, result, handled⟩ := drives_handled _ _ _ _ _ drives
  have same := handled
  simp only [handle, handleWrite] at same
  split at same
  · rename_i role
    cases same
    exact .inl ⟨role, drives_idle _ node final _ packets _ _ handled (by simp) drives⟩
  rename_i leader
  have leader := not_not.mp leader
  cases same
  obtain ⟨more, appended, rfl⟩ := drives_following _ node final _ _ _ packets _ _ _ handled rfl drives
  rw [List.length_append, List.length_singleton] at appended
  obtain ⟨raft, result, stored⟩ := drives_handled _ _ _ _ _ appended
  have step := local_entry_step node.raft raft _ result stored
  refine .inr ⟨leader, raft, result, step, ?_⟩
  cases step with
  | notLeader role => exact absurd leader role
  | replicates =>
      obtain ⟨rfl, rfl⟩ := drives_ended _ _ final _ _ packets _ _ _ stored rfl appended
      rfl
  | alone => exact apply_driven _ (node.written command) final _ packets _ _ _ leader stored appended

end Entries

end RaftLog.Replication
