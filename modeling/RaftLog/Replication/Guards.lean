import RaftLog.Replication.Driven

set_option autoImplicit false

namespace RaftLog.Replication

-- An append is safe to handle unless a leader rejects it and takes over its term, or it
-- is accepted in the node's own term at a place that is not the end of the log: such an
-- append cuts nothing off, and its entries go to the end.
def appendGuard (raft : Raft) (received : ReceivedAppendEntries) : Bool :=
  !(decide (raft.role = .leader) && rejectsNewerAppend raft (.appendEntries received)) &&
    (received.request.term != raft.currentTerm || prefixRejected raft received ||
      received.request.prevLogIndex == raft.lastLogIndex)

-- A response that reports the leader's last index is safe to count when it is an
-- acceptance of the leader's own term, and to commit on when the last entry is too.
def responseGuard (raft : Raft) (received : ReceivedAppendEntriesResponse) : Bool :=
  raft.role != .leader || decide (received.response.term > raft.currentTerm) ||
    received.response.lastLogIndex != raft.lastLogIndex ||
    (received.response.success && received.response.term == raft.currentTerm &&
      (decide ((acknowledgedRaft raft received).caughtUp ≤ raft.voters.keys.length / 2) ||
        decide (raft.lastLogIndex ≤ raft.commitIndex) || raft.lastLogTerm == raft.currentTerm))

def elects (raft : Raft) (received : ReceivedVoteResponse) : Bool :=
  decide (raft.role = .candidate) && received.response.term == raft.currentTerm &&
    decide (received.sender ∈ raft.voters) && received.response.voteGranted &&
    decide (received.sender ∉ raft.grantedVotes) &&
    decide ((insert received.sender raft.grantedVotes).card > raft.voters.keys.length / 2)

-- A new leader starts with no progress left over from an earlier leadership.
def electionGuard (raft : Raft) (received : ReceivedVoteResponse) : Bool :=
  !elects raft received ||
    raft.voters.entries.all fun entry => decide (entry.1 = raft.id) || decide (entry.2.matchIndex ≤ raft.lastLogIndex)

def guarded (cluster : Cluster) : Action → Bool
  | .deliver (.vote (.voteResponse target received)) => electionGuard (cluster.nodes target).raft received
  | .deliver (.appendEntries target operationId request _) =>
      appendGuard (cluster.nodes target).raft
        ⟨operationId, request, entryTerm (cluster.nodes target).log request.prevLogIndex⟩
  | .deliver (.appendEntriesResponse target received) => responseGuard (cluster.nodes target).raft received
  | _ => true

theorem append_guard_term (raft : Raft) (received : ReceivedAppendEntries) (guard : appendGuard raft received = true)
    (leader : raft.role = .leader) (mismatch : prefixRejected raft received = true) :
    received.request.term ≤ raft.currentTerm := by
  simp only [appendGuard, leader, rejectsNewerAppend, mismatch, decide_true, Bool.true_and, Bool.and_true,
    Bool.and_eq_true, Bool.not_eq_true', decide_eq_false_iff_not] at guard
  exact Nat.le_of_not_lt guard.1

theorem append_guard_end (raft : Raft) (received : ReceivedAppendEntries) (guard : appendGuard raft received = true)
    (matching : prefixRejected raft received = false) (now : received.request.term = raft.currentTerm) :
    received.request.prevLogIndex = raft.lastLogIndex := by
  simp only [appendGuard, matching, now, bne_self_eq_false, Bool.false_or, Bool.and_eq_true, beq_iff_eq] at guard
  exact guard.2

theorem response_guard_counts (raft : Raft) (received : ReceivedAppendEntriesResponse)
    (guard : responseGuard raft received = true) (counts : Counts raft received) :
    received.response.success = true ∧ received.response.term = raft.currentTerm := by
  have term := counts.term
  simp only [responseGuard, counts.leader, counts.last, bne_self_eq_false, Bool.false_or, Bool.or_false,
    Bool.or_eq_true, Bool.and_eq_true, decide_eq_true_eq, beq_iff_eq] at guard
  rcases guard with newer | own
  · omega
  · exact own.1

theorem response_guard_commits (raft : Raft) (received : ReceivedAppendEntriesResponse)
    (guard : responseGuard raft received = true) (counts : Counts raft received)
    (most : (acknowledgedRaft raft received).caughtUp > raft.voters.keys.length / 2)
    (fresh : raft.commitIndex < raft.lastLogIndex) : raft.lastLogTerm = raft.currentTerm := by
  have term := counts.term
  simp only [responseGuard, counts.leader, counts.last, bne_self_eq_false, Bool.false_or, Bool.or_false,
    Bool.or_eq_true, Bool.and_eq_true, decide_eq_true_eq, beq_iff_eq] at guard
  rcases guard with newer | ⟨_, (few | done) | own⟩
  · omega
  · omega
  · omega
  · exact own

theorem elects_counts (raft : Raft) (received : ReceivedVoteResponse) (counts : CountsVote raft received)
    (most : (insert received.sender raft.grantedVotes).card > raft.voters.keys.length / 2) : elects raft received = true := by
  simp only [elects, counts.candidate, counts.term, counts.voter, counts.granted, counts.fresh, most, decide_true,
    beq_self_eq_true, not_false_eq_true, Bool.and_self]

theorem election_guard_progress (raft : Raft) (received : ReceivedVoteResponse)
    (guard : electionGuard raft received = true) (counts : CountsVote raft received)
    (most : (insert received.sender raft.grantedVotes).card > raft.voters.keys.length / 2) (voter : NodeId)
    (other : voter ≠ raft.id) (progress : Progress) (found : raft.voters.lookup voter = some progress) :
    progress.matchIndex ≤ raft.lastLogIndex := by
  simp only [electionGuard, elects_counts raft received counts most, Bool.not_true, Bool.false_or, List.all_eq_true, Bool.or_eq_true,
    decide_eq_true_eq] at guard
  have listed := AList.mem_lookup_iff.mp found
  exact (guard _ listed).resolve_left other

end RaftLog.Replication
