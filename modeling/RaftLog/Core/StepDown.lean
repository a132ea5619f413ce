import RaftLog.Core.New
import RaftLog.Core.Steps

set_option autoImplicit false

namespace RaftLog

-- The candidate whose request this event was, and which the node answers with its vote.
def GrantedHere (event : Event) (result : Except Error (Option Effect)) (candidate : NodeId) : Prop :=
  ∃ request hardState response, event = .requestVote request ∧ request.candidateId = candidate ∧
    result = .ok (some (.sendRequestVoteResponse hardState candidate response)) ∧ response.voteGranted = true

-- How a node enters a term that is not its own: nothing of the old one is left.
structure SteppedDown (event : Event) (next : Raft) (result : Except Error (Option Effect)) : Prop where
  role : next.role = .follower
  votes : next.grantedVotes = ∅
  vote : next.votedFor = none ∨ ∃ candidate, next.votedFor = some candidate ∧ GrantedHere event result candidate

-- An append of a later term finds votes, or is rejected by a node that is more than a follower without a vote.
def leavesBehind (raft : Raft) : Event → Bool
  | .appendEntries received => received.request.term > raft.currentTerm &&
      (raft.grantedVotes ≠ ∅ || prefixRejected raft received && (raft.role ≠ .follower || raft.votedFor.isSome))
  | _ => false

theorem newer_request_vote (raft next : Raft) (request : VoteRequest) (result : Except Error (Option Effect))
    (newer : request.term > raft.currentTerm) (handled : handleRequestVote raft request = .ok (next, result)) :
    SteppedDown (.requestVote request) next result := by
  unfold handleRequestVote at handled
  dsimp only at handled
  simp only [newer, decide_true, if_true, Bool.true_or] at handled
  split at handled
  · rename_i records
    cases handled
    have granted := (Bool.and_eq_true_iff.mp records).1
    exact ⟨rfl, rfl, .inr ⟨request.candidateId, rfl, request, _, _, rfl, rfl, rfl, granted⟩⟩
  · cases handled
    exact ⟨rfl, rfl, .inl rfl⟩

-- The term of every other event is taken over with everything that goes with it.
theorem steps_down_otherwise (raft next : Raft) (event : Event) (result : Except Error (Option Effect))
    (notTimeout : event ≠ .electionTimeout) (notAppend : ∀ received, event ≠ .appendEntries received)
    (handled : handle raft event = .ok (next, result)) (raised : raft.currentTerm < next.currentTerm) :
    SteppedDown event next result := by
  cases event with
  | electionTimeout => exact absurd rfl notTimeout
  | appendEntries received => exact absurd rfl (notAppend received)
  | requestVote request =>
      have newer : request.term > raft.currentTerm := by
        obtain ⟨_, _, step, _⟩ := request_vote_step raft next request result handled
        rw [step.term] at raised
        omega
      exact newer_request_vote raft next request result newer handled
  | voteResponse received =>
      cases vote_response_step raft next received result handled with
      | stepsDown => exact ⟨rfl, rfl, .inl rfl⟩
      | notCandidate | ignored | tallied | elected => exact absurd raised (Nat.lt_irrefl _)
  | heartbeat request =>
      obtain ⟨_, _, _, step, _⟩ := heartbeat_step raft next request result handled
      cases step with
      | stale => exact absurd raised (Nat.lt_irrefl _)
      | mismatched | matched => exact ⟨rfl, rfl, .inl (if_pos raised)⟩
  | heartbeatResponse received =>
      cases (heartbeat_response_step raft next received result handled).1 with
      | stepsDown => exact ⟨rfl, rfl, .inl rfl⟩
      | ignored | voter | learner => exact absurd raised (Nat.lt_irrefl _)
  | appendEntriesResponse received =>
      cases append_response_step raft next received result handled with
      | stepsDown => exact ⟨rfl, rfl, .inl rfl⟩
      | notLeader | retries | learner | behind | commits | counted | stranger => exact absurd raised (Nat.lt_irrefl _)
  | localEntriesAppended entry =>
      cases local_entry_step raft next entry result handled with
      | notLeader | replicates | alone => exact absurd raised (Nat.lt_irrefl _)
  | heartbeatTimeout | entriesPersisted | entriesApplied | write =>
      obtain ⟨_, _, _, _, rfl⟩ := plain_step raft next _ result rfl handled
      exact absurd raised (Nat.lt_irrefl _)

theorem stepped_down_append (received : ReceivedAppendEntries) (next : Raft) (result : Except Error (Option Effect)) :
    SteppedDown (.appendEntries received) next result ↔
      next.role = .follower ∧ next.grantedVotes = ∅ ∧ next.votedFor = none := by
  constructor
  · intro stepped
    refine ⟨stepped.role, stepped.votes, stepped.vote.resolve_right ?_⟩
    rintro ⟨_, _, _, _, _, same, _⟩
    cases same
  · intro clean
    exact ⟨clean.1, clean.2.1, .inl clean.2.2⟩

theorem append_steps_down_iff (raft next : Raft) (received : ReceivedAppendEntries) (result : Except Error (Option Effect))
    (handled : handleAppendEntries raft received = .ok (next, result)) :
    (raft.currentTerm < next.currentTerm → SteppedDown (.appendEntries received) next result) ↔
      leavesBehind raft (.appendEntries received) = false := by
  rw [stepped_down_append]
  cases append_entries_step raft next received result handled with
  | stale less =>
      have notNewer : ¬ received.request.term > raft.currentTerm := Nat.not_lt_of_gt less
      simp [leavesBehind, notNewer]
  | rejected fresh mismatch =>
      by_cases newer : raft.currentTerm < received.request.term
      · simp [leavesBehind, rejectedRaft, newer, mismatch]
        tauto
      · simp [leavesBehind, rejectedRaft, newer]
  | accepted fresh matching =>
      by_cases newer : raft.currentTerm < received.request.term
      · simp [leavesBehind, acceptedRaft, newer, matching]
      · simp [leavesBehind, acceptedRaft, newer]

theorem steps_down_iff (raft next : Raft) (event : Event) (result : Except Error (Option Effect))
    (notTimeout : event ≠ .electionTimeout) (handled : handle raft event = .ok (next, result)) :
    (raft.currentTerm < next.currentTerm → SteppedDown event next result) ↔ leavesBehind raft event = false := by
  by_cases append : ∃ received, event = .appendEntries received
  · obtain ⟨received, rfl⟩ := append
    exact append_steps_down_iff raft next received result handled
  · push Not at append
    have notLeft : leavesBehind raft event = false := by
      cases event with
      | appendEntries received => exact absurd rfl (append received)
      | _ => rfl
    exact iff_of_true (steps_down_otherwise raft next event result notTimeout append handled) notLeft

-- A leader of the first term, elected by node-b.
def leaderOfOne : Raft :=
  { newRaft nodeA threeNodes 1 ⟨1, some nodeA⟩ with role := .leader, grantedVotes := {nodeA, nodeB} }

theorem leader_steps_down :
    SteppedDown (.heartbeat ⟨2, nodeC, 0, 0, 0⟩)
      { leaderOfOne with currentTerm := 2, role := .follower, votedFor := none, grantedVotes := ∅, leaderId := some nodeC }
      (.ok (some (.sendHeartbeatResponse nodeC ⟨2, true, 0, 0, some nodeC⟩ true none))) :=
  (steps_down_iff leaderOfOne _ (.heartbeat ⟨2, nodeC, 0, 0, 0⟩) _ (by decide) rfl).mpr rfl (by decide)

-- A rejected append of term 2 makes it a leader of term 2.
theorem leader_after_rejection :
    ¬ ∀ (raft next : Raft) (event : Event) (result : Except Error (Option Effect)), event ≠ .electionTimeout →
      handle raft event = .ok (next, result) → raft.currentTerm < next.currentTerm → SteppedDown event next result := by
  intro always
  have stepped := always leaderOfOne _ (.appendEntries ⟨⟨1⟩, ⟨2, nodeC, 5, 1, 0⟩, none⟩) _ (by decide) rfl (by decide)
  cases stepped.role

end RaftLog
