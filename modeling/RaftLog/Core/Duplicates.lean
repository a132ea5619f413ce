import RaftLog.Core.Responses

set_option autoImplicit false

namespace RaftLog

-- The events that a peer's message, delivered twice, becomes. A failed heartbeat response
-- is not among them: each of them moves next_index back.
def Event.redelivered : Event → Bool
  | .requestVote _ | .voteResponse _ | .heartbeat _ | .appendEntries _ | .appendEntriesResponse _ => true
  | _ => false

def grants (raft : Raft) (request : VoteRequest) : Bool :=
  request.term == raft.currentTerm && candidateLogIsUpToDate raft request &&
    (raft.votedFor.isNone || raft.votedFor == some request.candidateId)

-- A vote that is granted has been cast already.
theorem settled_request (raft : Raft) (request : VoteRequest) (notNewer : request.term ≤ raft.currentTerm)
    (cast : grants raft request = true → raft.votedFor = some request.candidateId) :
    handleRequestVote raft request = .ok (raft, .ok (some (.sendRequestVoteResponse none request.candidateId
      ⟨raft.currentTerm, grants raft request⟩))) := by
  have older : decide (request.term > raft.currentTerm) = false := decide_eq_false (Nat.not_lt_of_le notNewer)
  have records : (grants raft request && raft.votedFor != some request.candidateId) = false := by
    cases granted : grants raft request with
    | false => rfl
    | true => simp [cast granted]
  rw [grants] at records
  simp only [handleRequestVote, older, Bool.false_eq_true, if_false, records, Bool.false_or]
  rfl

-- The state a vote request is looked at in.
def requestedRaft (raft : Raft) (request : VoteRequest) : Raft :=
  if request.term > raft.currentTerm then
    { raft with currentTerm := request.term, votedFor := none, role := .follower, leaderId := none, grantedVotes := ∅ }
  else raft

def records (raft : Raft) (request : VoteRequest) : Bool :=
  grants raft request && raft.votedFor != some request.candidateId

def votedRaft (raft : Raft) (request : VoteRequest) : Raft :=
  if records raft request then { raft with votedFor := some request.candidateId } else raft

theorem requested_term (raft : Raft) (request : VoteRequest) : request.term ≤ (requestedRaft raft request).currentTerm := by
  unfold requestedRaft
  split
  · exact le_rfl
  · rename_i older
    exact Nat.le_of_not_lt older

theorem voted_term (raft : Raft) (request : VoteRequest) : (votedRaft raft request).currentTerm = raft.currentTerm := by
  unfold votedRaft
  split
  · rfl
  · rfl

theorem voted_grants (raft : Raft) (request : VoteRequest) : grants (votedRaft raft request) request = grants raft request := by
  unfold votedRaft
  split
  · rename_i recorded
    have granted := (Bool.and_eq_true_iff.mp recorded).1
    have parts := granted
    rw [grants, Bool.and_eq_true] at parts
    rw [granted, grants, Bool.and_eq_true]
    exact ⟨parts.1, by simp⟩
  · rfl

theorem voted_cast (raft : Raft) (request : VoteRequest) (granted : grants raft request = true) :
    (votedRaft raft request).votedFor = some request.candidateId := by
  unfold votedRaft
  split
  · rfl
  · rename_i silent
    simpa [records, granted] using silent

theorem request_settles (raft next : Raft) (request : VoteRequest) (result : Except Error (Option Effect))
    (handled : handleRequestVote raft request = .ok (next, result)) :
    (∃ hardState, result = .ok (some (.sendRequestVoteResponse hardState request.candidateId
        ⟨next.currentTerm, grants next request⟩))) ∧
      request.term ≤ next.currentTerm ∧ (grants next request = true → next.votedFor = some request.candidateId) := by
  have shape : ∃ hardState, handleRequestVote raft request = .ok (votedRaft (requestedRaft raft request) request,
      .ok (some (.sendRequestVoteResponse hardState request.candidateId
        ⟨(votedRaft (requestedRaft raft request) request).currentTerm, grants (requestedRaft raft request) request⟩))) := by
    unfold handleRequestVote requestedRaft
    by_cases newer : request.term > raft.currentTerm
    · simp only [newer, decide_true, if_true]
      exact ⟨_, rfl⟩
    · simp only [newer, decide_false, Bool.false_eq_true, if_false]
      exact ⟨_, rfl⟩
  obtain ⟨hardState, shape⟩ := shape
  rw [shape] at handled
  cases handled
  rw [voted_grants, voted_term]
  exact ⟨⟨hardState, rfl⟩, requested_term raft request, voted_cast _ request⟩

-- A follower of the leader that has committed what the leader tells it to.
theorem settled_heartbeat (raft : Raft) (request : HeartbeatRequest) (fresh : raft.currentTerm ≤ request.term)
    (follows : followedRaft raft request = raft)
    (committed : request.logIndex = raft.lastLogIndex → request.logTerm = raft.lastLogTerm →
      min request.leaderCommitIndex raft.lastLogIndex ≤ raft.commitIndex) :
    ∃ again, handleHeartbeat raft request = .ok (raft, again) := by
  rw [handle_fresh_heartbeat raft request fresh, follows]
  by_cases matching : request.logIndex = raft.lastLogIndex ∧ request.logTerm = raft.lastLogTerm
  · have kept := Nat.not_lt_of_le (committed matching.1 matching.2)
    rw [if_neg (by simp [matching]), if_neg kept]
    exact ⟨_, rfl⟩
  · rw [if_pos (by simpa [-not_and, not_and_or] using matching)]
    exact ⟨_, rfl⟩

theorem assign_known (map : ProgressMap) (node : NodeId) (progress : Progress) (member : node ∈ map)
    (known : map.lookup node = some progress) : assign map node progress = map :=
  (assign_same_iff map node progress member).mpr known

theorem lookup_assigned (map : ProgressMap) (node : NodeId) (progress : Progress) (member : node ∈ map) :
    (assign map node progress).lookup node = some progress := by
  rw [lookup_assign map node node progress member, if_pos rfl]

-- A leader that knows what is reported, and has committed what it completes.
theorem settled_response (raft : Raft) (received : ReceivedAppendEntriesResponse) (leader : raft.role = .leader)
    (term : received.response.term ≤ raft.currentTerm) (within : received.response.lastLogIndex ≤ raft.lastLogIndex)
    (fits : received.response.lastLogIndex < u64Max)
    (learnerKnown : received.sender ∈ raft.learners → raft.learners.lookup received.sender = some (reported received))
    (voterKnown : received.sender ∉ raft.learners → received.sender ∈ raft.voters →
      raft.voters.lookup received.sender = some (reported received))
    (committed : received.sender ∉ raft.learners → received.response.lastLogIndex = raft.lastLogIndex →
      commitDue raft = false) : ∃ again, handleAppendEntriesResponse raft received = .ok (raft, again) := by
  have outcome := response_outcome raft received leader term
  generalize answer : handleAppendEntriesResponse raft received = handled at outcome
  cases outcome with
  | ahead ahead => exact absurd ahead (Nat.not_lt_of_le within)
  | overflow _ full => exact absurd fits (Nat.not_lt_of_le full)
  | retried | stranger => exact ⟨_, rfl⟩
  | learnerBehind _ _ learner | learnerReaches _ _ learner =>
      rw [assign_known raft.learners received.sender (reported received) learner (learnerKnown learner)]
      exact ⟨_, rfl⟩
  | voterBehind _ _ notLearner voter | counted _ _ notLearner voter =>
      have same : acknowledgedRaft raft received = raft :=
        (same_voters raft _).mpr (assign_known raft.voters received.sender _ voter (voterKnown notLearner voter))
      rw [same]
      exact ⟨_, rfl⟩
  | commits same notLearner voter most due =>
      have known : acknowledgedRaft raft received = raft :=
        (same_voters raft _).mpr (assign_known raft.voters received.sender _ voter (voterKnown notLearner voter))
      rw [known] at most
      have idle := committed notLearner same
      rw [commitDue, decide_eq_true most, decide_eq_true due] at idle
      cases idle

theorem settled_learner (raft : Raft) (received : ReceivedAppendEntriesResponse) (leader : raft.role = .leader)
    (term : received.response.term ≤ raft.currentTerm) (within : received.response.lastLogIndex ≤ raft.lastLogIndex)
    (fits : received.response.lastLogIndex < u64Max) (learner : received.sender ∈ raft.learners) :
    let next := { raft with learners := assign raft.learners received.sender (reported received) }
    ∃ again, handleAppendEntriesResponse next received = .ok (next, again) := by
  intro next
  have known : received.sender ∈ next.learners := AList.mem_replace.mpr learner
  exact settled_response next received leader term within fits (fun _ => lookup_assigned raft.learners _ _ learner)
    (fun notLearner => absurd known notLearner) fun notLearner => absurd known notLearner

theorem settled_voter (raft next : Raft) (received : ReceivedAppendEntriesResponse) (notLearner : received.sender ∉ raft.learners)
    (voter : received.sender ∈ raft.voters) (sameLearners : next.learners = raft.learners)
    (voters : next.voters = assign raft.voters received.sender (reported received))
    (committed : commitDue next = false ∨ received.response.lastLogIndex ≠ next.lastLogIndex) (leader : next.role = .leader)
    (term : received.response.term ≤ next.currentTerm) (within : received.response.lastLogIndex ≤ next.lastLogIndex)
    (fits : received.response.lastLogIndex < u64Max) : ∃ again, handleAppendEntriesResponse next received = .ok (next, again) := by
  apply settled_response next received leader term within fits
  · intro learner
    exact absurd (sameLearners ▸ learner) notLearner
  · intro _ _
    rw [voters]
    exact lookup_assigned raft.voters _ _ voter
  · intro _ same
    exact committed.resolve_right fun different => different same

-- The second answer to a vote request repeats the first, without a hard state.
def sameVote : Event → Except Error (Option Effect) → Except Error (Option Effect) → Prop
  | .requestVote _, first, again => ∃ hardState peer response,
      first = .ok (some (.sendRequestVoteResponse hardState peer response)) ∧
        again = .ok (some (.sendRequestVoteResponse none peer response))
  | _, _, _ => True

section Repeated

variable (raft next : Raft) (result : Except Error (Option Effect))

theorem request_vote_repeated (request : VoteRequest) (handled : handleRequestVote raft request = .ok (next, result)) :
    ∃ again, handleRequestVote next request = .ok (next, again) ∧ sameVote (.requestVote request) result again := by
  obtain ⟨⟨hardState, rfl⟩, notNewer, cast⟩ := request_settles raft next request result handled
  exact ⟨_, settled_request next request notNewer cast, hardState, _, _, rfl, rfl⟩

theorem vote_response_repeated (received : ReceivedVoteResponse)
    (handled : handleVoteResponse raft received = .ok (next, result)) :
    ∃ again, handleVoteResponse next received = .ok (next, again) := by
  cases vote_response_step raft next received result handled with
  | notCandidate | ignored => exact ⟨_, handled⟩
  | stepsDown =>
      rw [handleVoteResponse, if_neg (Nat.lt_irrefl _), if_pos (by simp)]
      exact ⟨_, rfl⟩
  | tallied counts =>
      have notNewer : ¬ received.response.term > (talliedRaft raft received).currentTerm := Nat.not_lt_of_le counts.term.le
      have candidate : ¬ (talliedRaft raft received).role ≠ .candidate := not_not.mpr counts.candidate
      have known : received.sender ∈ (talliedRaft raft received).grantedVotes := Finset.mem_insert_self _ _
      rw [handleVoteResponse, if_neg notNewer, if_neg candidate, if_pos (.inr (.inr (.inr known)))]
      exact ⟨_, rfl⟩
  | elected counts =>
      have notNewer : ¬ received.response.term > (electedRaft raft received).currentTerm := Nat.not_lt_of_le counts.term.le
      rw [handleVoteResponse, if_neg notNewer, if_pos (by simp [electedRaft])]
      exact ⟨_, rfl⟩

theorem heartbeat_repeated (request : HeartbeatRequest) (handled : handleHeartbeat raft request = .ok (next, result)) :
    ∃ again, handleHeartbeat next request = .ok (next, again) := by
  by_cases stale : request.term < raft.currentTerm
  · rw [handleHeartbeat, if_pos stale] at handled
    cases handled
    rw [handleHeartbeat, if_pos stale]
    exact ⟨_, rfl⟩
  have follows : followedRaft (followedRaft raft request) request = followedRaft raft request := by simp [followedRaft]
  rw [handle_fresh_heartbeat raft request (Nat.le_of_not_lt stale)] at handled
  split at handled
  · rename_i mismatch
    cases handled
    apply settled_heartbeat _ request le_rfl follows
    intro index term
    simp [followedRaft] at index term
    simp [index, term] at mismatch
  · split at handled
    · cases handled
      exact settled_heartbeat _ request le_rfl (by simp [followedRaft]) fun _ _ => le_rfl
    · rename_i kept
      cases handled
      exact settled_heartbeat _ request le_rfl follows fun _ _ => Nat.le_of_not_lt kept

theorem append_entries_repeated (received : ReceivedAppendEntries)
    (handled : handleAppendEntries raft received = .ok (next, result)) :
    ∃ again, handleAppendEntries next received = .ok (next, again) := by
  cases append_entries_step raft next received result handled with
  | stale => exact ⟨_, handled⟩
  | rejected fresh mismatch =>
      have again : prefixRejected (rejectedRaft raft received.request) received = true := mismatch
      have notOlder : ¬ received.request.term < (rejectedRaft raft received.request).currentTerm := Nat.lt_irrefl _
      rw [handleAppendEntries, if_neg notOlder, if_pos again]
      exact ⟨_, rfl⟩
  | accepted fresh matching =>
      have again : ¬ prefixRejected (acceptedRaft raft received.request) received = true := by
        rw [show prefixRejected (acceptedRaft raft received.request) received = false from matching]
        exact Bool.false_ne_true
      have notOlder : ¬ received.request.term < (acceptedRaft raft received.request).currentTerm := Nat.lt_irrefl _
      have notNewer : ¬ received.request.term > (acceptedRaft raft received.request).currentTerm := Nat.lt_irrefl _
      rw [handleAppendEntries, if_neg notOlder, if_neg again, if_neg fun both => notNewer both.1, if_neg notNewer]
      exact ⟨_, rfl⟩

theorem append_response_repeated (received : ReceivedAppendEntriesResponse)
    (handled : handleAppendEntriesResponse raft received = .ok (next, result)) :
    ∃ again, handleAppendEntriesResponse next received = .ok (next, again) := by
  by_cases leader : raft.role = .leader
  case neg =>
    rw [handleAppendEntriesResponse, if_pos leader] at handled
    cases handled
    rw [handleAppendEntriesResponse, if_pos leader]
    exact ⟨_, rfl⟩
  by_cases term : received.response.term ≤ raft.currentTerm
  case neg =>
    rw [handleAppendEntriesResponse, if_neg (not_not.mpr leader), if_pos (Nat.lt_of_not_le term)] at handled
    cases handled
    rw [handleAppendEntriesResponse, if_pos (by simp)]
    exact ⟨_, rfl⟩
  have outcome := response_outcome raft received leader term
  rw [handled] at outcome
  cases outcome with
  | retried | stranger => exact ⟨_, handled⟩
  | learnerBehind behind _ learner fits =>
      exact settled_learner raft received leader term behind.le fits learner
  | learnerReaches same fits learner =>
      exact settled_learner raft received leader term same.le fits learner
  | voterBehind behind _ notLearner voter fits =>
      exact settled_voter raft _ received notLearner voter rfl rfl (.inr behind.ne) leader term behind.le fits
  | commits same notLearner voter most due fits =>
      have idle : commitDue { acknowledgedRaft raft received with commitIndex := raft.lastLogIndex } = false := by
        simp [commitDue, acknowledgedRaft]
      exact settled_voter raft _ received notLearner voter rfl rfl (.inl idle) leader term same.le fits
  | counted same fits notLearner voter few =>
      have idle : commitDue (acknowledgedRaft raft received) = false := by
        rw [← Bool.not_eq_true, commitDue, Bool.and_eq_true, decide_eq_true_eq, decide_eq_true_eq]
        simpa [acknowledgedRaft] using few
      exact settled_voter raft _ received notLearner voter rfl rfl (.inl idle) leader term same.le fits

end Repeated

-- Whatever branch the first delivery took, the second finds nothing left to change.
theorem repeated_unchanged (raft next : Raft) (event : Event) (result : Except Error (Option Effect))
    (redelivered : event.redelivered = true) (handled : handle raft event = .ok (next, result)) :
    ∃ again, handle next event = .ok (next, again) ∧ sameVote event result again := by
  cases event with
  | requestVote request => exact request_vote_repeated raft next result request handled
  | voteResponse received =>
      obtain ⟨again, repeated⟩ := vote_response_repeated raft next result received handled
      exact ⟨again, repeated, trivial⟩
  | heartbeat request =>
      obtain ⟨again, repeated⟩ := heartbeat_repeated raft next result request handled
      exact ⟨again, repeated, trivial⟩
  | appendEntries received =>
      obtain ⟨again, repeated⟩ := append_entries_repeated raft next result received handled
      exact ⟨again, repeated, trivial⟩
  | appendEntriesResponse received =>
      obtain ⟨again, repeated⟩ := append_response_repeated raft next result received handled
      exact ⟨again, repeated, trivial⟩
  | _ => cases redelivered

-- The second answer finds the entry committed.
theorem commit_repeated : ∃ again,
    handle { acknowledgedRaft leaderAtOne (answerOf true 2 1 2) with commitIndex := 1 }
        (.appendEntriesResponse (answerOf true 2 1 2)) =
      .ok ({ acknowledgedRaft leaderAtOne (answerOf true 2 1 2) with commitIndex := 1 }, again) ∧
    sameVote (.appendEntriesResponse (answerOf true 2 1 2)) (.ok (some (.applyCommitted ⟨1⟩ 1))) again :=
  repeated_unchanged leaderAtOne _ (.appendEntriesResponse (answerOf true 2 1 2)) _ rfl rfl

end RaftLog
