import RaftLog.Core.Responses
import RaftLog.Core.Runs

set_option autoImplicit false

namespace RaftLog.Learners

open Lib

-- A node but for its learners, its vote and the leader it knows of: none of the three
-- decides what it commits.
def bare (raft : Raft) : Raft := { raft with learners := ∅, votedFor := none, leaderId := none }

-- The learners are other nodes than the voters and the node itself.
def Apart (raft : Raft) : Prop := ∀ learner, learner ∈ raft.learners → learner ≠ raft.id ∧ learner ∉ raft.voters

-- What a handler leaves of a node, or that it unwinds.
def left : Handled → Option Raft
  | .ok (next, _) => some (bare next)
  | .error _ => none

theorem left_turn (raft next : Raft) (event : Event) (turned : turn raft event = some next) :
    left (handle raft event) = some (bare next) := by
  obtain ⟨result, handled⟩ := turn_handled raft next event turned
  rw [handled]
  rfl

-- Two handlers that ask the same agree when they do in both branches.
theorem left_ite {condition : Prop} [Decidable condition] {yes no first second : Handled}
    (holds : condition → left yes = left first) (fails : ¬ condition → left no = left second) :
    left (if condition then yes else no) = left (if condition then first else second) := by
  by_cases here : condition
  · rw [if_pos here, if_pos here]
    exact holds here
  · rw [if_neg here, if_neg here]
    exact fails here

theorem timeout_bare (raft : Raft) : left (handleElectionTimeout raft) = left (handleElectionTimeout (bare raft)) := by
  unfold handleElectionTimeout bare
  cases addU64 raft.currentTerm 1 with
  | error panic => rfl
  | ok term => rfl

-- A vote request is seen by the term it brings alone.
theorem request_left (raft : Raft) (request : VoteRequest) :
    left (handleRequestVote raft request) = some (if request.term > raft.currentTerm then
      { bare raft with currentTerm := request.term, role := .follower, grantedVotes := ∅ } else bare raft) := by
  simp only [handleRequestVote, left, Option.some.injEq]
  by_cases newer : request.term > raft.currentTerm
  · simp only [newer, decide_true, if_true]
    split <;> rfl
  · simp only [newer, decide_false, Bool.false_eq_true, if_false]
    split <;> rfl

theorem request_bare (raft : Raft) (request : VoteRequest) :
    left (handleRequestVote raft request) = left (handleRequestVote (bare raft) request) :=
  (request_left raft request).trans (request_left (bare raft) request).symm

theorem heartbeat_bare (raft : Raft) (request : HeartbeatRequest) :
    left (handleHeartbeat raft request) = left (handleHeartbeat (bare raft) request) := by
  by_cases stale : request.term < raft.currentTerm
  · have here : handleHeartbeat raft request = _ := if_pos stale
    have there : handleHeartbeat (bare raft) request = _ := if_pos stale
    rw [here, there]
    rfl
  have fresh := Nat.le_of_not_lt stale
  rw [handle_fresh_heartbeat raft request fresh, handle_fresh_heartbeat (bare raft) request fresh]
  refine left_ite (fun _mismatched => rfl) fun _matching => ?_
  exact left_ite (fun _raised => rfl) fun _kept => rfl

theorem append_bare (raft : Raft) (received : ReceivedAppendEntries) :
    left (handleAppendEntries raft received) = left (handleAppendEntries (bare raft) received) := by
  refine left_ite (fun _stale => rfl) fun _fresh => ?_
  refine left_ite (fun _rejected => rfl) fun _matching => ?_
  refine left_ite (fun _cut => rfl) fun _behind => ?_
  unfold bare
  dsimp only
  by_cases newer : received.request.term > raft.currentTerm
  · simp only [if_pos newer]
    rfl
  · simp only [if_neg newer]
    rfl

theorem vote_bare (raft : Raft) (received : ReceivedVoteResponse) :
    left (handleVoteResponse raft received) = left (handleVoteResponse (bare raft) received) := by
  refine left_ite (fun _newer => rfl) fun _older => ?_
  refine left_ite (fun _idle => rfl) fun _candidate => ?_
  refine left_ite (fun _ignored => rfl) fun _counts => ?_
  exact left_ite (fun _most => rfl) fun _few => rfl

theorem heartbeat_response_bare (raft : Raft) (received : ReceivedHeartbeatResponse) :
    left (handleHeartbeatResponse raft received) = left (handleHeartbeatResponse (bare raft) received) := by
  refine left_ite (fun _newer => rfl) fun _term => ?_
  refine left_ite (fun _idle => rfl) fun _leader => ?_
  refine left_ite (fun _older => rfl) fun _same => ?_
  unfold bare
  dsimp only
  cases raft.voters.lookup received.sender with
  | some progress => rfl
  | none => cases raft.learners.lookup received.sender <;> rfl

section Response

variable (raft : Raft) (received : ReceivedAppendEntriesResponse)

theorem stranger_bare (leader : raft.role = .leader) (term : received.response.term ≤ raft.currentTerm)
    (within : received.response.lastLogIndex ≤ raft.lastLogIndex) (voter : received.sender ∉ raft.voters) :
    left (handleAppendEntriesResponse (bare raft) received) = some (bare raft) := by
  have outcome := response_outcome (bare raft) received leader term
  generalize handleAppendEntriesResponse (bare raft) received = handled at outcome
  cases outcome with
  | ahead ahead => exact absurd ahead (Nat.not_lt_of_le within)
  | overflow known =>
      rcases known with learner | member
      · exact absurd learner (AList.notMem_empty received.sender)
      · exact absurd member voter
  | retried | stranger => rfl
  | learnerBehind _ _ learner | learnerReaches _ _ learner => exact absurd learner (AList.notMem_empty received.sender)
  | voterBehind _ _ _ member | commits _ _ member | counted _ _ _ member => exact absurd member voter

theorem voter_response_bare (learner : received.sender ∉ raft.learners) :
    left (handleAppendEntriesResponse raft received) = left (handleAppendEntriesResponse (bare raft) received) := by
  refine left_ite (fun _idle => rfl) fun _leader => ?_
  refine left_ite (fun _newer => rfl) fun _term => ?_
  refine left_ite (fun _ahead => rfl) fun _notAhead => ?_
  refine left_ite (fun _retried => rfl) fun _considered => ?_
  refine left_ite (fun _ahead => rfl) fun _within => ?_
  rw [if_neg learner, if_neg (show received.sender ∉ (bare raft).learners from AList.notMem_empty received.sender)]
  refine left_ite (fun _voter => ?_) fun _stranger => rfl
  cases addU64 received.response.lastLogIndex 1 with
  | error panic => rfl
  | ok nextIndex =>
      simp only [bind, Except.bind, pure, Except.pure]
      refine left_ite (fun _behind => rfl) fun _reached => ?_
      exact left_ite (fun _most => rfl) fun _few => rfl

-- An answer of a learner is noted in the learners map and nowhere else.
theorem learner_response_bare (next : Raft) (apart : Apart raft) (learner : received.sender ∈ raft.learners)
    (turned : turn raft (.appendEntriesResponse received) = some next) :
    left (handleAppendEntriesResponse (bare raft) received) = some (bare next) := by
  have seen := left_turn raft next _ turned
  by_cases answers : raft.role = .leader ∧ received.response.term ≤ raft.currentTerm
  · obtain ⟨result, handled⟩ := turn_handled raft next _ turned
    have outcome := response_outcome raft received answers.1 answers.2
    rw [show handleAppendEntriesResponse raft received = _ from handled] at outcome
    have voter := (apart received.sender learner).2
    cases outcome with
    | retried _ behind => exact stranger_bare raft received answers.1 answers.2 behind.le voter
    | learnerBehind behind => exact stranger_bare raft received answers.1 answers.2 behind.le voter
    | learnerReaches same => exact stranger_bare raft received answers.1 answers.2 same.le voter
    | stranger _ _ notLearner | voterBehind _ _ notLearner | commits _ notLearner | counted _ _ notLearner =>
        exact absurd learner notLearner
  · have agrees : left (handleAppendEntriesResponse raft received) = left (handleAppendEntriesResponse (bare raft) received) := by
      refine left_ite (fun _idle => rfl) fun leader => ?_
      refine left_ite (fun _newer => rfl) fun term => ?_
      exact absurd ⟨not_not.mp leader, Nat.le_of_not_lt term⟩ answers
    exact agrees.symm.trans seen

end Response

theorem turned_bare (raft next : Raft) (event : Event) (apart : Apart raft) (turned : turn raft event = some next)
    (decided : ∀ entry, event ≠ .localEntriesAppended entry) : left (handle (bare raft) event) = some (bare next) := by
  rw [← left_turn raft next event turned]
  cases event with
  | localEntriesAppended entry => exact absurd rfl (decided entry)
  | electionTimeout => exact (timeout_bare raft).symm
  | requestVote request => exact (request_bare raft request).symm
  | heartbeat request => exact (heartbeat_bare raft request).symm
  | appendEntries received => exact (append_bare raft received).symm
  | voteResponse received => exact (vote_bare raft received).symm
  | heartbeatResponse received => exact (heartbeat_response_bare raft received).symm
  | appendEntriesResponse received =>
      by_cases learner : received.sender ∈ raft.learners
      · rw [left_turn raft next _ turned]
        exact learner_response_bare raft received next apart learner turned
      · exact (voter_response_bare raft received learner).symm
  | entriesPersisted | entriesApplied | heartbeatTimeout | write => exact left_ite (fun _yes => rfl) fun _no => rfl

theorem targets_empty_iff (raft : Raft) (apart : Apart raft) :
    raft.replicationTargets.isEmpty = true ↔ raft.peers = [] ∧ raft.learners.keys = [] := by
  rw [Raft.replicationTargets, List.isEmpty_iff, List.map_eq_nil_iff, List.filter_append, List.append_eq_nil_iff]
  refine and_congr ?_ ?_
  · rw [Raft.peers, AList.keys, List.keys, List.filter_map, List.map_eq_nil_iff]
    rfl
  · rw [AList.keys, List.keys, List.map_eq_nil_iff]
    constructor
    · intro none
      by_contra some
      obtain ⟨entry, member⟩ := List.exists_mem_of_ne_nil _ some
      have learner : entry.1 ∈ raft.learners := List.mem_map_of_mem member
      have own := List.filter_eq_nil_iff.mp none entry member
      exact own (by simpa using (apart entry.1 learner).1)
    · intro none
      rw [none]
      rfl

-- A leader commits what it appends when there is nobody to send it to.
def decidedRaft (raft : Raft) (entry : LocalEntry) (alone : Bool) : Raft :=
  if raft.role = .leader then
    { appendedRaft raft entry with commitIndex := if alone then entry.index else raft.commitIndex }
  else raft

theorem local_entry_decided (raft next : Raft) (entry : LocalEntry)
    (turned : turn raft (.localEntriesAppended entry) = some next) :
    bare next = decidedRaft (bare raft) entry raft.replicationTargets.isEmpty := by
  obtain ⟨result, handled⟩ := turn_handled raft next _ turned
  unfold decidedRaft
  cases local_entry_step raft next entry result handled with
  | notLeader role => exact (if_neg role).symm
  | replicates role others =>
      rw [others]
      exact (if_pos role).symm
  | alone role alone =>
      rw [alone]
      exact (if_pos role).symm

theorem learners_kept (raft next : Raft) (event : Event) (turned : turn raft event = some next) :
    next.learners.keys = raft.learners.keys := by
  obtain ⟨result, handled⟩ := turn_handled raft next event turned
  cases event with
  | electionTimeout =>
      obtain ⟨rfl, _⟩ := election_timeout_step raft next result handled
      rfl
  | requestVote request =>
      obtain ⟨_, _, turned, _⟩ := request_vote_step raft next request result handled
      rw [turned.frame]
  | heartbeat request =>
      obtain ⟨_, _, _, turned, _⟩ := heartbeat_step raft next request result handled
      cases turned <;> rfl
  | appendEntries received => cases append_entries_step raft next received result handled <;> rfl
  | voteResponse received => cases vote_response_step raft next received result handled <;> rfl
  | localEntriesAppended entry => cases local_entry_step raft next entry result handled <;> rfl
  | entriesPersisted | entriesApplied | heartbeatTimeout | write =>
      obtain ⟨_, _, _, _, rfl⟩ := plain_step raft next _ result rfl handled
      rfl
  | heartbeatResponse received =>
      simp only [handle, handleHeartbeatResponse] at handled
      split at handled
      · cases handled
        rfl
      split at handled
      · cases handled
        rfl
      split at handled
      · cases handled
        rfl
      split at handled
      · cases handled
        rfl
      split at handled
      · cases handled
        exact keys_assign _ _ _
      · cases handled
        rfl
  | appendEntriesResponse received =>
      by_cases answers : raft.role = .leader ∧ received.response.term ≤ raft.currentTerm
      · have outcome := response_outcome raft received answers.1 answers.2
        rw [show handleAppendEntriesResponse raft received = _ from handled] at outcome
        cases outcome with
        | learnerBehind | learnerReaches => exact keys_assign _ _ _
        | retried | stranger | voterBehind | commits | counted => rfl
      · cases append_response_step raft next received result handled with
        | notLeader | stepsDown | retries | behind | commits | counted | stranger => rfl
        | learner role term => exact absurd ⟨role, term⟩ answers

theorem turned_apart (raft next : Raft) (event : Event) (apart : Apart raft) (turned : turn raft event = some next) :
    Apart next := by
  obtain ⟨result, handled⟩ := turn_handled raft next event turned
  have onward := handled_onward raft next event result handled
  intro learner member
  rw [AList.mem_keys, learners_kept raft next event turned, ← AList.mem_keys] at member
  rw [onward.sameId, onward_member raft next onward]
  exact apart learner member

-- The node that an event names as the one it comes from.
def senderOf : Event → Option NodeId
  | .heartbeat request => some request.leaderId
  | .requestVote request => some request.candidateId
  | .appendEntries received => some received.request.leaderId
  | .appendEntriesResponse received => some received.sender
  | .voteResponse received => some received.sender
  | .heartbeatResponse received => some received.sender
  | _ => none

def fromLearner (raft : Raft) (event : Event) : Bool := (senderOf event).any (· ∈ raft.learners)

-- A message that neither moves the term of a node nor makes it follow the sender.
def steady (term : Nat) : Event → Bool
  | .heartbeat request => request.term < term
  | .requestVote request => request.term ≤ term
  | .appendEntries received => received.request.term < term
  | .appendEntriesResponse received => received.response.term ≤ term
  | .voteResponse received => received.response.term ≤ term
  | .heartbeatResponse received => received.response.term ≤ term
  | _ => true

theorem steady_learner_bare (raft next : Raft) (event : Event) (apart : Apart raft) (learner : fromLearner raft event = true)
    (still : steady raft.currentTerm event = true) (turned : turn raft event = some next) : bare next = bare raft := by
  obtain ⟨result, handled⟩ := turn_handled raft next event turned
  cases event with
  | heartbeat request =>
      have stale : request.term < raft.currentTerm := by simpa [steady] using still
      obtain ⟨_, _, _, step, _⟩ := heartbeat_step raft next request result handled
      cases step with
      | stale => rfl
      | mismatched fresh | matched fresh => exact absurd stale (Nat.not_lt_of_le fresh)
  | appendEntries received =>
      have stale : received.request.term < raft.currentTerm := by simpa [steady] using still
      cases append_entries_step raft next received result handled with
      | stale => rfl
      | rejected fresh | accepted fresh => exact absurd stale (Nat.not_lt_of_le fresh)
  | requestVote request =>
      have old : request.term ≤ raft.currentTerm := by simpa [steady] using still
      obtain ⟨_, _, step, _⟩ := request_vote_step raft next request result handled
      have same : next.currentTerm = raft.currentTerm := step.term.trans (Nat.max_eq_left old)
      obtain ⟨role, granted, _⟩ := step.kept same
      rw [step.frame, same, role, granted]
      rfl
  | voteResponse received =>
      have old : received.response.term ≤ raft.currentTerm := by simpa [steady] using still
      have member : received.sender ∈ raft.learners := by simpa [fromLearner, senderOf] using learner
      cases vote_response_step raft next received result handled with
      | stepsDown newer => exact absurd newer (Nat.not_lt_of_le old)
      | notCandidate | ignored => rfl
      | tallied counts | elected counts => exact absurd counts.voter (apart _ member).2
  | heartbeatResponse received =>
      have old : received.response.term ≤ raft.currentTerm := by simpa [steady] using still
      have member : received.sender ∈ raft.learners := by simpa [fromLearner, senderOf] using learner
      cases (heartbeat_response_step raft next received result handled).1 with
      | stepsDown newer => exact absurd newer (Nat.not_lt_of_le old)
      | ignored | learner => rfl
      | voter _ _ progress found =>
          exact absurd (AList.lookup_isSome.mp (by rw [found]; rfl)) (apart _ member).2
  | appendEntriesResponse received =>
      have old : received.response.term ≤ raft.currentTerm := by simpa [steady] using still
      have member : received.sender ∈ raft.learners := by simpa [fromLearner, senderOf] using learner
      cases append_response_step raft next received result handled with
      | stepsDown _ newer => exact absurd newer (Nat.not_lt_of_le old)
      | notLeader | retries | learner | stranger => rfl
      | behind _ _ _ _ notLearner => exact absurd member notLearner
      | commits counts | counted counts => exact absurd member counts.notLearner
  | electionTimeout | heartbeatTimeout | entriesPersisted | entriesApplied | localEntriesAppended | write => cases learner

-- Two nodes side by side.
structure Pair where
  first : Raft
  second : Raft

-- What a learner of the other node alone sends does not reach this one.
def hear (raft other : Raft) (event : Event) : Option Raft :=
  if fromLearner other event && !fromLearner raft event then some raft else turn raft event

def step (pair : Pair) (event : Event) : Option Pair :=
  (hear pair.first pair.second event).bind fun first => (hear pair.second pair.first event).map (Pair.mk first)

-- Any leader to begin with, and the same leader with other learners.
def machine : Machine Pair Event where
  start pair := pair.first.role = .leader ∧ pair.second = { pair.first with learners := pair.second.learners } ∧
    Apart pair.first ∧ Apart pair.second
  step := step

-- A learner of one node alone does not unsettle it.
def settled (pair : Pair) (event : Event) : Bool :=
  fromLearner pair.first event == fromLearner pair.second event || steady pair.first.currentTerm event

-- Either both leaders have somebody to send an entry to or neither has.
def accompanied (pair : Pair) : Event → Bool
  | .localEntriesAppended _ => pair.first.role ≠ .leader || !pair.first.peers.isEmpty ||
      pair.first.learners.keys.isEmpty == pair.second.learners.keys.isEmpty
  | _ => true

structure Alike (pair : Pair) : Prop where
  same : bare pair.first = bare pair.second
  firstApart : Apart pair.first
  secondApart : Apart pair.second

theorem alike_field {Value : Type} (pair : Pair) (alike : Alike pair) (field : Raft → Value) :
    field (bare pair.first) = field (bare pair.second) := by rw [alike.same]

theorem alone_alike (pair : Pair) (entry : LocalEntry) (alike : Alike pair) (leader : pair.first.role = .leader)
    (both : accompanied pair (.localEntriesAppended entry) = true) :
    pair.first.replicationTargets.isEmpty = pair.second.replicationTargets.isEmpty := by
  have peers : pair.first.peers = pair.second.peers := alike_field pair alike fun raft => raft.peers
  rw [Bool.eq_iff_iff, targets_empty_iff pair.first alike.firstApart, targets_empty_iff pair.second alike.secondApart, peers]
  by_cases others : pair.second.peers = []
  · have learners : pair.first.learners.keys.isEmpty = pair.second.learners.keys.isEmpty := by
      simpa [accompanied, leader, peers, others] using both
    exact and_congr_right fun _ => by rw [← List.isEmpty_iff, learners, List.isEmpty_iff]
  · exact iff_of_false (fun none => others none.1) fun none => others none.1

theorem alike_turned (pair : Pair) (first second : Raft) (event : Event) (alike : Alike pair)
    (both : accompanied pair event = true) (firstTurned : turn pair.first event = some first)
    (secondTurned : turn pair.second event = some second) : bare first = bare second := by
  by_cases decides : ∃ entry, event = .localEntriesAppended entry
  · obtain ⟨entry, rfl⟩ := decides
    rw [local_entry_decided pair.first first entry firstTurned, local_entry_decided pair.second second entry secondTurned,
      alike.same]
    by_cases leader : pair.first.role = .leader
    · rw [alone_alike pair entry alike leader both]
    · have follows : ¬ (bare pair.second).role = .leader := fun leads =>
        leader ((alike_field pair alike Raft.role).trans leads)
      rw [decidedRaft, decidedRaft, if_neg follows, if_neg follows]
  · have turned := turned_bare pair.first first event alike.firstApart firstTurned fun entry same => decides ⟨entry, same⟩
    rw [alike.same, turned_bare pair.second second event alike.secondApart secondTurned fun entry same => decides ⟨entry, same⟩]
      at turned
    exact (Option.some.inj turned).symm

theorem hear_apart (raft other next : Raft) (event : Event) (apart : Apart raft) (heard : hear raft other event = some next) :
    Apart next := by
  unfold hear at heard
  split at heard
  · cases heard
    exact apart
  · exact turned_apart raft next event apart heard

theorem hear_same (raft other : Raft) (event : Event) (same : fromLearner raft event = fromLearner other event) :
    hear raft other event = turn raft event := by
  unfold hear
  rw [same, Bool.and_not_self, if_neg Bool.false_ne_true]

theorem hear_bare (raft other next : Raft) (event : Event) (apart : Apart raft)
    (alone : fromLearner raft event ≠ fromLearner other event) (still : steady raft.currentTerm event = true)
    (heard : hear raft other event = some next) : bare next = bare raft := by
  unfold hear at heard
  split at heard
  · cases heard
    rfl
  · rename_i reached
    have learner : fromLearner raft event = true := by
      by_contra stranger
      have stranger := Bool.eq_false_of_not_eq_true stranger
      rw [stranger] at alone reached
      exact reached (by simpa using alone)
    exact steady_learner_bare raft next event apart learner still heard

theorem alike_step (pair next : Pair) (event : Event) (alike : Alike pair) (still : settled pair event = true)
    (both : accompanied pair event = true) (moves : step pair event = some next) : Alike next := by
  obtain ⟨first, firstHeard, rest⟩ := Option.bind_eq_some_iff.mp moves
  obtain ⟨second, secondHeard, rfl⟩ := Option.map_eq_some_iff.mp rest
  refine ⟨?_, hear_apart _ _ first event alike.firstApart firstHeard, hear_apart _ _ second event alike.secondApart secondHeard⟩
  by_cases same : fromLearner pair.first event = fromLearner pair.second event
  · rw [hear_same _ _ event same] at firstHeard
    rw [hear_same _ _ event same.symm] at secondHeard
    exact alike_turned pair first second event alike both firstHeard secondHeard
  · have still : steady pair.first.currentTerm event = true := by simpa [settled, same] using still
    have term : pair.first.currentTerm = pair.second.currentTerm := alike_field pair alike Raft.currentTerm
    calc bare first = bare pair.first := hear_bare _ _ first event alike.firstApart same still firstHeard
      _ = bare pair.second := alike.same
      _ = bare second := (hear_bare _ _ second event alike.secondApart (Ne.symm same) (term ▸ still) secondHeard).symm

-- Which learners a leader has does not change what is committed, as long as the learners
-- leave the term and the leadership alone and do not decide whether the leader is alone.
theorem commitment_unaffected (pair : Pair)
    (run : Run machine (fun pair event => settled pair event = true ∧ accompanied pair event = true) pair) :
    pair.first.commitIndex = pair.second.commitIndex := by
  have alike : Alike pair := by
    apply run_invariant machine _ Alike ?_ ?_ pair run
    · rintro ⟨first, second⟩ ⟨_, same, firstApart, secondApart⟩
      have same : second = { first with learners := second.learners } := same
      refine ⟨?_, firstApart, secondApart⟩
      dsimp only
      rw [same]
      rfl
    · intro pair event next _ alike ⟨still, both⟩ moves
      exact alike_step pair next event alike still both moves
  exact alike_field pair alike Raft.commitIndex

def nodeD : NodeId := ⟨"node-d"⟩

-- The leader with a fourth node as its learner, and without.
def withLearner : Pair := ⟨{ leaderAtOne with learners := AList.insert nodeD ⟨1, 0⟩ ∅ }, leaderAtOne⟩

theorem with_learner_starts : machine.start withLearner := by
  refine ⟨rfl, rfl, fun learner member => ?_, fun learner member => absurd member (AList.notMem_empty learner)⟩
  rcases AList.mem_insert _ |>.mp member with rfl | none
  · exact ⟨by decide, by decide⟩
  · exact absurd none (AList.notMem_empty learner)

def learnerAnswer : ReceivedAppendEntriesResponse := ⟨⟨1⟩, nodeD, ⟨2, true, 1, 2, some nodeA⟩⟩

-- The learner and then a voter acknowledge the entry.
def acknowledged : Pair :=
  (exec machine withLearner [.appendEntriesResponse learnerAnswer, .appendEntriesResponse (answerOf true 2 1 2)]).getD withLearner

theorem acknowledged_commits : acknowledged.first.commitIndex = 1 ∧ acknowledged.first.commitIndex = acknowledged.second.commitIndex :=
  ⟨by decide +kernel, commitment_unaffected acknowledged
    (exec_when_reaches machine _ (fun pair event => settled pair event && accompanied pair event)
      (fun _ _ both => Bool.and_eq_true_iff.mp both)
      [.appendEntriesResponse learnerAnswer, .appendEntriesResponse (answerOf true 2 1 2)] withLearner withLearner
      (.start _ with_learner_starts) (by decide +kernel))⟩

def unsettling : ReceivedHeartbeatResponse := ⟨nodeD, ⟨3, false, 0, 0, none⟩⟩

-- A learner that has seen a newer term ends the leadership of the node that has it.
theorem newer_learner_parts : ¬ ∀ (pair next : Pair) (event : Event), Reachable machine pair →
    fromLearner pair.first event = false → fromLearner pair.second event = false → step pair event = some next →
    next.first.commitIndex = next.second.commitIndex := by
  intro always
  have same := always _ _ (.appendEntriesResponse (answerOf true 2 1 2))
    (.step withLearner _ (.heartbeatResponse unsettling) (.start _ with_learner_starts) trivial rfl) rfl rfl rfl
  exact absurd same (by decide +kernel)

end RaftLog.Learners
