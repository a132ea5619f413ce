import RaftLog.Core.Responses
import RaftLog.Lib.Machine

set_option autoImplicit false

namespace RaftLog.Leadership

open Lib

-- A node, and what it was told since it became Leader in its term: who confirmed which index.
structure Node where
  raft : Raft
  confirmed : List (NodeId × Nat)

inductive Action where
  | handle (event : Event)
  | restart (nextOffset : Nat) (state : State)
deriving DecidableEq, Repr

-- The index that a response of the leader's own term confirms.
def confirmation (raft : Raft) : Event → Option (NodeId × Nat)
  | .appendEntriesResponse received =>
      if received.response.success = true ∧ received.response.term = raft.currentTerm then
        some (received.sender, received.response.lastLogIndex)
      else none
  | .heartbeatResponse received =>
      if received.response.success = true ∧ received.response.term = raft.currentTerm then
        some (received.sender, min received.response.lastLogIndex raft.lastLogIndex)
      else none
  | _ => none

-- One leadership goes on.
def continues (raft next : Raft) : Bool :=
  raft.role = .leader && next.role = .leader && next.currentTerm = raft.currentTerm

def confirmedAfter (node : Node) (event : Event) (next : Raft) : List (NodeId × Nat) :=
  if continues node.raft next then (confirmation node.raft event).toList ++ node.confirmed else []

def booted (id : NodeId) (voters : List NodeId) (nextOffset : Nat) (state : State) : Node :=
  ⟨newRaft id voters nextOffset state, []⟩

-- A run ends where a thread unwinds.
def step (id : NodeId) (voters : List NodeId) (node : Node) : Action → Option Node
  | .handle event =>
      match handle node.raft event with
      | .ok (next, _) => some ⟨next, confirmedAfter node event next⟩
      | .error _ => none
  | .restart nextOffset state => some (booted id voters nextOffset state)

def machine (id : NodeId) (voters : List NodeId) : Machine Node Action :=
  ⟨fun node => ∃ nextOffset state, node = booted id voters nextOffset state, step id voters⟩

-- What a leader knows of another voter it was told in this leadership.
def Earned (node : Node) : Prop :=
  node.raft.role = .leader → ∀ voter, voter ≠ node.raft.id → 0 < matchOf node.raft.voters voter →
    (voter, matchOf node.raft.voters voter) ∈ node.confirmed

def holdsProgress (raft : Raft) : Bool :=
  raft.voters.entries.any fun entry => entry.1 ≠ raft.id && entry.2.matchIndex > 0

-- The vote that completes a majority, and the rejected append that lifts a leader into another term.
def startsLeading (raft : Raft) : Event → Bool
  | .voteResponse received => raft.role = .candidate && received.response.term = raft.currentTerm &&
      received.sender ∈ raft.voters && received.response.voteGranted && received.sender ∉ raft.grantedVotes &&
      (insert received.sender raft.grantedVotes).card > raft.voters.keys.length / 2
  | .appendEntries received => raft.role = .leader && rejectsNewerAppend raft (.appendEntries received)
  | _ => false

-- The response is one that the leader takes a voter's progress from.
def credited (raft : Raft) (received : ReceivedAppendEntriesResponse) : Bool :=
  raft.role = .leader && received.sender ∈ raft.voters && received.sender ∉ raft.learners &&
    received.response.term ≤ raft.currentTerm && received.response.lastLogIndex ≤ raft.lastLogIndex &&
    (received.response.success || received.response.lastLogIndex = raft.lastLogIndex)

-- A rejection or an answer of an earlier term that moves another voter's progress.
def creditsUnconfirmed (raft : Raft) : Event → Bool
  | .appendEntriesResponse received => credited raft received && received.sender ≠ raft.id &&
      !(received.response.success && received.response.term = raft.currentTerm) &&
      received.response.lastLogIndex ≠ 0 && received.response.lastLogIndex ≠ matchOf raft.voters received.sender
  | _ => false

def fair (node : Node) : Action → Bool
  | .handle event => !(startsLeading node.raft event && holdsProgress node.raft) && !creditsUnconfirmed node.raft event
  | .restart _ _ => true

theorem no_progress (raft : Raft) (none : holdsProgress raft = false) (voter : NodeId) (other : voter ≠ raft.id) :
    matchOf raft.voters voter = 0 := by
  rw [matchOf]
  cases found : raft.voters.lookup voter with
  | none => rfl
  | some progress =>
      have member := (List.mem_dlookup_iff raft.voters.nodupKeys).mp found
      have quiet := List.any_eq_false.mp none _ member
      simpa [other] using quiet

section Step

variable (node : Node) (event : Event) (next : Raft) (earned : Earned node)

theorem unled_earned (role : next.role ≠ .leader) : Earned ⟨next, confirmedAfter node event next⟩ :=
  fun leads => absurd leads role

theorem first_earned (none : holdsProgress node.raft = false) (sameId : next.id = node.raft.id)
    (sameVoters : next.voters = node.raft.voters) : Earned ⟨next, confirmedAfter node event next⟩ := by
  intro _ voter other more
  dsimp only at other more
  rw [sameId] at other
  rw [sameVoters, no_progress node.raft none voter other] at more
  exact absurd more (Nat.lt_irrefl 0)

include earned

-- In a leadership that goes on, an index is a known one or one just confirmed.
theorem continued_earned (role : node.raft.role = .leader) (term : next.currentTerm = node.raft.currentTerm)
    (sameId : next.id = node.raft.id)
    (moved : ∀ voter, voter ≠ node.raft.id → matchOf next.voters voter = matchOf node.raft.voters voter ∨
      matchOf next.voters voter = 0 ∨ confirmation node.raft event = some (voter, matchOf next.voters voter)) :
    Earned ⟨next, confirmedAfter node event next⟩ := by
  intro leads voter other more
  dsimp only at leads other more ⊢
  rw [sameId] at other
  have goes : continues node.raft next = true := by simp [continues, role, leads, term]
  rw [confirmedAfter, if_pos goes, List.mem_append]
  rcases moved voter other with known | none | told
  · rw [known] at more ⊢
    exact .inr (earned role voter other more)
  · rw [none] at more
    exact absurd more (Nat.lt_irrefl 0)
  · exact .inl (by rw [told]; exact List.mem_singleton.mpr rfl)

theorem framed_earned (sameId : next.id = node.raft.id) (sameVoters : next.voters = node.raft.voters)
    (kept : next.role = .leader → node.raft.role = .leader ∧ next.currentTerm = node.raft.currentTerm) :
    Earned ⟨next, confirmedAfter node event next⟩ := by
  by_cases leads : next.role = .leader
  · obtain ⟨role, term⟩ := kept leads
    apply continued_earned node event next earned role term sameId
    intro voter _
    exact .inl (by rw [sameVoters])
  · exact unled_earned node event next leads

end Step

section Handled

variable (node : Node) (next : Raft) (result : Except Error (Option Effect)) (earned : Earned node)

include earned

theorem acknowledged_earned (received : ReceivedAppendEntriesResponse) (counts : credited node.raft received = true)
    (spared : creditsUnconfirmed node.raft (.appendEntriesResponse received) = false)
    (sameTerm : next.currentTerm = node.raft.currentTerm) (sameId : next.id = node.raft.id)
    (voters : next.voters = (acknowledgedRaft node.raft received).voters) :
    Earned ⟨next, confirmedAfter node (.appendEntriesResponse received) next⟩ := by
  have parts := counts
  simp only [credited, Bool.and_eq_true, decide_eq_true_eq] at parts
  obtain ⟨⟨⟨⟨⟨leader, voter⟩, _⟩, _⟩, _⟩, _⟩ := parts
  apply continued_earned node _ next earned leader sameTerm sameId
  intro other apart
  rw [voters, acknowledgedRaft, match_of_assign _ _ _ _ voter]
  by_cases here : other = received.sender
  case neg => exact .inl (if_neg here)
  subst here
  rw [if_pos rfl]
  by_cases told : received.response.success = true ∧ received.response.term = node.raft.currentTerm
  · exact .inr (.inr (if_pos told))
  · simp only [creditsUnconfirmed, counts, apart, Bool.true_and, Bool.and_eq_false_imp, Bool.not_eq_true', Bool.and_eq_true,
      decide_eq_true_eq, decide_eq_false_iff_not, ne_eq, not_not, not_false_eq_true, decide_true] at spared
    by_cases nothing : received.response.lastLogIndex = 0
    · exact .inr (.inl nothing)
    · exact .inl (spared ⟨fun success same => told ⟨success, same⟩, nothing⟩)

theorem append_response_earned (received : ReceivedAppendEntriesResponse)
    (spared : creditsUnconfirmed node.raft (.appendEntriesResponse received) = false)
    (handled : handleAppendEntriesResponse node.raft received = .ok (next, result)) :
    Earned ⟨next, confirmedAfter node (.appendEntriesResponse received) next⟩ := by
  cases append_response_step node.raft next received result handled with
  | notLeader role => exact unled_earned node _ _ role
  | stepsDown => exact unled_earned node _ _ (by simp)
  | retries | stranger | learner => exact framed_earned node _ _ earned rfl rfl fun leads => ⟨leads, rfl⟩
  | behind role term behind accepted notLearner voter =>
      exact acknowledged_earned node _ earned received (by simp [credited, role, term, behind.le, accepted, notLearner, voter])
        spared rfl rfl rfl
  | commits counts | counted counts =>
      exact acknowledged_earned node _ earned received
        (by simp [credited, counts.leader, counts.term, counts.last, counts.notLearner, counts.voter]) spared rfl rfl rfl

theorem heartbeat_response_earned (received : ReceivedHeartbeatResponse)
    (handled : handleHeartbeatResponse node.raft received = .ok (next, result)) :
    Earned ⟨next, confirmedAfter node (.heartbeatResponse received) next⟩ := by
  cases (heartbeat_response_step node.raft next received result handled).1 with
  | stepsDown => exact unled_earned node _ _ (by simp)
  | ignored | learner => exact framed_earned node _ _ earned rfl rfl fun leads => ⟨leads, rfl⟩
  | voter role term progress found =>
      have member : received.sender ∈ node.raft.voters := AList.lookup_isSome.mp (by rw [found]; rfl)
      refine continued_earned node _ _ earned role ?_ ?_ fun other _ => ?_
      case refine_1 => rfl
      case refine_2 => rfl
      rw [match_of_assign _ _ _ _ member]
      by_cases here : other = received.sender
      case neg => exact .inl (if_neg here)
      subst here
      rw [if_pos rfl, heartbeatProgress, matchOf, found]
      by_cases success : received.response.success = true
      · rw [if_pos success]
        rcases Nat.le_total (min received.response.lastLogIndex node.raft.lastLogIndex) progress.matchIndex with least | most
        · exact .inl (Nat.max_eq_left least)
        · refine .inr (.inr ?_)
          rw [confirmation, if_pos ⟨success, term⟩]
          exact congrArg (fun index => some (received.sender, index)) (Nat.max_eq_right most).symm
      · rw [if_neg success]
        exact .inl rfl

theorem local_entry_earned (entry : LocalEntry) (handled : handleLocalEntryAppended node.raft entry = .ok (next, result)) :
    Earned ⟨next, confirmedAfter node (.localEntriesAppended entry) next⟩ := by
  have others : ∀ progress voter, voter ≠ node.raft.id →
      matchOf (assign node.raft.voters node.raft.id progress) voter = matchOf node.raft.voters voter := by
    intro progress voter other
    have same : (assign node.raft.voters node.raft.id progress).lookup voter = _ :=
      dlookup_kreplace node.raft.voters.entries node.raft.id voter progress
    rw [matchOf, same, if_neg fun both => other both.1]
    rfl
  cases local_entry_step node.raft next entry result handled with
  | notLeader role => exact unled_earned node _ _ role
  | replicates role | alone role =>
      exact continued_earned node _ _ earned role rfl rfl fun voter other => .inl (others _ voter other)

theorem vote_response_earned (received : ReceivedVoteResponse)
    (spared : (startsLeading node.raft (.voteResponse received) && holdsProgress node.raft) = false)
    (handled : handleVoteResponse node.raft received = .ok (next, result)) :
    Earned ⟨next, confirmedAfter node (.voteResponse received) next⟩ := by
  cases vote_response_step node.raft next received result handled with
  | stepsDown => exact unled_earned node _ _ (by simp)
  | notCandidate | ignored => exact framed_earned node _ _ earned rfl rfl fun leads => ⟨leads, rfl⟩
  | tallied counts => exact framed_earned node _ _ earned rfl rfl fun leads => ⟨leads, rfl⟩
  | elected counts most =>
      have starts : startsLeading node.raft (.voteResponse received) = true := by
        simp only [startsLeading, counts.candidate, counts.term, counts.voter, counts.granted, counts.fresh, decide_true,
          not_false_eq_true, Bool.true_and, decide_eq_true_eq]
        exact most
      rw [starts, Bool.true_and] at spared
      exact first_earned node _ _ spared rfl rfl

theorem append_entries_earned (received : ReceivedAppendEntries)
    (spared : (startsLeading node.raft (.appendEntries received) && holdsProgress node.raft) = false)
    (handled : handleAppendEntries node.raft received = .ok (next, result)) :
    Earned ⟨next, confirmedAfter node (.appendEntries received) next⟩ := by
  cases append_entries_step node.raft next received result handled with
  | stale => exact framed_earned node _ _ earned rfl rfl fun leads => ⟨leads, rfl⟩
  | accepted => exact unled_earned node _ _ (by simp [acceptedRaft])
  | rejected fresh mismatch =>
      by_cases newer : received.request.term > node.raft.currentTerm ∧ node.raft.role = .leader
      · have starts : startsLeading node.raft (.appendEntries received) = true := by
          simp [startsLeading, rejectsNewerAppend, newer, mismatch]
        rw [starts, Bool.true_and] at spared
        exact first_earned node _ _ spared rfl rfl
      · refine framed_earned node _ _ earned ?_ ?_ fun leads => ?_
        case refine_1 => rfl
        case refine_2 => rfl
        have notNewer : ¬ received.request.term > node.raft.currentTerm := fun more => newer ⟨more, leads⟩
        exact ⟨leads, Nat.le_antisymm (Nat.le_of_not_lt notNewer) fresh⟩

theorem request_vote_earned (request : VoteRequest) (handled : handleRequestVote node.raft request = .ok (next, result)) :
    Earned ⟨next, confirmedAfter node (.requestVote request) next⟩ := by
  obtain ⟨_, _, step, _⟩ := request_vote_step node.raft next request result handled
  have frame := step.frame
  refine framed_earned node _ _ earned (by rw [frame]) (by rw [frame]) fun leads => ?_
  rcases Nat.eq_or_lt_of_le (step.term ▸ Nat.le_max_left _ _) with same | newer
  · exact ⟨(step.kept same.symm).1 ▸ leads, same.symm⟩
  · rw [step.newer newer] at leads
    cases leads

end Handled

theorem earned_step (id : NodeId) (voters : List NodeId) (node next : Node) (action : Action) (earned : Earned node)
    (meets : fair node action = true) (moves : step id voters node action = some next) : Earned next := by
  cases action with
  | restart nextOffset state =>
      cases moves
      exact fun leads => by cases leads
  | handle event =>
      obtain ⟨spared, confirmed⟩ := Bool.and_eq_true_iff.mp meets
      rw [Bool.not_eq_true'] at spared confirmed
      cases handled : handle node.raft event with
      | error panic => simp [step, handled] at moves
      | ok outcome =>
          obtain ⟨raft, result⟩ := outcome
          simp only [step, handled, Option.some.injEq] at moves
          subst moves
          cases event with
          | electionTimeout =>
              obtain ⟨same, _⟩ := election_timeout_step node.raft raft result handled
              exact unled_earned node _ raft (by simp [same, campaignRaft])
          | requestVote request => exact request_vote_earned node raft result earned request handled
          | voteResponse received => exact vote_response_earned node raft result earned received spared handled
          | appendEntries received => exact append_entries_earned node raft result earned received spared handled
          | appendEntriesResponse received => exact append_response_earned node raft result earned received confirmed handled
          | heartbeatResponse received => exact heartbeat_response_earned node raft result earned received handled
          | localEntriesAppended entry => exact local_entry_earned node raft result earned entry handled
          | heartbeat request =>
              obtain ⟨_, _, _, step, _⟩ := heartbeat_step node.raft raft request result handled
              cases step with
              | stale => exact framed_earned node _ _ earned rfl rfl fun leads => ⟨leads, rfl⟩
              | mismatched | matched => exact unled_earned node _ _ (by simp [followedRaft])
          | heartbeatTimeout | entriesPersisted | entriesApplied | write =>
              obtain ⟨_, _, _, _, rfl⟩ := plain_step node.raft raft _ result rfl handled
              exact framed_earned node _ _ earned rfl rfl fun leads => ⟨leads, rfl⟩

theorem progress_earned (id : NodeId) (voters : List NodeId) (node : Node)
    (run : Run (machine id voters) (fun node action => fair node action = true) node) : Earned node := by
  refine run_invariant (machine id voters) _ Earned ?_ ?_ node run
  · rintro _ ⟨nextOffset, state, rfl⟩ leads
    cases leads
  · intro node action next _ earned meets moves
    exact earned_step id voters node next action earned meets moves

def fresh : Node := booted nodeA threeNodes 1 ⟨0, none⟩

-- node-a leads term 1, and node-b answers for its first entry.
def firstTerm : List Action :=
  [.handle .electionTimeout, .handle (.voteResponse ⟨nodeB, ⟨1, true⟩⟩), .handle (.localEntriesAppended ⟨⟨1⟩, 1, 1⟩),
    .handle (.appendEntriesResponse ⟨⟨1⟩, nodeB, ⟨1, true, 1, 1, some nodeA⟩⟩)]

def afterFirstTerm : Node := (execWhen (machine nodeA threeNodes) fair fresh firstTerm).getD fresh

theorem first_term_earned :
    (afterFirstTerm.raft.role = .leader ∧ matchOf afterFirstTerm.raft.voters nodeB = 1) ∧ Earned afterFirstTerm :=
  ⟨by decide +kernel, progress_earned nodeA threeNodes afterFirstTerm
    (exec_when_reaches (machine nodeA threeNodes) _ fair (fun _ _ => id) firstTerm fresh fresh
      (.start _ ⟨1, ⟨0, none⟩, rfl⟩) (by decide +kernel))⟩

-- It leads term 2 as well, and still counts that answer.
def secondTerm : List Action := firstTerm ++ [.handle .electionTimeout, .handle (.voteResponse ⟨nodeC, ⟨2, true⟩⟩)]

def afterSecondTerm : Node := (exec (machine nodeA threeNodes) fresh secondTerm).getD fresh

theorem progress_outlives_term : ¬ ∀ node, Reachable (machine nodeA threeNodes) node → Earned node := by
  intro always
  have earned := always afterSecondTerm (exec_reaches (machine nodeA threeNodes) secondTerm fresh fresh
    (.start _ ⟨1, ⟨0, none⟩, rfl⟩) (by decide +kernel))
  have told := earned (by decide +kernel) nodeB (by decide +kernel) (by decide +kernel)
  exact absurd told (by decide +kernel)

end RaftLog.Leadership
