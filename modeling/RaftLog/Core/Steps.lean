import RaftLog.Core.Handlers

set_option autoImplicit false

namespace RaftLog

@[simp] theorem keys_assign (map : ProgressMap) (node : NodeId) (progress : Progress) :
    (assign map node progress).keys = map.keys := by
  unfold assign
  exact AList.keys_replace node progress map

theorem kreplace_cons (entry : Sigma fun _ : NodeId => Progress) (rest : List (Sigma fun _ : NodeId => Progress))
    (node : NodeId) (progress : Progress) :
    List.kreplace node progress (entry :: rest) =
      if node = entry.1 then ⟨node, progress⟩ :: rest else entry :: List.kreplace node progress rest := by
  by_cases here : node = entry.1
  · rw [if_pos here, List.kreplace]
    exact List.lookmap_cons_some _ _ (by simp [here])
  · rw [if_neg here, List.kreplace]
    exact List.lookmap_cons_none _ _ (by simp [here])

theorem dlookup_kreplace (entries : List (Sigma fun _ : NodeId => Progress)) (node key : NodeId) (progress : Progress) :
    (List.kreplace node progress entries).dlookup key =
      if key = node ∧ (entries.dlookup key).isSome then some progress else entries.dlookup key := by
  induction entries with
  | nil => simp [List.kreplace]
  | cons entry rest ih =>
      obtain ⟨name, old⟩ := entry
      rw [kreplace_cons]
      by_cases here : node = name
      · subst here
        rw [if_pos rfl]
        by_cases same : key = node
        · subst same
          simp
        · simp [same, List.dlookup_cons_ne]
      · rw [if_neg here]
        by_cases same : key = name
        · subst same
          simp [Ne.symm here]
        · rw [List.dlookup_cons_ne _ _ same, List.dlookup_cons_ne _ _ same]
          exact ih

theorem lookup_assign (map : ProgressMap) (node key : NodeId) (progress : Progress) (member : node ∈ map) :
    (assign map node progress).lookup key = if key = node then some progress else map.lookup key := by
  have found : (assign map node progress).lookup key = _ := dlookup_kreplace map.entries node key progress
  rw [found]
  by_cases same : key = node
  · subst same
    have present : (map.entries.dlookup key).isSome := AList.lookup_isSome.mpr member
    rw [if_pos ⟨rfl, present⟩, if_pos rfl]
  · rw [if_neg fun both => same both.1, if_neg same]
    rfl

-- Every event that neither casts, requests nor counts a vote.
def Event.quiet : Event → Bool
  | .electionTimeout | .requestVote _ | .voteResponse _ => false
  | _ => true

-- A rejected append of a later term: the branch that keeps the role and the vote.
def rejectsNewerAppend (raft : Raft) : Event → Bool
  | .appendEntries received => received.request.term > raft.currentTerm && prefixRejected raft received
  | _ => false

structure QuietStep (raft : Raft) (event : Event) (next : Raft) : Prop where
  sameId : next.id = raft.id
  sameVoters : next.voters.keys = raft.voters.keys
  termGrows : raft.currentTerm ≤ next.currentTerm
  voteKept : next.currentTerm = raft.currentTerm → next.votedFor = raft.votedFor
  voteCleared : raft.currentTerm < next.currentTerm → next.votedFor = none ∨ rejectsNewerAppend raft event = true ∧ next.votedFor = raft.votedFor
  candidateKept : next.role = .candidate → raft.role = .candidate ∧ next.grantedVotes = raft.grantedVotes
  leaderKept : next.role = .leader → raft.role = .leader ∧
    (next.currentTerm = raft.currentTerm ∨ rejectsNewerAppend raft event = true)

-- A step down to a term at least as high, whatever it does to the fields no vote depends on.
theorem follower_quiet (raft next : Raft) (event : Event) (sameId : next.id = raft.id)
    (sameVoters : next.voters.keys = raft.voters.keys) (role : next.role = .follower)
    (grows : raft.currentTerm ≤ next.currentTerm)
    (vote : next.votedFor = if next.currentTerm > raft.currentTerm then none else raft.votedFor) :
    QuietStep raft event next where
  sameId := sameId
  sameVoters := sameVoters
  termGrows := grows
  voteKept := by intro same; simpa [same] using vote
  voteCleared := by intro less; exact .inl (by simpa [less] using vote)
  candidateKept := by intro same; rw [role] at same; cases same
  leaderKept := by intro same; rw [role] at same; cases same

-- A step that leaves role, term, vote and tally alone.
theorem frame_quiet (raft next : Raft) (event : Event) (sameId : next.id = raft.id)
    (sameVoters : next.voters.keys = raft.voters.keys) (role : next.role = raft.role)
    (term : next.currentTerm = raft.currentTerm) (vote : next.votedFor = raft.votedFor)
    (votes : next.grantedVotes = raft.grantedVotes) : QuietStep raft event next where
  sameId := sameId
  sameVoters := sameVoters
  termGrows := Nat.le_of_eq term.symm
  voteKept := fun _ => vote
  voteCleared := by intro less; omega
  candidateKept := fun candidate => ⟨role ▸ candidate, votes⟩
  leaderKept := fun leader => ⟨role ▸ leader, .inl term⟩

-- The state a heartbeat that is not stale leaves, the commit index aside.
def followedRaft (raft : Raft) (request : HeartbeatRequest) : Raft :=
  { raft with
    currentTerm := request.term, votedFor := if request.term > raft.currentTerm then none else raft.votedFor
    role := .follower, grantedVotes := ∅, leaderId := some request.leaderId }

inductive HeartbeatStep (raft : Raft) (request : HeartbeatRequest) : Raft → AppendEntriesResponse → Prop where
  | stale (less : request.term < raft.currentTerm) : HeartbeatStep raft request raft (raft.appendResponse false)
  | mismatched (fresh : raft.currentTerm ≤ request.term) :
      HeartbeatStep raft request (followedRaft raft request) ((followedRaft raft request).appendResponse false)
  | matched (fresh : raft.currentTerm ≤ request.term) (index : request.logIndex = raft.lastLogIndex)
      (term : request.logTerm = raft.lastLogTerm) :
      HeartbeatStep raft request
        { followedRaft raft request with
          commitIndex := max raft.commitIndex (min request.leaderCommitIndex raft.lastLogIndex) }
        ((followedRaft raft request).appendResponse true)

-- The term and the vote move together or not at all.
theorem handle_fresh_heartbeat (raft : Raft) (request : HeartbeatRequest) (fresh : raft.currentTerm ≤ request.term) :
    handleHeartbeat raft request =
      if !(request.logIndex == raft.lastLogIndex && request.logTerm == raft.lastLogTerm) then
        .ok (followedRaft raft request, .ok (some (.sendHeartbeatResponse request.leaderId
          ((followedRaft raft request).appendResponse false) true none)))
      else if min request.leaderCommitIndex raft.lastLogIndex > raft.commitIndex then
        .ok ({ followedRaft raft request with commitIndex := min request.leaderCommitIndex raft.lastLogIndex },
          .ok (some (.sendHeartbeatResponse request.leaderId ((followedRaft raft request).appendResponse true) true
            (some (min request.leaderCommitIndex raft.lastLogIndex)))))
      else .ok (followedRaft raft request, .ok (some (.sendHeartbeatResponse request.leaderId
        ((followedRaft raft request).appendResponse true) true none))) := by
  unfold handleHeartbeat
  rw [if_neg (Nat.not_lt_of_le fresh)]
  by_cases newer : request.term > raft.currentTerm
  · simp only [followedRaft, newer, if_true]
    rfl
  · have same : request.term = raft.currentTerm := Nat.le_antisymm (Nat.le_of_not_lt newer) fresh
    simp only [followedRaft, same, gt_iff_lt, Nat.lt_irrefl, if_false]
    rfl

theorem heartbeat_step (raft next : Raft) (request : HeartbeatRequest) (result : Except Error (Option Effect))
    (handled : handleHeartbeat raft request = .ok (next, result)) :
    ∃ response reset applyThrough, HeartbeatStep raft request next response ∧
      result = .ok (some (.sendHeartbeatResponse request.leaderId response reset applyThrough)) := by
  by_cases stale : request.term < raft.currentTerm
  · rw [handleHeartbeat, if_pos stale] at handled
    cases handled
    exact ⟨_, _, _, .stale stale, rfl⟩
  have fresh := Nat.le_of_not_lt stale
  rw [handle_fresh_heartbeat raft request fresh] at handled
  split at handled
  · cases handled
    exact ⟨_, _, _, .mismatched fresh, rfl⟩
  rename_i matched
  have matched : request.logIndex = raft.lastLogIndex ∧ request.logTerm = raft.lastLogTerm := by simpa using matched
  have step := HeartbeatStep.matched fresh matched.1 matched.2
  split at handled
  · rename_i raised
    rw [Nat.max_eq_right (Nat.le_of_lt raised)] at step
    cases handled
    exact ⟨_, _, _, step, rfl⟩
  · rename_i kept
    rw [Nat.max_eq_left (Nat.le_of_not_lt kept)] at step
    cases handled
    exact ⟨_, _, _, step, rfl⟩

theorem heartbeat_quiet (raft next : Raft) (request : HeartbeatRequest) (result : Except Error (Option Effect))
    (handled : handleHeartbeat raft request = .ok (next, result)) : QuietStep raft (.heartbeat request) next := by
  obtain ⟨_, _, _, step, _⟩ := heartbeat_step raft next request result handled
  cases step with
  | stale => exact frame_quiet raft raft _ rfl rfl rfl rfl rfl rfl
  | mismatched fresh | matched fresh => exact follower_quiet raft _ _ rfl rfl rfl fresh rfl

-- The state an accepted append leaves before its entries are persisted.
def acceptedRaft (raft : Raft) (request : AppendEntriesRequest) : Raft :=
  { raft with
    votedFor := if request.term > raft.currentTerm then none else raft.votedFor
    role := .follower, currentTerm := request.term, leaderId := some request.leaderId }

def rejectedRaft (raft : Raft) (request : AppendEntriesRequest) : Raft :=
  { raft with currentTerm := request.term, leaderId := some request.leaderId }

def truncation (raft : Raft) (request : AppendEntriesRequest) : Option Nat :=
  if request.term > raft.currentTerm ∧ request.prevLogIndex < raft.lastLogIndex then some request.prevLogIndex else none

inductive AppendEntriesStep (raft : Raft) (received : ReceivedAppendEntries) :
    Raft → Except Error (Option Effect) → Prop where
  | stale (less : received.request.term < raft.currentTerm) :
      AppendEntriesStep raft received raft
        (.ok (some (.rejectAppendEntries received.operationId received.request.leaderId (raft.appendResponse false))))
  | rejected (fresh : raft.currentTerm ≤ received.request.term) (mismatch : prefixRejected raft received = true) :
      AppendEntriesStep raft received (rejectedRaft raft received.request)
        (.ok (some (.rejectAppendEntries received.operationId received.request.leaderId
          ((rejectedRaft raft received.request).appendResponse false))))
  | accepted (fresh : raft.currentTerm ≤ received.request.term) (matching : prefixRejected raft received = false)
      (response : AppendEntriesResponse) (success : response.success = true)
      (term : response.term = received.request.term) :
      AppendEntriesStep raft received (acceptedRaft raft received.request)
        (.ok (some (.persistEntries received.operationId received.request.leaderId response
          (truncation raft received.request) received.request.commitIndex)))

theorem append_entries_step (raft next : Raft) (received : ReceivedAppendEntries)
    (result : Except Error (Option Effect)) (handled : handleAppendEntries raft received = .ok (next, result)) :
    AppendEntriesStep raft received next result := by
  unfold handleAppendEntries at handled
  dsimp only at handled
  by_cases stale : received.request.term < raft.currentTerm
  · rw [if_pos stale] at handled
    cases handled
    exact .stale stale
  have fresh := Nat.le_of_not_lt stale
  rw [if_neg stale] at handled
  by_cases rejected : prefixRejected raft received = true
  · rw [if_pos rejected] at handled
    cases handled
    exact .rejected fresh rejected
  rw [if_neg rejected] at handled
  have matching : prefixRejected raft received = false := by simpa using rejected
  by_cases cut : received.request.term > raft.currentTerm ∧ received.request.prevLogIndex < raft.lastLogIndex
  · rw [if_pos cut] at handled
    cases handled
    have step := AppendEntriesStep.accepted fresh matching
      ⟨received.request.term, true, received.request.prevLogIndex, received.request.prevLogTerm,
        some received.request.leaderId⟩ rfl rfl
    simpa only [acceptedRaft, truncation, if_pos cut, if_pos cut.1] using step
  · rw [if_neg cut] at handled
    cases handled
    have step := AppendEntriesStep.accepted fresh matching
      ⟨received.request.term, true, raft.lastLogIndex, raft.lastLogTerm, some received.request.leaderId⟩ rfl rfl
    by_cases newer : received.request.term > raft.currentTerm
    · simpa only [acceptedRaft, truncation, if_neg cut, if_pos newer, Raft.appendResponse] using step
    · simpa only [acceptedRaft, truncation, if_neg cut, if_neg newer, Raft.appendResponse] using step

theorem append_entries_quiet (raft next : Raft) (received : ReceivedAppendEntries)
    (result : Except Error (Option Effect)) (handled : handleAppendEntries raft received = .ok (next, result)) :
    QuietStep raft (.appendEntries received) next := by
  cases append_entries_step raft next received result handled with
  | stale => exact frame_quiet raft raft _ rfl rfl rfl rfl rfl rfl
  | rejected fresh mismatch =>
    have reject : raft.currentTerm < received.request.term →
        rejectsNewerAppend raft (.appendEntries received) = true := by
      intro newer
      simp [rejectsNewerAppend, newer, mismatch]
    exact {
      sameId := rfl
      sameVoters := rfl
      termGrows := fresh
      voteKept := fun _ => rfl
      voteCleared := fun newer => .inr ⟨reject newer, rfl⟩
      candidateKept := fun candidate => ⟨candidate, rfl⟩
      leaderKept := fun leader => ⟨leader, (Nat.eq_or_lt_of_le fresh).imp Eq.symm reject⟩ }
  | accepted fresh => exact follower_quiet raft _ _ rfl rfl rfl fresh rfl

theorem add_u64_ok (left right sum : Nat) (result : addU64 left right = .ok sum) :
    sum = left + right ∧ left + right ≤ u64Max := by
  unfold addU64 at result
  split at result
  · rename_i fits
    cases result
    exact ⟨rfl, fits⟩
  · cases result

def appendedRaft (raft : Raft) (entry : LocalEntry) : Raft :=
  { raft with
    lastLogIndex := entry.index, lastLogTerm := entry.term
    voters := assign raft.voters raft.id ⟨entry.index + 1, entry.index⟩ }

inductive LocalEntryStep (raft : Raft) (entry : LocalEntry) : Raft → Except Error (Option Effect) → Prop where
  | notLeader (role : raft.role ≠ .leader) : LocalEntryStep raft entry raft (.error (.notLeader raft.leaderId))
  | replicates (role : raft.role = .leader) (others : raft.replicationTargets.isEmpty = false) :
      LocalEntryStep raft entry (appendedRaft raft entry)
        (.ok (some (.sendAppendEntries entry.operationId raft.replicationTargets)))
  | alone (role : raft.role = .leader) (alone : raft.replicationTargets.isEmpty = true) :
      LocalEntryStep raft entry { appendedRaft raft entry with commitIndex := entry.index }
        (.ok (some (.applyCommitted entry.operationId entry.index)))

theorem local_entry_step (raft next : Raft) (entry : LocalEntry) (result : Except Error (Option Effect))
    (handled : handleLocalEntryAppended raft entry = .ok (next, result)) : LocalEntryStep raft entry next result := by
  unfold handleLocalEntryAppended at handled
  dsimp only at handled
  by_cases role : raft.role = .leader
  case neg =>
    rw [if_pos role] at handled
    cases handled
    exact .notLeader role
  rw [if_neg (not_not.mpr role)] at handled
  split at handled
  · cases handled
  cases sum : addU64 entry.index 1 with
  | error => simp [sum, bind, Except.bind] at handled
  | ok nextIndex =>
      obtain ⟨rfl, _⟩ := add_u64_ok entry.index 1 nextIndex sum
      simp only [sum, bind, Except.bind, pure, Except.pure] at handled
      split at handled
      · rename_i alone
        cases handled
        exact .alone role alone
      · rename_i others
        cases handled
        exact .replicates role (by simpa using others)

theorem local_entry_quiet (raft next : Raft) (entry : LocalEntry) (result : Except Error (Option Effect))
    (handled : handleLocalEntryAppended raft entry = .ok (next, result)) :
    QuietStep raft (.localEntriesAppended entry) next := by
  cases local_entry_step raft next entry result handled with
  | notLeader => exact frame_quiet raft raft _ rfl rfl rfl rfl rfl rfl
  | replicates | alone => exact frame_quiet raft _ _ rfl (keys_assign _ _ _) rfl rfl rfl rfl

inductive HeartbeatResponseStep (raft : Raft) (received : ReceivedHeartbeatResponse) : Raft → Prop where
  | stepsDown (newer : received.response.term > raft.currentTerm) :
      HeartbeatResponseStep raft received
        { raft with
          currentTerm := received.response.term, role := .follower, votedFor := none,
          leaderId := received.response.leaderId, grantedVotes := ∅ }
  | ignored : HeartbeatResponseStep raft received raft
  | voter (role : raft.role = .leader) (term : received.response.term = raft.currentTerm) (progress : Progress)
      (found : raft.voters.lookup received.sender = some progress) :
      HeartbeatResponseStep raft received
        { raft with
          voters := assign raft.voters received.sender (heartbeatProgress raft.lastLogIndex progress received.response) }
  | learner (learner : received.sender ∈ raft.learners) (learners : ProgressMap) :
      HeartbeatResponseStep raft received { raft with learners := learners }

theorem heartbeat_response_step (raft next : Raft) (received : ReceivedHeartbeatResponse)
    (result : Except Error (Option Effect)) (handled : handleHeartbeatResponse raft received = .ok (next, result)) :
    HeartbeatResponseStep raft received next ∧ ∀ effect, result ≠ .ok (some effect) := by
  unfold handleHeartbeatResponse at handled
  dsimp only at handled
  split at handled
  · rename_i newer
    cases handled
    exact ⟨.stepsDown newer, by simp⟩
  rename_i notNewer
  split at handled
  · cases handled
    exact ⟨.ignored, by simp⟩
  rename_i leader
  split at handled
  · cases handled
    exact ⟨.ignored, by simp⟩
  rename_i notOlder
  split at handled
  · rename_i progress found
    cases handled
    exact ⟨.voter (not_not.mp leader) (by omega) progress found, by simp⟩
  split at handled
  · rename_i progress found
    cases handled
    exact ⟨.learner (AList.lookup_isSome.mp (by rw [found]; rfl)) _, by simp⟩
  · cases handled
    exact ⟨.ignored, by simp⟩

theorem heartbeat_response_quiet (raft next : Raft) (received : ReceivedHeartbeatResponse)
    (result : Except Error (Option Effect)) (handled : handleHeartbeatResponse raft received = .ok (next, result)) :
    QuietStep raft (.heartbeatResponse received) next := by
  cases (heartbeat_response_step raft next received result handled).1 with
  | stepsDown newer => exact follower_quiet raft _ _ rfl rfl rfl (Nat.le_of_lt newer) (by simp [newer])
  | ignored => exact frame_quiet raft raft _ rfl rfl rfl rfl rfl rfl
  | voter => exact frame_quiet raft _ _ rfl (keys_assign _ _ _) rfl rfl rfl rfl
  | learner => exact frame_quiet raft _ _ rfl rfl rfl rfl rfl rfl

def acknowledgedRaft (raft : Raft) (received : ReceivedAppendEntriesResponse) : Raft :=
  { raft with
    voters := assign raft.voters received.sender ⟨received.response.lastLogIndex + 1, received.response.lastLogIndex⟩ }

-- The branch in which a response counts towards the majority of the leader's whole log.
structure Counts (raft : Raft) (received : ReceivedAppendEntriesResponse) : Prop where
  leader : raft.role = .leader
  term : received.response.term ≤ raft.currentTerm
  last : received.response.lastLogIndex = raft.lastLogIndex
  notLearner : received.sender ∉ raft.learners
  voter : received.sender ∈ raft.voters

inductive AppendResponseStep (raft : Raft) (received : ReceivedAppendEntriesResponse) :
    Raft → Except Error (Option Effect) → Prop where
  | notLeader (role : raft.role ≠ .leader) :
      AppendResponseStep raft received raft (.error (.notLeader received.response.leaderId))
  | stepsDown (role : raft.role = .leader) (newer : received.response.term > raft.currentTerm) :
      AppendResponseStep raft received
        { raft with
          currentTerm := received.response.term, leaderId := received.response.leaderId, role := .follower,
          votedFor := none, grantedVotes := ∅ }
        (.error (.notLeader received.response.leaderId))
  | retries (role : raft.role = .leader) (term : received.response.term ≤ raft.currentTerm)
      (behind : received.response.lastLogIndex < raft.lastLogIndex) (rejection : received.response.success = false) :
      AppendResponseStep raft received raft (.ok (some (raft.retry received)))
  | learner (role : raft.role = .leader) (term : received.response.term ≤ raft.currentTerm)
      (within : received.response.lastLogIndex ≤ raft.lastLogIndex) (learner : received.sender ∈ raft.learners)
      (learners : ProgressMap) (effect : Option Effect)
      (retry : effect = none ∨ effect = some (raft.retry received) ∧ received.response.lastLogIndex < raft.lastLogIndex) :
      AppendResponseStep raft received { raft with learners := learners } (.ok effect)
  | behind (role : raft.role = .leader) (term : received.response.term ≤ raft.currentTerm)
      (behind : received.response.lastLogIndex < raft.lastLogIndex) (accepted : received.response.success = true)
      (notLearner : received.sender ∉ raft.learners) (voter : received.sender ∈ raft.voters) :
      AppendResponseStep raft received (acknowledgedRaft raft received) (.ok (some (raft.retry received)))
  | commits (counts : Counts raft received)
      (most : (acknowledgedRaft raft received).caughtUp > raft.voters.keys.length / 2)
      (fresh : raft.commitIndex < raft.lastLogIndex) :
      AppendResponseStep raft received { acknowledgedRaft raft received with commitIndex := raft.lastLogIndex }
        (.ok (some (.applyCommitted received.operationId raft.lastLogIndex)))
  | counted (counts : Counts raft received)
      (few : ¬ ((acknowledgedRaft raft received).caughtUp > raft.voters.keys.length / 2 ∧
        raft.commitIndex < raft.lastLogIndex)) :
      AppendResponseStep raft received (acknowledgedRaft raft received) (.ok none)
  | stranger (role : raft.role = .leader) (term : received.response.term ≤ raft.currentTerm)
      (notVoter : received.sender ∉ raft.voters) : AppendResponseStep raft received raft (.ok none)

theorem append_response_step (raft next : Raft) (received : ReceivedAppendEntriesResponse)
    (result : Except Error (Option Effect))
    (handled : handleAppendEntriesResponse raft received = .ok (next, result)) :
    AppendResponseStep raft received next result := by
  unfold handleAppendEntriesResponse at handled
  dsimp only at handled
  by_cases role : raft.role = .leader
  case neg =>
    rw [if_pos role] at handled
    cases handled
    exact .notLeader role
  rw [if_neg (not_not.mpr role)] at handled
  by_cases newer : received.response.term > raft.currentTerm
  · rw [if_pos newer] at handled
    cases handled
    exact .stepsDown role newer
  rw [if_neg newer] at handled
  have term := Nat.le_of_not_lt newer
  split at handled
  · cases handled
  rename_i notAhead
  split at handled
  · rename_i behind
    cases handled
    exact .retries role term behind.2 behind.1
  rename_i notBehind
  split at handled
  · cases handled
  rename_i within
  have within := Nat.le_of_not_lt within
  have accepted : received.response.lastLogIndex < raft.lastLogIndex → received.response.success = true := by
    intro less
    by_contra rejection
    exact notBehind ⟨by simpa using rejection, less⟩
  by_cases learner : received.sender ∈ raft.learners
  · rw [if_pos learner] at handled
    cases sum : addU64 received.response.lastLogIndex 1 with
    | error => simp [sum, bind, Except.bind] at handled
    | ok nextIndex =>
        simp only [sum, bind, Except.bind, pure, Except.pure] at handled
        split at handled
        · rename_i less
          cases handled
          exact .learner role term within learner _ _ (.inr ⟨rfl, less⟩)
        · cases handled
          exact .learner role term within learner _ _ (.inl rfl)
  rw [if_neg learner] at handled
  by_cases voter : received.sender ∈ raft.voters
  case neg =>
    rw [if_neg voter] at handled
    cases handled
    exact .stranger role term voter
  rw [if_pos voter] at handled
  cases sum : addU64 received.response.lastLogIndex 1 with
  | error => simp [sum, bind, Except.bind] at handled
  | ok nextIndex =>
      obtain ⟨rfl, _⟩ := add_u64_ok _ _ _ sum
      simp only [sum, bind, Except.bind, pure, Except.pure] at handled
      split at handled
      · rename_i less
        cases handled
        exact .behind role term less (accepted less) learner voter
      · rename_i reached
        have counts : Counts raft received := ⟨role, term, Nat.le_antisymm within (Nat.le_of_not_lt reached), learner, voter⟩
        split at handled
        · rename_i most
          cases handled
          exact .commits counts (by simpa [acknowledgedRaft] using most.1) most.2
        · rename_i few
          cases handled
          exact .counted counts (by simpa [acknowledgedRaft] using few)

theorem append_response_quiet (raft next : Raft) (received : ReceivedAppendEntriesResponse)
    (result : Except Error (Option Effect))
    (handled : handleAppendEntriesResponse raft received = .ok (next, result)) :
    QuietStep raft (.appendEntriesResponse received) next := by
  cases append_response_step raft next received result handled with
  | notLeader | retries | stranger => exact frame_quiet raft raft _ rfl rfl rfl rfl rfl rfl
  | stepsDown _ newer => exact follower_quiet raft _ _ rfl rfl rfl (Nat.le_of_lt newer) (by simp [newer])
  | learner => exact frame_quiet raft _ _ rfl rfl rfl rfl rfl rfl
  | behind | commits | counted => exact frame_quiet raft _ _ rfl (keys_assign _ _ _) rfl rfl rfl rfl

-- Whatever a timer, the log or a client brings by itself, it moves the indexes at most.
def Event.plain : Event → Bool
  | .heartbeatTimeout | .entriesPersisted _ | .entriesApplied _ | .write _ => true
  | _ => false

theorem plain_step (raft next : Raft) (event : Event) (result : Except Error (Option Effect)) (plain : event.plain = true)
    (handled : handle raft event = .ok (next, result)) :
    ∃ lastApplied commitIndex lastLogIndex lastLogTerm, next = { raft with
      lastApplied := lastApplied, commitIndex := commitIndex, lastLogIndex := lastLogIndex, lastLogTerm := lastLogTerm } := by
  cases event with
  | heartbeatTimeout | entriesPersisted | entriesApplied | write =>
      simp only [handle, handleHeartbeatTimeout, handleEntriesPersisted, handleEntriesApplied, handleWrite] at handled
      split at handled <;> cases handled <;> exact ⟨_, _, _, _, rfl⟩
  | _ => cases plain

theorem handle_quiet (raft next : Raft) (event : Event) (result : Except Error (Option Effect))
    (quiet : event.quiet = true) (handled : handle raft event = .ok (next, result)) : QuietStep raft event next := by
  cases event with
  | electionTimeout => cases quiet
  | requestVote => cases quiet
  | voteResponse => cases quiet
  | heartbeat request => exact heartbeat_quiet raft next request result handled
  | appendEntries received => exact append_entries_quiet raft next received result handled
  | appendEntriesResponse received => exact append_response_quiet raft next received result handled
  | heartbeatResponse received => exact heartbeat_response_quiet raft next received result handled
  | localEntriesAppended entry => exact local_entry_quiet raft next entry result handled
  | heartbeatTimeout | entriesPersisted | entriesApplied | write =>
      obtain ⟨_, _, _, _, rfl⟩ := plain_step raft next _ result rfl handled
      exact frame_quiet raft _ _ rfl rfl rfl rfl rfl rfl

-- The effects that ask for a vote or answer such a request.
def castsVote : Except Error (Option Effect) → Bool
  | .ok (some (.sendRequestVotes ..)) | .ok (some (.sendRequestVoteResponse ..)) => true
  | _ => false

theorem quiet_casts_no_vote (raft next : Raft) (event : Event) (result : Except Error (Option Effect))
    (quiet : event.quiet = true) (handled : handle raft event = .ok (next, result)) : castsVote result = false := by
  cases event with
  | electionTimeout | requestVote | voteResponse => cases quiet
  | appendEntries received => cases append_entries_step raft next received result handled <;> rfl
  | appendEntriesResponse received =>
      cases append_response_step raft next received result handled with
      | learner _ _ _ _ _ effect retry => rcases retry with rfl | ⟨rfl, _⟩ <;> rfl
      | notLeader | stepsDown | retries | behind | commits | counted | stranger => rfl
  | localEntriesAppended entry => cases local_entry_step raft next entry result handled <;> rfl
  | heartbeatTimeout | entriesPersisted | entriesApplied | write =>
      simp only [handle, handleHeartbeatTimeout, handleEntriesPersisted, handleEntriesApplied, handleWrite] at handled
      split at handled <;> cases handled <;> rfl
  | heartbeat request =>
      obtain ⟨_, _, _, _, rfl⟩ := heartbeat_step raft next request result handled
      rfl
  | heartbeatResponse received =>
      have idle := (heartbeat_response_step raft next received result handled).2
      unfold castsVote
      split
      · exact absurd rfl (idle _)
      · exact absurd rfl (idle _)
      · rfl

-- The state a timed-out node enters: a candidate of the next term with its own vote.
def campaignRaft (raft : Raft) : Raft :=
  { raft with
    currentTerm := raft.currentTerm + 1, votedFor := some raft.id, grantedVotes := {raft.id}, role := .candidate }

theorem election_timeout_step (raft next : Raft) (result : Except Error (Option Effect))
    (handled : handleElectionTimeout raft = .ok (next, result)) :
    next = campaignRaft raft ∧ result = .ok (some (.sendRequestVotes next.hardState next.peers
      ⟨next.currentTerm, next.id, next.lastLogIndex, next.lastLogTerm⟩)) := by
  unfold handleElectionTimeout at handled
  cases sum : addU64 raft.currentTerm 1 with
  | error => simp [sum, bind, Except.bind] at handled
  | ok term =>
      obtain ⟨rfl, _⟩ := add_u64_ok _ _ _ sum
      simp only [sum, bind, Except.bind, pure, Except.pure] at handled
      cases handled
      exact ⟨rfl, rfl⟩

structure RequestVoteStep (raft : Raft) (request : VoteRequest) (next : Raft) (hardState : Option State)
    (granted : Bool) : Prop where
  frame : next = { raft with
    currentTerm := next.currentTerm, votedFor := next.votedFor, role := next.role, leaderId := next.leaderId,
    grantedVotes := next.grantedVotes }
  term : next.currentTerm = max raft.currentTerm request.term
  kept : next.currentTerm = raft.currentTerm → next.role = raft.role ∧ next.grantedVotes = raft.grantedVotes ∧
    (raft.votedFor ≠ none → next.votedFor = raft.votedFor)
  newer : raft.currentTerm < next.currentTerm → next.role = .follower
  grant : granted = true → request.term = next.currentTerm ∧ next.votedFor = some request.candidateId ∧
    candidateLogIsUpToDate raft request = true
  unsaved : hardState = none → next.currentTerm = raft.currentTerm ∧ next.votedFor = raft.votedFor
  saved : ∀ state, hardState = some state → state = next.hardState

theorem request_vote_step (raft next : Raft) (request : VoteRequest) (result : Except Error (Option Effect))
    (handled : handleRequestVote raft request = .ok (next, result)) :
    ∃ hardState granted, RequestVoteStep raft request next hardState granted ∧
      result = .ok (some (.sendRequestVoteResponse hardState request.candidateId ⟨next.currentTerm, granted⟩)) := by
  unfold handleRequestVote at handled
  dsimp only at handled
  cases handled
  refine ⟨_, _, ?_, rfl⟩
  by_cases newer : request.term > raft.currentTerm
  · simp only [newer, decide_true, if_true, Bool.true_or]
    split
    · rename_i records
      exact ⟨rfl, by simp; omega, by intro same; dsimp only at same; omega, fun _ => rfl,
        fun granted => ⟨rfl, rfl, by simp_all [candidateLogIsUpToDate]⟩, by simp, by simp⟩
    · rename_i silent
      refine ⟨rfl, by simp; omega, by intro same; dsimp only at same; omega, fun _ => rfl, ?_, by simp, by simp⟩
      intro granted
      simp_all
  · have notNewer : decide (request.term > raft.currentTerm) = false := by simpa using newer
    simp only [notNewer, Bool.false_eq_true, if_false, Bool.false_or]
    split
    · rename_i records
      refine ⟨rfl, by simp; omega, ?_, by simp, ?_, by simp, by simp⟩
      · intro _
        refine ⟨rfl, rfl, ?_⟩
        intro voted
        simp only [Bool.and_eq_true, Bool.or_eq_true, beq_iff_eq, Option.isNone_iff_eq_none, bne_iff_ne] at records
        obtain ⟨⟨_, absent | same⟩, different⟩ := records
        · exact absurd absent voted
        · exact absurd same different
      · intro granted
        simp only [Bool.and_eq_true, beq_iff_eq] at granted
        exact ⟨granted.1.1, rfl, granted.1.2⟩
    · rename_i silent
      refine ⟨rfl, by simp; omega, fun _ => ⟨rfl, rfl, fun _ => rfl⟩, by simp, ?_, by simp, by simp⟩
      intro granted
      simp_all

-- The branch in which a response adds a vote to the tally.
structure CountsVote (raft : Raft) (received : ReceivedVoteResponse) : Prop where
  candidate : raft.role = .candidate
  term : received.response.term = raft.currentTerm
  voter : received.sender ∈ raft.voters
  granted : received.response.voteGranted = true
  fresh : received.sender ∉ raft.grantedVotes

def talliedRaft (raft : Raft) (received : ReceivedVoteResponse) : Raft :=
  { raft with grantedVotes := insert received.sender raft.grantedVotes }

def electedRaft (raft : Raft) (received : ReceivedVoteResponse) : Raft :=
  { talliedRaft raft received with role := .leader }

inductive VoteResponseStep (raft : Raft) (received : ReceivedVoteResponse) :
    Raft → Except Error (Option Effect) → Prop where
  | stepsDown (newer : received.response.term > raft.currentTerm) :
      VoteResponseStep raft received
        { raft with
          currentTerm := received.response.term, role := .follower, votedFor := none, leaderId := none,
          grantedVotes := ∅ } (.ok none)
  | notCandidate (role : raft.role ≠ .candidate) : VoteResponseStep raft received raft (.error .notCandidate)
  | ignored : VoteResponseStep raft received raft (.ok none)
  | tallied (counts : CountsVote raft received)
      (few : (insert received.sender raft.grantedVotes).card ≤ raft.voters.keys.length / 2) :
      VoteResponseStep raft received (talliedRaft raft received) (.ok none)
  | elected (counts : CountsVote raft received)
      (most : (insert received.sender raft.grantedVotes).card > raft.voters.keys.length / 2) :
      VoteResponseStep raft received (electedRaft raft received)
        (.ok (some (.sendHeartbeat raft.peers raft.heartbeatRequest)))

theorem vote_response_step (raft next : Raft) (received : ReceivedVoteResponse)
    (result : Except Error (Option Effect)) (handled : handleVoteResponse raft received = .ok (next, result)) :
    VoteResponseStep raft received next result := by
  unfold handleVoteResponse at handled
  dsimp only at handled
  by_cases newer : received.response.term > raft.currentTerm
  · rw [if_pos newer] at handled
    cases handled
    exact .stepsDown newer
  rw [if_neg newer] at handled
  by_cases candidate : raft.role = .candidate
  case neg =>
    rw [if_pos candidate] at handled
    cases handled
    exact .notCandidate candidate
  rw [if_neg (not_not.mpr candidate)] at handled
  split at handled
  · cases handled
    exact .ignored
  rename_i counted
  push Not at counted
  obtain ⟨notOlder, voter, granted, fresh⟩ := counted
  have counts : CountsVote raft received :=
    ⟨candidate, Nat.le_antisymm (Nat.le_of_not_lt newer) notOlder, voter, by simpa using granted, fresh⟩
  split at handled
  · rename_i most
    cases handled
    exact .elected counts most
  · rename_i few
    cases handled
    exact .tallied counts (Nat.le_of_not_lt few)

end RaftLog
