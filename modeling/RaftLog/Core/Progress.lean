import RaftLog.Core.Responses
import RaftLog.Core.Runs

set_option autoImplicit false

namespace RaftLog.Progress

open Lib

-- A next_index is a u64 beyond the match_index, which the leader's log reaches.
structure Placed (lastLogIndex : Nat) (progress : RaftLog.Progress) : Prop where
  below : progress.matchIndex < progress.nextIndex
  fits : progress.nextIndex ≤ u64Max
  within : progress.matchIndex ≤ lastLogIndex

-- The entries of the peers, which are all nodes but the leader.
def AllPlaced (id : NodeId) (lastLogIndex : Nat) (map : ProgressMap) : Prop :=
  ∀ peer progress, peer ≠ id → map.lookup peer = some progress → Placed lastLogIndex progress

def NoneLowered (id : NodeId) (map next : ProgressMap) : Prop := ∀ peer, peer ≠ id → matchOf map peer ≤ matchOf next peer

-- A leader and the leader it was one event earlier.
structure Watch where
  before : Raft
  raft : Raft

structure Sound (watch : Watch) : Prop where
  voters : AllPlaced watch.raft.id watch.raft.lastLogIndex watch.raft.voters
  learners : AllPlaced watch.raft.id watch.raft.lastLogIndex watch.raft.learners
  votersKept : NoneLowered watch.raft.id watch.before.voters watch.raft.voters
  learnersKept : NoneLowered watch.raft.id watch.before.learners watch.raft.learners

-- The run ends with the leadership.
def step (watch : Watch) (event : Event) : Option Watch :=
  (turn watch.raft event).bind fun next =>
    if next.role = .leader ∧ next.currentTerm = watch.raft.currentTerm then some ⟨watch.raft, next⟩ else none

-- Any leader whose peers are placed to begin with.
def machine : Machine Watch Event where
  start watch := watch.before = watch.raft ∧ watch.raft.role = .leader ∧
    AllPlaced watch.raft.id watch.raft.lastLogIndex watch.raft.voters ∧
    AllPlaced watch.raft.id watch.raft.lastLogIndex watch.raft.learners
  step := step

def heartbeatKeeps (lastLogIndex : Nat) (progress : RaftLog.Progress) (response : AppendEntriesResponse) : Bool :=
  if response.success then min response.lastLogIndex lastLogIndex < u64Max
  else progress.matchIndex + 1 < progress.nextIndex && progress.matchIndex ≤ response.lastLogIndex

def progressOf (raft : Raft) (sender : NodeId) : Option RaftLog.Progress :=
  (raft.voters.lookup sender).or (raft.learners.lookup sender)

-- The index is not below what a peer is known to have.
def reachesPeers (raft : Raft) (index : Nat) : Bool :=
  (raft.voters.entries ++ raft.learners.entries).all fun entry => entry.1 = raft.id || entry.2.matchIndex ≤ index

-- No answer takes back what an earlier one has said, and the log is not cut behind it.
def orderly (raft : Raft) : Event → Bool
  | .heartbeatResponse received => received.response.term < raft.currentTerm || received.sender = raft.id ||
      (progressOf raft received.sender).all fun progress => heartbeatKeeps raft.lastLogIndex progress received.response
  | .appendEntriesResponse received =>
      !received.response.success && received.response.lastLogIndex < raft.lastLogIndex || received.sender = raft.id ||
        (if received.sender ∈ raft.learners then matchOf raft.learners received.sender
        else matchOf raft.voters received.sender) ≤ received.response.lastLogIndex
  | .localEntriesAppended entry => reachesPeers raft entry.index
  | .entriesPersisted entries => reachesPeers raft entries.lastLogIndex
  | _ => true

-- One assignment is right exactly when what is assigned is, unless it is the leader's own.
theorem assign_kept_iff (id node : NodeId) (lastLogIndex : Nat) (map : ProgressMap) (progress : RaftLog.Progress)
    (member : node ∈ map) (placed : AllPlaced id lastLogIndex map) :
    AllPlaced id lastLogIndex (assign map node progress) ∧ NoneLowered id map (assign map node progress) ↔
      (node ≠ id → Placed lastLogIndex progress ∧ matchOf map node ≤ progress.matchIndex) := by
  constructor
  · rintro ⟨all, kept⟩ other
    have here := kept node other
    rw [match_of_assign map node node progress member, if_pos rfl] at here
    exact ⟨all node progress other (by rw [lookup_assign map node node progress member, if_pos rfl]), here⟩
  · intro here
    constructor
    · intro peer found other assigned
      rw [lookup_assign map node peer progress member] at assigned
      by_cases same : peer = node
      · subst same
        rw [if_pos rfl] at assigned
        cases assigned
        exact (here other).1
      · rw [if_neg same] at assigned
        exact placed peer found other assigned
    · intro peer other
      rw [match_of_assign map node peer progress member]
      by_cases same : peer = node
      · subst same
        rw [if_pos rfl]
        exact (here other).2
      · rw [if_neg same]

theorem none_lowered_refl (id : NodeId) (map : ProgressMap) : NoneLowered id map map := fun _ _ => le_rfl

theorem reaches_peers_iff (raft : Raft) (index : Nat) : reachesPeers raft index = true ↔
    (∀ peer progress, peer ≠ raft.id → raft.voters.lookup peer = some progress → progress.matchIndex ≤ index) ∧
      ∀ peer progress, peer ≠ raft.id → raft.learners.lookup peer = some progress → progress.matchIndex ≤ index := by
  have all : ∀ map : ProgressMap, (map.entries.all fun entry => entry.1 = raft.id || entry.2.matchIndex ≤ index) = true ↔
      ∀ peer progress, peer ≠ raft.id → map.lookup peer = some progress → progress.matchIndex ≤ index := by
    intro map
    rw [List.all_eq_true]
    constructor
    · intro entries peer progress other found
      have here := entries ⟨peer, progress⟩ ((List.mem_dlookup_iff map.nodupKeys).mp found)
      simpa [other] using here
    · intro lookups entry member
      have found : map.lookup entry.1 = some entry.2 := (List.mem_dlookup_iff map.nodupKeys).mpr member
      by_cases own : entry.1 = raft.id
      · simp [own]
      · simpa [own] using lookups entry.1 entry.2 own found
  rw [reachesPeers, List.all_append, Bool.and_eq_true, all, all]

theorem heartbeat_keeps_iff (lastLogIndex : Nat) (progress : RaftLog.Progress) (response : AppendEntriesResponse)
    (placed : Placed lastLogIndex progress) :
    heartbeatKeeps lastLogIndex progress response = true ↔
      Placed lastLogIndex (heartbeatProgress lastLogIndex progress response) ∧
        progress.matchIndex ≤ (heartbeatProgress lastLogIndex progress response).matchIndex := by
  obtain ⟨below, fits, within⟩ := placed
  cases success : response.success with
  | true =>
      simp only [heartbeatKeeps, heartbeatProgress, success, if_true, decide_eq_true_eq, saturatingAdd]
      generalize top : u64Max = most at *
      constructor
      · intro less
        exact ⟨⟨by dsimp only; omega, by dsimp only; omega, by dsimp only; omega⟩, Nat.le_max_left _ _⟩
      · rintro ⟨⟨less, _, _⟩, _⟩
        dsimp only at less
        omega
  | false =>
      simp only [heartbeatKeeps, heartbeatProgress, success, Bool.false_eq_true, if_false, Bool.and_eq_true, decide_eq_true_eq,
        saturatingAdd]
      generalize top : u64Max = most at *
      constructor
      · rintro ⟨less, reported⟩
        exact ⟨⟨by dsimp only; omega, by dsimp only; omega, within⟩, le_rfl⟩
      · rintro ⟨⟨less, _, _⟩, _⟩
        dsimp only at less
        omega

theorem sound_iff (raft next : Raft) (sameId : next.id = raft.id) (sameLast : next.lastLogIndex = raft.lastLogIndex) :
    Sound ⟨raft, next⟩ ↔
      (AllPlaced raft.id raft.lastLogIndex next.voters ∧ NoneLowered raft.id raft.voters next.voters) ∧
        AllPlaced raft.id raft.lastLogIndex next.learners ∧ NoneLowered raft.id raft.learners next.learners := by
  rw [← sameId, ← sameLast]
  constructor
  · intro sound
    exact ⟨⟨sound.voters, sound.votersKept⟩, sound.learners, sound.learnersKept⟩
  · rintro ⟨⟨voters, votersKept⟩, learners, learnersKept⟩
    exact ⟨voters, learners, votersKept, learnersKept⟩

-- Whatever is reported lies within the leader's log.
theorem reported_placed (raft : Raft) (received : ReceivedAppendEntriesResponse)
    (within : received.response.lastLogIndex ≤ raft.lastLogIndex) (fits : received.response.lastLogIndex < u64Max) :
    Placed raft.lastLogIndex (reported received) := ⟨Nat.lt_succ_self _, fits, within⟩

theorem orderly_considered (raft : Raft) (received : ReceivedAppendEntriesResponse)
    (considered : received.response.success = true ∨ received.response.lastLogIndex = raft.lastLogIndex) :
    orderly raft (.appendEntriesResponse received) = true ↔
      (received.sender ≠ raft.id → (if received.sender ∈ raft.learners then matchOf raft.learners received.sender
        else matchOf raft.voters received.sender) ≤ received.response.lastLogIndex) := by
  have counted : (!received.response.success && decide (received.response.lastLogIndex < raft.lastLogIndex)) = false := by
    rcases considered with success | same
    · simp [success]
    · simp [same]
  rw [orderly, counted, Bool.false_or, Bool.or_eq_true, decide_eq_true_eq, decide_eq_true_eq, or_iff_not_imp_left]

section Step

variable (raft next : Raft) (voters : AllPlaced raft.id raft.lastLogIndex raft.voters)
  (learners : AllPlaced raft.id raft.lastLogIndex raft.learners)

include voters learners

theorem unmoved_sound (sameId : next.id = raft.id) (sameVoters : next.voters = raft.voters)
    (sameLearners : next.learners = raft.learners) (sameLast : next.lastLogIndex = raft.lastLogIndex) : Sound ⟨raft, next⟩ := by
  rw [sound_iff raft next sameId sameLast, sameVoters, sameLearners]
  exact ⟨⟨voters, none_lowered_refl _ _⟩, learners, none_lowered_refl _ _⟩

theorem voter_moved_iff (node : NodeId) (progress : RaftLog.Progress) (member : node ∈ raft.voters)
    (sameId : next.id = raft.id) (moved : next.voters = assign raft.voters node progress)
    (sameLearners : next.learners = raft.learners) (sameLast : next.lastLogIndex = raft.lastLogIndex) :
    Sound ⟨raft, next⟩ ↔
      (node ≠ raft.id → Placed raft.lastLogIndex progress ∧ matchOf raft.voters node ≤ progress.matchIndex) := by
  rw [sound_iff raft next sameId sameLast, moved, sameLearners,
    assign_kept_iff raft.id node raft.lastLogIndex raft.voters progress member voters]
  exact and_iff_left ⟨learners, none_lowered_refl _ _⟩

theorem learner_moved_iff (node : NodeId) (progress : RaftLog.Progress) (member : node ∈ raft.learners)
    (sameId : next.id = raft.id) (moved : next.learners = assign raft.learners node progress)
    (sameVoters : next.voters = raft.voters) (sameLast : next.lastLogIndex = raft.lastLogIndex) :
    Sound ⟨raft, next⟩ ↔
      (node ≠ raft.id → Placed raft.lastLogIndex progress ∧ matchOf raft.learners node ≤ progress.matchIndex) := by
  rw [sound_iff raft next sameId sameLast, moved, sameVoters,
    assign_kept_iff raft.id node raft.lastLogIndex raft.learners progress member learners]
  exact and_iff_right ⟨voters, none_lowered_refl _ _⟩

-- The end of the log has moved, and at most the leader's own progress with it.
theorem last_moved_iff (index : Nat) (sameId : next.id = raft.id)
    (others : ∀ peer, peer ≠ raft.id → next.voters.lookup peer = raft.voters.lookup peer)
    (sameLearners : next.learners = raft.learners) (last : next.lastLogIndex = index) :
    Sound ⟨raft, next⟩ ↔ reachesPeers raft index = true := by
  rw [reaches_peers_iff]
  constructor
  · intro sound
    have votersPlaced := sound.voters
    have learnersPlaced := sound.learners
    rw [sameId, last] at votersPlaced learnersPlaced
    refine ⟨fun peer progress other found => ?_, fun peer progress other found => ?_⟩
    · exact (votersPlaced peer progress other ((others peer other).trans found)).within
    · exact (learnersPlaced peer progress other (sameLearners ▸ found)).within
  · rintro ⟨votersReached, learnersReached⟩
    refine ⟨?_, ?_, ?_, ?_⟩
    · rw [sameId, last]
      intro peer progress other found
      rw [others peer other] at found
      have placed := voters peer progress other found
      exact ⟨placed.below, placed.fits, votersReached peer progress other found⟩
    · rw [sameId, sameLearners, last]
      intro peer progress other found
      have placed := learners peer progress other found
      exact ⟨placed.below, placed.fits, learnersReached peer progress other found⟩
    · rw [sameId]
      intro peer other
      rw [matchOf, matchOf, others peer other]
    · rw [sameLearners]
      exact none_lowered_refl _ _

theorem heartbeat_response_keeps_iff (received : ReceivedHeartbeatResponse) (result : Except Error (Option Effect))
    (leader : raft.role = .leader) (leads : next.role = .leader)
    (handled : handleHeartbeatResponse raft received = .ok (next, result)) :
    Sound ⟨raft, next⟩ ↔ orderly raft (.heartbeatResponse received) = true := by
  by_cases newer : received.response.term > raft.currentTerm
  · rw [handleHeartbeatResponse, if_pos newer] at handled
    cases handled
    cases leads
  rw [handleHeartbeatResponse, if_neg newer, if_neg (not_not.mpr leader)] at handled
  by_cases older : received.response.term < raft.currentTerm
  · rw [if_pos older] at handled
    cases handled
    exact iff_of_true (unmoved_sound raft raft voters learners rfl rfl rfl rfl) (by simp [orderly, older])
  rw [if_neg older] at handled
  have moves : ∀ progress, progressOf raft received.sender = some progress → ∀ placed : received.sender ≠ raft.id →
      Placed raft.lastLogIndex progress,
      (received.sender ≠ raft.id → Placed raft.lastLogIndex (heartbeatProgress raft.lastLogIndex progress received.response) ∧
        progress.matchIndex ≤ (heartbeatProgress raft.lastLogIndex progress received.response).matchIndex) ↔
      orderly raft (.heartbeatResponse received) = true := by
    intro progress found placed
    rw [orderly, found, Option.all_some, decide_eq_false older, Bool.false_or, Bool.or_eq_true, decide_eq_true_eq]
    by_cases own : received.sender = raft.id
    · simp [own]
    · rw [heartbeat_keeps_iff raft.lastLogIndex progress received.response (placed own)]
      simp [own]
  split at handled
  · rename_i progress found
    cases handled
    have member : received.sender ∈ raft.voters := AList.lookup_isSome.mp (by rw [found]; rfl)
    refine Iff.trans (voter_moved_iff raft _ voters learners received.sender (heartbeatProgress _ _ _) member rfl rfl rfl rfl) ?_
    rw [matchOf, found]
    exact moves progress (by rw [progressOf, found]; rfl) fun other => voters _ progress other found
  · rename_i notVoter
    split at handled
    · rename_i progress found
      cases handled
      have member : received.sender ∈ raft.learners := AList.lookup_isSome.mp (by rw [found]; rfl)
      refine Iff.trans (learner_moved_iff raft _ voters learners received.sender (heartbeatProgress _ _ _) member rfl rfl rfl rfl) ?_
      rw [matchOf, found]
      exact moves progress (by rw [progressOf, notVoter, found]; rfl) fun other => learners _ progress other found
    · rename_i notLearner
      cases handled
      exact iff_of_true (unmoved_sound raft raft voters learners rfl rfl rfl rfl)
        (by simp [orderly, progressOf, notVoter, notLearner])

theorem append_response_keeps_iff (received : ReceivedAppendEntriesResponse) (result : Except Error (Option Effect))
    (leader : raft.role = .leader) (leads : next.role = .leader)
    (handled : handleAppendEntriesResponse raft received = .ok (next, result)) :
    Sound ⟨raft, next⟩ ↔ orderly raft (.appendEntriesResponse received) = true := by
  by_cases term : received.response.term ≤ raft.currentTerm
  case neg =>
    rw [handleAppendEntriesResponse, if_neg (not_not.mpr leader), if_pos (Nat.lt_of_not_le term)] at handled
    cases handled
    cases leads
  have outcome := response_outcome raft received leader term
  rw [handled] at outcome
  have still := unmoved_sound raft raft voters learners rfl rfl rfl rfl
  cases outcome with
  | retried rejected behind => exact iff_of_true still (by simp [orderly, rejected, behind])
  | stranger _ considered notLearner notVoter =>
      refine iff_of_true still ?_
      have unknown : matchOf raft.voters received.sender = 0 := by rw [matchOf, AList.lookup_eq_none.mpr notVoter]; rfl
      simp [orderly, notLearner, unknown]
  | learnerBehind behind accepted learner fits =>
      rw [orderly_considered raft received (.inl accepted), if_pos learner]
      refine Iff.trans (learner_moved_iff raft _ voters learners received.sender (reported received) learner rfl rfl rfl rfl) ?_
      exact imp_congr_right fun _ => and_iff_right (reported_placed raft received behind.le fits)
  | learnerReaches same fits learner =>
      rw [orderly_considered raft received (.inr same), if_pos learner]
      refine Iff.trans (learner_moved_iff raft _ voters learners received.sender (reported received) learner rfl rfl rfl rfl) ?_
      exact imp_congr_right fun _ => and_iff_right (reported_placed raft received same.le fits)
  | voterBehind behind accepted notLearner voter fits =>
      rw [orderly_considered raft received (.inl accepted), if_neg notLearner]
      refine Iff.trans (voter_moved_iff raft _ voters learners received.sender (reported received) voter rfl rfl rfl rfl) ?_
      exact imp_congr_right fun _ => and_iff_right (reported_placed raft received behind.le fits)
  | commits same notLearner voter _ _ fits | counted same fits notLearner voter =>
      rw [orderly_considered raft received (.inr same), if_neg notLearner]
      refine Iff.trans (voter_moved_iff raft _ voters learners received.sender (reported received) voter rfl rfl rfl rfl) ?_
      exact imp_congr_right fun _ => and_iff_right (reported_placed raft received same.le fits)

theorem local_entry_keeps_iff (entry : LocalEntry) (result : Except Error (Option Effect)) (leader : raft.role = .leader)
    (handled : handleLocalEntryAppended raft entry = .ok (next, result)) :
    Sound ⟨raft, next⟩ ↔ orderly raft (.localEntriesAppended entry) = true := by
  have others : ∀ peer, peer ≠ raft.id → (appendedRaft raft entry).voters.lookup peer = raft.voters.lookup peer := by
    intro peer other
    have same : (appendedRaft raft entry).voters.lookup peer = _ :=
      dlookup_kreplace raft.voters.entries raft.id peer ⟨entry.index + 1, entry.index⟩
    rw [same, if_neg fun both => other both.1]
    rfl
  cases local_entry_step raft next entry result handled with
  | notLeader role => exact absurd leader role
  | replicates | alone => exact last_moved_iff raft _ voters learners entry.index rfl others rfl rfl

end Step

theorem step_leads (watch next : Watch) (event : Event) (moves : step watch event = some next) :
    ∃ result, handle watch.raft event = .ok (next.raft, result) ∧ next.before = watch.raft ∧ next.raft.role = .leader := by
  obtain ⟨after, turned, moves⟩ := Option.bind_eq_some_iff.mp moves
  obtain ⟨result, handled⟩ := turn_handled watch.raft after event turned
  split at moves
  · rename_i leads
    cases moves
    exact ⟨result, handled, rfl, leads.1⟩
  · cases moves

theorem sound_step (watch next : Watch) (event : Event) (leader : watch.raft.role = .leader) (sound : Sound watch)
    (moves : step watch event = some next) : Sound next ↔ orderly watch.raft event = true := by
  obtain ⟨result, handled, before, leads⟩ := step_leads watch next event moves
  obtain ⟨raft, after⟩ := next
  subst before
  have voters := sound.voters
  have learners := sound.learners
  have still : after.id = watch.raft.id → after.voters = watch.raft.voters → after.learners = watch.raft.learners →
      after.lastLogIndex = watch.raft.lastLogIndex → Sound ⟨watch.raft, after⟩ :=
    unmoved_sound watch.raft after voters learners
  cases event with
  | heartbeatResponse received => exact heartbeat_response_keeps_iff watch.raft after voters learners received result leader leads handled
  | appendEntriesResponse received => exact append_response_keeps_iff watch.raft after voters learners received result leader leads handled
  | localEntriesAppended entry => exact local_entry_keeps_iff watch.raft after voters learners entry result leader handled
  | entriesPersisted entries =>
      simp only [handle, handleEntriesPersisted] at handled
      split at handled
      · cases handled
        exact last_moved_iff watch.raft _ voters learners entries.lastLogIndex rfl (fun _ _ => rfl) rfl rfl
      · cases handled
        exact last_moved_iff watch.raft _ voters learners entries.lastLogIndex rfl (fun _ _ => rfl) rfl rfl
  | electionTimeout =>
      obtain ⟨rfl, _⟩ := election_timeout_step watch.raft after result handled
      cases leads
  | requestVote request =>
      obtain ⟨_, _, turned, _⟩ := request_vote_step watch.raft after request result handled
      have frame := turned.frame
      exact iff_of_true (still (by rw [frame]) (by rw [frame]) (by rw [frame]) (by rw [frame])) rfl
  | heartbeat request =>
      obtain ⟨_, _, _, turned, _⟩ := heartbeat_step watch.raft after request result handled
      cases turned with
      | stale | mismatched | matched => exact iff_of_true (still rfl rfl rfl rfl) rfl
  | appendEntries received =>
      cases append_entries_step watch.raft after received result handled with
      | stale | rejected | accepted => exact iff_of_true (still rfl rfl rfl rfl) rfl
  | voteResponse received =>
      cases vote_response_step watch.raft after received result handled with
      | stepsDown | notCandidate | ignored | tallied | elected => exact iff_of_true (still rfl rfl rfl rfl) rfl
  | heartbeatTimeout | entriesApplied | write =>
      simp only [handle, handleHeartbeatTimeout, handleEntriesApplied, handleWrite] at handled
      split at handled <;> cases handled <;> exact iff_of_true (still rfl rfl rfl rfl) rfl

-- In a leadership all of whose steps are orderly, and in no other, the progress of every
-- peer stays placed and is never taken back.
theorem progress_kept_iff (watch : Watch) :
    Run machine (fun watch _ => Sound watch) watch ∧ Sound watch ↔
      Run machine (fun watch event => orderly watch.raft event = true) watch := by
  apply run_through_iff machine _ (fun watch => watch.raft.role = .leader) Sound
  · rintro ⟨before, raft⟩ ⟨same, leader, voters, learners⟩
    obtain rfl : before = raft := same
    exact ⟨leader, voters, learners, none_lowered_refl _ _, none_lowered_refl _ _⟩
  · intro watch event next _ moves
    obtain ⟨_, _, _, leads⟩ := step_leads watch next event moves
    exact leads
  · intro watch event next leader sound moves
    exact sound_step watch next event leader sound moves

-- A leader of term 2 with two entries, of which node-b has both.
def ahead : Raft :=
  { newRaft nodeA threeNodes 1 ⟨2, some nodeA⟩ with
    role := .leader, lastLogIndex := 2, lastLogTerm := 2
    voters := assign (newRaft nodeA threeNodes 1 ⟨2, some nodeA⟩).voters nodeB ⟨3, 2⟩ }

theorem ahead_starts : machine.start ⟨ahead, ahead⟩ := by
  have placed : ∀ entry ∈ ahead.voters.entries, entry.2.matchIndex < entry.2.nextIndex ∧ entry.2.nextIndex ≤ u64Max ∧
      entry.2.matchIndex ≤ ahead.lastLogIndex := by decide
  refine ⟨rfl, rfl, fun peer progress _ found => ?_, fun peer progress _ found => by cases found⟩
  obtain ⟨below, fits, within⟩ := placed ⟨peer, progress⟩ ((List.mem_dlookup_iff ahead.voters.nodupKeys).mp found)
  exact ⟨below, fits, within⟩

-- Its answer to the first append comes late.
theorem late_answer_lowers : ¬ ∀ watch, Reachable machine watch → Sound watch := by
  intro always
  have lowered := (always ⟨ahead, acknowledgedRaft ahead (answerOf true 2 1 2)⟩
    (.step ⟨ahead, ahead⟩ _ (.appendEntriesResponse (answerOf true 2 1 2)) (.start _ ahead_starts) trivial rfl)).votersKept nodeB
      (by decide)
  exact absurd lowered (by decide +kernel)

end RaftLog.Progress
