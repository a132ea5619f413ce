import RaftLog.Core.Runs

set_option autoImplicit false

namespace RaftLog.Candidates

open Lib

def majority (raft : Raft) : Bool := raft.grantedVotes.card > raft.voters.keys.length / 2

-- A candidate has voters' votes, its own among them, and the vote that makes them a
-- majority makes it Leader.
structure Seated (raft : Raft) : Prop where
  own : raft.role = .candidate → raft.id ∈ raft.grantedVotes
  voters : raft.role = .candidate → ∀ voter ∈ raft.grantedVotes, voter ∈ raft.voters
  few : raft.role = .candidate → raft.grantedVotes.card ≤ raft.voters.keys.length / 2
  elected : raft.role = .candidate → ∀ event next result, handle raft event = .ok (next, result) →
    majority next = true → next.role = .leader

-- The node asks others for their votes, too.
def contested (raft : Raft) : Event → Bool
  | .electionTimeout => 2 ≤ raft.voters.keys.length
  | _ => true

theorem idle_seated (raft : Raft) (role : raft.role ≠ .candidate) : Seated raft :=
  ⟨fun same => absurd same role, fun same => absurd same role, fun same => absurd same role, fun same => absurd same role⟩

-- No event but a timeout and a counted vote adds to the votes.
theorem votes_shrink (raft next : Raft) (event : Event) (result : Except Error (Option Effect))
    (notTimeout : event ≠ .electionTimeout) (notVote : ∀ received, event ≠ .voteResponse received)
    (handled : handle raft event = .ok (next, result)) : next.grantedVotes ⊆ raft.grantedVotes := by
  cases event with
  | electionTimeout => exact absurd rfl notTimeout
  | voteResponse received => exact absurd rfl (notVote received)
  | requestVote request =>
      simp only [handle, handleRequestVote] at handled
      cases handled
      by_cases newer : request.term > raft.currentTerm
      · simp only [newer, decide_true, if_true]
        split <;> exact Finset.empty_subset _
      · simp only [newer, decide_false, Bool.false_eq_true, if_false]
        split <;> exact Finset.Subset.refl _
  | heartbeat request =>
      obtain ⟨_, _, _, step, _⟩ := heartbeat_step raft next request result handled
      cases step with
      | stale => exact Finset.Subset.refl _
      | mismatched | matched => exact Finset.empty_subset _
  | appendEntries received =>
      cases append_entries_step raft next received result handled with
      | stale | rejected | accepted => exact Finset.Subset.refl _
  | heartbeatResponse received =>
      cases (heartbeat_response_step raft next received result handled).1 with
      | stepsDown => exact Finset.empty_subset _
      | ignored | voter | learner => exact Finset.Subset.refl _
  | appendEntriesResponse received =>
      cases append_response_step raft next received result handled with
      | stepsDown => exact Finset.empty_subset _
      | notLeader | retries | learner | behind | commits | counted | stranger => exact Finset.Subset.refl _
  | localEntriesAppended entry =>
      cases local_entry_step raft next entry result handled with
      | notLeader | replicates | alone => exact Finset.Subset.refl _
  | heartbeatTimeout | entriesPersisted | entriesApplied | write =>
      obtain ⟨_, _, _, _, rfl⟩ := plain_step raft next _ result rfl handled
      exact Finset.Subset.refl _

section Candidate

variable (raft : Raft) (candidate : raft.role = .candidate) (own : raft.id ∈ raft.grantedVotes)
  (few : raft.grantedVotes.card ≤ raft.voters.keys.length / 2)

include candidate own few

theorem counted_elects (event : Event) (next : Raft) (result : Except Error (Option Effect))
    (handled : handle raft event = .ok (next, result)) (most : majority next = true) : next.role = .leader := by
  have sameVoters := (handled_onward raft next event result handled).sameVoters
  have several : 1 ≤ raft.voters.keys.length / 2 := (Finset.card_pos.mpr ⟨_, own⟩).trans_le few
  rw [majority, sameVoters, decide_eq_true_eq] at most
  by_cases timeout : event = .electionTimeout
  · subst timeout
    obtain ⟨rfl, _⟩ := election_timeout_step raft next result handled
    exact absurd most (Nat.not_lt_of_le several)
  by_cases vote : ∃ received, event = .voteResponse received
  · obtain ⟨received, rfl⟩ := vote
    cases vote_response_step raft next received result handled with
    | stepsDown => exact absurd most (Nat.not_lt_zero _)
    | notCandidate role => exact absurd candidate role
    | ignored => exact absurd most (Nat.not_lt_of_le few)
    | tallied _ few => exact absurd most (Nat.not_lt_of_le few)
    | elected => rfl
  · push Not at vote
    have fewer := Finset.card_le_card (votes_shrink raft next event result timeout vote handled)
    exact absurd most (Nat.not_lt_of_le (fewer.trans few))

theorem candidate_seated (voters : ∀ voter ∈ raft.grantedVotes, voter ∈ raft.voters) : Seated raft :=
  ⟨fun _ => own, fun _ => voters, fun _ => few, fun _ event next result handled most =>
    counted_elects raft candidate own few event next result handled most⟩

end Candidate

theorem seated_step (raft next : Raft) (event : Event) (member : raft.id ∈ raft.voters) (seated : Seated raft)
    (moves : turn raft event = some next) : Seated next ↔ contested raft event = true := by
  obtain ⟨result, handled⟩ := turn_handled raft next event moves
  have onward := handled_onward raft next event result handled
  by_cases timeout : event = .electionTimeout
  · subst timeout
    obtain ⟨rfl, _⟩ := election_timeout_step raft next result handled
    rw [contested, decide_eq_true_eq]
    constructor
    · intro here
      have few : 1 ≤ raft.voters.keys.length / 2 := here.few rfl
      omega
    · intro several
      have few : 1 ≤ raft.voters.keys.length / 2 := by omega
      exact candidate_seated (campaignRaft raft) rfl (Finset.mem_singleton_self _) few fun voter own =>
        Finset.mem_singleton.mp own ▸ member
  have free : contested raft event = true := by
    cases event with
    | electionTimeout => exact absurd rfl timeout
    | _ => rfl
  refine iff_of_true ?_ free
  by_cases role : next.role = .candidate
  case neg => exact idle_seated next role
  have goes : raft.role = .candidate ∧ (next.grantedVotes = raft.grantedVotes ∨ ∃ received, CountsVote raft received ∧
      (insert received.sender raft.grantedVotes).card ≤ raft.voters.keys.length / 2 ∧ next = talliedRaft raft received) := by
    by_cases quiet : event.quiet = true
    · obtain ⟨before, votes⟩ := (handle_quiet raft next event result quiet handled).candidateKept role
      exact ⟨before, .inl votes⟩
    cases event with
    | electionTimeout => exact absurd rfl timeout
    | requestVote request =>
        obtain ⟨_, _, step, _⟩ := request_vote_step raft next request result handled
        rcases Nat.eq_or_lt_of_le onward.termGrows with same | newer
        · obtain ⟨sameRole, votes, _⟩ := step.kept same.symm
          exact ⟨sameRole ▸ role, .inl votes⟩
        · rw [step.newer newer] at role
          cases role
    | voteResponse received =>
        cases vote_response_step raft next received result handled with
        | stepsDown | elected => cases role
        | notCandidate | ignored => exact ⟨role, .inl rfl⟩
        | tallied counts few => exact ⟨role, .inr ⟨received, counts, few, rfl⟩⟩
    | _ => exact absurd rfl quiet
  obtain ⟨before, votes | ⟨received, counts, few, rfl⟩⟩ := goes
  · apply candidate_seated next role
    · rw [votes, onward.sameId]
      exact seated.own before
    · rw [votes, onward.sameVoters]
      exact seated.few before
    · intro voter voted
      exact (onward_member raft next onward voter).mpr (seated.voters before voter (votes ▸ voted))
  · apply candidate_seated _ role
    · exact Finset.mem_insert_of_mem (seated.own before)
    · exact few
    · intro voter voted
      rcases Finset.mem_insert.mp voted with rfl | earlier
      · exact counts.voter
      · exact seated.voters before voter earlier

theorem booted_member (id : NodeId) (voters : List NodeId) (member : id ∈ voters) (raft : Raft) (booted : Booted id voters raft) :
    raft.id ∈ raft.voters := by
  obtain ⟨nextOffset, state, rfl⟩ := booted
  rw [AList.mem_keys, ← List.mem_toFinset, new_raft_voters, List.mem_toFinset]
  exact member

-- In a run all of whose timeouts are contested, and in no other, every candidate is
-- seated.
theorem candidates_seated_iff (id : NodeId) (voters : List NodeId) (member : id ∈ voters) (raft : Raft) :
    Run (nodeMachine id voters) (fun raft _ => Seated raft) raft ∧ Seated raft ↔
      Run (nodeMachine id voters) (fun raft event => contested raft event = true) raft := by
  apply run_through_iff (nodeMachine id voters) _ (fun raft => raft.id ∈ raft.voters) Seated
  · intro raft booted
    refine ⟨booted_member id voters member raft booted, idle_seated raft ?_⟩
    obtain ⟨nextOffset, state, rfl⟩ := booted
    exact fun same => by cases same
  · intro raft event next here moves
    obtain ⟨result, handled⟩ := turn_handled raft next event moves
    have onward := handled_onward raft next event result handled
    rw [onward_member raft next onward, onward.sameId]
    exact here
  · intro raft event next here seated moves
    exact seated_step raft next event here seated moves

def fresh : Raft := newRaft nodeA threeNodes 1 ⟨0, none⟩

-- The votes of one of three nodes do not make a majority.
def afterTimeout : Raft := (exec (nodeMachine nodeA threeNodes) fresh [.electionTimeout]).getD fresh

theorem three_voters_seated : afterTimeout.role = .candidate ∧
    Run (nodeMachine nodeA threeNodes) (fun raft _ => Seated raft) afterTimeout ∧ Seated afterTimeout :=
  ⟨by decide +kernel, (candidates_seated_iff nodeA threeNodes (by decide) afterTimeout).mpr
    (exec_when_reaches (nodeMachine nodeA threeNodes) _ contested (fun _ _ => id) [.electionTimeout] fresh fresh
      (.start _ ⟨1, ⟨0, none⟩, rfl⟩) (by decide +kernel))⟩

-- The only voter has its own vote, which is a majority, and stays a candidate.
theorem sole_candidate : ¬ ∀ (id : NodeId) (voters : List NodeId), id ∈ voters → ∀ raft,
    Reachable (nodeMachine id voters) raft → Seated raft := by
  intro always
  have seated := always nodeA [nodeA] (by decide) (campaignRaft (newRaft nodeA [nodeA] 1 ⟨0, none⟩))
    (.step _ _ .electionTimeout (.start _ ⟨1, ⟨0, none⟩, rfl⟩) trivial rfl)
  exact absurd (seated.few rfl) (by decide +kernel)

end RaftLog.Candidates
