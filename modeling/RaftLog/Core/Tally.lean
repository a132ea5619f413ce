import RaftLog.Core.Iteration
import RaftLog.Core.Learners

set_option autoImplicit false

namespace RaftLog.Tally

open Lib Iteration Learners

-- Nothing ends a candidacy but a newer term, another leader of its term, or the next timeout.
def calm (term : Nat) (event : Event) : Bool := steady term event && event != .electionTimeout

-- The voters heard to grant their vote in a term.
def granters (voters : List NodeId) (term : Nat) (trace : List (Event × Answer)) : Finset NodeId :=
  (trace.filterMap fun (event, _) =>
    match event with
    | .voteResponse received =>
        if received.response.term = term ∧ received.response.voteGranted ∧ received.sender ∈ voters then some received.sender
        else none
    | _ => none).toFinset

-- The heartbeats that an elected candidate announces itself with.
def announcements (trace : List (Event × Answer)) : Nat :=
  trace.countP fun
    | (.voteResponse _, .ok (some (.sendHeartbeat _ _))) => true
    | _ => false

def supporters (candidate : Raft) (trace : List (Event × Answer)) : Finset NodeId :=
  insert candidate.id (granters candidate.voters.keys candidate.currentTerm trace)

-- A majority, and more than the candidate alone: its own vote is not counted before another arrives.
def Elects (candidate : Raft) (trace : List (Event × Answer)) : Prop :=
  max 1 (candidate.voters.keys.length / 2) < (supporters candidate trace).card

-- How far an election has come.
structure Campaigns (candidate : Raft) (trace : List (Event × Answer)) (raft : Raft) : Prop where
  sameTerm : raft.currentTerm = candidate.currentTerm
  sameVoters : raft.voters.keys = candidate.voters.keys
  stands : raft.role = .candidate ∧ raft.grantedVotes = supporters candidate trace ∧ ¬ Elects candidate trace ∧
      announcements trace = 0 ∨
    raft.role = .leader ∧ Elects candidate trace ∧ announcements trace = 1

section Calm

variable (raft next : Raft)

theorem stale_heartbeat_kept (request : HeartbeatRequest) (result : Answer) (stale : request.term < raft.currentTerm)
    (handled : handleHeartbeat raft request = .ok (next, result)) : next = raft := by
  have here : handleHeartbeat raft request = _ := if_pos stale
  rw [here] at handled
  cases handled
  rfl

-- A calm event that brings no vote leaves the election where it is.
theorem calm_kept (event : Event) (result : Answer) (handled : handle raft event = .ok (next, result))
    (quiet : calm raft.currentTerm event = true) (other : ∀ received, event ≠ .voteResponse received) :
    next.currentTerm = raft.currentTerm ∧ next.voters.keys = raft.voters.keys ∧ next.role = raft.role ∧
      next.grantedVotes = raft.grantedVotes := by
  obtain ⟨still, early⟩ := Bool.and_eq_true_iff.mp quiet
  cases event with
  | electionTimeout => simp at early
  | voteResponse received => exact absurd rfl (other received)
  | heartbeat request =>
      rw [stale_heartbeat_kept raft next request result (of_decide_eq_true still) handled]
      exact ⟨rfl, rfl, rfl, rfl⟩
  | requestVote request =>
      obtain ⟨_, _, step, _⟩ := request_vote_step raft next request result handled
      have same : next.currentTerm = raft.currentTerm := step.term.trans (Nat.max_eq_left (of_decide_eq_true still))
      obtain ⟨role, granted, _⟩ := step.kept same
      exact ⟨same, by rw [step.frame], role, granted⟩
  | appendEntries received =>
      cases append_entries_step raft next received result handled with
      | stale => exact ⟨rfl, rfl, rfl, rfl⟩
      | rejected fresh | accepted fresh => exact absurd (of_decide_eq_true still) (Nat.not_lt_of_le fresh)
  | localEntriesAppended entry =>
      cases local_entry_step raft next entry result handled with
      | notLeader => exact ⟨rfl, rfl, rfl, rfl⟩
      | replicates | alone => exact ⟨rfl, keys_assign _ _ _, rfl, rfl⟩
  | heartbeatTimeout | entriesPersisted | entriesApplied | write =>
      obtain ⟨_, _, _, _, rfl⟩ := plain_step raft next _ result rfl handled
      exact ⟨rfl, rfl, rfl, rfl⟩
  | heartbeatResponse received =>
      cases (heartbeat_response_step raft next received result handled).1 with
      | stepsDown newer => exact absurd newer (Nat.not_lt_of_le (of_decide_eq_true still))
      | ignored | learner => exact ⟨rfl, rfl, rfl, rfl⟩
      | voter => exact ⟨rfl, keys_assign _ _ _, rfl, rfl⟩
  | appendEntriesResponse received =>
      cases append_response_step raft next received result handled with
      | stepsDown _ newer => exact absurd newer (Nat.not_lt_of_le (of_decide_eq_true still))
      | notLeader | retries | stranger | learner => exact ⟨rfl, rfl, rfl, rfl⟩
      | behind | commits | counted => exact ⟨rfl, keys_assign _ _ _, rfl, rfl⟩

end Calm

-- An answer that is counted when it comes from a voter, grants its vote, and is of the term.
def counted (candidate : Raft) (received : ReceivedVoteResponse) : Prop :=
  received.response.term = candidate.currentTerm ∧ received.response.voteGranted = true ∧ received.sender ∈ candidate.voters.keys

instance (candidate : Raft) (received : ReceivedVoteResponse) : Decidable (counted candidate received) :=
  inferInstanceAs (Decidable (_ ∧ _ ∧ _))

section Votes

variable (candidate : Raft) (trace : List (Event × Answer))

theorem supporters_other (event : Event) (result : Answer) (other : ∀ received, event ≠ .voteResponse received) :
    supporters candidate ((event, result) :: trace) = supporters candidate trace ∧
      announcements ((event, result) :: trace) = announcements trace := by
  cases event with
  | voteResponse received => exact absurd rfl (other received)
  | _ => exact ⟨rfl, by simp [announcements]⟩

theorem supporters_vote (received : ReceivedVoteResponse) (result : Answer) :
    supporters candidate ((.voteResponse received, result) :: trace) =
      if counted candidate received then insert received.sender (supporters candidate trace) else supporters candidate trace := by
  unfold supporters granters counted
  rw [List.filterMap_cons]
  by_cases counts : received.response.term = candidate.currentTerm ∧ received.response.voteGranted = true ∧
      received.sender ∈ candidate.voters.keys
  · simp only [if_pos counts, List.toFinset_cons]
    exact Finset.insert_comm _ _ _
  · simp only [if_neg counts]

-- A late, strange, refusing or repeated answer brings nobody new behind the candidate.
theorem ignored_supports (received : ReceivedVoteResponse) (result : Answer)
    (ignored : received.response.term < candidate.currentTerm ∨ received.sender ∉ candidate.voters.keys ∨
      received.response.voteGranted = false ∨ received.sender ∈ supporters candidate trace) :
    supporters candidate ((.voteResponse received, result) :: trace) = supporters candidate trace := by
  rw [supporters_vote]
  split
  · rename_i counts
    rcases ignored with stale | stranger | refused | again
    · exact absurd counts.1 stale.ne
    · exact absurd counts.2.2 stranger
    · rw [counts.2.1] at refused
      cases refused
    · exact Finset.insert_eq_of_mem again
  · rfl

-- The candidate is behind itself, so anybody else makes two.
theorem fresh_supports (sender : NodeId) (fresh : sender ∉ supporters candidate trace) :
    1 < (insert sender (supporters candidate trace)).card := by
  rw [Finset.card_insert_of_notMem fresh]
  have own : 0 < (supporters candidate trace).card := Finset.card_pos.mpr ⟨candidate.id, Finset.mem_insert_self _ _⟩
  omega

theorem elects_more (moment : Event × Answer) (elects : Elects candidate trace) : Elects candidate (moment :: trace) := by
  refine Nat.lt_of_lt_of_le elects (Finset.card_le_card ?_)
  obtain ⟨event, result⟩ := moment
  cases event with
  | voteResponse received =>
      rw [supporters_vote]
      split
      · exact Finset.subset_insert _ _
      · exact Finset.Subset.refl _
  | _ => exact (supporters_other candidate trace _ result (by simp)).1.symm.subset

theorem vote_campaigns (raft next : Raft) (received : ReceivedVoteResponse) (result : Answer)
    (campaigns : Campaigns candidate trace raft) (old : received.response.term ≤ candidate.currentTerm)
    (handled : handleVoteResponse raft received = .ok (next, result)) :
    Campaigns candidate ((.voteResponse received, result) :: trace) next := by
  obtain ⟨sameTerm, sameVoters, stands⟩ := campaigns
  have notNewer : ¬ received.response.term > raft.currentTerm := by
    rw [sameTerm]
    exact Nat.not_lt_of_le old
  rw [handleVoteResponse] at handled
  dsimp only at handled
  rw [if_neg notNewer] at handled
  rcases stands with ⟨role, granted, few, silent⟩ | ⟨role, elected, announced⟩
  · rw [if_neg (not_not.mpr role)] at handled
    split at handled
    · rename_i ignored
      cases handled
      rw [sameTerm, AList.mem_keys, sameVoters, granted] at ignored
      have same := ignored_supports candidate trace received (.ok none) ignored
      refine ⟨sameTerm, sameVoters, .inl ⟨role, granted.trans same.symm, ?_, ?_⟩⟩
      · rw [Elects, same]
        exact few
      · simpa [announcements] using silent
    · rename_i counts
      rw [sameTerm, AList.mem_keys, sameVoters, granted] at counts
      simp only [not_or, not_not, Bool.not_eq_false, Nat.not_lt] at counts
      obtain ⟨current, voter, grants, fresh⟩ := counts
      have more : supporters candidate ((.voteResponse received, result) :: trace) =
          insert received.sender (supporters candidate trace) := by
        rw [supporters_vote, if_pos ⟨Nat.le_antisymm old current, grants, voter⟩]
      have two := fresh_supports candidate trace received.sender fresh
      split at handled
      · rename_i most
        cases handled
        rw [granted, sameVoters] at most
        refine ⟨sameTerm, sameVoters, .inr ⟨rfl, ?_, ?_⟩⟩
        · rw [Elects, more]
          exact max_lt two most
        · simpa [announcements] using silent
      · rename_i fewer
        cases handled
        rw [granted, sameVoters] at fewer
        refine ⟨sameTerm, sameVoters, .inl ⟨role, (congrArg (insert received.sender) granted).trans more.symm, ?_, ?_⟩⟩
        · rw [Elects, more]
          exact fun most => fewer ((le_max_right _ _).trans_lt most)
        · simpa [announcements] using silent
  · have notCandidate : raft.role ≠ .candidate := by
      rw [role]
      decide
    rw [if_pos notCandidate] at handled
    cases handled
    refine ⟨sameTerm, sameVoters, .inr ⟨role, elects_more candidate trace _ elected, ?_⟩⟩
    simpa [announcements] using announced

end Votes

theorem other_campaigns (candidate raft next : Raft) (trace : List (Event × Answer)) (event : Event) (result : Answer)
    (campaigns : Campaigns candidate trace raft) (quiet : calm candidate.currentTerm event = true)
    (other : ∀ received, event ≠ .voteResponse received) (handled : handle raft event = .ok (next, result)) :
    Campaigns candidate ((event, result) :: trace) next := by
  obtain ⟨sameTerm, sameVoters, stands⟩ := campaigns
  rw [← sameTerm] at quiet
  obtain ⟨term, voters, role, granted⟩ := calm_kept raft next event result handled quiet other
  obtain ⟨same, silent⟩ := supporters_other candidate trace event result other
  refine ⟨term.trans sameTerm, voters.trans sameVoters, ?_⟩
  rw [role, granted, Elects, same, silent]
  exact stands

-- Whatever calm comes in whatever order, the candidate leads from the vote on that makes a
-- majority, and says so once.
theorem election_decided (raft candidate last : Raft) (effect : Answer)
    (timeout : handle raft .electionTimeout = .ok (candidate, effect)) (trace : List (Event × Answer))
    (run : Trace (node candidate) trace last) (quiet : ∀ moment ∈ trace, calm candidate.currentTerm moment.1 = true) :
    last.currentTerm = candidate.currentTerm ∧ (last.role = .leader ↔ Elects candidate trace) ∧
      (last.role = .candidate ↔ ¬ Elects candidate trace) ∧
      (announcements trace = 1 ↔ Elects candidate trace) ∧ (announcements trace = 0 ↔ ¬ Elects candidate trace) := by
  have campaigns : Campaigns candidate trace last := by
    induction run with
    | start state starts =>
        rw [starts]
        obtain ⟨rfl, _⟩ := election_timeout_step raft candidate effect timeout
        refine ⟨rfl, rfl, .inl ⟨rfl, rfl, ?_, rfl⟩⟩
        simp [Elects, supporters, granters]
    | step trace state next event result before moves ih =>
        have calmNow := quiet _ List.mem_cons_self
        have campaigns := ih fun moment member => quiet moment (List.mem_cons_of_mem _ member)
        by_cases vote : ∃ received, event = .voteResponse received
        · obtain ⟨received, rfl⟩ := vote
          have old := of_decide_eq_true (Bool.and_eq_true_iff.mp calmNow).1
          exact vote_campaigns candidate trace state next received result campaigns old moves
        · exact other_campaigns candidate state next trace event result campaigns calmNow
            (fun received same => vote ⟨received, same⟩) moves
  refine ⟨campaigns.sameTerm, ?_⟩
  rcases campaigns.stands with ⟨role, _, few, silent⟩ | ⟨role, elected, announced⟩
  · simp [role, few, silent]
  · simp [role, elected, announced]

instance (candidate : Raft) (trace : List (Event × Answer)) : Decidable (Elects candidate trace) :=
  inferInstanceAs (Decidable (_ < _))

-- A refusal, a stranger's vote, an old heartbeat, the vote that decides, and one too late.
def fiveAnswers : List Event :=
  [.voteResponse ⟨nodeB, ⟨8, false⟩⟩, .voteResponse ⟨⟨"node-d"⟩, ⟨8, true⟩⟩, .heartbeat ⟨7, nodeB, 0, 0, 0⟩,
    .voteResponse ⟨nodeC, ⟨8, true⟩⟩, .voteResponse ⟨nodeB, ⟨8, true⟩⟩]

def campaigner : Raft :=
  { listed with currentTerm := 8, votedFor := some nodeA, grantedVotes := {nodeA}, role := .candidate }

def heard : List (Event × Answer) × Raft := (listen fiveAnswers [] campaigner).getD ([], campaigner)

theorem five_answers_elect : heard.2.role = .leader ∧ announcements heard.1 = 1 ∧ heard.1.length = 5 := by
  have run : Trace (node campaigner) heard.1 heard.2 :=
    listen_trace campaigner campaigner heard.2 fiveAnswers [] heard.1 (.start _ rfl)
      (comes_to (listen fiveAnswers [] campaigner) ([], campaigner) (by decide +kernel))
  obtain ⟨_, leads, _, announced, _⟩ := election_decided listed campaigner heard.2 _ rfl heard.1 run (by decide +kernel)
  have elects : Elects campaigner heard.1 := by decide +kernel
  exact ⟨leads.mpr elects, announced.mpr elects, by decide +kernel⟩

end RaftLog.Tally
