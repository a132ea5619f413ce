import RaftLog.Election.Model

set_option autoImplicit false

namespace RaftLog.Election

open Lib

-- A vote of `voter` in `term`: its own campaign, or a grant it sent.
def Cast (network : Network) (voter : NodeId) (term : Nat) (candidate : NodeId) : Prop :=
  (candidate = voter ∧ (voter, term) ∈ network.campaigns) ∨
    .voteResponse candidate ⟨voter, ⟨term, true⟩⟩ ∈ network.sent

-- The tally of a candidate belongs to one campaign. When a rejected append has
-- carried the candidate past that campaign's term, no campaign is its current one.
def TallyValid (voters : Finset NodeId) (network : Network) (node : NodeId) : Prop :=
  ∃ term, term ≤ (network.nodes node).currentTerm ∧ (node, term) ∈ network.campaigns ∧
    (∀ voter ∈ (network.nodes node).grantedVotes, voter ∈ voters ∧ Cast network voter term node) ∧
    ((node, (network.nodes node).currentTerm) ∈ network.campaigns → term = (network.nodes node).currentTerm)

structure VotesInv (voters : Finset NodeId) (network : Network) : Prop where
  ids : ∀ node ∈ voters, (network.nodes node).id = node
  sameVoters : ∀ node ∈ voters, (network.nodes node).voters.keys.toFinset = voters
  campaigned : ∀ node term, (node, term) ∈ network.campaigns → node ∈ voters
  requested : ∀ target request, .voteRequest target request ∈ network.sent →
    (request.candidateId, request.term) ∈ network.campaigns
  granted : ∀ candidate voter term, .voteResponse candidate ⟨voter, ⟨term, true⟩⟩ ∈ network.sent →
    voter ∈ voters ∧ (candidate, term) ∈ network.campaigns
  recorded : ∀ voter ∈ voters, ∀ term candidate, Cast network voter term candidate →
    term ≤ (network.nodes voter).currentTerm ∧
      (term = (network.nodes voter).currentTerm → (network.nodes voter).votedFor = some candidate)
  once : ∀ voter term left right, Cast network voter term left → Cast network voter term right → left = right
  tally : ∀ node ∈ voters, (network.nodes node).role = .candidate → TallyValid voters network node
  majority : ∀ node term, (node, term) ∈ network.wins →
    ∃ quorum, Majority voters quorum ∧ ∀ voter ∈ quorum, Cast network voter term node
  decided : ∀ node term, (node, term) ∈ network.wins → node ∈ voters ∧ term ≤ (network.nodes node).currentTerm ∧
    (term = (network.nodes node).currentTerm → (network.nodes node).role ≠ .candidate)

theorem votes_inv_start (voters : Finset NodeId) (network : Network) (start : Start voters network) :
    VotesInv voters network where
  ids := start.ids
  sameVoters := start.sameVoters
  campaigned := by simp [start.campaigns]
  requested := by simp [start.sent]
  granted := by simp [start.sent]
  recorded := by simp [Cast, start.sent, start.campaigns]
  once := by simp [Cast, start.sent, start.campaigns]
  tally := by
    intro node member candidate
    rw [start.followers node member] at candidate
    cases candidate
  majority := by simp [start.wins]
  decided := by simp [start.wins]

theorem majority_of_tally (voters : Finset NodeId) (raft : Raft) (votes : Finset NodeId)
    (sameVoters : raft.voters.keys.toFinset = voters) (within : votes ⊆ voters)
    (most : votes.card > raft.voters.keys.length / 2) : Majority voters votes := by
  refine ⟨within, ?_⟩
  rw [← sameVoters, List.toFinset_card_of_nodup raft.voters.keys_nodup]
  exact most

theorem winner_unique (voters : Finset NodeId) (network : Network) (inv : VotesInv voters network)
    (left right : NodeId) (term : Nat) (leftWon : (left, term) ∈ network.wins)
    (rightWon : (right, term) ∈ network.wins) : left = right := by
  obtain ⟨leftQuorum, leftMost, leftVotes⟩ := inv.majority left term leftWon
  obtain ⟨rightQuorum, rightMost, rightVotes⟩ := inv.majority right term rightWon
  obtain ⟨voter, inLeft, inRight⟩ := majorities_meet voters leftQuorum rightQuorum leftMost rightMost
  exact inv.once voter term left right (leftVotes voter inLeft) (rightVotes voter inRight)

theorem cast_more (network after : Network) (voter candidate : NodeId) (term : Nat)
    (campaigns : network.campaigns ⊆ after.campaigns) (sent : network.sent ⊆ after.sent)
    (cast : Cast network voter term candidate) : Cast after voter term candidate :=
  cast.imp (fun own => ⟨own.1, campaigns own.2⟩) (fun grant => sent grant)

-- All that the vote invariant asks of a step of one node: what it casts is the
-- vote it now holds in its present term, and what it held in that term it keeps.
structure Advance (voters : Finset NodeId) (network : Network) (node : NodeId) (next : Raft) (after : Network) : Prop where
  nodes : after.nodes = Function.update network.nodes node next
  sameId : next.id = (network.nodes node).id
  sameVoters : next.voters.keys = (network.nodes node).voters.keys
  termGrows : (network.nodes node).currentTerm ≤ next.currentTerm
  voteKept : next.currentTerm = (network.nodes node).currentTerm →
    ∀ candidate, (network.nodes node).votedFor = some candidate → next.votedFor = some candidate
  candidateKept : next.role = .candidate → next.currentTerm = (network.nodes node).currentTerm →
    (network.nodes node).role = .candidate
  sent : network.sent ⊆ after.sent
  campaigns : network.campaigns ⊆ after.campaigns
  newCampaign : ∀ other term, (other, term) ∈ after.campaigns → (other, term) ∈ network.campaigns ∨
    other = node ∧ term = next.currentTerm ∧ next.votedFor = some node
  newRequest : ∀ target request, .voteRequest target request ∈ after.sent →
    .voteRequest target request ∈ network.sent ∨ (request.candidateId, request.term) ∈ after.campaigns
  newGrant : ∀ candidate voter term, .voteResponse candidate ⟨voter, ⟨term, true⟩⟩ ∈ after.sent →
    .voteResponse candidate ⟨voter, ⟨term, true⟩⟩ ∈ network.sent ∨
      voter = node ∧ term = next.currentTerm ∧ next.votedFor = some candidate ∧ (candidate, term) ∈ network.campaigns
  tally : next.role = .candidate → TallyValid voters after node
  newWin : ∀ other term, (other, term) ∈ after.wins → (other, term) ∈ network.wins ∨
    other = node ∧ term = next.currentTerm ∧ next.role = .leader ∧
      ∃ quorum, Majority voters quorum ∧ ∀ voter ∈ quorum, Cast after voter term node

section Advance

variable (voters : Finset NodeId) (network after : Network) (node : NodeId) (next : Raft)

theorem advance_cast (adv : Advance voters network node next after) (voter candidate : NodeId) (term : Nat)
    (cast : Cast after voter term candidate) : Cast network voter term candidate ∨
      voter = node ∧ term = next.currentTerm ∧ next.votedFor = some candidate := by
  rcases cast with ⟨rfl, campaign⟩ | grant
  · rcases adv.newCampaign candidate term campaign with old | ⟨same, now, vote⟩
    · exact .inl (.inl ⟨rfl, old⟩)
    · exact .inr ⟨same, now, same ▸ vote⟩
  · rcases adv.newGrant candidate voter term grant with old | ⟨same, now, vote, _⟩
    · exact .inl (.inr old)
    · exact .inr ⟨same, now, vote⟩

theorem advance_recorded (inv : VotesInv voters network) (adv : Advance voters network node next after)
    (voter : NodeId) (member : voter ∈ voters) (term : Nat) (candidate : NodeId)
    (cast : Cast after voter term candidate) : term ≤ (after.nodes voter).currentTerm ∧
      (term = (after.nodes voter).currentTerm → (after.nodes voter).votedFor = some candidate) := by
  rw [adv.nodes]
  rcases advance_cast voters network after node next adv voter candidate term cast with old | ⟨same, now, vote⟩
  · obtain ⟨bound, vote⟩ := inv.recorded voter member term candidate old
    by_cases same : voter = node
    · subst same
      have grows := adv.termGrows
      rw [Function.update_self]
      refine ⟨by omega, fun now => ?_⟩
      exact adv.voteKept (by omega) candidate (vote (by omega))
    · rw [Function.update_of_ne same]
      exact ⟨bound, vote⟩
  · subst same
    rw [Function.update_self]
    exact ⟨Nat.le_of_eq now, fun _ => vote⟩

theorem advance_once (inv : VotesInv voters network) (adv : Advance voters network node next after)
    (member : node ∈ voters) (voter : NodeId) (term : Nat) (left right : NodeId)
    (leftCast : Cast after voter term left) (rightCast : Cast after voter term right) : left = right := by
  have fresh : voter = node → term = next.currentTerm → left = right := by
    intro same now
    subst same
    have leftVote := (advance_recorded voters network after voter next inv adv voter member term left leftCast).2
    have rightVote := (advance_recorded voters network after voter next inv adv voter member term right rightCast).2
    rw [adv.nodes, Function.update_self] at leftVote rightVote
    exact Option.some.inj ((leftVote now).symm.trans (rightVote now))
  rcases advance_cast voters network after node next adv voter left term leftCast with leftOld | ⟨same, now, _⟩
  · rcases advance_cast voters network after node next adv voter right term rightCast with rightOld | ⟨same, now, _⟩
    · exact inv.once voter term left right leftOld rightOld
    · exact fresh same now
  · exact fresh same now

theorem advance_tally (inv : VotesInv voters network) (adv : Advance voters network node next after)
    (other : NodeId) (member : other ∈ voters) (candidate : (after.nodes other).role = .candidate) :
    TallyValid voters after other := by
  by_cases same : other = node
  · subst same
    rw [adv.nodes, Function.update_self] at candidate
    exact adv.tally candidate
  · have unchanged : after.nodes other = network.nodes other := by rw [adv.nodes, Function.update_of_ne same]
    rw [unchanged] at candidate
    obtain ⟨term, bound, campaign, votes, current⟩ := inv.tally other member candidate
    refine ⟨term, by rwa [unchanged], adv.campaigns campaign, ?_, ?_⟩
    · intro voter vote
      rw [unchanged] at vote
      exact ⟨(votes voter vote).1, cast_more network after voter other term adv.campaigns adv.sent (votes voter vote).2⟩
    · rw [unchanged]
      intro now
      rcases adv.newCampaign other _ now with old | ⟨self, _⟩
      · exact current old
      · exact absurd self same

theorem advance_votes_inv (inv : VotesInv voters network) (adv : Advance voters network node next after)
    (member : node ∈ voters) : VotesInv voters after where
  ids := by
    intro other within
    by_cases same : other = node
    · subst same
      rw [adv.nodes, Function.update_self, adv.sameId, inv.ids other within]
    · rw [adv.nodes, Function.update_of_ne same, inv.ids other within]
  sameVoters := by
    intro other within
    by_cases same : other = node
    · subst same
      rw [adv.nodes, Function.update_self, adv.sameVoters, inv.sameVoters other within]
    · rw [adv.nodes, Function.update_of_ne same, inv.sameVoters other within]
  campaigned := by
    intro other term campaign
    rcases adv.newCampaign other term campaign with old | ⟨rfl, _⟩
    · exact inv.campaigned other term old
    · exact member
  requested := by
    intro target request sent
    rcases adv.newRequest target request sent with old | new
    · exact adv.campaigns (inv.requested target request old)
    · exact new
  granted := by
    intro candidate voter term sent
    rcases adv.newGrant candidate voter term sent with old | ⟨rfl, _, _, campaign⟩
    · exact (inv.granted candidate voter term old).imp id (fun campaign => adv.campaigns campaign)
    · exact ⟨member, adv.campaigns campaign⟩
  recorded := advance_recorded voters network after node next inv adv
  once := advance_once voters network after node next inv adv member
  tally := advance_tally voters network after node next inv adv
  majority := by
    intro other term won
    rcases adv.newWin other term won with old | ⟨rfl, _, _, quorum⟩
    · obtain ⟨quorum, most, votes⟩ := inv.majority other term old
      exact ⟨quorum, most, fun voter within =>
        cast_more network after voter other term adv.campaigns adv.sent (votes voter within)⟩
    · exact quorum
  decided := by
    intro other term won
    rcases adv.newWin other term won with old | ⟨rfl, now, leads, _⟩
    · obtain ⟨within, bound, decided⟩ := inv.decided other term old
      refine ⟨within, ?_⟩
      by_cases same : other = node
      · subst same
        have grows := adv.termGrows
        rw [adv.nodes, Function.update_self]
        refine ⟨by omega, fun now candidate => ?_⟩
        exact decided (by omega) (adv.candidateKept candidate (by omega))
      · rw [adv.nodes, Function.update_of_ne same]
        exact ⟨bound, decided⟩
    · rw [adv.nodes, Function.update_self]
      exact ⟨member, Nat.le_of_eq now, fun _ candidate => by rw [leads] at candidate; cases candidate⟩

end Advance

-- A step that neither asks for votes nor answers or counts one.
theorem quiet_unchanged (network : Network) (node : NodeId) (next : Raft) (result : Except Error (Option Effect))
    (event : Event) (quiet : event.quiet = true) (handled : handle (network.nodes node) event = .ok (next, result)) :
    (network.become node event next result).sent = network.sent ∧
      (network.become node event next result).campaigns = network.campaigns ∧
      (network.become node event next result).wins = network.wins := by
  have silent := packets_of_silent node result (quiet_casts_no_vote (network.nodes node) next event result quiet handled)
  refine ⟨by simp [Network.become, silent], ?_, ?_⟩
  · cases event <;> first | rfl | cases quiet
  · apply if_neg
    rintro ⟨candidate, leader⟩
    rw [((handle_quiet (network.nodes node) next event result quiet handled).leaderKept leader).1] at candidate
    cases candidate

section Step

variable (voters : Finset NodeId) (network : Network) (node : NodeId) (next : Raft)
  (result : Except Error (Option Effect)) (inv : VotesInv voters network) (member : node ∈ voters)

include inv member

theorem quiet_advance (event : Event) (quiet : event.quiet = true)
    (handled : handle (network.nodes node) event = .ok (next, result)) :
    Advance voters network node next (network.become node event next result) := by
  have step := handle_quiet (network.nodes node) next event result quiet handled
  obtain ⟨sent, campaigns, wins⟩ := quiet_unchanged network node next result event quiet handled
  exact {
    nodes := rfl
    sameId := step.sameId
    sameVoters := step.sameVoters
    termGrows := step.termGrows
    voteKept := fun same candidate vote => (step.voteKept same).trans vote
    candidateKept := fun candidate _ => (step.candidateKept candidate).1
    sent := by rw [sent]; exact fun _ => id
    campaigns := by rw [campaigns]; exact fun _ => id
    newCampaign := by rw [campaigns]; exact fun _ _ => .inl
    newRequest := by rw [sent]; exact fun _ _ => .inl
    newGrant := by rw [sent]; exact fun _ _ _ => .inl
    newWin := by rw [wins]; exact fun _ _ => .inl
    tally := by
      intro candidate
      obtain ⟨wasCandidate, sameVotes⟩ := step.candidateKept candidate
      obtain ⟨term, bound, campaign, votes, current⟩ := inv.tally node member wasCandidate
      have grows := step.termGrows
      refine ⟨term, ?_, by rwa [campaigns], ?_, ?_⟩
      · rw [become_node]
        omega
      · rw [become_node, sameVotes]
        intro voter vote
        exact ⟨(votes voter vote).1, cast_more network _ voter node term (by rw [campaigns]; exact fun _ => id)
          (by rw [sent]; exact fun _ => id) (votes voter vote).2⟩
      · rw [campaigns, become_node]
        intro now
        -- a campaign of the present term was fought in it, so the term did not move
        have reached := (inv.recorded node member _ node (.inl ⟨rfl, now⟩)).1
        have same : next.currentTerm = (network.nodes node).currentTerm := by omega
        rw [same] at now ⊢
        exact current now }

theorem timeout_advance (handled : handleElectionTimeout (network.nodes node) = .ok (next, result)) :
    Advance voters network node next (network.become node .electionTimeout next result) := by
  obtain ⟨rfl, rfl⟩ := election_timeout_step (network.nodes node) next result handled
  have self := inv.ids node member
  exact {
    nodes := rfl
    sameId := rfl
    sameVoters := rfl
    termGrows := Nat.le_succ _
    voteKept := by intro same; simp [campaignRaft] at same
    candidateKept := by intro _ same; simp [campaignRaft] at same
    sent := List.subset_append_left _ _
    campaigns := List.subset_cons_self _ _
    newCampaign := by
      intro other term campaign
      rcases List.mem_cons.mp campaign with new | old
      · cases new
        exact .inr ⟨rfl, rfl, congrArg some self⟩
      · exact .inl old
    newRequest := by
      intro target request sent
      rcases List.mem_append.mp sent with old | new
      · exact .inl old
      · refine .inr (List.mem_cons.mpr (.inl ?_))
        simp only [packetsOf, List.mem_map, Packet.voteRequest.injEq] at new
        obtain ⟨_, _, _, rfl⟩ := new
        simp [campaignRaft, self]
    newGrant := by
      intro candidate voter term sent
      rcases List.mem_append.mp sent with old | new
      · exact .inl old
      · simp [packetsOf] at new
    newWin := by
      intro other term won
      exact .inl (by simpa [Network.become, campaignRaft] using won)
    tally := by
      intro _
      refine ⟨(campaignRaft (network.nodes node)).currentTerm, ?_, List.mem_cons_self, ?_, fun _ => ?_⟩
      · rw [become_node]
      · simp only [become_node, campaignRaft, Finset.mem_singleton, self]
        rintro voter rfl
        exact ⟨member, .inl ⟨rfl, by simp [Network.become]⟩⟩
      · rw [become_node] }

theorem request_advance (request : VoteRequest) (sent : .voteRequest node request ∈ network.sent)
    (handled : handleRequestVote (network.nodes node) request = .ok (next, result)) :
    Advance voters network node next (network.become node (.requestVote request) next result) := by
  obtain ⟨hardState, granted, step, rfl⟩ := request_vote_step (network.nodes node) next request result handled
  have grows : (network.nodes node).currentTerm ≤ next.currentTerm := by rw [step.term]; exact Nat.le_max_left _ _
  have kept : ∀ role, role ≠ .follower → next.role = role → next.currentTerm = (network.nodes node).currentTerm := by
    intro role other same
    rcases Nat.eq_or_lt_of_le grows with equal | less
    · exact equal.symm
    · exact absurd (same.symm.trans (step.newer less)) other
  exact {
    nodes := rfl
    sameId := by rw [step.frame]
    sameVoters := by rw [step.frame]
    termGrows := grows
    voteKept := fun same candidate vote => ((step.kept same).2.2 (by simp [vote])).trans vote
    candidateKept := fun candidate same => (step.kept same).1 ▸ candidate
    sent := List.subset_append_left _ _
    campaigns := fun _ => id
    newCampaign := fun _ _ => .inl
    newRequest := by
      intro target other sent
      rcases List.mem_append.mp sent with old | new
      · exact .inl old
      · simp [packetsOf] at new
    newGrant := by
      intro candidate voter term sent'
      rcases List.mem_append.mp sent' with old | new
      · exact .inl old
      · simp only [packetsOf, List.mem_singleton, Packet.voteResponse.injEq, ReceivedVoteResponse.mk.injEq,
          VoteResponse.mk.injEq] at new
        obtain ⟨rfl, rfl, rfl, yes⟩ := new
        obtain ⟨term, vote, _⟩ := step.grant yes.symm
        exact .inr ⟨rfl, rfl, vote, term ▸ inv.requested voter request sent⟩
    newWin := by
      intro other term won
      refine .inl ?_
      have lost : ¬ ((network.nodes node).role = .candidate ∧ next.role = .leader) := by
        rintro ⟨candidate, leader⟩
        have same := kept .leader (by decide) leader
        rw [(step.kept same).1, candidate] at leader
        cases leader
      simpa only [Network.become, if_neg lost] using won
    tally := by
      intro candidate
      have same := kept .candidate (by decide) candidate
      obtain ⟨role, votes, _⟩ := step.kept same
      obtain ⟨term, bound, campaign, tally, current⟩ := inv.tally node member (role ▸ candidate)
      refine ⟨term, ?_, campaign, ?_, ?_⟩
      · rwa [become_node, same]
      · rw [become_node, votes]
        intro voter vote
        exact ⟨(tally voter vote).1, cast_more network _ voter node term (fun _ => id)
          (List.subset_append_left _ _) (tally voter vote).2⟩
      · rw [become_node, same]
        exact current }

omit inv member in
theorem response_sends_no_vote (received : ReceivedVoteResponse)
    (handled : handleVoteResponse (network.nodes node) received = .ok (next, result)) :
    (network.become node (.voteResponse received) next result).sent = network.sent := by
  cases vote_response_step (network.nodes node) next received result handled <;> simp [Network.become, packetsOf]

-- A counted response carries a vote of the tally's own campaign.
theorem counted_vote (received : ReceivedVoteResponse) (sent : .voteResponse node received ∈ network.sent)
    (counts : CountsVote (network.nodes node) received) :
    (node, (network.nodes node).currentTerm) ∈ network.campaigns ∧
      ∀ voter ∈ insert received.sender (network.nodes node).grantedVotes,
        voter ∈ voters ∧ Cast network voter (network.nodes node).currentTerm node := by
  have grant : .voteResponse node ⟨received.sender, ⟨(network.nodes node).currentTerm, true⟩⟩ ∈ network.sent := by
    rw [← counts.term, ← counts.granted]
    exact sent
  obtain ⟨within, campaign⟩ := inv.granted node received.sender _ grant
  obtain ⟨term, _, _, votes, current⟩ := inv.tally node member counts.candidate
  obtain rfl := current campaign
  refine ⟨campaign, ?_⟩
  intro voter vote
  rcases Finset.mem_insert.mp vote with rfl | old
  · exact ⟨within, .inr grant⟩
  · exact votes voter old

theorem response_advance (received : ReceivedVoteResponse) (sent : .voteResponse node received ∈ network.sent)
    (handled : handleVoteResponse (network.nodes node) received = .ok (next, result)) :
    Advance voters network node next (network.become node (.voteResponse received) next result) := by
  have silent := response_sends_no_vote network node next result received handled
  have common : next.id = (network.nodes node).id ∧ next.voters.keys = (network.nodes node).voters.keys ∧
      (network.nodes node).currentTerm ≤ next.currentTerm ∧
      (next.currentTerm = (network.nodes node).currentTerm → next.votedFor = (network.nodes node).votedFor) ∧
      (next.role = .candidate → (network.nodes node).role = .candidate) := by
    cases vote_response_step (network.nodes node) next received result handled with
    | stepsDown newer => exact ⟨rfl, rfl, Nat.le_of_lt newer, fun same => by dsimp only at same; omega, by simp⟩
    | notCandidate | ignored => exact ⟨rfl, rfl, Nat.le_refl _, fun _ => rfl, id⟩
    | tallied => exact ⟨rfl, rfl, Nat.le_refl _, fun _ => rfl, id⟩
    | elected counts => exact ⟨rfl, rfl, Nat.le_refl _, fun _ => rfl, fun _ => counts.candidate⟩
  have same : ∀ voter term, Cast network voter term node →
      Cast (network.become node (.voteResponse received) next result) voter term node := fun voter term cast =>
    cast_more network _ voter node term (fun _ => id) (by rw [silent]; exact fun _ => id) cast
  exact {
    nodes := rfl
    sameId := common.1
    sameVoters := common.2.1
    termGrows := common.2.2.1
    voteKept := fun now candidate vote => (common.2.2.2.1 now).trans vote
    candidateKept := fun candidate _ => common.2.2.2.2 candidate
    sent := by rw [silent]; exact fun _ => id
    campaigns := fun _ => id
    newCampaign := fun _ _ => .inl
    newRequest := by rw [silent]; exact fun _ _ => .inl
    newGrant := by rw [silent]; exact fun _ _ _ => .inl
    tally := by
      intro candidate
      have kept : ∀ votes, next.grantedVotes = votes → next.currentTerm = (network.nodes node).currentTerm →
          (∃ term, term ≤ (network.nodes node).currentTerm ∧ (node, term) ∈ network.campaigns ∧
            (∀ voter ∈ votes, voter ∈ voters ∧ Cast network voter term node) ∧
            ((node, (network.nodes node).currentTerm) ∈ network.campaigns → term = (network.nodes node).currentTerm)) →
          TallyValid voters (network.become node (.voteResponse received) next result) node := by
        rintro votes rfl now ⟨term, bound, campaign, cast, current⟩
        refine ⟨term, by rwa [become_node, now], campaign, ?_, by rwa [become_node, now]⟩
        rw [become_node]
        exact fun voter vote => (cast voter vote).imp id (same voter term)
      cases vote_response_step (network.nodes node) next received result handled with
      | stepsDown => cases candidate
      | notCandidate role => exact absurd candidate role
      | ignored => exact kept _ rfl rfl (inv.tally node member candidate)
      | tallied counts =>
          obtain ⟨campaign, votes⟩ := counted_vote voters network node inv member received sent counts
          exact kept _ rfl rfl ⟨_, Nat.le_refl _, campaign, votes, fun _ => rfl⟩
      | elected => cases candidate
    newWin := by
      intro other term won
      by_cases wins : (network.nodes node).role = .candidate ∧ next.role = .leader
      case neg => exact .inl (by simpa only [Network.become, if_neg wins] using won)
      simp only [Network.become, if_pos wins, List.mem_cons, Prod.mk.injEq] at won
      rcases won with ⟨rfl, rfl⟩ | old
      case inr => exact .inl old
      refine .inr ⟨rfl, rfl, wins.2, ?_⟩
      cases vote_response_step (network.nodes other) next received result handled with
      | stepsDown => cases wins.2
      | notCandidate role => exact absurd wins.1 role
      | ignored | tallied => exact absurd (wins.1.symm.trans wins.2) (by decide)
      | elected counts most =>
          obtain ⟨_, votes⟩ := counted_vote voters network other inv member received sent counts
          refine ⟨_, majority_of_tally voters _ _ (inv.sameVoters other member) (fun voter vote => (votes voter vote).1) most,
            fun voter vote => same voter _ (votes voter vote).2⟩ }

end Step

theorem votes_inv_step (voters : Finset NodeId) (network next : Network) (action : Action)
    (inv : VotesInv voters network) (moves : step voters network action = some next) : VotesInv voters next := by
  cases step_moved voters network next action moves with
  | timeout node member raft result handled =>
      exact advance_votes_inv voters network _ node raft inv
        (timeout_advance voters network node raft result inv member handled) member
  | request node member request sent raft result handled =>
      exact advance_votes_inv voters network _ node raft inv
        (request_advance voters network node raft result inv member request sent handled) member
  | response node member received sent raft result handled =>
      exact advance_votes_inv voters network _ node raft inv
        (response_advance voters network node raft result inv member received sent handled) member
  | other node member event quiet raft result handled =>
      exact advance_votes_inv voters network _ node raft inv
        (quiet_advance voters network node raft result inv member event quiet handled) member

theorem reachable_votes_inv (voters : Finset NodeId) (network : Network)
    (reach : Reachable (machine voters) network) : VotesInv voters network :=
  run_invariant (machine voters) _ (VotesInv voters) (votes_inv_start voters)
    (fun state action next _ inv _ moves => votes_inv_step voters state next action inv moves) network reach

-- At most one node goes from candidate to leader in a term, whatever the appends,
-- heartbeats, their responses and the local events interleaved with the votes say.
theorem one_winner_per_term (voters : Finset NodeId) (network : Network) (reach : Reachable (machine voters) network)
    (left right : NodeId) (term : Nat) (leftWon : (left, term) ∈ network.wins)
    (rightWon : (right, term) ∈ network.wins) : left = right :=
  winner_unique voters network (reachable_votes_inv voters network reach) left right term leftWon rightWon

-- The first node campaigns and wins term 1 with the second node's vote.
def firstElection : List Action :=
  [.timeout nodeA, .deliver (.voteRequest nodeB ⟨1, nodeA, 0, 0⟩), .deliver (.voteResponse nodeA ⟨nodeB, ⟨1, true⟩⟩)]

def afterFirstElection : Network :=
  (exec (machine threeNodes.toFinset) (freshNetwork threeNodes) firstElection).getD (freshNetwork threeNodes)

theorem first_election_runs :
    exec (machine threeNodes.toFinset) (freshNetwork threeNodes) firstElection = some afterFirstElection := by
  rfl

theorem one_winner_after_first_election : (nodeA, 1) ∈ afterFirstElection.wins ∧ nodeA = nodeA :=
  ⟨by decide, one_winner_per_term threeNodes.toFinset afterFirstElection
    (exec_reachable _ _ _ _ (.start _ (fresh_network_start threeNodes)) first_election_runs)
    nodeA nodeA 1 (by decide) (by decide)⟩

end RaftLog.Election
