import RaftLog.Election.OneWinner

set_option autoImplicit false

namespace RaftLog.Election

open Lib

def AtMostOneLeader (voters : Finset NodeId) (network : Network) : Prop :=
  ∀ left ∈ voters, ∀ right ∈ voters, (network.nodes left).role = .leader → (network.nodes right).role = .leader →
    (network.nodes left).currentTerm = (network.nodes right).currentTerm → left = right

-- The runs of the nodes' own traffic: heartbeats and appends come from nodes that led.
def FromLeaders (network : Network) (action : Action) : Prop := requestFromLeader network action = true

-- Of these, the runs in which no leader takes over the term of an append it rejects.
def StepsDown (network : Network) (action : Action) : Prop :=
  FromLeaders network action ∧ rejectsAtLeader network action = false

def LeadersWon (voters : Finset NodeId) (network : Network) : Prop :=
  ∀ node ∈ voters, (network.nodes node).role = .leader → (node, (network.nodes node).currentTerm) ∈ network.wins

theorem leaders_won_start (voters : Finset NodeId) (network : Network) (start : Start voters network) :
    LeadersWon voters network := by
  intro node member leader
  rw [start.followers node member] at leader
  cases leader

-- A leader either keeps the term it won or has just won its term.
theorem become_leaders_won (voters : Finset NodeId) (network : Network) (node : NodeId) (event : Event) (next : Raft)
    (result : Except Error (Option Effect)) (won : LeadersWon voters network) (member : node ∈ voters)
    (moved : next.role = .leader → (network.nodes node).role = .candidate ∨
      (network.nodes node).role = .leader ∧ next.currentTerm = (network.nodes node).currentTerm) :
    LeadersWon voters (network.become node event next result) := by
  have kept : ∀ other term, (other, term) ∈ network.wins → (other, term) ∈ (network.become node event next result).wins := by
    intro other term old
    simp only [Network.become]
    split
    · exact List.mem_cons_of_mem _ old
    · exact old
  intro other otherMember leader
  by_cases same : other = node
  · subst other
    rw [become_node] at leader ⊢
    rcases moved leader with candidate | ⟨led, term⟩
    · simp only [Network.become, if_pos (And.intro candidate leader)]
      exact List.mem_cons_self
    · rw [term]
      exact kept node _ (won node member led)
  · have unchanged : (network.become node event next result).nodes other = network.nodes other := by
      simp [Network.become, same]
    rw [unchanged] at leader ⊢
    exact kept other _ (won other otherMember leader)

theorem leaders_won_step (voters : Finset NodeId) (network after : Network) (action : Action)
    (won : LeadersWon voters network) (down : StepsDown network action)
    (moves : step voters network action = some after) : LeadersWon voters after := by
  cases step_moved voters network after action moves with
  | timeout node member next result handled =>
      refine become_leaders_won voters network node _ next result won member fun leader => ?_
      rw [(election_timeout_step _ _ _ handled).1] at leader
      cases leader
  | request node member request sent next result handled =>
      obtain ⟨hardState, granted, step, _⟩ := request_vote_step _ _ _ _ handled
      refine become_leaders_won voters network node _ next result won member fun leader => .inr ?_
      rcases Nat.lt_or_eq_of_le (show (network.nodes node).currentTerm ≤ next.currentTerm by
        rw [step.term]; exact Nat.le_max_left _ _) with newer | same
      · rw [step.newer newer] at leader
        cases leader
      · exact ⟨(step.kept same.symm).1 ▸ leader, same.symm⟩
  | response node member received sent next result handled =>
      refine become_leaders_won voters network node _ next result won member fun leader => ?_
      cases vote_response_step _ _ _ _ handled with
      | stepsDown => cases leader
      | notCandidate | ignored => exact .inr ⟨leader, rfl⟩
      | tallied => exact .inr ⟨leader, rfl⟩
      | elected counts => exact .inl counts.candidate
  | other node member event quiet next result handled =>
      refine become_leaders_won voters network node event next result won member fun leader => .inr ?_
      obtain ⟨led, same | rejects⟩ := (handle_quiet _ _ event result quiet handled).leaderKept leader
      · exact ⟨led, same⟩
      · have atLeader : rejectsAtLeader network (.other node event) = true := by simp [rejectsAtLeader, led, rejects]
        rw [down.2] at atLeader
        cases atLeader

-- Two leaders of one term are two winners of it, so votes alone decide who leads,
-- in the runs where taking over a term always ends a leadership.
theorem at_most_one_leader (voters : Finset NodeId) (network : Network)
    (run : Run (machine voters) StepsDown network) : AtMostOneLeader voters network := by
  have won : LeadersWon voters network :=
    run_invariant (machine voters) _ (LeadersWon voters) (leaders_won_start voters)
      (fun state action next _ won down moves => leaders_won_step voters state next action won down moves) network run
  have votes := reachable_votes_inv voters network (run_reachable _ _ network run)
  intro left leftMember right rightMember leftLeads rightLeads same
  have leftWon := won left leftMember leftLeads
  have rightWon := won right rightMember rightLeads
  rw [← same] at rightWon
  exact winner_unique voters network votes left right _ leftWon rightWon

-- After the first election the third node wins term 2 while the old leader hears nothing.
def secondElection : List Action :=
  firstElection ++ [.timeout nodeC, .timeout nodeC, .deliver (.voteRequest nodeB ⟨2, nodeC, 0, 0⟩),
    .deliver (.voteResponse nodeC ⟨nodeB, ⟨2, true⟩⟩)]

-- A heartbeat of the new leader makes the old one step down.
def handover : List Action := secondElection ++ [.other nodeA (.heartbeat ⟨2, nodeC, 0, 0, 0⟩)]

-- An append it rejects does not.
def rejectedAppend : List Action :=
  secondElection ++ [.other nodeA (.appendEntries ⟨⟨7⟩, ⟨2, nodeC, 5, 1, 0⟩, none⟩)]

def stepsDownTest (network : Network) (action : Action) : Bool :=
  requestFromLeader network action && !rejectsAtLeader network action

theorem steps_down_test (network : Network) (action : Action) (test : stepsDownTest network action = true) :
    StepsDown network action := by
  simpa [stepsDownTest, StepsDown, FromLeaders] using test

def runOf (test : Network → Action → Bool) (actions : List Action) : Network :=
  (execWhen (machine threeNodes.toFinset) test (freshNetwork threeNodes) actions).getD (freshNetwork threeNodes)

def afterHandover : Network := runOf stepsDownTest handover

theorem handover_runs : Run (machine threeNodes.toFinset) StepsDown afterHandover :=
  exec_when_run _ _ stepsDownTest steps_down_test handover _ _ (.start _ (fresh_network_start threeNodes)) rfl

theorem one_leader_after_handover : (nodeC, 2) ∈ afterHandover.led ∧ AtMostOneLeader threeNodes.toFinset afterHandover :=
  ⟨by decide, at_most_one_leader threeNodes.toFinset afterHandover handover_runs⟩

def afterRejectedAppend : Network := runOf requestFromLeader rejectedAppend

theorem two_leaders_after_rejected_append :
    ¬ ∀ network, Run (machine threeNodes.toFinset) FromLeaders network → AtMostOneLeader threeNodes.toFinset network := by
  intro always
  have run : Run (machine threeNodes.toFinset) FromLeaders afterRejectedAppend :=
    exec_when_run _ _ requestFromLeader (fun _ _ => id) rejectedAppend _ _ (.start _ (fresh_network_start threeNodes)) rfl
  have same := always afterRejectedAppend run nodeA (by decide) nodeC (by decide) rfl rfl rfl
  exact absurd same (by decide)

end RaftLog.Election
