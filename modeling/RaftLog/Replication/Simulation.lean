import RaftLog.Replication.Growth

set_option autoImplicit false

namespace RaftLog.Replication

open Lib

-- Executing an effect never touches the raft state, sends the votes of the effect and
-- leads to an event about entries only.
theorem execute_effect (node next : Node) (operation : Operation) (effect : Effect) (packets : List Packet)
    (following : Option Event) (executed : execute node operation effect = .ok (next, packets, following)) :
    next.raft = node.raft ∧ (∀ event, following = some event → event.quiet = true) ∧
      ∀ packet, .vote packet ∈ packets ↔ packet ∈ Election.packetsOf node.raft.id (.ok (some effect)) := by
  cases effect with
  | persistEntries | appendLocal =>
      cases operation <;> cases executed
      exact ⟨rfl, by rintro _ ⟨⟩; rfl, by simp [Election.packetsOf]⟩
  | applyCommitted =>
      cases executed
      exact ⟨rfl, by rintro _ ⟨⟩; rfl, by simp [Election.packetsOf]⟩
  | _ =>
      cases executed
      exact ⟨rfl, by simp, by simp [Election.packetsOf]⟩

section Simulation

variable (voters : List NodeId) (network : Election.Network) (node : NodeId) (member : node ∈ voters)

include member

theorem become_reachable (action : Election.Action) (event : Event) (raft : Raft) (result : Except Error (Option Effect))
    (reach : Reachable (Election.machine voters.toFinset) network)
    (acts : Election.step voters.toFinset network action = network.act voters.toFinset node event)
    (handled : handle (network.nodes node) event = .ok (raft, result)) :
    Reachable (Election.machine voters.toFinset) (network.become node event raft result) := by
  refine .step network _ action reach trivial ?_
  show Election.step voters.toFinset network action = _
  rw [acts, Election.Network.act, if_pos (List.mem_toFinset.mpr member), handled]

-- What a turn without votes is to the election: the node moved, nothing else did.
theorem quiet_simulated (operation : Operation) (before final : Node) (event : Event) (packets : List Packet)
    (reach : Reachable (Election.machine voters.toFinset) network) (tracked : network.nodes node = before.raft)
    (quiet : event.quiet = true) (drives : Drives operation before event final packets) :
    (∀ packet, .vote packet ∉ packets) ∧ ∃ after, Reachable (Election.machine voters.toFinset) after ∧
      Follows network after node final.raft ∧ after.sent = network.sent ∧
      after.campaigns = network.campaigns ∧ after.wins = network.wins := by
  induction drives generalizing network with
  | stops before event raft result handled idle =>
      rw [← tracked] at handled
      obtain ⟨sent, campaigns, wins⟩ := Election.quiet_unchanged network node raft result event quiet handled
      refine ⟨by simp, network.become node event raft result,
        become_reachable voters network node member (.other node event) event raft result reach
          (by simp [Election.step, quiet]) handled, ⟨rfl, ?_⟩, sent, campaigns, wins⟩
      exact (handle_quiet _ _ _ _ quiet handled).termGrows
  | ends before next event raft effect packets handled executed =>
      obtain ⟨same, _, votes⟩ := execute_effect _ next operation effect packets none executed
      have silent := quiet_casts_no_vote _ _ _ _ quiet handled
      rw [← tracked] at handled
      obtain ⟨sent, campaigns, wins⟩ := Election.quiet_unchanged network node raft _ event quiet handled
      refine ⟨fun packet vote => ?_, network.become node event raft (.ok (some effect)),
        become_reachable voters network node member (.other node event) event raft _ reach
          (by simp [Election.step, quiet]) handled, ⟨by rw [same]; rfl, ?_⟩, sent, campaigns, wins⟩
      · rw [votes packet, Election.packets_of_silent _ _ silent] at vote
        cases vote
      · rw [same]
        exact (handle_quiet _ _ _ _ quiet handled).termGrows
  | follows before middle final event following raft effect packets more handled executed rest ih =>
      obtain ⟨same, next, votes⟩ := execute_effect _ middle operation effect packets _ executed
      have silent := quiet_casts_no_vote _ _ _ _ quiet handled
      rw [← tracked] at handled
      obtain ⟨sent, campaigns, wins⟩ := Election.quiet_unchanged network node raft _ event quiet handled
      obtain ⟨noVotes, after, reached, follows, afterSent, afterCampaigns, afterWins⟩ :=
        ih (network.become node event raft (.ok (some effect)))
          (become_reachable voters network node member (.other node event) event raft _ reach
            (by simp [Election.step, quiet]) handled)
          (by rw [Election.become_node, same]) (next following rfl)
      refine ⟨fun packet vote => ?_, after, reached, ⟨?_, ?_⟩, afterSent.trans sent,
        afterCampaigns.trans campaigns, afterWins.trans wins⟩
      · rcases List.mem_append.mp vote with first | later
        · rw [votes packet, Election.packets_of_silent _ _ silent] at first
          cases first
        · exact noVotes packet later
      · rw [follows.nodes]
        exact Function.update_idem _ _ _
      · have grows := follows.grows
        rw [Election.become_node] at grows
        exact Nat.le_trans (handle_quiet _ _ _ _ quiet handled).termGrows grows

theorem timeout_simulated (before final : Node) (packets : List Packet)
    (reach : Reachable (Election.machine voters.toFinset) network) (tracked : network.nodes node = before.raft)
    (drives : Drives .other before .electionTimeout final packets) :
    ∃ after, Reachable (Election.machine voters.toFinset) after ∧
      Follows network after node (campaignRaft before.raft) ∧
      (∀ packet, packet ∈ after.sent ↔ packet ∈ network.sent ∨ .vote packet ∈ packets) ∧
      after.campaigns = (node, before.raft.currentTerm + 1) :: network.campaigns ∧ after.wins = network.wins := by
  obtain ⟨raft, result, handled⟩ := drives_handled _ _ _ _ _ drives
  obtain ⟨rfl, same⟩ := election_timeout_step _ raft result handled
  obtain ⟨_, rfl⟩ := timeout_driven _ _ _ _ drives
  rw [← tracked] at handled same ⊢
  refine ⟨_, become_reachable voters network node member (.timeout node) .electionTimeout _ result reach rfl handled,
    ⟨rfl, Nat.le_succ _⟩, fun packet => ?_, ?_, ?_⟩
  · subst same
    simp [Election.Network.become, Election.packetsOf, campaignRaft]
  · simp [Election.Network.become, campaignRaft]
  · simp [Election.Network.become, campaignRaft]

theorem request_simulated (before final : Node) (packets : List Packet) (request : VoteRequest)
    (reach : Reachable (Election.machine voters.toFinset) network) (tracked : network.nodes node = before.raft)
    (self : before.raft.id = node) (sent : .voteRequest node request ∈ network.sent)
    (drives : Drives .other before (.requestVote request) final packets) :
    ∃ next hardState granted after, RequestVoteStep before.raft request next hardState granted ∧
      final = { before with raft := next } ∧
      packets = [.vote (.voteResponse request.candidateId ⟨node, ⟨next.currentTerm, granted⟩⟩)] ∧
      Reachable (Election.machine voters.toFinset) after ∧ Follows network after node next ∧
      (∀ packet, packet ∈ after.sent ↔ packet ∈ network.sent ∨ .vote packet ∈ packets) ∧
      after.campaigns = network.campaigns ∧ after.wins = network.wins := by
  obtain ⟨next, result, handled⟩ := drives_handled _ _ _ _ _ drives
  obtain ⟨hardState, granted, step, rfl⟩ := request_vote_step _ next request result handled
  obtain ⟨rfl, rfl⟩ := drives_ended .other _ final _ _ packets _ _ _ handled rfl drives
  have sameId : next.id = node := by
    rw [step.frame]
    exact self
  have grows : (network.nodes node).currentTerm ≤ next.currentTerm := by
    rw [tracked, step.term]
    exact Nat.le_max_left _ _
  rw [← tracked] at handled
  refine ⟨next, hardState, granted, _, step, rfl, by rw [← sameId], become_reachable voters network node member
    (.deliver (.voteRequest node request)) (.requestVote request) _ _ reach (by simp [Election.step, sent]) handled,
    ⟨rfl, grows⟩, fun packet => ?_, rfl, if_neg ?_⟩
  · simp [Election.Network.become, Election.packetsOf, sameId]
  · rintro ⟨candidate, leads⟩
    rcases Nat.eq_or_lt_of_le grows with equal | less
    · rw [tracked] at equal candidate
      rw [(step.kept equal.symm).1, candidate] at leads
      cases leads
    · rw [tracked] at less
      rw [step.newer less] at leads
      cases leads

theorem response_simulated (before final : Node) (packets : List Packet) (received : ReceivedVoteResponse)
    (reach : Reachable (Election.machine voters.toFinset) network) (tracked : network.nodes node = before.raft)
    (sent : .voteResponse node received ∈ network.sent)
    (drives : Drives .other before (.voteResponse received) final packets) :
    ∃ next result after, VoteResponseStep before.raft received next result ∧ final = { before with raft := next } ∧
      (packets = [] ∨ (before.raft.role = .candidate ∧ next.role = .leader) ∧
        packets = before.raft.peers.map fun peer => .heartbeat peer before.raft.heartbeatRequest) ∧
      Reachable (Election.machine voters.toFinset) after ∧ Follows network after node next ∧
      after.sent = network.sent ∧ after.campaigns = network.campaigns ∧
      after.wins = if before.raft.role = .candidate ∧ next.role = .leader then
        (node, next.currentTerm) :: network.wins else network.wins := by
  obtain ⟨next, result, handled, rfl, packetsAre⟩ := vote_response_driven .other _ final packets received drives
  have step := vote_response_step _ next received result handled
  have grows : (network.nodes node).currentTerm ≤ next.currentTerm := by
    rw [tracked]
    cases step with
    | stepsDown newer => exact Nat.le_of_lt newer
    | notCandidate | ignored => exact Nat.le_refl _
    | tallied | elected => exact Nat.le_refl _
  rw [← tracked] at handled
  refine ⟨next, result, _, step, rfl, packetsAre, become_reachable voters network node member
    (.deliver (.voteResponse node received)) (.voteResponse received) next result reach (by simp [Election.step, sent]) handled,
    ⟨rfl, grows⟩, Election.response_sends_no_vote network node next result received handled, rfl, ?_⟩
  rw [← tracked]
  rfl

end Simulation

theorem tracks_become (network after : Election.Network) (cluster : Cluster) (node : NodeId) (next : Node)
    (packets : List Packet) (tracks : Tracks network cluster) (follows : Follows network after node next.raft)
    (sent : ∀ packet, packet ∈ after.sent ↔ packet ∈ network.sent ∨ .vote packet ∈ packets) :
    Tracks after (cluster.become node next packets) where
  nodes := by
    intro other
    rw [follows.nodes]
    by_cases same : other = node
    · subst same
      rw [Function.update_self, become_self]
    · rw [Function.update_of_ne same, become_other cluster node other next packets same, tracks.nodes]
  sent := by
    intro packet
    rw [sent, Cluster.become, List.mem_append, tracks.sent]

end RaftLog.Replication
