import RaftLog.Core.StepDown
import RaftLog.Election.HardState

set_option autoImplicit false

namespace RaftLog.Reboots

open Lib Election HardState

-- Nodes that save before they send, and that may each crash between any two steps. The second
-- field only records the past.
structure Cluster where
  nodes : NodeId → Node
  wins : List (NodeId × Nat)

structure Action where
  node : NodeId
  action : HardState.Action
deriving DecidableEq, Repr

-- A vote is counted only if one of the nodes has sent it. Every other message may be anyone's.
def arrives (voters : List NodeId) (cluster : Cluster) (node : NodeId) : HardState.Action → Bool
  | .event (.voteResponse received) => voters.any fun other => decide (.voteResponse node received ∈ (cluster.nodes other).sent)
  | _ => true

def Cluster.become (cluster : Cluster) (node : NodeId) (next : Node) : Cluster where
  nodes := Function.update cluster.nodes node next
  wins := if (cluster.nodes node).raft.role = .candidate ∧ next.raft.role = .leader then
      (node, next.raft.currentTerm) :: cluster.wins else cluster.wins

@[simp] theorem become_self (cluster : Cluster) (node : NodeId) (next : Node) : (cluster.become node next).nodes node = next :=
  Function.update_self ..

theorem become_other (cluster : Cluster) (node other : NodeId) (next : Node) (apart : other ≠ node) :
    (cluster.become node next).nodes other = cluster.nodes other := Function.update_of_ne apart ..

def step (voters : List NodeId) (cluster : Cluster) (action : Action) : Option Cluster :=
  if action.node ∈ voters ∧ arrives voters cluster action.node action.action = true then
    (HardState.step action.node voters (cluster.nodes action.node) action.action).map (cluster.become action.node)
  else none

-- Every node has read its disk, whatever that holds.
structure Start (voters : List NodeId) (cluster : Cluster) : Prop where
  nodes : ∀ node ∈ voters, ∃ nextOffset disk, cluster.nodes node = booted node voters nextOffset disk
  wins : cluster.wins = []

def machine (voters : List NodeId) : Machine Cluster Action := ⟨Start voters, step voters⟩

def leavesNoOldVote (cluster : Cluster) (action : Action) : Bool :=
  HardState.leavesNoOldVote (cluster.nodes action.node) action.action

-- A vote that has left the voter: its own request, or a grant.
def Cast (cluster : Cluster) (voter : NodeId) (term : Nat) (candidate : NodeId) : Prop :=
  ∃ packet ∈ (cluster.nodes voter).sent, named packet = some (term, candidate)

section Node

variable (voters : List NodeId)

-- A candidate has asked every peer, or is about to, and counts its own vote and what was sent to it.
structure Candidacy (cast : NodeId → Nat → NodeId → Prop) (id : NodeId) (node : Node) : Prop where
  vote : node.raft.votedFor = some id
  self : id ∈ node.raft.grantedVotes
  asked : ∀ peer ∈ node.raft.peers, ∃ request : VoteRequest, request.term = node.raft.currentTerm ∧ request.candidateId = id ∧
    (.voteRequest peer request ∈ node.sent ∨ .send (.voteRequest peer request) ∈ node.pending)
  votes : ∀ voter ∈ node.raft.grantedVotes, voter ∈ voters ∧ (voter = id ∨ cast voter node.raft.currentTerm id)

-- What holds of one node, given the votes that have been sent and the terms that have been won.
structure Standing (cast : NodeId → Nat → NodeId → Prop) (wins : List (NodeId × Nat)) (id : NodeId) (node : Node) : Prop where
  sameId : node.raft.id = id
  sameVoters : node.raft.voters.keys.toFinset = voters.toFinset
  hard : HardStateInv node
  own : ∀ peer received, .voteResponse peer received ∈ node.sent ∨ .send (.voteResponse peer received) ∈ node.pending →
    received.sender = id
  candidate : node.raft.role = .candidate → Candidacy voters cast id node
  leader : node.raft.role = .leader → node.raft.votedFor = some id ∧ (id, node.raft.currentTerm) ∈ wins

theorem standing_more (cast after : NodeId → Nat → NodeId → Prop) (wins later : List (NodeId × Nat)) (id : NodeId)
    (node : Node) (more : ∀ voter term candidate, cast voter term candidate → after voter term candidate)
    (grown : wins ⊆ later) (standing : Standing voters cast wins id node) : Standing voters after later id node where
  sameId := standing.sameId
  sameVoters := standing.sameVoters
  hard := standing.hard
  own := standing.own
  candidate := fun candidate =>
    have before := standing.candidate candidate
    ⟨before.vote, before.self, before.asked, fun voter granted =>
      ⟨(before.votes voter granted).1, (before.votes voter granted).2.imp_right (more voter _ id)⟩⟩
  leader := fun leader => ⟨(standing.leader leader).1, grown (standing.leader leader).2⟩

theorem booted_standing (cast : NodeId → Nat → NodeId → Prop) (id : NodeId) (nextOffset : Nat) (disk : State) :
    Standing voters cast [] id (booted id voters nextOffset disk) where
  sameId := rfl
  sameVoters := new_raft_voters id voters nextOffset disk
  hard := hard_state_inv_start id voters nextOffset disk
  own := by simp [booted]
  candidate := by intro role; cases role
  leader := by intro role; cases role

end Node

-- Only an append that it rejects takes a node to a later term that does not make it a follower.
theorem quiet_term_kept (raft next : Raft) (event : Event) (result : Except Error (Option Effect)) (quiet : event.quiet = true)
    (voted : raft.votedFor.isSome = true) (clean : (rejectsNewerAppend raft event && raft.votedFor.isSome) = false)
    (handled : handle raft event = .ok (next, result)) (stays : next.role ≠ .follower) :
    next.currentTerm = raft.currentTerm := by
  rcases Nat.eq_or_lt_of_le (handle_quiet raft next event result quiet handled).termGrows with same | raised
  · exact same.symm
  exfalso
  by_cases append : ∃ received, event = .appendEntries received
  · obtain ⟨received, rfl⟩ := append
    cases append_entries_step raft next received result handled with
    | stale => exact Nat.lt_irrefl _ raised
    | rejected fresh mismatch =>
        have newer : received.request.term > raft.currentTerm := raised
        simp [rejectsNewerAppend, newer, mismatch, voted] at clean
    | accepted => exact stays rfl
  · push Not at append
    have notTimeout : event ≠ .electionTimeout := by
      rintro rfl
      cases quiet
    exact stays (steps_down_otherwise raft next event result notTimeout append handled raised).role

theorem work_own (id peer : NodeId) (received : ReceivedVoteResponse) (result : Except Error (Option Effect))
    (owed : .send (.voteResponse peer received) ∈ workOf id result) : received.sender = id := by
  unfold workOf at owed
  split at owed
  · simp at owed
  · simp only [List.mem_cons, List.not_mem_nil, or_false, reduceCtorEq, false_or, Work.send.injEq, Packet.voteResponse.injEq] at owed
    rw [owed.2]
  · simp only [List.mem_cons, List.not_mem_nil, or_false, Work.send.injEq, Packet.voteResponse.injEq] at owed
    rw [owed.2]
  · cases owed

section Event

variable (voters : List NodeId) (cast : NodeId → Nat → NodeId → Prop) (wins later : List (NodeId × Nat)) (id : NodeId)
  (node : Node) (standing : Standing voters cast wins id node) (idle : node.pending = []) (grown : wins ⊆ later)

include standing grown

-- A node that is idle and keeps its vote, its term and its tally keeps its standing.
theorem kept_standing (next : Raft) (work : List Work)
    (frame : next.id = node.raft.id ∧ next.voters.keys = node.raft.voters.keys)
    (hard : HardStateInv { node with raft := next, pending := work })
    (own : ∀ peer received, .send (.voteResponse peer received) ∈ work → received.sender = id)
    (kept : next.role ≠ .follower → next.role = node.raft.role ∧ next.currentTerm = node.raft.currentTerm ∧
      next.votedFor = node.raft.votedFor)
    (idle : node.pending = []) (tally : next.role = .candidate → next.grantedVotes = node.raft.grantedVotes) :
    Standing voters cast later id { node with raft := next, pending := work } where
  sameId := frame.1.trans standing.sameId
  sameVoters := by rw [frame.2]; exact standing.sameVoters
  hard := hard
  own := by
    rintro peer received (sent | owed)
    · exact standing.own peer received (.inl sent)
    · exact own peer received owed
  candidate := by
    intro candidate
    dsimp only at candidate
    obtain ⟨role, term, vote⟩ := kept (by rw [candidate]; decide)
    have before := standing.candidate (role ▸ candidate)
    have peers : next.peers = node.raft.peers := by rw [Raft.peers, Raft.peers, frame.1, frame.2]
    constructor
    · exact vote.trans before.vote
    · rw [tally candidate]
      exact before.self
    · intro peer asked
      rw [peers] at asked
      obtain ⟨request, now, own, sent⟩ := before.asked peer asked
      rw [idle] at sent
      exact ⟨request, now.trans term.symm, own, .inl (sent.resolve_right (List.not_mem_nil))⟩
    · intro voter granted
      rw [tally candidate] at granted
      rw [term]
      exact before.votes voter granted
  leader := by
    intro leader
    dsimp only at leader
    obtain ⟨role, term, vote⟩ := kept (by rw [leader]; decide)
    obtain ⟨own, won⟩ := standing.leader (role ▸ leader)
    exact ⟨vote.trans own, term ▸ grown won⟩

include idle

theorem quiet_standing (event : Event) (next : Raft) (result : Except Error (Option Effect)) (quiet : event.quiet = true)
    (clean : (rejectsNewerAppend node.raft event && node.raft.votedFor.isSome) = false)
    (handled : handle node.raft event = .ok (next, result))
    (hard : HardStateInv { node with raft := next, pending := workOf id result }) :
    Standing voters cast later id { node with raft := next, pending := workOf id result } := by
  have step := handle_quiet node.raft next event result quiet handled
  have voted : next.role ≠ .follower → next.role = node.raft.role ∧ node.raft.votedFor = some id := by
    intro stays
    cases role : next.role with
    | follower => exact absurd role stays
    | candidate =>
        have before := (step.candidateKept role).1
        exact ⟨before.symm, (standing.candidate before).vote⟩
    | leader =>
        have before := (step.leaderKept role).1
        exact ⟨before.symm, (standing.leader before).1⟩
  apply kept_standing voters cast wins later id node standing grown next _ ⟨step.sameId, step.sameVoters⟩ hard
    (fun peer received => work_own id peer received result) ?_ idle fun candidate => (step.candidateKept candidate).2
  intro stays
  obtain ⟨role, vote⟩ := voted stays
  have term := quiet_term_kept node.raft next event result quiet (by rw [vote]; rfl) clean handled stays
  exact ⟨role, term, step.voteKept term⟩

omit idle grown in
theorem timeout_standing (member : id ∈ voters) (next : Raft) (result : Except Error (Option Effect))
    (handled : handleElectionTimeout node.raft = .ok (next, result))
    (hard : HardStateInv { node with raft := next, pending := workOf id result }) :
    Standing voters cast later id { node with raft := next, pending := workOf id result } := by
  obtain ⟨rfl, rfl⟩ := election_timeout_step node.raft next result handled
  have self : (campaignRaft node.raft).id = id := standing.sameId
  constructor
  case sameId => exact standing.sameId
  case sameVoters => exact standing.sameVoters
  case hard => exact hard
  case own =>
    rintro peer received (sent | owed)
    · exact standing.own peer received (.inl sent)
    · exact work_own id peer received (.ok (some (.sendRequestVotes _ _ _))) owed
  case candidate =>
    intro _
    constructor
    · exact congrArg some standing.sameId
    · simp [campaignRaft, standing.sameId]
    · intro peer asked
      exact ⟨_, rfl, self, .inr (List.mem_cons_of_mem _ (List.mem_map_of_mem asked))⟩
    · intro voter granted
      have own : voter = id := by simpa [campaignRaft, standing.sameId] using granted
      exact ⟨own ▸ member, .inl own⟩
  case leader => intro leader; cases leader

theorem request_standing (request : VoteRequest) (next : Raft) (result : Except Error (Option Effect))
    (handled : handleRequestVote node.raft request = .ok (next, result))
    (hard : HardStateInv { node with raft := next, pending := workOf id result }) :
    Standing voters cast later id { node with raft := next, pending := workOf id result } := by
  obtain ⟨hardState, granted, step, rfl⟩ := request_vote_step node.raft next request result handled
  have same : next.role ≠ .follower → next.currentTerm = node.raft.currentTerm := by
    intro stays
    have grows : node.raft.currentTerm ≤ next.currentTerm := by rw [step.term]; exact Nat.le_max_left _ _
    rcases Nat.eq_or_lt_of_le grows with same | newer
    · exact same.symm
    · exact absurd (step.newer newer) stays
  apply kept_standing voters cast wins later id node standing grown next _ ?_ hard
    (fun peer received => work_own id peer received _) ?_ idle ?_
  · rw [step.frame]
    exact ⟨rfl, rfl⟩
  · intro stays
    obtain ⟨role, _, vote⟩ := step.kept (same stays)
    have voted : node.raft.votedFor ≠ none := by
      cases before : node.raft.role with
      | follower => exact absurd (role.trans before) stays
      | candidate => rw [(standing.candidate before).vote]; simp
      | leader => rw [(standing.leader before).1]; simp
    exact ⟨role, same stays, vote voted⟩
  · intro candidate
    exact (step.kept (same (by rw [candidate]; decide))).2.1

-- The vote that a candidate counts is one that the voter has sent.
theorem response_standing (received : ReceivedVoteResponse) (next : Raft) (result : Except Error (Option Effect))
    (counted : CountsVote node.raft received → cast received.sender node.raft.currentTerm id)
    (won : node.raft.role = .candidate → next.role = .leader → (id, next.currentTerm) ∈ later)
    (handled : handleVoteResponse node.raft received = .ok (next, result))
    (hard : HardStateInv { node with raft := next, pending := workOf id result }) :
    Standing voters cast later id { node with raft := next, pending := workOf id result } := by
  cases vote_response_step node.raft next received result handled with
  | stepsDown =>
      exact kept_standing voters cast wins later id node standing grown _ _ ⟨rfl, rfl⟩ hard (fun _ _ owed => by cases owed)
        (fun stays => absurd rfl stays) idle fun candidate => by cases candidate
  | notCandidate | ignored =>
      exact kept_standing voters cast wins later id node standing grown _ _ ⟨rfl, rfl⟩ hard (fun _ _ owed => by cases owed)
        (fun _ => ⟨rfl, rfl, rfl⟩) idle fun _ => rfl
  | tallied counts =>
      have before := standing.candidate counts.candidate
      refine ⟨standing.sameId, standing.sameVoters, hard, ?_, fun _ => ⟨before.vote, ?_, ?_, ?_⟩, ?_⟩
      · exact fun peer received sent => standing.own peer received (.inl (sent.resolve_right List.not_mem_nil))
      · exact Finset.mem_insert_of_mem before.self
      · intro peer asked
        obtain ⟨request, now, own, sent⟩ := before.asked peer asked
        rw [idle] at sent
        exact ⟨request, now, own, .inl (sent.resolve_right List.not_mem_nil)⟩
      · intro voter granted
        rcases Finset.mem_insert.mp granted with rfl | old
        · have inside : received.sender ∈ voters.toFinset :=
            standing.sameVoters ▸ List.mem_toFinset.mpr (AList.mem_keys.mp counts.voter)
          exact ⟨List.mem_toFinset.mp inside, .inr (counted counts)⟩
        · exact before.votes voter old
      · intro leader
        exact absurd (leader.symm.trans counts.candidate) (by decide)
  | elected counts =>
      refine ⟨standing.sameId, standing.sameVoters, hard, ?_, ?_, fun _ => ?_⟩
      · exact fun peer received sent => standing.own peer received (.inl (sent.resolve_right List.not_mem_nil))
      · intro candidate
        cases candidate
      · exact ⟨(standing.candidate counts.candidate).vote, won counts.candidate rfl⟩

end Event

section Step

variable (voters : List NodeId) (id : NodeId) (node after : Node)

-- What a step of a node does: one handler while nothing is owed, one primitive step, or a crash.
inductive Moved : HardState.Action → Prop where
  | event (event : Event) (idle : node.pending = []) (next : Raft) (result : Except Error (Option Effect))
      (handled : handle node.raft event = .ok (next, result))
      (same : after = { node with raft := next, pending := workOf id result }) : Moved (.event event)
  | save (state : State) (rest : List Work) (head : node.pending = .save state :: rest)
      (same : after = { node with disk := state, pending := rest }) : Moved .advance
  | send (packet : Packet) (rest : List Work) (head : node.pending = .send packet :: rest)
      (same : after = { node with sent := packet :: node.sent, pending := rest }) : Moved .advance
  | crash (nextOffset : Nat) (same : after = { node with raft := newRaft id voters nextOffset node.disk, pending := [] }) :
      Moved (.crash nextOffset)

theorem step_moved (action : HardState.Action) (moves : HardState.step id voters node action = some after) :
    Moved voters id node after action := by
  cases action with
  | event event =>
      simp only [HardState.step] at moves
      split at moves
      case isFalse => cases moves
      rename_i idle
      split at moves
      case h_2 => cases moves
      rename_i next result handled
      exact .event event idle next result handled (Option.some.inj moves).symm
  | advance =>
      simp only [HardState.step] at moves
      split at moves
      · rename_i state rest head
        exact .save state rest head (Option.some.inj moves).symm
      · rename_i packet rest head
        exact .send packet rest head (Option.some.inj moves).symm
      · cases moves
  | crash nextOffset => exact .crash nextOffset (Option.some.inj moves).symm

theorem moved_sent (action : HardState.Action) (moved : Moved voters id node after action) : node.sent ⊆ after.sent := by
  cases moved with
  | event _ _ _ _ _ same | save _ _ _ same | crash _ same =>
      subst same
      exact List.Subset.refl _
  | send packet rest head same =>
      subst same
      exact List.subset_cons_self _ _

-- Only a counted vote makes a candidate the leader.
theorem moved_elected (action : HardState.Action) (moved : Moved voters id node after action)
    (candidate : node.raft.role = .candidate) (leader : after.raft.role = .leader) :
    ∃ received, action = .event (.voteResponse received) ∧ node.pending = [] ∧ CountsVote node.raft received ∧
      after.raft.currentTerm = node.raft.currentTerm ∧
      (insert received.sender node.raft.grantedVotes).card > node.raft.voters.keys.length / 2 := by
  cases moved with
  | event event idle next result handled same =>
      subst same
      by_cases quiet : event.quiet = true
      · have led := ((handle_quiet node.raft next event result quiet handled).leaderKept leader).1
        exact absurd (candidate.symm.trans led) (by decide)
      cases event with
      | electionTimeout =>
          obtain ⟨rfl, _⟩ := election_timeout_step node.raft next result handled
          cases leader
      | requestVote request =>
          obtain ⟨_, _, step, _⟩ := request_vote_step node.raft next request result handled
          have grows : node.raft.currentTerm ≤ next.currentTerm := by rw [step.term]; exact Nat.le_max_left _ _
          rcases Nat.eq_or_lt_of_le grows with same | newer
          · exact absurd ((candidate.symm.trans (step.kept same.symm).1.symm).trans leader) (by decide)
          · exact absurd ((step.newer newer).symm.trans leader) (by decide)
      | voteResponse received =>
          cases vote_response_step node.raft next received result handled with
          | stepsDown => cases leader
          | notCandidate role => exact absurd candidate role
          | ignored | tallied => exact absurd (candidate.symm.trans leader) (by decide)
          | elected counts most => exact ⟨received, rfl, idle, counts, rfl, most⟩
      | _ => exact absurd rfl quiet
  | save _ _ _ same | send _ _ _ same =>
      subst same
      exact absurd (candidate.symm.trans leader) (by decide)
  | crash _ same =>
      subst same
      cases leader

end Step

theorem moved_standing (voters : List NodeId) (cast : NodeId → Nat → NodeId → Prop) (wins later : List (NodeId × Nat))
    (id : NodeId) (node after : Node) (action : HardState.Action) (member : id ∈ voters)
    (standing : Standing voters cast wins id node) (grown : wins ⊆ later) (hard : HardStateInv after)
    (clean : HardState.leavesNoOldVote node action = true) (moved : Moved voters id node after action)
    (counted : ∀ received, action = .event (.voteResponse received) → CountsVote node.raft received →
      cast received.sender node.raft.currentTerm id)
    (won : node.raft.role = .candidate → after.raft.role = .leader → (id, after.raft.currentTerm) ∈ later) :
    Standing voters cast later id after := by
  cases moved with
  | event event idle next result handled same =>
      subst same
      by_cases quiet : event.quiet = true
      · exact quiet_standing voters cast wins later id node standing idle grown event next result quiet
          (by simpa only [HardState.leavesNoOldVote, Bool.not_eq_true'] using clean) handled hard
      cases event with
      | electionTimeout => exact timeout_standing voters cast wins later id node standing member next result handled hard
      | requestVote request =>
          exact request_standing voters cast wins later id node standing idle grown request next result handled hard
      | voteResponse received =>
          exact response_standing voters cast wins later id node standing idle grown received next result
            (counted received rfl) won handled hard
      | _ => exact absurd rfl quiet
  | save state rest head same =>
      subst same
      refine ⟨standing.sameId, standing.sameVoters, hard, ?_, fun candidate => ?_, fun leader => ?_⟩
      · exact fun peer received sent => standing.own peer received
          (sent.imp_right fun owed => head ▸ List.mem_cons_of_mem _ owed)
      · have before := standing.candidate candidate
        refine ⟨before.vote, before.self, fun peer asked => ?_, before.votes⟩
        obtain ⟨request, now, own, sent⟩ := before.asked peer asked
        rw [head] at sent
        exact ⟨request, now, own, sent.imp_right fun owed => (List.mem_cons.mp owed).resolve_left (by simp)⟩
      · exact ⟨(standing.leader leader).1, grown (standing.leader leader).2⟩
  | send packet rest head same =>
      subst same
      -- the packet at the head goes from what is owed to what is sent
      have passed : ∀ other, other ∈ node.sent ∨ .send other ∈ node.pending ↔ other ∈ packet :: node.sent ∨ .send other ∈ rest := by
        intro other
        rw [head, List.mem_cons, List.mem_cons, Work.send.injEq]
        tauto
      refine ⟨standing.sameId, standing.sameVoters, hard, ?_, fun candidate => ?_, fun leader => ?_⟩
      · exact fun peer received sent => standing.own peer received ((passed _).mpr sent)
      · have before := standing.candidate candidate
        refine ⟨before.vote, before.self, fun peer asked => ?_, before.votes⟩
        obtain ⟨request, now, own, sent⟩ := before.asked peer asked
        exact ⟨request, now, own, (passed _).mp sent⟩
      · exact ⟨(standing.leader leader).1, grown (standing.leader leader).2⟩
  | crash nextOffset same =>
      subst same
      refine ⟨rfl, new_raft_voters id voters nextOffset node.disk, hard, ?_, ?_, ?_⟩
      · exact fun peer received sent => standing.own peer received (.inl (sent.resolve_right List.not_mem_nil))
      · intro candidate
        cases candidate
      · intro leader
        cases leader

structure Sound (voters : List NodeId) (cluster : Cluster) : Prop where
  standing : ∀ id ∈ voters, Standing voters (Cast cluster) cluster.wins id (cluster.nodes id)
  majority : ∀ id term, (id, term) ∈ cluster.wins →
    ∃ quorum, Majority voters.toFinset quorum ∧ ∀ voter ∈ quorum, Cast cluster voter term id

theorem sound_start (voters : List NodeId) (cluster : Cluster) (start : Start voters cluster) : Sound voters cluster where
  standing := by
    intro id member
    obtain ⟨nextOffset, disk, same⟩ := start.nodes id member
    rw [same, start.wins]
    exact booted_standing voters (Cast cluster) id nextOffset disk
  majority := by simp [start.wins]

theorem cast_grows (cluster : Cluster) (node : NodeId) (after : Node) (sent : (cluster.nodes node).sent ⊆ after.sent)
    (voter : NodeId) (term : Nat) (candidate : NodeId) (cast : Cast cluster voter term candidate) :
    Cast (cluster.become node after) voter term candidate := by
  obtain ⟨packet, member, names⟩ := cast
  refine ⟨packet, ?_, names⟩
  by_cases same : voter = node
  · subst same
    rw [become_self]
    exact sent member
  · rw [become_other cluster node voter after same]
    exact member

-- A vote that arrives was sent by the voter it names.
theorem arrived_cast (voters : List NodeId) (cluster : Cluster) (sound : Sound voters cluster) (node : NodeId)
    (received : ReceivedVoteResponse) (arrived : arrives voters cluster node (.event (.voteResponse received)) = true)
    (counts : CountsVote (cluster.nodes node).raft received) :
    Cast cluster received.sender (cluster.nodes node).raft.currentTerm node := by
  obtain ⟨other, member, sent⟩ := List.any_eq_true.mp arrived
  have sent := of_decide_eq_true sent
  have own := (sound.standing other member).own node received (.inl sent)
  refine ⟨_, own ▸ sent, ?_⟩
  obtain ⟨sender, term, granted⟩ := received
  have yes : granted = true := counts.granted
  have now : term = _ := counts.term
  rw [yes, now]
  rfl

theorem elected_quorum (voters : List NodeId) (cluster : Cluster) (sound : Sound voters cluster) (node : NodeId)
    (member : node ∈ voters) (received : ReceivedVoteResponse) (idle : (cluster.nodes node).pending = [])
    (arrived : arrives voters cluster node (.event (.voteResponse received)) = true)
    (counts : CountsVote (cluster.nodes node).raft received)
    (most : (insert received.sender (cluster.nodes node).raft.grantedVotes).card >
      (cluster.nodes node).raft.voters.keys.length / 2) :
    ∃ quorum, Majority voters.toFinset quorum ∧ ∀ voter ∈ quorum, Cast cluster voter (cluster.nodes node).raft.currentTerm node := by
  have standing := sound.standing node member
  have candidacy := standing.candidate counts.candidate
  have seated : received.sender ∈ voters.toFinset :=
    standing.sameVoters ▸ List.mem_toFinset.mpr (AList.mem_keys.mp counts.voter)
  -- the sender is a peer, so the candidate's own vote has left it with the request to that peer
  have peer : received.sender ∈ (cluster.nodes node).raft.peers := by
    have apart : received.sender ≠ node := by
      intro same
      exact counts.fresh (same ▸ candidacy.self)
    rw [Raft.peers, List.mem_filter, standing.sameId]
    exact ⟨AList.mem_keys.mp counts.voter, by simpa using apart⟩
  obtain ⟨request, now, own, sent⟩ := candidacy.asked _ peer
  rw [idle] at sent
  have self : Cast cluster node (cluster.nodes node).raft.currentTerm node := by
    refine ⟨_, sent.resolve_right List.not_mem_nil, ?_⟩
    rw [named, now, own]
  refine ⟨insert received.sender (cluster.nodes node).raft.grantedVotes, ⟨?_, ?_⟩, ?_⟩
  · intro voter granted
    rcases Finset.mem_insert.mp granted with rfl | old
    · exact seated
    · exact List.mem_toFinset.mpr (candidacy.votes voter old).1
  · rw [← standing.sameVoters, List.toFinset_card_of_nodup (cluster.nodes node).raft.voters.keys_nodup]
    exact most
  · intro voter granted
    rcases Finset.mem_insert.mp granted with rfl | old
    · exact arrived_cast voters cluster sound node received arrived counts
    · rcases (candidacy.votes voter old).2 with rfl | cast
      · exact self
      · exact cast

theorem sound_step (voters : List NodeId) (cluster next : Cluster) (action : Action) (sound : Sound voters cluster)
    (clean : leavesNoOldVote cluster action = true) (moves : step voters cluster action = some next) : Sound voters next := by
  obtain ⟨node, action⟩ := action
  unfold step at moves
  split at moves
  case isFalse => cases moves
  rename_i allowed
  obtain ⟨member, arrived⟩ := allowed
  obtain ⟨after, stepped, rfl⟩ := Option.map_eq_some_iff.mp moves
  dsimp only at member arrived stepped
  have standing := sound.standing node member
  have moved := step_moved voters node (cluster.nodes node) after action stepped
  have hard := hard_state_inv_step node voters (cluster.nodes node) after action standing.hard clean stepped
  have grows := cast_grows cluster node after (moved_sent voters node (cluster.nodes node) after action moved)
  have kept : cluster.wins ⊆ (cluster.become node after).wins := by
    rw [Cluster.become]
    dsimp only
    split
    · exact List.subset_cons_self _ _
    · exact List.Subset.refl _
  have own : Standing voters (Cast cluster) (cluster.become node after).wins node after := by
    apply moved_standing voters (Cast cluster) cluster.wins _ node (cluster.nodes node) after action member standing kept hard
      clean moved
    · rintro received rfl counts
      exact arrived_cast voters cluster sound node received arrived counts
    · intro candidate leader
      rw [Cluster.become]
      dsimp only
      rw [if_pos ⟨candidate, leader⟩]
      exact List.mem_cons_self
  constructor
  · intro id inside
    by_cases same : id = node
    · subst same
      rw [become_self]
      exact standing_more voters _ _ _ _ id after grows (List.Subset.refl _) own
    · rw [become_other cluster node id after same]
      exact standing_more voters _ _ _ _ id _ grows kept (sound.standing id inside)
  · intro id term won
    have quorum : ∃ quorum, Majority voters.toFinset quorum ∧ ∀ voter ∈ quorum, Cast cluster voter term id := by
      rw [Cluster.become] at won
      dsimp only at won
      split at won
      case isFalse => exact sound.majority id term won
      rename_i elected
      rcases List.mem_cons.mp won with new | old
      · cases new
        obtain ⟨received, rfl, idle, counts, term, most⟩ :=
          moved_elected voters node (cluster.nodes node) after action moved elected.1 elected.2
        rw [term]
        exact elected_quorum voters cluster sound node member received idle arrived counts most
      · exact sound.majority id term old
    obtain ⟨quorum, most, votes⟩ := quorum
    exact ⟨quorum, most, fun voter inside => grows voter term id (votes voter inside)⟩

def freshCluster : Cluster := ⟨fun node => booted node threeNodes 1 ⟨0, none⟩, []⟩

-- node-b crashes with its vote on the disk, and node-c before it has saved its first campaign.
def outages : List Action :=
  [⟨nodeA, .event .electionTimeout⟩, ⟨nodeA, .advance⟩, ⟨nodeA, .advance⟩, ⟨nodeA, .advance⟩,
    ⟨nodeB, .event (.requestVote ⟨1, nodeA, 0, 0⟩)⟩, ⟨nodeB, .advance⟩, ⟨nodeB, .advance⟩, ⟨nodeB, .crash 1⟩,
    ⟨nodeA, .event (.voteResponse ⟨nodeB, ⟨1, true⟩⟩)⟩, ⟨nodeC, .event .electionTimeout⟩, ⟨nodeC, .crash 1⟩,
    ⟨nodeC, .event .electionTimeout⟩, ⟨nodeC, .advance⟩, ⟨nodeC, .advance⟩, ⟨nodeC, .advance⟩,
    ⟨nodeC, .event .electionTimeout⟩, ⟨nodeC, .advance⟩, ⟨nodeC, .advance⟩, ⟨nodeC, .advance⟩,
    ⟨nodeB, .event (.requestVote ⟨1, nodeC, 0, 0⟩)⟩, ⟨nodeB, .advance⟩, ⟨nodeB, .event (.requestVote ⟨2, nodeC, 0, 0⟩)⟩,
    ⟨nodeB, .advance⟩, ⟨nodeB, .advance⟩, ⟨nodeC, .event (.voteResponse ⟨nodeB, ⟨2, true⟩⟩)⟩]

def afterOutages : Cluster := (execWhen (machine threeNodes) leavesNoOldVote freshCluster outages).getD freshCluster

end RaftLog.Reboots
