import RaftLog.Core.New
import RaftLog.Core.Steps
import RaftLog.Lib.Machine
import RaftLog.Lib.Quorum

set_option autoImplicit false

namespace RaftLog.Election

open Lib

inductive Packet where
  | voteRequest (target : NodeId) (request : VoteRequest)
  | voteResponse (target : NodeId) (received : ReceivedVoteResponse)
deriving DecidableEq, Repr

-- Nothing leaves `sent`: a packet may be delivered late, twice, out of order or
-- never. The last three fields only record the past; no step reads them.
structure Network where
  nodes : NodeId → Raft
  sent : List Packet
  campaigns : List (NodeId × Nat)
  wins : List (NodeId × Nat)
  led : List (NodeId × Nat)

inductive Action where
  | timeout (node : NodeId)
  | deliver (packet : Packet)
  | other (node : NodeId) (event : Event)
deriving DecidableEq, Repr

def packetsOf (node : NodeId) : Except Error (Option Effect) → List Packet
  | .ok (some (.sendRequestVotes _ peers request)) => peers.map fun peer => .voteRequest peer request
  | .ok (some (.sendRequestVoteResponse _ peer response)) => [.voteResponse peer ⟨node, response⟩]
  | _ => []

theorem packets_of_silent (node : NodeId) (result : Except Error (Option Effect)) (silent : castsVote result = false) :
    packetsOf node result = [] := by
  unfold packetsOf
  split
  · cases silent
  · cases silent
  · rfl

def Network.become (network : Network) (node : NodeId) (event : Event) (next : Raft)
    (result : Except Error (Option Effect)) : Network where
  nodes := Function.update network.nodes node next
  sent := network.sent ++ packetsOf node result
  campaigns := if event = .electionTimeout then (node, next.currentTerm) :: network.campaigns else network.campaigns
  wins := if (network.nodes node).role = .candidate ∧ next.role = .leader then
      (node, next.currentTerm) :: network.wins else network.wins
  led := if next.role = .leader then (node, next.currentTerm) :: network.led else network.led

@[simp] theorem become_node (network : Network) (node : NodeId) (event : Event) (next : Raft)
    (result : Except Error (Option Effect)) : (network.become node event next result).nodes node = next := by
  simp [Network.become]

-- A handler that panics moves nothing: the packet stays undelivered.
def Network.act (network : Network) (voters : Finset NodeId) (node : NodeId) (event : Event) : Option Network :=
  if node ∈ voters then
    match handle (network.nodes node) event with
    | .ok (next, result) => some (network.become node event next result)
    | .error _ => none
  else none

def step (voters : Finset NodeId) (network : Network) : Action → Option Network
  | .timeout node => network.act voters node .electionTimeout
  | .deliver (.voteRequest target request) =>
      if .voteRequest target request ∈ network.sent then network.act voters target (.requestVote request) else none
  | .deliver (.voteResponse target received) =>
      if .voteResponse target received ∈ network.sent then network.act voters target (.voteResponse received) else none
  | .other node event => if event.quiet then network.act voters node event else none

structure Start (voters : Finset NodeId) (network : Network) : Prop where
  ids : ∀ node ∈ voters, (network.nodes node).id = node
  sameVoters : ∀ node ∈ voters, (network.nodes node).voters.keys.toFinset = voters
  followers : ∀ node ∈ voters, (network.nodes node).role = .follower
  sent : network.sent = []
  campaigns : network.campaigns = []
  wins : network.wins = []
  led : network.led = []

def freshNetwork (voters : List NodeId) : Network :=
  ⟨fun node => newRaft node voters 1 ⟨0, none⟩, [], [], [], []⟩

theorem fresh_network_start (voters : List NodeId) : Start voters.toFinset (freshNetwork voters) where
  ids := fun _ _ => rfl
  sameVoters := fun node _ => new_raft_voters node voters 1 ⟨0, none⟩
  followers := fun _ _ => rfl
  sent := rfl
  campaigns := rfl
  wins := rfl
  led := rfl

def machine (voters : Finset NodeId) : Machine Network Action := ⟨Start voters, step voters⟩

-- A heartbeat or append carries the term and id of a node that led in that term.
def requestFromLeader (network : Network) : Action → Bool
  | .other _ (.heartbeat request) => (request.leaderId, request.term) ∈ network.led
  | .other _ (.appendEntries received) => (received.request.leaderId, received.request.term) ∈ network.led
  | _ => true

-- A leader rejects an append of a later term.
def rejectsAtLeader (network : Network) : Action → Bool
  | .other node event => (network.nodes node).role = .leader ∧ rejectsNewerAppend (network.nodes node) event
  | _ => false

theorem act_handled (network next : Network) (voters : Finset NodeId) (node : NodeId) (event : Event)
    (acted : network.act voters node event = some next) :
    node ∈ voters ∧ ∃ raft result, handle (network.nodes node) event = .ok (raft, result) ∧
      next = network.become node event raft result := by
  unfold Network.act at acted
  split at acted
  · rename_i member
    refine ⟨member, ?_⟩
    split at acted
    · rename_i raft result handled
      exact ⟨raft, result, handled, (Option.some.inj acted).symm⟩
    · cases acted
  · cases acted

-- What a step of the network does: one handler on one node, and for votes a packet that was sent.
inductive Moved (voters : Finset NodeId) (network : Network) : Action → Network → Prop where
  | timeout (node : NodeId) (member : node ∈ voters) (raft : Raft) (result : Except Error (Option Effect))
      (handled : handleElectionTimeout (network.nodes node) = .ok (raft, result)) :
      Moved voters network (.timeout node) (network.become node .electionTimeout raft result)
  | request (node : NodeId) (member : node ∈ voters) (request : VoteRequest)
      (sent : .voteRequest node request ∈ network.sent) (raft : Raft) (result : Except Error (Option Effect))
      (handled : handleRequestVote (network.nodes node) request = .ok (raft, result)) :
      Moved voters network (.deliver (.voteRequest node request)) (network.become node (.requestVote request) raft result)
  | response (node : NodeId) (member : node ∈ voters) (received : ReceivedVoteResponse)
      (sent : .voteResponse node received ∈ network.sent) (raft : Raft) (result : Except Error (Option Effect))
      (handled : handleVoteResponse (network.nodes node) received = .ok (raft, result)) :
      Moved voters network (.deliver (.voteResponse node received))
        (network.become node (.voteResponse received) raft result)
  | other (node : NodeId) (member : node ∈ voters) (event : Event) (quiet : event.quiet = true) (raft : Raft)
      (result : Except Error (Option Effect)) (handled : handle (network.nodes node) event = .ok (raft, result)) :
      Moved voters network (.other node event) (network.become node event raft result)

theorem step_moved (voters : Finset NodeId) (network next : Network) (action : Action)
    (moves : step voters network action = some next) : Moved voters network action next := by
  cases action with
  | timeout node =>
      obtain ⟨member, raft, result, handled, rfl⟩ := act_handled network next voters node _ moves
      exact .timeout node member raft result handled
  | deliver packet =>
      cases packet with
      | voteRequest target request =>
          simp only [step] at moves
          split at moves
          · rename_i sent
            obtain ⟨member, raft, result, handled, rfl⟩ := act_handled network next voters target _ moves
            exact .request target member request sent raft result handled
          · cases moves
      | voteResponse target received =>
          simp only [step] at moves
          split at moves
          · rename_i sent
            obtain ⟨member, raft, result, handled, rfl⟩ := act_handled network next voters target _ moves
            exact .response target member received sent raft result handled
          · cases moves
  | other node event =>
      simp only [step] at moves
      split at moves
      · rename_i quiet
        obtain ⟨member, raft, result, handled, rfl⟩ := act_handled network next voters node event moves
        exact .other node member event quiet raft result handled
      · cases moves

end RaftLog.Election
