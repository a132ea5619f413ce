import RaftLog.Core.New
import RaftLog.Core.Steps
import RaftLog.Lib.Machine

set_option autoImplicit false

namespace RaftLog

open Lib

-- A run of one node is cut off where a handler unwinds.
def turn (raft : Raft) (event : Event) : Option Raft :=
  match handle raft event with
  | .ok (next, _) => some next
  | .error _ => none

theorem turn_handled (raft next : Raft) (event : Event) (moves : turn raft event = some next) :
    ∃ result, handle raft event = .ok (next, result) := by
  unfold turn at moves
  split at moves
  · rename_i result handled
    cases moves
    exact ⟨result, handled⟩
  · cases moves

-- Any voters, any log and any saved state to begin with.
def Booted (id : NodeId) (voters : List NodeId) (raft : Raft) : Prop :=
  ∃ nextOffset state, raft = newRaft id voters nextOffset state

def nodeMachine (id : NodeId) (voters : List NodeId) : Machine Raft Event := ⟨Booted id voters, turn⟩

-- What no event changes, and the term.
structure Onward (raft next : Raft) : Prop where
  sameId : next.id = raft.id
  sameVoters : next.voters.keys = raft.voters.keys
  termGrows : raft.currentTerm ≤ next.currentTerm

theorem onward_member (raft next : Raft) (onward : Onward raft next) (voter : NodeId) :
    voter ∈ next.voters ↔ voter ∈ raft.voters := by
  rw [AList.mem_keys, onward.sameVoters, ← AList.mem_keys]

theorem handled_onward (raft next : Raft) (event : Event) (result : Except Error (Option Effect))
    (handled : handle raft event = .ok (next, result)) : Onward raft next := by
  by_cases quiet : event.quiet = true
  · have step := handle_quiet raft next event result quiet handled
    exact ⟨step.sameId, step.sameVoters, step.termGrows⟩
  cases event with
  | electionTimeout =>
      obtain ⟨rfl, _⟩ := election_timeout_step raft next result handled
      exact ⟨rfl, rfl, Nat.le_succ _⟩
  | requestVote request =>
      obtain ⟨_, _, step, _⟩ := request_vote_step raft next request result handled
      have frame := step.frame
      exact ⟨by rw [frame], by rw [frame], step.term ▸ Nat.le_max_left _ _⟩
  | voteResponse received =>
      cases vote_response_step raft next received result handled with
      | stepsDown newer => exact ⟨rfl, rfl, newer.le⟩
      | notCandidate | ignored | tallied | elected => exact ⟨rfl, rfl, le_rfl⟩
  | _ => exact absurd rfl quiet

end RaftLog
