import RaftLog.Core.Handlers

set_option autoImplicit false

namespace RaftLog

-- The Raft value Runtime::new builds from the loaded hard state and the log's
-- next offset. The log's end is not restored: last_log_index starts at 0.
def newRaft (id : NodeId) (voters : List NodeId) (nextOffset : Nat) (state : State) : Raft where
  id := id
  voters := List.toAList (voters.map fun voter =>
    (⟨voter, ⟨nextOffset, if voter = id then nextOffset - 1 else 0⟩⟩ : Sigma fun _ : NodeId => Progress))
  learners := ∅
  role := .follower
  currentTerm := state.currentTerm
  leaderId := none
  votedFor := state.votedFor
  lastApplied := 0
  commitIndex := 0
  lastLogIndex := 0
  lastLogTerm := 0
  grantedVotes := ∅

theorem new_raft_voters (id : NodeId) (voters : List NodeId) (nextOffset : Nat) (state : State) :
    (newRaft id voters nextOffset state).voters.keys.toFinset = voters.toFinset := by
  ext voter
  rw [List.mem_toFinset, ← AList.mem_keys, ← AList.lookup_isSome, newRaft, AList.lookup_to_alist,
    List.dlookup_isSome, List.mem_toFinset]
  simp [List.keys]

-- The three voters of the concrete runs.
def nodeA : NodeId := ⟨"node-a"⟩
def nodeB : NodeId := ⟨"node-b"⟩
def nodeC : NodeId := ⟨"node-c"⟩
def threeNodes : List NodeId := [nodeA, nodeB, nodeC]

end RaftLog
