import RaftLog.Replication.Safety

set_option autoImplicit false

namespace RaftLog.Replication

open Lib

-- Two logs that have entries of one term at one place are the same up to there.
def LogsMatch (voters : List NodeId) (cluster : Cluster) : Prop :=
  ∀ left ∈ voters, ∀ right ∈ voters, ∀ index term, 0 < index → entryTerm (cluster.nodes left).log index = some term →
    entryTerm (cluster.nodes right).log index = some term →
    (cluster.nodes left).log.take index = (cluster.nodes right).log.take index

theorem logs_match (voters : List NodeId) (cluster : Cluster) (run : Run (machine voters) Guarded cluster) :
    LogsMatch voters cluster := by
  obtain ⟨history, inv⟩ := guarded_inv voters cluster run
  intro left leftMember right rightMember index term positive leftTerm rightTerm
  obtain ⟨place, rfl⟩ := Nat.exists_eq_succ_of_ne_zero positive.ne'
  obtain ⟨leftSource, leftStored⟩ := (inv.nodes left leftMember).stored
  obtain ⟨rightSource, rightStored⟩ := (inv.nodes right rightMember).stored
  obtain ⟨leftEntry, leftFound, leftOwn⟩ := entry_term_get _ place term leftTerm
  obtain ⟨rightEntry, rightFound, rightOwn⟩ := entry_term_get _ place term rightTerm
  have shared := ledgers_match LogEntry.term history.ledgers inv.past.coherent leftSource rightSource place leftEntry rightEntry
    (prefix_get _ _ _ _ leftStored.sourced.within leftFound) (prefix_get _ _ _ _ rightStored.sourced.within rightFound)
    (leftOwn.trans rightOwn.symm)
  have leftLong := (List.getElem?_eq_some_iff.mp leftFound).1
  have rightLong := (List.getElem?_eq_some_iff.mp rightFound).1
  obtain ⟨leftRest, leftWhole⟩ := leftStored.sourced.within
  obtain ⟨rightRest, rightWhole⟩ := rightStored.sourced.within
  rw [← leftWhole, ← rightWhole, List.take_append_of_le_length leftLong, List.take_append_of_le_length rightLong] at shared
  exact shared

-- A leader has every entry that a node of its term or an earlier one has committed.
def LeaderComplete (voters : List NodeId) (cluster : Cluster) : Prop :=
  ∀ leader ∈ voters, (cluster.nodes leader).raft.role = .leader → ∀ node ∈ voters,
    (cluster.nodes node).raft.currentTerm ≤ (cluster.nodes leader).raft.currentTerm →
    (cluster.nodes node).log.take (cluster.nodes node).raft.commitIndex <+: (cluster.nodes leader).log

-- What is committed stands in the ledger of every later leader.
theorem committed_in_ledger (voters : List NodeId) (history : History) (past : HistoryInv voters history) (bound : Nat)
    (log : List LogEntry) (commit : Nat) (committed : Committed voters.toFinset history.ledgers bound log commit)
    (later : Nat) (order : bound ≤ later) (won : history.ledgers.won later) : log.take commit <+: history.ledger later := by
  rcases committed with rfl | ⟨leading, count, within, chosen, bounded, reaches, shared⟩
  · rw [List.take_zero]
    exact List.nil_prefix
  rcases Nat.eq_or_lt_of_le (within.trans order) with rfl | newer
  · exact shared
  · have based := chosen_in_base LogEntry.term history.ledgers past.coherent voters.toFinset past.elected leading count chosen
      later newer won
    have short : log.take commit <+: (history.ledger leading).take count :=
      List.prefix_take_iff.mpr ⟨shared, (List.length_take_le _ _).trans bounded⟩
    exact (short.trans based).trans (past.coherent.based later)

theorem leader_complete (voters : List NodeId) (cluster : Cluster) (run : Run (machine voters) Guarded cluster) :
    LeaderComplete voters cluster := by
  obtain ⟨history, inv⟩ := guarded_inv voters cluster run
  intro leader leaderMember leads node member order
  obtain ⟨won, same⟩ := (inv.nodes leader leaderMember).leads leads
  rw [same]
  exact committed_in_ledger voters history inv.past _ _ _ (inv.nodes node member).committed _ order ⟨leader, won⟩

-- A turn after which a node has all that it had, and has committed as much.
structure Keeps (node final : Node) : Prop where
  log : node.log <+: final.log
  commit : node.raft.commitIndex ≤ final.raft.commitIndex

theorem keeps_raft (node : Node) (raft : Raft) (commit : node.raft.commitIndex ≤ raft.commitIndex) :
    Keeps node { node with raft := raft } := ⟨List.prefix_rfl, commit⟩

section Turns

variable (node final : Node) (packets : List Packet)

theorem vote_request_keeps (operation : Operation) (request : VoteRequest)
    (drives : Drives operation node (.requestVote request) final packets) : Keeps node final := by
  obtain ⟨raft, result, handled⟩ := drives_handled _ _ _ _ _ drives
  obtain ⟨hardState, granted, step, rfl⟩ := request_vote_step node.raft raft request result handled
  obtain ⟨rfl, rfl⟩ := drives_ended _ node final _ _ packets _ _ _ handled rfl drives
  apply keeps_raft
  rw [step.frame]

theorem vote_response_keeps (operation : Operation) (received : ReceivedVoteResponse)
    (drives : Drives operation node (.voteResponse received) final packets) : Keeps node final := by
  obtain ⟨raft, result, handled, rfl, _⟩ := vote_response_driven operation node final packets received drives
  cases vote_response_step node.raft raft received result handled with
  | stepsDown | notCandidate | ignored | tallied | elected => exact keeps_raft node _ le_rfl

theorem heartbeat_keeps (operation : Operation) (request : HeartbeatRequest)
    (drives : Drives operation node (.heartbeat request) final packets) : Keeps node final := by
  obtain ⟨raft, response, step, rfl, _⟩ := heartbeat_driven operation node final packets request drives
  cases step with
  | stale | mismatched => exact keeps_raft node _ le_rfl
  | matched => exact keeps_raft node _ (Nat.le_max_left _ _)

theorem heartbeat_response_keeps (operation : Operation) (received : ReceivedHeartbeatResponse)
    (drives : Drives operation node (.heartbeatResponse received) final packets) : Keeps node final := by
  obtain ⟨raft, step, rfl, _⟩ := heartbeat_response_driven operation node final packets received drives
  cases step with
  | stepsDown | ignored | voter | learner => exact keeps_raft node _ le_rfl

theorem append_response_keeps (operation : Operation) (received : ReceivedAppendEntriesResponse)
    (drives : Drives operation node (.appendEntriesResponse received) final packets) : Keeps node final := by
  obtain ⟨raft, result, step, finished⟩ := append_response_driven operation node final packets received drives
  cases step with
  | notLeader | stepsDown | retries | behind | counted | stranger =>
      cases finished
      exact ⟨List.prefix_rfl, le_rfl⟩
  | learner _ _ _ _ _ _ retry =>
      rcases retry with rfl | ⟨rfl, _⟩
      · cases finished
        exact ⟨List.prefix_rfl, le_rfl⟩
      · cases finished
        exact ⟨List.prefix_rfl, le_rfl⟩
  | commits _ _ fresh =>
      cases finished
      exact ⟨List.prefix_rfl, fresh.le⟩

theorem write_keeps (operationId : OperationId) (command : List UInt8) (within : node.raft.commitIndex ≤ node.log.length)
    (drives : Drives (.write command) node (.write operationId) final packets) : Keeps node final := by
  rcases write_driven node final packets operationId command drives with
    ⟨_, rfl, rfl⟩ | ⟨leader, raft, result, step, finished⟩
  · exact ⟨List.prefix_rfl, le_rfl⟩
  cases step with
  | notLeader role => exact absurd leader role
  | replicates =>
      cases finished
      exact ⟨List.prefix_append _ _, le_rfl⟩
  | alone =>
      cases finished
      exact ⟨List.prefix_append _ _, Nat.le_succ_of_le within⟩

end Turns

-- A node still has what it had committed, and counts it as committed.
structure Stays (node final : Node) : Prop where
  entries : node.log.take node.raft.commitIndex <+: final.log
  commit : node.raft.commitIndex ≤ final.raft.commitIndex

theorem keeps_stays (node final : Node) (keeps : Keeps node final) : Stays node final :=
  ⟨(List.take_prefix _ _).trans keeps.log, keeps.commit⟩

section Step

variable (voters : List NodeId) (history : History) (cluster : Cluster) (node : NodeId)
  (inv : ClusterInv voters history cluster) (member : node ∈ voters)

include inv member

theorem commit_within : (cluster.nodes node).raft.commitIndex ≤ (cluster.nodes node).log.length := by
  rcases (inv.nodes node member).committed with none | ⟨_, _, _, _, _, reaches, _⟩
  · omega
  · exact reaches

-- An append may cut off committed entries, but it brings them back: they are in the log of
-- the leader that sent it.
theorem append_stays (final : Node) (packets : List Packet) (target : NodeId) (operationId : OperationId)
    (request : AppendEntriesRequest) (entries : List LogEntry)
    (sent : .appendEntries target operationId request entries ∈ cluster.sent)
    (guard : appendGuard (cluster.nodes node).raft
      ⟨operationId, request, entryTerm (cluster.nodes node).log request.prevLogIndex⟩ = true)
    (drives : Drives (.appendEntries entries) (cluster.nodes node)
      (.appendEntries ⟨operationId, request, entryTerm (cluster.nodes node).log request.prevLogIndex⟩) final packets) :
    Stays (cluster.nodes node) final := by
  obtain ⟨response, outcome, _⟩ := append_driven _ final packets _ entries drives
  cases outcome with
  | stale => exact keeps_stays _ _ ⟨List.prefix_rfl, le_rfl⟩
  | rejected => exact keeps_stays _ _ ⟨List.prefix_rfl, le_rfl⟩
  | accepted fresh matching log appended =>
      obtain ⟨whole, sourced, within, previous, rfl, _⟩ := inv.packets _ sent
      have shared := shared_prefix voters history cluster node inv member operationId request whole matching sourced within previous
      rw [kept_common voters history cluster node inv member operationId request guard matching fresh, shared,
        List.take_append_drop] at appended
      subst appended
      refine ⟨?_, Nat.le_max_left _ _⟩
      have reaches := commit_within voters history cluster node inv member
      have replaced := committed_replaced voters history cluster node inv member operationId request log guard matching fresh
        sourced shared _ (inv.nodes node member).committed
      have agree := committed_agree LogEntry.term history.ledgers inv.past.coherent voters.toFinset inv.past.elected _ _ _ _ _ _ _
        (inv.nodes node member).committed replaced le_rfl le_rfl
      rw [agree]
      exact List.take_prefix _ _

end Step

theorem committed_step (voters : List NodeId) (history : History) (cluster after : Cluster) (action : Action)
    (inv : ClusterInv voters history cluster) (guard : guarded cluster action = true)
    (moves : step voters cluster action = some after) (node : NodeId) : Stays (cluster.nodes node) (after.nodes node) := by
  have one : ∀ (moved : NodeId) (final : Node) (packets : List Packet), Stays (cluster.nodes moved) final →
      Stays (cluster.nodes node) ((cluster.become moved final packets).nodes node) := by
    intro moved final packets stays
    by_cases same : node = moved
    · rw [same, become_self]
      exact stays
    · rw [become_other cluster moved node final packets same]
      exact keeps_stays _ _ ⟨List.prefix_rfl, le_rfl⟩
  cases action with
  | electionTimeout moved =>
      obtain ⟨member, final, packets, drives, rfl⟩ := act_drives cluster after voters moved _ _ moves
      obtain ⟨rfl, _⟩ := timeout_driven _ _ final packets drives
      exact one _ _ _ (keeps_stays _ _ (keeps_raft _ _ le_rfl))
  | heartbeatTimeout moved =>
      obtain ⟨member, final, packets, drives, rfl⟩ := act_drives cluster after voters moved _ _ moves
      obtain ⟨rfl, _⟩ := heartbeat_timeout_driven _ _ final packets drives
      exact one _ _ _ (keeps_stays _ _ ⟨List.prefix_rfl, le_rfl⟩)
  | write moved operationId command =>
      obtain ⟨member, final, packets, drives, rfl⟩ := act_drives cluster after voters moved _ _ moves
      exact one _ _ _ (keeps_stays _ _ (write_keeps _ final packets operationId command
        (commit_within voters history cluster moved inv member) drives))
  | applied moved entries =>
      obtain ⟨member, final, packets, drives, rfl⟩ := act_drives cluster after voters moved _ _ moves
      obtain ⟨_, rfl⟩ := applied_driven _ _ final packets entries drives
      exact one _ _ _ (keeps_stays _ _ ⟨List.prefix_rfl, le_rfl⟩)
  | deliver packet =>
      obtain ⟨sent, member, final, packets, drives, rfl⟩ := deliver_drives cluster after voters packet moves
      refine one _ _ _ ?_
      cases packet with
      | vote packet =>
          cases packet with
          | voteRequest target request => exact keeps_stays _ _ (vote_request_keeps _ final packets _ request drives)
          | voteResponse target received => exact keeps_stays _ _ (vote_response_keeps _ final packets _ received drives)
      | heartbeat target request => exact keeps_stays _ _ (heartbeat_keeps _ final packets _ request drives)
      | heartbeatResponse target received => exact keeps_stays _ _ (heartbeat_response_keeps _ final packets _ received drives)
      | appendEntries target operationId request entries =>
          exact append_stays voters history cluster target inv member final packets target operationId request entries sent guard
            drives
      | appendEntriesResponse target received => exact keeps_stays _ _ (append_response_keeps _ final packets _ received drives)

-- Once committed, an entry stays where it is in the log of the node that has committed it.
theorem committed_forever (voters : List NodeId) (cluster after : Cluster) (run : Run (machine voters) Guarded cluster)
    (more : Run ((machine voters).startAt cluster) Guarded after) (node : NodeId) :
    Stays (cluster.nodes node) (after.nodes node) := by
  induction more with
  | start state starts =>
      rw [starts]
      exact keeps_stays _ _ ⟨List.prefix_rfl, le_rfl⟩
  | step state next action before meets moves ih =>
      obtain ⟨history, inv⟩ := guarded_inv voters state (run_continues (machine voters) Guarded cluster state run before)
      have stays := committed_step voters history state next action inv meets moves node
      refine ⟨?_, ih.commit.trans stays.commit⟩
      have short : (cluster.nodes node).log.take (cluster.nodes node).raft.commitIndex <+:
          (state.nodes node).log.take (state.nodes node).raft.commitIndex :=
        List.prefix_take_iff.mpr ⟨ih.entries, (List.length_take_le _ _).trans ih.commit⟩
      exact short.trans stays.entries

def committedWrite : List Action := firstWrite ++ [firstResponse]

-- The second node wins term 2 behind the committed entry, and has the old leader take over
-- its whole log.
def secondTerm : List Action :=
  [.electionTimeout nodeB, .deliver (.vote (.voteRequest nodeC ⟨2, nodeB, 1, 1⟩)),
    .deliver (.vote (.voteResponse nodeB ⟨nodeC, ⟨2, true⟩⟩)), .write nodeB secondOperation [2],
    .deliver (.appendEntries nodeA secondOperation ⟨2, nodeB, 0, 0, 0⟩ [⟨1, [1]⟩, ⟨2, [2]⟩])]

theorem committed_write_runs : Run (machine threeNodes) Guarded (guardedCluster committedWrite) :=
  exec_when_reaches (machine threeNodes) Guarded guarded (fun _ _ => id) committedWrite _ _
    (.start _ (fresh_cluster_start threeNodes)) (by decide +kernel)

theorem second_term_runs : Run (machine threeNodes) Guarded (guardedCluster (committedWrite ++ secondTerm)) :=
  exec_when_reaches (machine threeNodes) Guarded guarded (fun _ _ => id) (committedWrite ++ secondTerm) _ _
    (.start _ (fresh_cluster_start threeNodes)) (by decide +kernel)

theorem second_term_matches : ((guardedCluster (committedWrite ++ secondTerm)).nodes nodeA).log = [⟨1, [1]⟩, ⟨2, [2]⟩] ∧
    LogsMatch threeNodes (guardedCluster (committedWrite ++ secondTerm)) :=
  ⟨by decide +kernel, logs_match threeNodes _ second_term_runs⟩

theorem second_term_complete : ((guardedCluster (committedWrite ++ secondTerm)).nodes nodeB).raft.role = .leader ∧
    ((guardedCluster (committedWrite ++ secondTerm)).nodes nodeA).raft.commitIndex = 1 ∧
    LeaderComplete threeNodes (guardedCluster (committedWrite ++ secondTerm)) :=
  ⟨by decide +kernel, by decide +kernel, leader_complete threeNodes _ second_term_runs⟩

theorem second_term_continues : Run ((machine threeNodes).startAt (guardedCluster committedWrite)) Guarded
    (guardedCluster (committedWrite ++ secondTerm)) :=
  exec_when_continues (machine threeNodes) Guarded guarded (fun _ _ => id) committedWrite secondTerm (freshCluster threeNodes)
    (freshCluster threeNodes) (by decide +kernel)

theorem committed_through_second_term : ((guardedCluster committedWrite).nodes nodeA).raft.commitIndex = 1 ∧
    Stays ((guardedCluster committedWrite).nodes nodeA) ((guardedCluster (committedWrite ++ secondTerm)).nodes nodeA) :=
  ⟨by decide +kernel, committed_forever threeNodes (guardedCluster committedWrite) (guardedCluster (committedWrite ++ secondTerm))
    committed_write_runs second_term_continues nodeA⟩

end RaftLog.Replication
