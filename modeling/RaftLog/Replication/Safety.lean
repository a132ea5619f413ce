import RaftLog.Replication.Commit
import RaftLog.Replication.Votes

set_option autoImplicit false

namespace RaftLog.Replication

open Lib

def SameCommitted (voters : List NodeId) (cluster : Cluster) : Prop :=
  ∀ left ∈ voters, ∀ right ∈ voters, ∀ index, 0 < index →
    index ≤ min (cluster.nodes left).raft.commitIndex (cluster.nodes right).raft.commitIndex →
    ∃ entry, (cluster.nodes left).log[index - 1]? = some entry ∧ (cluster.nodes right).log[index - 1]? = some entry

-- The voters whose log starts with the leader's entries up to its commit index.
def backers (voters : List NodeId) (cluster : Cluster) (leader : NodeId) : Finset NodeId :=
  voters.toFinset.filter fun voter => (cluster.nodes voter).log.take (cluster.nodes leader).raft.commitIndex =
    (cluster.nodes leader).log.take (cluster.nodes leader).raft.commitIndex

-- A response that raises the leader's commit index raises it to an entry of its own
-- term that more than half of the voters have, with everything before it.
def CommitBacked (voters : List NodeId) (cluster : Cluster) (action : Action) (after : Cluster) : Prop :=
  ∀ leader received, action = .deliver (.appendEntriesResponse leader received) →
    (cluster.nodes leader).raft.role = .leader →
    (cluster.nodes leader).raft.commitIndex < (after.nodes leader).raft.commitIndex →
    entryTerm (after.nodes leader).log (after.nodes leader).raft.commitIndex =
        some (after.nodes leader).raft.currentTerm ∧
      leader ∈ backers voters after leader ∧ voters.toFinset.card < 2 * (backers voters after leader).card

theorem act_drives (cluster after : Cluster) (voters : List NodeId) (node : NodeId) (operation : Operation) (event : Event)
    (acted : cluster.act voters node operation event = some after) :
    node ∈ voters ∧ ∃ final packets, Drives operation (cluster.nodes node) event final packets ∧
      after = cluster.become node final packets := by
  unfold Cluster.act at acted
  split at acted
  case isFalse => cases acted
  rename_i member
  split at acted
  · rename_i final packets driven
    exact ⟨member, final, packets, drive_drives rounds _ final operation event packets driven,
      (Option.some.inj acted).symm⟩
  · cases acted

theorem deliver_drives (cluster after : Cluster) (voters : List NodeId) (packet : Packet)
    (moves : step voters cluster (.deliver packet) = some after) :
    packet ∈ cluster.sent ∧ packet.target ∈ voters ∧ ∃ final packets,
      Drives packet.operation (cluster.nodes packet.target) (packet.event (cluster.nodes packet.target).log) final packets ∧
        after = cluster.become packet.target final packets := by
  simp only [step] at moves
  split at moves
  · rename_i sent
    exact ⟨sent, act_drives cluster after voters _ _ _ moves⟩
  · cases moves

section Start

variable (voters : List NodeId) (cluster : Cluster) (start : Start voters cluster)

def emptyHistory : History :=
  ⟨⟨fun node => (cluster.nodes node).raft, [], [], [], []⟩, fun _ _ => [], fun _ => [], fun _ => [], []⟩

include start

theorem empty_history_inv : HistoryInv voters (emptyHistory cluster) where
  reach := by
    refine .start _ ⟨?_, ?_, ?_, rfl, rfl, rfl, rfl⟩
    · intro node _
      obtain ⟨state, same⟩ := start.nodes node
      simp [emptyHistory, same, booted, newRaft]
    · intro node _
      obtain ⟨state, same⟩ := start.nodes node
      simp only [emptyHistory, same, booted]
      exact new_raft_voters node voters 1 state
    · intro node _
      obtain ⟨state, same⟩ := start.nodes node
      simp [emptyHistory, same, booted, newRaft]
  coherent := by
    constructor <;> simp [History.ledgers, emptyHistory]
  elected := by simp [History.ledgers, emptyHistory]
  pleaded := by simp [emptyHistory]
  votes := by simp [emptyHistory, Election.Cast]

theorem booted_inv (node : NodeId) :
    NodeInv voters (emptyHistory cluster) node (cluster.nodes node).raft (cluster.nodes node).log := by
  obtain ⟨state, same⟩ := start.nodes node
  rw [same]
  exact {
    learners := rfl
    index := rfl
    term := rfl
    stored := ⟨0, Nat.zero_le _, ⟨List.nil_prefix, List.nil_prefix, .inl rfl⟩, by simp [booted, newRaft], .inl rfl,
      by simp [History.ledgers, emptyHistory]⟩
    campaign := by simp [booted, newRaft]
    leads := by simp [booted, newRaft]
    progressed := by simp [booted, newRaft]
    committed := .inl rfl }

theorem cluster_inv_start : ClusterInv voters (emptyHistory cluster) cluster where
  past := empty_history_inv voters cluster start
  tracks := ⟨fun _ => rfl, by simp [emptyHistory, start.sent]⟩
  nodes := fun node _ => booted_inv voters cluster start node
  packets := by simp [start.sent]

end Start

theorem cluster_inv_step (voters : List NodeId) (history : History) (cluster after : Cluster) (action : Action)
    (inv : ClusterInv voters history cluster) (guard : guarded cluster action = true)
    (moves : step voters cluster action = some after) : ∃ later, ClusterInv voters later after := by
  cases action with
  | electionTimeout node =>
      obtain ⟨member, final, packets, drives, rfl⟩ := act_drives cluster after voters node _ _ moves
      exact timeout_turn voters history cluster node inv member final packets drives
  | heartbeatTimeout node =>
      obtain ⟨member, final, packets, drives, rfl⟩ := act_drives cluster after voters node _ _ moves
      exact heartbeat_timeout_turn voters history cluster node inv member final packets drives
  | write node operationId command =>
      obtain ⟨member, final, packets, drives, rfl⟩ := act_drives cluster after voters node _ _ moves
      exact write_turn voters history cluster node inv member final packets operationId command drives
  | applied node entries =>
      obtain ⟨member, final, packets, drives, rfl⟩ := act_drives cluster after voters node _ _ moves
      exact applied_turn voters history cluster node inv member final packets entries drives
  | deliver packet =>
      obtain ⟨sent, member, final, packets, drives, rfl⟩ := deliver_drives cluster after voters packet moves
      cases packet with
      | vote packet =>
          cases packet with
          | voteRequest node request => exact request_turn voters history cluster node inv member final packets request sent drives
          | voteResponse node received =>
              exact vote_response_turn voters history cluster node inv member final packets received sent guard drives
      | heartbeat node request => exact heartbeat_turn voters history cluster node inv member final packets request node sent drives
      | heartbeatResponse node received =>
          exact heartbeat_response_turn voters history cluster node inv member final packets received node sent drives
      | appendEntries node operationId request entries =>
          exact append_turn voters history cluster node inv member final packets node operationId request entries sent guard drives
      | appendEntriesResponse node received =>
          exact append_response_turn voters history cluster node inv member final packets received node sent guard drives

def Guarded (cluster : Cluster) (action : Action) : Prop := guarded cluster action = true

theorem guarded_inv (voters : List NodeId) (cluster : Cluster) (run : Run (machine voters) Guarded cluster) :
    ∃ history, ClusterInv voters history cluster :=
  run_invariant (machine voters) Guarded (fun cluster => ∃ history, ClusterInv voters history cluster)
    (fun cluster start => ⟨_, cluster_inv_start voters cluster start⟩)
    (fun cluster action after _ inv guard moves => inv.elim fun history inv =>
      cluster_inv_step voters history cluster after action inv guard moves)
    cluster run

theorem same_committed (voters : List NodeId) (cluster : Cluster) (run : Run (machine voters) Guarded cluster) :
    SameCommitted voters cluster := by
  obtain ⟨history, inv⟩ := guarded_inv voters cluster run
  intro left leftMember right rightMember index positive bound
  have leftInv := inv.nodes left leftMember
  have rightInv := inv.nodes right rightMember
  have agree := committed_agree LogEntry.term history.ledgers inv.past.coherent voters.toFinset inv.past.elected _ _ _ _ index
    (cluster.nodes left).log (cluster.nodes right).log leftInv.committed rightInv.committed
    (Nat.le_trans bound (Nat.min_le_left _ _)) (Nat.le_trans bound (Nat.min_le_right _ _))
  have long : index ≤ (cluster.nodes left).log.length := by
    rcases leftInv.committed with none | ⟨_, _, _, _, _, reaches, _⟩ <;> omega
  have found := List.getElem?_eq_getElem (l := (cluster.nodes left).log) (i := index - 1) (by omega)
  refine ⟨_, found, ?_⟩
  rw [← List.getElem?_take_of_lt (show index - 1 < index by omega), ← agree, List.getElem?_take_of_lt (by omega)]
  exact found

-- A voter that stored a chosen prefix has it still, whatever leader it follows by now.
theorem holder_has_chosen (voters : List NodeId) (history : History) (cluster : Cluster)
    (inv : ClusterInv voters history cluster) (leading count : Nat)
    (chosen : Chosen voters.toFinset history.ledgers leading count) (voter : NodeId) (member : voter ∈ voters)
    (holds : history.ledgers.holds voter leading count) :
    (cluster.nodes voter).log.take count = (history.ledger leading).take count := by
  obtain ⟨source, stored⟩ := (inv.nodes voter member).stored
  obtain ⟨bound, reaches⟩ := stored.kept leading count holds
  have kept : (history.ledger leading).take count <+: (cluster.nodes voter).log := by
    rcases Nat.eq_or_lt_of_le bound with rfl | newer
    · exact take_prefix_of_le _ _ count stored.sourced.within (reaches rfl)
    · have led := stored.sourced.led.resolve_left (by omega)
      exact (chosen_in_base LogEntry.term history.ledgers inv.past.coherent voters.toFinset inv.past.elected leading count
        chosen source newer led).trans stored.sourced.based
  have reached : count ≤ (history.ledger leading).length := chosen.reached
  obtain ⟨rest, whole⟩ := kept
  rw [← whole, List.take_append_of_le_length (by rw [List.length_take]; omega), List.take_take, Nat.min_self]

theorem entry_term_last (log : List LogEntry) (filled : 0 < log.length) : entryTerm log log.length = some (lastTerm log) := by
  cases size : log.length with
  | zero => omega
  | succ index =>
      have found := List.getElem?_eq_getElem (l := log) (i := index) (by omega)
      rw [entryTerm, lastTerm, List.getLast?_eq_getElem?, size, Nat.add_sub_cancel, found]
      rfl

theorem become_log (cluster : Cluster) (node other : NodeId) (final : Node) (packets : List Packet)
    (same : final.log = (cluster.nodes node).log) :
    ((cluster.become node final packets).nodes other).log = (cluster.nodes other).log := by
  by_cases self : other = node
  · subst self
    rw [become_self, same]
  · rw [become_other cluster node other final packets self]

theorem commit_backed (voters : List NodeId) (cluster after : Cluster) (action : Action)
    (run : Run (machine voters) Guarded cluster) (guard : Guarded cluster action)
    (moves : step voters cluster action = some after) : CommitBacked voters cluster action after := by
  obtain ⟨history, inv⟩ := guarded_inv voters cluster run
  rintro leader received rfl leads raised
  obtain ⟨sent, member, final, packets, drives, rfl⟩ := deliver_drives cluster after voters _ moves
  obtain ⟨raft, result, step, finished⟩ := append_response_driven .other _ final packets received drives
  rw [show (Packet.appendEntriesResponse leader received).target = leader from rfl] at *
  have own := inv.nodes leader member
  rw [become_self] at raised
  cases step with
  | notLeader | stepsDown | retries | behind | counted | stranger =>
      cases finished
      exact absurd raised (Nat.lt_irrefl _)
  | learner _ _ _ learner =>
      rw [own.learners] at learner
      cases learner
  | commits counts most fresh =>
      obtain ⟨won, same⟩ := own.leads leads
      have chosen := commit_chosen voters history cluster leader inv member received leader sent guard counts most fresh
      have term := response_guard_commits _ received guard counts most fresh
      cases finished
      have logs := fun other => become_log cluster leader other
        ⟨{ acknowledgedRaft (cluster.nodes leader).raft received with
            commitIndex := (cluster.nodes leader).raft.lastLogIndex, lastApplied := (cluster.nodes leader).raft.lastLogIndex },
          (cluster.nodes leader).log, received.operationId :: (cluster.nodes leader).completed⟩ [] rfl
      simp only [backers, logs, become_self, Finset.mem_filter, List.mem_toFinset]
      have filled : 0 < (cluster.nodes leader).log.length := by
        rw [← own.index]
        exact Nat.lt_of_le_of_lt (Nat.zero_le _) fresh
      refine ⟨?_, ⟨member, trivial⟩, ?_⟩
      · rw [own.index, entry_term_last _ filled, ← own.term, term]
        rfl
      · obtain ⟨quorum, majority, held⟩ := chosen.quorum
        have backed : quorum ⊆ voters.toFinset.filter fun voter =>
            (cluster.nodes voter).log.take (cluster.nodes leader).raft.lastLogIndex =
              (cluster.nodes leader).log.take (cluster.nodes leader).raft.lastLogIndex := by
          intro voter inQuorum
          have within := majority.within inQuorum
          refine Finset.mem_filter.mpr ⟨within, ?_⟩
          have has := holder_has_chosen voters history cluster inv _ _ chosen voter (List.mem_toFinset.mp within)
            (held voter inQuorum)
          rw [own.index, has, ← same]
        have count := Finset.card_le_card backed
        have more := majority.more
        omega

def firstOperation : OperationId := ⟨1⟩
def secondOperation : OperationId := ⟨2⟩

-- The first node wins term 1 and writes a first entry.
def firstWrite : List Action :=
  [.electionTimeout nodeA, .deliver (.vote (.voteRequest nodeB ⟨1, nodeA, 0, 0⟩)),
    .deliver (.vote (.voteResponse nodeA ⟨nodeB, ⟨1, true⟩⟩)), .write nodeA firstOperation [1],
    .deliver (.appendEntries nodeB firstOperation ⟨1, nodeA, 0, 0, 0⟩ [⟨1, [1]⟩])]

def firstResponse : Action :=
  .deliver (.appendEntriesResponse nodeA ⟨firstOperation, nodeB, ⟨1, true, 1, 1, some nodeA⟩⟩)

-- A second node has stored the entry; its response commits it, a heartbeat says so.
def replicated : List Action :=
  firstWrite ++ [firstResponse, .heartbeatTimeout nodeA, .deliver (.heartbeat nodeB ⟨1, nodeA, 1, 1, 1⟩)]

def guardedCluster (actions : List Action) : Cluster :=
  (execWhen (machine threeNodes) guarded (freshCluster threeNodes) actions).getD (freshCluster threeNodes)

theorem replicated_runs : Run (machine threeNodes) Guarded (guardedCluster replicated) :=
  exec_when_reaches (machine threeNodes) Guarded guarded (fun _ _ => id) replicated _ _
    (.start _ (fresh_cluster_start threeNodes)) (by decide +kernel)

theorem same_committed_replicated :
    ((guardedCluster replicated).nodes nodeB).raft.commitIndex = 1 ∧ SameCommitted threeNodes (guardedCluster replicated) :=
  ⟨by decide +kernel, same_committed threeNodes (guardedCluster replicated) replicated_runs⟩

theorem first_write_runs : Run (machine threeNodes) Guarded (guardedCluster firstWrite) :=
  exec_when_reaches (machine threeNodes) Guarded guarded (fun _ _ => id) firstWrite _ _
    (.start _ (fresh_cluster_start threeNodes)) (by decide +kernel)

def next (cluster : Cluster) (action : Action) : Cluster := (step threeNodes cluster action).getD cluster

theorem next_step (cluster : Cluster) (action : Action) (moves : (step threeNodes cluster action).isSome = true) :
    step threeNodes cluster action = some (next cluster action) := by
  obtain ⟨after, same⟩ := Option.isSome_iff_exists.mp moves
  rw [next, same]
  rfl

theorem commit_backed_first_write :
    ((next (guardedCluster firstWrite) firstResponse).nodes nodeA).raft.commitIndex = 1 ∧
      CommitBacked threeNodes (guardedCluster firstWrite) firstResponse (next (guardedCluster firstWrite) firstResponse) :=
  ⟨by decide +kernel, commit_backed threeNodes (guardedCluster firstWrite) _ firstResponse first_write_runs
    (by unfold Guarded; decide +kernel) (next_step _ _ (by decide +kernel))⟩

-- A duplicate of the append puts the entry in twice. The leader is elected again with
-- the third node's vote and writes a second entry of its own, in another term.
def duplicated : List Action :=
  firstWrite ++ [.deliver (.appendEntries nodeB firstOperation ⟨1, nodeA, 0, 0, 0⟩ [⟨1, [1]⟩]), .electionTimeout nodeA,
    .deliver (.vote (.voteRequest nodeC ⟨2, nodeA, 1, 1⟩)), .deliver (.vote (.voteResponse nodeA ⟨nodeC, ⟨2, true⟩⟩)),
    .write nodeA secondOperation [2], .deliver (.heartbeat nodeB ⟨2, nodeA, 1, 1, 0⟩)]

-- The late answer to the duplicate is counted for the second entry.
def lateResponse : Action :=
  .deliver (.appendEntriesResponse nodeA ⟨firstOperation, nodeB, ⟨1, true, 2, 1, some nodeA⟩⟩)

-- The retry that the first answer starts carries the new commit index to the node with
-- the entry twice, which appends the second entry behind both.
def miscommitted : List Action :=
  duplicated ++ [lateResponse, firstResponse,
    .deliver (.appendEntries nodeB firstOperation ⟨2, nodeA, 1, 1, 2⟩ [⟨2, [2]⟩])]

def clusterAfter (actions : List Action) : Cluster :=
  (exec (machine threeNodes) (freshCluster threeNodes) actions).getD (freshCluster threeNodes)

theorem cluster_after_reachable (actions : List Action)
    (runs : (exec (machine threeNodes) (freshCluster threeNodes) actions).isSome = true) :
    Reachable (machine threeNodes) (clusterAfter actions) :=
  exec_reaches (machine threeNodes) actions _ _ (.start _ (fresh_cluster_start threeNodes)) runs

theorem commits_differ_after_duplicate :
    ¬ ∀ cluster, Reachable (machine threeNodes) cluster → SameCommitted threeNodes cluster := by
  intro always
  have same := always (clusterAfter miscommitted) (cluster_after_reachable miscommitted (by decide +kernel))
  obtain ⟨entry, left, right⟩ := same nodeA (by decide) nodeB (by decide) 2 (by decide) (by decide +kernel)
  have differ : ((clusterAfter miscommitted).nodes nodeA).log[1]? ≠ ((clusterAfter miscommitted).nodes nodeB).log[1]? := by
    decide +kernel
  exact differ (left.trans right.symm)

theorem commit_unbacked_after_duplicate :
    ¬ ∀ cluster action after, Reachable (machine threeNodes) cluster →
      step threeNodes cluster action = some after → CommitBacked threeNodes cluster action after := by
  intro always
  have backed := always (clusterAfter duplicated) lateResponse (next (clusterAfter duplicated) lateResponse)
    (cluster_after_reachable duplicated (by decide +kernel)) (next_step _ _ (by decide +kernel))
  have most := (backed nodeA _ rfl (by decide +kernel) (by decide +kernel)).2.2
  have few : ¬ threeNodes.toFinset.card < 2 * (backers threeNodes (next (clusterAfter duplicated) lateResponse) nodeA).card := by
    decide +kernel
  exact few most

end RaftLog.Replication
