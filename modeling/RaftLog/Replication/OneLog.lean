import RaftLog.Lib.Refinement
import RaftLog.Replication.Permanence

set_option autoImplicit false

namespace RaftLog.OneLog

open Lib Replication

-- What a node may have its state machine apply.
def committed (cluster : Cluster) (node : NodeId) : List LogEntry :=
  (cluster.nodes node).log.take (cluster.nodes node).raft.commitIndex

-- The cluster as it is seen by those who may ask each node for what it has committed.
def object (voters : List NodeId) : Object Cluster (SharedOp NodeId Action) (List LogEntry) where
  start := Start voters
  step cluster op reply next :=
    match op with
    | .act action => Guarded cluster action ∧ step voters cluster action = some next ∧ reply = []
    | .observe node => node ∈ voters ∧ next = cluster ∧ reply = committed cluster node

-- The sequence is what the furthest node has committed.
structure Related (voters : List NodeId) (cluster : Cluster) (shared : Shared NodeId LogEntry) : Prop where
  run : Run (machine voters) Guarded cluster
  within : ∀ node ∈ voters, committed cluster node <+: shared.values
  reached : shared.values = [] ∨ ∃ node ∈ voters, shared.values <+: committed cluster node
  seen : ∀ node, shared.seen node ≤ (committed cluster node).length

section Cluster

variable (voters : List NodeId) (cluster : Cluster)

-- Any two nodes have committed the same entries as far as both have committed any.
theorem committed_comparable (run : Run (machine voters) Guarded cluster) (left right : NodeId) (leftMember : left ∈ voters)
    (rightMember : right ∈ voters) :
    committed cluster left <+: committed cluster right ∨ committed cluster right <+: committed cluster left := by
  obtain ⟨history, inv⟩ := guarded_inv voters cluster run
  have agree := fun count inLeft inRight =>
    committed_agree LogEntry.term history.ledgers inv.past.coherent voters.toFinset inv.past.elected _ _ _ _ count
      (cluster.nodes left).log (cluster.nodes right).log (inv.nodes left leftMember).committed
      (inv.nodes right rightMember).committed inLeft inRight
  rcases Nat.le_total (cluster.nodes left).raft.commitIndex (cluster.nodes right).raft.commitIndex with less | less
  · left
    rw [committed, committed, agree _ le_rfl less]
    exact List.take_prefix_take_left less
  · right
    rw [committed, committed, ← agree _ less le_rfl]
    exact List.take_prefix_take_left less

theorem committed_grows (run : Run (machine voters) Guarded cluster) (action : Action) (guard : Guarded cluster action)
    (next : Cluster) (moves : step voters cluster action = some next) (node : NodeId) :
    committed cluster node <+: committed next node := by
  obtain ⟨history, inv⟩ := guarded_inv voters cluster run
  have stays := committed_step voters history cluster next action inv guard moves node
  exact List.prefix_take_iff.mpr ⟨stays.entries, (List.length_take_le _ _).trans stays.commit⟩

end Cluster

theorem act_related (voters : List NodeId) (cluster next : Cluster) (shared : Shared NodeId LogEntry)
    (related : Related voters cluster shared) (action : Action) (guard : Guarded cluster action)
    (moves : step voters cluster action = some next) :
    ∃ more, Related voters next { shared with values := shared.values ++ more } := by
  have run : Run (machine voters) Guarded next := .step cluster next action related.run guard moves
  have grows := committed_grows voters cluster related.run action guard next moves
  have seen : ∀ node, shared.seen node ≤ (committed next node).length :=
    fun node => (related.seen node).trans (grows node).length_le
  have all := longest_prefix (voters.map (committed next)) (by
    intro left leftMember right rightMember
    obtain ⟨leftNode, leftVoter, rfl⟩ := List.mem_map.mp leftMember
    obtain ⟨rightNode, rightVoter, rfl⟩ := List.mem_map.mp rightMember
    exact committed_comparable voters next run leftNode rightNode leftVoter rightVoter)
  rcases all with none | ⟨longest, member, all⟩
  · have nobody : voters = [] := List.map_eq_nil_iff.mp none
    refine ⟨[], run, ?_, ?_, seen⟩
    · rw [nobody]
      exact fun _ absent => absurd absent List.not_mem_nil
    · left
      rcases related.reached with empty | ⟨node, voter, _⟩
      · rw [empty, List.append_nil]
      · rw [nobody] at voter
        cases voter
  · obtain ⟨furthest, voter, rfl⟩ := List.mem_map.mp member
    have further : shared.values <+: committed next furthest := by
      rcases related.reached with empty | ⟨node, listed, reached⟩
      · rw [empty]
        exact List.nil_prefix
      · exact (reached.trans (grows node)).trans (all _ (List.mem_map_of_mem listed))
    obtain ⟨more, same⟩ := further
    refine ⟨more, run, ?_, .inr ⟨furthest, voter, same ▸ List.prefix_rfl⟩, seen⟩
    intro node listed
    rw [same]
    exact all _ (List.mem_map_of_mem listed)

theorem cluster_simulates (voters : List NodeId) :
    Simulates (object voters) (sharedLog NodeId Action LogEntry) (Related voters) where
  start := by
    intro cluster start
    have nothing : ∀ node, committed cluster node = [] := by
      intro node
      obtain ⟨state, booted⟩ := start.nodes node
      rw [committed, booted]
      rfl
    refine ⟨⟨[], fun _ => 0⟩, ⟨rfl, fun _ => rfl⟩, .start cluster start, ?_, .inl rfl, fun _ => Nat.zero_le _⟩
    intro node _
    rw [nothing]
  step := by
    intro cluster shared op reply next related moves
    cases op with
    | act action =>
        obtain ⟨guard, moves, rfl⟩ := moves
        obtain ⟨more, later⟩ := act_related voters cluster next shared related action guard moves
        exact ⟨_, .acted action more, later⟩
    | observe node =>
        obtain ⟨voter, rfl, rfl⟩ := moves
        have within := related.within node voter
        have observed : SharedStep shared (.observe node : SharedOp NodeId Action) _ _ :=
          .observed node (committed next node).length (related.seen node) within.length_le
        rw [← List.prefix_iff_eq_take.mp within] at observed
        refine ⟨_, observed, related.run, related.within, related.reached, fun other => ?_⟩
        by_cases same : other = node
        · rw [same]
          exact (Function.update_self node _ shared.seen).le
        · exact (Function.update_of_ne same _ shared.seen).trans_le (related.seen other)

-- Whoever asks whichever nodes at whatever times, in any run of the cluster, sees beginnings of
-- one log that only grows, and from one node never less than before.
theorem cluster_is_one_log (voters : List NodeId) (trace : List (SharedOp NodeId Action × List LogEntry)) (cluster : Cluster)
    (run : Trace (object voters) trace cluster) :
    ∃ shared, Trace (sharedLog NodeId Action LogEntry) trace shared ∧ ∀ node ∈ voters, committed cluster node <+: shared.values := by
  obtain ⟨shared, model, related⟩ := trace_simulated _ _ _ (cluster_simulates voters) trace cluster run
  exact ⟨shared, model, related.within⟩

-- The steps of any run may be taken between two questions.
theorem acts_traced (voters : List NodeId) (source : Machine Cluster Action) (steps : source.step = step voters)
    (trace : List (SharedOp NodeId Action × List LogEntry))
    (begins : ∀ cluster, source.start cluster → Trace (object voters) trace cluster) (cluster : Cluster)
    (run : Run source Guarded cluster) :
    ∃ actions : List Action, Trace (object voters) (actions.map (fun action => (.act action, [])) ++ trace) cluster := by
  induction run with
  | start cluster starts => exact ⟨[], begins cluster starts⟩
  | step cluster next action _ guard moves ih =>
      obtain ⟨actions, before⟩ := ih
      rw [steps] at moves
      have acted : (object voters).step cluster (.act action) [] next := ⟨guard, moves, rfl⟩
      refine ⟨action :: actions, ?_⟩
      rw [List.map_cons, List.cons_append]
      exact .step _ cluster next (.act action) [] before acted

theorem asked_traced (voters : List NodeId) (trace : List (SharedOp NodeId Action × List LogEntry)) (cluster : Cluster)
    (before : Trace (object voters) trace cluster) (node : NodeId) (voter : node ∈ voters) (reply : List LogEntry)
    (answer : committed cluster node = reply) : Trace (object voters) ((.observe node, reply) :: trace) cluster :=
  .step trace cluster cluster (.observe node) reply before ⟨voter, rfl, answer.symm⟩

-- The first leader's write is committed, the second leader's not yet.
theorem asked_one_log : ∃ earlier later : List Action, ∃ shared, Trace (sharedLog NodeId Action LogEntry)
    ((.observe nodeA, [⟨1, [1]⟩]) :: (.observe nodeC, []) :: (later.map (fun action => (.act action, [])) ++
      (.observe nodeA, [⟨1, [1]⟩]) :: earlier.map (fun action => (.act action, [])))) shared := by
  have first := acts_traced threeNodes (machine threeNodes) rfl [] (fun cluster starts => .start cluster starts)
    (guardedCluster committedWrite) committed_write_runs
  obtain ⟨earlier, before⟩ := first
  rw [List.append_nil] at before
  have asked := asked_traced threeNodes _ _ before nodeA (by decide) [⟨1, [1]⟩] (by decide +kernel)
  have second := acts_traced threeNodes ((machine threeNodes).startAt (guardedCluster committedWrite)) rfl _
    (fun cluster starts => starts ▸ asked) (guardedCluster (committedWrite ++ secondTerm)) second_term_continues
  obtain ⟨later, between⟩ := second
  have unaware := asked_traced threeNodes _ _ between nodeC (by decide) [] (by decide +kernel)
  have again := asked_traced threeNodes _ _ unaware nodeA (by decide) [⟨1, [1]⟩] (by decide +kernel)
  obtain ⟨shared, model, _⟩ := cluster_is_one_log threeNodes _ _ again
  exact ⟨earlier, later, shared, model⟩

end RaftLog.OneLog
