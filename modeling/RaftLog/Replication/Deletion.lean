import RaftLog.Replication.Moves

set_option autoImplicit false

namespace RaftLog.Replication

open Lib

-- The truncate_after of the PersistEntries effect that a delivered append is answered
-- with, and the commit index of the node that is to carry it out.
def ordered (cluster : Cluster) : Action → Option (Option Nat × Nat)
  | .deliver (.appendEntries node operationId request _) =>
      match handle (cluster.nodes node).raft
        (.appendEntries ⟨operationId, request, entryTerm (cluster.nodes node).log request.prevLogIndex⟩) with
      | .ok (raft, .ok (some (.persistEntries _ _ _ truncateAfter _))) => some (truncateAfter, raft.commitIndex)
      | _ => none
  | _ => none

-- A cluster with the orders it has given.
structure Watched where
  cluster : Cluster
  orders : List (Option Nat × Nat)

def watch (voters : List NodeId) (watched : Watched) (action : Action) : Option Watched :=
  (step voters watched.cluster action).map fun after => ⟨after, (ordered watched.cluster action).toList ++ watched.orders⟩

def watchedMachine (voters : List NodeId) : Machine Watched Action :=
  ⟨fun watched => Start voters watched.cluster ∧ watched.orders = [], watch voters⟩

def Spares (order : Option Nat × Nat) : Prop := order.1 = none ∨ ∃ kept, order.1 = some kept ∧ order.2 ≤ kept

-- No order was to delete a committed entry.
def SparesCommitted (watched : Watched) : Prop := ∀ order ∈ watched.orders, Spares order

-- An append of a newer term that a node accepts starts behind all that the node has
-- committed.
def startsBehind (cluster : Cluster) : Action → Bool
  | .deliver (.appendEntries node operationId request _) =>
      decide (request.term ≤ (cluster.nodes node).raft.currentTerm) ||
        prefixRejected (cluster.nodes node).raft
          ⟨operationId, request, entryTerm (cluster.nodes node).log request.prevLogIndex⟩ ||
        decide ((cluster.nodes node).raft.commitIndex ≤ request.prevLogIndex)
  | _ => true

-- Every node has the entries that it has committed.
def Within (cluster : Cluster) : Prop := ∀ node, (cluster.nodes node).raft.commitIndex ≤ (cluster.nodes node).log.length

theorem append_ordered (cluster : Cluster) (node : NodeId) (operationId : OperationId) (request : AppendEntriesRequest)
    (entries : List LogEntry) (fresh : (cluster.nodes node).raft.currentTerm ≤ request.term)
    (matching : prefixRejected (cluster.nodes node).raft
      ⟨operationId, request, entryTerm (cluster.nodes node).log request.prevLogIndex⟩ = false) :
    ordered cluster (.deliver (.appendEntries node operationId request entries)) =
      some (truncation (cluster.nodes node).raft request, (cluster.nodes node).raft.commitIndex) := by
  unfold ordered
  dsimp only [handle, handleAppendEntries]
  rw [if_neg (Nat.not_lt_of_le fresh), matching, truncation]
  by_cases cuts : request.term > (cluster.nodes node).raft.currentTerm ∧
      request.prevLogIndex < (cluster.nodes node).raft.lastLogIndex
  · simp only [if_pos cuts, Bool.false_eq_true, if_false]
  · simp only [if_neg cuts, Bool.false_eq_true, if_false]
    split <;> rfl

theorem append_unordered (cluster : Cluster) (node : NodeId) (operationId : OperationId) (request : AppendEntriesRequest)
    (entries : List LogEntry) (refused : request.term < (cluster.nodes node).raft.currentTerm ∨
      prefixRejected (cluster.nodes node).raft
        ⟨operationId, request, entryTerm (cluster.nodes node).log request.prevLogIndex⟩ = true) :
    ordered cluster (.deliver (.appendEntries node operationId request entries)) = none := by
  unfold ordered
  dsimp only [handle, handleAppendEntries]
  by_cases stale : request.term < (cluster.nodes node).raft.currentTerm
  · rw [if_pos stale]
  · rw [if_neg stale, if_pos (refused.resolve_left stale)]

-- The order of an accepted append is harmless exactly when the append starts behind the
-- committed entries.
theorem spares_iff (cluster : Cluster) (node : NodeId) (operationId : OperationId) (request : AppendEntriesRequest)
    (entries : List LogEntry) (formed : Formed cluster) (within : Within cluster)
    (matching : prefixRejected (cluster.nodes node).raft
      ⟨operationId, request, entryTerm (cluster.nodes node).log request.prevLogIndex⟩ = false) :
    Spares (truncation (cluster.nodes node).raft request, (cluster.nodes node).raft.commitIndex) ↔
      startsBehind cluster (.deliver (.appendEntries node operationId request entries)) = true := by
  have reaches := (prefix_accepted _ _ matching).1
  have committed := within node
  have sized := formed.sized node
  simp only [startsBehind, matching, Bool.or_false, Bool.or_eq_true, decide_eq_true_eq, Spares, truncation]
  dsimp only at reaches
  split
  · rename_i cuts
    simp only [reduceCtorEq, Option.some.injEq, exists_eq_left', false_or]
    omega
  · rename_i whole
    simp only [true_or, true_iff]
    omega

theorem order_spares (cluster : Cluster) (action : Action) (node : NodeId) (final : Node) (packets : List Packet)
    (formed : Formed cluster) (within : Within cluster) (moves : Moves cluster action node final packets) :
    (∀ order ∈ ordered cluster action, Spares order) ↔ startsBehind cluster action = true := by
  cases moves with
  | ordinary _ _ _ _ _ appends =>
      have silent : ordered cluster action = none := by
        unfold ordered
        split
        · exact absurd rfl (appends _ _ _ _)
        · rfl
      have free : startsBehind cluster action = true := by
        unfold startsBehind
        split
        · exact absurd rfl (appends _ _ _ _)
        · rfl
      rw [silent, free]
      simp
  | elected => simp [ordered, startsBehind]
  | append node operationId request entries final response sent outcome =>
      cases outcome with
      | stale less =>
          rw [append_unordered cluster node operationId request entries (.inl less)]
          simp [startsBehind, Nat.le_of_lt less]
      | rejected fresh mismatch =>
          rw [append_unordered cluster node operationId request entries (.inr mismatch)]
          simp [startsBehind, mismatch]
      | accepted fresh matching =>
          rw [append_ordered cluster node operationId request entries fresh matching,
            ← spares_iff cluster node operationId request entries formed within matching]
          simp

-- A node loses committed entries only by an order.
theorem within_moves (cluster : Cluster) (action : Action) (node : NodeId) (final : Node) (packets : List Packet)
    (within : Within cluster) (moves : Moves cluster action node final packets)
    (spares : ∀ order ∈ ordered cluster action, Spares order) : Within (cluster.become node final packets) := by
  have committed := within node
  have own : final.raft.commitIndex ≤ final.log.length := by
    cases moves with
    | ordinary _ _ _ _ _ _ turn => exact turn.commit committed
    | elected => exact committed
    | append node operationId request entries final response sent outcome =>
        cases outcome with
        | stale | rejected => exact committed
        | accepted fresh matching log appended =>
            rw [append_ordered cluster node operationId request entries fresh matching] at spares
            apply Nat.max_le.mpr ⟨?_, Nat.min_le_right _ _⟩
            dsimp only [acceptedRaft] at appended ⊢
            rw [appended, List.length_append]
            rcases spares _ rfl with whole | ⟨kept, cut, less⟩
            · dsimp only at whole
              rw [whole, truncate]
              exact committed.trans (Nat.le_add_right _ _)
            · dsimp only at cut less
              rw [cut, truncate, List.length_take]
              omega
  intro other
  by_cases same : other = node
  · rw [same, become_self]
    exact own
  · rw [become_other cluster node other final packets same]
    exact within other

section Watched

variable (voters : List NodeId) (watched : Watched)

theorem watch_step (next : Watched) (action : Action) (formed : Formed watched.cluster) (within : Within watched.cluster)
    (moves : watch voters watched action = some next) :
    Formed next.cluster ∧ (SparesCommitted next → Within next.cluster) ∧
      (SparesCommitted next ↔ SparesCommitted watched ∧ startsBehind watched.cluster action = true) := by
  simp only [watch, Option.map_eq_some_iff] at moves
  obtain ⟨after, stepped, rfl⟩ := moves
  obtain ⟨node, final, packets, moved, rfl⟩ :=
    step_moves voters watched.cluster after action formed.sized formed.self stepped
  have fine := order_spares watched.cluster action node final packets formed within moved
  have splits : SparesCommitted ⟨watched.cluster.become node final packets,
      (ordered watched.cluster action).toList ++ watched.orders⟩ ↔
        (∀ order ∈ ordered watched.cluster action, Spares order) ∧ SparesCommitted watched := by
    simp only [SparesCommitted, List.mem_append, Option.mem_toList, Option.mem_def, or_imp, forall_and]
  refine ⟨formed_moves watched.cluster action node final packets formed moved, fun spares => ?_, ?_⟩
  · exact within_moves watched.cluster action node final packets within moved (splits.mp spares).1
  · rw [splits, fine, and_comm]

theorem watch_earlier (next : Watched) (action : Action) (moves : watch voters watched action = some next)
    (spares : SparesCommitted next) : SparesCommitted watched := by
  simp only [watch, Option.map_eq_some_iff] at moves
  obtain ⟨after, _, rfl⟩ := moves
  exact fun order given => spares order (List.mem_append_right _ given)

theorem watched_start (starts : (watchedMachine voters).start watched) :
    Formed watched.cluster ∧ Within watched.cluster ∧ SparesCommitted watched := by
  obtain ⟨start, none⟩ := starts
  refine ⟨formed_start voters watched.cluster start, fun node => ?_, ?_⟩
  · obtain ⟨state, same⟩ := start.nodes node
    rw [same]
    exact le_rfl
  · simp [SparesCommitted, none]

theorem spared_run (reach : Reachable (watchedMachine voters) watched) (spares : SparesCommitted watched) :
    Formed watched.cluster ∧ Within watched.cluster ∧
      Run (watchedMachine voters) (fun watched action => startsBehind watched.cluster action = true) watched := by
  induction reach with
  | start watched starts =>
      obtain ⟨formed, within, _⟩ := watched_start voters watched starts
      exact ⟨formed, within, .start watched starts⟩
  | step watched next action _ _ moves ih =>
      obtain ⟨formed, within, run⟩ := ih (watch_earlier voters watched next action moves spares)
      obtain ⟨formedNext, withinNext, kept⟩ := watch_step voters watched next action formed within moves
      exact ⟨formedNext, withinNext spares, .step watched next action run (kept.mp spares).2 moves⟩

theorem committed_spared_iff (reach : Reachable (watchedMachine voters) watched) :
    SparesCommitted watched ↔
      Run (watchedMachine voters) (fun watched action => startsBehind watched.cluster action = true) watched := by
  constructor
  · intro spares
    exact (spared_run voters watched reach spares).2.2
  · intro run
    have all := run_invariant (watchedMachine voters) _
      (fun watched => Formed watched.cluster ∧ Within watched.cluster ∧ SparesCommitted watched)
      (watched_start voters) ?_ watched run
    · exact all.2.2
    · rintro watched action next _ ⟨formed, within, spares⟩ meets moves
      obtain ⟨formedNext, withinNext, kept⟩ := watch_step voters watched next action formed within moves
      have sparesNext := kept.mpr ⟨spares, meets⟩
      exact ⟨formedNext, withinNext sparesNext, sparesNext⟩

end Watched

def freshWatched : Watched := ⟨freshCluster threeNodes, []⟩

def watchedAfter (actions : List Action) : Watched :=
  (exec (watchedMachine threeNodes) freshWatched actions).getD freshWatched

theorem watched_after_reachable (actions : List Action)
    (runs : (exec (watchedMachine threeNodes) freshWatched actions).isSome = true) :
    Reachable (watchedMachine threeNodes) (watchedAfter actions) :=
  exec_reaches (watchedMachine threeNodes) actions _ _ (.start _ ⟨fresh_cluster_start threeNodes, rfl⟩) runs

-- The third node, which has taken no part in the election, gets the first entry.
def spreadWrite : List Action :=
  firstWrite ++ [.deliver (.appendEntries nodeC firstOperation ⟨1, nodeA, 0, 0, 0⟩ [⟨1, [1]⟩])]

theorem first_write_spared :
    (watchedAfter spreadWrite).orders = [(none, 0), (none, 0)] ∧ SparesCommitted (watchedAfter spreadWrite) :=
  ⟨by decide +kernel, (committed_spared_iff threeNodes _ (watched_after_reachable spreadWrite (by decide +kernel))).mpr
    (exec_when_reaches (watchedMachine threeNodes) _ (fun watched action => startsBehind watched.cluster action)
      (fun _ _ meets => meets) spreadWrite freshWatched freshWatched (.start _ ⟨fresh_cluster_start threeNodes, rfl⟩)
      (by decide +kernel))⟩

-- The second node has the first entry and wins term 2 with the vote of the third. Its
-- first append reaches the old leader, which has committed the entry, before a heartbeat.
def takenOver : List Action :=
  firstWrite ++ [firstResponse, .electionTimeout nodeB, .deliver (.vote (.voteRequest nodeC ⟨2, nodeB, 1, 1⟩)),
    .deliver (.vote (.voteResponse nodeB ⟨nodeC, ⟨2, true⟩⟩)), .write nodeB secondOperation [2],
    .deliver (.appendEntries nodeA secondOperation ⟨2, nodeB, 0, 0, 0⟩ [⟨1, [1]⟩, ⟨2, [2]⟩])]

theorem committed_deleted :
    ¬ ∀ watched, Reachable (watchedMachine threeNodes) watched → SparesCommitted watched := by
  intro always
  rcases always _ (watched_after_reachable takenOver (by decide +kernel)) (some 0, 1) (by decide +kernel) with
    none | ⟨kept, cut, more⟩
  · cases none
  · cases cut
    exact absurd more (by decide)

end RaftLog.Replication
