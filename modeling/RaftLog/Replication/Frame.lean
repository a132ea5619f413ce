import RaftLog.Replication.Simulation

set_option autoImplicit false

namespace RaftLog.Replication

open Lib

theorem cluster_inv_become (voters : List NodeId) (history after : History) (cluster : Cluster) (node : NodeId)
    (next : Node) (packets : List Packet) (inv : ClusterInv voters history cluster) (ext : Extends history after node)
    (past : HistoryInv voters after) (tracks : Tracks after.network (cluster.become node next packets))
    (own : NodeInv voters after node next.raft next.log) (new : ∀ packet ∈ packets, PacketInv voters after packet) :
    ClusterInv voters after (cluster.become node next packets) where
  past := past
  tracks := tracks
  nodes := by
    intro other member
    by_cases same : other = node
    · subst same
      rw [become_self]
      exact own
    · rw [become_other cluster node other next packets same]
      exact still_node_inv voters history after node ext past other same _ _ (inv.nodes other member)
  packets := by
    intro packet sent
    rcases List.mem_append.mp sent with old | fresh
    · exact packet_inv_extends voters history after node ext packet (inv.packets packet old)
    · exact new packet fresh

theorem won_same (history after : History) (wins : after.network.wins = history.network.wins) :
    after.ledgers.won = history.ledgers.won := by
  simp only [History.ledgers, wins]

-- A step that adds no campaign, winner or cast.
theorem still_history_inv (voters : List NodeId) (history after : History) (node : NodeId)
    (inv : HistoryInv voters history) (ext : Extends history after node)
    (reach : Reachable (Election.machine voters.toFinset) after.network)
    (coherent : Coherent LogEntry.term after.ledgers) (sent : after.network.sent = history.network.sent)
    (campaigns : after.network.campaigns = history.network.campaigns)
    (wins : after.network.wins = history.network.wins) : HistoryInv voters after := by
  refine history_extends voters history after node ext inv reach coherent ?_ ?_
  · intro other leading won
    exact .inl (wins ▸ won)
  · intro voter _ standing candidate cast
    exact .inl (cast.imp (And.imp id fun own => campaigns ▸ own) fun grant => sent ▸ grant)

section Move

variable (voters : List NodeId) (history : History) (network : Election.Network) (node : NodeId) (raft next : Raft)
  (log : List LogEntry) (wins : network.wins = history.network.wins)
  (campaigns : network.campaigns = history.network.campaigns)

include wins in
theorem move_holds (other : NodeId) (leading count : Nat) :
    (history.move network).ledgers.holds other leading count ↔ history.ledgers.holds other leading count := by
  simp only [History.ledgers, History.move, wins]

include wins campaigns in
-- A node whose log stays: it may go to a later term, step down, learn of progress or
-- of a later commit.
theorem move_node_inv (inv : HistoryInv voters history) (member : node ∈ voters)
    (ext : Extends history (history.move network) node) (tracked : history.network.nodes node = raft)
    (old : NodeInv voters history node raft log) (learners : next.learners = raft.learners)
    (index : next.lastLogIndex = raft.lastLogIndex) (term : next.lastLogTerm = raft.lastLogTerm)
    (grows : raft.currentTerm ≤ next.currentTerm)
    (candidate : next.role = .candidate → raft.role = .candidate)
    (leader : next.role = .leader → raft.role = .leader ∧ next.currentTerm = raft.currentTerm)
    (progressed : next.role = .leader → Progressed history node next log)
    (committed : Committed voters.toFinset history.ledgers next.currentTerm log next.commitIndex) :
    NodeInv voters (history.move network) node next log where
  learners := learners.trans old.learners
  index := index.trans old.index
  term := term.trans old.term
  stored := by
    obtain ⟨source, stored⟩ := old.stored
    have bound := stored.bound
    refine ⟨source, Nat.le_trans bound grows, sourced_grows _ _ ext.grows source log stored.sourced, ?_, ?_, ?_⟩
    · intro stands same
      exact stored.standing (candidate stands) (by omega)
    · exact stored.held.imp id (move_holds history network wins node source log.length).mpr
    · exact fun leading count holds => stored.kept leading count ((move_holds history network wins _ _ _).mp holds)
  campaign := by
    intro stands fought
    have before : (node, next.currentTerm) ∈ history.network.campaigns := by
      rw [← campaigns]
      exact fought
    -- a candidate that was carried past its campaign has none in its present term
    have reached := ((vote_inv voters history inv).recorded node (List.mem_toFinset.mpr member) _ node (.inl ⟨rfl, before⟩)).1
    rw [tracked] at reached
    have same : next.currentTerm = raft.currentTerm := Nat.le_antisymm reached grows
    rw [same] at before ⊢
    exact old.campaign (candidate stands) before
  leads := by
    intro leads
    obtain ⟨led, same⟩ := leader leads
    rw [same]
    obtain ⟨won, whole⟩ := old.leads led
    exact ⟨ext.wins won, whole⟩
  progressed := by
    intro leads other apart progress found
    exact (progressed leads other apart progress found).imp id
      (Or.imp id (move_holds history network wins other next.currentTerm progress.matchIndex).mpr)
  committed := committed_grows _ _ ext.grows _ _ _ log _ (Nat.le_refl _) committed

-- The same with progress and commit index as they were.
theorem still_progressed (old : NodeInv voters history node raft log) (sameVoters : next.voters = raft.voters)
    (leader : next.role = .leader → raft.role = .leader ∧ next.currentTerm = raft.currentTerm) :
    next.role = .leader → Progressed history node next log := by
  intro leads
  obtain ⟨led, term⟩ := leader leads
  intro other apart progress found
  rw [term]
  rw [sameVoters] at found
  exact old.progressed led other apart progress found

theorem later_committed (ledgers : Ledgers NodeId LogEntry) (bound later commit : Nat) (order : bound ≤ later)
    (committed : Committed voters.toFinset ledgers bound log commit) :
    Committed voters.toFinset ledgers later log commit :=
  committed.imp id fun ⟨leading, count, within, rest⟩ => ⟨leading, count, Nat.le_trans within order, rest⟩

-- A smaller commit index, and a longer log.
theorem committed_less (ledgers : Ledgers NodeId LogEntry) (bound commit less : Nat) (order : less ≤ commit)
    (committed : Committed voters.toFinset ledgers bound log commit) :
    Committed voters.toFinset ledgers bound log less := by
  rcases committed with rfl | ⟨leading, count, within, chosen, bounded, reaches, shared⟩
  · exact .inl (Nat.le_zero.mp order)
  · exact .inr ⟨leading, count, within, chosen, Nat.le_trans order bounded, Nat.le_trans order reaches,
      (List.take_prefix_take_left order).trans shared⟩

theorem committed_longer (ledgers : Ledgers NodeId LogEntry) (bound commit : Nat) (longer : List LogEntry)
    (within : log <+: longer) (committed : Committed voters.toFinset ledgers bound log commit) :
    Committed voters.toFinset ledgers bound longer commit := by
  rcases committed with rfl | ⟨leading, count, order, chosen, bounded, reaches, shared⟩
  · exact .inl rfl
  · obtain ⟨rest, rfl⟩ := within
    refine .inr ⟨leading, count, order, chosen, bounded, ?_, ?_⟩
    · rw [List.length_append]
      omega
    · rwa [List.take_append_of_le_length reaches]

end Move

section Quiet

variable (voters : List NodeId) (history : History) (cluster : Cluster) (node : NodeId)
  (inv : ClusterInv voters history cluster) (member : node ∈ voters)

include inv

theorem self_id (raft : Raft) (tracked : history.network.nodes node = raft) (member : node ∈ voters) : raft.id = node := by
  rw [← tracked]
  exact (vote_inv voters history inv.past).ids node (List.mem_toFinset.mpr member)

include member

-- A turn without votes, whatever it does to the log.
theorem quiet_tracked (operation : Operation) (final : Node) (event : Event) (packets : List Packet)
    (quiet : event.quiet = true) (drives : Drives operation (cluster.nodes node) event final packets) :
    ∃ network, Reachable (Election.machine voters.toFinset) network ∧
      Follows history.network network node final.raft ∧ Tracks network (cluster.become node final packets) ∧
      network.sent = history.network.sent ∧ network.campaigns = history.network.campaigns ∧
      network.wins = history.network.wins := by
  obtain ⟨silent, network, reach, follows, sent, campaigns, wins⟩ := quiet_simulated voters history.network node member
    operation _ final event packets inv.past.reach (inv.tracks.nodes node) quiet drives
  refine ⟨network, reach, follows, ?_, sent, campaigns, wins⟩
  refine tracks_become history.network network cluster node final packets inv.tracks follows fun packet => ?_
  rw [sent]
  exact ⟨.inl, fun either => either.resolve_right (silent packet)⟩

-- A turn without votes that changes no log.
theorem still_turn (operation : Operation) (final : Node) (event : Event) (packets : List Packet)
    (quiet : event.quiet = true) (drives : Drives operation (cluster.nodes node) event final packets)
    (sameLog : final.log = (cluster.nodes node).log)
    (learners : final.raft.learners = (cluster.nodes node).raft.learners)
    (index : final.raft.lastLogIndex = (cluster.nodes node).raft.lastLogIndex)
    (term : final.raft.lastLogTerm = (cluster.nodes node).raft.lastLogTerm)
    (candidate : final.raft.role = .candidate → (cluster.nodes node).raft.role = .candidate)
    (leader : final.raft.role = .leader → (cluster.nodes node).raft.role = .leader ∧
      final.raft.currentTerm = (cluster.nodes node).raft.currentTerm)
    (progressed : final.raft.role = .leader → Progressed history node final.raft final.log)
    (committed : Committed voters.toFinset history.ledgers final.raft.currentTerm final.log final.raft.commitIndex)
    (new : ∀ packet ∈ packets, PacketInv voters history packet) :
    ∃ after, ClusterInv voters after (cluster.become node final packets) := by
  obtain ⟨network, reach, follows, tracks, sent, campaigns, wins⟩ :=
    quiet_tracked voters history cluster node inv member operation final event packets quiet drives
  have ext := extends_move history network node final.raft follows wins campaigns
  have coherent : Coherent LogEntry.term (history.move network).ledgers :=
    coherent_same LogEntry.term _ _ inv.past.coherent (won_same history _ wins) rfl rfl
  have past := still_history_inv voters history _ node inv.past ext reach coherent sent campaigns wins
  refine ⟨history.move network, cluster_inv_become voters history _ cluster node final packets inv ext past tracks ?_
    fun packet sent => packet_inv_extends voters history _ node ext packet (new packet sent)⟩
  have grows := follows.grows
  rw [inv.tracks.nodes node] at grows
  have own := inv.nodes node member
  rw [← sameLog] at own
  exact move_node_inv voters history network node _ final.raft final.log wins campaigns inv.past member ext
    (inv.tracks.nodes node) own learners index term grows candidate leader progressed committed

end Quiet

end RaftLog.Replication
