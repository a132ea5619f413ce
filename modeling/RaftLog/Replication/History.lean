import RaftLog.Election.OneWinner
import RaftLog.Lib.Ledger
import RaftLog.Replication.Outcomes

set_option autoImplicit false

namespace RaftLog.Replication

open Lib

-- The past of a cluster as far as safety needs it: the votes, the log each candidate
-- stood for election with, the log each leader started from and has by now, and what
-- every node has acknowledged as stored.
structure History where
  network : Election.Network
  plea : NodeId → Nat → List LogEntry
  base : Nat → List LogEntry
  ledger : Nat → List LogEntry
  acks : List (NodeId × Nat × Nat)

def History.ledgers (history : History) : Ledgers NodeId LogEntry where
  won := fun leading => ∃ node, (node, leading) ∈ history.network.wins
  base := history.base
  ledger := history.ledger
  holds := fun node leading count =>
    (∃ last, count ≤ last ∧ (node, leading, last) ∈ history.acks) ∨
      (node, leading) ∈ history.network.wins ∧ count ≤ (history.ledger leading).length
  current := fun node => (history.network.nodes node).currentTerm

structure HistoryInv (voters : List NodeId) (history : History) : Prop where
  reach : Reachable (Election.machine voters.toFinset) history.network
  coherent : Coherent LogEntry.term history.ledgers
  elected : ∀ leading, history.ledgers.won leading → Elected LogEntry.term voters.toFinset history.ledgers leading
  pleaded : ∀ node leading, (node, leading) ∈ history.network.wins → history.base leading = history.plea node leading
  votes : ∀ voter ∈ voters, ∀ standing candidate, Election.Cast history.network voter standing candidate →
    ∃ source log, source ≤ standing ∧
      Vouched LogEntry.term history.ledgers voter standing source log (history.plea candidate standing)

-- Where a node's log comes from, and that it still has all it ever acknowledged.
structure Stored (history : History) (node : NodeId) (raft : Raft) (log : List LogEntry) (source : Nat) : Prop where
  bound : source ≤ raft.currentTerm
  sourced : Sourced history.ledgers source log
  standing : raft.role = .candidate → source ≠ raft.currentTerm
  held : log = [] ∨ history.ledgers.holds node source log.length
  kept : ∀ leading count, history.ledgers.holds node leading count →
    leading ≤ source ∧ (leading = source → count ≤ log.length)

-- A leader counts a follower for its whole log only for a reason.
def Progressed (history : History) (node : NodeId) (raft : Raft) (log : List LogEntry) : Prop :=
  ∀ other, other ≠ node → ∀ progress, raft.voters.lookup other = some progress →
    progress.matchIndex < log.length ∨ progress.matchIndex ≤ (history.base raft.currentTerm).length ∨
      history.ledgers.holds other raft.currentTerm progress.matchIndex

structure NodeInv (voters : List NodeId) (history : History) (node : NodeId) (raft : Raft) (log : List LogEntry) : Prop where
  learners : raft.learners = ∅
  index : raft.lastLogIndex = log.length
  term : raft.lastLogTerm = lastTerm log
  stored : ∃ source, Stored history node raft log source
  campaign : raft.role = .candidate → (node, raft.currentTerm) ∈ history.network.campaigns →
    history.plea node raft.currentTerm = log
  leads : raft.role = .leader → (node, raft.currentTerm) ∈ history.network.wins ∧ log = history.ledger raft.currentTerm
  progressed : raft.role = .leader → Progressed history node raft log
  committed : Committed voters.toFinset history.ledgers raft.currentTerm log raft.commitIndex

def PacketInv (voters : List NodeId) (history : History) : Packet → Prop
  | .vote (.voteRequest _ request) =>
      (request.candidateId, request.term) ∈ history.network.campaigns ∧
        request.lastLogIndex = (history.plea request.candidateId request.term).length ∧
        request.lastLogTerm = lastTerm (history.plea request.candidateId request.term)
  | .vote (.voteResponse _ _) => True
  | .heartbeat _ request => ∃ log, Sourced history.ledgers request.term log ∧ request.logIndex = log.length ∧
      request.logTerm = lastTerm log ∧
      Committed voters.toFinset history.ledgers request.term log request.leaderCommitIndex
  | .heartbeatResponse _ received => received.response.success = true →
      (received.response.term = 0 ∨ history.ledgers.won received.response.term) ∧
        (received.response.lastLogIndex ≤ (history.base received.response.term).length ∨
          history.ledgers.holds received.sender received.response.term received.response.lastLogIndex)
  | .appendEntries _ _ request entries => ∃ log, Sourced history.ledgers request.term log ∧
      request.prevLogIndex ≤ log.length ∧ request.prevLogTerm = termAt log request.prevLogIndex ∧
      entries = log.drop request.prevLogIndex ∧
      Committed voters.toFinset history.ledgers request.term log request.commitIndex
  | .appendEntriesResponse _ received => received.response.success = true →
      (received.sender, received.response.term, received.response.lastLogIndex) ∈ history.acks

structure Tracks (network : Election.Network) (cluster : Cluster) : Prop where
  nodes : ∀ node, network.nodes node = (cluster.nodes node).raft
  sent : ∀ packet, packet ∈ network.sent ↔ .vote packet ∈ cluster.sent

structure ClusterInv (voters : List NodeId) (history : History) (cluster : Cluster) : Prop where
  past : HistoryInv voters history
  tracks : Tracks history.network cluster
  nodes : ∀ node ∈ voters, NodeInv voters history node (cluster.nodes node).raft (cluster.nodes node).log
  packets : ∀ packet ∈ cluster.sent, PacketInv voters history packet

-- How a step of one node moves the history.
structure Extends (history after : History) (node : NodeId) : Prop where
  grows : Grows history.ledgers after.ledgers
  wins : history.network.wins ⊆ after.network.wins
  campaigns : history.network.campaigns ⊆ after.network.campaigns
  newCampaign : ∀ other standing, (other, standing) ∈ after.network.campaigns →
    (other, standing) ∈ history.network.campaigns ∨ other = node
  plea : ∀ other standing, (other, standing) ∈ history.network.campaigns →
    after.plea other standing = history.plea other standing
  ledger : ∀ leading, after.ledger leading = history.ledger leading ∨ (node, leading) ∈ after.network.wins
  holds : ∀ other, other ≠ node → ∀ leading count, after.ledgers.holds other leading count →
    history.ledgers.holds other leading count
  acks : history.acks ⊆ after.acks

theorem vote_inv (voters : List NodeId) (history : History) (inv : HistoryInv voters history) :
    Election.VotesInv voters.toFinset history.network :=
  Election.reachable_votes_inv voters.toFinset history.network inv.reach

theorem cast_campaign (voters : List NodeId) (history : History) (inv : HistoryInv voters history) (voter : NodeId)
    (standing : Nat) (candidate : NodeId) (cast : Election.Cast history.network voter standing candidate) :
    (candidate, standing) ∈ history.network.campaigns := by
  rcases cast with ⟨rfl, own⟩ | grant
  · exact own
  · exact ((vote_inv voters history inv).granted candidate voter standing grant).2

theorem win_campaign (voters : List NodeId) (history : History) (inv : HistoryInv voters history) (node : NodeId)
    (leading : Nat) (won : (node, leading) ∈ history.network.wins) :
    (node, leading) ∈ history.network.campaigns := by
  obtain ⟨quorum, most, votes⟩ := (vote_inv voters history inv).majority node leading won
  obtain ⟨voter, inQuorum⟩ := Finset.card_pos.mp (Nat.lt_of_le_of_lt (Nat.zero_le _) most.more)
  exact cast_campaign voters history inv voter leading node (votes voter inQuorum)

section Extends

variable (voters : List NodeId) (history after : History) (node : NodeId) (ext : Extends history after node)

include ext

theorem history_extends (inv : HistoryInv voters history)
    (reach : Reachable (Election.machine voters.toFinset) after.network)
    (coherent : Coherent LogEntry.term after.ledgers)
    (newWin : ∀ other leading, (other, leading) ∈ after.network.wins → (other, leading) ∈ history.network.wins ∨
      Elected LogEntry.term voters.toFinset after.ledgers leading ∧ after.base leading = after.plea other leading)
    (newCast : ∀ voter ∈ voters, ∀ standing candidate, Election.Cast after.network voter standing candidate →
      Election.Cast history.network voter standing candidate ∨ ∃ source log, source ≤ standing ∧
        Vouched LogEntry.term after.ledgers voter standing source log (after.plea candidate standing)) :
    HistoryInv voters after where
  reach := reach
  coherent := coherent
  elected := by
    rintro leading ⟨other, won⟩
    rcases newWin other leading won with old | ⟨elected, _⟩
    · exact elected_grows _ _ _ ext.grows _ leading ⟨other, old⟩ (inv.elected leading ⟨other, old⟩)
    · exact elected
  pleaded := by
    intro other leading won
    rcases newWin other leading won with old | ⟨_, same⟩
    · rw [ext.plea other leading (win_campaign voters history inv other leading old)]
      exact (ext.grows.base leading (.inr ⟨other, old⟩)).trans (inv.pleaded other leading old)
    · exact same
  votes := by
    intro voter member standing candidate cast
    rcases newCast voter member standing candidate cast with old | new
    · obtain ⟨source, log, bound, vouched⟩ := inv.votes voter member standing candidate old
      rw [ext.plea candidate standing (cast_campaign voters history inv voter standing candidate old)]
      exact ⟨source, log, bound, vouched_grows _ _ _ ext.grows voter standing source log _ vouched⟩
    · exact new

-- A node that did not move.
theorem still_node_inv (afterInv : HistoryInv voters after) (other : NodeId) (apart : other ≠ node) (raft : Raft)
    (log : List LogEntry) (inv : NodeInv voters history other raft log) : NodeInv voters after other raft log where
  learners := inv.learners
  index := inv.index
  term := inv.term
  stored := by
    obtain ⟨source, stored⟩ := inv.stored
    exact ⟨source, stored.bound, sourced_grows _ _ ext.grows source log stored.sourced, stored.standing,
      stored.held.imp id (ext.grows.holds other source log.length),
      fun leading count holds => stored.kept leading count (ext.holds other apart leading count holds)⟩
  campaign := by
    intro candidate standing
    have old := (ext.newCampaign other raft.currentTerm standing).resolve_right apart
    rw [ext.plea other raft.currentTerm old]
    exact inv.campaign candidate old
  leads := by
    intro leader
    obtain ⟨won, same⟩ := inv.leads leader
    refine ⟨ext.wins won, ?_⟩
    rcases ext.ledger raft.currentTerm with kept | moved
    · rw [kept]
      exact same
    · exact absurd (Election.winner_unique _ _ (vote_inv voters after afterInv) other node _ (ext.wins won) moved) apart
  progressed := by
    intro leader third thirdApart progress found
    have base : after.base raft.currentTerm = history.base raft.currentTerm :=
      ext.grows.base raft.currentTerm (.inr ⟨other, (inv.leads leader).1⟩)
    rw [base]
    exact (inv.progressed leader third thirdApart progress found).imp id
      (Or.imp id (ext.grows.holds third raft.currentTerm progress.matchIndex))
  committed := committed_grows _ _ ext.grows _ _ _ log _ (Nat.le_refl _) inv.committed

theorem packet_inv_extends (packet : Packet) (inv : PacketInv voters history packet) :
    PacketInv voters after packet := by
  cases packet with
  | vote packet =>
      cases packet with
      | voteRequest target request =>
          obtain ⟨campaign, index, term⟩ := inv
          rw [PacketInv, ext.plea _ _ campaign]
          exact ⟨ext.campaigns campaign, index, term⟩
      | voteResponse => trivial
  | heartbeat target request =>
      obtain ⟨log, sourced, index, term, committed⟩ := inv
      exact ⟨log, sourced_grows _ _ ext.grows _ log sourced, index, term,
        committed_grows _ _ ext.grows _ _ _ log _ (Nat.le_refl _) committed⟩
  | heartbeatResponse target received =>
      intro success
      obtain ⟨led, stored⟩ := inv success
      have base : after.base received.response.term = history.base received.response.term := ext.grows.base _ led
      rw [base]
      exact ⟨led.imp id (ext.grows.won _), stored.imp id (ext.grows.holds _ _ _)⟩
  | appendEntries target operationId request entries =>
      obtain ⟨log, sourced, within, term, same, committed⟩ := inv
      exact ⟨log, sourced_grows _ _ ext.grows _ log sourced, within, term, same,
        committed_grows _ _ ext.grows _ _ _ log _ (Nat.le_refl _) committed⟩
  | appendEntriesResponse target received => exact fun success => ext.acks (inv success)

end Extends

end RaftLog.Replication
