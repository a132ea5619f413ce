import RaftLog.Replication.Frame
import RaftLog.Replication.Guards

set_option autoImplicit false

namespace RaftLog.Replication

open Lib

theorem holds_less (history : History) (node : NodeId) (leading count less : Nat) (order : less ≤ count)
    (holds : history.ledgers.holds node leading count) : history.ledgers.holds node leading less := by
  rcases holds with ⟨last, bound, acked⟩ | ⟨won, reaches⟩
  · exact .inl ⟨last, Nat.le_trans order bound, acked⟩
  · exact .inr ⟨won, Nat.le_trans order reaches⟩

theorem committed_max (voters : List NodeId) (ledgers : Ledgers NodeId LogEntry) (bound : Nat) (log : List LogEntry)
    (left right : Nat) (leftDone : Committed voters.toFinset ledgers bound log left)
    (rightDone : Committed voters.toFinset ledgers bound log right) :
    Committed voters.toFinset ledgers bound log (max left right) := by
  rcases Nat.le_total left right with order | order
  · rwa [Nat.max_eq_right order]
  · rwa [Nat.max_eq_left order]

section Leader

variable (voters : List NodeId) (history : History) (node : NodeId) (raft : Raft) (log : List LogEntry)
  (past : HistoryInv voters history) (own : NodeInv voters history node raft log) (leader : raft.role = .leader)

include past own leader

theorem leader_sourced : Sourced history.ledgers raft.currentTerm log := by
  obtain ⟨won, same⟩ := own.leads leader
  have based : history.base raft.currentTerm <+: history.ledger raft.currentTerm := past.coherent.based _
  refine ⟨?_, ?_, .inr ⟨node, won⟩⟩
  · rw [same]
    exact based
  · rw [same]
    exact List.prefix_rfl

theorem leader_heartbeat (peer : NodeId) : PacketInv voters history (.heartbeat peer raft.heartbeatRequest) :=
  ⟨log, leader_sourced voters history node raft log past own leader, own.index, own.term, own.committed⟩

-- What a leader sends to a follower is its own log from some place on.
theorem leader_append (peer : NodeId) (operationId : OperationId) (request : AppendEntriesRequest)
    (term : request.term = raft.currentTerm) (within : request.prevLogIndex ≤ log.length)
    (previous : request.prevLogTerm = termAt log request.prevLogIndex) (commit : request.commitIndex = raft.commitIndex) :
    PacketInv voters history (.appendEntries peer operationId request (log.drop request.prevLogIndex)) := by
  refine ⟨log, ?_, within, previous, rfl, ?_⟩
  · rw [term]
    exact leader_sourced voters history node raft log past own leader
  · rw [term, commit]
    exact own.committed

end Leader

section Turns

variable (voters : List NodeId) (history : History) (cluster : Cluster) (node : NodeId)
  (inv : ClusterInv voters history cluster) (member : node ∈ voters) (final : Node) (packets : List Packet)

include inv member

theorem heartbeat_timeout_turn (drives : Drives .other (cluster.nodes node) .heartbeatTimeout final packets) :
    ∃ after, ClusterInv voters after (cluster.become node final packets) := by
  obtain ⟨rfl, sent⟩ := heartbeat_timeout_driven .other _ final packets drives
  have own := inv.nodes node member
  refine still_turn voters history cluster node inv member .other _ .heartbeatTimeout packets rfl drives rfl rfl rfl rfl
    id (fun leads => ⟨leads, rfl⟩) own.progressed own.committed ?_
  rcases sent with rfl | ⟨leader, rfl⟩
  · simp
  · intro packet listed
    obtain ⟨peer, _, rfl⟩ := List.mem_map.mp listed
    exact leader_heartbeat voters history node _ _ inv.past own leader peer

theorem applied_turn (entries : AppliedEntries)
    (drives : Drives .other (cluster.nodes node) (.entriesApplied entries) final packets) :
    ∃ after, ClusterInv voters after (cluster.become node final packets) := by
  obtain ⟨rfl, rfl⟩ := applied_driven .other _ final packets entries drives
  have own := inv.nodes node member
  exact still_turn voters history cluster node inv member .other _ (.entriesApplied entries) [] rfl drives rfl rfl rfl rfl
    id (fun leads => ⟨leads, rfl⟩) own.progressed own.committed (by simp)

-- The log of a follower that answers a heartbeat with success is the leader's.
theorem matched_log (request : HeartbeatRequest) (log : List LogEntry) (sourced : Sourced history.ledgers request.term log)
    (index : request.logIndex = log.length) (term : request.logTerm = lastTerm log)
    (sameIndex : request.logIndex = (cluster.nodes node).raft.lastLogIndex)
    (sameTerm : request.logTerm = (cluster.nodes node).raft.lastLogTerm) : (cluster.nodes node).log = log := by
  have own := inv.nodes node member
  obtain ⟨source, stored⟩ := own.stored
  refine sourced_match LogEntry.term history.ledgers inv.past.coherent source request.term _ log stored.sourced.within
    sourced.within ?_ ?_
  · rw [← index, sameIndex, own.index]
  · exact own.term.symm.trans (sameTerm.symm.trans term)

theorem heartbeat_turn (request : HeartbeatRequest) (target : NodeId) (sent : .heartbeat target request ∈ cluster.sent)
    (drives : Drives .other (cluster.nodes node) (.heartbeat request) final packets) :
    ∃ after, ClusterInv voters after (cluster.become node final packets) := by
  obtain ⟨next, response, step, rfl, rfl⟩ := heartbeat_driven .other _ final packets request drives
  have own := inv.nodes node member
  obtain ⟨log, sourced, index, term, committed⟩ := inv.packets _ sent
  cases step with
  | stale =>
      refine still_turn voters history cluster node inv member .other _ (.heartbeat request) _ rfl drives rfl rfl rfl rfl
        id (fun leads => ⟨leads, rfl⟩) own.progressed own.committed ?_
      simp [PacketInv, Raft.appendResponse]
  | mismatched fresh =>
      refine still_turn voters history cluster node inv member .other _ (.heartbeat request) _ rfl drives rfl rfl rfl rfl
        (by simp [followedRaft]) (by simp [followedRaft]) (by simp [followedRaft])
        (later_committed voters _ _ _ _ _ fresh own.committed) ?_
      simp [PacketInv, Raft.appendResponse]
  | matched fresh sameIndex sameTerm =>
      have same := matched_log voters history cluster node inv member request log sourced index term sameIndex sameTerm
      have bound : min request.leaderCommitIndex (cluster.nodes node).raft.lastLogIndex ≤ request.leaderCommitIndex :=
        Nat.min_le_left _ _
      refine still_turn voters history cluster node inv member .other _ (.heartbeat request) _ rfl drives rfl rfl rfl rfl
        (by simp [followedRaft]) (by simp [followedRaft]) (by simp [followedRaft]) ?_ ?_
      · refine committed_max voters _ _ _ _ _ (later_committed voters _ _ _ _ _ fresh own.committed) ?_
        rw [same]
        exact committed_less voters log _ _ _ _ bound committed
      · intro packet listed
        obtain rfl := List.mem_singleton.mp listed
        intro _
        have self := self_id voters history cluster node inv _ (inv.tracks.nodes node) member
        refine ⟨sourced.led, ?_⟩
        by_cases own' : (history.base request.term).length < log.length
        · refine .inr ?_
          -- the follower has entries of this very leader, so it has acknowledged its log
          obtain ⟨source, stored⟩ := own.stored
          have late := own_entry_source LogEntry.term history.ledgers inv.past.coherent source request.term log
            (same ▸ stored.sourced.within) sourced.within own'
          have bound := stored.bound
          have now : source = request.term := by omega
          have held := stored.held.resolve_left fun empty => by simp [← same, empty] at own'
          rw [now, same] at held
          simpa only [followedRaft, Raft.appendResponse, self, own.index, same] using held
        · refine .inl ?_
          simp only [followedRaft, Raft.appendResponse, own.index, same]
          omega

theorem heartbeat_response_turn (received : ReceivedHeartbeatResponse) (target : NodeId)
    (sent : .heartbeatResponse target received ∈ cluster.sent)
    (drives : Drives .other (cluster.nodes node) (.heartbeatResponse received) final packets) :
    ∃ after, ClusterInv voters after (cluster.become node final packets) := by
  obtain ⟨next, step, rfl, rfl⟩ := heartbeat_response_driven .other _ final packets received drives
  have own := inv.nodes node member
  cases step with
  | stepsDown newer =>
      exact still_turn voters history cluster node inv member .other _ (.heartbeatResponse received) [] rfl drives rfl rfl
        rfl rfl (by simp) (by simp) (by simp) (later_committed voters _ _ _ _ _ (Nat.le_of_lt newer) own.committed) (by simp)
  | ignored =>
      exact still_turn voters history cluster node inv member .other _ (.heartbeatResponse received) [] rfl drives rfl rfl
        rfl rfl id (fun leads => ⟨leads, rfl⟩) own.progressed own.committed (by simp)
  | learner learner =>
      rw [own.learners] at learner
      cases learner
  | voter leader term progress found =>
      refine still_turn voters history cluster node inv member .other _ (.heartbeatResponse received) [] rfl drives rfl rfl
        rfl rfl id (fun leads => ⟨leads, rfl⟩) ?_ own.committed (by simp)
      intro _ other apart moved located
      have listed : received.sender ∈ (cluster.nodes node).raft.voters := AList.lookup_isSome.mp (by rw [found]; rfl)
      simp only [lookup_assign _ _ _ _ listed] at located
      by_cases self : other = received.sender
      case neg =>
        rw [if_neg self] at located
        exact own.progressed leader other apart moved located
      subst self
      rw [if_pos rfl] at located
      obtain rfl := Option.some.inj located
      have before := own.progressed leader received.sender apart progress found
      cases success : received.response.success with
      | false => simpa only [heartbeatProgress, success, Bool.false_eq_true, if_false] using before
      | true =>
          obtain ⟨led, stored⟩ := inv.packets _ sent success
          rw [term] at stored
          simp only [heartbeatProgress, success, if_true]
          -- the new progress is the old one or what the follower has stored
          rcases Nat.le_total (min received.response.lastLogIndex (cluster.nodes node).raft.lastLogIndex)
              progress.matchIndex with less | more
          · rw [Nat.max_eq_left less]
            exact before
          · rw [Nat.max_eq_right more]
            have bound := Nat.min_le_left received.response.lastLogIndex (cluster.nodes node).raft.lastLogIndex
            exact .inr (stored.imp (Nat.le_trans bound) (holds_less history _ _ _ _ bound))

theorem append_refused_turn (received : ReceivedAppendEntries) (entries : List LogEntry) (response : AppendEntriesResponse)
    (guard : appendGuard (cluster.nodes node).raft received = true) (refused : response.success = false)
    (outcome : AppendOutcome (cluster.nodes node) received entries final response)
    (reply : packets = [.appendEntriesResponse received.request.leaderId
      ⟨received.operationId, (cluster.nodes node).raft.id, response⟩])
    (drives : Drives (.appendEntries entries) (cluster.nodes node) (.appendEntries received) final packets) :
    ∃ after, ClusterInv voters after (cluster.become node final packets) := by
  have own := inv.nodes node member
  have harmless : ∀ packet ∈ packets, PacketInv voters history packet := by
    intro packet listed
    rw [reply, List.mem_singleton] at listed
    subst listed
    intro success
    rw [refused] at success
    cases success
  cases outcome with
  | stale =>
      exact still_turn voters history cluster node inv member _ _ (.appendEntries received) packets rfl drives rfl rfl rfl
        rfl id (fun leads => ⟨leads, rfl⟩) own.progressed own.committed harmless
  | rejected fresh mismatch =>
      have leader : (cluster.nodes node).raft.role = .leader → received.request.term = (cluster.nodes node).raft.currentTerm :=
        fun leads => Nat.le_antisymm (append_guard_term _ received guard leads mismatch) fresh
      refine still_turn voters history cluster node inv member _ _ (.appendEntries received) packets rfl drives rfl rfl rfl
        rfl id (fun leads => ⟨leads, leader leads⟩) (fun leads => ?_)
        (later_committed voters _ _ _ _ _ fresh own.committed) harmless
      have before := own.progressed leads
      rw [Progressed, ← leader leads] at before
      exact before
  | accepted => cases refused

end Turns

end RaftLog.Replication
