import RaftLog.Replication.Entries

set_option autoImplicit false

namespace RaftLog.Replication

open Lib

section Turns

variable (voters : List NodeId) (history : History) (cluster : Cluster) (node : NodeId)
  (inv : ClusterInv voters history cluster) (member : node ∈ voters) (final : Node) (packets : List Packet)

include inv member

-- The retry of a follower that is behind sends the leader's log from where it is.
theorem retry_packet (received : ReceivedAppendEntriesResponse) (raft : Raft)
    (leader : (cluster.nodes node).raft.role = .leader)
    (behind : received.response.lastLogIndex < (cluster.nodes node).raft.lastLogIndex)
    (term : raft.currentTerm = (cluster.nodes node).raft.currentTerm) (packet : Packet)
    (listed : packet ∈ ((cluster.nodes node).finish raft (.ok (some ((cluster.nodes node).raft.retry received)))).2) :
    PacketInv voters history packet := by
  have own := inv.nodes node member
  simp only [Node.finish, Raft.retry, List.map_cons, List.map_nil, List.mem_singleton] at listed
  subst listed
  refine leader_append voters history node _ _ inv.past own leader received.sender received.operationId _ term ?_ rfl rfl
  rw [own.index] at behind
  exact Nat.le_of_lt behind

omit member in
theorem counted_holds (received : ReceivedAppendEntriesResponse) (target : NodeId)
    (sent : .appendEntriesResponse target received ∈ cluster.sent)
    (guard : responseGuard (cluster.nodes node).raft received = true) (counts : Counts (cluster.nodes node).raft received) :
    history.ledgers.holds received.sender (cluster.nodes node).raft.currentTerm received.response.lastLogIndex := by
  obtain ⟨success, term⟩ := response_guard_counts _ received guard counts
  rw [← term]
  exact .inl ⟨_, Nat.le_refl _, inv.packets _ sent success⟩

-- The response that makes the leader commit: a majority has all of its log.
theorem commit_chosen (received : ReceivedAppendEntriesResponse) (target : NodeId)
    (sent : .appendEntriesResponse target received ∈ cluster.sent)
    (guard : responseGuard (cluster.nodes node).raft received = true) (counts : Counts (cluster.nodes node).raft received)
    (most : (acknowledgedRaft (cluster.nodes node).raft received).caughtUp > (cluster.nodes node).raft.voters.keys.length / 2)
    (fresh : (cluster.nodes node).raft.commitIndex < (cluster.nodes node).raft.lastLogIndex) :
    Chosen voters.toFinset history.ledgers (cluster.nodes node).raft.currentTerm (cluster.nodes node).log.length := by
  have own := inv.nodes node member
  have filled : 0 < (cluster.nodes node).log.length := by
    rw [← own.index]
    exact Nat.lt_of_le_of_lt (Nat.zero_le _) fresh
  refine caught_up_chosen voters history node _ _ inv.past (inv.tracks.nodes node) member own
    (acknowledgedRaft (cluster.nodes node).raft received) counts.leader (keys_assign _ _ _) own.index rfl ?_ ?_ most
  · exact acknowledged_progressed voters history node _ _ own received counts.leader counts.voter
      (.inr (counted_holds voters history cluster node inv received target sent guard counts))
  · exact own_entry_behind_base voters history node _ _ inv.past own counts.leader filled
      (response_guard_commits _ received guard counts most fresh)

theorem append_response_turn (received : ReceivedAppendEntriesResponse) (target : NodeId)
    (sent : .appendEntriesResponse target received ∈ cluster.sent)
    (guard : responseGuard (cluster.nodes node).raft received = true)
    (drives : Drives .other (cluster.nodes node) (.appendEntriesResponse received) final packets) :
    ∃ after, ClusterInv voters after (cluster.become node final packets) := by
  obtain ⟨raft, result, step, finished⟩ := append_response_driven .other _ final packets received drives
  have own := inv.nodes node member
  have still := still_turn voters history cluster node inv member .other final (.appendEntriesResponse received) packets rfl
    drives
  have holds := counted_holds voters history cluster node inv received target sent guard
  have progressed := acknowledged_progressed voters history node _ _ own received
  cases step with
  | notLeader | stranger =>
      cases finished
      exact still rfl rfl rfl rfl id (fun leads => ⟨leads, rfl⟩) own.progressed own.committed (by simp)
  | stepsDown leader newer =>
      cases finished
      exact still rfl rfl rfl rfl (by simp) (by simp) (by simp)
        (later_committed voters _ _ _ _ _ (Nat.le_of_lt newer) own.committed) (by simp)
  | learner _ _ _ learner =>
      rw [own.learners] at learner
      cases learner
  | retries leader _ behind =>
      have new := retry_packet voters history cluster node inv member received _ leader behind rfl
      cases finished
      exact still rfl rfl rfl rfl id (fun leads => ⟨leads, rfl⟩) own.progressed own.committed new
  | behind leader _ behind _ _ voter =>
      have new := retry_packet voters history cluster node inv member received _ leader behind
        (show (acknowledgedRaft (cluster.nodes node).raft received).currentTerm = _ from rfl)
      cases finished
      refine still rfl rfl rfl rfl id (fun leads => ⟨leads, rfl⟩) (fun _ => progressed leader voter (.inl ?_)) own.committed new
      rw [← own.index]
      exact behind
  | counted counts =>
      cases finished
      exact still rfl rfl rfl rfl id (fun leads => ⟨leads, rfl⟩)
        (fun _ => progressed counts.leader counts.voter (.inr (holds counts))) own.committed (by simp)
  | commits counts most fresh =>
      have chosen := commit_chosen voters history cluster node inv member received target sent guard counts most fresh
      have sourced := leader_sourced voters history node _ _ inv.past own counts.leader
      cases finished
      refine still rfl rfl rfl rfl id (fun leads => ⟨leads, rfl⟩)
        (fun _ => progressed counts.leader counts.voter (.inr (holds counts)))
        (.inr ⟨_, _, Nat.le_refl _, chosen, Nat.le_of_eq own.index, Nat.le_of_eq own.index, ?_⟩) (by simp)
      exact (List.take_prefix _ _).trans sourced.within

-- A leader without followers is the majority of its cluster.
theorem alone_majority (alone : (cluster.nodes node).raft.replicationTargets.isEmpty = true) :
    Majority voters.toFinset {node} := by
  have sameVoters : (cluster.nodes node).raft.voters.keys.toFinset = voters.toFinset := by
    rw [← inv.tracks.nodes node]
    exact (vote_inv voters history inv.past).sameVoters node (List.mem_toFinset.mpr member)
  have self := self_id voters history cluster node inv _ (inv.tracks.nodes node) member
  have single : voters.toFinset ⊆ {node} := by
    intro voter inVoters
    rw [← sameVoters, List.mem_toFinset] at inVoters
    obtain ⟨entry, listed, rfl⟩ := List.mem_map.mp inVoters
    by_contra apart
    rw [Finset.mem_singleton] at apart
    have targeted : entry ∈ ((cluster.nodes node).raft.voters.entries ++ (cluster.nodes node).raft.learners.entries).filter
        fun entry => entry.1 ≠ (cluster.nodes node).raft.id := by
      simp [listed, self, apart]
    simp only [Raft.replicationTargets, List.isEmpty_iff, List.map_eq_nil_iff] at alone
    rw [alone] at targeted
    cases targeted
  refine ⟨Finset.singleton_subset_iff.mpr (List.mem_toFinset.mpr member), ?_⟩
  have small := Finset.card_le_card single
  rw [Finset.card_singleton] at small ⊢
  omega

end Turns

theorem last_term_append (log : List LogEntry) (entry : LogEntry) : lastTerm (log ++ [entry]) = entry.term := by
  simp [lastTerm]

section Write

variable (voters : List NodeId) (history : History) (cluster : Cluster) (node : NodeId)
  (inv : ClusterInv voters history cluster) (member : node ∈ voters) (network : Election.Network) (entry : LogEntry)
  (next : Raft) (leader : (cluster.nodes node).raft.role = .leader)
  (wins : network.wins = history.network.wins) (term : entry.term = (cluster.nodes node).raft.currentTerm)
  (ext : Extends history (history.write network (cluster.nodes node).raft.currentTerm entry) node)

include inv member leader wins ext

omit ext in
theorem written_holds (leading count : Nat)
    (holds : (history.write network (cluster.nodes node).raft.currentTerm entry).ledgers.holds node leading count) :
    leading ≤ (cluster.nodes node).raft.currentTerm ∧
      (leading = (cluster.nodes node).raft.currentTerm → count ≤ ((cluster.nodes node).log ++ [entry]).length) := by
  have own := inv.nodes node member
  obtain ⟨won, same⟩ := own.leads leader
  obtain ⟨source, stored⟩ := own.stored
  have bound := stored.bound
  have before : history.ledgers.holds node leading count → leading ≤ (cluster.nodes node).raft.currentTerm ∧
      (leading = (cluster.nodes node).raft.currentTerm → count ≤ ((cluster.nodes node).log ++ [entry]).length) := by
    intro old
    obtain ⟨order, reaches⟩ := stored.kept leading count old
    refine ⟨by omega, fun now => ?_⟩
    have short := reaches (by omega)
    rw [List.length_append]
    omega
  rcases holds with acked | ⟨led, reaches⟩
  · exact before (.inl acked)
  · by_cases now : leading = (cluster.nodes node).raft.currentTerm
    · subst now
      refine ⟨Nat.le_refl _, fun _ => ?_⟩
      simp only [History.write, Function.update_self] at reaches
      rwa [same]
    · simp only [History.write, Function.update_of_ne now] at reaches
      refine before (.inr ⟨?_, reaches⟩)
      rw [← wins]
      exact led

include term in
-- The leader after its write.
theorem written_node_inv (learners : next.learners = (cluster.nodes node).raft.learners)
    (index : next.lastLogIndex = (cluster.nodes node).log.length + 1)
    (ends : next.lastLogTerm = (cluster.nodes node).raft.currentTerm) (leads : next.role = .leader)
    (current : next.currentTerm = (cluster.nodes node).raft.currentTerm)
    (sameVoters : ∃ progress, next.voters = assign (cluster.nodes node).raft.voters node progress)
    (committed : Committed voters.toFinset
      (history.write network (cluster.nodes node).raft.currentTerm entry).ledgers
      (cluster.nodes node).raft.currentTerm ((cluster.nodes node).log ++ [entry]) next.commitIndex) :
    NodeInv voters (history.write network (cluster.nodes node).raft.currentTerm entry) node next
      ((cluster.nodes node).log ++ [entry]) := by
  have own := inv.nodes node member
  obtain ⟨won, same⟩ := own.leads leader
  have whole : (history.write network (cluster.nodes node).raft.currentTerm entry).ledger
      (cluster.nodes node).raft.currentTerm = (cluster.nodes node).log ++ [entry] := by
    simp only [History.write, Function.update_self, same]
  have sourced := sourced_grows _ _ ext.grows _ _ (leader_sourced voters history node _ _ inv.past own leader)
  exact {
    learners := learners.trans own.learners
    index := by rw [index, List.length_append, List.length_singleton]
    term := by rw [ends, last_term_append, term]
    stored := by
      refine ⟨(cluster.nodes node).raft.currentTerm, Nat.le_of_eq current.symm,
        ⟨sourced.based.trans (List.prefix_append _ _), ?_, sourced.led⟩, fun stands => ?_, ?_, ?_⟩
      · rw [← whole]
        exact List.prefix_rfl
      · rw [leads] at stands
        cases stands
      · refine .inr (.inr ⟨ext.wins won, Nat.le_of_eq ?_⟩)
        rw [whole]
      · exact written_holds voters history cluster node inv member network entry leader wins
    campaign := fun stands => by rw [leads] at stands; cases stands
    leads := fun _ => by rw [current]; exact ⟨ext.wins won, whole.symm⟩
    progressed := by
      intro _ other apart progress found
      obtain ⟨updated, rewritten⟩ := sameVoters
      have present : node ∈ (cluster.nodes node).raft.voters := by
        have keys := (vote_inv voters history inv.past).sameVoters node (List.mem_toFinset.mpr member)
        rw [inv.tracks.nodes node] at keys
        rw [AList.mem_keys, ← List.mem_toFinset, keys]
        exact List.mem_toFinset.mpr member
      rw [rewritten, lookup_assign _ _ _ _ present, if_neg apart] at found
      rw [current]
      rcases own.progressed leader other apart progress found with short | based | holds
      · refine .inl ?_
        rw [List.length_append]
        omega
      · exact .inr (.inl based)
      · exact .inr (.inr (ext.grows.holds other _ _ holds))
    committed := by rw [current]; exact committed }

end Write

section Write

variable (voters : List NodeId) (history : History) (cluster : Cluster) (node : NodeId)
  (inv : ClusterInv voters history cluster) (member : node ∈ voters) (final : Node) (packets : List Packet)

include inv member

theorem targets_within (target : ReplicationTarget) (listed : target ∈ (cluster.nodes node).raft.replicationTargets) :
    target.lastLogIndex ≤ (cluster.nodes node).log.length ∧
      target.leaderCommitIndex = (cluster.nodes node).raft.commitIndex := by
  obtain ⟨entry, _, rfl⟩ := List.mem_map.mp listed
  rw [← (inv.nodes node member).index]
  exact ⟨Nat.min_le_right _ _, rfl⟩

theorem leader_write_turn (operationId : OperationId) (command : List UInt8)
    (leader : (cluster.nodes node).raft.role = .leader) (raft : Raft) (result : Except Error (Option Effect))
    (step : LocalEntryStep (cluster.nodes node).raft
      ⟨operationId, (cluster.nodes node).log.length + 1, (cluster.nodes node).raft.currentTerm⟩ raft result)
    (finished : (final, packets) = ((cluster.nodes node).written command).finish raft result)
    (drives : Drives (.write command) (cluster.nodes node) (.write operationId) final packets) :
    ∃ after, ClusterInv voters after (cluster.become node final packets) := by
  have own := inv.nodes node member
  obtain ⟨won, same⟩ := own.leads leader
  obtain ⟨network, reach, follows, tracks, sent, campaigns, wins⟩ :=
    quiet_tracked voters history cluster node inv member _ final (.write operationId) packets rfl drives
  have ext := extends_write history network node final.raft follows (cluster.nodes node).raft.currentTerm
    ⟨(cluster.nodes node).raft.currentTerm, command⟩ wins campaigns won
    (fun other also => Election.winner_unique _ _ (vote_inv voters history inv.past) other node _ also won)
    (by rw [inv.tracks.nodes node])
  have coherent := coherent_append LogEntry.term history.ledgers
    (history.write network (cluster.nodes node).raft.currentTerm ⟨(cluster.nodes node).raft.currentTerm, command⟩).ledgers
    inv.past.coherent (cluster.nodes node).raft.currentTerm ⟨(cluster.nodes node).raft.currentTerm, command⟩ rfl
    ⟨node, won⟩ (won_same history _ wins) rfl rfl
  have past := still_history_inv voters history _ node inv.past ext reach coherent sent campaigns wins
  have self := self_id voters history cluster node inv _ (inv.tracks.nodes node) member
  have kept := committed_grows _ _ ext.grows _ _ (cluster.nodes node).raft.currentTerm _ _ (Nat.le_refl _) own.committed
  have longer := committed_longer voters _ _ _ _ _ (List.prefix_append (cluster.nodes node).log
    [⟨(cluster.nodes node).raft.currentTerm, command⟩]) kept
  have written := fun next => written_node_inv voters history cluster node inv member network
    ⟨(cluster.nodes node).raft.currentTerm, command⟩ next leader wins rfl ext
  cases step with
  | notLeader role => exact absurd leader role
  | replicates =>
      have moved := written (appendedRaft (cluster.nodes node).raft
        ⟨operationId, (cluster.nodes node).log.length + 1, (cluster.nodes node).raft.currentTerm⟩) rfl rfl rfl leader rfl
        ⟨_, by rw [appendedRaft, self]⟩ longer
      cases finished
      refine ⟨_, cluster_inv_become voters history _ cluster node _ _ inv ext past tracks moved ?_⟩
      intro packet listed
      obtain ⟨target, targeted, rfl⟩ := List.mem_map.mp listed
      obtain ⟨within, commit⟩ := targets_within voters history cluster node inv member target targeted
      refine leader_append voters _ node _ _ past moved leader target.peer operationId _ rfl ?_ rfl commit
      refine Nat.le_trans within ?_
      simp
  | alone _ alone =>
      have whole : (history.write network (cluster.nodes node).raft.currentTerm
          ⟨(cluster.nodes node).raft.currentTerm, command⟩).ledger (cluster.nodes node).raft.currentTerm =
          (cluster.nodes node).log ++ [⟨(cluster.nodes node).raft.currentTerm, command⟩] := by
        simp only [History.write, Function.update_self, same]
      have long := congrArg List.length whole
      rw [List.length_append, List.length_singleton] at long
      have based : (history.base (cluster.nodes node).raft.currentTerm).length ≤ (cluster.nodes node).log.length := by
        rw [same]
        exact (inv.past.coherent.based (cluster.nodes node).raft.currentTerm).length_le
      have chosen : Chosen voters.toFinset (history.write network (cluster.nodes node).raft.currentTerm
          ⟨(cluster.nodes node).raft.currentTerm, command⟩).ledgers (cluster.nodes node).raft.currentTerm
          ((cluster.nodes node).log.length + 1) := by
        refine ⟨⟨node, ext.wins won⟩, Nat.lt_succ_of_le based, Nat.le_of_eq long.symm, {node},
          alone_majority voters history cluster node inv member alone, ?_⟩
        intro voter inQuorum
        rw [Finset.mem_singleton.mp inQuorum]
        exact .inr ⟨ext.wins won, Nat.le_of_eq long.symm⟩
      cases finished
      refine ⟨_, cluster_inv_become voters history _ cluster node _ [] inv ext past tracks
        (written _ rfl rfl rfl leader rfl ⟨_, by rw [appendedRaft, self]⟩ ?_) (by simp)⟩
      refine .inr ⟨_, _, Nat.le_refl _, chosen, Nat.le_refl _, ?_, ?_⟩
      · simp
      · refine (List.take_prefix _ _).trans ?_
        rw [← whole]
        exact List.prefix_rfl

theorem write_turn (operationId : OperationId) (command : List UInt8)
    (drives : Drives (.write command) (cluster.nodes node) (.write operationId) final packets) :
    ∃ after, ClusterInv voters after (cluster.become node final packets) := by
  rcases write_driven _ final packets operationId command drives with
    ⟨_, rfl, rfl⟩ | ⟨leader, raft, result, step, finished⟩
  · have own := inv.nodes node member
    exact still_turn voters history cluster node inv member (.write command) _ (.write operationId) [] rfl drives rfl rfl rfl
      rfl id (fun leads => ⟨leads, rfl⟩) own.progressed own.committed (by simp)
  · exact leader_write_turn voters history cluster node inv member final packets operationId command leader raft result step
      finished drives

end Write

end RaftLog.Replication
