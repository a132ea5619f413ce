import RaftLog.Replication.Turns

set_option autoImplicit false

namespace RaftLog.Replication

open Lib

theorem entry_term_get (log : List LogEntry) (index term : Nat) (found : entryTerm log (index + 1) = some term) :
    ∃ entry, log[index]? = some entry ∧ entry.term = term := by
  cases located : log[index]? with
  | none => simp [entryTerm, located] at found
  | some entry => exact ⟨entry, rfl, by simpa [entryTerm, located] using found⟩

theorem prefix_accepted (raft : Raft) (received : ReceivedAppendEntries)
    (matching : prefixRejected raft received = false) : received.request.prevLogIndex ≤ raft.lastLogIndex ∧
      (received.request.prevLogIndex = 0 ∨ received.localPrevLogTerm = some received.request.prevLogTerm) := by
  simpa [prefixRejected, previousEntryMatches, or_iff_not_imp_left] using matching

section Append

variable (voters : List NodeId) (history : History) (cluster : Cluster) (node : NodeId)
  (inv : ClusterInv voters history cluster) (member : node ∈ voters)
  (operationId : OperationId) (request : AppendEntriesRequest) (log : List LogEntry)
  (guard : appendGuard (cluster.nodes node).raft
    ⟨operationId, request, entryTerm (cluster.nodes node).log request.prevLogIndex⟩ = true)
  (matching : prefixRejected (cluster.nodes node).raft
    ⟨operationId, request, entryTerm (cluster.nodes node).log request.prevLogIndex⟩ = false)
  (fresh : (cluster.nodes node).raft.currentTerm ≤ request.term)

include inv member matching

include guard fresh in
-- Whether or not the effect asks for a cut, what stays is the log up to the previous index.
theorem kept_common : truncate (cluster.nodes node).log (truncation (cluster.nodes node).raft request) =
    (cluster.nodes node).log.take request.prevLogIndex := by
  have own := inv.nodes node member
  have within := (prefix_accepted _ _ matching).1
  unfold truncation
  split
  · rfl
  · rename_i whole
    have atEnd : request.prevLogIndex = (cluster.nodes node).raft.lastLogIndex := by
      by_cases now : request.term = (cluster.nodes node).raft.currentTerm
      · exact append_guard_end _ _ guard matching now
      · have newer : request.term > (cluster.nodes node).raft.currentTerm := by omega
        have reached := not_and.mp whole newer
        exact Nat.le_antisymm within (Nat.le_of_not_lt reached)
    rw [atEnd, own.index, List.take_length]
    rfl

-- Up to the previous index the follower has what the leader had.
theorem shared_prefix (sourced : Sourced history.ledgers request.term log) (within : request.prevLogIndex ≤ log.length)
    (previous : request.prevLogTerm = termAt log request.prevLogIndex) :
    (cluster.nodes node).log.take request.prevLogIndex = log.take request.prevLogIndex := by
  obtain ⟨source, stored⟩ := (inv.nodes node member).stored
  rcases (prefix_accepted _ _ matching).2 with first | same
  · dsimp only at first
    rw [first, List.take_zero, List.take_zero]
  cases place : request.prevLogIndex with
  | zero => rw [List.take_zero, List.take_zero]
  | succ index =>
      dsimp only at same
      rw [place] at same within previous
      obtain ⟨entry, found, term⟩ := entry_term_get _ index _ same
      have led := List.getElem?_eq_getElem (l := log) (i := index) within
      have ends : entry.term = log[index].term := by
        rw [term, previous, termAt, entryTerm, led]
        rfl
      have shared := ledgers_match LogEntry.term history.ledgers inv.past.coherent source request.term index entry _
        (prefix_get _ _ _ _ stored.sourced.within found) (prefix_get _ _ _ _ sourced.within led) ends
      obtain ⟨rest, whole⟩ := stored.sourced.within
      obtain ⟨more, total⟩ := sourced.within
      have long := (List.getElem?_eq_some_iff.mp found).1
      rw [← whole, ← total, List.take_append_of_le_length (by omega), List.take_append_of_le_length (by omega)] at shared
      exact shared

include guard fresh in
-- What the follower had committed is in the log it takes over: it is in the leader's
-- base, or the leader is still the one of its term and the log only grows.
theorem committed_replaced (sourced : Sourced history.ledgers request.term log)
    (shared : (cluster.nodes node).log.take request.prevLogIndex = log.take request.prevLogIndex) (commit : Nat)
    (committed : Committed voters.toFinset history.ledgers (cluster.nodes node).raft.currentTerm
      (cluster.nodes node).log commit) :
    Committed voters.toFinset history.ledgers request.term log commit := by
  have own := inv.nodes node member
  rcases committed with rfl | ⟨leading, count, bound, chosen, bounded, reaches, inside⟩
  · exact .inl rfl
  rcases Nat.eq_or_lt_of_le (Nat.le_trans bound fresh) with same | less
  · have now : request.term = (cluster.nodes node).raft.currentTerm := by omega
    have atEnd : request.prevLogIndex = (cluster.nodes node).raft.lastLogIndex :=
      append_guard_end _ _ guard matching now
    rw [atEnd, own.index, List.take_length] at shared
    refine committed_longer voters _ _ _ commit log ?_ (.inr ⟨leading, count, by omega, chosen, bounded, reaches, inside⟩)
    rw [shared]
    exact List.take_prefix _ _
  · have led := sourced.led.resolve_left (by omega)
    have based := (chosen_in_base LogEntry.term history.ledgers inv.past.coherent voters.toFinset inv.past.elected
      leading count chosen request.term less led).trans sourced.based
    have long := based.length_le
    have reached := chosen.reached
    rw [List.length_take, Nat.min_eq_left reached] at long
    refine .inr ⟨leading, count, Nat.le_of_lt less, chosen, bounded, by omega, ?_⟩
    obtain ⟨rest, whole⟩ := based
    rw [← whole, List.take_append_of_le_length (by rw [List.length_take]; omega), List.take_take]
    exact List.take_prefix _ _

include guard fresh in
theorem append_accepted_turn (sourced : Sourced history.ledgers request.term log)
    (within : request.prevLogIndex ≤ log.length) (previous : request.prevLogTerm = termAt log request.prevLogIndex)
    (committed : Committed voters.toFinset history.ledgers request.term log request.commitIndex) (leaderId : Option NodeId)
    (drives : Drives (.appendEntries (log.drop request.prevLogIndex)) (cluster.nodes node)
      (.appendEntries ⟨operationId, request, entryTerm (cluster.nodes node).log request.prevLogIndex⟩)
      ⟨persistedRaft (acceptedRaft (cluster.nodes node).raft request) log request.commitIndex, log,
        (cluster.nodes node).completed⟩
      [.appendEntriesResponse request.leaderId ⟨operationId, (cluster.nodes node).raft.id,
        ⟨request.term, true, log.length, lastTerm log, leaderId⟩⟩]) :
    ∃ after, ClusterInv voters after (cluster.become node
      ⟨persistedRaft (acceptedRaft (cluster.nodes node).raft request) log request.commitIndex, log,
        (cluster.nodes node).completed⟩
      [.appendEntriesResponse request.leaderId ⟨operationId, (cluster.nodes node).raft.id,
        ⟨request.term, true, log.length, lastTerm log, leaderId⟩⟩]) := by
  have own := inv.nodes node member
  have shared := shared_prefix voters history cluster node inv member operationId request log matching sourced within previous
  obtain ⟨network, reach, follows, tracks, sent, campaigns, wins⟩ :=
    quiet_tracked voters history cluster node inv member _ _ _ _ rfl drives
  have current : (history.network.nodes node).currentTerm ≤ request.term := by
    rw [inv.tracks.nodes node]
    exact fresh
  have ext := extends_acknowledge history network node _ follows request.term log.length wins campaigns current
  have coherent : Coherent LogEntry.term (history.acknowledge network node request.term log.length).ledgers :=
    coherent_same LogEntry.term _ _ inv.past.coherent (won_same history _ wins) rfl rfl
  have past := still_history_inv voters history _ node inv.past ext reach coherent sent campaigns wins
  refine ⟨_, cluster_inv_become voters history _ cluster node _ _ inv ext past tracks ?_ ?_⟩
  · refine {
      learners := own.learners
      index := rfl
      term := rfl
      stored := ⟨request.term, Nat.le_refl _, sourced_grows _ _ ext.grows _ _ sourced, by simp [persistedRaft, acceptedRaft],
        .inr (.inl ⟨log.length, Nat.le_refl _, List.mem_cons_self⟩), ?_⟩
      campaign := by simp [persistedRaft, acceptedRaft]
      leads := by simp [persistedRaft, acceptedRaft]
      progressed := by simp [persistedRaft, acceptedRaft]
      committed := ?_ }
    · intro leading count holds
      obtain ⟨source, stored⟩ := own.stored
      have bound := stored.bound
      have before : history.ledgers.holds node leading count → leading ≤ request.term ∧
          (leading = request.term → count ≤ log.length) := by
        intro old
        obtain ⟨order, reaches⟩ := stored.kept leading count old
        refine ⟨by omega, fun same => ?_⟩
        have atEnd : request.prevLogIndex = (cluster.nodes node).raft.lastLogIndex :=
          append_guard_end _ _ guard matching (show request.term = _ by omega)
        have short := reaches (by omega)
        rw [← own.index, ← atEnd] at short
        exact Nat.le_trans short within
      rcases holds with ⟨last, bounded, acked⟩ | ⟨won, reaches⟩
      · rcases List.mem_cons.mp acked with new | old
        · cases new
          exact ⟨Nat.le_refl _, fun _ => bounded⟩
        · exact before (.inl ⟨last, bounded, old⟩)
      · refine before (.inr ⟨?_, reaches⟩)
        rw [← wins]
        exact won
    · refine committed_grows _ _ ext.grows _ request.term _ log _ (Nat.le_refl _) (committed_max voters _ _ _ _ _ ?_ ?_)
      · exact committed_replaced voters history cluster node inv member operationId request log guard matching fresh sourced
          shared _ own.committed
      · exact committed_less voters log _ _ _ _ (Nat.min_le_left _ _) committed
  · intro packet listed
    obtain rfl := List.mem_singleton.mp listed
    intro _
    rw [self_id voters history cluster node inv _ (inv.tracks.nodes node) member]
    exact List.mem_cons_self

end Append

theorem append_turn (voters : List NodeId) (history : History) (cluster : Cluster) (node : NodeId)
    (inv : ClusterInv voters history cluster) (member : node ∈ voters) (final : Node) (packets : List Packet)
    (target : NodeId) (operationId : OperationId) (request : AppendEntriesRequest) (entries : List LogEntry)
    (sent : .appendEntries target operationId request entries ∈ cluster.sent)
    (guard : appendGuard (cluster.nodes node).raft
      ⟨operationId, request, entryTerm (cluster.nodes node).log request.prevLogIndex⟩ = true)
    (drives : Drives (.appendEntries entries) (cluster.nodes node)
      (.appendEntries ⟨operationId, request, entryTerm (cluster.nodes node).log request.prevLogIndex⟩) final packets) :
    ∃ after, ClusterInv voters after (cluster.become node final packets) := by
  obtain ⟨response, outcome, reply⟩ := append_driven _ final packets _ entries drives
  cases success : response.success with
  | false =>
      exact append_refused_turn voters history cluster node inv member final packets _ entries response guard success outcome
        reply drives
  | true =>
      cases outcome with
      | stale => cases success
      | rejected => cases success
      | accepted fresh matching log appended leaderId =>
          obtain ⟨whole, sourced, within, previous, rfl, committed⟩ := inv.packets _ sent
          rw [kept_common voters history cluster node inv member operationId request guard matching fresh,
            shared_prefix voters history cluster node inv member operationId request whole matching sourced within previous,
            List.take_append_drop] at appended
          subst appended
          subst reply
          exact append_accepted_turn voters history cluster node inv member operationId request log guard matching fresh
            sourced within previous committed leaderId drives

section Response

variable (voters : List NodeId) (history : History) (node : NodeId) (raft : Raft) (log : List LogEntry)
  (past : HistoryInv voters history) (tracked : history.network.nodes node = raft) (member : node ∈ voters)
  (own : NodeInv voters history node raft log) (received : ReceivedAppendEntriesResponse)

include past own in
-- The last entry of a leader's log is behind its base once it is of the leader's term.
theorem own_entry_behind_base (leader : raft.role = .leader) (filled : 0 < log.length)
    (term : raft.lastLogTerm = raft.currentTerm) : (history.base raft.currentTerm).length < log.length := by
  have sourced := leader_sourced voters history node raft log past own leader
  have ends : endTerm LogEntry.term log = raft.currentTerm := own.term.symm.trans term
  have behind := (last_term_ledger LogEntry.term history.ledgers past.coherent _ log filled sourced.within).2.2.2.1
  rw [ends] at behind
  exact behind

include own in
theorem acknowledged_progressed (leader : raft.role = .leader) (voter : received.sender ∈ raft.voters)
    (stored : received.response.lastLogIndex < log.length ∨
      history.ledgers.holds received.sender raft.currentTerm received.response.lastLogIndex) :
    Progressed history node (acknowledgedRaft raft received) log := by
  intro other apart progress found
  simp only [acknowledgedRaft, lookup_assign _ _ _ _ voter] at found
  by_cases self : other = received.sender
  · subst self
    rw [if_pos rfl] at found
    obtain rfl := Option.some.inj found
    exact stored.imp id .inr
  · rw [if_neg self] at found
    exact own.progressed leader other apart progress found

include past tracked member own in
-- A majority of voters counted for the whole log has stored it.
theorem caught_up_chosen (next : Raft) (leader : raft.role = .leader) (keys : next.voters.keys = raft.voters.keys)
    (index : next.lastLogIndex = log.length) (term : next.currentTerm = raft.currentTerm)
    (progressed : Progressed history node next log) (own' : (history.base raft.currentTerm).length < log.length)
    (most : next.caughtUp > raft.voters.keys.length / 2) :
    Chosen voters.toFinset history.ledgers raft.currentTerm log.length := by
  obtain ⟨won, same⟩ := own.leads leader
  have reached : log.length ≤ (history.ledger raft.currentTerm).length := Nat.le_of_eq (congrArg List.length same)
  refine ⟨⟨node, won⟩, own', reached, ?_⟩
  let caught := next.voters.entries.filter fun entry => decide (entry.2.matchIndex ≥ next.lastLogIndex)
  have distinct : (caught.map Sigma.fst).Nodup :=
    List.Nodup.sublist (List.Sublist.map Sigma.fst List.filter_sublist) next.voters.keys_nodup
  have sameVoters : raft.voters.keys.toFinset = voters.toFinset := by
    rw [← tracked]
    exact (vote_inv voters history past).sameVoters node (List.mem_toFinset.mpr member)
  refine ⟨(caught.map Sigma.fst).toFinset, Election.majority_of_tally _ raft _ sameVoters ?_ ?_, ?_⟩
  · intro voter inQuorum
    rw [← sameVoters, ← keys, List.mem_toFinset]
    exact (List.Sublist.map Sigma.fst List.filter_sublist).subset (List.mem_toFinset.mp inQuorum)
  · rw [List.toFinset_card_of_nodup distinct, List.length_map]
    exact most
  · intro voter inQuorum
    obtain ⟨entry, listed, rfl⟩ := List.mem_map.mp (List.mem_toFinset.mp inQuorum)
    obtain ⟨present, enough⟩ := List.mem_filter.mp listed
    have enough : log.length ≤ entry.2.matchIndex := by
      rw [← index]
      exact of_decide_eq_true enough
    by_cases self : entry.1 = node
    · rw [self]
      exact .inr ⟨won, reached⟩
    · have found : next.voters.lookup entry.1 = some entry.2 := AList.mem_lookup_iff.mpr present
      rcases progressed entry.1 self entry.2 found with short | based | holds
      · omega
      · rw [term] at based
        omega
      · rw [term] at holds
        exact holds_less history _ _ _ _ enough holds

end Response

end RaftLog.Replication
