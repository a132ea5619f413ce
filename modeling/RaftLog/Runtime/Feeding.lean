import RaftLog.Core.Runs
import RaftLog.Runtime.Turns

set_option autoImplicit false

namespace RaftLog.Feeding

open Lib Drive

-- The index up to which an effect has entries applied.
def announced : Except Error (Option Effect) → Option Nat
  | .ok (some (.applyCommitted _ through)) => some through
  | .ok (some (.sendHeartbeatResponse _ _ _ applyThrough)) => applyThrough
  | _ => none

-- A node, the announcement that is not carried out yet, and the indexes applied so far.
structure Feed where
  raft : Raft
  owed : Option Nat
  applied : List Nat

inductive Action where
  | event (event : Event)
  | apply (operationId : OperationId)
deriving DecidableEq, Repr

-- As in drive, the entries are applied before the node handles anything else, and
-- EntriesApplied comes from nowhere else.
def step (feed : Feed) : Action → Option Feed
  | .event (.entriesApplied _) => none
  | .event event =>
      match feed.owed, handle feed.raft event with
      | none, .ok (next, answer) => some { feed with raft := next, owed := announced answer }
      | _, _ => none
  | .apply operationId =>
      match feed.owed with
      | none => none
      | some through =>
          match handle feed.raft (.entriesApplied ⟨operationId, through⟩) with
          | .ok (next, _) => some ⟨next, none, feed.applied ++ unapplied feed.raft through⟩
          | .error _ => none

def machine (id : NodeId) (voters : List NodeId) : Machine Feed Action :=
  ⟨fun feed => ∃ raft, Booted id voters raft ∧ feed = ⟨raft, none, []⟩, step⟩

-- Indexes are of type u64, and the log of a node without peers gives no index twice.
def numbered (feed : Feed) : Action → Bool
  | .event (.localEntriesAppended entry) =>
      decide (entry.index ≤ u64Max) && (!feed.raft.replicationTargets.isEmpty || decide (feed.raft.commitIndex < entry.index))
  | .event (.entriesPersisted entries) => decide (entries.lastLogIndex ≤ u64Max)
  | _ => true

-- The arm of ApplyCommitted gives the state machine what the step says, and asks for EntriesApplied.
theorem execute_applies {σ : Type} (world : World σ) (runtime after : Runtime σ) (operationId : OperationId) (through : Nat)
    (next : Option Event) (ran : execute world runtime (.applyCommitted operationId through) = .ok (after, .ok next)) :
    after.raft = runtime.raft ∧ after.applied.reverse = runtime.applied.reverse ++ unapplied runtime.raft through ∧
      next = some (.entriesApplied ⟨operationId, through⟩) := by
  dsimp only [execute] at ran
  split at ran
  · cases ran
  · cases ran
  · rename_i last applies
    cases ran
    obtain ⟨frame, done, rest, split, applied, whole⟩ := apply_entries_frame world _ runtime after (.ok ()) applies
    have all : unapplied runtime.raft through = done := by rw [split, whole rfl, List.append_nil]
    refine ⟨by rw [frame], ?_, rfl⟩
    rw [applied, all, List.reverse_append, List.reverse_reverse]

-- What one event does to the commit index is what it announces.
structure Announces (raft next : Raft) (announcement : Option Nat) : Prop where
  applied : next.lastApplied = raft.lastApplied
  bounded : next.lastLogIndex ≤ u64Max
  silent : announcement = none → next.commitIndex = raft.commitIndex
  raised : ∀ through, announcement = some through →
    next.commitIndex = through ∧ raft.commitIndex < through ∧ through ≤ u64Max

section Event

variable (raft next : Raft)

theorem announces_nothing (sameApplied : next.lastApplied = raft.lastApplied) (sameCommit : next.commitIndex = raft.commitIndex)
    (bounded : next.lastLogIndex ≤ u64Max) : Announces raft next none :=
  ⟨sameApplied, bounded, fun _ => sameCommit, fun _ absent => absurd absent (Option.some_ne_none _).symm⟩

theorem announces_index (through : Nat) (sameApplied : next.lastApplied = raft.lastApplied)
    (bounded : next.lastLogIndex ≤ u64Max) (reached : next.commitIndex = through) (more : raft.commitIndex < through)
    (fits : through ≤ u64Max) : Announces raft next (some through) := by
  refine ⟨sameApplied, bounded, fun absent => absurd absent (Option.some_ne_none through), ?_⟩
  intro later same
  cases same
  exact ⟨reached, more, fits⟩

theorem heartbeat_announces (request : HeartbeatRequest) (answer : Except Error (Option Effect))
    (bounded : raft.lastLogIndex ≤ u64Max) (handled : handleHeartbeat raft request = .ok (next, answer)) :
    Announces raft next (announced answer) := by
  by_cases stale : request.term < raft.currentTerm
  · rw [handleHeartbeat, if_pos stale] at handled
    cases handled
    exact announces_nothing raft raft rfl rfl bounded
  rw [handle_fresh_heartbeat raft request (Nat.le_of_not_lt stale)] at handled
  split at handled
  · cases handled
    exact announces_nothing raft _ rfl rfl bounded
  split at handled
  · rename_i raised
    cases handled
    exact announces_index raft _ _ rfl bounded rfl raised ((Nat.min_le_right _ _).trans bounded)
  · cases handled
    exact announces_nothing raft _ rfl rfl bounded

theorem persisted_announces (entries : PersistedEntries) (answer : Except Error (Option Effect))
    (bounded : entries.lastLogIndex ≤ u64Max) (handled : handleEntriesPersisted raft entries = .ok (next, answer)) :
    Announces raft next (announced answer) := by
  unfold handleEntriesPersisted at handled
  dsimp only at handled
  split at handled
  · rename_i raised
    cases handled
    exact announces_index raft _ _ rfl bounded rfl raised ((Nat.min_le_right _ _).trans bounded)
  · cases handled
    exact announces_nothing raft _ rfl rfl bounded

theorem local_entry_announces (entry : LocalEntry) (answer : Except Error (Option Effect))
    (bounded : raft.lastLogIndex ≤ u64Max) (fits : entry.index ≤ u64Max)
    (fresh : raft.replicationTargets.isEmpty = true → raft.commitIndex < entry.index)
    (handled : handleLocalEntryAppended raft entry = .ok (next, answer)) : Announces raft next (announced answer) := by
  cases local_entry_step raft next entry answer handled with
  | notLeader => exact announces_nothing raft raft rfl rfl bounded
  | replicates => exact announces_nothing raft _ rfl rfl fits
  | alone _ alone =>
      exact announces_index raft _ _ rfl fits rfl (fresh alone) fits

theorem append_response_announces (received : ReceivedAppendEntriesResponse) (answer : Except Error (Option Effect))
    (bounded : raft.lastLogIndex ≤ u64Max) (handled : handleAppendEntriesResponse raft received = .ok (next, answer)) :
    Announces raft next (announced answer) := by
  cases append_response_step raft next received answer handled with
  | notLeader | retries | stranger => exact announces_nothing raft raft rfl rfl bounded
  | stepsDown | behind | counted => exact announces_nothing raft _ rfl rfl bounded
  | learner _ _ _ _ learners effect retry =>
      rcases retry with rfl | ⟨rfl, _⟩
      · exact announces_nothing raft _ rfl rfl bounded
      · exact announces_nothing raft _ rfl rfl bounded
  | commits _ _ fresh =>
      exact announces_index raft _ _ rfl bounded rfl fresh bounded

theorem event_announces (event : Event) (answer : Except Error (Option Effect)) (bounded : raft.lastLogIndex ≤ u64Max)
    (applied : List Nat) (allowed : numbered ⟨raft, none, applied⟩ (.event event) = true)
    (outside : ∀ entries, event ≠ .entriesApplied entries) (handled : handle raft event = .ok (next, answer)) :
    Announces raft next (announced answer) := by
  cases event with
  | entriesApplied entries => exact absurd rfl (outside entries)
  | heartbeat request => exact heartbeat_announces raft next request answer bounded handled
  | entriesPersisted entries => exact persisted_announces raft next entries answer (of_decide_eq_true allowed) handled
  | localEntriesAppended entry =>
      obtain ⟨fits, fresh⟩ := Bool.and_eq_true_iff.mp allowed
      refine local_entry_announces raft next entry answer bounded (of_decide_eq_true fits) ?_ handled
      intro alone
      rw [alone, Bool.not_true, Bool.false_or] at fresh
      exact of_decide_eq_true fresh
  | appendEntriesResponse received => exact append_response_announces raft next received answer bounded handled
  | electionTimeout =>
      obtain ⟨rfl, rfl⟩ := election_timeout_step raft next answer handled
      exact announces_nothing raft _ rfl rfl bounded
  | requestVote request =>
      obtain ⟨_, _, vote, rfl⟩ := request_vote_step raft next request answer handled
      have frame := vote.frame
      exact announces_nothing raft next (by rw [frame]) (by rw [frame]) (by rwa [frame])
  | voteResponse received =>
      cases vote_response_step raft next received answer handled with
      | stepsDown | tallied | elected => exact announces_nothing raft _ rfl rfl bounded
      | notCandidate | ignored => exact announces_nothing raft raft rfl rfl bounded
  | heartbeatResponse received =>
      obtain ⟨moves, idle⟩ := heartbeat_response_step raft next received answer handled
      have silent : announced answer = none := by
        unfold announced
        split
        · exact absurd rfl (idle _)
        · exact absurd rfl (idle _)
        · rfl
      rw [silent]
      cases moves with
      | stepsDown | voter | learner => exact announces_nothing raft _ rfl rfl bounded
      | ignored => exact announces_nothing raft raft rfl rfl bounded
  | appendEntries received =>
      cases append_entries_step raft next received answer handled with
      | stale => exact announces_nothing raft raft rfl rfl bounded
      | rejected | accepted => exact announces_nothing raft _ rfl rfl bounded
  | heartbeatTimeout | write =>
      simp only [handle, handleHeartbeatTimeout, handleWrite] at handled
      split at handled
      · cases handled
        exact announces_nothing raft raft rfl rfl bounded
      · cases handled
        exact announces_nothing raft raft rfl rfl bounded

end Event

-- The commit index is what has been applied or is about to be, and nothing was applied
-- twice or passed over.
structure Fed (feed : Feed) : Prop where
  inOrder : feed.applied = List.range' 1 feed.raft.lastApplied
  settled : feed.owed = none → feed.raft.commitIndex = feed.raft.lastApplied
  pending : ∀ through, feed.owed = some through → feed.raft.commitIndex = through ∧ feed.raft.lastApplied < through

structure Bounded (feed : Feed) : Prop where
  log : feed.raft.lastLogIndex ≤ u64Max
  owed : ∀ through, feed.owed = some through → through ≤ u64Max

theorem nothing_owed (raft : Raft) (applied : List Nat) (inOrder : applied = List.range' 1 raft.lastApplied)
    (settled : raft.commitIndex = raft.lastApplied) (bounded : raft.lastLogIndex ≤ u64Max) :
    Fed ⟨raft, none, applied⟩ ∧ Bounded ⟨raft, none, applied⟩ :=
  ⟨⟨inOrder, fun _ => settled, fun _ absent => absurd absent (Option.some_ne_none _).symm⟩, bounded,
    fun _ absent => absurd absent (Option.some_ne_none _).symm⟩

theorem event_fed (feed next : Feed) (event : Event) (fed : Fed feed) (bounded : Bounded feed)
    (allowed : numbered feed (.event event) = true) (moves : step feed (.event event) = some next) :
    Fed next ∧ Bounded next := by
  obtain ⟨raft, owed, applied⟩ := feed
  have outside : ∀ entries, event ≠ .entriesApplied entries := by
    rintro entries rfl
    cases moves
  have handled : ∃ after answer, owed = none ∧ handle raft event = .ok (after, answer) ∧
      next = ⟨after, announced answer, applied⟩ := by
    cases event with
    | entriesApplied entries => exact absurd rfl (outside entries)
    | _ =>
        simp only [step] at moves
        split at moves
        · rename_i after answer handled
          cases moves
          exact ⟨after, answer, rfl, handled, rfl⟩
        · cases moves
  obtain ⟨after, answer, rfl, handled, rfl⟩ := handled
  have announces := event_announces raft after event answer bounded.log applied allowed outside handled
  have caughtUp : raft.commitIndex = raft.lastApplied := fed.settled rfl
  refine ⟨⟨?_, ?_, ?_⟩, announces.bounded, ?_⟩
  · have order : applied = List.range' 1 raft.lastApplied := fed.inOrder
    rw [order, announces.applied]
  · intro silent
    rw [announces.silent silent, announces.applied]
    exact caughtUp
  · intro through same
    obtain ⟨reached, more, _⟩ := announces.raised through same
    refine ⟨reached, ?_⟩
    rw [announces.applied, ← caughtUp]
    exact more
  · intro through same
    exact (announces.raised through same).2.2

theorem unapplied_after (raft : Raft) (through : Nat) (more : raft.lastApplied < through) (fits : through ≤ u64Max) :
    List.range' 1 raft.lastApplied ++ unapplied raft through = List.range' 1 through := by
  have first : saturatingAdd raft.lastApplied 1 = raft.lastApplied + 1 := Nat.min_eq_left (more.trans_le fits)
  rw [unapplied, first, Nat.add_sub_add_right]
  have joined : List.range' 1 raft.lastApplied ++ List.range' (1 + raft.lastApplied) (through - raft.lastApplied) =
      List.range' 1 (raft.lastApplied + (through - raft.lastApplied)) := List.range'_append_1
  rw [Nat.add_comm 1 raft.lastApplied, Nat.add_sub_cancel' more.le] at joined
  exact joined

theorem apply_fed (feed next : Feed) (operationId : OperationId) (fed : Fed feed) (bounded : Bounded feed)
    (moves : step feed (.apply operationId) = some next) : Fed next ∧ Bounded next := by
  obtain ⟨raft, owed, applied⟩ := feed
  cases owed with
  | none => cases moves
  | some through =>
      obtain ⟨reached, more⟩ := fed.pending through rfl
      have fits := bounded.owed through rfl
      have order : applied = List.range' 1 raft.lastApplied := fed.inOrder
      have applies : ∃ answer,
          handle raft (.entriesApplied ⟨operationId, through⟩) = .ok ({ raft with lastApplied := through }, answer) := by
        simp only [handle, handleEntriesApplied]
        split
        · exact ⟨_, rfl⟩
        · exact ⟨_, rfl⟩
      obtain ⟨answer, applies⟩ := applies
      simp only [step, applies] at moves
      cases moves
      have whole : applied ++ unapplied raft through = List.range' 1 through := by
        rw [order]
        exact unapplied_after raft through more fits
      exact nothing_owed { raft with lastApplied := through } _ whole reached bounded.log

-- In whatever role a node learns that entries are committed, the state machine is given
-- each of them once and in order.
theorem fed_in_order (id : NodeId) (voters : List NodeId) (feed : Feed)
    (run : Run (machine id voters) (fun feed action => numbered feed action = true) feed) : Fed feed := by
  have fed : Fed feed ∧ Bounded feed := by
    refine run_invariant (machine id voters) _ (fun feed => Fed feed ∧ Bounded feed) ?_ ?_ feed run
    · rintro _ ⟨raft, ⟨nextOffset, state, rfl⟩, rfl⟩
      exact nothing_owed _ [] rfl rfl (Nat.zero_le _)
    · rintro state action next _ ⟨fed, bounded⟩ allowed moves
      cases action with
      | event event => exact event_fed state next event fed bounded allowed moves
      | apply operationId => exact apply_fed state next operationId fed bounded moves
  exact fed.1

-- A follower learns of one entry from a heartbeat and of two from an append; then it leads
-- and commits a fourth.
def fourEntries : List Action :=
  [.event (.entriesPersisted ⟨⟨1⟩, 2, 1, 0⟩), .event (.heartbeat ⟨1, nodeB, 2, 1, 1⟩), .apply ⟨0⟩,
    .event (.entriesPersisted ⟨⟨2⟩, 3, 1, 3⟩), .apply ⟨2⟩, .event .electionTimeout,
    .event (.voteResponse ⟨nodeB, ⟨2, true⟩⟩), .event (.localEntriesAppended ⟨⟨3⟩, 4, 2⟩),
    .event (.appendEntriesResponse ⟨⟨3⟩, nodeB, ⟨2, true, 4, 2, none⟩⟩), .apply ⟨3⟩]

def booted : Feed := ⟨newRaft nodeA threeNodes 1 ⟨0, none⟩, none, []⟩

def afterFour : Feed := (execWhen (machine nodeA threeNodes) numbered booted fourEntries).getD booted

theorem four_entries_fed : afterFour.applied = [1, 2, 3, 4] ∧ afterFour.raft.commitIndex = 4 := by
  have run : Run (machine nodeA threeNodes) (fun feed action => numbered feed action = true) afterFour :=
    exec_when_reaches (machine nodeA threeNodes) _ numbered (fun _ _ meets => meets) fourEntries booted booted
      (.start booted ⟨_, ⟨1, ⟨0, none⟩, rfl⟩, rfl⟩) (by decide +kernel)
  have fed := fed_in_order nodeA threeNodes afterFour run
  have four : afterFour.raft.lastApplied = 4 := by decide +kernel
  have inOrder := fed.inOrder
  have settled := fed.settled (by decide +kernel)
  rw [four] at inOrder settled
  exact ⟨inOrder, settled⟩

end RaftLog.Feeding
