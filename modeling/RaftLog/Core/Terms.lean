import RaftLog.Core.Responses
import RaftLog.Core.Runs

set_option autoImplicit false

namespace RaftLog.Terms

open Lib

-- A node, the panic that has ended its run, and the terms it has been in, newest first.
structure Account where
  raft : Raft
  ended : Option Panic
  terms : List Nat

def Opened (id : NodeId) (voters : List NodeId) (account : Account) : Prop :=
  ∃ raft, Booted id voters raft ∧ account = ⟨raft, none, [raft.currentTerm]⟩

def step (account : Account) (event : Event) : Option Account :=
  match account.ended with
  | some _ => none
  | none =>
      match handle account.raft event with
      | .ok (next, _) => some ⟨next, none, next.currentTerm :: account.terms⟩
      | .error panic => some { account with ended := some panic }

def machine (id : NodeId) (voters : List NodeId) : Machine Account Event := ⟨Opened id voters, step⟩

-- Nothing has overflowed, and no term was followed by a lower one.
structure Climbing (account : Account) : Prop where
  fits : account.ended ≠ some overflow
  ascends : account.terms.Pairwise (· ≥ ·)

-- One more than the largest u64 is asked for: the next term, or the index behind an entry.
def exceeds (raft : Raft) : Event → Bool
  | .electionTimeout => u64Max ≤ raft.currentTerm
  | .localEntriesAppended entry => raft.role = .leader && raft.id ∈ raft.voters && u64Max ≤ entry.index
  | .appendEntriesResponse received => raft.role = .leader && received.response.term ≤ raft.currentTerm &&
      received.response.lastLogIndex ≤ raft.lastLogIndex &&
      (received.response.success || received.response.lastLogIndex = raft.lastLogIndex) &&
      (received.sender ∈ raft.learners || received.sender ∈ raft.voters) && u64Max ≤ received.response.lastLogIndex
  | _ => false

theorem succ_fits (number : Nat) (below : number < u64Max) : addU64 number 1 = .ok (number + 1) := if_pos below

theorem returned_fits (outcome : Raft × Except Error (Option Effect)) : (.ok outcome : Handled) ≠ .error overflow := by
  intro same
  cases same

theorem timeout_overflows_iff (raft : Raft) :
    handleElectionTimeout raft = .error overflow ↔ exceeds raft .electionTimeout = true := by
  rw [exceeds, decide_eq_true_eq, handleElectionTimeout]
  by_cases below : raft.currentTerm < u64Max
  · rw [succ_fits raft.currentTerm below]
    exact iff_of_false (returned_fits _) (Nat.not_le_of_lt below)
  · rw [add_u64_overflow raft.currentTerm 1 below]
    exact iff_of_true rfl (Nat.le_of_not_lt below)

theorem local_entry_overflows_iff (raft : Raft) (entry : LocalEntry) :
    handleLocalEntryAppended raft entry = .error overflow ↔ exceeds raft (.localEntriesAppended entry) = true := by
  rw [handleLocalEntryAppended]
  by_cases leader : raft.role = .leader
  case neg =>
    rw [if_pos leader]
    exact iff_of_false (returned_fits _) (by simp [exceeds, leader])
  by_cases member : raft.id ∈ raft.voters
  case neg =>
    rw [if_neg (not_not.mpr leader), if_pos member]
    exact iff_of_false (by simp [overflow]) (by simp [exceeds, member])
  rw [if_neg (not_not.mpr leader), if_neg (not_not.mpr member)]
  by_cases below : entry.index < u64Max
  · rw [succ_fits entry.index below]
    simp only [bind, Except.bind, pure, Except.pure]
    split
    · exact iff_of_false (returned_fits _) (by simp [exceeds, below])
    · exact iff_of_false (returned_fits _) (by simp [exceeds, below])
  · rw [add_u64_overflow entry.index 1 below]
    exact iff_of_true rfl (by simp [exceeds, leader, member, Nat.le_of_not_lt below])

theorem response_overflows_iff (raft : Raft) (received : ReceivedAppendEntriesResponse) :
    handleAppendEntriesResponse raft received = .error overflow ↔ exceeds raft (.appendEntriesResponse received) = true := by
  by_cases leader : raft.role = .leader
  case neg =>
    rw [handleAppendEntriesResponse, if_pos leader]
    exact iff_of_false (returned_fits _) (by simp [exceeds, leader])
  by_cases term : received.response.term ≤ raft.currentTerm
  case neg =>
    rw [handleAppendEntriesResponse, if_neg (not_not.mpr leader), if_pos (Nat.lt_of_not_le term)]
    exact iff_of_false (returned_fits _) (by simp [exceeds, term])
  have outcome := response_outcome raft received leader term
  generalize answer : handleAppendEntriesResponse raft received = handled at outcome
  cases outcome with
  | ahead ahead panic asserts =>
      exact iff_of_false (fun same => asserts (Except.error.inj same)) (by simp [exceeds, Nat.not_le_of_lt ahead])
  | overflow known full panic sum within considered =>
      rw [add_u64_overflow _ 1 (Nat.not_lt_of_le full)] at sum
      have reaches : received.response.success = true ∨ received.response.lastLogIndex = raft.lastLogIndex := by
        cases success : received.response.success with
        | false => exact .inr (considered success)
        | true => exact .inl rfl
      cases sum
      exact iff_of_true rfl (by simp [exceeds, leader, term, within, reaches, known, full])
  | retried rejected behind => exact iff_of_false (returned_fits _) (by simp [exceeds, rejected, behind.ne])
  | stranger _ _ notLearner notVoter => exact iff_of_false (returned_fits _) (by simp [exceeds, notLearner, notVoter])
  | learnerBehind _ _ _ fits | learnerReaches _ fits | voterBehind _ _ _ _ fits | commits _ _ _ _ _ fits | counted _ fits =>
      exact iff_of_false (returned_fits _) (by simp [exceeds, fits])

theorem heartbeat_returns (raft : Raft) (request : HeartbeatRequest) : ∃ outcome, handleHeartbeat raft request = .ok outcome := by
  by_cases stale : request.term < raft.currentTerm
  · rw [handleHeartbeat, if_pos stale]
    exact ⟨_, rfl⟩
  rw [handle_fresh_heartbeat raft request (Nat.le_of_not_lt stale)]
  split
  · exact ⟨_, rfl⟩
  · split
    · exact ⟨_, rfl⟩
    · exact ⟨_, rfl⟩

theorem append_entries_returns (raft : Raft) (received : ReceivedAppendEntries) :
    ∃ outcome, handleAppendEntries raft received = .ok outcome := by
  unfold handleAppendEntries
  dsimp only
  split
  · exact ⟨_, rfl⟩
  · split
    · exact ⟨_, rfl⟩
    · split
      · exact ⟨_, rfl⟩
      · exact ⟨_, rfl⟩

theorem vote_response_returns (raft : Raft) (received : ReceivedVoteResponse) :
    ∃ outcome, handleVoteResponse raft received = .ok outcome := by
  unfold handleVoteResponse
  dsimp only
  split
  · exact ⟨_, rfl⟩
  · split
    · exact ⟨_, rfl⟩
    · split
      · exact ⟨_, rfl⟩
      · split
        · exact ⟨_, rfl⟩
        · exact ⟨_, rfl⟩

theorem heartbeat_response_returns (raft : Raft) (received : ReceivedHeartbeatResponse) :
    ∃ outcome, handleHeartbeatResponse raft received = .ok outcome := by
  unfold handleHeartbeatResponse
  dsimp only
  split
  · exact ⟨_, rfl⟩
  · split
    · exact ⟨_, rfl⟩
    · split
      · exact ⟨_, rfl⟩
      · split
        · exact ⟨_, rfl⟩
        · split
          · exact ⟨_, rfl⟩
          · exact ⟨_, rfl⟩

-- The panic of the overflow check is left to three handlers.
theorem overflows_iff (raft : Raft) (event : Event) : handle raft event = .error overflow ↔ exceeds raft event = true := by
  have returns : ∀ handled : Handled, (∃ outcome, handled = .ok outcome) → (handled = .error overflow ↔ false = true) := by
    rintro _ ⟨outcome, rfl⟩
    exact iff_of_false (returned_fits _) Bool.false_ne_true
  cases event with
  | electionTimeout => exact timeout_overflows_iff raft
  | localEntriesAppended entry => exact local_entry_overflows_iff raft entry
  | appendEntriesResponse received => exact response_overflows_iff raft received
  | requestVote request => exact returns _ ⟨_, rfl⟩
  | heartbeat request => exact returns _ (heartbeat_returns raft request)
  | appendEntries received => exact returns _ (append_entries_returns raft received)
  | voteResponse received => exact returns _ (vote_response_returns raft received)
  | heartbeatResponse received => exact returns _ (heartbeat_response_returns raft received)
  | heartbeatTimeout | entriesPersisted | entriesApplied | write =>
      apply returns
      simp only [handle, handleHeartbeatTimeout, handleEntriesPersisted, handleEntriesApplied, handleWrite]
      split
      · exact ⟨_, rfl⟩
      · exact ⟨_, rfl⟩

theorem newest_step (account next : Account) (event : Event) (newest : ∀ term ∈ account.terms, term ≤ account.raft.currentTerm)
    (moves : step account event = some next) : ∀ term ∈ next.terms, term ≤ next.raft.currentTerm := by
  unfold step at moves
  split at moves
  · cases moves
  · split at moves
    · rename_i after result handled
      cases moves
      have grows := (handled_onward account.raft after event result handled).termGrows
      intro term member
      rcases List.mem_cons.mp member with rfl | earlier
      · exact le_rfl
      · exact (newest term earlier).trans grows
    · cases moves
      exact newest

theorem climbing_step (account next : Account) (event : Event) (newest : ∀ term ∈ account.terms, term ≤ account.raft.currentTerm)
    (climbing : Climbing account) (moves : step account event = some next) :
    Climbing next ↔ exceeds account.raft event = false := by
  rw [← Bool.not_eq_true, ← overflows_iff]
  unfold step at moves
  split at moves
  · cases moves
  · split at moves
    · rename_i after result handled
      cases moves
      have grows := (handled_onward account.raft after event result handled).termGrows
      rw [handled]
      refine iff_of_true ⟨(Option.some_ne_none _).symm, ?_⟩ (returned_fits _)
      exact List.pairwise_cons.mpr ⟨fun term earlier => (newest term earlier).trans grows, climbing.ascends⟩
    · rename_i panic handled
      cases moves
      rw [handled]
      constructor
      · intro here same
        exact here.fits (congrArg some (Except.error.inj same))
      · intro other
        exact ⟨fun same => other (congrArg Except.error (Option.some.inj same)), climbing.ascends⟩

-- In a run nothing overflows and the terms ascend exactly when no step exceeds a u64.
theorem terms_climb_iff (id : NodeId) (voters : List NodeId) (account : Account) :
    Run (machine id voters) (fun account _ => Climbing account) account ∧ Climbing account ↔
      Run (machine id voters) (fun account event => exceeds account.raft event = false) account := by
  apply run_through_iff (machine id voters) _ (fun account => ∀ term ∈ account.terms, term ≤ account.raft.currentTerm) Climbing
  · rintro _ ⟨raft, _, rfl⟩
    exact ⟨by simp, by simp, List.pairwise_singleton _ _⟩
  · intro account event next newest moves
    exact newest_step account next event newest moves
  · intro account event next newest climbing moves
    exact climbing_step account next event newest climbing moves

def fresh : Account := ⟨newRaft nodeA threeNodes 1 ⟨0, none⟩, none, [0]⟩

-- A heartbeat of the last term, and the timeout after it.
def lastTerm : List Event := [.heartbeat ⟨u64Max, nodeB, 0, 0, 0⟩, .electionTimeout]

def afterLastTerm : Account := (exec (machine nodeA threeNodes) fresh lastTerm).getD fresh

theorem timeout_in_last_term : ¬ ∀ (id : NodeId) (voters : List NodeId) (account : Account),
    Reachable (machine id voters) account → Climbing account := by
  intro always
  have climbing := always nodeA threeNodes afterLastTerm (exec_reaches (machine nodeA threeNodes) lastTerm fresh fresh
    (.start _ ⟨_, ⟨1, ⟨0, none⟩, rfl⟩, rfl⟩) (by decide +kernel))
  exact climbing.fits (by decide +kernel)

end RaftLog.Terms
