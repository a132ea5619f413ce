import RaftLog.Core.New
import RaftLog.Core.Steps

set_option autoImplicit false

namespace RaftLog

-- The request is completed with the term the local log has at its previous index.
structure Informed (raft : Raft) (received : ReceivedAppendEntries) (terms : Nat → Nat) : Prop where
  start : terms 0 = 0
  last : raft.lastLogTerm = terms raft.lastLogIndex
  previous : received.request.prevLogIndex ≠ 0 → received.request.prevLogIndex ≤ raft.lastLogIndex →
    received.localPrevLogTerm = some (terms received.request.prevLogIndex)
  request : received.request.prevLogIndex = 0 → received.request.prevLogTerm = 0

-- Where an accepted batch lands, and what the sender is told about it.
def Placed (raft : Raft) (request : AppendEntriesRequest) (response : AppendEntriesResponse) (truncateAfter : Option Nat) : Prop :=
  truncateAfter.getD raft.lastLogIndex = request.prevLogIndex ∧
    response.lastLogIndex = request.prevLogIndex ∧ response.lastLogTerm = request.prevLogTerm

theorem persist_reports (raft next : Raft) (received : ReceivedAppendEntries) (operationId : OperationId) (peer : NodeId)
    (response : AppendEntriesResponse) (truncateAfter : Option Nat) (commit : Nat)
    (accepted : handleAppendEntries raft received =
      .ok (next, .ok (some (.persistEntries operationId peer response truncateAfter commit)))) :
    prefixRejected raft received = false ∧ raft.currentTerm ≤ received.request.term ∧
      truncateAfter = truncation raft received.request ∧
      (response.lastLogIndex, response.lastLogTerm) =
        if received.request.term > raft.currentTerm ∧ received.request.prevLogIndex < raft.lastLogIndex then
          (received.request.prevLogIndex, received.request.prevLogTerm)
        else (raft.lastLogIndex, raft.lastLogTerm) := by
  unfold handleAppendEntries at accepted
  dsimp only at accepted
  by_cases stale : received.request.term < raft.currentTerm
  · rw [if_pos stale] at accepted
    cases accepted
  rw [if_neg stale] at accepted
  by_cases rejected : prefixRejected raft received = true
  · rw [if_pos rejected] at accepted
    cases accepted
  rw [if_neg rejected] at accepted
  refine ⟨Bool.eq_false_iff.mpr rejected, Nat.le_of_not_lt stale, ?_⟩
  unfold truncation
  split at accepted
  · rename_i cut
    cases accepted
    rw [if_pos cut, if_pos cut]
    exact ⟨rfl, rfl⟩
  · rename_i whole
    rw [if_neg whole, if_neg whole]
    by_cases newer : received.request.term > raft.currentTerm
    · rw [if_pos newer] at accepted
      cases accepted
      exact ⟨rfl, rfl⟩
    · rw [if_neg newer] at accepted
      cases accepted
      exact ⟨rfl, rfl⟩

theorem last_entry_matches (raft : Raft) (received : ReceivedAppendEntries) (terms : Nat → Nat)
    (informed : Informed raft received terms) (matching : prefixRejected raft received = false)
    (here : received.request.prevLogIndex = raft.lastLogIndex) : raft.lastLogTerm = received.request.prevLogTerm := by
  rw [informed.last, ← here]
  by_cases first : received.request.prevLogIndex = 0
  · rw [informed.request first, first, informed.start]
  · have previous := informed.previous first here.le
    simp only [prefixRejected, previousEntryMatches, previous, Bool.or_eq_false_iff, Bool.not_eq_false', Bool.or_eq_true,
      beq_iff_eq, first, false_or, Option.some.injEq] at matching
    exact matching.2

theorem placed_iff (raft next : Raft) (received : ReceivedAppendEntries) (terms : Nat → Nat)
    (informed : Informed raft received terms) (operationId : OperationId) (peer : NodeId) (response : AppendEntriesResponse)
    (truncateAfter : Option Nat) (commit : Nat)
    (accepted : handleAppendEntries raft received =
      .ok (next, .ok (some (.persistEntries operationId peer response truncateAfter commit)))) :
    Placed raft received.request response truncateAfter ↔
      received.request.prevLogIndex = raft.lastLogIndex ∨ raft.currentTerm < received.request.term := by
  obtain ⟨matching, fresh, truncated, reported⟩ :=
    persist_reports raft next received operationId peer response truncateAfter commit accepted
  have within : received.request.prevLogIndex ≤ raft.lastLogIndex := by
    simp only [prefixRejected, Bool.or_eq_false_iff, decide_eq_false_iff_not] at matching
    exact Nat.le_of_not_lt matching.1
  rw [truncation] at truncated
  by_cases cut : received.request.term > raft.currentTerm ∧ received.request.prevLogIndex < raft.lastLogIndex
  · rw [if_pos cut] at truncated reported
    obtain ⟨index, term⟩ := Prod.mk.inj reported
    rw [truncated]
    exact iff_of_true ⟨rfl, index, term⟩ (.inr cut.1)
  rw [if_neg cut] at truncated reported
  obtain ⟨index, term⟩ := Prod.mk.inj reported
  rw [truncated]
  constructor
  · intro placed
    exact .inl placed.1.symm
  · intro either
    have here : received.request.prevLogIndex = raft.lastLogIndex := by
      rcases either with here | newer
      · exact here
      · exact Nat.le_antisymm within (Nat.le_of_not_lt fun behind => cut ⟨newer, behind⟩)
    exact ⟨here.symm, index.trans here.symm, term.trans (last_entry_matches raft received terms informed matching here)⟩

-- A follower in term 5 whose log ends at index 8, in term 3.
def followerAtEight (term : Nat) : Raft :=
  { newRaft nodeA threeNodes 9 ⟨term, none⟩ with leaderId := some nodeB, lastLogIndex := 8, lastLogTerm := 3 }

def atFive : ReceivedAppendEntries := ⟨⟨6⟩, ⟨5, nodeB, 5, 2, 4⟩, some 2⟩

def termsAtEight (index : Nat) : Nat := if index = 0 then 0 else if index ≤ 5 then 2 else 3

theorem at_five_informed (term : Nat) : Informed (followerAtEight term) atFive termsAtEight :=
  ⟨rfl, rfl, fun _ _ => rfl, fun first => by cases first⟩

theorem placed_in_newer_term :
    Placed (followerAtEight 4) atFive.request ⟨5, true, 5, 2, some nodeB⟩ (some 5) ↔
      atFive.request.prevLogIndex = (followerAtEight 4).lastLogIndex ∨ (followerAtEight 4).currentTerm < atFive.request.term :=
  placed_iff (followerAtEight 4) _ atFive termsAtEight (at_five_informed 4) ⟨6⟩ nodeB _ _ 4 rfl

-- A heartbeat of the same leader has raised the term before its append arrives.
theorem misplaced_after_heartbeat :
    ¬ ∀ (raft next : Raft) (received : ReceivedAppendEntries) (terms : Nat → Nat), Informed raft received terms →
      ∀ (operationId : OperationId) (peer : NodeId) (response : AppendEntriesResponse) (truncateAfter : Option Nat)
        (commit : Nat), handleAppendEntries raft received =
          .ok (next, .ok (some (.persistEntries operationId peer response truncateAfter commit))) →
        Placed raft received.request response truncateAfter := by
  intro always
  have placed := always (followerAtEight 5) _ atFive termsAtEight (at_five_informed 5) ⟨6⟩ nodeB _ _ 4 rfl
  cases placed.1

end RaftLog
