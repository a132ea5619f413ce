import RaftLog.Core.Responses

set_option autoImplicit false

namespace RaftLog

-- The terms of a log's entries, as far as its end is known to the node.
structure Ends (raft : Raft) (terms : Nat → Nat) : Prop where
  start : terms 0 = 0
  last : raft.lastLogTerm = terms raft.lastLogIndex

-- What an append is answered with, at once or when its entries are persisted.
def Effect.answer : Effect → Option AppendEntriesResponse
  | .rejectAppendEntries _ _ response | .persistEntries _ _ response _ _ => some response
  | _ => none

-- A node with this log can send the response.
def Sends (terms : Nat → Nat) (response : AppendEntriesResponse) : Prop :=
  ∃ (follower next : Raft) (received : ReceivedAppendEntries) (effect : Effect), Informed follower received terms ∧
    handle follower (.appendEntries received) = .ok (next, .ok (some effect)) ∧ effect.answer = some response

-- The response describes an entry of this log.
def Reports (terms : Nat → Nat) (response : AppendEntriesResponse) : Prop :=
  response.lastLogTerm = terms response.lastLogIndex

theorem matching_previous (raft : Raft) (received : ReceivedAppendEntries) (terms : Nat → Nat)
    (informed : Informed raft received terms) (matching : prefixRejected raft received = false) :
    received.request.prevLogTerm = terms received.request.prevLogIndex := by
  by_cases first : received.request.prevLogIndex = 0
  · rw [informed.request first, first, informed.start]
  · simp only [prefixRejected, previousEntryMatches, Bool.or_eq_false_iff, decide_eq_false_iff_not, Nat.not_lt,
      Bool.not_eq_false', Bool.or_eq_true, beq_iff_eq, first, false_or] at matching
    have previous := informed.previous first matching.1
    rw [matching.2] at previous
    exact Option.some.inj previous

theorem sends_reports (terms : Nat → Nat) (response : AppendEntriesResponse) (sends : Sends terms response) :
    Reports terms response := by
  obtain ⟨follower, next, received, effect, informed, handled, answer⟩ := sends
  generalize resulted : (Except.ok (some effect) : Except Error (Option Effect)) = result at handled
  cases append_entries_step follower next received result handled with
  | stale | rejected =>
      cases resulted
      cases answer
      exact informed.last
  | accepted fresh matching persisted =>
      cases resulted
      cases answer
      obtain ⟨_, _, _, reported⟩ := persist_reports follower _ received _ _ _ _ _ handled
      split at reported
      · obtain ⟨index, term⟩ := Prod.mk.inj reported
        rw [Reports, index, term]
        exact matching_previous follower received terms informed matching
      · obtain ⟨index, term⟩ := Prod.mk.inj reported
        rw [Reports, index, term]
        exact informed.last

-- The follower is sent the leader's own entry to compare with.
def Anchored (raft : Raft) (terms : Nat → Nat) (result : Except Error (Option Effect)) : Prop :=
  ∀ operationId targets, result = .ok (some (.sendAppendEntries operationId targets)) → ∀ target ∈ targets,
    target.lastLogIndex ≤ raft.lastLogIndex ∧ target.lastLogTerm = terms target.lastLogIndex

def retried (raft : Raft) (received : ReceivedAppendEntriesResponse) : Bool :=
  decide (received.response.lastLogIndex < raft.lastLogIndex) &&
    (!received.response.success || decide (received.sender ∈ raft.learners) || decide (received.sender ∈ raft.voters))

theorem silent_anchored (raft : Raft) (terms : Nat → Nat) (result : Except Error (Option Effect))
    (silent : ∀ operationId targets, result ≠ .ok (some (.sendAppendEntries operationId targets))) :
    Anchored raft terms result :=
  fun operationId targets same => absurd same (silent operationId targets)

theorem retry_anchored_iff (raft : Raft) (terms : Nat → Nat) (received : ReceivedAppendEntriesResponse)
    (behind : received.response.lastLogIndex < raft.lastLogIndex) :
    Anchored raft terms (.ok (some (raft.retry received))) ↔ Reports terms received.response := by
  constructor
  · intro anchored
    exact (anchored _ _ rfl _ (List.mem_singleton.mpr rfl)).2
  · intro own operationId targets same target member
    cases same
    rw [List.mem_singleton.mp member]
    exact ⟨behind.le, own⟩

theorem retry_iff (raft next : Raft) (received : ReceivedAppendEntriesResponse) (result : Except Error (Option Effect))
    (leader : raft.role = .leader) (term : received.response.term ≤ raft.currentTerm)
    (handled : handleAppendEntriesResponse raft received = .ok (next, result)) :
    retried raft received = true ∧ result = .ok (some (raft.retry received)) ∨
      retried raft received = false ∧ ∀ operationId targets, result ≠ .ok (some (.sendAppendEntries operationId targets)) := by
  have outcome := response_outcome raft received leader term
  rw [handled] at outcome
  cases outcome with
  | retried rejected behind => exact .inl ⟨by simp [retried, rejected, behind], rfl⟩
  | learnerBehind behind _ learner => exact .inl ⟨by simp [retried, behind, learner], rfl⟩
  | voterBehind behind _ _ voter => exact .inl ⟨by simp [retried, behind, voter], rfl⟩
  | stranger _ considered notLearner notVoter =>
      refine .inr ⟨?_, by simp⟩
      simp only [retried, notLearner, notVoter, decide_false, Bool.or_false, Bool.and_eq_false_imp, decide_eq_true_eq,
        Bool.not_eq_false']
      intro behind
      by_contra rejected
      exact behind.ne (considered (Bool.eq_false_iff.mpr rejected))
  | learnerReaches same | commits same | counted same => exact .inr ⟨by simp [retried, same], by simp⟩

theorem anchored_iff (raft next : Raft) (terms followerTerms : Nat → Nat) (received : ReceivedAppendEntriesResponse)
    (result : Except Error (Option Effect)) (leader : raft.role = .leader)
    (current : received.response.term = raft.currentTerm) (reports : Reports followerTerms received.response)
    (handled : handle raft (.appendEntriesResponse received) = .ok (next, result)) :
    Anchored raft terms result ↔
      (retried raft received = true →
        followerTerms received.response.lastLogIndex = terms received.response.lastLogIndex) := by
  rcases retry_iff raft next received result leader current.le handled with ⟨again, rfl⟩ | ⟨silent, quiet⟩
  · have behind := of_decide_eq_true (Bool.and_eq_true_iff.mp again).1
    rw [retry_anchored_iff raft terms received behind, Reports, reports]
    exact ⟨fun same _ => same, fun same => same again⟩
  · apply iff_of_true (silent_anchored raft terms result quiet)
    rw [silent]
    exact fun again => Bool.noConfusion again

-- The leader of term 3 has entries of the terms 1, 3 and 3.
def leaderAtThree : Raft :=
  { newRaft nodeA threeNodes 1 ⟨3, some nodeA⟩ with role := .leader, lastLogIndex := 3, lastLogTerm := 3 }

def leaderTerms (index : Nat) : Nat := if index = 0 then 0 else if index = 1 then 1 else 3

-- One follower has the first of them, another one has an entry of term 2 behind it.
def followerAt (last term : Nat) : Raft := { newRaft nodeB threeNodes 1 ⟨3, none⟩ with lastLogIndex := last, lastLogTerm := term }

def followerTerms (index : Nat) : Nat := index

def atThree : ReceivedAppendEntries := ⟨⟨1⟩, ⟨3, nodeA, 3, 3, 0⟩, none⟩

theorem follower_sends (last : Nat) (short : last < 3) : Sends followerTerms ⟨3, false, last, last, some nodeA⟩ := by
  have informed : Informed (followerAt last last) atThree followerTerms :=
    ⟨rfl, rfl, fun _ within => absurd within (Nat.not_le_of_lt short), by decide⟩
  have rejected : prefixRejected (followerAt last last) atThree = true := by simp [prefixRejected, followerAt, atThree, short]
  have handled : handle (followerAt last last) (.appendEntries atThree) =
      .ok (rejectedRaft (followerAt last last) atThree.request,
        .ok (some (.rejectAppendEntries ⟨1⟩ nodeA ⟨3, false, last, last, some nodeA⟩))) := by
    rw [handle, handleAppendEntries]
    exact if_pos rejected
  exact ⟨_, _, _, _, informed, handled, rfl⟩

theorem shorter_follower_anchored :
    Anchored leaderAtThree leaderTerms (.ok (some (leaderAtThree.retry (answerOf false 3 1 1)))) :=
  (anchored_iff leaderAtThree leaderAtThree leaderTerms followerTerms (answerOf false 3 1 1) _ rfl rfl
    (sends_reports _ _ (follower_sends 1 (by decide))) rfl).mpr fun _ => rfl

-- The other follower is asked about its own entry.
theorem retry_with_follower_term :
    ¬ ∀ (raft next : Raft) (terms : Nat → Nat) (received : ReceivedAppendEntriesResponse) (result : Except Error (Option Effect)),
      raft.role = .leader → Ends raft terms → received.response.term = raft.currentTerm →
        (∃ followerTerms, Sends followerTerms received.response) →
        handle raft (.appendEntriesResponse received) = .ok (next, result) → Anchored raft terms result := by
  intro always
  have anchored := always leaderAtThree leaderAtThree leaderTerms (answerOf false 3 2 2) _ rfl ⟨rfl, rfl⟩ rfl
    ⟨followerTerms, follower_sends 2 (by decide)⟩ rfl
  have same := (anchored _ _ rfl _ (List.mem_singleton.mpr rfl)).2
  cases same

end RaftLog
