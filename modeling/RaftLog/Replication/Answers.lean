import RaftLog.Core.Responses
import RaftLog.Replication.Moves

set_option autoImplicit false

namespace RaftLog.Replication

open Lib

-- The two assertions of handle_append_entries_response.
def tooLong : List Panic :=
  [⟨"follower last log index cannot be greater than leader's index"⟩,
    ⟨"follower's last log index cannot be greater than leader's index"⟩]

-- Whatever answer is delivered next, no assertion fails.
def Harmless (cluster : Cluster) : Prop :=
  ∀ target received, .appendEntriesResponse target received ∈ cluster.sent → ∀ panic ∈ tooLong,
    handle (cluster.nodes target).raft (.appendEntriesResponse received) ≠ .error panic

-- A leader has at least the entries that an answer of this term reports.
def fits (raft : Raft) (term lastLogIndex : Nat) : Bool :=
  decide (raft.role ≠ .leader) || decide (term > raft.currentTerm) || decide (lastLogIndex ≤ raft.lastLogIndex)

-- The answers on their way to a node fit it once it leads in a term.
def lateFit (cluster : Cluster) (node : NodeId) (term : Nat) : Bool :=
  cluster.sent.all fun
    | .appendEntriesResponse target received =>
        decide (target ≠ node) || decide (received.response.term > term) ||
          decide (received.response.lastLogIndex ≤ (cluster.nodes node).raft.lastLogIndex)
    | _ => true

-- An append that is accepted in the leadership that sent it, by a follower that cuts its
-- log or has nothing behind the previous index, leaves the follower no more than the
-- leader has. Any other is compared with the leader, as what is late for a node that
-- comes to lead a term.
def fitting (cluster : Cluster) : Action → Bool
  | .deliver (.appendEntries node operationId request entries) =>
      let raft := (cluster.nodes node).raft
      let leader := (cluster.nodes request.leaderId).raft
      let received : ReceivedAppendEntries :=
        ⟨operationId, request, entryTerm (cluster.nodes node).log request.prevLogIndex⟩
      if request.term < raft.currentTerm then fits leader raft.currentTerm raft.lastLogIndex
      else if prefixRejected raft received then
        fits leader request.term raft.lastLogIndex && (decide (raft.role ≠ .leader) || lateFit cluster node request.term)
      else if request.term > raft.currentTerm then
        decide (request.term = leader.currentTerm) || fits leader request.term (request.prevLogIndex + entries.length)
      else decide (request.term = leader.currentTerm ∧ request.prevLogIndex = raft.lastLogIndex) ||
        fits leader request.term (raft.lastLogIndex + entries.length)
  | .deliver (.vote (.voteResponse node received)) =>
      !elects (cluster.nodes node).raft received || lateFit cluster node (cluster.nodes node).raft.currentTerm
  | _ => true

theorem add_u64_error (left right : Nat) (panic : Panic) (overflows : addU64 left right = .error panic) :
    panic ∉ tooLong := by
  unfold addU64 at overflows
  split at overflows
  · cases overflows
  · cases overflows
    decide

theorem answer_too_long (raft : Raft) (received : ReceivedAppendEntriesResponse) (leader : raft.role = .leader)
    (term : received.response.term ≤ raft.currentTerm) (long : raft.lastLogIndex < received.response.lastLogIndex) :
    ∃ panic ∈ tooLong, handle raft (.appendEntriesResponse received) = .error panic := by
  dsimp only [handle, handleAppendEntriesResponse]
  rw [if_neg (not_not.mpr leader), if_neg (Nat.not_lt_of_le term)]
  cases success : received.response.success with
  | false =>
      rw [if_pos ⟨rfl, long⟩]
      exact ⟨_, List.mem_cons_self, rfl⟩
  | true =>
      simp only [Bool.true_eq_false, false_and, if_false]
      rw [if_pos long]
      exact ⟨_, List.mem_cons_of_mem _ List.mem_cons_self, rfl⟩

theorem answer_within (raft : Raft) (received : ReceivedAppendEntriesResponse) (panic : Panic)
    (short : received.response.lastLogIndex ≤ raft.lastLogIndex)
    (unwound : handle raft (.appendEntriesResponse received) = .error panic) : panic ∉ tooLong := by
  by_cases leader : raft.role = .leader
  case neg =>
    rw [handle, handleAppendEntriesResponse, if_pos leader] at unwound
    cases unwound
  by_cases newer : received.response.term > raft.currentTerm
  · rw [handle, handleAppendEntriesResponse, if_neg (not_not.mpr leader), if_pos newer] at unwound
    cases unwound
  have outcome := response_outcome raft received leader (Nat.le_of_not_lt newer)
  rw [handle] at unwound
  rw [unwound] at outcome
  cases outcome with
  | ahead ahead => exact absurd short (Nat.not_le_of_lt ahead)
  | overflow _ _ _ sum => exact add_u64_error _ _ _ sum

theorem harmless_answer (raft : Raft) (received : ReceivedAppendEntriesResponse) :
    (∀ panic ∈ tooLong, handle raft (.appendEntriesResponse received) ≠ .error panic) ↔
      fits raft received.response.term received.response.lastLogIndex = true := by
  constructor
  · intro harmless
    by_contra unfit
    simp only [fits, Bool.or_eq_true, decide_eq_true_eq, not_or, not_not, not_lt, not_le] at unfit
    obtain ⟨panic, listed, unwound⟩ := answer_too_long raft received unfit.1.1 unfit.1.2 unfit.2
    exact harmless panic listed unwound
  · intro fit panic listed unwound
    simp only [fits, Bool.or_eq_true, decide_eq_true_eq] at fit
    rcases fit with (follower | newer) | short
    · dsimp only [handle, handleAppendEntriesResponse] at unwound
      rw [if_pos follower] at unwound
      cases unwound
    · dsimp only [handle, handleAppendEntriesResponse] at unwound
      by_cases follower : raft.role ≠ .leader
      · rw [if_pos follower] at unwound
        cases unwound
      · rw [if_neg follower, if_pos newer] at unwound
        cases unwound
    · exact answer_within raft received panic short unwound listed

-- A request in flight was sent by a node that has since gone to another term, or is no
-- candidate, and has at least its entries while it leads.
def Backed (raft : Raft) (request : AppendEntriesRequest) (entries : List LogEntry) : Prop :=
  request.term < raft.currentTerm ∨ request.term = raft.currentTerm ∧ raft.role ≠ .candidate ∧
    (raft.role = .leader → request.prevLogIndex + entries.length ≤ raft.lastLogIndex)

structure InFlight (cluster : Cluster) : Prop where
  formed : Formed cluster
  peers : ∀ target operationId request entries, .appendEntries target operationId request entries ∈ cluster.sent →
    target ≠ request.leaderId
  requests : ∀ target operationId request entries, .appendEntries target operationId request entries ∈ cluster.sent →
    Backed (cluster.nodes request.leaderId).raft request entries
  answers : ∀ target received, .appendEntriesResponse target received ∈ cluster.sent → received.sender ≠ target

section Moves

variable (cluster : Cluster) (action : Action) (node : NodeId) (final : Node) (packets : List Packet)
  (flight : InFlight cluster) (moves : Moves cluster action node final packets)

include flight moves

theorem backed_moves (request : AppendEntriesRequest) (entries : List LogEntry)
    (backed : Backed (cluster.nodes node).raft request entries) : Backed final.raft request entries := by
  have sized := flight.formed.sized node
  cases moves with
  | ordinary _ _ _ _ _ _ turn =>
      have later := turn.term
      rcases backed with old | ⟨now, stands, leads⟩
      · exact .inl (old.trans_le later)
      rcases Nat.eq_or_lt_of_le later with same | newer
      · refine .inr ⟨now.trans same, fun candidate => ?_, fun leader => ?_⟩
        · rcases turn.stands candidate with before | newer
          · exact stands before
          · omega
        · obtain ⟨before, _, longer⟩ := turn.leads leader
          have bound := leads before
          rw [turn.index]
          omega
      · exact .inl (now.trans_lt newer)
  | elected _ _ _ candidate =>
      rcases backed with old | ⟨_, stands, _⟩
      · exact .inl old
      · exact absurd candidate stands
  | append _ _ delivered _ _ _ _ outcome =>
      cases outcome with
      | stale => exact backed
      | rejected fresh =>
          rcases backed with old | ⟨now, stands, leads⟩
          · exact .inl (old.trans_le fresh)
          · rcases Nat.eq_or_lt_of_le fresh with same | newer
            · exact .inr ⟨now.trans same, stands, leads⟩
            · exact .inl (now.trans_lt newer)
      | accepted fresh =>
          rcases backed with old | ⟨now, _⟩
          · exact .inl (old.trans_le fresh)
          · rcases Nat.eq_or_lt_of_le fresh with same | newer
            · exact .inr ⟨now.trans same, by simp [persistedRaft, acceptedRaft], by simp [persistedRaft, acceptedRaft]⟩
            · exact .inl (now.trans_lt newer)

-- What a turn adds to the packets in flight.
theorem new_request (target : NodeId) (operationId : OperationId) (request : AppendEntriesRequest) (entries : List LogEntry)
    (new : .appendEntries target operationId request entries ∈ packets) :
    request.leaderId = node ∧ target ≠ node ∧ Backed final.raft request entries := by
  have self := flight.formed.self node
  cases moves with
  | ordinary _ _ _ _ _ _ turn =>
      have requested := turn.requests target operationId request entries new
      refine ⟨requested.own.trans self, ?_, .inr ⟨requested.term, by simp [requested.leader], fun _ => ?_⟩⟩
      · rcases requested.peer with other | ⟨received, listed, rfl⟩
        · rwa [self] at other
        · have apart := flight.answers _ received listed
          rwa [self] at apart
      · rw [turn.index]
        exact requested.within
  | elected => simp at new
  | append => simp at new

theorem new_answer (target : NodeId) (received : ReceivedAppendEntriesResponse)
    (new : .appendEntriesResponse target received ∈ packets) : received.sender = node ∧ target ≠ node := by
  cases moves with
  | ordinary _ _ _ _ _ _ turn => exact absurd new (turn.answers target received)
  | elected => simp at new
  | append _ operationId request entries _ _ sent _ =>
      rw [List.mem_singleton] at new
      cases new
      exact ⟨flight.formed.self node, (flight.peers _ _ _ _ sent).symm⟩

theorem in_flight_moves : InFlight (cluster.become node final packets) where
  formed := formed_moves cluster action node final packets flight.formed moves
  peers := by
    intro target operationId request entries listed
    rcases List.mem_append.mp listed with old | new
    · exact flight.peers target operationId request entries old
    · obtain ⟨own, other, _⟩ := new_request cluster action node final packets flight moves target operationId request entries new
      rwa [own]
  requests := by
    intro target operationId request entries listed
    rcases List.mem_append.mp listed with old | new
    · have backed := flight.requests target operationId request entries old
      by_cases same : request.leaderId = node
      · rw [same] at backed ⊢
        rw [become_self]
        exact backed_moves cluster action node final packets flight moves request entries backed
      · rwa [become_other cluster node request.leaderId final packets same]
    · obtain ⟨own, _, backed⟩ := new_request cluster action node final packets flight moves target operationId request entries new
      rwa [own, become_self]
  answers := by
    intro target received listed
    rcases List.mem_append.mp listed with old | new
    · exact flight.answers target received old
    · obtain ⟨own, other⟩ := new_answer cluster action node final packets flight moves target received new
      rw [own]
      exact other.symm

end Moves

theorem harmless_fits (cluster : Cluster) : Harmless cluster ↔ ∀ target received,
    .appendEntriesResponse target received ∈ cluster.sent →
      fits (cluster.nodes target).raft received.response.term received.response.lastLogIndex = true := by
  apply forall_congr'
  intro target
  apply forall_congr'
  intro received
  rw [harmless_answer]

theorem late_fit_iff (cluster : Cluster) (node : NodeId) (raft : Raft) (leader : raft.role = .leader)
    (last : raft.lastLogIndex = (cluster.nodes node).raft.lastLogIndex) :
    lateFit cluster node raft.currentTerm = true ↔ ∀ received, .appendEntriesResponse node received ∈ cluster.sent →
      fits raft received.response.term received.response.lastLogIndex = true := by
  simp only [lateFit, List.all_eq_true, fits, leader, last, ne_eq, not_true_eq_false, decide_false, Bool.false_or]
  constructor
  · intro all received listed
    simpa using all _ listed
  · intro all packet listed
    cases packet with
    | appendEntriesResponse target received =>
        by_cases same : target = node
        · subst same
          simpa using all received listed
        · simp [same]
    | vote | heartbeat | heartbeatResponse | appendEntries => rfl

section Step

variable (cluster : Cluster) (action : Action) (node : NodeId) (final : Node) (packets : List Packet)

-- The answers on their way to a node, the others and the new ones.
theorem harmless_become (before : Harmless cluster) :
    Harmless (cluster.become node final packets) ↔
      (∀ received, .appendEntriesResponse node received ∈ cluster.sent →
        fits final.raft received.response.term received.response.lastLogIndex = true) ∧
      ∀ target received, .appendEntriesResponse target received ∈ packets →
        fits ((cluster.become node final packets).nodes target).raft received.response.term received.response.lastLogIndex =
          true := by
  rw [harmless_fits]
  constructor
  · intro after
    refine ⟨fun received listed => ?_, fun target received listed => after target received (List.mem_append_right _ listed)⟩
    have fit := after node received (List.mem_append_left _ listed)
    rwa [become_self] at fit
  · rintro ⟨own, new⟩ target received listed
    rcases List.mem_append.mp listed with old | fresh
    · by_cases same : target = node
      · subst same
        rw [become_self]
        exact own received old
      · rw [become_other cluster node target final packets same]
        exact (harmless_fits cluster).mp before target received old
    · exact new target received fresh

-- How long the log of an accepting follower gets.
theorem accepted_length (raft : Raft) (log : List LogEntry) (received : ReceivedAppendEntries) (entries : List LogEntry)
    (sized : raft.lastLogIndex = log.length) (matching : prefixRejected raft received = false) :
    (truncate log (truncation raft received.request) ++ entries).length =
      if received.request.term > raft.currentTerm then received.request.prevLogIndex + entries.length
      else raft.lastLogIndex + entries.length := by
  have reaches := (prefix_accepted raft received matching).1
  rw [List.length_append, truncation]
  by_cases newer : received.request.term > raft.currentTerm
  · rw [if_pos newer]
    split
    · rw [truncate, List.length_take]
      omega
    · rw [truncate]
      omega
  · rw [if_neg newer, if_neg (fun cuts => newer cuts.1), truncate, sized]

theorem append_fitting (flight : InFlight cluster) (before : Harmless cluster) (operationId : OperationId)
    (request : AppendEntriesRequest) (entries : List LogEntry) (response : AppendEntriesResponse)
    (sent : .appendEntries node operationId request entries ∈ cluster.sent)
    (outcome : AppendOutcome (cluster.nodes node)
      ⟨operationId, request, entryTerm (cluster.nodes node).log request.prevLogIndex⟩ entries final response) :
    Harmless (cluster.become node final
        [.appendEntriesResponse request.leaderId ⟨operationId, (cluster.nodes node).raft.id, response⟩]) ↔
      fitting cluster (.deliver (.appendEntries node operationId request entries)) = true := by
  have apart := flight.peers node operationId request entries sent
  have backed := flight.requests node operationId request entries sent
  have sized := flight.formed.sized node
  have earlier := (harmless_fits cluster).mp before
  rw [harmless_become cluster node final _ before]
  simp only [List.mem_singleton, Packet.appendEntriesResponse.injEq, and_imp, forall_eq_apply_imp_iff, forall_eq]
  rw [become_other cluster node request.leaderId final _ apart.symm]
  cases outcome with
  | stale less =>
      simp only [fitting, if_pos less]
      rw [and_iff_right fun received listed => earlier node received listed]
      rfl
  | rejected fresh mismatch =>
      simp only [fitting, if_neg (Nat.not_lt_of_le fresh), mismatch, if_true, Bool.and_eq_true, Bool.or_eq_true,
        decide_eq_true_eq]
      rw [and_comm]
      apply and_congr Iff.rfl
      by_cases leader : (cluster.nodes node).raft.role = .leader
      · rw [or_iff_right (not_not.mpr leader)]
        exact (late_fit_iff cluster node (rejectedRaft (cluster.nodes node).raft request) leader rfl).symm
      · apply iff_of_true
        · intro received _
          simp [fits, rejectedRaft, leader]
        · exact .inl leader
  | accepted fresh matching log appended =>
      have length := accepted_length _ _ _ entries sized matching
      rw [← appended] at length
      have own : ∀ received, .appendEntriesResponse node received ∈ cluster.sent →
          fits (persistedRaft (acceptedRaft (cluster.nodes node).raft request) log request.commitIndex)
            received.response.term received.response.lastLogIndex = true := by
        intro received _
        simp [fits, persistedRaft, acceptedRaft]
      rw [and_iff_right own]
      dsimp only at length matching
      simp only [fitting, if_neg (Nat.not_lt_of_le fresh), matching, Bool.false_eq_true, if_false]
      -- what the follower got in the leadership that sent the request, the leader still has
      have shared : request.term = (cluster.nodes request.leaderId).raft.currentTerm →
          log.length = request.prevLogIndex + entries.length →
          fits (cluster.nodes request.leaderId).raft request.term log.length = true := by
        intro now whole
        rcases backed with old | ⟨_, _, leads⟩
        · omega
        · by_cases leader : (cluster.nodes request.leaderId).raft.role = .leader
          · have bound := leads leader
            simp only [fits, Bool.or_eq_true, decide_eq_true_eq]
            right
            omega
          · simp [fits, leader]
      by_cases newer : request.term > (cluster.nodes node).raft.currentTerm
      · rw [if_pos newer] at length
        rw [if_pos newer, ← length, Bool.or_eq_true, decide_eq_true_eq]
        exact ⟨.inr, fun either => either.elim (fun now => shared now length) id⟩
      · rw [if_neg newer] at length
        rw [if_neg newer, ← length, Bool.or_eq_true, decide_eq_true_eq]
        refine ⟨.inr, fun either => either.elim (fun now => shared now.1 ?_) id⟩
        rw [length, now.2]

theorem fitting_step (flight : InFlight cluster) (before : Harmless cluster)
    (moves : Moves cluster action node final packets) :
    Harmless (cluster.become node final packets) ↔ fitting cluster action = true := by
  have earlier := (harmless_fits cluster).mp before
  cases moves with
  | ordinary _ _ _ _ elects appends turn =>
      have free : fitting cluster action = true := by
        unfold fitting
        split
        · exact absurd rfl (appends _ _ _ _)
        · rw [elects _ _ rfl]
          rfl
        · rfl
      apply iff_of_true _ free
      rw [harmless_become cluster node final packets before]
      refine ⟨fun received listed => ?_, fun target received new => absurd new (turn.answers target received)⟩
      by_cases leader : final.raft.role = .leader
      · obtain ⟨led, term, longer⟩ := turn.leads leader
        have fit := earlier node received listed
        have sized := flight.formed.sized node
        simp only [fits, leader, led, term, turn.index, ne_eq, not_true_eq_false, decide_false, Bool.false_or, Bool.or_eq_true,
          decide_eq_true_eq] at fit ⊢
        omega
      · simp [fits, leader]
  | elected _ received wins =>
      rw [harmless_become cluster node _ _ before, and_iff_left (by simp), fitting, wins]
      exact (late_fit_iff cluster node (electedRaft (cluster.nodes node).raft received) rfl rfl).symm
  | append _ operationId request entries _ response sent outcome =>
      exact append_fitting cluster node final flight before operationId request entries response sent outcome

end Step

theorem in_flight_start (voters : List NodeId) (cluster : Cluster) (start : Start voters cluster) : InFlight cluster where
  formed := formed_start voters cluster start
  peers := by simp [start.sent]
  requests := by simp [start.sent]
  answers := by simp [start.sent]

theorem harmless_start (voters : List NodeId) (cluster : Cluster) (start : Start voters cluster) : Harmless cluster := by
  simp [Harmless, start.sent]

theorem in_flight_run (voters : List NodeId) (allowed : Cluster → Action → Prop) (cluster : Cluster)
    (run : Run (machine voters) allowed cluster) : InFlight cluster := by
  apply run_invariant (machine voters) allowed InFlight (in_flight_start voters) ?_ cluster run
  intro cluster action after _ flight _ moves
  obtain ⟨node, final, packets, moved, rfl⟩ :=
    step_moves voters cluster after action flight.formed.sized flight.formed.self moves
  exact in_flight_moves cluster action node final packets flight moved

theorem harmless_step (voters : List NodeId) (cluster after : Cluster) (action : Action) (flight : InFlight cluster)
    (before : Harmless cluster) (moves : step voters cluster action = some after) :
    Harmless after ↔ fitting cluster action = true := by
  obtain ⟨node, final, packets, moved, rfl⟩ :=
    step_moves voters cluster after action flight.formed.sized flight.formed.self moves
  exact fitting_step cluster action node final packets flight before moved

-- A run goes through harmless states only, its last one included, exactly when all of
-- its steps are fitting.
theorem harmless_run_iff (voters : List NodeId) (cluster : Cluster) :
    Run (machine voters) (fun cluster _ => Harmless cluster) cluster ∧ Harmless cluster ↔
      Run (machine voters) (fun cluster action => fitting cluster action = true) cluster := by
  apply run_through_iff (machine voters) _ (Reachable (machine voters)) Harmless
  · intro cluster starts
    exact ⟨.start cluster starts, harmless_start voters cluster starts⟩
  · intro cluster action after reached moves
    exact .step cluster after action reached trivial moves
  · intro cluster action after reached harmless moves
    exact harmless_step voters cluster after action (in_flight_run voters _ cluster reached) harmless moves

def duplicate : Action := .deliver (.appendEntries nodeB firstOperation ⟨1, nodeA, 0, 0, 0⟩ [⟨1, [1]⟩])

def secondAnswer : ReceivedAppendEntriesResponse := ⟨firstOperation, nodeB, ⟨1, true, 2, 1, some nodeA⟩⟩

-- The follower that takes the first append twice reports a second entry.
theorem duplicate_unwinds :
    ¬ ∀ cluster, Reachable (machine threeNodes) cluster → Harmless cluster := by
  intro always
  have harmless := always (clusterAfter (firstWrite ++ [duplicate]))
    (cluster_after_reachable (firstWrite ++ [duplicate]) (by decide +kernel))
  have fit := (harmless_fits _).mp harmless nodeA secondAnswer (by decide +kernel)
  exact absurd fit (by decide +kernel)

end RaftLog.Replication
