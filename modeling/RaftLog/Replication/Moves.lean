import RaftLog.Replication.Safety

set_option autoImplicit false

namespace RaftLog.Replication

open Lib

-- A request as a leader sends it: the rest of its log from some place on, to a peer. A
-- retry goes to the sender of the answer that it follows.
structure Requested (sent : List Packet) (node final : Node) (target : NodeId) (request : AppendEntriesRequest)
    (entries : List LogEntry) : Prop where
  peer : target ≠ node.raft.id ∨ ∃ received, .appendEntriesResponse node.raft.id received ∈ sent ∧ received.sender = target
  leader : final.raft.role = .leader
  own : request.leaderId = node.raft.id
  term : request.term = final.raft.currentTerm
  within : request.prevLogIndex + entries.length ≤ final.log.length

-- What a turn does to its node, whatever the event, unless it elects the node or is
-- an append: a leader keeps its term and its log, a candidate is no candidate of a term
-- that it led.
structure Ordinary (sent : List Packet) (node final : Node) (packets : List Packet) : Prop where
  id : final.raft.id = node.raft.id
  index : final.raft.lastLogIndex = final.log.length
  commit : node.raft.commitIndex ≤ node.log.length → final.raft.commitIndex ≤ final.log.length
  term : node.raft.currentTerm ≤ final.raft.currentTerm
  leads : final.raft.role = .leader → node.raft.role = .leader ∧ final.raft.currentTerm = node.raft.currentTerm ∧
    node.log.length ≤ final.log.length
  stands : final.raft.role = .candidate → node.raft.role = .candidate ∨ node.raft.currentTerm < final.raft.currentTerm
  answers : ∀ target received, .appendEntriesResponse target received ∉ packets
  requests : ∀ target operationId request entries, .appendEntries target operationId request entries ∈ packets →
    Requested sent node final target request entries

def Packet.appends : Packet → Bool
  | .appendEntries .. | .appendEntriesResponse .. => true
  | _ => false

section Ordinary

variable (sent : List Packet) (node final : Node) (packets : List Packet)
  (sized : node.raft.lastLogIndex = node.log.length)

-- A turn that leaves the log alone and sends no append.
theorem ordinary_frame (id : final.raft.id = node.raft.id) (log : final.log = node.log)
    (index : final.raft.lastLogIndex = node.log.length)
    (commit : node.raft.commitIndex ≤ node.log.length → final.raft.commitIndex ≤ node.log.length)
    (term : node.raft.currentTerm ≤ final.raft.currentTerm)
    (leads : final.raft.role = .leader → node.raft.role = .leader ∧ final.raft.currentTerm = node.raft.currentTerm)
    (stands : final.raft.role = .candidate → node.raft.role = .candidate ∨ node.raft.currentTerm < final.raft.currentTerm)
    (silent : ∀ packet ∈ packets, packet.appends = false) : Ordinary sent node final packets where
  id := id
  index := by rw [index, log]
  commit := by rw [log]; exact commit
  term := term
  leads := fun leader => ⟨(leads leader).1, (leads leader).2, (congrArg List.length log).ge⟩
  stands := stands
  answers := fun target received listed => by cases silent _ listed
  requests := fun target operationId request entries listed => by cases silent _ listed

-- The same with the role and the term as they were.
theorem ordinary_still (id : final.raft.id = node.raft.id) (log : final.log = node.log)
    (index : final.raft.lastLogIndex = node.log.length)
    (commit : node.raft.commitIndex ≤ node.log.length → final.raft.commitIndex ≤ node.log.length)
    (role : final.raft.role = node.raft.role) (term : final.raft.currentTerm = node.raft.currentTerm)
    (silent : ∀ packet ∈ packets, packet.appends = false) : Ordinary sent node final packets :=
  ordinary_frame sent node final packets id log index commit term.ge (fun leader => ⟨role ▸ leader, term⟩)
    (fun candidate => .inl (role ▸ candidate)) silent

-- A node that goes to a term as a follower.
theorem ordinary_follower (id : final.raft.id = node.raft.id) (log : final.log = node.log)
    (index : final.raft.lastLogIndex = node.log.length)
    (commit : node.raft.commitIndex ≤ node.log.length → final.raft.commitIndex ≤ node.log.length)
    (role : final.raft.role = .follower) (term : node.raft.currentTerm ≤ final.raft.currentTerm)
    (silent : ∀ packet ∈ packets, packet.appends = false) : Ordinary sent node final packets :=
  ordinary_frame sent node final packets id log index commit term (fun leader => by rw [role] at leader; cases leader)
    (fun candidate => by rw [role] at candidate; cases candidate) silent

include sized

theorem timeout_ordinary (operation : Operation) (drives : Drives operation node .electionTimeout final packets) :
    Ordinary sent node final packets := by
  obtain ⟨rfl, rfl⟩ := timeout_driven operation node final packets drives
  apply ordinary_frame
  case id | log => rfl
  case index => exact sized
  case commit => exact id
  case term => exact Nat.le_succ _
  case leads => simp [campaignRaft]
  case stands => exact fun _ => .inr (Nat.lt_succ_self _)
  case silent => simp [Packet.appends]

theorem heartbeat_timeout_ordinary (operation : Operation) (drives : Drives operation node .heartbeatTimeout final packets) :
    Ordinary sent node final packets := by
  obtain ⟨rfl, sends⟩ := heartbeat_timeout_driven operation node final packets drives
  apply ordinary_still sent final final packets rfl rfl sized id rfl rfl
  rcases sends with rfl | ⟨_, rfl⟩
  · simp
  · simp [Packet.appends]

theorem applied_ordinary (operation : Operation) (entries : AppliedEntries)
    (drives : Drives operation node (.entriesApplied entries) final packets) : Ordinary sent node final packets := by
  obtain ⟨rfl, rfl⟩ := applied_driven operation node final packets entries drives
  exact ordinary_still sent node _ [] rfl rfl sized id rfl rfl (by simp)

theorem vote_request_ordinary (operation : Operation) (request : VoteRequest)
    (drives : Drives operation node (.requestVote request) final packets) : Ordinary sent node final packets := by
  obtain ⟨raft, result, handled⟩ := drives_handled _ _ _ _ _ drives
  obtain ⟨hardState, granted, step, rfl⟩ := request_vote_step node.raft raft request result handled
  obtain ⟨rfl, rfl⟩ := drives_ended _ node final _ _ packets _ _ _ handled rfl drives
  have later := step.term.ge.trans' (Nat.le_max_left _ _)
  have index : raft.lastLogIndex = node.log.length := by rw [step.frame]; exact sized
  have commit : raft.commitIndex = node.raft.commitIndex := by rw [step.frame]
  have id : raft.id = node.raft.id := by rw [step.frame]
  rcases Nat.eq_or_lt_of_le later with same | newer
  · exact ordinary_still sent node _ _ id rfl index (fun bound => commit.trans_le bound) (step.kept same.symm).1 same.symm
      (by simp [Packet.appends])
  · exact ordinary_follower sent node _ _ id rfl index (fun bound => commit.trans_le bound) (step.newer newer) later
      (by simp [Packet.appends])

theorem heartbeat_ordinary (operation : Operation) (request : HeartbeatRequest)
    (drives : Drives operation node (.heartbeat request) final packets) : Ordinary sent node final packets := by
  obtain ⟨next, response, step, rfl, rfl⟩ := heartbeat_driven operation node final packets request drives
  cases step with
  | stale => exact ordinary_still sent node _ _ rfl rfl sized id rfl rfl (by simp [Packet.appends])
  | mismatched fresh => exact ordinary_follower sent node _ _ rfl rfl sized id rfl fresh (by simp [Packet.appends])
  | matched fresh =>
      refine ordinary_follower sent node _ _ rfl rfl sized (fun bound => ?_) rfl fresh (by simp [Packet.appends])
      exact Nat.max_le.mpr ⟨bound, (Nat.min_le_right _ _).trans_eq sized⟩

theorem heartbeat_response_ordinary (operation : Operation) (received : ReceivedHeartbeatResponse)
    (drives : Drives operation node (.heartbeatResponse received) final packets) : Ordinary sent node final packets := by
  obtain ⟨next, step, rfl, rfl⟩ := heartbeat_response_driven operation node final packets received drives
  cases step with
  | stepsDown newer => exact ordinary_follower sent node _ [] rfl rfl sized id rfl newer.le (by simp)
  | ignored | voter | learner => exact ordinary_still sent node _ [] rfl rfl sized id rfl rfl (by simp)

omit sized in
-- A leader that goes on, and what it sends.
theorem ordinary_leader (raft : Raft) (leader : node.raft.role = .leader) (id : raft.id = node.raft.id)
    (role : raft.role = .leader) (term : raft.currentTerm = node.raft.currentTerm)
    (log : node.log.length ≤ final.log.length) (same : final.raft = { raft with lastApplied := final.raft.lastApplied })
    (index : raft.lastLogIndex = final.log.length)
    (commit : node.raft.commitIndex ≤ node.log.length → raft.commitIndex ≤ final.log.length)
    (sends : ∀ packet ∈ packets, ∃ target operationId request entries,
      packet = .appendEntries target operationId request entries ∧
        Requested sent node final target request entries) : Ordinary sent node final packets where
  id := by rw [same]; exact id
  index := by rw [same]; exact index
  commit := by rw [same]; exact commit
  term := by rw [same]; exact term.ge
  leads := by
    intro _
    rw [same]
    exact ⟨leader, term, log⟩
  stands := by
    intro candidate
    rw [same, role] at candidate
    cases candidate
  answers := by
    intro target received listed
    obtain ⟨_, _, _, _, other, _⟩ := sends _ listed
    cases other
  requests := by
    intro target operationId request entries listed
    obtain ⟨_, _, _, _, equal, requested⟩ := sends _ listed
    cases equal
    exact requested

-- The retry that follows an answer.
theorem retry_requested (received : ReceivedAppendEntriesResponse) (raft : Raft)
    (listed : .appendEntriesResponse node.raft.id received ∈ sent) (leader : raft.role = .leader)
    (behind : received.response.lastLogIndex < node.raft.lastLogIndex)
    (packet : Packet) (new : packet ∈ (node.finish raft (.ok (some (node.raft.retry received)))).2) :
    ∃ target operationId request entries, packet = .appendEntries target operationId request entries ∧
      Requested sent node (node.finish raft (.ok (some (node.raft.retry received)))).1 target request entries := by
  simp only [Node.finish, Raft.retry, List.map_cons, List.map_nil, List.mem_singleton] at new
  refine ⟨_, _, _, _, new, .inr ⟨received, listed, rfl⟩, leader, rfl, rfl, ?_⟩
  rw [sized] at behind
  simp only [Node.appendRequest, Raft.target, Node.finish, Raft.retry, List.length_drop]
  omega

theorem append_response_ordinary (received : ReceivedAppendEntriesResponse)
    (listed : .appendEntriesResponse node.raft.id received ∈ sent)
    (drives : Drives .other node (.appendEntriesResponse received) final packets) : Ordinary sent node final packets := by
  obtain ⟨raft, result, step, finished⟩ := append_response_driven .other node final packets received drives
  have retried := retry_requested sent node sized received
  cases step with
  | notLeader | stranger =>
      cases finished
      exact ordinary_still sent node _ [] rfl rfl sized id rfl rfl (by simp)
  | stepsDown _ newer =>
      cases finished
      exact ordinary_follower sent node _ [] rfl rfl sized id rfl newer.le (by simp)
  | retries leader _ behind =>
      cases finished
      exact ordinary_leader sent node _ _ node.raft leader rfl leader rfl le_rfl rfl sized id
        (retried node.raft listed leader behind)
  | behind leader _ behind =>
      cases finished
      exact ordinary_leader sent node _ _ (acknowledgedRaft node.raft received) leader rfl leader rfl le_rfl rfl sized id
        (retried _ listed leader behind)
  | learner leader _ _ _ learners effect retry =>
      rcases retry with rfl | ⟨rfl, behind⟩
      · cases finished
        exact ordinary_still sent node _ [] rfl rfl sized id rfl rfl (by simp)
      · cases finished
        exact ordinary_leader sent node _ _ { node.raft with learners := learners } leader rfl leader rfl le_rfl rfl sized id
          (retried _ listed leader behind)
  | counted counts =>
      cases finished
      exact ordinary_still sent node _ [] rfl rfl sized id rfl rfl (by simp)
  | commits counts =>
      cases finished
      exact ordinary_leader sent node _ [] { acknowledgedRaft node.raft received with commitIndex := node.raft.lastLogIndex }
        counts.leader rfl counts.leader rfl le_rfl rfl sized (fun _ => sized.le) (by simp)

theorem write_ordinary (operationId : OperationId) (command : List UInt8)
    (drives : Drives (.write command) node (.write operationId) final packets) : Ordinary sent node final packets := by
  rcases write_driven node final packets operationId command drives with
    ⟨_, rfl, rfl⟩ | ⟨leader, raft, result, step, finished⟩
  · exact ordinary_still sent final final [] rfl rfl sized id rfl rfl (by simp)
  have longer : (node.written command).log.length = node.log.length + 1 := by simp [Node.written]
  cases step with
  | notLeader role => exact absurd leader role
  | replicates =>
      cases finished
      apply ordinary_leader sent node _ _ (appendedRaft node.raft ⟨operationId, node.log.length + 1, node.raft.currentTerm⟩)
        leader rfl leader rfl
      case log => exact (Nat.le_succ _).trans longer.ge
      case same => rfl
      case index => exact longer.symm
      case commit => exact fun bound => bound.trans ((Nat.le_succ _).trans longer.ge)
      case sends =>
        intro packet new
        obtain ⟨target, targeted, rfl⟩ := List.mem_map.mp new
        obtain ⟨entry, inside, rfl⟩ := List.mem_map.mp targeted
        have other : entry.1 ≠ node.raft.id := by simpa using (List.mem_filter.mp inside).2
        refine ⟨_, _, _, _, rfl, .inl other, leader, rfl, rfl, ?_⟩
        have short : min entry.2.matchIndex node.raft.lastLogIndex ≤ node.log.length :=
          (Nat.min_le_right _ _).trans_eq sized
        simp only [Node.appendRequest, Raft.target, List.length_drop, longer]
        omega
  | alone =>
      cases finished
      apply ordinary_leader sent node _ _ { appendedRaft node.raft
        ⟨operationId, node.log.length + 1, node.raft.currentTerm⟩ with commitIndex := node.log.length + 1 } leader rfl leader rfl
      case log => exact (Nat.le_succ _).trans longer.ge
      case same => rfl
      case index => exact longer.symm
      case commit => exact fun _ => longer.ge
      case sends => simp

end Ordinary

-- The two turns that are not ordinary.
inductive Moves (cluster : Cluster) : Action → NodeId → Node → List Packet → Prop where
  | ordinary (action : Action) (node : NodeId) (final : Node) (packets : List Packet)
      (elects : ∀ target received, action = .deliver (.vote (.voteResponse target received)) →
        elects (cluster.nodes target).raft received = false)
      (appends : ∀ target operationId request entries, action ≠ .deliver (.appendEntries target operationId request entries))
      (turn : Ordinary cluster.sent (cluster.nodes node) final packets) : Moves cluster action node final packets
  | elected (node : NodeId) (received : ReceivedVoteResponse)
      (elects : elects (cluster.nodes node).raft received = true) (candidate : (cluster.nodes node).raft.role = .candidate) :
      Moves cluster (.deliver (.vote (.voteResponse node received))) node
        { cluster.nodes node with raft := electedRaft (cluster.nodes node).raft received }
        ((cluster.nodes node).raft.peers.map fun peer => .heartbeat peer (cluster.nodes node).raft.heartbeatRequest)
  | append (node : NodeId) (operationId : OperationId) (request : AppendEntriesRequest) (entries : List LogEntry)
      (final : Node) (response : AppendEntriesResponse)
      (sent : .appendEntries node operationId request entries ∈ cluster.sent)
      (outcome : AppendOutcome (cluster.nodes node)
        ⟨operationId, request, entryTerm (cluster.nodes node).log request.prevLogIndex⟩ entries final response) :
      Moves cluster (.deliver (.appendEntries node operationId request entries)) node final
        [.appendEntriesResponse request.leaderId ⟨operationId, (cluster.nodes node).raft.id, response⟩]

theorem elects_handled (raft : Raft) (received : ReceivedVoteResponse) (elected : elects raft received = true) :
    raft.role = .candidate ∧ handleVoteResponse raft received =
      .ok (electedRaft raft received, .ok (some (.sendHeartbeat raft.peers raft.heartbeatRequest))) := by
  simp only [elects, Bool.and_eq_true, decide_eq_true_eq, beq_iff_eq] at elected
  obtain ⟨⟨⟨⟨⟨candidate, term⟩, voter⟩, granted⟩, fresh⟩, most⟩ := elected
  refine ⟨candidate, ?_⟩
  unfold handleVoteResponse
  dsimp only
  rw [if_neg (by omega), if_neg (not_not.mpr candidate), if_neg, if_pos most]
  · rfl
  · simp only [not_or, not_lt, not_not, Bool.not_eq_false]
    exact ⟨term.ge, voter, granted, fresh⟩

theorem vote_response_ordinary (sent : List Packet) (node final : Node) (packets : List Packet)
    (sized : node.raft.lastLogIndex = node.log.length) (received : ReceivedVoteResponse)
    (lost : elects node.raft received = false) (drives : Drives .other node (.voteResponse received) final packets) :
    Ordinary sent node final packets := by
  obtain ⟨raft, result, handled⟩ := drives_handled _ _ _ _ _ drives
  cases vote_response_step node.raft raft received result handled with
  | stepsDown newer =>
      obtain ⟨rfl, rfl⟩ := drives_idle _ node final _ packets _ _ handled (by simp) drives
      exact ordinary_follower sent node _ [] rfl rfl sized id rfl newer.le (by simp)
  | notCandidate | ignored | tallied =>
      obtain ⟨rfl, rfl⟩ := drives_idle _ node final _ packets _ _ handled (by simp) drives
      exact ordinary_still sent node _ [] rfl rfl sized id rfl rfl (by simp)
  | elected counts most =>
      rw [elects_counts node.raft received counts most] at lost
      cases lost

theorem vote_response_moves (cluster : Cluster) (node : NodeId) (final : Node) (packets : List Packet)
    (sized : (cluster.nodes node).raft.lastLogIndex = (cluster.nodes node).log.length) (received : ReceivedVoteResponse)
    (drives : Drives .other (cluster.nodes node) (.voteResponse received) final packets) :
    Moves cluster (.deliver (.vote (.voteResponse node received))) node final packets := by
  cases wins : elects (cluster.nodes node).raft received with
  | true =>
      obtain ⟨candidate, handled⟩ := elects_handled _ received wins
      have event : handle (cluster.nodes node).raft (.voteResponse received) = _ := handled
      obtain ⟨rfl, rfl⟩ := drives_ended _ _ final _ _ packets _ _ _ event rfl drives
      exact .elected node received wins candidate
  | false =>
      apply Moves.ordinary
      case elects =>
        intro target other same
        cases same
        exact wins
      case appends => simp
      case turn => exact vote_response_ordinary cluster.sent _ final packets sized received wins drives

theorem step_moves (voters : List NodeId) (cluster after : Cluster) (action : Action)
    (sized : ∀ node, (cluster.nodes node).raft.lastLogIndex = (cluster.nodes node).log.length)
    (self : ∀ node, (cluster.nodes node).raft.id = node) (moves : step voters cluster action = some after) :
    ∃ node final packets, Moves cluster action node final packets ∧ after = cluster.become node final packets := by
  cases action with
  | electionTimeout node =>
      obtain ⟨_, final, packets, drives, rfl⟩ := act_drives cluster after voters node _ _ moves
      exact ⟨node, final, packets, .ordinary _ _ _ _ (by simp) (by simp)
        (timeout_ordinary _ _ final packets (sized node) _ drives), rfl⟩
  | heartbeatTimeout node =>
      obtain ⟨_, final, packets, drives, rfl⟩ := act_drives cluster after voters node _ _ moves
      exact ⟨node, final, packets, .ordinary _ _ _ _ (by simp) (by simp)
        (heartbeat_timeout_ordinary _ _ final packets (sized node) _ drives), rfl⟩
  | write node operationId command =>
      obtain ⟨_, final, packets, drives, rfl⟩ := act_drives cluster after voters node _ _ moves
      exact ⟨node, final, packets, .ordinary _ _ _ _ (by simp) (by simp)
        (write_ordinary _ _ final packets (sized node) operationId command drives), rfl⟩
  | applied node entries =>
      obtain ⟨_, final, packets, drives, rfl⟩ := act_drives cluster after voters node _ _ moves
      exact ⟨node, final, packets, .ordinary _ _ _ _ (by simp) (by simp)
        (applied_ordinary _ _ final packets (sized node) _ entries drives), rfl⟩
  | deliver packet =>
      obtain ⟨sent, _, final, packets, drives, rfl⟩ := deliver_drives cluster after voters packet moves
      refine ⟨packet.target, final, packets, ?_, rfl⟩
      cases packet with
      | vote packet =>
          cases packet with
          | voteRequest node request =>
              exact .ordinary _ _ _ _ (by simp) (by simp)
                (vote_request_ordinary _ _ final packets (sized node) _ request drives)
          | voteResponse node received => exact vote_response_moves cluster node final packets (sized node) received drives
      | heartbeat node request =>
          exact .ordinary _ _ _ _ (by simp) (by simp) (heartbeat_ordinary _ _ final packets (sized node) _ request drives)
      | heartbeatResponse node received =>
          exact .ordinary _ _ _ _ (by simp) (by simp)
            (heartbeat_response_ordinary _ _ final packets (sized node) _ received drives)
      | appendEntries node operationId request entries =>
          obtain ⟨response, outcome, rfl⟩ := append_driven _ final packets _ entries drives
          exact .append node operationId request entries final response sent outcome
      | appendEntriesResponse node received =>
          refine .ordinary _ _ _ _ (by simp) (by simp)
            (append_response_ordinary _ _ final packets (sized node) received ?_ drives)
          rw [show (cluster.nodes (Packet.appendEntriesResponse node received).target).raft.id = node from self node]
          exact sent

structure Formed (cluster : Cluster) : Prop where
  self : ∀ node, (cluster.nodes node).raft.id = node
  sized : ∀ node, (cluster.nodes node).raft.lastLogIndex = (cluster.nodes node).log.length

theorem formed_start (voters : List NodeId) (cluster : Cluster) (start : Start voters cluster) : Formed cluster where
  self := by
    intro node
    obtain ⟨state, same⟩ := start.nodes node
    rw [same]
    rfl
  sized := by
    intro node
    obtain ⟨state, same⟩ := start.nodes node
    rw [same]
    rfl

theorem formed_moves (cluster : Cluster) (action : Action) (node : NodeId) (final : Node) (packets : List Packet)
    (formed : Formed cluster) (moves : Moves cluster action node final packets) :
    Formed (cluster.become node final packets) := by
  have own : final.raft.id = (cluster.nodes node).raft.id ∧ final.raft.lastLogIndex = final.log.length := by
    cases moves with
    | ordinary _ _ _ _ _ _ turn => exact ⟨turn.id, turn.index⟩
    | elected => exact ⟨rfl, formed.sized node⟩
    | append _ _ _ _ _ _ _ outcome =>
        cases outcome with
        | stale | rejected => exact ⟨rfl, formed.sized node⟩
        | accepted => exact ⟨rfl, rfl⟩
  constructor
  · intro other
    by_cases same : other = node
    · rw [same, become_self, own.1]
      exact formed.self node
    · rw [become_other cluster node other final packets same]
      exact formed.self other
  · intro other
    by_cases same : other = node
    · rw [same, become_self]
      exact own.2
    · rw [become_other cluster node other final packets same]
      exact formed.sized other

end RaftLog.Replication
