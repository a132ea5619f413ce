import RaftLog.Replication.Outcomes

set_option autoImplicit false

namespace RaftLog.Completion

open Lib Replication

-- A leader with its clients' writes, each with the index of its entry, and the append
-- requests it has sent, each with the operation it carries.
structure Session where
  node : Node
  writes : List (OperationId × Nat)
  requests : List (OperationId × NodeId)

inductive Action where
  | write (operationId : OperationId) (command : List UInt8)
  | respond (received : ReceivedAppendEntriesResponse)
deriving DecidableEq, Repr

def requestsOf (packets : List Packet) : List (OperationId × NodeId) :=
  packets.filterMap fun
    | .appendEntries target operationId _ _ => some (operationId, target)
    | _ => none

-- Runtime::next_operation_id never gives an identifier twice, a follower answers a
-- request that was sent, and the node stays leader.
def step (session : Session) : Action → Option Session
  | .write operationId command =>
      if operationId ∉ session.writes.map Prod.fst then
        match drive rounds session.node (.write command) (.write operationId) with
        | some (.ok (next, packets)) =>
            some ⟨next, (operationId, next.log.length) :: session.writes, requestsOf packets ++ session.requests⟩
        | _ => none
      else none
  | .respond received =>
      if (received.operationId, received.sender) ∈ session.requests then
        match drive rounds session.node .other (.appendEntriesResponse received) with
        | some (.ok (next, packets)) =>
            if next.raft.role = .leader then
              some { session with node := next, requests := requestsOf packets ++ session.requests }
            else none
        | _ => none
      else none

structure Start (session : Session) : Prop where
  leader : session.node.raft.role = .leader
  multi : ∃ voter ∈ session.node.raft.voters.keys, voter ≠ session.node.raft.id
  index : session.node.raft.lastLogIndex = session.node.log.length
  commit : session.node.raft.commitIndex ≤ session.node.raft.lastLogIndex
  applied : session.node.raft.lastApplied ≤ session.node.raft.commitIndex
  completed : session.node.completed = []
  writes : session.writes = []
  requests : session.requests = []

def machine : Machine Session Action := ⟨Start, step⟩

-- No operation is completed twice, and none is forgotten below last_applied.
def CompletedOnce (session : Session) : Prop :=
  session.node.completed.Nodup ∧
    ∀ write ∈ session.writes, write.2 ≤ session.node.raft.lastApplied → write.1 ∈ session.node.completed

-- The response that completes a majority for the leader's last entry.
def commits (raft : Raft) (received : ReceivedAppendEntriesResponse) : Bool :=
  decide (received.sender ∈ raft.voters ∧ received.sender ∉ raft.learners ∧
    received.response.lastLogIndex = raft.lastLogIndex ∧ raft.commitIndex < raft.lastLogIndex ∧
    (acknowledgedRaft raft received).caughtUp > raft.voters.keys.length / 2)

-- A response that commits echoes the one write that is not committed yet.
def echoesPending (session : Session) : Action → Bool
  | .respond received => !commits session.node.raft received ||
      session.writes.all fun write =>
        decide (write.2 ≤ session.node.raft.commitIndex) || decide (write.1 = received.operationId)
  | _ => true

structure SessionInv (session : Session) : Prop where
  leader : session.node.raft.role = .leader
  multi : ∃ voter ∈ session.node.raft.voters.keys, voter ≠ session.node.raft.id
  index : session.node.raft.lastLogIndex = session.node.log.length
  commit : session.node.raft.commitIndex ≤ session.node.raft.lastLogIndex
  applied : session.node.raft.lastApplied ≤ session.node.raft.commitIndex
  distinct : (session.writes.map Prod.fst).Nodup
  last : session.writes ≠ [] → ∃ operationId, (operationId, session.node.raft.lastLogIndex) ∈ session.writes
  within : ∀ write ∈ session.writes, write.2 ≤ session.node.raft.lastLogIndex
  requested : session.requests ≠ [] → session.writes ≠ []
  completed : ∀ operationId, operationId ∈ session.node.completed ↔
    ∃ index, (operationId, index) ∈ session.writes ∧ index ≤ session.node.raft.commitIndex
  once : session.node.completed.Nodup

theorem session_inv_start (session : Session) (start : Start session) : SessionInv session where
  leader := start.leader
  multi := start.multi
  index := start.index
  commit := start.commit
  applied := start.applied
  distinct := by simp [start.writes]
  last := by simp [start.writes]
  within := by simp [start.writes]
  requested := by simp [start.requests]
  completed := by simp [start.completed, start.writes]
  once := by simp [start.completed]

theorem targets_nonempty (raft : Raft) (multi : ∃ voter ∈ raft.voters.keys, voter ≠ raft.id) :
    raft.replicationTargets.isEmpty = false := by
  obtain ⟨voter, member, other⟩ := multi
  obtain ⟨progress, found⟩ := Option.isSome_iff_exists.mp (AList.lookup_isSome.mpr (AList.mem_keys.mpr member))
  have entry := AList.mem_lookup_iff.mp found
  rw [List.isEmpty_eq_false_iff_exists_mem]
  refine ⟨_, List.mem_map_of_mem (List.mem_filter.mpr ⟨List.mem_append_left _ entry, ?_⟩)⟩
  simpa using other

-- What every step keeps of the leader.
structure SameLeader (raft next : Raft) : Prop where
  role : next.role = .leader
  id : next.id = raft.id
  voters : next.voters.keys = raft.voters.keys

theorem same_leader_multi (raft next : Raft) (same : SameLeader raft next)
    (multi : ∃ voter ∈ raft.voters.keys, voter ≠ raft.id) : ∃ voter ∈ next.voters.keys, voter ≠ next.id := by
  rw [same.id, same.voters]
  exact multi

structure Written (session next : Session) (operationId : OperationId) : Prop where
  unused : operationId ∉ session.writes.map Prod.fst
  leader : SameLeader session.node.raft next.node.raft
  writes : next.writes = (operationId, session.node.log.length + 1) :: session.writes
  length : next.node.log.length = session.node.log.length + 1
  index : next.node.raft.lastLogIndex = session.node.log.length + 1
  commit : next.node.raft.commitIndex = session.node.raft.commitIndex
  applied : next.node.raft.lastApplied = session.node.raft.lastApplied
  completed : next.node.completed = session.node.completed

theorem write_step (session next : Session) (operationId : OperationId) (command : List UInt8) (inv : SessionInv session)
    (moves : step session (.write operationId command) = some next) : Written session next operationId := by
  simp only [step] at moves
  split at moves
  case isFalse => cases moves
  rename_i unused
  split at moves
  case h_2 => cases moves
  rename_i final packets driven
  cases moves
  rcases write_driven _ _ _ _ _ (drive_drives _ _ _ _ _ _ driven) with ⟨follower, _, _⟩ | ⟨_, raft, result, appended, ended⟩
  · exact absurd inv.leader follower
  cases appended with
  | notLeader role => exact absurd inv.leader role
  | alone _ alone => rw [targets_nonempty _ inv.multi] at alone; cases alone
  | replicates =>
      cases ended
      exact ⟨unused, ⟨inv.leader, rfl, keys_assign _ _ _⟩, by simp [Node.written], by simp [Node.written], rfl, rfl, rfl, rfl⟩

-- A response leaves commit and completions as they are, or commits the whole log and
-- completes the operation it echoes.
structure Responded (session next : Session) : Prop where
  pending : session.writes ≠ []
  leader : SameLeader session.node.raft next.node.raft
  writes : next.writes = session.writes
  log : next.node.log = session.node.log
  index : next.node.raft.lastLogIndex = session.node.raft.lastLogIndex

inductive ResponseStep (session next : Session) (received : ReceivedAppendEntriesResponse) : Prop where
  | kept (responded : Responded session next) (idle : commits session.node.raft received = false)
      (commit : next.node.raft.commitIndex = session.node.raft.commitIndex)
      (applied : next.node.raft.lastApplied = session.node.raft.lastApplied)
      (completed : next.node.completed = session.node.completed)
  | commits (responded : Responded session next) (most : commits session.node.raft received = true)
      (commit : next.node.raft.commitIndex = session.node.raft.lastLogIndex)
      (applied : next.node.raft.lastApplied = session.node.raft.lastLogIndex)
      (completed : next.node.completed = received.operationId :: session.node.completed)

theorem response_step (session next : Session) (received : ReceivedAppendEntriesResponse) (inv : SessionInv session)
    (moves : step session (.respond received) = some next) : ResponseStep session next received := by
  simp only [step] at moves
  split at moves
  case isFalse => cases moves
  rename_i requested
  split at moves
  case h_2 => cases moves
  rename_i final packets driven
  split at moves
  case isFalse => cases moves
  rename_i stays
  cases moves
  have pending := inv.requested (List.ne_nil_of_mem requested)
  obtain ⟨raft, result, answered, ended⟩ := append_response_driven _ _ _ _ _ (drive_drives _ _ _ _ _ _ driven)
  cases answered with
  | notLeader role => exact absurd inv.leader role
  | stepsDown => cases ended; cases stays
  | retries _ _ behind =>
      cases ended
      exact .kept ⟨pending, ⟨stays, rfl, rfl⟩, rfl, rfl, rfl⟩ (by simp [commits, behind.ne]) rfl rfl rfl
  | behind _ _ behind =>
      cases ended
      exact .kept ⟨pending, ⟨stays, rfl, keys_assign _ _ _⟩, rfl, rfl, rfl⟩ (by simp [commits, behind.ne]) rfl rfl rfl
  | learner _ _ _ learner learners effect retry =>
      have idle : commits session.node.raft received = false := by simp [commits, learner]
      rcases retry with rfl | ⟨rfl, _⟩
      · cases ended
        exact .kept ⟨pending, ⟨stays, rfl, rfl⟩, rfl, rfl, rfl⟩ idle rfl rfl rfl
      · cases ended
        exact .kept ⟨pending, ⟨stays, rfl, rfl⟩, rfl, rfl, rfl⟩ idle rfl rfl rfl
  | commits counts most fresh =>
      cases ended
      exact .commits ⟨pending, ⟨stays, rfl, keys_assign _ _ _⟩, rfl, rfl, rfl⟩
        (decide_eq_true ⟨counts.voter, counts.notLearner, counts.last, fresh, most⟩) rfl rfl rfl
  | counted counts few =>
      cases ended
      exact .kept ⟨pending, ⟨stays, rfl, keys_assign _ _ _⟩, rfl, rfl, rfl⟩
        (decide_eq_false fun all => few ⟨all.2.2.2.2, all.2.2.2.1⟩) rfl rfl rfl
  | stranger _ _ notVoter =>
      cases ended
      exact .kept ⟨pending, ⟨stays, rfl, rfl⟩, rfl, rfl, rfl⟩ (by simp [commits, notVoter]) rfl rfl rfl

theorem session_inv_write (session next : Session) (operationId : OperationId) (inv : SessionInv session)
    (written : Written session next operationId) : SessionInv next := by
  have behind : session.node.raft.commitIndex < session.node.log.length + 1 :=
    Nat.lt_succ_of_le (inv.index ▸ inv.commit)
  constructor
  case leader => exact written.leader.role
  case multi => exact same_leader_multi _ _ written.leader inv.multi
  case index => rw [written.index, written.length]
  case commit => rw [written.commit, written.index]; exact behind.le
  case applied => rw [written.applied, written.commit]; exact inv.applied
  case distinct =>
    rw [written.writes]
    exact List.nodup_cons.mpr ⟨written.unused, inv.distinct⟩
  case last => exact fun _ => ⟨operationId, by simp [written.writes, written.index]⟩
  case within =>
    intro write member
    rw [written.index]
    rw [written.writes] at member
    rcases List.mem_cons.mp member with same | old
    · exact (congrArg Prod.snd same).le
    · exact ((inv.within write old).trans inv.index.le).trans (Nat.le_succ _)
  case requested => exact fun _ => by simp [written.writes]
  case completed =>
    intro completedId
    rw [written.completed, inv.completed completedId, written.writes, written.commit]
    constructor
    · rintro ⟨index, member, within⟩
      exact ⟨index, List.mem_cons_of_mem _ member, within⟩
    · rintro ⟨index, member, within⟩
      rcases List.mem_cons.mp member with same | old
      · cases same
        exact absurd within (Nat.not_le_of_lt behind)
      · exact ⟨index, old, within⟩
  case once => rw [written.completed]; exact inv.once

-- The write at the last index is the one that a commit completes.
theorem pending_echoed (session : Session) (received : ReceivedAppendEntriesResponse) (inv : SessionInv session)
    (pending : session.writes ≠ []) (most : commits session.node.raft received = true)
    (echoes : echoesPending session (.respond received) = true) :
    (received.operationId, session.node.raft.lastLogIndex) ∈ session.writes ∧
      received.operationId ∉ session.node.completed ∧
      ∀ write ∈ session.writes, write.2 ≤ session.node.raft.commitIndex ∨ write.1 = received.operationId := by
  have fresh := (of_decide_eq_true most).2.2.2.1
  have all : ∀ write ∈ session.writes, write.2 ≤ session.node.raft.commitIndex ∨ write.1 = received.operationId := by
    simpa [echoesPending, most] using echoes
  obtain ⟨operationId, last⟩ := inv.last pending
  rcases all _ last with within | same
  · exact absurd within (Nat.not_le_of_lt fresh)
  · subst same
    refine ⟨last, ?_, all⟩
    intro done
    obtain ⟨index, member, within⟩ := (inv.completed _).mp done
    have one : index = session.node.raft.lastLogIndex := by
      have pairs := List.inj_on_of_nodup_map inv.distinct member last rfl
      exact congrArg Prod.snd pairs
    exact absurd within (Nat.not_le_of_lt (one ▸ fresh))

theorem session_inv_respond (session next : Session) (received : ReceivedAppendEntriesResponse) (inv : SessionInv session)
    (echoes : echoesPending session (.respond received) = true) (response : ResponseStep session next received) :
    SessionInv next := by
  cases response with
  | kept responded _ commit applied completed =>
      constructor
      case leader => exact responded.leader.role
      case multi => exact same_leader_multi _ _ responded.leader inv.multi
      case index => rw [responded.index, responded.log]; exact inv.index
      case commit => rw [commit, responded.index]; exact inv.commit
      case applied => rw [applied, commit]; exact inv.applied
      case distinct => rw [responded.writes]; exact inv.distinct
      case last => rw [responded.writes, responded.index]; exact inv.last
      case within => rw [responded.writes, responded.index]; exact inv.within
      case requested => rw [responded.writes]; exact fun _ => responded.pending
      case completed => rw [completed, responded.writes, commit]; exact inv.completed
      case once => rw [completed]; exact inv.once
  | commits responded most commit applied completed =>
      obtain ⟨last, fresh, all⟩ := pending_echoed session received inv responded.pending most echoes
      constructor
      case leader => exact responded.leader.role
      case multi => exact same_leader_multi _ _ responded.leader inv.multi
      case index => rw [responded.index, responded.log]; exact inv.index
      case commit => rw [commit, responded.index]
      case applied => rw [applied, commit]
      case distinct => rw [responded.writes]; exact inv.distinct
      case last => rw [responded.writes, responded.index]; exact inv.last
      case within => rw [responded.writes, responded.index]; exact inv.within
      case requested => rw [responded.writes]; exact fun _ => responded.pending
      case completed =>
        intro operationId
        rw [completed, responded.writes, commit, List.mem_cons, inv.completed operationId]
        constructor
        · rintro (rfl | ⟨index, member, within⟩)
          · exact ⟨_, last, le_rfl⟩
          · exact ⟨index, member, within.trans inv.commit⟩
        · rintro ⟨index, member, _⟩
          exact (all _ member).symm.imp id fun within => ⟨index, member, within⟩
      case once => rw [completed]; exact List.nodup_cons.mpr ⟨fresh, inv.once⟩

theorem session_run (session : Session)
    (run : Run machine (fun session action => echoesPending session action = true) session) : SessionInv session := by
  refine run_invariant machine _ SessionInv session_inv_start ?_ session run
  intro session action next _ inv echoes moves
  cases action with
  | write operationId command =>
      exact session_inv_write session next operationId inv (write_step session next operationId command inv moves)
  | respond received =>
      exact session_inv_respond session next received inv echoes (response_step session next received inv moves)

theorem completed_once_of_inv (session : Session) (inv : SessionInv session) : CompletedOnce session :=
  ⟨inv.once, fun write member applied =>
    (inv.completed write.1).mpr ⟨write.2, member, applied.trans inv.applied⟩⟩

theorem completed_exactly_once (session : Session)
    (run : Run machine (fun session action => echoesPending session action = true) session) : CompletedOnce session :=
  completed_once_of_inv session (session_run session run)

-- The other direction, for the step that leaves such a run.
theorem forgets_when_not_echoed (session next : Session) (received : ReceivedAppendEntriesResponse)
    (run : Run machine (fun session action => echoesPending session action = true) session)
    (otherwise : echoesPending session (.respond received) = false)
    (moves : step session (.respond received) = some next) : ¬ CompletedOnce next := by
  have inv := session_run session run
  rintro ⟨_, kept⟩
  have broken : commits session.node.raft received = true ∧
      ∃ operationId index, (operationId, index) ∈ session.writes ∧ session.node.raft.commitIndex < index ∧
        operationId ≠ received.operationId := by
    simpa [echoesPending] using otherwise
  obtain ⟨most, operationId, index, member, uncommitted, other⟩ := broken
  cases response_step session next received inv moves with
  | kept _ idle => rw [most] at idle; cases idle
  | commits responded _ commit applied completed =>
      have done := kept (operationId, index) (responded.writes ▸ member) (applied ▸ inv.within _ member)
      rw [completed] at done
      rcases List.mem_cons.mp done with same | before
      · exact other same
      · obtain ⟨earlier, same, within⟩ := (inv.completed operationId).mp before
        have one : earlier = index := congrArg Prod.snd (List.inj_on_of_nodup_map inv.distinct same member rfl)
        exact absurd (one ▸ within) (Nat.not_le_of_lt uncommitted)

-- A leader of three voters that has written nothing yet.
def newLeader : Session :=
  ⟨⟨{ newRaft nodeA threeNodes 1 ⟨1, some nodeA⟩ with role := .leader }, [], []⟩, [], []⟩

theorem new_leader_start : Start newLeader :=
  ⟨rfl, by decide +kernel, rfl, le_rfl, le_rfl, rfl, rfl, rfl⟩

def oneWrite : List Action := [.write ⟨1⟩ [1], .respond ⟨⟨1⟩, nodeB, ⟨1, true, 1, 1, some nodeA⟩⟩]

theorem completed_once_after_one_write :
    ((execWhen machine echoesPending newLeader oneWrite).getD newLeader).node.completed = [⟨1⟩] ∧
      CompletedOnce ((execWhen machine echoesPending newLeader oneWrite).getD newLeader) :=
  ⟨by decide +kernel, completed_exactly_once _
    (exec_when_reaches machine _ echoesPending (fun _ _ meets => meets) oneWrite _ _ (.start _ new_leader_start)
      (by decide +kernel))⟩

-- The follower answers the second request, which carried both entries.
def twoWrites : List Action :=
  [.write ⟨1⟩ [1], .write ⟨2⟩ [2], .respond ⟨⟨2⟩, nodeB, ⟨1, true, 2, 1, some nodeA⟩⟩]

theorem first_write_forgotten : ¬ ∀ session, Reachable machine session → CompletedOnce session := by
  intro always
  have kept := (always ((exec machine newLeader twoWrites).getD newLeader)
    (exec_reaches machine twoWrites _ _ (.start _ new_leader_start) (by decide +kernel))).2
  have lost : ¬ ∀ write ∈ ((exec machine newLeader twoWrites).getD newLeader).writes,
      write.2 ≤ ((exec machine newLeader twoWrites).getD newLeader).node.raft.lastApplied →
        write.1 ∈ ((exec machine newLeader twoWrites).getD newLeader).node.completed := by
    decide +kernel
  exact lost kept

end RaftLog.Completion
