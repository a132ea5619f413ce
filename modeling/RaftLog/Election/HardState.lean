import RaftLog.Election.Model

set_option autoImplicit false

namespace RaftLog.HardState

open Lib Election

-- The two primitive steps of Runtime::execute on a vote effect. A save replaces the
-- stored state as a whole.
inductive Work where
  | save (state : State)
  | send (packet : Packet)
deriving DecidableEq, Repr

-- Runtime::execute on the effects that carry a vote; the runtime handles no other
-- event before it is done.
def workOf (id : NodeId) : Except Error (Option Effect) → List Work
  | .ok (some (.sendRequestVotes hardState peers request)) =>
      .save hardState :: peers.map fun peer => .send (.voteRequest peer request)
  | .ok (some (.sendRequestVoteResponse (some hardState) peer response)) =>
      [.save hardState, .send (.voteResponse peer ⟨id, response⟩)]
  | .ok (some (.sendRequestVoteResponse none peer response)) => [.send (.voteResponse peer ⟨id, response⟩)]
  | _ => []

structure Node where
  raft : Raft
  disk : State
  pending : List Work
  sent : List Packet

inductive Action where
  | event (event : Event)
  | advance
  | crash (nextOffset : Nat)
deriving DecidableEq, Repr

def step (id : NodeId) (voters : List NodeId) (node : Node) : Action → Option Node
  | .event event =>
      if node.pending = [] then
        match handle node.raft event with
        | .ok (next, result) => some { node with raft := next, pending := workOf id result }
        | .error _ => none
      else none
  | .advance =>
      match node.pending with
      | .save state :: rest => some { node with disk := state, pending := rest }
      | .send packet :: rest => some { node with sent := packet :: node.sent, pending := rest }
      | [] => none
  -- Runtime::new after the crash: what was not saved is gone, what was sent is not
  | .crash nextOffset => some { node with raft := newRaft id voters nextOffset node.disk, pending := [] }

def booted (id : NodeId) (voters : List NodeId) (nextOffset : Nat) (disk : State) : Node :=
  ⟨newRaft id voters nextOffset disk, disk, [], []⟩

def machine (id : NodeId) (voters : List NodeId) : Machine Node Action :=
  ⟨fun node => ∃ nextOffset disk, node = booted id voters nextOffset disk, step id voters⟩

-- The candidate a message of this node stands for, and in which term: its own
-- campaign, or the vote it grants.
def named : Packet → Option (Nat × NodeId)
  | .voteRequest _ request => some (request.term, request.candidateId)
  | .voteResponse peer ⟨_, ⟨term, true⟩⟩ => some (term, peer)
  | .voteResponse _ ⟨_, ⟨_, false⟩⟩ => none

def OneVotePerTerm (node : Node) : Prop :=
  ∀ left ∈ node.sent, ∀ right ∈ node.sent, ∀ term leftCandidate rightCandidate,
    named left = some (term, leftCandidate) → named right = some (term, rightCandidate) → leftCandidate = rightCandidate

-- No append of a later term is rejected while a vote is held.
def leavesNoOldVote (node : Node) : Action → Bool
  | .event event => !(rejectsNewerAppend node.raft event && node.raft.votedFor.isSome)
  | _ => true

-- What the disk will hold once the pending saves are done.
def saved : State → List Work → State
  | disk, [] => disk
  | _, .save state :: rest => saved state rest
  | disk, .send _ :: rest => saved disk rest

-- The memory is what is saved, or a later term in which nothing was voted.
def Backed (raft : Raft) (disk : State) : Prop :=
  raft.hardState = disk ∨ disk.currentTerm < raft.currentTerm ∧ raft.votedFor = none

-- Replacing `old` by `new` forgets no vote.
def Extends (old new : State) : Prop :=
  old.currentTerm ≤ new.currentTerm ∧
    (old.currentTerm = new.currentTerm → old.votedFor = none ∨ old.votedFor = new.votedFor)

def Recorded (disk : State) (packet : Packet) : Prop :=
  ∀ term candidate, named packet = some (term, candidate) →
    term = disk.currentTerm ∧ disk.votedFor = some candidate

def Ordered : State → List Work → Prop
  | _, [] => True
  | disk, .save state :: rest => Extends disk state ∧ Ordered state rest
  | disk, .send packet :: rest => Recorded disk packet ∧ Ordered disk rest

structure HardStateInv (node : Node) : Prop where
  backed : Backed node.raft (saved node.disk node.pending)
  ordered : Ordered node.disk node.pending
  durable : ∀ packet ∈ node.sent, ∀ term candidate, named packet = some (term, candidate) →
    term ≤ node.disk.currentTerm ∧ (term = node.disk.currentTerm → node.disk.votedFor = some candidate)
  once : OneVotePerTerm node

@[simp] theorem new_raft_hard_state (id : NodeId) (voters : List NodeId) (nextOffset : Nat) (disk : State) :
    (newRaft id voters nextOffset disk).hardState = disk := rfl

theorem ordered_sends (disk : State) (packets : List Packet) (recorded : ∀ packet ∈ packets, Recorded disk packet) :
    Ordered disk (packets.map .send) ∧ saved disk (packets.map .send) = disk := by
  induction packets with
  | nil => exact ⟨trivial, rfl⟩
  | cons packet rest ih =>
      obtain ⟨ordered, same⟩ := ih fun other member => recorded other (List.mem_cons_of_mem _ member)
      exact ⟨⟨recorded packet List.mem_cons_self, ordered⟩, same⟩

-- The work a handled event leaves, from a node that owes none.
def Owes (id : NodeId) (disk : State) (next : Raft) (result : Except Error (Option Effect)) : Prop :=
  Backed next (saved disk (workOf id result)) ∧ Ordered disk (workOf id result)

theorem work_of_silent (id : NodeId) (result : Except Error (Option Effect)) (silent : castsVote result = false) :
    workOf id result = [] := by
  unfold workOf
  split
  · cases silent
  · cases silent
  · cases silent
  · rfl

theorem timeout_owes (id : NodeId) (raft next : Raft) (disk : State) (result : Except Error (Option Effect))
    (backed : Backed raft disk) (handled : handleElectionTimeout raft = .ok (next, result)) :
    Owes id disk next result := by
  obtain ⟨rfl, rfl⟩ := election_timeout_step raft next result handled
  have bound : disk.currentTerm ≤ raft.currentTerm := by
    rcases backed with same | ⟨newer, _⟩
    · exact Nat.le_of_eq (same ▸ rfl)
    · exact Nat.le_of_lt newer
  obtain ⟨ordered, same⟩ := ordered_sends (campaignRaft raft).hardState
    ((campaignRaft raft).peers.map fun peer => .voteRequest peer
      ⟨(campaignRaft raft).currentTerm, (campaignRaft raft).id, (campaignRaft raft).lastLogIndex, (campaignRaft raft).lastLogTerm⟩)
    (by
      intro packet member term candidate names
      obtain ⟨_, _, rfl⟩ := List.mem_map.mp member
      cases names
      exact ⟨rfl, rfl⟩)
  rw [List.map_map] at ordered same
  refine ⟨.inl same.symm, ⟨?_, fun now => ?_⟩, ordered⟩
  · exact Nat.le_succ_of_le bound
  · exact absurd now (Nat.ne_of_lt (Nat.lt_succ_of_le bound))

theorem request_owes (id : NodeId) (raft next : Raft) (disk : State) (request : VoteRequest)
    (result : Except Error (Option Effect)) (backed : Backed raft disk)
    (handled : handleRequestVote raft request = .ok (next, result)) : Owes id disk next result := by
  obtain ⟨hardState, granted, step, rfl⟩ := request_vote_step raft next request result handled
  have recorded : ∀ state : State, (granted = true → state = next.hardState) →
      Recorded state (.voteResponse request.candidateId ⟨id, ⟨next.currentTerm, granted⟩⟩) := by
    intro state same term candidate names
    cases granted with
    | false => cases names
    | true =>
        cases names
        rw [same rfl]
        exact ⟨rfl, (step.grant rfl).2.1⟩
  cases hardState with
  | none =>
      obtain ⟨term, vote⟩ := step.unsaved rfl
      have unchanged : next.hardState = raft.hardState := by rw [Raft.hardState, term, vote, Raft.hardState]
      refine ⟨?_, recorded disk fun yes => ?_, trivial⟩
      · rw [Backed, unchanged, term, vote]
        exact backed
      · rcases backed with same | ⟨_, none⟩
        · rw [unchanged, same]
        · have voted := (step.grant yes).2.1
          rw [vote, none] at voted
          cases voted
  | some state =>
      obtain rfl := step.saved state rfl
      have grows : raft.currentTerm ≤ next.currentTerm := by rw [step.term]; exact Nat.le_max_left _ _
      refine ⟨.inl rfl, ?_, recorded next.hardState fun _ => rfl, trivial⟩
      rcases backed with rfl | ⟨newer, _⟩
      · refine ⟨grows, fun now => ?_⟩
        by_cases voted : raft.votedFor = none
        · exact .inl voted
        · exact .inr ((step.kept now.symm).2.2 voted).symm
      · refine ⟨Nat.le_trans (Nat.le_of_lt newer) grows, fun now => ?_⟩
        have same : disk.currentTerm = next.currentTerm := now
        omega

-- The steps that send no vote. The vote is cleared when the term moves, except
-- by the rejected append that the side condition excludes.
theorem quiet_owes (id : NodeId) (raft next : Raft) (disk : State) (event : Event)
    (result : Except Error (Option Effect)) (backed : Backed raft disk) (quiet : event.quiet = true)
    (clean : (rejectsNewerAppend raft event && raft.votedFor.isSome) = false)
    (handled : handle raft event = .ok (next, result)) : Owes id disk next result := by
  have step := handle_quiet raft next event result quiet handled
  rw [Owes, work_of_silent id result (quiet_casts_no_vote raft next event result quiet handled)]
  refine ⟨?_, trivial⟩
  rcases Nat.eq_or_lt_of_le step.termGrows with same | newer
  · rw [saved, Backed, Raft.hardState, step.voteKept same.symm, ← same]
    exact backed
  · have cleared : next.votedFor = none := by
      rcases step.voteCleared newer with none | ⟨rejects, vote⟩
      · exact none
      · rw [rejects, Bool.true_and] at clean
        rw [vote]
        simpa using clean
    refine .inr ⟨?_, cleared⟩
    rcases backed with rfl | ⟨later, _⟩
    · exact newer
    · exact Nat.lt_trans later newer

theorem response_owes (id : NodeId) (raft next : Raft) (disk : State) (received : ReceivedVoteResponse)
    (result : Except Error (Option Effect)) (backed : Backed raft disk)
    (handled : handleVoteResponse raft received = .ok (next, result)) : Owes id disk next result := by
  cases vote_response_step raft next received result handled with
  | stepsDown newer =>
      refine ⟨.inr ⟨?_, rfl⟩, trivial⟩
      rcases backed with rfl | ⟨later, _⟩
      · exact newer
      · exact Nat.lt_trans later newer
  | notCandidate | ignored => exact ⟨backed, trivial⟩
  | tallied | elected => exact ⟨backed, trivial⟩

theorem event_owes (id : NodeId) (raft next : Raft) (disk : State) (event : Event)
    (result : Except Error (Option Effect)) (backed : Backed raft disk)
    (clean : (rejectsNewerAppend raft event && raft.votedFor.isSome) = false)
    (handled : handle raft event = .ok (next, result)) : Owes id disk next result := by
  by_cases quiet : event.quiet = true
  · exact quiet_owes id raft next disk event result backed quiet clean handled
  · cases event with
    | electionTimeout => exact timeout_owes id raft next disk result backed handled
    | requestVote request => exact request_owes id raft next disk request result backed handled
    | voteResponse received => exact response_owes id raft next disk received result backed handled
    | _ => exact absurd rfl quiet

theorem save_inv (node : Node) (state : State) (rest : List Work) (inv : HardStateInv node)
    (head : node.pending = .save state :: rest) : HardStateInv { node with disk := state, pending := rest } := by
  have backed := inv.backed
  have ordered := inv.ordered
  rw [head] at backed ordered
  obtain ⟨⟨grows, kept⟩, tail⟩ := ordered
  refine ⟨backed, tail, ?_, inv.once⟩
  intro packet member term candidate names
  obtain ⟨bound, vote⟩ := inv.durable packet member term candidate names
  refine ⟨Nat.le_trans bound grows, fun now => ?_⟩
  have same : term = node.disk.currentTerm := Nat.le_antisymm bound (now ▸ grows)
  rcases kept (same.symm.trans now) with none | equal
  · rw [vote same] at none
    cases none
  · exact equal.symm.trans (vote same)

theorem send_inv (node : Node) (packet : Packet) (rest : List Work) (inv : HardStateInv node)
    (head : node.pending = .send packet :: rest) :
    HardStateInv { node with sent := packet :: node.sent, pending := rest } := by
  have backed := inv.backed
  have ordered := inv.ordered
  rw [head] at backed ordered
  obtain ⟨recorded, tail⟩ := ordered
  have durable : ∀ other ∈ packet :: node.sent, ∀ term candidate, named other = some (term, candidate) →
      term ≤ node.disk.currentTerm ∧ (term = node.disk.currentTerm → node.disk.votedFor = some candidate) := by
    intro other member term candidate names
    rcases List.mem_cons.mp member with rfl | old
    · obtain ⟨now, vote⟩ := recorded term candidate names
      exact ⟨Nat.le_of_eq now, fun _ => vote⟩
    · exact inv.durable other old term candidate names
  refine ⟨backed, tail, durable, ?_⟩
  intro left leftMember right rightMember term leftCandidate rightCandidate leftNames rightNames
  -- the new message stands for the vote on disk, with which every older one of its term agrees
  have agree : term = node.disk.currentTerm → leftCandidate = rightCandidate := fun now =>
    Option.some.inj (((durable left leftMember term _ leftNames).2 now).symm.trans
      ((durable right rightMember term _ rightNames).2 now))
  rcases List.mem_cons.mp leftMember with rfl | leftOld
  · exact agree (recorded term _ leftNames).1
  · rcases List.mem_cons.mp rightMember with rfl | rightOld
    · exact agree (recorded term _ rightNames).1
    · exact inv.once left leftOld right rightOld term _ _ leftNames rightNames

theorem hard_state_inv_step (id : NodeId) (voters : List NodeId) (node after : Node) (action : Action)
    (inv : HardStateInv node) (clean : leavesNoOldVote node action = true)
    (moves : step id voters node action = some after) : HardStateInv after := by
  cases action with
  | event event =>
      simp only [step] at moves
      split at moves
      case isFalse => cases moves
      rename_i idle
      split at moves
      case h_2 => cases moves
      rename_i next result handled
      cases moves
      have backed := inv.backed
      rw [idle] at backed
      obtain ⟨nextBacked, ordered⟩ := event_owes id node.raft next node.disk event result backed
        (by simpa only [leavesNoOldVote, Bool.not_eq_true'] using clean) handled
      exact ⟨nextBacked, ordered, inv.durable, inv.once⟩
  | advance =>
      simp only [step] at moves
      split at moves
      · rename_i state rest head
        cases moves
        exact save_inv node state rest inv head
      · rename_i packet rest head
        cases moves
        exact send_inv node packet rest inv head
      · cases moves
  | crash nextOffset =>
      cases moves
      exact ⟨.inl rfl, trivial, inv.durable, inv.once⟩

theorem hard_state_inv_start (id : NodeId) (voters : List NodeId) (nextOffset : Nat) (disk : State) :
    HardStateInv (booted id voters nextOffset disk) :=
  ⟨.inl rfl, trivial, fun _ member => by simp [booted] at member, fun _ member => by simp [booted] at member⟩

def fresh : Node := booted nodeA threeNodes 1 ⟨0, none⟩

-- A vote, a crash before anything else happens, and the same request again.
def votesAcrossCrash : List Action :=
  [.event (.requestVote ⟨1, nodeB, 0, 0⟩), .advance, .advance, .crash 1, .event (.requestVote ⟨1, nodeC, 0, 0⟩),
    .advance, .event (.requestVote ⟨1, nodeB, 0, 0⟩), .advance]

def afterVotesAcrossCrash : Node :=
  (execWhen (machine nodeA threeNodes) leavesNoOldVote fresh votesAcrossCrash).getD fresh

-- The second request looks like a repeat of the first, because the rejected append
-- raised the term under the old vote: nothing is saved before the vote is sent.
def unsavedVote : List Action :=
  [.event (.requestVote ⟨1, nodeB, 0, 0⟩), .advance, .advance,
    .event (.appendEntries ⟨⟨7⟩, ⟨2, nodeC, 5, 1, 0⟩, none⟩),
    .event (.requestVote ⟨2, nodeB, 0, 0⟩), .advance, .crash 1,
    .event (.requestVote ⟨2, nodeC, 0, 0⟩), .advance, .advance]

def afterUnsavedVote : Node := (exec (machine nodeA threeNodes) fresh unsavedVote).getD fresh

end RaftLog.HardState
