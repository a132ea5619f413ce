import RaftLog.Core.New
import RaftLog.Core.Steps
import RaftLog.Lib.Refinement

set_option autoImplicit false

namespace RaftLog.Iteration

open Lib

-- What there is of an entry but its next_index.
def matched (entry : Sigma fun _ : NodeId => Progress) : NodeId × Nat := (entry.1, entry.2.matchIndex)

-- The same nodes with the same match_index, in whatever order the maps give them.
def Same (map other : ProgressMap) : Prop := (map.entries.map matched).Perm (other.entries.map matched)

section Map

theorem matched_kreplace (entries : List (Sigma fun _ : NodeId => Progress)) (apart : entries.NodupKeys) (node : NodeId)
    (progress : Progress) : (List.kreplace node progress entries).map matched =
      (entries.map matched).map fun entry => if entry.1 = node then (node, progress.matchIndex) else entry := by
  induction entries with
  | nil => rfl
  | cons entry rest ih =>
      obtain ⟨fresh, apart⟩ := List.nodupKeys_cons.mp apart
      rw [kreplace_cons]
      by_cases here : node = entry.1
      · have behind : ∀ other ∈ rest.map matched, other.1 ≠ node := by
          intro other listed same
          obtain ⟨inner, member, rfl⟩ := List.mem_map.mp listed
          exact fresh (here ▸ same ▸ List.mem_map_of_mem member)
        have kept : (rest.map matched).map (fun entry => if entry.1 = node then (node, progress.matchIndex) else entry) =
            rest.map matched := by
          rw [List.map_congr_left fun other listed => if_neg (behind other listed), List.map_id']
        rw [if_pos here, List.map_cons, List.map_cons, List.map_cons, kept]
        exact congrArg (· :: _) (if_pos here.symm).symm
      · rw [if_neg here, List.map_cons, List.map_cons, List.map_cons, ih apart]
        exact congrArg (· :: _) (if_neg (Ne.symm here)).symm

variable (map other : ProgressMap) (same : Same map other)

include same

theorem same_keys : map.keys.Perm other.keys := by
  have keys := same.map Prod.fst
  simp only [List.map_map] at keys
  exact keys

theorem same_mem (node : NodeId) : node ∈ map ↔ node ∈ other := by
  rw [AList.mem_keys, AList.mem_keys]
  exact (same_keys map other same).mem_iff

theorem same_found (node : NodeId) (progress : Progress) (found : map.lookup node = some progress) :
    ∃ kept, other.lookup node = some kept ∧ kept.matchIndex = progress.matchIndex := by
  have entry : (⟨node, progress⟩ : Sigma fun _ : NodeId => Progress) ∈ map.entries := AList.mem_lookup_iff.mp found
  obtain ⟨⟨name, kept⟩, member, equal⟩ := List.mem_map.mp (same.mem_iff.mp (List.mem_map_of_mem entry))
  obtain ⟨rfl, index⟩ := Prod.mk.inj equal
  exact ⟨kept, AList.mem_lookup_iff.mpr member, index⟩

theorem same_absent (node : NodeId) (absent : map.lookup node = none) : other.lookup node = none := by
  rw [AList.lookup_eq_none] at absent ⊢
  exact fun member => absent ((same_mem map other same node).mpr member)

theorem same_assign (node : NodeId) (progress kept : Progress) (index : progress.matchIndex = kept.matchIndex) :
    Same (assign map node progress) (assign other node kept) := by
  have here : (assign map node progress).entries.map matched = _ := matched_kreplace map.entries map.nodupKeys node progress
  have there : (assign other node kept).entries.map matched = _ := matched_kreplace other.entries other.nodupKeys node kept
  rw [Same, here, there, index]
  exact same.map _

theorem same_counted (bound : Nat) : (map.entries.filter fun entry => entry.2.matchIndex ≥ bound).length =
    (other.entries.filter fun entry => entry.2.matchIndex ≥ bound).length := by
  have counted : ∀ entries : List (Sigma fun _ : NodeId => Progress),
      (entries.filter fun entry => entry.2.matchIndex ≥ bound).length =
        ((entries.map matched).filter fun entry => entry.2 ≥ bound).length := by
    intro entries
    rw [List.filter_map, List.length_map]
    rfl
  rw [counted, counted]
  exact (same.filter _).length_eq

end Map

-- One node with its maps in another order.
def swap (raft : Raft) (voters learners : ProgressMap) : Raft := { raft with voters := voters, learners := learners }

def Alike (raft other : Raft) : Prop :=
  Same raft.voters other.voters ∧ Same raft.learners other.learners ∧ other = swap raft other.voters other.learners

-- The effects name their peers and their targets in the maps' order.
inductive SameEffect : Effect → Effect → Prop where
  | requestVotes (hardState : State) (request : VoteRequest) (peers others : List NodeId) (perm : peers.Perm others) :
      SameEffect (.sendRequestVotes hardState peers request) (.sendRequestVotes hardState others request)
  | heartbeat (request : HeartbeatRequest) (peers others : List NodeId) (perm : peers.Perm others) :
      SameEffect (.sendHeartbeat peers request) (.sendHeartbeat others request)
  | appendEntries (operationId : OperationId) (targets others : List ReplicationTarget) (perm : targets.Perm others) :
      SameEffect (.sendAppendEntries operationId targets) (.sendAppendEntries operationId others)
  | same (effect : Effect) : SameEffect effect effect

inductive SameResult : Except Error (Option Effect) → Except Error (Option Effect) → Prop where
  | error (error : Error) : SameResult (.error error) (.error error)
  | none : SameResult (.ok none) (.ok none)
  | effect (effect other : Effect) (same : SameEffect effect other) : SameResult (.ok (some effect)) (.ok (some other))

inductive SameOutcome : Handled → Handled → Prop where
  | panic (panic : Panic) : SameOutcome (.error panic) (.error panic)
  | handled (next after : Raft) (result answer : Except Error (Option Effect)) (alike : Alike next after)
      (same : SameResult result answer) : SameOutcome (.ok (next, result)) (.ok (after, answer))

theorem same_ite {condition other : Prop} [Decidable condition] [Decidable other] {yes no first second : Handled}
    (asks : condition ↔ other) (holds : condition → SameOutcome yes first) (fails : ¬ condition → SameOutcome no second) :
    SameOutcome (if condition then yes else no) (if other then first else second) := by
  by_cases here : condition
  · rw [if_pos here, if_pos (asks.mp here)]
    exact holds here
  · rw [if_neg here, if_neg fun there => here (asks.mpr there)]
    exact fails here

theorem peers_alike (raft : Raft) (voters learners : ProgressMap) (same : Same raft.voters voters) :
    raft.peers.Perm (swap raft voters learners).peers := (same_keys raft.voters voters same).filter _

section Handlers

variable (raft : Raft) (voters learners : ProgressMap) (sameVoters : Same raft.voters voters)
  (sameLearners : Same raft.learners learners)

include sameVoters sameLearners

theorem targets_alike : raft.replicationTargets.Perm (swap raft voters learners).replicationTargets := by
  have targets : ∀ some : Raft, some.replicationTargets =
      (((some.voters.entries ++ some.learners.entries).map matched).filter fun entry => entry.1 ≠ some.id).map fun entry =>
        some.target entry.1 (min entry.2 some.lastLogIndex) some.lastLogTerm := by
    intro some
    rw [List.filter_map, List.map_map]
    rfl
  rw [targets, targets, List.map_append, List.map_append]
  exact ((sameVoters.append sameLearners).filter _).map _

theorem timeout_alike : SameOutcome (handleElectionTimeout raft) (handleElectionTimeout (swap raft voters learners)) := by
  have peers := peers_alike raft voters learners sameVoters
  unfold handleElectionTimeout
  rw [show (swap raft voters learners).currentTerm = raft.currentTerm from rfl]
  cases addU64 raft.currentTerm 1 with
  | error panic => exact .panic panic
  | ok term => exact .handled _ _ _ _ ⟨sameVoters, sameLearners, rfl⟩ (.effect _ _ (.requestVotes _ _ _ _ peers))

theorem request_vote_alike (request : VoteRequest) :
    SameOutcome (handleRequestVote raft request) (handleRequestVote (swap raft voters learners) request) := by
  unfold handleRequestVote swap candidateLogIsUpToDate Raft.hardState
  dsimp only
  by_cases newer : request.term > raft.currentTerm
  · simp only [newer, decide_true, if_true]
    split
    · exact .handled _ _ _ _ ⟨sameVoters, sameLearners, rfl⟩ (.effect _ _ (.same _))
    · exact .handled _ _ _ _ ⟨sameVoters, sameLearners, rfl⟩ (.effect _ _ (.same _))
  · simp only [newer, decide_false, Bool.false_eq_true, if_false]
    split
    · exact .handled _ _ _ _ ⟨sameVoters, sameLearners, rfl⟩ (.effect _ _ (.same _))
    · exact .handled _ _ _ _ ⟨sameVoters, sameLearners, rfl⟩ (.effect _ _ (.same _))

theorem heartbeat_timeout_alike :
    SameOutcome (handleHeartbeatTimeout raft) (handleHeartbeatTimeout (swap raft voters learners)) := by
  have alike : Alike raft (swap raft voters learners) := ⟨sameVoters, sameLearners, rfl⟩
  refine same_ite Iff.rfl (fun _role => ?_) fun _leader => ?_
  · exact .handled _ _ _ _ alike (.error _)
  · exact .handled _ _ _ _ alike (.effect _ _ (.heartbeat _ _ _ (peers_alike raft voters learners sameVoters)))

theorem heartbeat_alike (request : HeartbeatRequest) :
    SameOutcome (handleHeartbeat raft request) (handleHeartbeat (swap raft voters learners) request) := by
  have alike : Alike raft (swap raft voters learners) := ⟨sameVoters, sameLearners, rfl⟩
  by_cases stale : request.term < raft.currentTerm
  · have here : handleHeartbeat raft request = _ := if_pos stale
    have there : handleHeartbeat (swap raft voters learners) request = _ := if_pos stale
    rw [here, there]
    exact .handled _ _ _ _ alike (.effect _ _ (.same _))
  have fresh := Nat.le_of_not_lt stale
  rw [handle_fresh_heartbeat raft request fresh, handle_fresh_heartbeat (swap raft voters learners) request fresh]
  refine same_ite Iff.rfl (fun _mismatched => ?_) fun _matching => same_ite Iff.rfl (fun _raised => ?_) fun _kept => ?_
  · exact .handled _ _ _ _ ⟨sameVoters, sameLearners, rfl⟩ (.effect _ _ (.same _))
  · exact .handled _ _ _ _ ⟨sameVoters, sameLearners, rfl⟩ (.effect _ _ (.same _))
  · exact .handled _ _ _ _ ⟨sameVoters, sameLearners, rfl⟩ (.effect _ _ (.same _))

theorem append_entries_alike (received : ReceivedAppendEntries) :
    SameOutcome (handleAppendEntries raft received) (handleAppendEntries (swap raft voters learners) received) := by
  refine same_ite Iff.rfl (fun _stale => ?_) fun _fresh => ?_
  · exact .handled _ _ _ _ ⟨sameVoters, sameLearners, rfl⟩ (.effect _ _ (.same _))
  refine same_ite Iff.rfl (fun _rejected => ?_) fun _matching => ?_
  · exact .handled _ _ _ _ ⟨sameVoters, sameLearners, rfl⟩ (.effect _ _ (.same _))
  refine same_ite Iff.rfl (fun _cut => ?_) fun _kept => ?_
  · exact .handled _ _ _ _ ⟨sameVoters, sameLearners, rfl⟩ (.effect _ _ (.same _))
  unfold swap
  dsimp only
  by_cases newer : received.request.term > raft.currentTerm
  · simp only [if_pos newer]
    exact .handled _ _ _ _ ⟨sameVoters, sameLearners, rfl⟩ (.effect _ _ (.same _))
  · simp only [if_neg newer]
    exact .handled _ _ _ _ ⟨sameVoters, sameLearners, rfl⟩ (.effect _ _ (.same _))

theorem vote_response_alike (received : ReceivedVoteResponse) :
    SameOutcome (handleVoteResponse raft received) (handleVoteResponse (swap raft voters learners) received) := by
  have alike : Alike raft (swap raft voters learners) := ⟨sameVoters, sameLearners, rfl⟩
  have member := same_mem raft.voters voters sameVoters received.sender
  have count : raft.voters.keys.length = voters.keys.length := (same_keys raft.voters voters sameVoters).length_eq
  refine same_ite Iff.rfl (fun _newer => ?_) fun _older => ?_
  · exact .handled _ _ _ _ ⟨sameVoters, sameLearners, rfl⟩ .none
  refine same_ite Iff.rfl (fun _idle => ?_) fun _candidate => ?_
  · exact .handled _ _ _ _ alike (.error _)
  refine same_ite (or_congr_right (or_congr_left (not_congr member))) (fun _ignored => ?_) fun _counts => ?_
  · exact .handled _ _ _ _ alike .none
  refine same_ite (by dsimp only [swap]; rw [count]) (fun _most => ?_) fun _few => ?_
  · exact .handled _ _ _ _ ⟨sameVoters, sameLearners, rfl⟩
      (.effect _ _ (.heartbeat _ _ _ (peers_alike raft voters learners sameVoters)))
  · exact .handled _ _ _ _ ⟨sameVoters, sameLearners, rfl⟩ .none

theorem persisted_alike (entries : PersistedEntries) :
    SameOutcome (handleEntriesPersisted raft entries) (handleEntriesPersisted (swap raft voters learners) entries) := by
  refine same_ite Iff.rfl (fun _raised => ?_) fun _kept => ?_
  · exact .handled _ _ _ _ ⟨sameVoters, sameLearners, rfl⟩ (.effect _ _ (.same _))
  · exact .handled _ _ _ _ ⟨sameVoters, sameLearners, rfl⟩ .none

theorem applied_alike (entries : AppliedEntries) :
    SameOutcome (handleEntriesApplied raft entries) (handleEntriesApplied (swap raft voters learners) entries) := by
  refine same_ite Iff.rfl (fun _leader => ?_) fun _other => ?_
  · exact .handled _ _ _ _ ⟨sameVoters, sameLearners, rfl⟩ (.effect _ _ (.same _))
  · exact .handled _ _ _ _ ⟨sameVoters, sameLearners, rfl⟩ .none

theorem write_alike (operationId : OperationId) :
    SameOutcome (handleWrite raft operationId) (handleWrite (swap raft voters learners) operationId) := by
  refine same_ite Iff.rfl (fun _role => ?_) fun _leader => ?_
  · exact .handled _ _ _ _ ⟨sameVoters, sameLearners, rfl⟩ (.error _)
  · exact .handled _ _ _ _ ⟨sameVoters, sameLearners, rfl⟩ (.effect _ _ (.same _))

theorem heartbeat_response_alike (received : ReceivedHeartbeatResponse) :
    SameOutcome (handleHeartbeatResponse raft received) (handleHeartbeatResponse (swap raft voters learners) received) := by
  have alike : Alike raft (swap raft voters learners) := ⟨sameVoters, sameLearners, rfl⟩
  refine same_ite Iff.rfl (fun _newer => ?_) fun _term => ?_
  · exact .handled _ _ _ _ ⟨sameVoters, sameLearners, rfl⟩ .none
  refine same_ite Iff.rfl (fun _role => ?_) fun _leader => ?_
  · exact .handled _ _ _ _ alike (.error _)
  refine same_ite Iff.rfl (fun _older => ?_) fun _current => ?_
  · exact .handled _ _ _ _ alike .none
  -- a peer's next_index is moved from its old one, its match_index is not
  have moved : ∀ progress kept : Progress, kept.matchIndex = progress.matchIndex →
      (heartbeatProgress raft.lastLogIndex progress received.response).matchIndex =
        (heartbeatProgress raft.lastLogIndex kept received.response).matchIndex := by
    intro progress kept index
    unfold heartbeatProgress
    split
    · rw [index]
    · exact index.symm
  unfold swap
  dsimp only
  cases found : raft.voters.lookup received.sender with
  | some progress =>
      obtain ⟨kept, there, index⟩ := same_found raft.voters voters sameVoters received.sender progress found
      simp only [there]
      exact .handled _ _ _ _ ⟨same_assign _ _ sameVoters _ _ _ (moved progress kept index), sameLearners, rfl⟩ .none
  | none =>
      simp only [same_absent raft.voters voters sameVoters received.sender found]
      cases learner : raft.learners.lookup received.sender with
      | some progress =>
          obtain ⟨kept, there, index⟩ := same_found raft.learners learners sameLearners received.sender progress learner
          simp only [there]
          exact .handled _ _ _ _ ⟨sameVoters, same_assign _ _ sameLearners _ _ _ (moved progress kept index), rfl⟩ .none
      | none =>
          simp only [same_absent raft.learners learners sameLearners received.sender learner]
          exact .handled _ _ _ _ ⟨sameVoters, sameLearners, rfl⟩ .none

theorem append_response_alike (received : ReceivedAppendEntriesResponse) :
    SameOutcome (handleAppendEntriesResponse raft received) (handleAppendEntriesResponse (swap raft voters learners) received) := by
  have alike : Alike raft (swap raft voters learners) := ⟨sameVoters, sameLearners, rfl⟩
  refine same_ite Iff.rfl (fun _role => ?_) fun _leader => ?_
  · exact .handled _ _ _ _ alike (.error _)
  refine same_ite Iff.rfl (fun _newer => ?_) fun _term => ?_
  · exact .handled _ _ _ _ ⟨sameVoters, sameLearners, rfl⟩ (.error _)
  refine same_ite Iff.rfl (fun _ahead => .panic _) fun _notAhead => ?_
  refine same_ite Iff.rfl (fun _behind => ?_) fun _considered => ?_
  · exact .handled _ _ _ _ alike (.effect _ _ (.same _))
  refine same_ite Iff.rfl (fun _ahead => .panic _) fun _within => ?_
  have assigned : ∀ map other : ProgressMap, Same map other → ∀ progress : Progress,
      Same (assign map received.sender progress) (assign other received.sender progress) :=
    fun map other same progress => same_assign map other same received.sender progress progress rfl
  refine same_ite (same_mem raft.learners learners sameLearners received.sender) (fun _learner => ?_) fun _other => ?_
  · cases addU64 received.response.lastLogIndex 1 with
    | error panic => exact .panic panic
    | ok nextIndex =>
        refine same_ite Iff.rfl (fun _behind => ?_) fun _reached => ?_
        · exact .handled _ _ _ _ ⟨sameVoters, assigned _ _ sameLearners _, rfl⟩ (.effect _ _ (.same _))
        · exact .handled _ _ _ _ ⟨sameVoters, assigned _ _ sameLearners _, rfl⟩ .none
  refine same_ite (same_mem raft.voters voters sameVoters received.sender) (fun _voter => ?_) fun _stranger => ?_
  · cases addU64 received.response.lastLogIndex 1 with
    | error panic => exact .panic panic
    | ok nextIndex =>
        have voted := assigned _ _ sameVoters ⟨nextIndex, received.response.lastLogIndex⟩
        refine same_ite Iff.rfl (fun _behind => ?_) fun _reached => ?_
        · exact .handled _ _ _ _ ⟨voted, sameLearners, rfl⟩ (.effect _ _ (.same _))
        have quorum : (assign raft.voters received.sender ⟨nextIndex, received.response.lastLogIndex⟩).keys.length =
            (assign voters received.sender ⟨nextIndex, received.response.lastLogIndex⟩).keys.length :=
          (same_keys _ _ voted).length_eq
        have caughtUp := same_counted _ _ voted raft.lastLogIndex
        refine same_ite (by unfold Raft.caughtUp swap; dsimp only; rw [caughtUp, quorum]) (fun _most => ?_) fun _few => ?_
        · exact .handled _ _ _ _ ⟨voted, sameLearners, rfl⟩ (.effect _ _ (.same _))
        · exact .handled _ _ _ _ ⟨voted, sameLearners, rfl⟩ .none
  · exact .handled _ _ _ _ alike .none

theorem local_entry_alike (entry : LocalEntry) :
    SameOutcome (handleLocalEntryAppended raft entry) (handleLocalEntryAppended (swap raft voters learners) entry) := by
  have alike : Alike raft (swap raft voters learners) := ⟨sameVoters, sameLearners, rfl⟩
  have targets := targets_alike raft voters learners sameVoters sameLearners
  have member := same_mem raft.voters voters sameVoters raft.id
  have empty : (swap raft voters learners).replicationTargets.isEmpty = raft.replicationTargets.isEmpty := by
    rw [Bool.eq_iff_iff, List.isEmpty_iff, List.isEmpty_iff]
    exact ⟨fun none => (none ▸ targets).eq_nil, fun none => (none ▸ targets).symm.eq_nil⟩
  unfold handleLocalEntryAppended
  refine same_ite Iff.rfl (fun _role => ?_) fun _leader => ?_
  · exact .handled _ _ _ _ alike (.error _)
  refine same_ite (not_congr member) (fun _stranger => .panic _) fun _voter => ?_
  dsimp only
  cases addU64 entry.index 1 with
  | error panic => exact .panic panic
  | ok nextIndex =>
      simp only [bind, Except.bind, pure, Except.pure, empty]
      have assigned : ∀ progress : Progress, Same (assign raft.voters raft.id progress) (assign voters raft.id progress) :=
        fun progress => same_assign raft.voters voters sameVoters raft.id progress progress rfl
      refine same_ite Iff.rfl (fun _alone => ?_) fun _others => ?_
      · exact .handled _ _ _ _ ⟨assigned _, sameLearners, rfl⟩ (.effect _ _ (.same _))
      · exact .handled _ _ _ _ ⟨assigned _, sameLearners, rfl⟩ (.effect _ _ (.appendEntries _ _ _ targets))

end Handlers

theorem handle_alike (raft other : Raft) (alike : Alike raft other) (event : Event) :
    SameOutcome (handle raft event) (handle other event) := by
  obtain ⟨sameVoters, sameLearners, swapped⟩ := alike
  rw [swapped]
  cases event with
  | write operationId => exact write_alike raft _ _ sameVoters sameLearners operationId
  | localEntriesAppended entry => exact local_entry_alike raft _ _ sameVoters sameLearners entry
  | entriesPersisted entries => exact persisted_alike raft _ _ sameVoters sameLearners entries
  | entriesApplied entries => exact applied_alike raft _ _ sameVoters sameLearners entries
  | requestVote request => exact request_vote_alike raft _ _ sameVoters sameLearners request
  | appendEntries received => exact append_entries_alike raft _ _ sameVoters sameLearners received
  | voteResponse received => exact vote_response_alike raft _ _ sameVoters sameLearners received
  | heartbeat request => exact heartbeat_alike raft _ _ sameVoters sameLearners request
  | heartbeatResponse received => exact heartbeat_response_alike raft _ _ sameVoters sameLearners received
  | electionTimeout => exact timeout_alike raft _ _ sameVoters sameLearners
  | heartbeatTimeout => exact heartbeat_timeout_alike raft _ _ sameVoters sameLearners
  | appendEntriesResponse received => exact append_response_alike raft _ _ sameVoters sameLearners received

theorem alike_refl (raft : Raft) : Alike raft raft := ⟨.refl _, .refl _, rfl⟩

theorem alike_symm (raft other : Raft) (alike : Alike raft other) : Alike other raft := by
  obtain ⟨sameVoters, sameLearners, swapped⟩ := alike
  refine ⟨sameVoters.symm, sameLearners.symm, ?_⟩
  rw [swapped]
  rfl

theorem alike_trans (raft other third : Raft) (first : Alike raft other) (second : Alike other third) : Alike raft third := by
  obtain ⟨sameVoters, sameLearners, swapped⟩ := first
  obtain ⟨laterVoters, laterLearners, again⟩ := second
  refine ⟨sameVoters.trans laterVoters, sameLearners.trans laterLearners, ?_⟩
  rw [again, swapped]
  rfl

abbrev Answer := Except Error (Option Effect)

def node (raft : Raft) : Object Raft Event Answer :=
  ⟨fun start => start = raft, fun raft event answer next => handle raft event = .ok (next, answer)⟩

-- What a node answers to a list of events, newest first.
def listen : List Event → List (Event × Answer) → Raft → Option (List (Event × Answer) × Raft)
  | [], trace, raft => some (trace, raft)
  | event :: rest, trace, raft =>
      match handle raft event with
      | .ok (next, answer) => listen rest ((event, answer) :: trace) next
      | .error _ => none

theorem listen_trace (start raft last : Raft) (events : List Event) (trace later : List (Event × Answer))
    (run : Trace (node start) trace raft) (listens : listen events trace raft = some (later, last)) :
    Trace (node start) later last := by
  induction events generalizing trace raft with
  | nil =>
      cases listens
      exact run
  | cons event rest ih =>
      rw [listen] at listens
      split at listens
      · rename_i next answer handled
        exact ih next _ (.step trace raft next event answer run handled) listens
      · cases listens

-- Before every event the maps are given in another order, and other values of next_index.
def shuffled (raft : Raft) : Object Raft Event Answer where
  start start := Alike raft start
  step raft event answer next := ∃ given, Alike raft given ∧ handle given event = .ok (next, answer)

def SameMoment (moment other : Event × Answer) : Prop := moment.1 = other.1 ∧ SameResult moment.2 other.2

-- No order of the maps and no next_index shows in what a node does, but for the order in
-- which its effects name the peers.
theorem order_irrelevant (raft last : Raft) (trace : List (Event × Answer)) (run : Trace (shuffled raft) trace last) :
    ∃ plain final, Trace (node raft) plain final ∧ List.Forall₂ SameMoment trace plain ∧ Alike last final ∧
      ∀ given, Alike last given → ∀ event, SameOutcome (handle given event) (handle final event) := by
  have follows : ∃ plain final, Trace (node raft) plain final ∧ List.Forall₂ SameMoment trace plain ∧ Alike last final := by
    induction run with
    | start state alike => exact ⟨[], raft, .start raft rfl, .nil, alike_symm raft state alike⟩
    | step trace state next event answer _ moves ih =>
        obtain ⟨plain, final, before, same, alike⟩ := ih
        obtain ⟨given, shuffle, handled⟩ := moves
        have agree := handle_alike given final (alike_trans _ _ _ (alike_symm _ _ shuffle) alike) event
        rw [handled] at agree
        cases outcome : handle final event with
        | error panic =>
            rw [outcome] at agree
            cases agree
        | ok after =>
            rw [outcome] at agree
            cases agree with
            | handled _ after _ reply later sameReply =>
                exact ⟨(event, reply) :: plain, after, .step plain final after event reply before outcome,
                  .cons ⟨rfl, sameReply⟩ same, later⟩
  obtain ⟨plain, final, run, same, alike⟩ := follows
  exact ⟨plain, final, run, same, alike,
    fun given shuffle event => handle_alike given final (alike_trans _ _ _ (alike_symm _ _ shuffle) alike) event⟩

def listed : Raft := newRaft nodeA threeNodes 1 ⟨7, none⟩

def backwards : Raft := newRaft nodeA threeNodes.reverse 1 ⟨7, none⟩

def campaigned : Raft :=
  { backwards with currentTerm := 8, votedFor := some nodeA, grantedVotes := {nodeA}, role := .candidate }

-- The peers come in the other order.
def campaign (peers : List NodeId) : Event × Answer :=
  (.electionTimeout, .ok (some (.sendRequestVotes ⟨8, some nodeA⟩ peers ⟨8, nodeA, 0, 0⟩)))

theorem backwards_campaign : ∃ plain final, Trace (node listed) plain final ∧
    List.Forall₂ SameMoment [campaign [nodeC, nodeB]] plain ∧ Alike campaigned final := by
  have alike : Alike listed backwards := ⟨by unfold Same; decide +kernel, .refl _, rfl⟩
  have moves : (shuffled listed).step backwards Event.electionTimeout (campaign [nodeC, nodeB]).2 campaigned :=
    ⟨backwards, alike_refl backwards, rfl⟩
  have run : Trace (shuffled listed) [campaign [nodeC, nodeB]] campaigned :=
    Trace.step [] backwards campaigned _ _ (Trace.start backwards alike) moves
  obtain ⟨plain, final, plainRun, same, last, _⟩ := order_irrelevant listed campaigned [campaign [nodeC, nodeB]] run
  exact ⟨plain, final, plainRun, same, last⟩

end RaftLog.Iteration
