import RaftLog.Core.Placement

set_option autoImplicit false

namespace RaftLog

def matchOf (map : ProgressMap) (node : NodeId) : Nat := ((map.lookup node).map Progress.matchIndex).getD 0

-- The progress that a response leaves behind.
def reported (received : ReceivedAppendEntriesResponse) : Progress :=
  ⟨received.response.lastLogIndex + 1, received.response.lastLogIndex⟩

theorem assign_same_iff (map : ProgressMap) (node : NodeId) (progress : Progress) (member : node ∈ map) :
    assign map node progress = map ↔ map.lookup node = some progress := by
  constructor
  · intro same
    have found := lookup_assign map node node progress member
    rwa [same, if_pos rfl] at found
  · intro found
    apply AList.ext
    exact List.kreplace_self map.nodupKeys ((List.mem_dlookup_iff map.nodupKeys).mp found)

theorem match_of_assign (map : ProgressMap) (node key : NodeId) (progress : Progress) (member : node ∈ map) :
    matchOf (assign map node progress) key = if key = node then progress.matchIndex else matchOf map key := by
  rw [matchOf, lookup_assign map node key progress member]
  by_cases here : key = node
  · rw [if_pos here, if_pos here]
    rfl
  · rw [if_neg here, if_neg here]
    rfl

-- Who reaches an index is the same when the progress that is replaced reached it as well.
theorem reaching_kreplace (entries : List (Sigma fun _ : NodeId => Progress)) (node : NodeId) (old progress : Progress)
    (found : entries.dlookup node = some old) (bound : Nat) (before : bound ≤ old.matchIndex) (after : bound ≤ progress.matchIndex) :
    ((List.kreplace node progress entries).filter fun entry => entry.2.matchIndex ≥ bound).length =
      (entries.filter fun entry => entry.2.matchIndex ≥ bound).length := by
  induction entries with
  | nil => rfl
  | cons entry rest ih =>
      obtain ⟨name, first⟩ := entry
      by_cases here : node = name
      · subst here
        rw [List.dlookup_cons_eq] at found
        cases found
        rw [kreplace_cons, if_pos rfl, List.filter_cons_of_pos (by simpa using after),
          List.filter_cons_of_pos (by simpa using before)]
        rfl
      · rw [List.dlookup_cons_ne _ _ here] at found
        rw [kreplace_cons, if_neg here]
        by_cases reaches : bound ≤ first.matchIndex
        · rw [List.filter_cons_of_pos (by simpa using reaches), List.filter_cons_of_pos (by simpa using reaches),
            List.length_cons, List.length_cons, ih found]
        · rw [List.filter_cons_of_neg (by simpa using reaches), List.filter_cons_of_neg (by simpa using reaches), ih found]

theorem acknowledged_caught_up (raft : Raft) (received : ReceivedAppendEntriesResponse) (voter : received.sender ∈ raft.voters)
    (reaches : raft.lastLogIndex ≤ matchOf raft.voters received.sender)
    (last : raft.lastLogIndex ≤ received.response.lastLogIndex) :
    (acknowledgedRaft raft received).caughtUp = raft.caughtUp := by
  obtain ⟨old, found⟩ := Option.isSome_iff_exists.mp (AList.lookup_isSome.mpr voter)
  rw [matchOf, found] at reaches
  exact reaching_kreplace raft.voters.entries received.sender old _ found raft.lastLogIndex reaches last

-- The panic of the overflow check.
def overflow : Panic := ⟨"attempt to add with overflow"⟩

theorem add_u64_overflow (left right : Nat) (most : ¬ left + right ≤ u64Max) : addU64 left right = .error overflow := if_neg most

theorem considered_reaches (raft : Raft) (received : ReceivedAppendEntriesResponse)
    (within : received.response.lastLogIndex ≤ raft.lastLogIndex)
    (considered : ¬ (received.response.success = false ∧ received.response.lastLogIndex < raft.lastLogIndex))
    (rejected : received.response.success = false) : received.response.lastLogIndex = raft.lastLogIndex :=
  Nat.le_antisymm within (Nat.le_of_not_lt fun behind => considered ⟨rejected, behind⟩)

-- Everything a leader makes of a response of its own term or an earlier one.
inductive Outcome (raft : Raft) (received : ReceivedAppendEntriesResponse) : Handled → Prop where
  | ahead (ahead : raft.lastLogIndex < received.response.lastLogIndex) (panic : Panic) (asserts : panic ≠ overflow) :
      Outcome raft received (.error panic)
  | retried (rejected : received.response.success = false) (behind : received.response.lastLogIndex < raft.lastLogIndex) :
      Outcome raft received (.ok (raft, .ok (some (raft.retry received))))
  | overflow (known : received.sender ∈ raft.learners ∨ received.sender ∈ raft.voters)
      (full : u64Max ≤ received.response.lastLogIndex) (panic : Panic)
      (sum : addU64 received.response.lastLogIndex 1 = .error panic)
      (within : received.response.lastLogIndex ≤ raft.lastLogIndex)
      (considered : received.response.success = false → received.response.lastLogIndex = raft.lastLogIndex) :
      Outcome raft received (.error panic)
  | stranger (within : received.response.lastLogIndex ≤ raft.lastLogIndex)
      (considered : received.response.success = false → received.response.lastLogIndex = raft.lastLogIndex)
      (notLearner : received.sender ∉ raft.learners) (notVoter : received.sender ∉ raft.voters) :
      Outcome raft received (.ok (raft, .ok none))
  | learnerBehind (behind : received.response.lastLogIndex < raft.lastLogIndex) (accepted : received.response.success = true)
      (learner : received.sender ∈ raft.learners) (fits : received.response.lastLogIndex < u64Max) :
      Outcome raft received (.ok ({ raft with learners := assign raft.learners received.sender (reported received) },
        .ok (some (raft.retry received))))
  | learnerReaches (same : received.response.lastLogIndex = raft.lastLogIndex)
      (fits : received.response.lastLogIndex < u64Max) (learner : received.sender ∈ raft.learners) :
      Outcome raft received (.ok ({ raft with learners := assign raft.learners received.sender (reported received) }, .ok none))
  | voterBehind (behind : received.response.lastLogIndex < raft.lastLogIndex) (accepted : received.response.success = true)
      (notLearner : received.sender ∉ raft.learners) (voter : received.sender ∈ raft.voters)
      (fits : received.response.lastLogIndex < u64Max) :
      Outcome raft received (.ok (acknowledgedRaft raft received, .ok (some (raft.retry received))))
  | commits (same : received.response.lastLogIndex = raft.lastLogIndex) (notLearner : received.sender ∉ raft.learners)
      (voter : received.sender ∈ raft.voters)
      (most : (acknowledgedRaft raft received).caughtUp > raft.voters.keys.length / 2)
      (fresh : raft.commitIndex < raft.lastLogIndex) (fits : received.response.lastLogIndex < u64Max) :
      Outcome raft received (.ok ({ acknowledgedRaft raft received with commitIndex := raft.lastLogIndex },
        .ok (some (.applyCommitted received.operationId raft.lastLogIndex))))
  | counted (same : received.response.lastLogIndex = raft.lastLogIndex) (fits : received.response.lastLogIndex < u64Max)
      (notLearner : received.sender ∉ raft.learners) (voter : received.sender ∈ raft.voters)
      (few : ¬ ((acknowledgedRaft raft received).caughtUp > raft.voters.keys.length / 2 ∧
        raft.commitIndex < raft.lastLogIndex)) :
      Outcome raft received (.ok (acknowledgedRaft raft received, .ok none))

theorem learner_outcome (raft : Raft) (received : ReceivedAppendEntriesResponse) (leader : raft.role = .leader)
    (term : received.response.term ≤ raft.currentTerm) (within : received.response.lastLogIndex ≤ raft.lastLogIndex)
    (considered : ¬ (received.response.success = false ∧ received.response.lastLogIndex < raft.lastLogIndex))
    (learner : received.sender ∈ raft.learners) : Outcome raft received (handleAppendEntriesResponse raft received) := by
  rw [handleAppendEntriesResponse, if_neg (not_not.mpr leader), if_neg (Nat.not_lt_of_le term),
    if_neg fun both => Nat.not_lt_of_le within both.2, if_neg considered, if_neg (Nat.not_lt_of_le within), if_pos learner]
  by_cases fits : received.response.lastLogIndex < u64Max
  case neg =>
    have sum := add_u64_overflow received.response.lastLogIndex 1 fits
    rw [sum]
    exact .overflow (.inl learner) (Nat.le_of_not_lt fits) _ sum within (considered_reaches raft received within considered)
  rw [addU64, if_pos (show received.response.lastLogIndex + 1 ≤ u64Max from fits)]
  simp only [bind, Except.bind, pure, Except.pure]
  by_cases behind : received.response.lastLogIndex < raft.lastLogIndex
  · rw [if_pos behind]
    exact .learnerBehind behind (Bool.of_not_eq_false fun rejected => considered ⟨rejected, behind⟩) learner fits
  · rw [if_neg behind]
    exact .learnerReaches (Nat.le_antisymm within (Nat.le_of_not_lt behind)) fits learner

theorem voter_outcome (raft : Raft) (received : ReceivedAppendEntriesResponse) (leader : raft.role = .leader)
    (term : received.response.term ≤ raft.currentTerm) (within : received.response.lastLogIndex ≤ raft.lastLogIndex)
    (considered : ¬ (received.response.success = false ∧ received.response.lastLogIndex < raft.lastLogIndex))
    (notLearner : received.sender ∉ raft.learners) (voter : received.sender ∈ raft.voters) :
    Outcome raft received (handleAppendEntriesResponse raft received) := by
  rw [handleAppendEntriesResponse, if_neg (not_not.mpr leader), if_neg (Nat.not_lt_of_le term),
    if_neg fun both => Nat.not_lt_of_le within both.2, if_neg considered, if_neg (Nat.not_lt_of_le within),
    if_neg notLearner, if_pos voter]
  by_cases fits : received.response.lastLogIndex < u64Max
  case neg =>
    have sum := add_u64_overflow received.response.lastLogIndex 1 fits
    rw [sum]
    exact .overflow (.inr voter) (Nat.le_of_not_lt fits) _ sum within (considered_reaches raft received within considered)
  rw [addU64, if_pos (show received.response.lastLogIndex + 1 ≤ u64Max from fits)]
  simp only [bind, Except.bind, pure, Except.pure, keys_assign]
  by_cases behind : received.response.lastLogIndex < raft.lastLogIndex
  · rw [if_pos behind]
    exact .voterBehind behind (Bool.of_not_eq_false fun rejected => considered ⟨rejected, behind⟩) notLearner voter fits
  have same := Nat.le_antisymm within (Nat.le_of_not_lt behind)
  rw [if_neg behind]
  split
  · rename_i most
    exact .commits same notLearner voter most.1 most.2 fits
  · rename_i few
    exact .counted same fits notLearner voter few

theorem response_outcome (raft : Raft) (received : ReceivedAppendEntriesResponse) (leader : raft.role = .leader)
    (term : received.response.term ≤ raft.currentTerm) : Outcome raft received (handleAppendEntriesResponse raft received) := by
  by_cases ahead : received.response.lastLogIndex > raft.lastLogIndex
  · rw [handleAppendEntriesResponse, if_neg (not_not.mpr leader), if_neg (Nat.not_lt_of_le term)]
    by_cases rejected : received.response.success = false
    · rw [if_pos ⟨rejected, ahead⟩]
      exact .ahead ahead _ (by simp [overflow])
    · rw [if_neg fun both => rejected both.1, if_neg fun both => rejected both.1, if_pos ahead]
      exact .ahead ahead _ (by simp [overflow])
  by_cases considered : received.response.success = false ∧ received.response.lastLogIndex < raft.lastLogIndex
  · rw [handleAppendEntriesResponse, if_neg (not_not.mpr leader), if_neg (Nat.not_lt_of_le term),
      if_neg fun both => ahead both.2, if_pos considered]
    exact .retried considered.1 considered.2
  have within := Nat.le_of_not_lt ahead
  by_cases learner : received.sender ∈ raft.learners
  · exact learner_outcome raft received leader term within considered learner
  by_cases voter : received.sender ∈ raft.voters
  · exact voter_outcome raft received leader term within considered learner voter
  · rw [handleAppendEntriesResponse, if_neg (not_not.mpr leader), if_neg (Nat.not_lt_of_le term),
      if_neg fun both => ahead both.2, if_neg considered, if_neg ahead, if_neg learner, if_neg voter]
    exact .stranger within (considered_reaches raft received within considered) learner voter

-- A response that moves nothing forward.
structure Uncounted (raft next : Raft) (result : Except Error (Option Effect)) : Prop where
  voters : ∀ node, matchOf next.voters node ≤ matchOf raft.voters node
  learners : ∀ node, matchOf next.learners node ≤ matchOf raft.learners node
  commit : next.commitIndex = raft.commitIndex
  unapplied : ∀ operationId through, result ≠ .ok (some (.applyCommitted operationId through))

-- A majority is at the leader's last index and has not been committed.
def commitDue (raft : Raft) : Bool := raft.caughtUp > raft.voters.keys.length / 2 && raft.commitIndex < raft.lastLogIndex

-- A report of the leader's own last index is more than the leader knew of the sender, or
-- completes a majority that it already knew of.
def countsRejection (raft : Raft) (received : ReceivedAppendEntriesResponse) : Bool :=
  received.response.lastLogIndex == raft.lastLogIndex &&
    if received.sender ∈ raft.learners then decide (matchOf raft.learners received.sender < raft.lastLogIndex)
    else decide (received.sender ∈ raft.voters) &&
      (decide (matchOf raft.voters received.sender < raft.lastLogIndex) || commitDue raft)

theorem raised_nowhere (map : ProgressMap) (node : NodeId) (progress : Progress) (member : node ∈ map) :
    (∀ key, matchOf (assign map node progress) key ≤ matchOf map key) ↔ progress.matchIndex ≤ matchOf map node := by
  constructor
  · intro all
    have here := all node
    rwa [match_of_assign map node node progress member, if_pos rfl] at here
  · intro least key
    rw [match_of_assign map node key progress member]
    by_cases here : key = node
    · rw [if_pos here, here]
      exact least
    · rw [if_neg here]

theorem uncounted_iff (raft next : Raft) (received : ReceivedAppendEntriesResponse) (result : Except Error (Option Effect))
    (leader : raft.role = .leader) (term : received.response.term ≤ raft.currentTerm)
    (rejected : received.response.success = false)
    (handled : handle raft (.appendEntriesResponse received) = .ok (next, result)) :
    Uncounted raft next result ↔ countsRejection raft received = false := by
  have outcome := response_outcome raft received leader term
  rw [show handleAppendEntriesResponse raft received = .ok (next, result) from handled] at outcome
  have unmoved : Uncounted raft raft (.ok none) := ⟨fun _ => le_rfl, fun _ => le_rfl, rfl, by simp⟩
  cases outcome with
  | retried _ behind =>
      have moved : received.response.lastLogIndex ≠ raft.lastLogIndex := behind.ne
      exact iff_of_true ⟨unmoved.voters, unmoved.learners, rfl, by simp [Raft.retry]⟩ (by simp [countsRejection, moved])
  | stranger _ _ notLearner notVoter => exact iff_of_true unmoved (by simp [countsRejection, notLearner, notVoter])
  | learnerBehind _ accepted | voterBehind _ accepted =>
      rw [rejected] at accepted
      cases accepted
  | learnerReaches same _ learner =>
      have raised := raised_nowhere raft.learners received.sender (reported received) learner
      rw [countsRejection, same, beq_self_eq_true, Bool.true_and, if_pos learner, decide_eq_false_iff_not, Nat.not_lt,
        ← same]
      exact ⟨fun uncounted => raised.mp uncounted.learners,
        fun least => ⟨fun _ => le_rfl, raised.mpr least, rfl, by simp⟩⟩
  | commits same notLearner voter most fresh =>
      apply iff_of_false
      · intro uncounted
        have moved : raft.lastLogIndex = raft.commitIndex := uncounted.commit
        exact absurd fresh (moved ▸ Nat.lt_irrefl _)
      · intro spared
        simp only [countsRejection, same, beq_self_eq_true, Bool.true_and, if_neg notLearner, voter, decide_true,
          Bool.or_eq_false_iff, decide_eq_false_iff_not, Nat.not_lt] at spared
        rw [acknowledged_caught_up raft received voter spared.1 same.ge] at most
        rw [commitDue, decide_eq_true most, decide_eq_true fresh] at spared
        exact Bool.noConfusion spared.2
  | counted same _ notLearner voter few =>
      have raised := raised_nowhere raft.voters received.sender (reported received) voter
      have counted := acknowledged_caught_up raft received voter
      simp only [countsRejection, same, beq_self_eq_true, Bool.true_and, if_neg notLearner, voter, decide_true,
        Bool.or_eq_false_iff, decide_eq_false_iff_not, Nat.not_lt, commitDue, Bool.and_eq_false_imp, decide_eq_true_eq]
      constructor
      · intro uncounted
        have reaches := same.ge.trans (raised.mp uncounted.voters)
        rw [counted reaches same.ge] at few
        exact ⟨reaches, fun most => Nat.le_of_not_lt fun due => few ⟨most, due⟩⟩
      · intro spared
        exact ⟨raised.mpr (same.le.trans spared.1), fun _ => le_rfl, rfl, by simp⟩

-- A leader of term 2 that has appended its first entry.
def leaderAtOne : Raft :=
  { newRaft nodeA threeNodes 1 ⟨2, some nodeA⟩ with
    role := .leader, lastLogIndex := 1, lastLogTerm := 2
    voters := assign (newRaft nodeA threeNodes 1 ⟨2, some nodeA⟩).voters nodeA ⟨2, 1⟩ }

def answerOf (success : Bool) (term lastLogIndex lastLogTerm : Nat) : ReceivedAppendEntriesResponse :=
  ⟨⟨1⟩, nodeB, ⟨term, success, lastLogIndex, lastLogTerm, some nodeA⟩⟩

theorem empty_follower_uncounted :
    Uncounted leaderAtOne leaderAtOne (.ok (some (leaderAtOne.retry (answerOf false 2 0 0)))) :=
  (uncounted_iff leaderAtOne _ (answerOf false 2 0 0) _ rfl (by decide) rfl rfl).mpr (by decide)

-- The follower's only entry is another one, of term 1.
theorem rejection_commits :
    ¬ ∀ (raft next : Raft) (received : ReceivedAppendEntriesResponse) (result : Except Error (Option Effect)),
      raft.role = .leader → received.response.term ≤ raft.currentTerm → received.response.success = false →
        received.response.lastLogIndex ≤ raft.lastLogIndex →
        handle raft (.appendEntriesResponse received) = .ok (next, result) → Uncounted raft next result := by
  intro always
  have uncounted := always leaderAtOne _ (answerOf false 2 1 1) _ rfl (by decide) rfl (by decide) rfl
  cases uncounted.commit

-- Nothing unwinds, nothing changes and there is nothing to do.
def Inert (raft : Raft) (event : Event) : Prop :=
  ∃ result, handle raft event = .ok (raft, result) ∧ ∀ effect, result ≠ .ok (some effect)

def responseTerm : Event → Option Nat
  | .appendEntriesResponse received => some received.response.term
  | .heartbeatResponse received => some received.response.term
  | _ => none

-- The sender's progress is what the response reports, up to the leader's last index.
def alreadyKnown (raft : Raft) (map : ProgressMap) (received : ReceivedAppendEntriesResponse) : Bool :=
  received.response.lastLogIndex == raft.lastLogIndex && decide (received.response.lastLogIndex < u64Max) &&
    map.lookup received.sender == some (reported received)

def undisturbed (raft : Raft) : Event → Bool
  | .appendEntriesResponse received =>
      decide (received.response.lastLogIndex ≤ raft.lastLogIndex) &&
        (received.response.success || received.response.lastLogIndex == raft.lastLogIndex) &&
        if received.sender ∈ raft.learners then alreadyKnown raft raft.learners received
        else if received.sender ∈ raft.voters then alreadyKnown raft raft.voters received && !commitDue raft
        else true
  | _ => true

theorem not_inert_unwound (raft : Raft) (event : Event) (unwinds : ∃ panic, handle raft event = .error panic) : ¬ Inert raft event := by
  rintro ⟨result, handled, _⟩
  obtain ⟨panic, unwound⟩ := unwinds
  rw [unwound] at handled
  cases handled

theorem not_inert_effect (raft next : Raft) (event : Event) (effect : Effect)
    (handled : handle raft event = .ok (next, .ok (some effect))) : ¬ Inert raft event := by
  rintro ⟨result, quiet, none⟩
  rw [handled] at quiet
  cases quiet
  exact none effect rfl

theorem inert_next (raft next : Raft) (event : Event) (handled : handle raft event = .ok (next, .ok none)) :
    Inert raft event ↔ next = raft := by
  constructor
  · rintro ⟨result, quiet, _⟩
    rw [handled] at quiet
    cases quiet
    rfl
  · rintro rfl
    exact ⟨_, handled, by simp⟩

theorem same_learners (raft : Raft) (learners : ProgressMap) : { raft with learners := learners } = raft ↔ learners = raft.learners :=
  ⟨fun same => congrArg Raft.learners same, fun same => by rw [same]⟩

theorem same_voters (raft : Raft) (voters : ProgressMap) : { raft with voters := voters } = raft ↔ voters = raft.voters :=
  ⟨fun same => congrArg Raft.voters same, fun same => by rw [same]⟩

theorem undisturbed_considered (raft : Raft) (received : ReceivedAppendEntriesResponse)
    (within : received.response.lastLogIndex ≤ raft.lastLogIndex)
    (considered : received.response.success = false → received.response.lastLogIndex = raft.lastLogIndex) :
    undisturbed raft (.appendEntriesResponse received) =
      if received.sender ∈ raft.learners then alreadyKnown raft raft.learners received
      else if received.sender ∈ raft.voters then alreadyKnown raft raft.voters received && !commitDue raft
      else true := by
  have reports : (received.response.success || received.response.lastLogIndex == raft.lastLogIndex) = true := by
    cases success : received.response.success with
    | false => simp [considered success]
    | true => rfl
  rw [undisturbed, decide_eq_true within, reports]
  rfl

theorem already_known_iff (raft : Raft) (map : ProgressMap) (received : ReceivedAppendEntriesResponse)
    (same : received.response.lastLogIndex = raft.lastLogIndex) (fits : received.response.lastLogIndex < u64Max)
    (member : received.sender ∈ map) :
    alreadyKnown raft map received = true ↔ assign map received.sender (reported received) = map := by
  rw [assign_same_iff map received.sender (reported received) member]
  simp [alreadyKnown, same, same ▸ fits]

theorem append_response_inert_iff (raft : Raft) (received : ReceivedAppendEntriesResponse) (leader : raft.role = .leader)
    (term : received.response.term ≤ raft.currentTerm) :
    Inert raft (.appendEntriesResponse received) ↔ undisturbed raft (.appendEntriesResponse received) = true := by
  have outcome := response_outcome raft received leader term
  generalize answer : handleAppendEntriesResponse raft received = handled at outcome
  replace answer : handle raft (.appendEntriesResponse received) = handled := answer
  cases outcome with
  | ahead ahead panic =>
      exact iff_of_false (not_inert_unwound raft _ ⟨panic, answer⟩) (by simp [undisturbed, Nat.not_le_of_lt ahead])
  | retried rejected behind =>
      exact iff_of_false (not_inert_effect raft _ _ _ answer) (by simp [undisturbed, rejected, behind.ne])
  | overflow known full panic =>
      refine iff_of_false (not_inert_unwound raft _ ⟨panic, answer⟩) ?_
      rcases known with learner | voter
      · simp [undisturbed, alreadyKnown, learner, Nat.not_lt_of_le full]
      · simp [undisturbed, alreadyKnown, voter, Nat.not_lt_of_le full]
  | stranger within considered notLearner notVoter =>
      rw [undisturbed_considered raft received within considered, if_neg notLearner, if_neg notVoter]
      exact iff_of_true ((inert_next raft raft _ answer).mpr rfl) rfl
  | learnerBehind behind _ learner =>
      exact iff_of_false (not_inert_effect raft _ _ _ answer) (by simp [undisturbed, alreadyKnown, learner, behind.ne])
  | voterBehind behind _ notLearner voter =>
      exact iff_of_false (not_inert_effect raft _ _ _ answer)
        (by simp [undisturbed, alreadyKnown, notLearner, voter, behind.ne])
  | learnerReaches same fits learner =>
      rw [undisturbed_considered raft received same.le fun _ => same, if_pos learner, inert_next raft _ _ answer,
        same_learners, already_known_iff raft raft.learners received same fits learner]
  | commits same notLearner voter most fresh =>
      apply iff_of_false (not_inert_effect raft _ _ _ answer)
      rw [undisturbed_considered raft received same.le fun _ => same, if_neg notLearner, if_pos voter]
      intro spared
      obtain ⟨known, notDue⟩ := Bool.and_eq_true_iff.mp spared
      have found : raft.voters.lookup received.sender = some (reported received) := by
        simpa using (Bool.and_eq_true_iff.mp known).2
      have reaches : raft.lastLogIndex ≤ matchOf raft.voters received.sender := by
        rw [matchOf, found]
        exact same.ge
      rw [acknowledged_caught_up raft received voter reaches same.ge] at most
      rw [commitDue, decide_eq_true most, decide_eq_true fresh] at notDue
      exact Bool.noConfusion notDue
  | counted same fits notLearner voter few =>
      rw [undisturbed_considered raft received same.le fun _ => same, if_neg notLearner, if_pos voter,
        inert_next raft _ _ answer, acknowledgedRaft, same_voters, Bool.and_eq_true,
        already_known_iff raft raft.voters received same fits voter, Bool.not_eq_true', reported]
      refine ⟨fun unchanged => ⟨unchanged, ?_⟩, And.left⟩
      rw [acknowledgedRaft, unchanged] at few
      simpa [commitDue] using few

theorem inert_iff (raft : Raft) (event : Event) (term : Nat) (leader : raft.role = .leader)
    (response : responseTerm event = some term) (older : term < raft.currentTerm) :
    Inert raft event ↔ undisturbed raft event = true := by
  cases event with
  | appendEntriesResponse received =>
      cases response
      exact append_response_inert_iff raft received leader older.le
  | heartbeatResponse received =>
      cases response
      have answer : handle raft (.heartbeatResponse received) = .ok (raft, .ok none) := by
        rw [handle, handleHeartbeatResponse, if_neg (Nat.not_lt_of_lt older), if_neg (not_not.mpr leader), if_pos older]
      exact iff_of_true ((inert_next raft raft _ answer).mpr rfl) rfl
  | _ => cases response

theorem late_heartbeat_answer_inert : Inert leaderAtOne (.heartbeatResponse ⟨nodeB, ⟨1, true, 1, 1, some nodeA⟩⟩) :=
  (inert_iff leaderAtOne (.heartbeatResponse ⟨nodeB, ⟨1, true, 1, 1, some nodeA⟩⟩) 1 rfl rfl (by decide)).mpr rfl

-- An answer to an append of term 1 commits an entry of term 2.
theorem late_answer_commits :
    ¬ ∀ (raft : Raft) (event : Event) (term : Nat), raft.role = .leader → responseTerm event = some term →
      term < raft.currentTerm → Inert raft event := by
  intro always
  have inert := always leaderAtOne (.appendEntriesResponse (answerOf true 1 1 1)) 1 rfl rfl (by decide)
  exact not_inert_effect leaderAtOne _ (.appendEntriesResponse (answerOf true 1 1 1)) _ rfl inert

end RaftLog
