import RaftLog.Core.Steps
import RaftLog.Replication.Model

set_option autoImplicit false

namespace RaftLog.Replication

-- The turns of the drive loop that end it.
inductive Drives (operation : Operation) : Node → Event → Node → List Packet → Prop where
  | stops (node : Node) (event : Event) (raft : Raft) (result : Except Error (Option Effect))
      (handled : handle node.raft event = .ok (raft, result)) (idle : ∀ effect, result ≠ .ok (some effect)) :
      Drives operation node event { node with raft := raft } []
  | ends (node next : Node) (event : Event) (raft : Raft) (effect : Effect) (packets : List Packet)
      (handled : handle node.raft event = .ok (raft, .ok (some effect)))
      (executed : execute { node with raft := raft } operation effect = .ok (next, packets, none)) :
      Drives operation node event next packets
  | follows (node middle final : Node) (event following : Event) (raft : Raft) (effect : Effect)
      (packets more : List Packet) (handled : handle node.raft event = .ok (raft, .ok (some effect)))
      (executed : execute { node with raft := raft } operation effect = .ok (middle, packets, some following))
      (rest : Drives operation middle following final more) :
      Drives operation node event final (packets ++ more)

theorem drive_drives (fuel : Nat) (node final : Node) (operation : Operation) (event : Event) (packets : List Packet)
    (driven : drive fuel node operation event = some (.ok (final, packets))) :
    Drives operation node event final packets := by
  induction fuel generalizing node event packets with
  | zero => cases driven
  | succ fuel ih =>
      simp only [drive] at driven
      split at driven
      · cases driven
      · rename_i raft effect handled
        split at driven
        · cases driven
        · rename_i next sent executed
          cases driven
          exact .ends node _ event raft effect _ handled executed
        · rename_i middle sent following executed
          rw [Option.map_eq_some_iff] at driven
          obtain ⟨result, rest, joined⟩ := driven
          cases result with
          | error => cases joined
          | ok pair =>
              cases joined
              exact .follows node middle _ event following raft effect sent pair.2 handled executed (ih middle following pair.2 rest)
      · rename_i raft result idle handled
        cases driven
        exact .stops node event raft result handled idle

theorem drives_handled (operation : Operation) (node final : Node) (event : Event) (packets : List Packet)
    (drives : Drives operation node event final packets) :
    ∃ raft result, handle node.raft event = .ok (raft, result) := by
  cases drives with
  | stops _ _ raft result handled => exact ⟨raft, result, handled⟩
  | ends _ _ _ raft effect _ handled => exact ⟨raft, _, handled⟩
  | follows _ _ _ _ _ raft effect _ _ handled => exact ⟨raft, _, handled⟩

theorem drives_idle (operation : Operation) (node final : Node) (event : Event) (packets : List Packet) (raft : Raft)
    (result : Except Error (Option Effect)) (handled : handle node.raft event = .ok (raft, result))
    (idle : ∀ effect, result ≠ .ok (some effect)) (drives : Drives operation node event final packets) :
    final = { node with raft := raft } ∧ packets = [] := by
  cases drives with
  | stops _ _ other outcome same =>
      rw [handled] at same
      cases same
      exact ⟨rfl, rfl⟩
  | ends _ _ _ other effect _ same =>
      rw [handled] at same
      cases same
      exact absurd rfl (idle effect)
  | follows _ _ _ _ _ other effect _ _ same =>
      rw [handled] at same
      cases same
      exact absurd rfl (idle effect)

theorem drives_executed (operation : Operation) (node final : Node) (event : Event) (packets : List Packet) (raft : Raft)
    (effect : Effect) (handled : handle node.raft event = .ok (raft, .ok (some effect)))
    (drives : Drives operation node event final packets) :
    execute { node with raft := raft } operation effect = .ok (final, packets, none) ∨
      ∃ middle following sent more, execute { node with raft := raft } operation effect = .ok (middle, sent, some following) ∧
        Drives operation middle following final more ∧ packets = sent ++ more := by
  cases drives with
  | stops _ _ other outcome same idle =>
      rw [handled] at same
      cases same
      exact absurd rfl (idle effect)
  | ends _ _ _ other effect _ same executed =>
      rw [handled] at same
      cases same
      exact .inl executed
  | follows _ middle _ _ following other effect sent more same executed rest =>
      rw [handled] at same
      cases same
      exact .inr ⟨middle, following, sent, more, executed, rest, rfl⟩

-- An effect whose execution gives no event ends the turn.
theorem drives_ended (operation : Operation) (node final next : Node) (event : Event) (packets sent : List Packet)
    (raft : Raft) (effect : Effect) (handled : handle node.raft event = .ok (raft, .ok (some effect)))
    (executed : execute { node with raft := raft } operation effect = .ok (next, sent, none))
    (drives : Drives operation node event final packets) : final = next ∧ packets = sent := by
  rcases drives_executed operation node final event packets raft effect handled drives with same | ⟨_, _, _, _, same, _⟩
  · rw [executed] at same
    cases same
    exact ⟨rfl, rfl⟩
  · rw [executed] at same
    cases same

theorem drives_following (operation : Operation) (node final middle : Node) (event following : Event)
    (packets sent : List Packet) (raft : Raft) (effect : Effect)
    (handled : handle node.raft event = .ok (raft, .ok (some effect)))
    (executed : execute { node with raft := raft } operation effect = .ok (middle, sent, some following))
    (drives : Drives operation node event final packets) :
    ∃ more, Drives operation middle following final more ∧ packets = sent ++ more := by
  rcases drives_executed operation node final event packets raft effect handled drives with
    same | ⟨_, _, _, more, same, rest, joined⟩
  · rw [executed] at same
    cases same
  · rw [executed] at same
    cases same
    exact ⟨more, rest, joined⟩

-- How many turns an event can start.
def turns : Event → Nat
  | .write _ | .appendEntries _ => 3
  | .localEntriesAppended _ | .entriesPersisted _ | .appendEntriesResponse _ => 2
  | _ => 1

def effectTurns : Effect → Nat
  | .appendLocal .. | .persistEntries .. => 2
  | .applyCommitted .. => 1
  | _ => 0

theorem execute_turns (node next : Node) (operation : Operation) (effect : Effect) (packets : List Packet)
    (following : Event) (executed : execute node operation effect = .ok (next, packets, some following)) :
    turns following ≤ effectTurns effect := by
  cases effect with
  | persistEntries | appendLocal =>
      cases operation <;> cases executed
      exact Nat.le_refl _
  | applyCommitted => cases executed; exact Nat.le_refl _
  | _ => cases executed

theorem handle_turns (raft next : Raft) (event : Event) (effect : Effect)
    (handled : handle raft event = .ok (next, .ok (some effect))) : effectTurns effect < turns event := by
  cases event with
  | electionTimeout =>
      cases (election_timeout_step raft next _ handled).2
      exact Nat.zero_lt_one
  | requestVote request =>
      obtain ⟨_, _, _, same⟩ := request_vote_step raft next request _ handled
      cases same
      exact Nat.zero_lt_one
  | voteResponse received =>
      cases vote_response_step raft next received _ handled
      exact Nat.zero_lt_one
  | heartbeatTimeout =>
      simp only [handle, handleHeartbeatTimeout] at handled
      split at handled
      · cases handled
      · cases handled
        exact Nat.zero_lt_one
  | heartbeat request =>
      obtain ⟨_, _, _, _, same⟩ := heartbeat_step raft next request _ handled
      cases same
      exact Nat.zero_lt_one
  | heartbeatResponse received => exact absurd rfl ((heartbeat_response_step raft next received _ handled).2 effect)
  | appendEntries received => cases append_entries_step raft next received _ handled <;> simp [effectTurns, turns]
  | appendEntriesResponse received =>
      cases append_response_step raft next received _ handled with
      | learner _ _ _ _ _ _ retry =>
          rcases retry with same | ⟨same, _⟩ <;> cases same
          exact Nat.zero_lt_two
      | retries | behind => exact Nat.zero_lt_two
      | commits => exact Nat.one_lt_two
  | localEntriesAppended entry => cases local_entry_step raft next entry _ handled <;> simp [effectTurns, turns]
  | entriesPersisted | entriesApplied | write =>
      simp only [handle, handleEntriesPersisted, handleEntriesApplied, handleWrite] at handled
      split at handled <;> cases handled
      simp [effectTurns, turns]

theorem drive_finishes (fuel : Nat) (node : Node) (operation : Operation) (event : Event) (enough : turns event ≤ fuel) :
    (drive fuel node operation event).isSome = true := by
  induction fuel generalizing node event with
  | zero => cases event <;> exact absurd enough (by simp [turns])
  | succ fuel ih =>
      simp only [drive]
      split
      · rfl
      · rename_i raft effect handled
        split
        · rfl
        · rfl
        · rename_i middle sent following executed
          have fewer := execute_turns _ middle operation effect sent following executed
          have less := handle_turns node.raft raft event effect handled
          rw [Option.isSome_map]
          exact ih middle following (by omega)
      · rfl

-- The fuel of a step is never what ends the loop.
theorem rounds_enough (node : Node) (operation : Operation) (event : Event) :
    (drive rounds node operation event).isSome = true :=
  drive_finishes rounds node operation event (by cases event <;> simp [turns, rounds])

end RaftLog.Replication
