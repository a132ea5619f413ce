import RaftLog.Election.Storage

set_option autoImplicit false

namespace RaftLog.Storage

open Lib

-- Storage::new opens the file that is there, or creates an empty one.
def newStorage (file : Option Bytes) : Bytes := file.getD []

-- What is done to one metadata file; a save that fails stops before its operation number `count`.
inductive Use where
  | save (state : State)
  | failedSave (state : State) (count : Nat)
  | load
  | reopen
deriving DecidableEq, Repr

-- The file, and the state saved last unless a save has failed since.
structure Used where
  file : Bytes
  saved : Option State

def Used.next (used : Used) : Use → Used
  | .save state => ⟨saveState used.file state, some state⟩
  | .failedSave state count => ⟨stopped used.file state count, none⟩
  | .load => used
  | .reopen => ⟨newStorage (some used.file), used.saved⟩

def usedAfter (file : Option Bytes) (uses : List Use) : Used := uses.foldl Used.next ⟨newStorage file, none⟩

def RoundTrips (used : Used) (last : State) : Prop := loadState used.file = .ok last

theorem load_saved (before : Bytes) (state : State) (typed : Typed state) :
    loadState (saveState before state) = .ok (normalised state) := by
  have start := load_stopped_start before state state typed
  rwa [save_state_layout, stopped_start, ← save_state_layout before state] at start

theorem normalised_iff (state : State) : normalised state = state ↔ state.votedFor ≠ some ⟨""⟩ := by
  unfold normalised
  constructor
  · intro same empty
    rw [if_pos empty] at same
    have votes := congrArg State.votedFor same
    rw [empty] at votes
    cases votes
  · intro filled
    rw [if_neg filled]

-- The file is what the last save has made of whatever was there.
def LeftBySave (used : Used) : Prop := ∀ last, used.saved = some last → ∃ before, used.file = saveState before last

theorem next_left_by_save (used : Used) (use : Use) (left : LeftBySave used) : LeftBySave (used.next use) := by
  cases use with
  | save state =>
      intro last same
      cases same
      exact ⟨used.file, rfl⟩
  | failedSave state count =>
      intro last same
      cases same
  | load | reopen => exact left

theorem used_left_by_save (file : Option Bytes) (uses : List Use) : LeftBySave (usedAfter file uses) := by
  induction uses using List.reverseRecOn with
  | nil =>
      intro last same
      cases same
  | append_singleton uses use ih =>
      rw [usedAfter, List.foldl_append]
      exact next_left_by_save (usedAfter file uses) use ih

theorem round_trips_iff (file : Option Bytes) (uses : List Use) (last : State)
    (saved : (usedAfter file uses).saved = some last) (typed : Typed last) :
    RoundTrips (usedAfter file uses) last ↔ last.votedFor ≠ some ⟨""⟩ := by
  obtain ⟨before, here⟩ := used_left_by_save file uses last saved
  rw [RoundTrips, here, load_saved before last typed, Except.ok.injEq]
  exact normalised_iff last

-- A long name, no vote, a save that fails, and a shorter name of more bytes than letters.
def savedInTurn : List Use :=
  [.save (voteFor 1 "a-long-node-name"), .save ⟨2, none⟩, .reopen, .failedSave (voteFor 3 "node-1") 2,
    .save (voteFor 3 "nœud"), .reopen]

theorem shorter_name_round_trips : RoundTrips (usedAfter none savedInTurn) (voteFor 3 "nœud") :=
  (round_trips_iff none savedInTurn (voteFor 3 "nœud") (by decide +kernel) (by decide +kernel)).mpr (by decide)

-- A vote for the empty name comes back as no vote.
theorem empty_name_lost :
    ¬ ∀ (file : Option Bytes) (uses : List Use) (last : State), (usedAfter file uses).saved = some last → Typed last →
      RoundTrips (usedAfter file uses) last := by
  intro always
  have back := always none [.save (voteFor 1 "")] (voteFor 1 "") rfl (by decide +kernel)
  have loaded : loadState (usedAfter none [.save (voteFor 1 "")]).file = .ok ⟨1, none⟩ := by decide +kernel
  rw [RoundTrips, loaded] at back
  cases back

end RaftLog.Storage
