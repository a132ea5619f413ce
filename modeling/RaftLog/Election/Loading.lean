import RaftLog.Election.RoundTrip

set_option autoImplicit false

namespace RaftLog.Storage

open Lib

theorem field_lt (file : Bytes) (start : Nat) (within : start + 8 ≤ file.length) : ofBytes (slice file start 8) < 2 ^ 64 := by
  have bound := of_bytes_lt (slice file start 8)
  rw [slice_length file start 8 within] at bound
  exact bound

-- Any bytes that are long enough are a header with something behind it.
theorem header_layout (file : Bytes) (long : 16 ≤ file.length) :
    file = layout (ofBytes (slice file 0 8)) (ofBytes (slice file 8 8)) (file.drop 16) := by
  have term := slice_split file 0 8
  have size := slice_split file 8 8
  rw [List.drop_zero, Nat.zero_add] at term
  rw [layout, slice_digits file 0 8 (by omega), slice_digits file 8 8 long, ← size]
  exact term

theorem load_short (file : Bytes) (some : file ≠ []) (short : file.length < 16) (state : State) : loadState file ≠ .ok state := by
  have nonempty : ¬ file.length = 0 := fun none => some (List.length_eq_zero_iff.mp none)
  rw [loadState, if_neg nonempty]
  intro loaded
  by_cases first : 0 + 8 ≤ file.length
  · rw [readExactAt, if_pos first, readExactAt, if_neg (by omega)] at loaded
    cases loaded
  · rw [readExactAt, if_neg first] at loaded
    cases loaded

-- The states that come back from a file as they are.
def Storable (state : State) : Prop :=
  state.currentTerm < 2 ^ 64 ∧ (votedBytes state).length < 2 ^ 64 ∧ state.votedFor ≠ some ⟨""⟩

theorem decoded_sound (term size : Nat) (body : Bytes) (state : State) (typed : term < 2 ^ 64) (sized : size < 2 ^ 64)
    (loaded : decoded term size body = .ok state) :
    Storable state ∧ ∃ rest, layout term size body = layout state.currentTerm (votedBytes state).length (votedBytes state ++ rest) := by
  unfold decoded at loaded
  split at loaded
  · rename_i none
    cases loaded
    exact ⟨⟨typed, by simp [votedBytes], nofun⟩, body, by rw [none]; rfl⟩
  rename_i some
  split at loaded
  case isFalse => cases loaded
  rename_i within
  split at loaded
  case h_2 => cases loaded
  rename_i name read
  cases loaded
  have bytes : textBytes name = body.take size := text_bytes_of _ name read
  have length : (textBytes name).length = size := by rw [bytes, List.length_take, Nat.min_eq_left within]
  refine ⟨⟨typed, ?_, ?_⟩, body.drop size, ?_⟩
  · exact length.trans_lt sized
  · intro empty
    have void : name = "" := NodeId.mk.inj (Option.some.inj empty)
    rw [void] at length
    exact some length.symm
  · have split : body = textBytes name ++ body.drop size := by rw [bytes, List.take_append_drop]
    rw [← length] at split ⊢
    exact congrArg (layout term _) split

theorem decoded_complete (state : State) (rest : Bytes) (storable : Storable state) :
    loadState (layout state.currentTerm (votedBytes state).length (votedBytes state ++ rest)) = .ok state := by
  obtain ⟨typed, sized, filled⟩ := storable
  rw [load_layout _ _ _ typed sized, decoded_own, (normalised_iff state).mpr filled]

-- What load_state takes for a state is an empty file, or the state as save_state writes it with
-- anything behind it; and saving the state again leaves that and nothing else.
theorem load_accepts (file : Bytes) (state : State) :
    (loadState file = .ok state ↔ file = [] ∧ state = ⟨0, none⟩ ∨
      Storable state ∧ ∃ rest, file = layout state.currentTerm (votedBytes state).length (votedBytes state ++ rest)) ∧
    (loadState file = .ok state → loadState (saveState file state) = .ok state ∧
      (file = [] ∨ ∃ rest, file = saveState file state ++ rest)) := by
  have accepts : loadState file = .ok state ↔ file = [] ∧ state = ⟨0, none⟩ ∨
      Storable state ∧ ∃ rest, file = layout state.currentTerm (votedBytes state).length (votedBytes state ++ rest) := by
    constructor
    · intro loaded
      by_cases empty : file = []
      · subst empty
        cases loaded
        exact .inl ⟨rfl, rfl⟩
      right
      have long : 16 ≤ file.length := by
        by_contra short
        exact load_short file empty (Nat.lt_of_not_le short) state loaded
      have shape := header_layout file long
      have typed := field_lt file 0 (by omega)
      have sized := field_lt file 8 long
      rw [shape, load_layout _ _ _ typed sized] at loaded
      have sound := decoded_sound _ _ _ state typed sized loaded
      rwa [← shape] at sound
    · rintro (⟨rfl, rfl⟩ | ⟨storable, rest, rfl⟩)
      · rfl
      · exact decoded_complete state rest storable
  refine ⟨accepts, fun loaded => ?_⟩
  have storable : Storable state := by
    rcases accepts.mp loaded with ⟨_, rfl⟩ | ⟨storable, _⟩
    · exact ⟨by decide, by decide, nofun⟩
    · exact storable
  have again := decoded_complete state [] storable
  rw [List.append_nil] at again
  rw [save_state_layout]
  refine ⟨again, ?_⟩
  rcases accepts.mp loaded with ⟨empty, _⟩ | ⟨_, rest, same⟩
  · exact .inl empty
  · refine .inr ⟨rest, same.trans ?_⟩
    simp only [layout, List.append_assoc]

-- A file that another program has left with bytes behind the name.
theorem longer_file_loads : loadState (saveState [] (voteFor 7 "node-2") ++ [0, 0]) = .ok (voteFor 7 "node-2") ∧
    loadState (saveState (saveState [] (voteFor 7 "node-2") ++ [0, 0]) (voteFor 7 "node-2")) = .ok (voteFor 7 "node-2") := by
  have loaded : loadState (saveState [] (voteFor 7 "node-2") ++ [0, 0]) = .ok (voteFor 7 "node-2") := by decide +kernel
  exact ⟨loaded, ((load_accepts _ (voteFor 7 "node-2")).2 loaded).1⟩

end RaftLog.Storage
