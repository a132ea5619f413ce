import RaftLog.Core.Types
import RaftLog.Lib.Text

set_option autoImplicit false

namespace RaftLog.Storage

open Lib

-- What save_state does to the metadata file; sync_all changes none of its bytes.
inductive FileOp where
  | writeAllAt (bytes : Bytes) (start : Nat)
  | setLen (length : Nat)
deriving DecidableEq, Repr

-- A write behind the end leaves zeros between.
def FileOp.apply (file : Bytes) : FileOp → Bytes
  | .writeAllAt bytes start => overwrite (resize file (max file.length start)) start bytes
  | .setLen length => resize file length

def readExactAt (file : Bytes) (start length : Nat) (message : String) : Except Panic Bytes :=
  if start + length ≤ file.length then .ok (slice file start length) else .error ⟨message⟩

def loadState (file : Bytes) : Except Panic State :=
  if file.length = 0 then .ok ⟨0, none⟩
  else do
    let term ← readExactAt file 0 8 "reading metadata file fails"
    let votedLen ← readExactAt file 8 8 "reading metadata file fails"
    if ofBytes votedLen ≠ 0 then
      let voted ← readExactAt file 16 (ofBytes votedLen) "reading voted_for from metadata fails"
      match textOf voted with
      | some name => return ⟨ofBytes term, some ⟨name⟩⟩
      | none => throw ⟨"conversion of voted_for metadata into string fails"⟩
    else return ⟨ofBytes term, none⟩

def saveOps (state : State) : List FileOp :=
  .writeAllAt (toBytes 8 state.currentTerm) 0 ::
    match state.votedFor with
    | some votedFor =>
        let size := (textBytes votedFor.name).length
        [.writeAllAt (toBytes 8 size) 8, .writeAllAt (textBytes votedFor.name) 16, .setLen (16 + size)]
    | none => [.writeAllAt (toBytes 8 0) 8, .setLen (16 + 0)]

def applyAll (file : Bytes) (ops : List FileOp) : Bytes := ops.foldl FileOp.apply file

def saveState (file : Bytes) (state : State) : Bytes := applyAll file (saveOps state)

-- The file of a save that stops before the operation number `count`.
def stopped (file : Bytes) (state : State) (count : Nat) : Bytes := applyAll file ((saveOps state).take count)

def votedBytes (state : State) : Bytes := (state.votedFor.map fun node => textBytes node.name).getD []

-- A u64 term, and a name that fits in memory.
def Typed (state : State) : Prop := state.currentTerm < 2 ^ 64 ∧ (votedBytes state).length < 2 ^ 63

def CrashAtomic (file : Bytes) (old new : State) : Prop :=
  ∀ count, loadState (stopped file new count) = .ok old ∨ loadState (stopped file new count) = .ok new

-- The header and what stands behind it.
def layout (term size : Nat) (body : Bytes) : Bytes := toBytes 8 term ++ (toBytes 8 size ++ body)

theorem write_behind (front rest written : Bytes) (start : Nat) (starts : start = front.length) :
    FileOp.apply (front ++ rest) (.writeAllAt written start) = front ++ (written ++ rest.drop written.length) := by
  subst starts
  have whole : max (front ++ rest).length front.length = (front ++ rest).length := by simp
  rw [FileOp.apply, whole, resize_longer _ _ le_rfl, Nat.sub_self, List.replicate_zero, List.append_nil, overwrite,
    List.take_left, List.drop_append, List.append_assoc]
  simp

theorem write_term (file : Bytes) (term : Nat) :
    FileOp.apply file (.writeAllAt (toBytes 8 term) 0) = toBytes 8 term ++ file.drop 8 := by
  have written := write_behind [] file (toBytes 8 term) 0 rfl
  rwa [length_to_bytes] at written

theorem write_size (term size : Nat) (rest : Bytes) :
    FileOp.apply (toBytes 8 term ++ rest) (.writeAllAt (toBytes 8 size) 8) = layout term size (rest.drop 8) := by
  rw [write_behind _ _ _ _ (length_to_bytes 8 term).symm, length_to_bytes]
  rfl

theorem write_name (term size : Nat) (body name : Bytes) :
    FileOp.apply (layout term size body) (.writeAllAt name 16) = layout term size (name ++ body.drop name.length) := by
  have written := write_behind (toBytes 8 term ++ toBytes 8 size) body name 16 (by simp)
  rwa [List.append_assoc, List.append_assoc] at written

theorem set_length (term size : Nat) (name rest : Bytes) :
    FileOp.apply (layout term size (name ++ rest)) (.setLen (16 + name.length)) = layout term size name := by
  have ends : 16 + name.length = (toBytes 8 term ++ toBytes 8 size ++ name).length := by
    simp only [List.length_append, length_to_bytes]
  have cut := resize_prefix (toBytes 8 term ++ toBytes 8 size ++ name) rest _ ends
  simp only [List.append_assoc] at cut
  exact cut

-- What the header and the body are loaded as.
def decoded (term size : Nat) (body : Bytes) : Except Panic State :=
  if size = 0 then .ok ⟨term, none⟩
  else if size ≤ body.length then
    match textOf (body.take size) with
    | some name => .ok ⟨term, some ⟨name⟩⟩
    | none => .error ⟨"conversion of voted_for metadata into string fails"⟩
  else .error ⟨"reading voted_for from metadata fails"⟩

theorem load_layout (term size : Nat) (body : Bytes) (typed : term < 2 ^ 64) (sized : size < 2 ^ 64) :
    loadState (layout term size body) = decoded term size body := by
  have length : (layout term size body).length = 16 + body.length := by
    simp only [layout, List.length_append, length_to_bytes]
    omega
  have first : slice (layout term size body) 0 8 = toBytes 8 term := slice_middle [] _ _ 0 8 rfl (length_to_bytes 8 term).symm
  have second : slice (layout term size body) 8 8 = toBytes 8 size :=
    slice_middle _ _ _ 8 8 (length_to_bytes 8 term).symm (length_to_bytes 8 size).symm
  have third : slice (layout term size body) 16 size = body.take size := by
    rw [layout, ← List.append_assoc, slice, List.drop_left' (by simp)]
  have termBack := of_to_bytes 8 term (by simpa using typed)
  have sizeBack := of_to_bytes 8 size (by simpa using sized)
  have nonempty : ¬ (layout term size body).length = 0 := by omega
  rw [loadState, if_neg nonempty, readExactAt, if_pos (by omega), readExactAt, if_pos (by omega), first, second]
  simp only [bind, Except.bind, termBack, sizeBack, decoded]
  by_cases empty : size = 0
  · rw [if_pos empty, if_neg (not_not.mpr empty)]
    rfl
  rw [if_neg empty, if_pos empty, readExactAt, third]
  by_cases within : size ≤ body.length
  · rw [if_pos within, if_pos (by omega)]
    dsimp only
    cases textOf (body.take size) with
    | none => rfl
    | some name => rfl
  · rw [if_neg within, if_neg (by omega)]

-- What a state is loaded as: a vote for the empty name is no vote.
def normalised (state : State) : State :=
  if state.votedFor = some ⟨""⟩ then { state with votedFor := none } else state

theorem decoded_own (term : Nat) (state : State) (more : Bytes) :
    decoded term (votedBytes state).length (votedBytes state ++ more) = .ok { normalised state with currentTerm := term } := by
  cases vote : state.votedFor with
  | none => simp [decoded, votedBytes, normalised, vote]
  | some node =>
      obtain ⟨name⟩ := node
      by_cases empty : name = ""
      · subst empty
        simp [decoded, votedBytes, normalised, vote, textBytes]
      · have filled : (textBytes name).length ≠ 0 := fun none =>
          empty ((text_bytes_nil name).mp (List.length_eq_zero_iff.mp none))
        simp [decoded, votedBytes, normalised, vote, filled, empty, text_of_text_bytes]

theorem save_state_layout (before : Bytes) (state : State) :
    saveState before state = layout state.currentTerm (votedBytes state).length (votedBytes state) := by
  cases vote : state.votedFor with
  | none =>
      have cut := set_length state.currentTerm 0 [] ((before.drop 8).drop 8)
      simp only [saveState, saveOps, vote, applyAll, List.foldl_cons, List.foldl_nil, write_term, write_size]
      rw [votedBytes, vote]
      exact cut
  | some node =>
      simp only [saveState, saveOps, vote, applyAll, List.foldl_cons, List.foldl_nil, write_term, write_size, write_name,
        set_length]
      rw [votedBytes, vote]
      rfl

section Stopped

variable (term size : Nat) (body : Bytes) (new : State)

theorem write_term_layout (later : Nat) :
    FileOp.apply (layout term size body) (.writeAllAt (toBytes 8 later) 0) = layout later size body := by
  rw [write_term, layout, List.drop_left' (length_to_bytes 8 term)]
  rfl

theorem write_size_layout (later : Nat) :
    FileOp.apply (layout term size body) (.writeAllAt (toBytes 8 later) 8) = layout term later body := by
  rw [layout, write_size, List.drop_left' (length_to_bytes 8 size)]

theorem stopped_start : stopped (layout term size body) new 0 = layout term size body := rfl

theorem stopped_term : stopped (layout term size body) new 1 = layout new.currentTerm size body :=
  write_term_layout term size body new.currentTerm

theorem stopped_size : stopped (layout term size body) new 2 = layout new.currentTerm (votedBytes new).length body := by
  cases vote : new.votedFor with
  | none | some node =>
      simp only [stopped, saveOps, vote, List.take_succ_cons, List.take_zero, applyAll, List.foldl_cons, List.foldl_nil,
        write_term_layout, write_size_layout]
      rw [votedBytes, vote]
      rfl

-- From here on the new vote stands in front, with more or less behind it.
theorem stopped_later (count : Nat) :
    ∃ rest, stopped (layout term size body) new (count + 3) =
      layout new.currentTerm (votedBytes new).length (votedBytes new ++ rest) := by
  cases vote : new.votedFor with
  | none =>
      refine ⟨[], ?_⟩
      have all : (saveOps new).take (count + 3) = saveOps new := by
        apply List.take_of_length_le
        simp [saveOps, vote]
      rw [stopped, all, List.append_nil]
      exact save_state_layout _ new
  | some node =>
      cases count with
      | zero =>
          refine ⟨body.drop (textBytes node.name).length, ?_⟩
          simp only [stopped, saveOps, vote, Nat.zero_add, List.take_succ_cons, List.take_zero, applyAll, List.foldl_cons,
            List.foldl_nil, write_term_layout, write_size_layout, write_name]
          rw [votedBytes, vote]
          rfl
      | succ more =>
          refine ⟨[], ?_⟩
          have all : (saveOps new).take (more + 1 + 3) = saveOps new := by
            apply List.take_of_length_le
            simp [saveOps, vote]
          rw [stopped, all, List.append_nil]
          exact save_state_layout _ new

end Stopped

-- A save that can stop anywhere: the vote stays, or the term does and the new name
-- takes the place of the old one in a single write. A vote for the empty name is
-- stored as no vote.
def Compatible (old new : State) : Prop :=
  (old.votedFor = new.votedFor ∧ old.votedFor ≠ some ⟨""⟩) ∨
    old.currentTerm = new.currentTerm ∧
      ((votedBytes new).length = (votedBytes old).length ∨ votedBytes new <+: votedBytes old) ∧
      (new.votedFor = some ⟨""⟩ → old.votedFor = none) ∧ (old.votedFor = some ⟨""⟩ → new.votedFor = none)

section Atomic

variable (before : Bytes) (old new : State) (oldTyped : Typed old) (newTyped : Typed new)

include oldTyped

theorem load_stopped_start : loadState (stopped (saveState before old) new 0) = .ok (normalised old) := by
  have own := decoded_own old.currentTerm old []
  have same : { normalised old with currentTerm := old.currentTerm } = normalised old := by
    unfold normalised
    split
    · rfl
    · rfl
  rw [save_state_layout, stopped_start, load_layout _ _ _ oldTyped.1 (oldTyped.2.trans (by decide))]
  rwa [List.append_nil, same] at own

include newTyped

theorem load_stopped_term : loadState (stopped (saveState before old) new 1) =
    .ok { normalised old with currentTerm := new.currentTerm } := by
  have own := decoded_own new.currentTerm old []
  rw [save_state_layout, stopped_term, load_layout _ _ _ newTyped.1 (oldTyped.2.trans (by decide))]
  rwa [List.append_nil] at own

omit oldTyped in
theorem load_stopped_size : loadState (stopped (saveState before old) new 2) =
    decoded new.currentTerm (votedBytes new).length (votedBytes old) := by
  rw [save_state_layout, stopped_size, load_layout _ _ _ newTyped.1 (newTyped.2.trans (by decide))]

omit oldTyped in
theorem load_stopped_later (count : Nat) :
    loadState (stopped (saveState before old) new (count + 3)) = .ok (normalised new) := by
  obtain ⟨rest, here⟩ := stopped_later old.currentTerm (votedBytes old).length (votedBytes old) new count
  have same : { normalised new with currentTerm := new.currentTerm } = normalised new := by
    unfold normalised
    split
    · rfl
    · rfl
  rw [save_state_layout, here, load_layout _ _ _ newTyped.1 (newTyped.2.trans (by decide)), decoded_own, same]

theorem crash_atomic_stages :
    CrashAtomic (saveState before old) old new ↔
      (normalised old = old ∨ normalised old = new) ∧
        ({ normalised old with currentTerm := new.currentTerm } = old ∨
          { normalised old with currentTerm := new.currentTerm } = new) ∧
        (decoded new.currentTerm (votedBytes new).length (votedBytes old) = .ok old ∨
          decoded new.currentTerm (votedBytes new).length (votedBytes old) = .ok new) ∧
        (normalised new = old ∨ normalised new = new) := by
  have start := load_stopped_start before old new oldTyped
  have term := load_stopped_term before old new oldTyped newTyped
  have size := load_stopped_size before old new newTyped
  have later := load_stopped_later before old new newTyped
  constructor
  · intro atomic
    have first := atomic 0
    have second := atomic 1
    have third := atomic 2
    have fourth := atomic 3
    rw [start, Except.ok.injEq, Except.ok.injEq] at first
    rw [term, Except.ok.injEq, Except.ok.injEq] at second
    rw [size] at third
    rw [later 0, Except.ok.injEq, Except.ok.injEq] at fourth
    exact ⟨first, second, third, fourth⟩
  · rintro ⟨first, second, third, fourth⟩ count
    match count with
    | 0 => rwa [start, Except.ok.injEq, Except.ok.injEq]
    | 1 => rwa [term, Except.ok.injEq, Except.ok.injEq]
    | 2 => rwa [size]
    | more + 3 => rwa [later more, Except.ok.injEq, Except.ok.injEq]

omit oldTyped newTyped in
-- The new name read out of the bytes of the old one.
theorem decoded_other (name other : String) (term : Nat) (filled : name ≠ "") (state : State) :
    decoded term (textBytes name).length (textBytes other) = .ok state ↔
      ∃ read, textBytes read = (textBytes other).take (textBytes name).length ∧
        (textBytes name).length ≤ (textBytes other).length ∧ state = ⟨term, some ⟨read⟩⟩ := by
  have bytes : (textBytes name).length ≠ 0 := fun none => filled ((text_bytes_nil name).mp (List.length_eq_zero_iff.mp none))
  rw [decoded, if_neg bytes]
  by_cases within : (textBytes name).length ≤ (textBytes other).length
  · rw [if_pos within]
    cases found : textOf ((textBytes other).take (textBytes name).length) with
    | none =>
        simp only [reduceCtorEq, false_iff, not_exists, not_and]
        intro read same
        rw [← same, text_of_text_bytes] at found
        cases found
    | some read =>
        have back := text_bytes_of _ _ found
        constructor
        · intro loaded
          exact ⟨read, back, within, (Except.ok.inj loaded).symm⟩
        · rintro ⟨again, same, _, rfl⟩
          rw [text_bytes_inj again read (same.trans back.symm)]
  · simp [within]

omit oldTyped newTyped in
theorem stages_no_vote (oldTerm newTerm : Nat) (oldVote : Option NodeId) :
    (normalised ⟨oldTerm, oldVote⟩ = ⟨oldTerm, oldVote⟩ ∨ normalised ⟨oldTerm, oldVote⟩ = ⟨newTerm, none⟩) ∧
        ({ normalised ⟨oldTerm, oldVote⟩ with currentTerm := newTerm } = (⟨oldTerm, oldVote⟩ : State) ∨
          { normalised ⟨oldTerm, oldVote⟩ with currentTerm := newTerm } = (⟨newTerm, none⟩ : State)) ↔
      Compatible ⟨oldTerm, oldVote⟩ ⟨newTerm, none⟩ := by
  cases oldVote with
  | none => simp [normalised, Compatible]
  | some old =>
      by_cases empty : old = ⟨""⟩
      · simp [normalised, Compatible, votedBytes, empty]
      · simp [normalised, Compatible, votedBytes, empty, eq_comm]

omit oldTyped newTyped in
theorem stages_empty_vote (oldTerm newTerm : Nat) (oldVote : Option NodeId) :
    normalised ⟨newTerm, some ⟨""⟩⟩ = ⟨oldTerm, oldVote⟩ ∨ normalised ⟨newTerm, some ⟨""⟩⟩ = ⟨newTerm, some ⟨""⟩⟩ ↔
      Compatible ⟨oldTerm, oldVote⟩ ⟨newTerm, some ⟨""⟩⟩ := by
  cases oldVote with
  | none => simp [normalised, Compatible, votedBytes, textBytes, eq_comm]
  | some old =>
      by_cases empty : old = ⟨""⟩
      · simp [normalised, Compatible, empty]
      · simp [normalised, Compatible, empty]

omit oldTyped newTyped in
theorem read_of_other_iff (name other : String) (filled : name ≠ "") (oldTerm newTerm : Nat) :
    (decoded newTerm (textBytes name).length (textBytes other) = .ok ⟨oldTerm, some ⟨other⟩⟩ ∨
        decoded newTerm (textBytes name).length (textBytes other) = .ok ⟨newTerm, some ⟨name⟩⟩) ↔
      (oldTerm = newTerm ∧ (textBytes name).length = (textBytes other).length) ∨ textBytes name <+: textBytes other := by
  rw [decoded_other name other newTerm filled, decoded_other name other newTerm filled]
  constructor
  · rintro (⟨read, same, within, state⟩ | ⟨read, same, within, state⟩)
    · cases state
      have length := congrArg List.length same
      rw [List.length_take, Nat.min_eq_left within] at length
      exact .inl ⟨rfl, length.symm⟩
    · cases state
      exact .inr (List.prefix_iff_eq_take.mpr same)
  · rintro (⟨rfl, length⟩ | begins)
    · refine .inl ⟨other, ?_, length.le, rfl⟩
      rw [length, List.take_length]
    · exact .inr ⟨name, List.prefix_iff_eq_take.mp begins, begins.length_le, rfl⟩

theorem crash_atomic_iff : CrashAtomic (saveState before old) old new ↔ Compatible old new := by
  rw [crash_atomic_stages before old new oldTyped newTyped]
  obtain ⟨oldTerm, oldVote⟩ := old
  obtain ⟨newTerm, newVote⟩ := new
  cases newVote with
  | none =>
      rw [← stages_no_vote]
      simp [decoded, votedBytes, normalised]
  | some new =>
      obtain ⟨name⟩ := new
      by_cases empty : name = ""
      · subst empty
        rw [← stages_empty_vote]
        constructor
        · exact fun stages => stages.2.2.2
        · intro last
          have same : newTerm = oldTerm ∧ oldVote = none := by
            simpa [normalised, eq_comm] using last
          obtain ⟨rfl, rfl⟩ := same
          simp [normalised, decoded, votedBytes, textBytes]
      · have whole : normalised ⟨newTerm, some ⟨name⟩⟩ = ⟨newTerm, some ⟨name⟩⟩ := by simp [normalised, empty]
        have bytes : textBytes name ≠ [] := fun none => empty ((text_bytes_nil name).mp none)
        cases oldVote with
        | none => simp [Compatible, votedBytes, decoded, bytes]
        | some old =>
            obtain ⟨other⟩ := old
            have read := read_of_other_iff name other empty oldTerm newTerm
            by_cases void : other = ""
            · subst void
              have none : ¬ textBytes name <+: textBytes "" := fun begins => bytes (List.prefix_nil.mp begins)
              have short : (textBytes name).length ≠ (textBytes "").length := fun same => bytes (List.length_eq_zero_iff.mp same)
              have never : ¬ (_ ∨ _) := fun either => (read.mp either).elim (fun same => short same.2) none
              simp only [votedBytes, Option.map_some, Option.getD_some]
              apply iff_of_false
              · exact fun stages => never stages.2.2.1
              · simp [Compatible, eq_comm, empty]
            · have kept : normalised ⟨oldTerm, some ⟨other⟩⟩ = ⟨oldTerm, some ⟨other⟩⟩ := by simp [normalised, void]
              simp only [whole, kept, votedBytes, Option.map_some, Option.getD_some, read, Compatible]
              simp only [true_or, or_true, true_and, and_true, State.mk.injEq, Option.some.injEq, NodeId.mk.injEq, void, empty,
                not_false_eq_true, ne_eq, false_implies]
              constructor
              · rintro ⟨term | same, length | begins⟩
                · exact .inr ⟨length.1, .inl length.2⟩
                · exact .inr ⟨term.symm, .inr begins⟩
                · exact .inl same
                · exact .inl same
              · rintro (rfl | ⟨rfl, length | begins⟩)
                · exact ⟨.inr rfl, .inr (List.prefix_refl _)⟩
                · exact ⟨.inl rfl, .inl ⟨rfl, length⟩⟩
                · exact ⟨.inl rfl, .inr begins⟩

end Atomic

instance (state : State) : Decidable (Typed state) := inferInstanceAs (Decidable (_ ∧ _))

def voteFor (term : Nat) (name : String) : State := ⟨term, some ⟨name⟩⟩

-- Two names of six bytes in one term.
theorem crash_atomic_same_term :
    CrashAtomic (saveState [] (voteFor 7 "node-2")) (voteFor 7 "node-2") (voteFor 7 "node-3") :=
  (crash_atomic_iff [] (voteFor 7 "node-2") (voteFor 7 "node-3") (by decide +kernel) (by decide +kernel)).mpr
    (.inr ⟨rfl, .inl (by decide +kernel), by decide, by decide⟩)

-- The first vote of a new term: the term is the new one, the vote still the old one.
theorem mixed_after_term :
    ¬ ∀ (before : Bytes) (old new : State), Typed old → Typed new → CrashAtomic (saveState before old) old new := by
  intro always
  have stop := always [] (voteFor 7 "node-2") (voteFor 8 "node-3") (by decide +kernel) (by decide +kernel) 1
  have loaded : loadState (stopped (saveState [] (voteFor 7 "node-2")) (voteFor 8 "node-3") 1) = .ok (voteFor 8 "node-2") := by
    decide +kernel
  rw [loaded] at stop
  rcases stop with old | new
  · exact absurd old (by decide)
  · exact absurd new (by decide)

end RaftLog.Storage
