import RaftLog.Lib.Machine
import RaftLog.Runtime.Replies

set_option autoImplicit false

namespace RaftLog.Drive

open Lib Replication

-- The log numbers its records from 1, and nothing but an append changes their count.
structure Consecutive {σ : Type} (world : World σ) (count : σ → Nat) : Prop where
  appended : ∀ state bytes later index, world.append state bytes = .ok (later, .ok index) →
    index = count state + 1 ∧ count later = index
  refused : ∀ state bytes later error, world.append state bytes = .ok (later, .error error) → count later = count state
  read : ∀ state index buf later filled answer, world.read state index buf = .ok (later, filled, answer) →
    count later = count state
  encoded : ∀ state entry, count (world.encode state entry).1 = count state
  decoded : ∀ state bytes, count (world.decode state bytes).1 = count state
  applied : ∀ state command, count (world.apply state command).1 = count state

section Applying

variable {σ : Type} (world : World σ)

def step (runtime : Runtime σ) (message : Message) : Option (Runtime σ) :=
  match handleMessage world 3 runtime message with
  | some (.ok after) => some after
  | _ => none

def machine (start : Runtime σ) : Machine (Runtime σ) Message := ⟨fun runtime => runtime = start, step world⟩

-- What FSM::apply has accepted is entry 1, entry 2 and so on.
def InOrder (runtime : Runtime σ) : Prop := runtime.applied.reverse = List.range' 1 runtime.applied.length

-- An entry is read, decoded and applied without an error.
def entryApplies (state : σ) (index : Nat) : Bool :=
  match world.read state index [] with
  | .ok (state, buf, .ok ()) =>
      match world.decode state buf with
      | (state, .ok entry) => (world.apply state entry.command).2.isOk
      | (_, .error _) => false
  | _ => false

-- Every call up to the application of the first unapplied entry goes well.
def firstApplies (runtime : Runtime σ) (message : Message) : Bool :=
  match world.encode runtime.world (entryOf runtime message) with
  | (_, .error _) => false
  | (state, .ok bytes) =>
      match world.append state bytes with
      | .ok (state, .ok _) => entryApplies world state (runtime.raft.lastApplied + 1)
      | _ => false

-- The FSM is no further than last_applied says, or is given nothing.
def resumes (runtime : Runtime σ) (message : Message) : Bool :=
  decide (runtime.applied.length = runtime.raft.lastApplied) || !firstApplies world runtime message

theorem step_ids (runtime after : Runtime σ) (message : Message) (moves : step world runtime message = some after) :
    runtime.nextOperationId < u64Max := by
  by_contra most
  rw [step, handleMessage, if_pos (by omega)] at moves
  cases moves

theorem step_outcome (runtime after : Runtime σ) (message : Message) (alone : Alone runtime.raft)
    (quiet : runtime.operations = ∅) (moves : step world runtime message = some after) :
    WriteStep world runtime message (.ok after) := by
  obtain ⟨outcome, handled, write⟩ :=
    write_step world 0 runtime message alone quiet (step_ids world runtime after message moves)
  rw [step, handled] at moves
  cases outcome with
  | error panic => cases moves
  | ok final =>
      cases moves
      exact write

theorem step_ends (runtime after : Runtime σ) (message : Message) (alone : Alone runtime.raft)
    (quiet : runtime.operations = ∅) (ids : runtime.nextOperationId < u64Max)
    (ends : WriteStep world runtime message (.ok after)) : step world runtime message = some after := by
  obtain ⟨outcome, handled, write⟩ := write_step world 0 runtime message alone quiet ids
  rw [step, handled, write_ends world runtime after message outcome ends write]

theorem apply_entry_ok (runtime : Runtime σ) (index : Nat) (last : Runtime σ) (result : Except Failure Unit)
    (ran : applyEntry world runtime index = .ok (last, result)) :
    result.isOk = entryApplies world runtime.world index := by
  unfold applyEntry at ran
  unfold entryApplies
  split at ran
  · cases ran
  · rename_i read
    cases ran
    rw [read]
    rfl
  · rename_i state buf read
    rw [read]
    dsimp only
    split at ran
    · rename_i decoded
      cases ran
      rw [decoded]
      rfl
    · rename_i middle entry decoded
      rw [decoded]
      dsimp only
      split at ran
      · rename_i applied
        cases ran
        rw [applied]
        rfl
      · rename_i applied
        cases ran
        rw [applied]
        rfl

-- A batch leaves the FSM alone exactly when its first entry fails.
theorem first_applies (runtime : Runtime σ) (message : Message) (state later : σ) (bytes : Bytes) (index : Nat)
    (encoded : world.encode runtime.world (entryOf runtime message) = (state, .ok bytes))
    (appended : world.append state bytes = .ok (later, .ok index)) (rest : List Nat) (last : Runtime σ)
    (result : Except Failure Unit)
    (ran : applyEntries world (runtime.committing message index later bytes) ((runtime.raft.lastApplied + 1) :: rest) =
      .ok (last, result)) : firstApplies world runtime message = true ↔ last.applied ≠ runtime.applied := by
  have tests : firstApplies world runtime message = entryApplies world later (runtime.raft.lastApplied + 1) := by
    rw [firstApplies, encoded]
    simp only [appended]
  rw [applyEntries] at ran
  split at ran
  · cases ran
  · rename_i stopped failure first
    cases ran
    have same := (apply_entry_frame world _ _ _ _ first).2
    have fails : false = entryApplies world later _ := apply_entry_ok world _ _ _ _ first
    rw [tests, ← fails]
    exact iff_of_false Bool.false_ne_true (not_not.mpr same)
  · rename_i middle first
    have same := (apply_entry_frame world _ _ _ _ first).2
    obtain ⟨_, done, left, _, order, _⟩ := apply_entries_frame world rest middle last result ran
    have applies : true = entryApplies world later _ := apply_entry_ok world _ _ _ _ first
    have grown : middle.applied.length = runtime.applied.length + 1 := by rw [same]; rfl
    rw [tests, ← applies]
    apply iff_of_true rfl
    intro none
    have length := congrArg List.length none
    rw [order, List.length_append, grown] at length
    omega

theorem range_extended (applied : List Nat) (start count : Nat) :
    applied.reverse ++ List.range' start count = List.range' 1 (applied.length + count) ↔
      applied.reverse = List.range' 1 applied.length ∧ (count = 0 ∨ start = applied.length + 1) := by
  have whole : List.range' 1 (applied.length + count) = List.range' 1 applied.length ++ List.range' (applied.length + 1) count := by
    rw [Nat.add_comm applied.length 1]
    exact (List.range'_append_1 ..).symm
  rw [whole]
  constructor
  · intro same
    obtain ⟨before, after⟩ := List.append_inj same (by simp)
    refine ⟨before, ?_⟩
    cases count with
    | zero => exact .inl rfl
    | succ more =>
        rw [List.range'_succ, List.range'_succ] at after
        exact .inr (List.cons.inj after).1
  · rintro ⟨before, rfl | rfl⟩
    · rw [before]
      rfl
    · rw [before]

structure Steady (count : σ → Nat) (runtime : Runtime σ) : Prop where
  alone : Alone runtime.raft
  quiet : runtime.operations = ∅
  leader : runtime.raft.role = .leader
  counted : runtime.raft.lastLogIndex = count runtime.world
  behind : runtime.raft.lastApplied ≤ count runtime.world

variable (count : σ → Nat)

theorem new_steady (id : NodeId) (voters : List NodeId) (only : ∀ voter, voter ∈ voters ↔ voter = id) (nextOffset : Nat)
    (state : State) (start : σ) (empty : count start = 0) :
    Steady count (newRuntime id voters nextOffset state .leader start) where
  alone := new_alone id voters nextOffset state .leader only
  quiet := rfl
  leader := rfl
  counted := empty.symm
  behind := Nat.zero_le _

variable (consecutive : Consecutive world count)

include consecutive

theorem apply_entry_count (runtime last : Runtime σ) (index : Nat) (result : Except Failure Unit)
    (ran : applyEntry world runtime index = .ok (last, result)) : count last.world = count runtime.world := by
  unfold applyEntry at ran
  split at ran
  · cases ran
  · rename_i read
    cases ran
    exact consecutive.read _ _ _ _ _ _ read
  · rename_i state buf read
    have first := consecutive.read _ _ _ _ _ _ read
    have second := consecutive.decoded state buf
    split at ran
    · rename_i decoded
      cases ran
      rw [decoded] at second
      exact second.trans first
    · rename_i middle entry decoded
      rw [decoded] at second
      have third := consecutive.applied middle entry.command
      split at ran
      · rename_i applied
        cases ran
        rw [applied] at third
        exact third.trans (second.trans first)
      · rename_i applied
        cases ran
        rw [applied] at third
        exact third.trans (second.trans first)

theorem apply_entries_count (indexes : List Nat) (runtime last : Runtime σ) (result : Except Failure Unit)
    (ran : applyEntries world runtime indexes = .ok (last, result)) : count last.world = count runtime.world := by
  induction indexes generalizing runtime with
  | nil =>
      cases ran
      rfl
  | cons index rest ih =>
      rw [applyEntries] at ran
      split at ran
      · cases ran
      · rename_i first
        cases ran
        exact apply_entry_count world count consecutive runtime _ index _ first
      · rename_i middle first
        exact (ih middle ran).trans (apply_entry_count world count consecutive runtime middle index _ first)

omit consecutive in
theorem order_kept (runtime next : Runtime σ) (message : Message) (same : next.applied = runtime.applied)
    (fails : firstApplies world runtime message = false) :
    InOrder next ↔ InOrder runtime ∧ resumes world runtime message = true := by
  rw [InOrder, same, resumes, fails, Bool.not_false, Bool.or_true, and_iff_left rfl]
  exact Iff.rfl

omit consecutive in
-- The batch begins behind last_applied, wherever the FSM is.
theorem order_applies (runtime : Runtime σ) (message : Message) (index : Nat) (behind : runtime.raft.lastApplied < index) (most : index < u64Max)
    (state later : σ) (bytes : Bytes) (last : Runtime σ) (result : Except Failure Unit)
    (encoded : world.encode runtime.world (entryOf runtime message) = (state, .ok bytes))
    (appended : world.append state bytes = .ok (later, .ok index))
    (ran : applyEntries world (runtime.committing message index later bytes) (unapplied runtime.raft index) =
      .ok (last, result)) (next : Runtime σ) (same : next.applied = last.applied) :
    InOrder next ↔ InOrder runtime ∧ resumes world runtime message = true := by
  have first : saturatingAdd runtime.raft.lastApplied 1 = runtime.raft.lastApplied + 1 := by
    unfold saturatingAdd
    omega
  have batch : unapplied runtime.raft index =
      (runtime.raft.lastApplied + 1) :: List.range' (runtime.raft.lastApplied + 2) (index - (runtime.raft.lastApplied + 1)) := by
    rw [unapplied, first, show index + 1 - (runtime.raft.lastApplied + 1) = index - (runtime.raft.lastApplied + 1) + 1 by omega,
      List.range'_succ]
  obtain ⟨_, done, rest, split, order, _⟩ := apply_entries_frame world _ _ last result ran
  have order : last.applied = done.reverse ++ runtime.applied := order
  rw [unapplied, first] at split
  obtain ⟨applied, _, done_eq, _⟩ := List.range'_eq_append_iff.mp split
  have length : done.length = applied := by rw [done_eq, List.length_range']
  rw [batch] at ran
  have applies := first_applies world runtime message state later bytes index encoded appended _ last result ran
  have some : firstApplies world runtime message = true ↔ done.length ≠ 0 := by
    rw [applies, order, ne_eq, List.append_left_eq_self, List.reverse_eq_nil_iff, ← List.length_eq_zero_iff]
  have extended := range_extended runtime.applied (runtime.raft.lastApplied + 1) done.length
  rw [length, ← done_eq, ← length] at extended
  have grows : InOrder next ↔ runtime.applied.reverse ++ done = List.range' 1 (runtime.applied.length + done.length) := by
    rw [InOrder, same, order, List.reverse_append, List.reverse_reverse, List.length_append, List.length_reverse, Nat.add_comm]
  rw [grows, extended, InOrder, resumes]
  apply and_congr_right
  intro _
  rw [Bool.or_eq_true, decide_eq_true_eq, Bool.not_eq_true', ← Bool.not_eq_true, some, not_not, Nat.add_right_cancel_iff,
    or_comm, eq_comm]

theorem steady_step (runtime after : Runtime σ) (message : Message) (steady : Steady count runtime)
    (moves : step world runtime message = some after) :
    Steady count after ∧ (InOrder after ↔ InOrder runtime ∧ resumes world runtime message = true) := by
  have encodes := consecutive.encoded runtime.world (entryOf runtime message)
  cases step_outcome world runtime after message steady.alone steady.quiet moves with
  | notLeader role => exact absurd steady.leader role
  | unencoded _ state error encoded =>
      rw [encoded] at encodes
      refine ⟨⟨steady.alone, rfl, steady.leader, steady.counted.trans encodes.symm, steady.behind.trans_eq encodes.symm⟩,
        order_kept world runtime _ message rfl ?_⟩
      rw [firstApplies, encoded]
  | unappended _ state later bytes error encoded refused =>
      rw [encoded] at encodes
      have same := (consecutive.refused _ _ _ _ refused).trans encodes
      refine ⟨⟨steady.alone, rfl, steady.leader, steady.counted.trans same.symm, steady.behind.trans_eq same.symm⟩,
        order_kept world runtime _ message rfl ?_⟩
      rw [firstApplies, encoded]
      simp only [refused]
  | applies _ state later bytes index last result encoded appended most ran =>
      rw [encoded] at encodes
      obtain ⟨next, counts⟩ := consecutive.appended _ _ _ _ appended
      rw [encodes] at next
      have loops := (apply_entries_count world count consecutive _ _ last result ran).trans counts
      have alone := committed_alone runtime.raft (localEntry runtime index) steady.alone
      have behind : runtime.raft.lastApplied < index := next ▸ Nat.lt_succ_of_le steady.behind
      constructor
      · cases result with
        | ok done => exact ⟨⟨alone.voters, alone.member, alone.learners⟩, rfl, steady.leader, loops.symm, loops.ge⟩
        | error failure => exact ⟨alone, rfl, steady.leader, loops.symm, behind.le.trans loops.ge⟩
      · exact order_applies world runtime message index behind most state later bytes last result encoded appended ran _ rfl

theorem applied_in_order_iff (id : NodeId) (voters : List NodeId) (only : ∀ voter, voter ∈ voters ↔ voter = id) (state : State)
    (start : σ) (empty : count start = 0) (runtime : Runtime σ)
    (reach : Reachable (machine world (newRuntime id voters 1 state .leader start)) runtime) :
    InOrder runtime ↔ Run (machine world (newRuntime id voters 1 state .leader start))
      (fun runtime message => resumes world runtime message = true) runtime := by
  have steadies : ∀ runtime, Reachable (machine world (newRuntime id voters 1 state .leader start)) runtime →
      Steady count runtime := by
    intro runtime reach
    apply run_invariant (machine world (newRuntime id voters 1 state .leader start)) _ (Steady count) ?_ ?_ runtime reach
    · rintro _ rfl
      exact new_steady count id voters only 1 state start empty
    · intro runtime message next _ steady _ moves
      exact (steady_step world count consecutive runtime next message steady moves).1
  constructor
  · intro ordered
    induction reach with
    | start runtime starts => exact .start runtime starts
    | step runtime next message before _ moves ih =>
        obtain ⟨earlier, meets⟩ :=
          (steady_step world count consecutive runtime next message (steadies runtime before) moves).2.mp ordered
        exact .step runtime next message (ih earlier) meets moves
  · intro run
    apply run_invariant (machine world (newRuntime id voters 1 state .leader start)) _ InOrder ?_ ?_ runtime run
    · rintro _ rfl
      rfl
    · intro runtime message next before ordered meets moves
      have steady := steadies runtime (run_reachable _ _ runtime before)
      exact (steady_step world count consecutive runtime next message steady moves).2.mpr ⟨ordered, meets⟩

end Applying

theorem tape_consecutive : Consecutive tapeWorld fun tape => tape.records.length where
  appended := by
    intro tape bytes later index appended
    rcases tape_append tape later bytes _ appended with ⟨_, refused, _⟩ | ⟨same, records, _⟩
    · cases refused
    · cases same
      rw [records, List.length_append, List.length_singleton]
      exact ⟨rfl, rfl⟩
  refused := by
    intro tape bytes later error appended
    rcases tape_append tape later bytes _ appended with ⟨_, _, records⟩ | ⟨accepted, _⟩
    · exact congrArg List.length records
    · cases accepted
  read := by
    intro tape index buf later filled answer read
    obtain ⟨_, _, _, same, records⟩ := tape_read tape index buf
    rw [same] at read
    cases read
    exact congrArg List.length records
  encoded := fun tape entry => congrArg List.length (answer_records tape (plain entry))
  decoded := fun tape bytes => congrArg List.length (answer_records tape (plainEntry bytes))
  applied := fun tape _ => congrArg List.length (answer_records tape ())

def faulty (faults : List String) : Runtime Tape := newRuntime nodeA [nodeA] 1 ⟨7, none⟩ .leader ⟨[], faults⟩

def faultyAfter (faults : List String) (messages : List Message) : Runtime Tape :=
  (exec (machine tapeWorld (faulty faults)) (faulty faults) messages).getD (faulty faults)

theorem faulty_after_reachable (faults : List String) (messages : List Message)
    (runs : (exec (machine tapeWorld (faulty faults)) (faulty faults) messages).isSome = true) :
    Reachable (machine tapeWorld (faulty faults)) (faultyAfter faults messages) :=
  exec_reaches (machine tapeWorld (faulty faults)) messages _ _ (.start _ rfl) runs

def oneRead : List String := ["", "", "read error"]
def twoReads : List String := ["", "", "read error", "", "", "", "", "", "read error"]
def twoWrites : List Message := [⟨[1], 10⟩, ⟨[2], 11⟩]
def threeWrites : List Message := [⟨[1], 10⟩, ⟨[2], 11⟩, ⟨[3], 12⟩]

-- One failed read alone does no harm: the second write applies both entries.
theorem in_order_one_failure : InOrder (faultyAfter oneRead twoWrites) :=
  (applied_in_order_iff tapeWorld _ tape_consecutive nodeA [nodeA] (fun _ => List.mem_singleton) ⟨7, none⟩ _ rfl _
    (faulty_after_reachable oneRead twoWrites (by decide +kernel))).mpr
    (exec_when_reaches _ _ (fun runtime message => resumes tapeWorld runtime message) (fun _ _ meets => meets) twoWrites
      (faulty oneRead) (faulty oneRead) (.start _ rfl) (by decide +kernel))

-- The second write applies entry 1 and fails on entry 2, the third starts from entry 1 again.
theorem applied_twice :
    ¬ ∀ runtime, Reachable (machine tapeWorld (faulty twoReads)) runtime → InOrder runtime := by
  intro always
  exact absurd (always _ (faulty_after_reachable twoReads threeWrites (by decide +kernel))) (by unfold InOrder; decide +kernel)

end RaftLog.Drive
