import RaftLog.Runtime.Turns

set_option autoImplicit false

namespace RaftLog.Drive

open Lib Replication

-- Every call returns, with a value or an error.
structure Answers {σ : Type} (world : World σ) : Prop where
  append : ∀ state bytes, ∃ later answer, world.append state bytes = .ok (later, answer)
  read : ∀ state index buf, ∃ later filled answer, world.read state index buf = .ok (later, filled, answer)

-- `next` is a lower bound of the index that the log gives to its next record.
structure Increasing {σ : Type} (world : World σ) (next : σ → Nat) : Prop where
  appended : ∀ state bytes later index, world.append state bytes = .ok (later, .ok index) →
    next state ≤ index ∧ index < next later ∧ index < u64Max
  refused : ∀ state bytes later error, world.append state bytes = .ok (later, .error error) → next state ≤ next later
  read : ∀ state index buf later filled answer, world.read state index buf = .ok (later, filled, answer) →
    next state ≤ next later
  encoded : ∀ state entry, next state ≤ next (world.encode state entry).1
  decoded : ∀ state bytes, next state ≤ next (world.decode state bytes).1
  applied : ∀ state command, next state ≤ next (world.apply state command).1

section Loop

variable {σ : Type} (world : World σ)

theorem apply_entry_answers (answers : Answers world) (runtime : Runtime σ) (index : Nat) :
    ∃ last result, applyEntry world runtime index = .ok (last, result) := by
  obtain ⟨later, filled, answer, read⟩ := answers.read runtime.world index []
  unfold applyEntry
  rw [read]
  cases answer with
  | error message => exact ⟨_, _, rfl⟩
  | ok done =>
      dsimp only
      split
      · exact ⟨_, _, rfl⟩
      · split
        · exact ⟨_, _, rfl⟩
        · exact ⟨_, _, rfl⟩

theorem apply_entries_answers (answers : Answers world) (indexes : List Nat) (runtime : Runtime σ) :
    ∃ last result, applyEntries world runtime indexes = .ok (last, result) := by
  induction indexes generalizing runtime with
  | nil => exact ⟨_, _, rfl⟩
  | cons index rest ih =>
      obtain ⟨last, result, first⟩ := apply_entry_answers world answers runtime index
      rw [applyEntries, first]
      cases result with
      | error failure => exact ⟨_, _, rfl⟩
      | ok done => exact ih last

variable (next : σ → Nat) (increasing : Increasing world next)

include increasing

theorem apply_entry_next (runtime last : Runtime σ) (index : Nat) (result : Except Failure Unit)
    (ran : applyEntry world runtime index = .ok (last, result)) : next runtime.world ≤ next last.world := by
  unfold applyEntry at ran
  split at ran
  · cases ran
  · rename_i read
    cases ran
    exact increasing.read _ _ _ _ _ _ read
  · rename_i state buf read
    have first := increasing.read _ _ _ _ _ _ read
    have second := increasing.decoded state buf
    split at ran
    · rename_i decoded
      cases ran
      rw [decoded] at second
      exact first.trans second
    · rename_i middle entry decoded
      rw [decoded] at second
      have third := increasing.applied middle entry.command
      split at ran
      · rename_i applied
        cases ran
        rw [applied] at third
        exact first.trans (second.trans third)
      · rename_i applied
        cases ran
        rw [applied] at third
        exact first.trans (second.trans third)

theorem apply_entries_next (indexes : List Nat) (runtime last : Runtime σ) (result : Except Failure Unit)
    (ran : applyEntries world runtime indexes = .ok (last, result)) : next runtime.world ≤ next last.world := by
  induction indexes generalizing runtime with
  | nil =>
      cases ran
      exact le_rfl
  | cons index rest ih =>
      rw [applyEntries] at ran
      split at ran
      · cases ran
      · rename_i first
        cases ran
        exact apply_entry_next world next increasing runtime _ index _ first
      · rename_i middle first
        exact (apply_entry_next world next increasing runtime middle index _ first).trans (ih middle ran)

end Loop

-- Between two messages.
structure Idle {σ : Type} (next : σ → Nat) (count : Nat) (runtime : Runtime σ) : Prop where
  alone : Alone runtime.raft
  quiet : runtime.operations = ∅
  ids : runtime.nextOperationId = count + 1
  applied : runtime.raft.lastApplied ≤ runtime.raft.commitIndex
  committed : runtime.raft.commitIndex = runtime.raft.lastLogIndex
  behind : runtime.raft.lastLogIndex = 0 ∨ runtime.raft.lastLogIndex < next runtime.world

theorem idle_step {σ : Type} (world : World σ) (answers : Answers world) (next : σ → Nat) (increasing : Increasing world next)
    (count : Nat) (runtime : Runtime σ) (idle : Idle next count runtime) (message : Message) (few : count < 2 ^ 63) (fuel : Nat) :
    ∃ after result, handleMessage world (fuel + 3) runtime message = some (.ok after) ∧ Idle next (count + 1) after ∧
      after.replies = (message.reply, result) :: runtime.replies := by
  have ids : runtime.nextOperationId < u64Max := by
    rw [idle.ids]
    unfold u64Max
    omega
  obtain ⟨outcome, handled, step⟩ := write_step world fuel runtime message idle.alone idle.quiet ids
  have counts : runtime.nextOperationId + 1 = count + 1 + 1 := by rw [idle.ids]
  have encodes := increasing.encoded runtime.world (entryOf runtime message)
  cases step with
  | notLeader =>
      exact ⟨_, _, handled, ⟨idle.alone, rfl, counts, idle.applied, idle.committed, idle.behind⟩, rfl⟩
  | unencoded _ state error encoded =>
      rw [encoded] at encodes
      exact ⟨_, _, handled, ⟨idle.alone, rfl, counts, idle.applied, idle.committed,
        idle.behind.imp_right fun below => below.trans_le encodes⟩, rfl⟩
  | appendUnwinds _ state bytes panic _ unwound =>
      obtain ⟨later, answer, appended⟩ := answers.append state bytes
      rw [appended] at unwound
      cases unwound
  | unappended _ state later bytes error encoded refused =>
      rw [encoded] at encodes
      have refuses := increasing.refused _ _ _ _ refused
      exact ⟨_, _, handled, ⟨idle.alone, rfl, counts, idle.applied, idle.committed,
        idle.behind.imp_right fun below => below.trans_le (encodes.trans refuses)⟩, rfl⟩
  | overflows _ state later bytes index panic _ appended most =>
      exact absurd (increasing.appended _ _ _ _ appended).2.2 most
  | readUnwinds _ state later bytes index panic _ _ _ unwound =>
      obtain ⟨last, result, ran⟩ := apply_entries_answers world answers (unapplied runtime.raft index)
        (runtime.committing message index later bytes)
      rw [ran] at unwound
      cases unwound
  | applies _ state later bytes index last result encoded appended most ran =>
      rw [encoded] at encodes
      dsimp only at encodes
      obtain ⟨least, below, _⟩ := increasing.appended _ _ _ _ appended
      have loops := apply_entries_next world next increasing _ _ last result ran
      have alone := committed_alone runtime.raft (localEntry runtime index) idle.alone
      have reached : runtime.raft.lastApplied ≤ index := by
        have applied := idle.applied
        have committed := idle.committed
        rcases idle.behind with none | before
        · omega
        · omega
      have behind : index < next last.world := below.trans_le loops
      refine ⟨_, _, handled, ?_, rfl⟩
      cases result with
      | ok done => exact ⟨⟨alone.voters, alone.member, alone.learners⟩, rfl, counts, le_rfl, rfl, .inr behind⟩
      | error failure => exact ⟨alone, rfl, counts, reached, rfl, .inr behind⟩

structure Replied {σ : Type} (messages : List Message) (runtime : Runtime σ) : Prop where
  once : runtime.replies.reverse.map Prod.fst = messages.map Message.reply
  quiet : runtime.operations = ∅
  applied : runtime.raft.lastApplied ≤ runtime.raft.commitIndex
  committed : runtime.raft.commitIndex = runtime.raft.lastLogIndex

theorem idle_run {σ : Type} (world : World σ) (answers : Answers world) (next : σ → Nat) (increasing : Increasing world next)
    (messages : List Message) (count : Nat) (runtime : Runtime σ) (idle : Idle next count runtime)
    (few : count + messages.length < 2 ^ 63) (fuel : Nat) :
    ∃ after, handleAll world (fuel + 3) runtime messages = some (.ok after) ∧ Idle next (count + messages.length) after ∧
      after.replies.reverse.map Prod.fst = runtime.replies.reverse.map Prod.fst ++ messages.map Message.reply := by
  induction messages generalizing count runtime with
  | nil => exact ⟨runtime, rfl, idle, by simp⟩
  | cons message rest ih =>
      rw [List.length_cons] at few
      obtain ⟨middle, result, handled, later, replied⟩ :=
        idle_step world answers next increasing count runtime idle message (by omega) fuel
      obtain ⟨after, handledAll, last, repliedAll⟩ := ih (count + 1) middle later (by omega)
      refine ⟨after, ?_, ?_, ?_⟩
      · rw [handleAll, handled]
        exact handledAll
      · rw [List.length_cons]
        rwa [Nat.add_assoc, Nat.add_comm 1] at last
      · rw [repliedAll, replied]
        simp

theorem new_alone (id : NodeId) (voters : List NodeId) (nextOffset : Nat) (state : State) (role : Role)
    (only : ∀ voter, voter ∈ voters ↔ voter = id) :
    Alone { newRaft id voters nextOffset state with role := role } := by
  have keys : ∀ voter, voter ∈ (newRaft id voters nextOffset state).voters.keys ↔ voter = id := by
    intro voter
    rw [← List.mem_toFinset, new_raft_voters, List.mem_toFinset]
    exact only voter
  exact ⟨fun voter member => (keys voter).mp member, AList.mem_keys.mpr ((keys id).mpr rfl), rfl⟩

-- Three rounds of drive are enough for every message.
theorem exactly_one_reply {σ : Type} (world : World σ) (answers : Answers world) (next : σ → Nat)
    (increasing : Increasing world next) (id : NodeId) (voters : List NodeId) (only : ∀ voter, voter ∈ voters ↔ voter = id)
    (nextOffset : Nat) (state : State) (role : Role) (start : σ) (messages : List Message) (few : messages.length < 2 ^ 63)
    (fuel : Nat) (rounds : 3 ≤ fuel) :
    ∃ runtime, handleAll world fuel (newRuntime id voters nextOffset state role start) messages = some (.ok runtime) ∧
      Replied messages runtime := by
  obtain ⟨more, rfl⟩ := Nat.exists_eq_add_of_le' rounds
  have idle : Idle next 0 (newRuntime id voters nextOffset state role start) :=
    ⟨new_alone id voters nextOffset state role only, rfl, rfl, le_rfl, rfl, .inl rfl⟩
  obtain ⟨after, handled, later, replied⟩ := idle_run world answers next increasing messages 0 _ idle (by omega) more
  exact ⟨after, handled, replied, later.quiet, later.applied, later.committed⟩

-- A log in memory, and one answer for each call that can fail: the empty text is Ok.
structure Tape where
  records : List Bytes
  faults : List String

def Tape.answer {α : Type} (tape : Tape) (value : α) : Tape × Except String α :=
  match tape.faults with
  | [] => (tape, .ok value)
  | fault :: rest => ({ tape with faults := rest }, if fault = "" then .ok value else .error fault)

def plain (entry : LogEntry) : Bytes := UInt8.ofNat entry.term :: entry.command

def plainEntry (bytes : Bytes) : LogEntry := ⟨(bytes.headD 0).toNat, bytes.tail⟩

def tapeWorld : World Tape where
  encode := fun tape entry => tape.answer (plain entry)
  append := fun tape bytes =>
    match tape.answer (tape.records.length + 1) with
    | (tape, .ok index) =>
        if index < u64Max then .ok ({ tape with records := tape.records ++ [bytes] }, .ok index)
        else .ok (tape, .error "offset space exhausted")
    | (tape, .error message) => .ok (tape, .error message)
  read := fun tape index buf =>
    match tape.answer (tape.records[index - 1]?.getD buf) with
    | (tape, .ok record) => .ok (tape, record, .ok ())
    | (tape, .error message) => .ok (tape, buf, .error message)
  decode := fun tape bytes => tape.answer (plainEntry bytes)
  apply := fun tape _ => tape.answer ()
  saveState := fun tape _ => tape.answer ()

theorem answer_records {α : Type} (tape : Tape) (value : α) : (tape.answer value).1.records = tape.records := by
  unfold Tape.answer
  split
  · rfl
  · rfl

theorem answer_value {α : Type} (tape : Tape) (value got : α) (answered : (tape.answer value).2 = .ok got) : got = value := by
  unfold Tape.answer at answered
  split at answered
  · exact (Except.ok.inj answered).symm
  · dsimp only at answered
    split at answered
    · exact (Except.ok.inj answered).symm
    · cases answered

theorem tape_append (tape later : Tape) (bytes : Bytes) (answer : Except String Nat)
    (appended : tapeWorld.append tape bytes = .ok (later, answer)) :
    (∃ error, answer = .error error ∧ later.records = tape.records) ∨
      answer = .ok (tape.records.length + 1) ∧ later.records = tape.records ++ [bytes] ∧ tape.records.length + 1 < u64Max := by
  have records := answer_records tape (tape.records.length + 1)
  have value := answer_value tape (tape.records.length + 1)
  simp only [tapeWorld] at appended
  split at appended
  · rename_i middle index same
    rw [same] at records value
    obtain rfl := value index rfl
    split at appended
    · rename_i room
      cases appended
      exact .inr ⟨rfl, congrArg (· ++ [bytes]) records, room⟩
    · cases appended
      exact .inl ⟨_, rfl, records⟩
  · rename_i middle message same
    rw [same] at records
    cases appended
    exact .inl ⟨_, rfl, records⟩

theorem tape_read (tape : Tape) (index : Nat) (buf : Bytes) :
    ∃ later filled answer, tapeWorld.read tape index buf = .ok (later, filled, answer) ∧ later.records = tape.records := by
  have records := answer_records tape (tape.records[index - 1]?.getD buf)
  simp only [tapeWorld]
  split
  · rename_i same
    rw [same] at records
    exact ⟨_, _, _, rfl, records⟩
  · rename_i same
    rw [same] at records
    exact ⟨_, _, _, rfl, records⟩

theorem tape_answers : Answers tapeWorld where
  append := by
    intro tape bytes
    simp only [tapeWorld]
    split
    · split
      · exact ⟨_, _, rfl⟩
      · exact ⟨_, _, rfl⟩
    · exact ⟨_, _, rfl⟩
  read := by
    intro tape index buf
    obtain ⟨later, filled, answer, read, _⟩ := tape_read tape index buf
    exact ⟨later, filled, answer, read⟩

theorem tape_increasing : Increasing tapeWorld fun tape => tape.records.length + 1 where
  appended := by
    intro tape bytes later index appended
    rcases tape_append tape later bytes _ appended with ⟨_, refused, _⟩ | ⟨same, records, room⟩
    · cases refused
    · cases same
      rw [records, List.length_append, List.length_singleton]
      exact ⟨le_rfl, Nat.lt_succ_self _, room⟩
  refused := by
    intro tape bytes later error appended
    rcases tape_append tape later bytes _ appended with ⟨_, _, records⟩ | ⟨accepted, _⟩
    · rw [records]
    · cases accepted
  read := by
    intro tape index buf later filled answer read
    obtain ⟨_, _, _, same, records⟩ := tape_read tape index buf
    rw [same] at read
    cases read
    rw [records]
  encoded := fun tape entry => by simp only [tapeWorld, answer_records, le_refl]
  decoded := fun tape bytes => by simp only [tapeWorld, answer_records, le_refl]
  applied := fun tape command => by simp only [tapeWorld, answer_records, le_refl]

-- The second write is appended but not applied, the third applies both.
theorem one_reply_with_faults :
    ∃ runtime, handleAll tapeWorld 3
        (newRuntime nodeA [nodeA] 1 ⟨7, none⟩ .leader ⟨[], ["", "", "", "", "", "", "", "read error"]⟩)
        [⟨[1], 10⟩, ⟨[2], 11⟩, ⟨[3], 12⟩] = some (.ok runtime) ∧ Replied [⟨[1], 10⟩, ⟨[2], 11⟩, ⟨[3], 12⟩] runtime :=
  exactly_one_reply tapeWorld tape_answers _ tape_increasing nodeA [nodeA] (fun _ => List.mem_singleton) 1 ⟨7, none⟩ .leader _
    [⟨[1], 10⟩, ⟨[2], 11⟩, ⟨[3], 12⟩] (by decide) 3 le_rfl

end RaftLog.Drive
