import RaftLog.Runtime.Writing

set_option autoImplicit false

namespace RaftLog.Drive

open Lib Replication

-- The entry is encoded and the log takes it.
def accepts (cfg : SegmentLog.Config) (codec : Codec) (service : Service) (message : Message) : Bool :=
  match codec.encode (entryOf service.runtime message) with
  | .error _ => false
  | .ok bytes =>
      match (backed cfg codec).append service.runtime.world bytes with
      | .ok (_, .ok _) => true
      | _ => false

-- Every write was answered Ok and its command applied, once and in its turn.
structure Done (service : Service) : Prop where
  answered : service.runtime.replies = service.handled.map fun message => (message.reply, .ok ())
  given : service.runtime.world.given = service.handled.map Message.data

-- The log holds the entries of all writes, and the runtime is between two of them.
structure Filed (cfg : SegmentLog.Config) (codec : Codec) (service : Service) (data : List Bytes) : Prop where
  alone : Alone service.runtime.raft
  quiet : service.runtime.operations = ∅
  leader : service.runtime.raft.role = .leader
  stands : SegmentLog.Stands cfg ⟨2 ^ 32, true⟩ service.runtime.world.dir (some service.runtime.world.log) data
  decodes : List.Forall₂ (fun bytes message => codec.decode bytes = .ok ⟨service.runtime.raft.currentTerm, Message.data message⟩)
    data service.handled.reverse

-- With a log that starts at 0 or 1 all commands are applied but those at offset 0.
structure Caught (cfg : SegmentLog.Config) (service : Service) : Prop where
  answered : service.runtime.replies = service.handled.map fun message => (message.reply, .ok ())
  applied : service.runtime.raft.lastApplied = cfg.initalOffset + service.handled.length - 1
  given : service.runtime.world.given = (service.handled.map Message.data).take service.runtime.raft.lastApplied

-- With a log that starts further on there is nothing to read at offset 1.
structure Stuck (service : Service) : Prop where
  answered : service.runtime.replies =
    service.handled.map fun message => (message.reply, .error (.readCommittedEntryFailed "offset out of range"))
  applied : service.runtime.raft.lastApplied = 0
  given : service.runtime.world.given = []

section Offsets

variable (cfg : SegmentLog.Config) (codec : Codec)

theorem filed_length (service : Service) (data : List Bytes) (filed : Filed cfg codec service data) :
    data.length = service.handled.length := by
  rw [filed.decodes.length_eq, List.length_reverse]

theorem started_filed (id : NodeId) (voters : List NodeId) (only : ∀ voter, voter ∈ voters ↔ voter = id) (state : State)
    (service : Service) (started : Started cfg id voters state service) : Filed cfg codec service [] := by
  have persisted := started_persisted cfg codec id voters only state service started
  obtain ⟨log, next, _, _, rfl⟩ := started
  exact ⟨persisted.alone, persisted.quiet, persisted.leader, persisted.stands, .nil⟩

-- What is known of a write that the log has taken.
structure Taken (service : Service) (message : Message) (data : List Bytes) (bytes : Bytes) (later : Backing) : Prop where
  encodes : codec.encode (entryOf service.runtime message) = .ok bytes
  appended : (backed cfg codec).append service.runtime.world bytes = .ok (later, .ok (cfg.initalOffset + data.length))
  given : later.given = service.runtime.world.given
  stands : SegmentLog.Stands cfg ⟨2 ^ 32, true⟩ later.dir (some later.log) (data ++ [bytes])
  most : cfg.initalOffset + data.length < u64Max

theorem backed_taken (state later : Backing) (data : List Bytes)
    (stands : SegmentLog.Stands cfg ⟨2 ^ 32, true⟩ state.dir (some state.log) data) (bytes : Bytes)
    (fits : state.log.fits bytes = true) (room : state.log.roomFor (2 ^ 32) = true) (index : Nat)
    (appended : (backed cfg codec).append state bytes = .ok (later, .ok index)) :
    index = cfg.initalOffset + data.length ∧ later.given = state.given ∧
      SegmentLog.Stands cfg ⟨2 ^ 32, true⟩ later.dir (some later.log) (data ++ [bytes]) := by
  cases same : state.log.append cfg state.dir bytes with
  | mk log outcome =>
      obtain ⟨writes, answer⟩ := outcome
      simp only [backed, same] at appended
      cases answer with
      | error failure => cases failure <;> cases appended
      | ok off =>
          cases appended
          have grown := SegmentLog.stands_append cfg ⟨2 ^ 32, true⟩ state.dir state.log data stands bytes fits room
            (by rw [same]; exact fun _ unwound => by cases unwound)
          rw [same] at grown
          rcases grown with ⟨here, added⟩ | ⟨refused, _⟩
          · exact ⟨Except.ok.inj here, rfl, added⟩
          · cases refused

theorem write_taken (service next : Service) (message : Message) (data : List Bytes) (filed : Filed cfg codec service data)
    (room : service.runtime.world.log.roomFor (2 ^ 32) = true) (taken : accepts cfg codec service message = true)
    (moves : serve cfg codec service message = some next) :
    (∃ bytes later, Taken cfg codec service message data bytes later) ∧
      storable codec service.runtime message = true ∧ service.runtime.nextOperationId < u64Max := by
  rw [serve] at moves
  split at moves
  case isFalse => cases moves
  rename_i fits
  obtain ⟨after, stepped, _⟩ := Option.map_eq_some_iff.mp moves
  refine ⟨?_, fits, step_ids (backed cfg codec) service.runtime after message stepped⟩
  cases encodes : codec.encode (entryOf service.runtime message) with
  | error error => simp [accepts, encodes] at taken
  | ok bytes =>
      rw [Drive.storable, encodes] at fits
      simp only [accepts, encodes] at taken
      cases step_outcome (backed cfg codec) service.runtime after message filed.alone filed.quiet stepped with
      | notLeader role => exact absurd filed.leader role
      | unencoded _ state error encoded => cases encodes.symm.trans (congrArg Prod.snd encoded)
      | unappended _ state later other error encoded refused =>
          cases encodes.symm.trans (congrArg Prod.snd encoded)
          cases congrArg Prod.fst encoded
          rw [refused] at taken
          cases taken
      | applies _ state later other index last result encoded appended most ran =>
          cases encodes.symm.trans (congrArg Prod.snd encoded)
          cases congrArg Prod.fst encoded
          obtain ⟨rfl, given, stands⟩ :=
            backed_taken cfg codec service.runtime.world later data filed.stands bytes fits room index appended
          exact ⟨bytes, later, encodes, appended, given, stands, most⟩

-- Whatever comes of it, the entry of the write is in the log.
theorem filed_answered (service : Service) (message : Message) (data : List Bytes) (bytes : Bytes)
    (filed : Filed cfg codec service data) (encodes : codec.encode (entryOf service.runtime message) = .ok bytes)
    (final : Backing) (stands : SegmentLog.Stands cfg ⟨2 ^ 32, true⟩ final.dir (some final.log) (data ++ [bytes])) (index : Nat)
    (buf : Bytes) (applied : List Nat) (result : Except Failure Unit) :
    Filed cfg codec ⟨service.runtime.answered (appliedRaft service.runtime.raft (localEntry service.runtime index) result)
      final buf applied message.reply result, message :: service.handled⟩ (data ++ [bytes]) := by
  have alone := committed_alone service.runtime.raft (localEntry service.runtime index) filed.alone
  have decoded := codec.inverse _ _ encodes
  have raft : ∀ result, Alone (appliedRaft service.runtime.raft (localEntry service.runtime index) result) ∧
      (appliedRaft service.runtime.raft (localEntry service.runtime index) result).role = .leader ∧
      (appliedRaft service.runtime.raft (localEntry service.runtime index) result).currentTerm =
        service.runtime.raft.currentTerm := by
    intro result
    cases result with
    | error failure => exact ⟨alone, filed.leader, rfl⟩
    | ok _ => exact ⟨⟨alone.voters, alone.member, alone.learners⟩, filed.leader, rfl⟩
  constructor
  case alone => exact (raft result).1
  case quiet => rfl
  case leader => exact (raft result).2.1
  case stands => exact stands
  case decodes =>
    have term : (service.runtime.answered (appliedRaft service.runtime.raft (localEntry service.runtime index) result) final buf
        applied message.reply result).raft.currentTerm = service.runtime.raft.currentTerm := (raft result).2.2
    rw [term, List.reverse_cons]
    exact List.rel_append filed.decodes (.cons decoded .nil)

theorem backed_read_outside (state : Backing) (data : List Bytes)
    (stands : SegmentLog.Stands cfg ⟨2 ^ 32, true⟩ state.dir (some state.log) data) (off : Nat) (buf : Bytes)
    (below : off < cfg.initalOffset) :
    ∃ filled, (backed cfg codec).read state off buf = .ok (state.afterRead off buf, filled, .error "offset out of range") := by
  have failed := SegmentLog.stands_outside cfg ⟨2 ^ 32, true⟩ state.dir state.log data stands off buf (.inl below)
  rw [Backing.afterRead]
  cases same : state.log.read state.dir off buf with
  | mk log outcome =>
      obtain ⟨writes, filled, answer⟩ := outcome
      rw [same] at failed
      cases failed
      exact ⟨filled, by simp only [backed, same]⟩

section Write

variable (service : Service) (message : Message) (data : List Bytes) (bytes : Bytes) (later : Backing)
  (filed : Filed cfg codec service data) (taken : Taken cfg codec service message data bytes later)

include filed taken

-- The entry behind the last applied one is read and applied.
theorem next_applies (behind : cfg.initalOffset + data.length = service.runtime.raft.lastApplied + 1) :
    WriteStep (backed cfg codec) service.runtime message (.ok (written service.runtime message
        (later.afterRead (service.runtime.raft.lastApplied + 1) []) bytes (entryOf service.runtime message))) ∧
      Filed cfg codec ⟨written service.runtime message (later.afterRead (service.runtime.raft.lastApplied + 1) []) bytes
        (entryOf service.runtime message), message :: service.handled⟩ (data ++ [bytes]) := by
  have appended := taken.appended
  have record : (data ++ [bytes])[data.length]? = some bytes := by simp
  have whole := SegmentLog.stands_whole cfg ⟨2 ^ 32, true⟩ _ _ _ taken.stands rfl le_rfl data.length bytes [] record
  rw [behind] at appended whole
  have kept := SegmentLog.stands_read cfg ⟨2 ^ 32, true⟩ _ _ _ taken.stands (service.runtime.raft.lastApplied + 1) []
  exact ⟨write_applies cfg codec service.runtime message filed.leader bytes taken.encodes later appended (behind ▸ taken.most)
      bytes whole _ (codec.inverse _ _ taken.encodes),
    filed_answered cfg codec service message data bytes filed taken.encodes _ kept _ _ _ (.ok ())⟩

-- The batch that goes up to the entry at offset 0 is empty.
theorem first_skipped (first : cfg.initalOffset + data.length = 0) :
    ∃ after : Runtime Backing, WriteStep (backed cfg codec) service.runtime message (.ok after) ∧
      Filed cfg codec ⟨after, message :: service.handled⟩ (data ++ [bytes]) ∧
      after.replies = (message.reply, .ok ()) :: service.runtime.replies ∧ after.raft.lastApplied = 0 ∧
      after.world.given = service.runtime.world.given := by
  have encoded : (backed cfg codec).encode service.runtime.world (entryOf service.runtime message) =
      (service.runtime.world, .ok bytes) := congrArg _ taken.encodes
  have empty : unapplied service.runtime.raft 0 = [] := by
    have beyond : 0 + 1 - saturatingAdd service.runtime.raft.lastApplied 1 = 0 := by
      unfold saturatingAdd u64Max
      omega
    rw [unapplied, beyond]
    rfl
  have ran : applyEntries (backed cfg codec) (service.runtime.committing message 0 later bytes) (unapplied service.runtime.raft 0) =
      .ok (service.runtime.committing message 0 later bytes, .ok ()) := by
    rw [empty]
    rfl
  have appended := taken.appended
  rw [first] at appended
  exact ⟨_, .applies filed.leader _ later bytes 0 _ _ encoded appended (by decide) ran,
    filed_answered cfg codec service message data bytes filed taken.encodes later taken.stands 0 _ _ (.ok ()), rfl, rfl, taken.given⟩

-- The batch starts at offset 1, which is before the log.
theorem first_missing (further : 1 < cfg.initalOffset) (none : service.runtime.raft.lastApplied = 0) :
    ∃ after : Runtime Backing, WriteStep (backed cfg codec) service.runtime message (.ok after) ∧
      Filed cfg codec ⟨after, message :: service.handled⟩ (data ++ [bytes]) ∧
      after.replies = (message.reply, .error (.readCommittedEntryFailed "offset out of range")) :: service.runtime.replies ∧
      after.raft.lastApplied = 0 ∧ after.world.given = service.runtime.world.given := by
  have encoded : (backed cfg codec).encode service.runtime.world (entryOf service.runtime message) =
      (service.runtime.world, .ok bytes) := congrArg _ taken.encodes
  obtain ⟨filled, failed⟩ := backed_read_outside cfg codec later _ taken.stands 1 [] further
  have kept := SegmentLog.stands_read cfg ⟨2 ^ 32, true⟩ _ _ _ taken.stands 1 []
  have batch : ∃ rest, unapplied service.runtime.raft (cfg.initalOffset + data.length) = 1 :: rest := by
    obtain ⟨count, length⟩ : ∃ count, cfg.initalOffset + data.length = count + 1 := Nat.exists_eq_succ_of_ne_zero (by omega)
    have start : saturatingAdd service.runtime.raft.lastApplied 1 = 1 := by rw [none]; rfl
    rw [unapplied, start, length, Nat.add_sub_cancel, List.range'_succ]
    exact ⟨_, rfl⟩
  obtain ⟨rest, batch⟩ := batch
  have ran : applyEntries (backed cfg codec)
      (service.runtime.committing message (cfg.initalOffset + data.length) later bytes)
      (unapplied service.runtime.raft (cfg.initalOffset + data.length)) =
      .ok ({ service.runtime.committing message (cfg.initalOffset + data.length) later bytes with
        world := later.afterRead 1 [], buf := filled }, .error (.readCommittedEntryFailed "offset out of range")) := by
    have world : (service.runtime.committing message (cfg.initalOffset + data.length) later bytes).world = later := rfl
    rw [batch, applyEntries, applyEntry, world, failed]
  exact ⟨_, .applies filed.leader _ later bytes _ _ _ encoded taken.appended taken.most ran,
    filed_answered cfg codec service message data bytes filed taken.encodes _ kept _ _ _ (.error _), rfl, none, taken.given⟩

end Write

theorem caught_step (service next : Service) (message : Message) (data : List Bytes) (filed : Filed cfg codec service data)
    (near : cfg.initalOffset ≤ 1) (caught : Caught cfg service) (room : service.runtime.world.log.roomFor (2 ^ 32) = true)
    (accepted : accepts cfg codec service message = true) (moves : serve cfg codec service message = some next) :
    (∃ later, Filed cfg codec next later) ∧ Caught cfg next := by
  obtain ⟨⟨bytes, later, taken⟩, fits, ids⟩ := write_taken cfg codec service next message data filed room accepted moves
  have length := filed_length cfg codec service data filed
  have applied := caught.applied
  by_cases first : cfg.initalOffset + data.length = 0
  · obtain ⟨after, ends, filedAfter, replies, none, given⟩ :=
      first_skipped cfg codec service message data bytes later filed taken first
    cases moves.symm.trans (serve_ends cfg codec service message filed.alone filed.quiet ids fits after ends)
    have fresh : service.handled = [] := List.eq_nil_of_length_eq_zero (by omega)
    have nothing := caught.given
    rw [fresh] at nothing
    refine ⟨⟨_, filedAfter⟩, ?_⟩
    constructor
    case answered => rw [replies, caught.answered]; rfl
    case applied =>
      rw [none, fresh]
      have zero : cfg.initalOffset = 0 := by omega
      rw [zero]
      rfl
    case given => rw [given, none, nothing, List.map_nil, List.take_nil, List.take_zero]
  · have behind : cfg.initalOffset + data.length = service.runtime.raft.lastApplied + 1 := by omega
    obtain ⟨ends, filedAfter⟩ := next_applies cfg codec service message data bytes later filed taken behind
    cases moves.symm.trans (serve_ends cfg codec service message filed.alone filed.quiet ids fits _ ends)
    refine ⟨⟨_, filedAfter⟩, ?_⟩
    constructor
    case answered => exact congrArg ((message.reply, .ok ()) :: ·) caught.answered
    case applied =>
      have more : (message :: service.handled).length = service.handled.length + 1 := rfl
      rw [more]
      have same : service.runtime.raft.lastApplied + 1 = cfg.initalOffset + (service.handled.length + 1) - 1 := by omega
      exact same
    case given => exact congrArg (message.data :: ·) (taken.given.trans caught.given)

theorem stuck_step (service next : Service) (message : Message) (data : List Bytes) (filed : Filed cfg codec service data)
    (further : 1 < cfg.initalOffset) (stuck : Stuck service) (room : service.runtime.world.log.roomFor (2 ^ 32) = true)
    (accepted : accepts cfg codec service message = true) (moves : serve cfg codec service message = some next) :
    (∃ later, Filed cfg codec next later) ∧ Stuck next := by
  obtain ⟨⟨bytes, later, taken⟩, fits, ids⟩ := write_taken cfg codec service next message data filed room accepted moves
  obtain ⟨after, ends, filedAfter, replies, none, given⟩ :=
    first_missing cfg codec service message data bytes later filed taken further stuck.applied
  cases moves.symm.trans (serve_ends cfg codec service message filed.alone filed.quiet ids fits after ends)
  exact ⟨⟨_, filedAfter⟩, by rw [replies, stuck.answered]; rfl, none, given.trans stuck.given⟩

-- Where the run has got to, by where the log starts.
def Progressed (service : Service) : Prop := if cfg.initalOffset ≤ 1 then Caught cfg service else Stuck service

theorem started_progressed (id : NodeId) (voters : List NodeId) (state : State) (service : Service)
    (started : Started cfg id voters state service) : Progressed cfg service := by
  obtain ⟨log, next, _, _, rfl⟩ := started
  unfold Progressed
  split
  · rename_i near
    have zero : 0 = cfg.initalOffset + 0 - 1 := by omega
    exact ⟨rfl, zero, rfl⟩
  · exact ⟨rfl, rfl, rfl⟩

theorem progressed_step (service next : Service) (message : Message) (data : List Bytes) (filed : Filed cfg codec service data)
    (progressed : Progressed cfg service) (room : service.runtime.world.log.roomFor (2 ^ 32) = true)
    (accepted : accepts cfg codec service message = true) (moves : serve cfg codec service message = some next) :
    (∃ later, Filed cfg codec next later) ∧ Progressed cfg next := by
  unfold Progressed at progressed ⊢
  split at progressed
  · rename_i near
    rw [if_pos near]
    exact caught_step cfg codec service next message data filed near progressed room accepted moves
  · rename_i further
    rw [if_neg further]
    exact stuck_step cfg codec service next message data filed (Nat.lt_of_not_le further) progressed room accepted moves

theorem progressed_done_iff (service : Service) (progressed : Progressed cfg service) :
    Done service ↔ cfg.initalOffset = 1 ∨ service.handled = [] := by
  unfold Progressed at progressed
  split at progressed
  · rename_i near
    have applied := progressed.applied
    have whole : Done service ↔ service.handled.length ≤ service.runtime.raft.lastApplied := by
      rw [← List.length_map (f := Message.data), ← List.take_eq_self_iff, ← progressed.given]
      exact ⟨Done.given, fun given => ⟨progressed.answered, given⟩⟩
    rw [whole, applied, ← List.length_eq_zero_iff]
    omega
  · rename_i further
    rw [or_iff_right (by omega)]
    constructor
    · intro done
      have both := progressed.answered.symm.trans done.answered
      cases handled : service.handled with
      | nil => rfl
      | cons message rest =>
          rw [handled] at both
          cases both
    · intro none
      have answered := progressed.answered
      rw [none] at answered
      exact ⟨by rw [none]; exact answered, by rw [none]; exact progressed.given⟩

-- A run whose writes are all taken by the log, each with the active segment without a free
-- slot or with fewer than 2^32 records.
theorem offsets_correspond_iff (id : NodeId) (voters : List NodeId) (only : ∀ voter, voter ∈ voters ↔ voter = id)
    (state : State) (service : Service) (run : Run (served cfg codec id voters state)
      (fun service message => accepts cfg codec service message = true ∧ service.runtime.world.log.roomFor (2 ^ 32) = true)
      service) : Done service ↔ cfg.initalOffset = 1 ∨ service.handled = [] := by
  have progress : (∃ data, Filed cfg codec service data) ∧ Progressed cfg service := by
    apply run_invariant (served cfg codec id voters state) _
      (fun service => (∃ data, Filed cfg codec service data) ∧ Progressed cfg service) ?_ ?_ service run
    · intro service started
      exact ⟨⟨[], started_filed cfg codec id voters only state service started⟩,
        started_progressed cfg id voters state service started⟩
    · rintro service message next _ ⟨⟨data, filed⟩, progressed⟩ ⟨accepted, room⟩ moves
      exact progressed_step cfg codec service next message data filed progressed room accepted moves
  exact progressed_done_iff cfg service progress.2

end Offsets

def takenAfter (cfg : SegmentLog.Config) (start : Service) (messages : List Message) : Service :=
  (execWhen (served cfg shortCodec nodeA [nodeA] ⟨7, none⟩)
    (fun service message => accepts cfg shortCodec service message && service.runtime.world.log.roomFor (2 ^ 32))
    start messages).getD start

theorem taken_after_run (cfg : SegmentLog.Config) (start : Service) (messages : List Message)
    (starts : (served cfg shortCodec nodeA [nodeA] ⟨7, none⟩).start start)
    (runs : (execWhen (served cfg shortCodec nodeA [nodeA] ⟨7, none⟩)
      (fun service message => accepts cfg shortCodec service message && service.runtime.world.log.roomFor (2 ^ 32))
      start messages).isSome = true) :
    Run (served cfg shortCodec nodeA [nodeA] ⟨7, none⟩) (fun service message =>
      accepts cfg shortCodec service message = true ∧ service.runtime.world.log.roomFor (2 ^ 32) = true)
      (takenAfter cfg start messages) :=
  exec_when_reaches _ _ _ (fun _ _ both => Bool.and_eq_true_iff.mp both) messages start start (.start start starts) runs

theorem two_writes_done : (takenAfter tightConfig tightStart twoWrites).handled.length = 2 ∧
    Done (takenAfter tightConfig tightStart twoWrites) :=
  ⟨by decide +kernel, (offsets_correspond_iff tightConfig shortCodec nodeA [nodeA] (fun _ => List.mem_singleton) ⟨7, none⟩ _
    (taken_after_run tightConfig tightStart twoWrites ⟨_, 1, by decide +kernel, by decide +kernel, rfl⟩
      (by decide +kernel))).mpr (.inl rfl)⟩

def zeroConfig : SegmentLog.Config := ⟨0, true, 30, 1024⟩

def zeroStart : Service where
  runtime := newRuntime nodeA [nodeA] 0 ⟨7, none⟩ .leader
    ⟨SegmentLog.emptyDir.applyAll (SegmentLog.Log.new zeroConfig SegmentLog.emptyDir).1,
      (SegmentLog.Log.new zeroConfig SegmentLog.emptyDir).2.toOption.getD ⟨0, []⟩, []⟩
  handled := []

-- The first write on a log that starts at 0 is answered Ok and not applied.
theorem first_write_unapplied : ¬ ∀ (cfg : SegmentLog.Config) (codec : Codec) (id : NodeId) (voters : List NodeId) (state : State),
    (∀ voter, voter ∈ voters ↔ voter = id) → ∀ service, Run (served cfg codec id voters state)
      (fun service message => accepts cfg codec service message = true) service → Done service := by
  intro always
  have run := taken_after_run zeroConfig zeroStart [⟨[1], 10⟩] ⟨_, 0, by decide +kernel, by decide +kernel, rfl⟩ (by decide +kernel)
  have done := always zeroConfig shortCodec nodeA [nodeA] ⟨7, none⟩ (fun _ => List.mem_singleton) _
    (run_weaken _ _ _ (fun _ _ both => both.1) _ run)
  exact absurd done.given (by decide +kernel)

end RaftLog.Drive
