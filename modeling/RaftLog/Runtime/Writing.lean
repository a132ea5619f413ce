import RaftLog.Runtime.Applying
import RaftLog.SegmentLog.ReadBack

set_option autoImplicit false

namespace RaftLog.Drive

open Lib Replication

-- LogEntry::encode and LogEntry::decode
structure Codec where
  encode : LogEntry → Except String Bytes
  decode : Bytes → Except String LogEntry
  inverse : ∀ entry bytes, encode entry = .ok bytes → decode bytes = .ok entry

-- The log, the directory it is in, and the commands that its FSM was given, newest first.
structure Backing where
  dir : SegmentLog.Dir
  log : SegmentLog.Log
  given : List Bytes

-- The FSM accepts every command. No write saves the hard state.
def backed (cfg : SegmentLog.Config) (codec : Codec) : World Backing where
  encode state entry := (state, codec.encode entry)
  append state bytes :=
    match state.log.append cfg state.dir bytes with
    | (_, _, .error (.panic message)) => .error ⟨message⟩
    | (log, writes, .error (.io _ message)) => .ok ({ state with dir := state.dir.applyAll writes, log := log }, .error message)
    | (log, writes, .ok off) => .ok ({ state with dir := state.dir.applyAll writes, log := log }, .ok off)
  read state off buf :=
    match state.log.read state.dir off buf with
    | (_, _, _, .error (.panic message)) => .error ⟨message⟩
    | (log, writes, buf, .error (.io _ message)) =>
        .ok ({ state with dir := state.dir.applyAll writes, log := log }, buf, .error message)
    | (log, writes, buf, .ok ()) => .ok ({ state with dir := state.dir.applyAll writes, log := log }, buf, .ok ())
  decode state bytes := (state, codec.decode bytes)
  apply state command := ({ state with given := command :: state.given }, .ok ())
  saveState state _ := (state, .ok ())

-- A runtime and the writes it has handled, newest first.
structure Service where
  runtime : Runtime Backing
  handled : List Message

-- The commands of the writes that were answered Ok, newest first.
def Service.accepted (service : Service) : List Bytes :=
  (service.handled.zip service.runtime.replies).filterMap fun (message, _, result) =>
    if result.isOk then some message.data else none

-- The store file has offsets for the record that the write becomes.
def storable (codec : Codec) (runtime : Runtime Backing) (message : Message) : Bool :=
  match codec.encode (entryOf runtime message) with
  | .error _ => true
  | .ok bytes => runtime.world.log.fits bytes

section Serve

variable (cfg : SegmentLog.Config) (codec : Codec)

def serve (service : Service) (message : Message) : Option Service :=
  if storable codec service.runtime message then
    (step (backed cfg codec) service.runtime message).map fun runtime => ⟨runtime, message :: service.handled⟩
  else none

-- Runtime::new on the log of an empty directory.
def Started (id : NodeId) (voters : List NodeId) (state : State) (service : Service) : Prop :=
  ∃ log next, (SegmentLog.Log.new cfg SegmentLog.emptyDir).2 = .ok log ∧ log.nextOffset = .ok next ∧
    service = ⟨newRuntime id voters next state .leader
      ⟨SegmentLog.emptyDir.applyAll (SegmentLog.Log.new cfg SegmentLog.emptyDir).1, log, []⟩, []⟩

def served (id : NodeId) (voters : List NodeId) (state : State) : Machine Service Message :=
  ⟨Started cfg id voters state, serve cfg codec⟩

end Serve

structure EndToEnd (codec : Codec) (service : Service) : Prop where
  answered : service.runtime.replies.map Prod.fst = service.handled.map Message.reply
  given : service.runtime.world.given = service.accepted
  logged : ∀ index command, service.accepted.reverse[index]? = some command → ∀ buf, ∃ bytes,
    (service.runtime.world.log.read service.runtime.world.dir (index + 1) buf).2.2 = (bytes, .ok ()) ∧
      codec.decode bytes = .ok ⟨service.runtime.raft.currentTerm, command⟩
  applied : service.runtime.raft.lastApplied = service.accepted.length
  committed : service.runtime.raft.commitIndex = service.accepted.length
  last : service.runtime.raft.lastLogIndex = service.accepted.length

-- The log holds the encoded entries, and the runtime is between two writes.
structure Persisted (cfg : SegmentLog.Config) (codec : Codec) (service : Service) (data : List Bytes) : Prop where
  alone : Alone service.runtime.raft
  quiet : service.runtime.operations = ∅
  leader : service.runtime.raft.role = .leader
  stands : SegmentLog.Stands cfg ⟨2 ^ 32, true⟩ service.runtime.world.dir (some service.runtime.world.log) data
  decodes : List.Forall₂ (fun bytes command => codec.decode bytes = .ok ⟨service.runtime.raft.currentTerm, command⟩) data
    service.accepted.reverse
  answered : service.runtime.replies.map Prod.fst = service.handled.map Message.reply
  ids : service.runtime.nextOperationId = service.handled.length + 1
  given : service.runtime.world.given = service.accepted
  applied : service.runtime.raft.lastApplied = data.length
  committed : service.runtime.raft.commitIndex = data.length
  last : service.runtime.raft.lastLogIndex = data.length

theorem persisted_end_to_end (cfg : SegmentLog.Config) (first : cfg.initalOffset = 1) (codec : Codec) (service : Service)
    (data : List Bytes) (persisted : Persisted cfg codec service data) : EndToEnd codec service := by
  have length : data.length = service.accepted.length := by
    rw [persisted.decodes.length_eq, List.length_reverse]
  constructor
  case answered => exact persisted.answered
  case given => exact persisted.given
  case logged =>
    intro index command found buf
    have bound : index < data.length := by
      rw [persisted.decodes.length_eq]
      exact (List.getElem?_eq_some_iff.mp found).1
    have record := List.getElem?_eq_getElem bound
    have read := SegmentLog.stands_whole cfg ⟨2 ^ 32, true⟩ _ _ data persisted.stands rfl le_rfl index _ buf record
    rw [first, Nat.add_comm] at read
    refine ⟨_, read, ?_⟩
    have same := persisted.decodes.get bound (List.getElem?_eq_some_iff.mp found).1
    rw [List.get_eq_getElem, List.get_eq_getElem, (List.getElem?_eq_some_iff.mp found).2] at same
    exact same
  case applied => exact persisted.applied.trans length
  case committed => exact persisted.committed.trans length
  case last => exact persisted.last.trans length

section Step

variable (cfg : SegmentLog.Config) (codec : Codec)

section Stands

variable (terms : SegmentLog.Terms) (state : Backing) (data : List Bytes)
  (stands : SegmentLog.Stands cfg terms state.dir (some state.log) data)

include stands

theorem backed_append (bytes : Bytes) (fits : state.log.fits bytes = true) (room : state.log.roomFor terms.limit = true)
    (offsets : cfg.initalOffset + data.length < u64Max) :
    ∃ later answer, (backed cfg codec).append state bytes = .ok (later, answer) ∧ later.given = state.given ∧
      (answer = .ok (cfg.initalOffset + data.length) ∧
          SegmentLog.Stands cfg terms later.dir (some later.log) (data ++ [bytes]) ∨
        (∃ error, answer = .error error) ∧ SegmentLog.Stands cfg terms later.dir (some later.log) data) := by
  have alive := SegmentLog.append_alive cfg terms state.dir state.log data stands bytes fits room offsets
  have grown := SegmentLog.stands_append cfg terms state.dir state.log data stands bytes fits room alive
  cases same : state.log.append cfg state.dir bytes with
  | mk log outcome =>
      obtain ⟨writes, answer⟩ := outcome
      rw [same] at grown
      simp only [backed, same]
      rcases grown with ⟨here, added⟩ | ⟨refused, kept⟩
      · cases here
        exact ⟨_, _, rfl, rfl, .inl ⟨rfl, added⟩⟩
      · cases refused
        exact ⟨_, _, rfl, rfl, .inr ⟨⟨_, rfl⟩, kept⟩⟩

end Stands

-- The backing once the log has been read.
def Backing.afterRead (state : Backing) (off : Nat) (buf : Bytes) : Backing :=
  { state with
    dir := state.dir.applyAll (state.log.read state.dir off buf).2.1
    log := (state.log.read state.dir off buf).1 }

theorem backed_read (state : Backing) (off : Nat) (buf record : Bytes)
    (read : (state.log.read state.dir off buf).2.2 = (record, .ok ())) :
    (backed cfg codec).read state off buf = .ok (state.afterRead off buf, record, .ok ()) := by
  rw [Backing.afterRead]
  cases same : state.log.read state.dir off buf with
  | mk log outcome =>
      obtain ⟨writes, filled, answer⟩ := outcome
      rw [same] at read
      cases read
      simp only [backed, same]

-- The runtime behind the loop of ApplyCommitted, when that has read and applied one entry.
def Runtime.caughtUp (runtime : Runtime Backing) (message : Message) (final : Backing) (record : Bytes) (entry : LogEntry) :
    Runtime Backing :=
  { runtime.committing message (runtime.raft.lastApplied + 1) final record with
    world := { final with given := entry.command :: final.given }
    applied := (runtime.raft.lastApplied + 1) :: runtime.applied }

-- The runtime that has answered the write, too.
def written (runtime : Runtime Backing) (message : Message) (final : Backing) (record : Bytes) (entry : LogEntry) :
    Runtime Backing :=
  runtime.answered (appliedRaft runtime.raft (localEntry runtime (runtime.raft.lastApplied + 1)) (.ok ()))
    { final with given := entry.command :: final.given } record ((runtime.raft.lastApplied + 1) :: runtime.applied) message.reply
    (.ok ())

theorem unapplied_next (raft : Raft) (most : raft.lastApplied + 1 < u64Max) :
    unapplied raft (raft.lastApplied + 1) = [raft.lastApplied + 1] := by
  have first : saturatingAdd raft.lastApplied 1 = raft.lastApplied + 1 := Nat.min_eq_left most.le
  rw [unapplied, first, Nat.add_sub_cancel_left]
  rfl

-- A write whose entry is appended behind the last applied one: what the log gives back
-- there is applied.
theorem write_applies (runtime : Runtime Backing) (message : Message) (leader : runtime.raft.role = .leader) (bytes : Bytes)
    (encodes : codec.encode (entryOf runtime message) = .ok bytes) (later : Backing)
    (appended : (backed cfg codec).append runtime.world bytes = .ok (later, .ok (runtime.raft.lastApplied + 1)))
    (most : runtime.raft.lastApplied + 1 < u64Max) (record : Bytes)
    (read : (later.log.read later.dir (runtime.raft.lastApplied + 1) []).2.2 = (record, .ok ())) (entry : LogEntry)
    (decoded : codec.decode record = .ok entry) :
    WriteStep (backed cfg codec) runtime message
      (.ok (written runtime message (later.afterRead (runtime.raft.lastApplied + 1) []) record entry)) := by
  have encoded : (backed cfg codec).encode runtime.world (entryOf runtime message) = (runtime.world, .ok bytes) :=
    congrArg _ encodes
  have loaded := backed_read cfg codec later (runtime.raft.lastApplied + 1) [] record read
  have ran : applyEntries (backed cfg codec) (runtime.committing message (runtime.raft.lastApplied + 1) later bytes)
      (unapplied runtime.raft (runtime.raft.lastApplied + 1)) =
      .ok (runtime.caughtUp message (later.afterRead (runtime.raft.lastApplied + 1) []) record entry, .ok ()) := by
    have world : (runtime.committing message (runtime.raft.lastApplied + 1) later bytes).world = later := rfl
    rw [unapplied_next runtime.raft most, applyEntries, applyEntry, world, loaded]
    simp only [backed, decoded, applyEntries]
    rfl
  exact .applies leader _ later bytes _ _ _ encoded appended most ran

theorem serve_ends (service : Service) (message : Message) (alone : Alone service.runtime.raft)
    (quiet : service.runtime.operations = ∅) (ids : service.runtime.nextOperationId < u64Max)
    (storable : storable codec service.runtime message = true) (after : Runtime Backing)
    (ends : WriteStep (backed cfg codec) service.runtime message (.ok after)) :
    serve cfg codec service message = some ⟨after, message :: service.handled⟩ := by
  rw [serve, if_pos storable, step_ends (backed cfg codec) service.runtime after message alone quiet ids ends]
  rfl

theorem accepted_length (service : Service) : service.accepted.length ≤ service.handled.length := by
  refine (List.length_filterMap_le _ _).trans ?_
  rw [List.length_zip]
  exact Nat.min_le_left _ _

theorem accepted_error (runtime after : Runtime Backing) (handled : List Message) (message : Message) (failure : Failure)
    (replies : after.replies = (message.reply, .error failure) :: runtime.replies) :
    (⟨after, message :: handled⟩ : Service).accepted = (⟨runtime, handled⟩ : Service).accepted := by
  simp only [Service.accepted, replies]
  rfl

theorem accepted_ok (runtime after : Runtime Backing) (handled : List Message) (message : Message)
    (replies : after.replies = (message.reply, .ok ()) :: runtime.replies) :
    (⟨after, message :: handled⟩ : Service).accepted = message.data :: (⟨runtime, handled⟩ : Service).accepted := by
  simp only [Service.accepted, replies]
  rfl

-- A write that is answered with an error leaves the records, the indexes and the FSM as they were.
theorem persisted_refused (service : Service) (message : Message) (data : List Bytes)
    (persisted : Persisted cfg codec service data) (later : Backing) (buf : Bytes) (failure : Failure)
    (given : later.given = service.runtime.world.given)
    (stands : SegmentLog.Stands cfg ⟨2 ^ 32, true⟩ later.dir (some later.log) data) :
    Persisted cfg codec ⟨service.runtime.answered service.runtime.raft later buf service.runtime.applied message.reply
      (.error failure), message :: service.handled⟩ data := by
  have accepted := accepted_error service.runtime (service.runtime.answered service.runtime.raft later buf
    service.runtime.applied message.reply (.error failure)) service.handled message failure rfl
  constructor
  case alone => exact persisted.alone
  case quiet => rfl
  case leader => exact persisted.leader
  case stands => exact stands
  case decodes => rw [accepted]; exact persisted.decodes
  case answered => exact congrArg (message.reply :: ·) persisted.answered
  case ids => exact congrArg (· + 1) persisted.ids
  case given => rw [accepted]; exact given.trans persisted.given
  case applied => exact persisted.applied
  case committed => exact persisted.committed
  case last => exact persisted.last

theorem persisted_written (service : Service) (message : Message) (data : List Bytes)
    (persisted : Persisted cfg codec service data) (final : Backing) (bytes : Bytes)
    (given : final.given = service.runtime.world.given)
    (stands : SegmentLog.Stands cfg ⟨2 ^ 32, true⟩ final.dir (some final.log) (data ++ [bytes]))
    (decoded : codec.decode bytes = .ok (entryOf service.runtime message)) :
    Persisted cfg codec ⟨written service.runtime message final bytes (entryOf service.runtime message),
      message :: service.handled⟩ (data ++ [bytes]) := by
  have accepted := accepted_ok service.runtime (written service.runtime message final bytes (entryOf service.runtime message))
    service.handled message rfl
  have more : service.runtime.raft.lastApplied + 1 = (data ++ [bytes]).length := by
    rw [persisted.applied, List.length_append, List.length_singleton]
  have alone := committed_alone service.runtime.raft
    (localEntry service.runtime (service.runtime.raft.lastApplied + 1)) persisted.alone
  constructor
  case alone => exact ⟨alone.voters, alone.member, alone.learners⟩
  case quiet => rfl
  case leader => exact persisted.leader
  case stands => exact stands
  case decodes =>
    rw [accepted, List.reverse_cons]
    exact List.rel_append persisted.decodes (.cons decoded .nil)
  case answered => exact congrArg (message.reply :: ·) persisted.answered
  case ids => exact congrArg (· + 1) persisted.ids
  case given =>
    rw [accepted]
    exact congrArg (message.data :: ·) (given.trans persisted.given)
  case applied => exact more
  case committed => exact more
  case last => exact more

theorem started_persisted (id : NodeId) (voters : List NodeId) (only : ∀ voter, voter ∈ voters ↔ voter = id) (state : State)
    (service : Service) (started : Started cfg id voters state service) : Persisted cfg codec service [] := by
  obtain ⟨log, next, opened, _, rfl⟩ := started
  constructor
  case alone => exact new_alone id voters next state .leader only
  case quiet => rfl
  case leader => rfl
  case stands =>
    exact SegmentLog.stands_start cfg ⟨2 ^ 32, true⟩ SegmentLog.emptyDir [] (SegmentLog.empty_stands cfg _) log opened
  case decodes => exact .nil
  case answered => rfl
  case ids => rfl
  case given => rfl
  case applied => rfl
  case committed => rfl
  case last => rfl

variable (first : cfg.initalOffset = 1)

include first

-- A write adds its entry to the log, has it applied and is answered Ok, or changes nothing.
theorem persisted_write (service : Service) (message : Message) (data : List Bytes)
    (persisted : Persisted cfg codec service data) (room : service.runtime.world.log.roomFor (2 ^ 32) = true)
    (storable : storable codec service.runtime message = true) (ids : service.runtime.nextOperationId < u64Max) :
    ∃ after later, WriteStep (backed cfg codec) service.runtime message (.ok after) ∧
      Persisted cfg codec ⟨after, message :: service.handled⟩ later := by
  cases encodes : codec.encode (entryOf service.runtime message) with
  | error error =>
      exact ⟨_, data, .unencoded persisted.leader _ error (congrArg _ encodes),
        persisted_refused cfg codec service message data persisted _ _ _ rfl persisted.stands⟩
  | ok bytes =>
      rw [Drive.storable, encodes] at storable
      have decoded := codec.inverse _ _ encodes
      have next : cfg.initalOffset + data.length = service.runtime.raft.lastApplied + 1 := by
        rw [first, persisted.applied, Nat.add_comm]
      have offsets : service.runtime.raft.lastApplied + 1 < u64Max := by
        have few := accepted_length service
        have length := persisted.decodes.length_eq
        rw [List.length_reverse] at length
        rw [persisted.ids] at ids
        rw [persisted.applied]
        omega
      obtain ⟨later, answer, appended, given, ⟨rfl, added⟩ | ⟨⟨error, rfl⟩, kept⟩⟩ :=
        backed_append cfg codec _ _ data persisted.stands bytes storable room (next ▸ offsets)
      · have record : (data ++ [bytes])[data.length]? = some bytes := by simp
        have whole := SegmentLog.stands_whole cfg ⟨2 ^ 32, true⟩ _ _ _ added rfl le_rfl data.length bytes [] record
        rw [next] at appended whole
        have kept := SegmentLog.stands_read cfg ⟨2 ^ 32, true⟩ _ _ _ added (service.runtime.raft.lastApplied + 1) []
        exact ⟨_, data ++ [bytes], write_applies cfg codec service.runtime message persisted.leader bytes encodes later appended
            offsets bytes whole _ decoded,
          persisted_written cfg codec service message data persisted _ bytes given kept decoded⟩
      · exact ⟨_, data, .unappended persisted.leader _ later bytes error (congrArg _ encodes) appended,
          persisted_refused cfg codec service message data persisted _ _ _ given kept⟩

-- Nothing but the end of the numbers stops it.
theorem persisted_serves (service : Service) (message : Message) (data : List Bytes)
    (persisted : Persisted cfg codec service data) (room : service.runtime.world.log.roomFor (2 ^ 32) = true)
    (storable : storable codec service.runtime message = true) (ids : service.runtime.nextOperationId < u64Max) :
    ∃ next later, serve cfg codec service message = some next ∧ Persisted cfg codec next later := by
  obtain ⟨after, later, ends, wrote⟩ := persisted_write cfg codec first service message data persisted room storable ids
  exact ⟨_, later, serve_ends cfg codec service message persisted.alone persisted.quiet ids storable after ends, wrote⟩

theorem persisted_step (service next : Service) (message : Message) (data : List Bytes)
    (persisted : Persisted cfg codec service data) (room : service.runtime.world.log.roomFor (2 ^ 32) = true)
    (moves : serve cfg codec service message = some next) : ∃ later, Persisted cfg codec next later := by
  have served := moves
  rw [serve] at moves
  split at moves
  case isFalse => cases moves
  rename_i storable
  obtain ⟨after, stepped, _⟩ := Option.map_eq_some_iff.mp moves
  obtain ⟨_, later, again, wrote⟩ := persisted_serves cfg codec first service message data persisted room storable
    (step_ids (backed cfg codec) service.runtime after message stepped)
  cases served.symm.trans again
  exact ⟨later, wrote⟩

-- The condition: a write finds the active segment without a free slot or with fewer than
-- 2^32 records.
theorem writes_applied (id : NodeId) (voters : List NodeId) (only : ∀ voter, voter ∈ voters ↔ voter = id) (state : State)
    (service : Service) (run : Run (served cfg codec id voters state)
      (fun service _ => service.runtime.world.log.roomFor (2 ^ 32) = true) service) :
    EndToEnd codec service ∧ ∀ message, service.runtime.world.log.roomFor (2 ^ 32) = true →
      storable codec service.runtime message = true → service.handled.length + 1 < u64Max →
      ∃ next, serve cfg codec service message = some next := by
  have persists : ∃ data, Persisted cfg codec service data := by
    apply run_invariant (served cfg codec id voters state) _ (fun service => ∃ data, Persisted cfg codec service data) ?_ ?_
      service run
    · intro service started
      exact ⟨[], started_persisted cfg codec id voters only state service started⟩
    · intro service message next _ before room moves
      obtain ⟨data, persisted⟩ := before
      exact persisted_step cfg codec first service next message data persisted room moves
  obtain ⟨data, persisted⟩ := persists
  refine ⟨persisted_end_to_end cfg first codec service data persisted, fun message room storable few => ?_⟩
  rw [← persisted.ids] at few
  obtain ⟨next, _, serves, _⟩ := persisted_serves cfg codec first service message data persisted room storable few
  exact ⟨next, serves⟩

end Step

-- Entries whose term and length are varints of one byte.
def shortCodec : Codec where
  encode entry :=
    if 0 < entry.term ∧ entry.term < 128 ∧ 0 < entry.command.length ∧ entry.command.length < 128 then
      .ok ([0x10, UInt8.ofNat entry.term, 0x1A, UInt8.ofNat entry.command.length] ++ entry.command)
    else .error "not a short entry"
  decode
    | 0x10 :: term :: 0x1A :: _ :: command => .ok ⟨term.toNat, command⟩
    | _ => .error "not a short entry"
  inverse := by
    intro entry bytes encoded
    split at encoded
    case isFalse => cases encoded
    rename_i short
    cases encoded
    have term : (UInt8.ofNat entry.term).toNat = entry.term := by
      rw [UInt8.toNat_ofNat']
      omega
    simp only [List.cons_append, List.nil_append, term]

-- An index of two slots and a half: the third append is refused.
def tightConfig : SegmentLog.Config := ⟨1, true, 30, 1024⟩

def tightStart : Service where
  runtime := newRuntime nodeA [nodeA] 1 ⟨7, none⟩ .leader
    ⟨SegmentLog.emptyDir.applyAll (SegmentLog.Log.new tightConfig SegmentLog.emptyDir).1,
      (SegmentLog.Log.new tightConfig SegmentLog.emptyDir).2.toOption.getD ⟨0, []⟩, []⟩
  handled := []

def tight : Machine Service Message := served tightConfig shortCodec nodeA [nodeA] ⟨7, none⟩

def tightAfter (messages : List Message) : Service :=
  (execWhen tight (fun service _ => service.runtime.world.log.roomFor (2 ^ 32)) tightStart messages).getD tightStart

theorem tight_after_run (messages : List Message)
    (runs : (execWhen tight (fun service _ => service.runtime.world.log.roomFor (2 ^ 32)) tightStart messages).isSome = true) :
    Run tight (fun service _ => service.runtime.world.log.roomFor (2 ^ 32) = true) (tightAfter messages) := by
  have starts : tight.start tightStart := ⟨_, 1, by decide +kernel, by decide +kernel, rfl⟩
  exact exec_when_reaches tight _ _ (fun _ _ meets => meets) messages tightStart tightStart (.start tightStart starts) runs

theorem two_writes_applied : (tightAfter threeWrites).handled.length = 3 ∧ (tightAfter threeWrites).accepted = [[2], [1]] ∧
    EndToEnd shortCodec (tightAfter threeWrites) :=
  ⟨by decide +kernel, by decide +kernel, (writes_applied tightConfig shortCodec rfl nodeA [nodeA] (fun _ => List.mem_singleton)
    ⟨7, none⟩ (tightAfter threeWrites) (tight_after_run threeWrites (by decide +kernel))).1⟩

end RaftLog.Drive
